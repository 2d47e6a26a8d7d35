import SchemaForge.Proofs.Generation.Lines
import SchemaForge.Proofs.Generation.Outcomes
import SchemaForge.Proofs.Java.Identifiers
import SchemaForge.Proofs.Java.Literals

/-
The name of a field in the text of its class: once in the declaration of its constant, once in the annotation of its
member. Both are the beginning of a line in the text of the class (`queryDeclaration_isInfix`, `declaration_isInfix`), and
this is the line of the file that is written (`quotes_of_isInfix`, `breaks_of_isInfix`).

A literal keeps the characters of its text, apart from the two it escapes. So a name that has a line feed or a carriage
return breaks its line, and `literals_of_generate` is about both kinds of names.
-/

namespace SchemaForge.Java

open Generation Generation.Pass Naming Text

/-! ## Literals on a line -/

/-- A line goes on after `opening` with a literal that denotes `n`, and ends with `rest`. -/
def Quotes (text opening n : String) (rest : List Char) : Prop :=
  ∃ after, opening.toList ++ after ∈ splitAt '\n' text.toList ∧ readLiteral? after = some (n.toList, rest)

/-- A line goes on after `opening` as if with the literal of `n`, but with none that can be read. -/
def Breaks (text opening n : String) : Prop :=
  ∃ after behind, opening.toList ++ after ∈ splitAt '\n' text.toList ∧ after <+: (stringLiteral n).toList ++ behind ∧
    readLiteral? after = none

section Line

variable {raw opening n closing rest : String}

/-- No literal ends in a blank. -/
theorem dropTail_stringLiteral (cs : List Char) (n : String) :
    dropTail isBlank (cs ++ (stringLiteral n).toList) = cs ++ (stringLiteral n).toList := by
  rw [toList_stringLiteral, ← List.cons_append, ← List.append_assoc]
  exact dropTail_concat (by decide) _

/-- The literal of a text without line ends is on one line, and so is `closing` if it has none and does not end in a
    blank. -/
theorem quotes_of_isInfix (h : ('\n' :: (opening ++ stringLiteral n ++ closing ++ rest).toList) <:+: raw.toList)
    (hopening : '\n' ∉ opening.toList) (hclosing : '\n' ∉ closing.toList)
    (hkept : dropTail isBlank closing.toList = closing.toList) (hfeed : '\n' ∉ n.toList) (hreturn : '\r' ∉ n.toList) :
    ∃ after behind, Quotes (tidy raw) opening n (closing.toList ++ after) ∧ after <+: rest.toList ++ behind ∧
      '\n' ∉ after := by
  obtain ⟨before, behind, hraw⟩ := h
  let start := opening.toList ++ (stringLiteral n).toList ++ closing.toList
  have hsplit : raw.toList = before ++ '\n' :: (start ++ (rest.toList ++ behind)) := by
    simp [← hraw, start]
  have hstart : '\n' ∉ start := by
    simp [start, hopening, hclosing, newline_not_mem_stringLiteral hfeed]
  have hstays : dropTail isBlank start = start := by
    rw [dropTail_append (dropTail_stringLiteral _ _), hkept]
  obtain ⟨after, hline, hleads, hafter⟩ := exists_line before _ hstart hstays (by simp [start, toList_stringLiteral])
  rw [← hsplit, ← toList_tidy, List.append_assoc, List.append_assoc] at hline
  exact ⟨after, behind, ⟨_, hline, readLiteral?_stringLiteral hfeed hreturn _⟩, hleads, hafter⟩

/-- That of a text with a line end is not. -/
theorem breaks_of_isInfix (h : ('\n' :: (opening ++ stringLiteral n ++ rest).toList) <:+: raw.toList)
    (hopening : '\n' ∉ opening.toList) (hn : '\n' ∈ n.toList ∨ '\r' ∈ n.toList) : Breaks (tidy raw) opening n := by
  obtain ⟨before, behind, hraw⟩ := h
  have hsplit : raw.toList = before ++ '\n' :: (opening.toList ++ ['"'] ++
      (n.toList.flatMap escapeChar ++ ['"'] ++ (rest.toList ++ behind))) := by
    simp [← hraw, toList_stringLiteral]
  have hstart : '\n' ∉ opening.toList ++ ['"'] := by
    simp [hopening]
  obtain ⟨after, hline, hleads, -⟩ := exists_line before _ hstart (dropTail_concat (by decide) _) (by simp)
  rw [← hsplit, ← toList_tidy, List.append_assoc] at hline
  have hliteral : '"' :: after <+: (stringLiteral n).toList ++ (rest.toList ++ behind) := by
    rw [toList_stringLiteral, List.cons_append]
    exact (List.prefix_cons_inj _).mpr hleads
  exact ⟨_, _, hline, hliteral, readLiteral?_of_isPrefix hn hliteral⟩

end Line

/-! ## Where the declarations stand -/

def EndsLine (text : String) : Prop := ['\n'] <:+ text.toList

instance (text : String) : Decidable (EndsLine text) := inferInstanceAs (Decidable (_ <:+ _))

theorem endsLine_append {t : String} (h : EndsLine t) (s : String) : EndsLine (s ++ t) := by
  unfold EndsLine
  rw [String.toList_append]
  exact h.trans (List.suffix_append _ _)

section Parts

variable {α : Type} {part : α → String} {xs : List α} {start : String}

theorem endsLine_join (hstart : EndsLine start) (hpart : ∀ x, EndsLine (part x)) :
    EndsLine (start ++ String.join (xs.map part)) := by
  induction xs generalizing start with
  | nil => rwa [List.map_nil, String.join_nil, String.append_empty]
  | cons x xs ih =>
    rw [List.map_cons, String.join_cons, ← String.append_assoc]
    exact ih (endsLine_append (hpart x) start)

/-- Where every part ends its line, every part begins one. -/
theorem isInfix_join (hstart : EndsLine start) (hpart : ∀ x, EndsLine (part x)) {x : α} (hx : x ∈ xs) :
    ('\n' :: (part x).toList) <:+: (start ++ String.join (xs.map part)).toList := by
  induction xs generalizing start with
  | nil => cases hx
  | cons y ys ih =>
    rw [List.map_cons, String.join_cons, ← String.append_assoc]
    rcases List.mem_cons.mp hx with rfl | hx
    · obtain ⟨before, hbefore⟩ := hstart
      refine ⟨before, (String.join (ys.map part)).toList, ?_⟩
      simp [← hbefore]
    · exact ih (endsLine_append (hpart y) start) hx

theorem isInfix_append {l : List Char} {s t : String} (h : l <:+: s.toList) : l <:+: (s ++ t).toList := by
  rw [String.toList_append]
  exact h.trans (List.prefix_append _ _).isInfix

theorem isInfix_intercalate {sep s : String} {ss : List String} (hs : s ∈ ss) :
    s.toList <:+: (String.intercalate sep ss).toList := by
  induction ss with
  | nil => cases hs
  | cons t ss ih =>
    cases ss with
    | nil =>
      obtain rfl := List.mem_singleton.mp hs
      exact String.intercalate_singleton (s := sep) ▸ List.infix_rfl
    | cons u ss =>
      rw [String.intercalate_cons_cons]
      rcases List.mem_cons.mp hs with rfl | hs
      · exact isInfix_append (isInfix_append List.infix_rfl)
      · rw [String.toList_append]
        exact (ih hs).trans (List.suffix_append _ _).isInfix

end Parts

section Declarations

variable {c : ClassDecl} {x : Member}

theorem endsLine_heading (c : ClassDecl) : EndsLine c.heading := endsLine_append (by decide) _

theorem endsLine_queryDeclaration (x : Member) : EndsLine x.queryDeclaration := endsLine_append (by decide) _

theorem endsLine_declaration (x : Member) : EndsLine x.declaration := endsLine_append (by decide) _

theorem source_eq_append (c : ClassDecl) :
    ∃ later, c.source = c.heading ++ String.join (c.members.map Member.queryDeclaration) ++
      String.join (c.members.map Member.declaration) ++ later := by
  unfold ClassDecl.source
  simp only [String.append_assoc]
  exact ⟨_, rfl⟩

theorem queryDeclaration_isInfix (hx : x ∈ c.members) : ('\n' :: x.queryDeclaration.toList) <:+: c.source.toList := by
  obtain ⟨later, hsource⟩ := source_eq_append c
  rw [hsource]
  exact isInfix_append (isInfix_append (isInfix_join (endsLine_heading c) endsLine_queryDeclaration hx))

theorem declaration_isInfix (hx : x ∈ c.members) : ('\n' :: x.declaration.toList) <:+: c.source.toList := by
  obtain ⟨later, hsource⟩ := source_eq_append c
  rw [hsource]
  refine isInfix_append (isInfix_join ?_ endsLine_declaration hx)
  exact endsLine_join (endsLine_heading c) endsLine_queryDeclaration

theorem source_isInfix {head : String} {sources : List String} {source : String} (h : source ∈ sources) :
    source.toList <:+: (fileOf head sources).toList := by
  refine isInfix_intercalate (List.mem_cons_of_mem _ ?_)
  exact List.mem_flatMap.mpr ⟨source, h, List.mem_cons_of_mem _ (List.mem_singleton_self _)⟩

end Declarations

/-! ## The lines of a file -/

/-- How the declaration of the constant of a field begins. -/
def queryOpening (f : Field) : String := "  public static final QueryField " ++ f.queryName ++ " = field("

/-- How the declaration of every member begins. -/
def targetOpening : String := "  private final @ModelField(targetName = "

theorem newline_not_mem_queryOpening (f : Field) : '\n' ∉ (queryOpening f).toList := by
  intro h
  unfold queryOpening at h
  rw [String.toList_append, String.toList_append, List.mem_append, List.mem_append] at h
  rcases h with (h | h) | h
  · simp at h
  · rw [Field.queryName, convert_eq, if_neg (Bool.eq_false_iff.mp (forbids_constant _))] at h
    exact absurd (isIdentifierChar_of_mem_styled h) (by decide)
  · simp at h

theorem newline_not_mem_targetOpening : '\n' ∉ targetOpening.toList := by
  simp [targetOpening]

section Members

variable {mapper : TypeMapper} {f : Field} {s t : Session} {x : Member}

/-- Only a field whose name is a text has a member. -/
theorem name_of_yields_member (h : Yields (member mapper f) s x t) : ∃ n, f.name = .str n := by
  simp only [member, TypeMapper.fieldNames, yields_bind, yields_ofFault] at h
  obtain ⟨_, _, ⟨_, _, ⟨hmember, -⟩, -⟩, -⟩ := h
  obtain ⟨n, hn, -⟩ := Runs.bind_eq_ok.mp hmember
  exact ⟨n, toText_eq_ok hn⟩

theorem annotations_of_yields_member (h : Yields (member mapper f) s x t) :
    ∃ later, x.annotations = modelFieldText f :: later := by
  obtain ⟨-, -, -, -, u, -, h⟩ := yields_member h
  simp only [fieldAnnotations, yields_bind, yields_pure] at h
  obtain ⟨texts, _, -, hannotations, -⟩ := h
  exact ⟨_, hannotations⟩

/-- The opening quote of the type, too, stands behind every name. -/
def targetClosing : String := ", targetType = \""

theorem queryDeclaration_of_yields {n : String} (h : Yields (member mapper f) s x t) (hn : f.name = .str n) :
    x.queryDeclaration = queryOpening f ++ stringLiteral n ++ ");" ++ "\n" := by
  have hquery := queryName_of_yields h
  obtain ⟨rfl, -⟩ := yields_member h
  have hend : ");\n" = ");" ++ "\n" := rfl
  unfold Member.queryDeclaration queryOpening literal
  rw [hquery, hn, hend, ← String.append_assoc]
  rfl

theorem modelFieldText_eq {n : String} (hn : f.name = .str n) :
    ∃ rest, modelFieldText f = "ModelField(" ++ "targetName = " ++ stringLiteral n ++ targetClosing ++ rest := by
  have hclosing : targetClosing = ", " ++ ("targetType = " ++ "\"") := by simp [targetClosing]
  have hbrace : "ModelField(" = "ModelField" ++ "(" := by simp
  obtain ⟨type, htype⟩ : ∃ type, literal f.type = "\"" ++ type := by
    refine ⟨String.ofList (f.type.display.toList.flatMap escapeChar ++ ['"']), String.toList_inj.mp ?_⟩
    simp [literal, toList_stringLiteral]
  unfold modelFieldText annotationText
  rw [htype, hn, hclosing, hbrace, List.cons_append, List.cons_append, String.intercalate_cons_cons,
    String.intercalate_cons_append, String.intercalate_cons_append]
  simp only [-String.reduceAppend, String.append_assoc]
  exact ⟨_, rfl⟩

theorem declaration_of_yields {n : String} (h : Yields (member mapper f) s x t) (hn : f.name = .str n) :
    ∃ rest, x.declaration = targetOpening ++ stringLiteral n ++ targetClosing ++ rest := by
  obtain ⟨later, hannotations⟩ := annotations_of_yields_member h
  obtain ⟨rest, hfield⟩ := modelFieldText_eq hn
  have hopening : targetOpening = "  private final " ++ ("@" ++ ("ModelField(" ++ "targetName = ")) := by
    simp [targetOpening]
  unfold Member.declaration
  rw [hannotations, List.map_cons, String.join_cons, hfield, hopening]
  simp only [-String.reduceAppend, String.append_assoc]
  exact ⟨_, rfl⟩

end Members

/-- A generator that was given no settings. -/
def defaults : Generator := { backend := backend, settings := {} }

/-- In class mode `generate` hands out what the class pass writes, tidied. -/
theorem yields_of_generate {g : Generator} {schema : Schema} {mode : Option Mode} {text : String}
    (hg : g.backend = backend)
    (hmode : mode = some .classes ∨ mode = none ∧ resolveMode g.settings schema = .ok .classes)
    (h : (g.generate schema mode).1 = .ok text) :
    ∃ s raw t, Yields (classPass g.settings schema) s raw t ∧ text = tidy raw := by
  have htext : ∃ s t, Yields (do
      Pass.note .info ("Generating " ++ Mode.classes.name ++ " (" ++ g.backend.language ++ ")")
      return tidy (← g.modePass schema .classes)) s text t := by
    rw [generate_eq_outcome] at h
    obtain ⟨t, h⟩ := exists_yields_of_outcome h
    rcases hmode with rfl | ⟨rfl, hmode⟩
    · exact ⟨_, t, h⟩
    · obtain ⟨m, s, hm, h⟩ := yields_bind.mp h
      obtain ⟨hm, -⟩ := yields_ofExcept.mp hm
      obtain rfl := Except.ok.inj (hm.symm.trans hmode)
      exact ⟨s, t, h⟩
  obtain ⟨s, t, h⟩ := htext
  simp only [yields_bind, yields_pure] at h
  obtain ⟨-, u, -, raw, t', hraw, rfl, -⟩ := h
  refine ⟨u, raw, t', ?_, rfl⟩
  rw [Generator.modePass, hg] at hraw
  exact hraw

/-- A member of every field stands in the text. -/
theorem member_of_generate {g : Generator} {schema : Schema} {mode : Option Mode} {text : String}
    (hg : g.backend = backend)
    (hmode : mode = some .classes ∨ mode = none ∧ resolveMode g.settings schema = .ok .classes)
    (h : (g.generate schema mode).1 = .ok text) :
    ∃ mapper models raw, selectedModels g.settings schema = .ok models ∧ text = tidy raw ∧
      ∀ m ∈ Entries.values models, ∀ f ∈ m.fields, ∃ s t x, Yields (member mapper f) s x t ∧
        ('\n' :: x.queryDeclaration.toList) <:+: raw.toList ∧ ('\n' :: x.declaration.toList) <:+: raw.toList := by
  obtain ⟨s, raw, t, hraw, htext⟩ := yields_of_generate hg hmode h
  obtain ⟨mapper, models, _, _, cs, head, -, hmodels, -, hcs, -, hfile⟩ := yields_classPass hraw
  refine ⟨mapper, models, raw, hmodels, htext, fun m hm f hf => ?_⟩
  obtain ⟨c, hc, _, _, hdeclared⟩ := exists_yields_of_mem hcs hm
  obtain ⟨_, _, _, -, -, hmembers, -⟩ := yields_ofModel hdeclared
  obtain ⟨x, hx, s, t, hmember⟩ := exists_yields_of_mem hmembers hf
  have hsource : c.source.toList <:+: raw.toList := by
    rw [hfile]
    exact source_isInfix (List.mem_map_of_mem hc)
  exact ⟨s, t, x, hmember, (queryDeclaration_isInfix hx).trans hsource, (declaration_isInfix hx).trans hsource⟩

/-- Whatever names the fields have, one without line ends is denoted by both literals of its field, and with one
    neither literal can be read. -/
theorem literals_of_generate {g : Generator} {schema : Schema} {mode : Option Mode} {text : String}
    (hg : g.backend = backend)
    (hmode : mode = some .classes ∨ mode = none ∧ resolveMode g.settings schema = .ok .classes)
    (h : (g.generate schema mode).1 = .ok text) :
    ∃ models, selectedModels g.settings schema = .ok models ∧
      ∀ m ∈ Entries.values models, ∀ f ∈ m.fields, ∃ n, f.name = .str n ∧
        ('\n' ∉ n.toList ∧ '\r' ∉ n.toList → Quotes text (queryOpening f) n ");".toList ∧
          ∃ rest, Quotes text targetOpening n (targetClosing.toList ++ rest)) ∧
        ('\n' ∈ n.toList ∨ '\r' ∈ n.toList → Breaks text (queryOpening f) n ∧ Breaks text targetOpening n) := by
  obtain ⟨mapper, models, raw, hmodels, rfl, hall⟩ := member_of_generate hg hmode h
  refine ⟨models, hmodels, fun m hm f hf => ?_⟩
  obtain ⟨s, t, x, hx, hquery, htarget⟩ := hall m hm f hf
  obtain ⟨n, hn⟩ := name_of_yields_member hx
  obtain ⟨rest, hdeclaration⟩ := declaration_of_yields hx hn
  rw [queryDeclaration_of_yields hx hn] at hquery
  rw [hdeclaration] at htarget
  refine ⟨n, hn, fun hplain => ⟨?_, ?_⟩, fun hends => ⟨?_, ?_⟩⟩
  · obtain ⟨after, behind, hquotes, hleads, hafter⟩ := quotes_of_isInfix hquery (newline_not_mem_queryOpening f)
      (by decide) (by decide) hplain.1 hplain.2
    obtain rfl : after = [] := by
      rcases List.prefix_cons_iff.mp hleads with rfl | ⟨_, rfl, -⟩
      · rfl
      · exact absurd (List.mem_cons_self ..) hafter
    exact hquotes
  · obtain ⟨after, _, hquotes, -⟩ := quotes_of_isInfix htarget newline_not_mem_targetOpening
      (by simp [targetClosing]) (by simp [targetClosing, dropTail, isBlank]) hplain.1 hplain.2
    exact ⟨after, hquotes⟩
  · rw [String.append_assoc] at hquery
    exact breaks_of_isInfix hquery (newline_not_mem_queryOpening f) hends
  · rw [String.append_assoc] at htarget
    exact breaks_of_isInfix htarget newline_not_mem_targetOpening hends

/-- A name that quotes, with what looks like a Unicode escape. -/
def spoken : Field := { name := .str "say \"\\u000a\"", type := .str "String" }

/-- A name of two lines. -/
def stanza : Field := { name := .str "first\nlast", type := .str "String" }

def poem : Model :=
  { name := .str "Poem", fields := [{ name := .str "id", type := .str "ID", nullable := false }, spoken, stanza] }

def poems : Schema := { models := [(.str "Poem", poem)] }

theorem literals_of_poems :
    ∃ text, (({ backend := backend, settings := {} } : Generator).generate poems none).1 = .ok text ∧
      resolveMode {} poems = .ok .classes ∧ Quotes text (queryOpening spoken) "say \"\\u000a\"" ");".toList ∧
      (∃ rest, Quotes text targetOpening "say \"\\u000a\"" (targetClosing.toList ++ rest)) ∧
      Breaks text (queryOpening stanza) "first\nlast" ∧ Breaks text targetOpening "first\nlast" := by
  obtain ⟨text, t, h⟩ := exists_yields_of_succeeds
    (show succeeds (({ backend := backend, settings := {} } : Generator).textPass poems none) {} = true by
      decide +kernel)
  have hgenerated : (({ backend := backend, settings := {} } : Generator).generate poems none).1 = .ok text := by
    rw [generate_eq_outcome, outcome]
    exact congrArg Prod.fst h
  have hmode : resolveMode {} poems = .ok .classes := rfl
  obtain ⟨models, hmodels, hall⟩ := literals_of_generate rfl (Or.inr ⟨rfl, hmode⟩) hgenerated
  obtain rfl : poems.models = models := Except.ok.inj hmodels
  have hpoem : poem ∈ Entries.values poems.models := List.mem_singleton_self _
  obtain ⟨n, hn, hspoken, -⟩ := hall poem hpoem spoken (by simp [poem])
  obtain ⟨l, hl, -, hstanza⟩ := hall poem hpoem stanza (by simp [poem])
  obtain rfl := Json.str.inj hn
  obtain rfl := Json.str.inj hl
  obtain ⟨hquery, htarget⟩ := hspoken (by simp)
  obtain ⟨hquery', htarget'⟩ := hstanza (by simp)
  exact ⟨text, hgenerated, hmode, hquery, htarget, hquery', htarget'⟩

end SchemaForge.Java
