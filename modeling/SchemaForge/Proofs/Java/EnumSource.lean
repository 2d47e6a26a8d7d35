import SchemaForge.Proofs.Generation.Parts
import SchemaForge.Proofs.Java.Provider

/-
The text of enums, written and read. The template writes a declaration with one value to a line (`render_enumTemplate`).
No line of it is blank or ends in a blank, so tidying leaves it alone, and a file of enums is its head and the
declarations with an empty line before each (`tidy_fileOf`).

Reading goes from brace to brace. What is before an opening brace has to end in `enum` and a name, and what is in between
is a list with commas. Words without blanks, commas and braces are read as they were written, for any number of enums and
any number of values (`enums?_declarations`).
-/

namespace SchemaForge.Java

open Generation Text Template

/-- A word that can stand in a body: one of a list, without braces. -/
structure BodyWord (word : List Char) : Prop extends ListWord word where
  unopened : '\x7b' ∉ word
  unclosed : '\x7d' ∉ word

/-! ## What is written -/

namespace EnumSource

def comment (comments : Bool) : String :=
  if comments then "/** " ++ "Auto generated enum from GraphQL schema." ++ " */\n" else ""

def heading (comments : Bool) (name : String) : String :=
  comment comments ++ "@SuppressWarnings(\"all\")\n" ++ "public enum " ++ name

def valueLine (value : String) (last : Bool) : String := "  " ++ value ++ (if last then "" else ",") ++ "\n"

/-- The text of an enum, one value to a line. -/
def declaration (comments : Bool) (name : String) (values : List String) : String :=
  heading comments name ++ " \x7b\n" ++ lines valueLine values ++ "\x7d"

/-- Declarations behind the head of a file. -/
def declarations (ds : List String) : String :=
  if ds = [] then "" else "\n" ++ String.join (ds.map (fun d => "\n" ++ d ++ "\n"))

end EnumSource

open EnumSource

theorem render_enumTemplate (comments : Bool) (name : String) (e : EnumType) :
    enumTemplate.render (enumContext comments name e) =
      .ok (declaration comments name (e.values.map Json.display)) := by
  have hcomment : renderAll { bound := enumContext comments name e } (if
      (if comments then Json.str "Auto generated enum from GraphQL schema." else .null).truthy then
        [.text "/** ", .out (.var "description"), .text " */\n"] else []) = .ok (comment comments) := by
    cases comments
    · rfl
    · simp [enumContext, comment, Json.truthy, Except.map, Except.bind]
  have hvalues : ∀ v ∈ e.values, ∀ last, renderAll { bound := ("value", v) :: enumContext comments name e, last := last }
      [.text "  ", .out (.var "value"), .unlessLast ",", .text "\n"] = .ok (valueLine v.display last) := by
    intro v _ last
    simp [valueLine, Except.map, Except.bind, String.append_assoc]
  unfold Template.render enumTemplate
  rw [if_neg (by simp [enumContext, Entries.has])]
  simp only
  rw [renderAll_branch (by simp [enumContext]) hcomment]
  simp only [renderAll_text, renderAll_out]
  rw [renderAll_each id (fun v last => valueLine v.display last) e.values (by simp [enumContext]) hvalues,
    ← lines_map valueLine Json.display]
  simp [-String.reduceAppend, enumContext, declaration, heading, Except.bind, Except.map, String.append_assoc]

/-! ## How it is tidied -/

namespace EnumSource

variable {comments : Bool} {name : String} {values : List String}

def valueLines : List String → List (List Char)
  | [] => []
  | [v] => ["  ".toList ++ v.toList]
  | v :: w :: vs => ("  ".toList ++ v.toList ++ [',']) :: valueLines (w :: vs)

def textLines (comments : Bool) (name : String) (values : List String) : List (List Char) :=
  (if comments then ["/** Auto generated enum from GraphQL schema. */".toList] else []) ++
    ["@SuppressWarnings(\"all\")".toList, "public enum ".toList ++ name.toList ++ " \x7b".toList] ++
    valueLines values ++ [['\x7d']]

theorem toList_lines_valueLine (values : List String) :
    (lines valueLine values).toList = (valueLines values).flatMap (· ++ ['\n']) := by
  induction values with
  | nil => rfl
  | cons v vs ih =>
    cases vs with
    | nil => simp [lines, valueLine, valueLines]
    | cons w vs =>
      rw [lines, String.toList_append, ih, valueLines, List.flatMap_cons]
      simp [valueLine]

theorem toList_declaration (comments : Bool) (name : String) (values : List String) :
    (declaration comments name values).toList = joinWith ['\n'] (textLines comments name values) := by
  rw [textLines, joinWith_concat, List.flatMap_append, ← toList_lines_valueLine]
  cases comments <;> simp [declaration, heading, comment]

theorem proper_line {front : List Char} {c : Char} (hfront : '\n' ∉ front) (hc : isBlank c = false) :
    KeptLine.Proper ⟨front ++ [c], 0⟩ where
  ne_nil := List.append_ne_nil_of_right_ne_nil _ (List.cons_ne_nil _ _)
  trimmed := dropTail_concat hc front
  single := by
    rw [List.mem_append, List.mem_singleton, not_or]
    exact ⟨hfront, fun h => by rw [← h] at hc; revert hc; decide⟩

theorem proper_valueLines (hvalues : ∀ v ∈ values, BodyWord v.toList) :
    ∀ line ∈ valueLines values, KeptLine.Proper ⟨line, 0⟩ := by
  induction values with
  | nil => intro line h; cases h
  | cons v vs ih =>
    obtain ⟨hv, hvs⟩ := List.forall_mem_cons.mp hvalues
    have hnewline : '\n' ∉ "  ".toList ++ v.toList := by
      intro h
      rcases List.mem_append.mp h with h | h
      · revert h
        decide
      · have := hv.solid _ h
        revert this
        decide
    cases vs with
    | nil =>
      intro line h
      rw [valueLines, List.mem_singleton] at h
      obtain ⟨front, c, hfront⟩ : ∃ front c, v.toList = front ++ [c] :=
        ⟨_, _, (List.dropLast_append_getLast hv.ne_nil).symm⟩
      rw [h, hfront, ← List.append_assoc]
      rw [hfront, ← List.append_assoc] at hnewline
      exact proper_line (fun hmem => hnewline (List.mem_append_left _ hmem)) (hv.solid c (by simp [hfront]))
    | cons w vs =>
      rw [valueLines]
      exact List.forall_mem_cons.mpr ⟨proper_line hnewline (by decide), ih hvs⟩

theorem proper_textLines (hname : BodyWord name.toList) (hvalues : ∀ v ∈ values, BodyWord v.toList) :
    ∀ line ∈ textLines comments name values, KeptLine.Proper ⟨line, 0⟩ := by
  have hnewline : '\n' ∉ "public enum ".toList ++ name.toList ++ [' '] := by
    simp only [List.mem_append, not_or]
    refine ⟨⟨by decide, fun h => ?_⟩, by decide⟩
    have := hname.solid _ h
    revert this
    decide
  have hheading : KeptLine.Proper ⟨"public enum ".toList ++ name.toList ++ " \x7b".toList, 0⟩ := by
    rw [show " \x7b".toList = [' '] ++ ['\x7b'] from rfl, ← List.append_assoc]
    exact proper_line hnewline (by decide)
  have hcomment : ∀ line ∈ (if comments then ["/** Auto generated enum from GraphQL schema. */".toList] else []),
      KeptLine.Proper ⟨line, 0⟩ := by
    intro line h
    cases comments
    · cases h
    · obtain rfl := List.mem_singleton.mp h
      exact ⟨by decide, by decide, by decide⟩
  have hannotation : KeptLine.Proper ⟨"@SuppressWarnings(\"all\")".toList, 0⟩ := ⟨by decide, by decide, by decide⟩
  have hclosing : KeptLine.Proper ⟨['\x7d'], 0⟩ := ⟨by decide, by decide, by decide⟩
  unfold textLines
  simp only [List.forall_mem_append, List.forall_mem_cons]
  exact ⟨⟨⟨hcomment, hannotation, hheading, by simp⟩, proper_valueLines hvalues⟩, hclosing, by simp⟩

theorem tidyChars_declaration (hname : BodyWord name.toList) (hvalues : ∀ v ∈ values, BodyWord v.toList) :
    tidyChars (declaration comments name values).toList = (declaration comments name values).toList ++ ['\n'] := by
  rw [toList_declaration]
  refine tidyChars_joinWith ?_ (proper_textLines hname hvalues)
  exact List.append_ne_nil_of_right_ne_nil _ (List.cons_ne_nil _ _)

theorem framed_declaration (comments : Bool) (name : String) (values : List String) :
    Framed (declaration comments name values).toList where
  opens := by
    cases comments
    · exact ⟨'@', _, by simp [declaration, heading, comment]; rfl, by decide⟩
    · exact ⟨'/', _, by simp [declaration, heading, comment]; rfl, by decide⟩
  closes := ⟨_, '\x7d', String.toList_append, by decide⟩

end EnumSource

theorem toList_fileOf (head : String) (ds : List String) :
    (fileOf head ds).toList = head.toList ++ (ds.map String.toList).flatMap (List.replicate 2 '\n' ++ ·) := by
  induction ds generalizing head with
  | nil => simp [fileOf]
  | cons d ds ih =>
    have hrest := ih d
    unfold fileOf at hrest ⊢
    rw [String.toList_intercalate] at hrest ⊢
    rw [List.flatMap_cons, List.map_cons]
    simp only [List.map_cons, List.cons_append, List.nil_append, List.intercalate_cons_cons] at hrest ⊢
    rw [hrest]
    simp

theorem toList_declarations_cons (d : String) (ds : List String) :
    (declarations (d :: ds)).toList = '\n' :: (d :: ds).flatMap (fun d => '\n' :: (d.toList ++ ['\n'])) := by
  rw [declarations, if_neg (List.cons_ne_nil d ds)]
  simp [String.toList_join, List.flatMap_map]

/-- A file of declarations that tidying leaves alone is its head with the declarations behind it. -/
theorem tidy_fileOf (package : Json) {ds : List String} (hframed : ∀ d ∈ ds, Framed d.toList)
    (htidy : ∀ d ∈ ds, tidyChars d.toList = d.toList ++ ['\n']) :
    tidy (fileOf (headText package []) ds) = tidy (headText package []) ++ declarations ds := by
  have hhead : (headText package []).toList = ("package ".toList ++ package.display.toList ++ [';']) ++ ['\n'] := by
    simp [headText]
  have hclosed : Closes ("package ".toList ++ package.display.toList ++ [';']) := ⟨_, ';', rfl, by decide⟩
  cases ds with
  | nil => simp [fileOf, declarations]
  | cons d ds =>
    obtain ⟨hd, hds⟩ := List.forall_mem_cons.mp hframed
    have hframes : ∀ d ∈ ds.map String.toList, Framed d := List.forall_mem_map.mpr hds
    have hparts : (ds.map String.toList).flatMap (fun d => List.replicate (min 1 2) '\n' ++ tidyChars d) =
        ds.flatMap (fun d => '\n' :: (d.toList ++ ['\n'])) := by
      rw [List.flatMap_map]
      refine List.flatMap_congr fun e he => ?_
      rw [htidy e (List.mem_cons_of_mem _ he)]
      rfl
    refine String.toList_inj.mp ?_
    rw [String.toList_append, toList_tidy, toList_tidy, toList_fileOf, hhead, tidyChars_concat_newline hclosed,
      toList_declarations_cons]
    -- The line end of the head is a part of the gap, which has one line end more than those after it.
    calc tidyChars ("package ".toList ++ package.display.toList ++ [';'] ++ ['\n'] ++
            ((d :: ds).map String.toList).flatMap (List.replicate 2 '\n' ++ ·))
        = tidyChars ("package ".toList ++ package.display.toList ++ [';'] ++ List.replicate (2 + 1) '\n' ++
            (d.toList ++ (ds.map String.toList).flatMap (List.replicate (1 + 1) '\n' ++ ·))) := by
          simp [List.replicate]
      _ = tidyChars ("package ".toList ++ package.display.toList ++ [';']) ++ List.replicate (min 2 2) '\n' ++
            (tidyChars d.toList ++ ds.flatMap (fun d => '\n' :: (d.toList ++ ['\n']))) := by
          rw [tidyChars_append hclosed (opens_append hd.opens _), tidyChars_stack hd.closes hframes, hparts]
      _ = _ := by
          rw [htidy d (List.mem_cons_self ..)]
          simp [List.replicate]

/-! ## How it is read -/

/-- The name that a heading ends in, if it is one of an enum. -/
def enumName? (heading : List Char) : Option String :=
  match ((splitWhere isBlank heading).filter (fun word => !word.isEmpty)).reverse with
  | name :: kind :: _ => if kind = "enum".toList then some (String.ofList name) else none
  | _ => none

/-- The name of an enum and its values. -/
def enum? (cs : List Char) : Option (String × List String) := do
  let name ← enumName? (cs.takeWhile (· != '\x7b'))
  return (name, (commaList (cs.dropWhile (· != '\x7b')).tail).map String.ofList)

/-- The enums of a text. Each goes up to a closing brace. -/
def enums? (cs : List Char) : Option (List (String × List String)) := (splitAt '\x7d' cs).dropLast.mapM enum?

theorem enums?_of_not_mem {cs : List Char} (h : '\x7d' ∉ cs) : enums? cs = some [] := by
  rw [enums?, splitAt_of_not_mem h]
  rfl

/-- Enums are read one after the other. -/
theorem enums?_append {cs later : List Char} {e : String × List String} {es : List (String × List String)}
    (hclosed : '\x7d' ∉ cs) (he : enum? cs = some e) (hes : enums? later = some es) :
    enums? (cs ++ '\x7d' :: later) = some (e :: es) := by
  have hpieces : splitAt '\x7d' later ≠ [] := splitWhere_ne_nil _ _
  rw [enums?, splitAt_append_cons, splitAt_of_not_mem hclosed, List.singleton_append, List.dropLast_cons_of_ne_nil hpieces,
    List.mapM_cons, he]
  show (do let es ← enums? later; pure (e :: es)) = _
  rw [hes]
  rfl

namespace EnumSource

variable {comments : Bool} {name : String} {values : List String}

theorem enumName?_heading (lead : List Char) (hname : BodyWord name.toList) :
    enumName? (lead ++ (heading comments name).toList ++ [' ']) = some name := by
  obtain ⟨front, hfront⟩ : ∃ front, lead ++ (heading comments name).toList ++ [' '] =
      front ++ ' ' :: ("enum".toList ++ ' ' :: (name.toList ++ ' ' :: [])) :=
    ⟨lead ++ (comment comments ++ "@SuppressWarnings(\"all\")\n" ++ "public").toList, by simp [heading]⟩
  have hkind : splitWhere isBlank "enum".toList = ["enum".toList] := by decide
  have hlast : splitWhere isBlank name.toList = [name.toList] := splitWhere_of_forall hname.solid
  have hblank : isBlank ' ' = true := by decide
  rw [hfront, enumName?, splitWhere_append_cons hblank, splitWhere_append_cons hblank, splitWhere_append_cons hblank,
    hkind, hlast]
  simp [splitWhere, hname.ne_nil]

theorem commaList_body (hvalues : ∀ v ∈ values, BodyWord v.toList) :
    (commaList ('\n' :: (lines valueLine values).toList)).map String.ofList = values := by
  have hwords : ∀ w ∈ values.map String.toList, ListWord w := by
    intro w hw
    obtain ⟨v, hv, rfl⟩ := List.mem_map.mp hw
    exact (hvalues v hv).toListWord
  have hlines : ∀ v vs, (lines valueLine (v :: vs)).toList =
      "  ".toList ++ (',' :: "\n  ".toList).intercalate ((v :: vs).map String.toList) ++ ['\n'] := by
    intro v vs
    induction vs generalizing v with
    | nil => simp [lines, valueLine]
    | cons w vs ih =>
      rw [lines, String.toList_append, ih]
      simp [valueLine, List.intercalate_cons_cons]
  cases values with
  | nil => rfl
  | cons v vs =>
    have hgap : ∀ c ∈ "\n  ".toList, isBlank c = true := List.all_eq_true.mp (by decide)
    have hafter : ∀ c ∈ ['\n'], isBlank c = true := List.all_eq_true.mp (by decide)
    have hread := commaList_intercalate hwords hgap hgap hafter
    rw [hlines]
    show (commaList ("\n  ".toList ++ _ ++ _)).map _ = _
    rw [hread, List.map_map]
    exact List.map_id'' (fun v => String.ofList_toList) _

theorem brace_not_mem_heading {c : Char} (hc : c = '\x7b' ∨ c = '\x7d') (hname : BodyWord name.toList) :
    c ∉ (heading comments name).toList ++ [' '] := by
  have hrest : ∀ b : Bool, c ∉ (comment b ++ "@SuppressWarnings(\"all\")\n" ++ "public enum ").toList := by
    rcases hc with rfl | rfl <;> decide
  have hword : c ∉ name.toList := by
    rcases hc with rfl | rfl
    · exact hname.unopened
    · exact hname.unclosed
  have hblank : c ∉ [' '] := by
    rcases hc with rfl | rfl <;> decide
  rw [heading, String.toList_append, List.mem_append, List.mem_append, not_or, not_or]
  exact ⟨⟨hrest comments, hword⟩, hblank⟩

theorem brace_not_mem_lines (hvalues : ∀ v ∈ values, BodyWord v.toList) :
    '\x7d' ∉ (lines valueLine values).toList := by
  have hline : ∀ v last, BodyWord v.toList → '\x7d' ∉ (valueLine v last).toList := by
    intro v last hv
    have := hv.unclosed
    cases last <;> simp [valueLine, this]
  induction values with
  | nil => exact List.not_mem_nil
  | cons v vs ih =>
    obtain ⟨hv, hvs⟩ := List.forall_mem_cons.mp hvalues
    cases vs with
    | nil => exact hline v true hv
    | cons w vs =>
      rw [lines, String.toList_append, List.mem_append, not_or]
      exact ⟨hline v false hv, ih hvs⟩

/-- A declaration is read as it was written, whatever is before it that has no braces. -/
theorem enum?_declaration (comments : Bool) {lead : List Char} (hlead : '\x7b' ∉ lead) (hname : BodyWord name.toList)
    (hvalues : ∀ v ∈ values, BodyWord v.toList) :
    enum? (lead ++ (heading comments name).toList ++ [' '] ++ '\x7b' :: '\n' :: (lines valueLine values).toList) =
      some (name, values) := by
  have hbefore : ∀ c ∈ lead ++ (heading comments name).toList ++ [' '], (c != '\x7b') = true := by
    intro c hc
    rw [bne_iff_ne]
    rintro rfl
    rw [List.append_assoc] at hc
    exact (List.mem_append.mp hc).elim hlead (brace_not_mem_heading (Or.inl rfl) hname)
  unfold enum?
  rw [List.takeWhile_append_of_pos hbefore, List.dropWhile_append_of_pos hbefore, List.takeWhile_cons_of_neg (by decide),
    List.dropWhile_cons_of_neg (by decide), List.append_nil, enumName?_heading lead hname, List.tail_cons,
    commaList_body hvalues]
  rfl

/-- All enums that are declared behind each other are read, each with its values. -/
theorem enums?_declarations (comments : Bool) {xs : List (String × List String)}
    (hxs : ∀ x ∈ xs, BodyWord x.1.toList ∧ ∀ v ∈ x.2, BodyWord v.toList) :
    enums? (declarations (xs.map fun x => declaration comments x.1 x.2)).toList = some xs := by
  have hread : ∀ lead : List Char, '\x7b' ∉ lead → '\x7d' ∉ lead → enums? (lead ++
      (xs.map fun x => declaration comments x.1 x.2).flatMap (fun d => '\n' :: (d.toList ++ ['\n']))) = some xs := by
    induction xs with
    | nil =>
      intro lead _ hclosed
      rw [List.map_nil, List.flatMap_nil, List.append_nil]
      exact enums?_of_not_mem hclosed
    | cons x xs ih =>
      intro lead hopened hclosed
      obtain ⟨⟨hname, hvalues⟩, hxs⟩ := List.forall_mem_cons.mp hxs
      have hlead : ∀ c, c ∉ lead → c ≠ '\n' → c ∉ lead ++ ['\n'] := by
        intro c hc hne
        rw [List.mem_append, List.mem_singleton, not_or]
        exact ⟨hc, hne⟩
      have hfirst := enum?_declaration comments (hlead _ hopened (by decide)) hname hvalues
      have hunclosed : '\x7d' ∉ lead ++ ['\n'] ++ (heading comments x.1).toList ++ [' '] ++
          '\x7b' :: '\n' :: (lines valueLine x.2).toList := by
        rw [List.append_assoc (lead ++ ['\n']), List.mem_append, List.mem_append, not_or, not_or]
        refine ⟨⟨hlead _ hclosed (by decide), brace_not_mem_heading (Or.inr rfl) hname⟩, ?_⟩
        have := brace_not_mem_lines hvalues
        simp [this]
      have hall := enums?_append hunclosed hfirst (ih hxs ['\n'] (by decide) (by decide))
      rw [← hall]
      simp [declaration]
  cases xs with
  | nil => rfl
  | cons x xs =>
    rw [List.map_cons, toList_declarations_cons]
    exact hread ['\n'] (by decide) (by decide)

end EnumSource

end SchemaForge.Java
