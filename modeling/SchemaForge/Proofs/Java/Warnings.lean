import SchemaForge.Proofs.Java.TypeNames

/-
The warnings of the Java target and the text of its class pass. Warnings are found by a walk of their own, over the
whole schema and with no names handed out before. It asks for names in the order of the class pass, so wherever the
class pass succeeds the walk `Mirrors` it and tells what the declarations have (`warnings_of_classPass`): each model
that is declared under another name, and each field of unknown type with the type that it is written with.

A warning is a text. That of a renamed model can be read back, since a class name has no blank in it
(`renamedText_inj`), and so can that of an unknown type whose parts have none (`unknownText_inj`). No other warnings
look like them.
-/

namespace SchemaForge.Java

open Generation Generation.Pass Naming Runs
open Json (beq_str_iff)

/-! ## What is told about a declaration -/

def renamedText (model className : String) : String := "Model " ++ model ++ " renamed to " ++ className ++ " in Java"

def unknownText (type place written : String) : String :=
  "Unknown type " ++ type ++ " for " ++ place ++ ", emitted as " ++ written

/-- Where a member is declared, as warnings have it. -/
def placeOf (m : Model) (x : Member) : String := m.name.display ++ "." ++ x.field.name.display

/-- The warning for a model that is declared under another name. -/
def renameNotice (m : Model) (c : ClassDecl) : List String :=
  if m.name == .str c.name then [] else [renamedText m.name.display c.name]

/-- The warning for a member of unknown type, with the type that is written for it. -/
def typeNotice (mapper : TypeMapper) (m : Model) (x : Member) : List String :=
  if mapper.knows x.field.type then []
  else [unknownText x.field.type.display (placeOf m x) x.type]

/-- All that is told about a class. -/
def classNotices (mapper : TypeMapper) (m : Model) (c : ClassDecl) : List String :=
  renameNotice m c ++ c.members.flatMap (typeNotice mapper m)

/-! ## One walk and the other -/

variable {mapper : TypeMapper} {s t : Session}

theorem ignoresLog_resolve (mapper : TypeMapper) (f : Field) : IgnoresLog (mapper.resolve f) :=
  ignoresLog_of_agree (agree_resolve_sameNames mapper f)

theorem mirrors_fieldWarnings (mapper : TypeMapper) (m : Model) (f : Field) :
    Mirrors (fieldWarnings mapper m f) (member mapper f) (typeNotice mapper m) := by
  intro s x t h s' hs
  obtain ⟨rfl, -, -, -, u, htype, hannotations⟩ := yields_member h
  obtain ⟨t', ht, htype'⟩ := ignoresLog_resolve mapper x.field s _ u htype s' hs
  refine ⟨t', ht.trans (keepsNames_fieldAnnotations x.field u _ t hannotations).symm, ?_⟩
  refine yields_bind.mpr ⟨x.names.type, t', htype', ?_⟩
  unfold typeNotice
  split
  · exact yields_pure.mpr ⟨rfl, rfl⟩
  · refine yields_pure.mpr ⟨?_, rfl⟩
    simp only [unknownText, placeOf, String.append_assoc]
    rfl

theorem mirrors_renameWarnings (comments : Bool) (mapper : TypeMapper) (m : Model) :
    Mirrors (renameWarnings mapper m) (ClassDecl.ofModel comments mapper m) (classNotices mapper m) := by
  intro s c t h s' hs
  obtain ⟨s₁, s₂, s₃, hnames, hname, hmembers, hannotations, -⟩ := yields_ofModel h
  have hlength : c.members.length ≤ m.fields.length := by
    simp [← (emission_of_yields h).fields]
  have hnotices : (m.fields.zip c.members).map (fun e => typeNotice mapper m e.2) =
      c.members.map (typeNotice mapper m) := by
    have := congrArg (List.map (typeNotice mapper m)) (List.map_snd_zip hlength)
    rw [List.map_map] at this
    exact this
  obtain ⟨s₂', hs₂, hname'⟩ := ignoresLog_of_agree (agree_className_sameNames m.name) s₁ _ s₂ hname s' (hs.trans hnames.symm)
  obtain ⟨t', ht, hmembers'⟩ := mirrors_mapM (mirrors_fieldWarnings mapper m) m.fields s₂ _ s₃ hmembers s₂' hs₂
  refine ⟨t', ht.trans (keepsNames_modelAnnotations m s₃ _ t hannotations).symm, ?_⟩
  refine yields_bind.mpr ⟨c.name, s₂', hname', yields_bind.mpr ⟨_, t', hmembers', yields_pure.mpr ⟨?_, rfl⟩⟩⟩
  show _ = _ ++ ((m.fields.zip c.members).map (fun e => typeNotice mapper m e.2)).flatten
  rw [hnotices]
  rfl

/-- What the walk of the warnings finds where the classes of a schema can be declared. -/
theorem yields_namingWarnings {settings : Settings} {schema : Schema} {es : List (Model × ClassDecl)}
    (hmapper : newMapper settings schema = .ok mapper) (hall : es.map (·.1) = Entries.values schema.models)
    (hs : s.names = {})
    (h : Yields ((es.map (·.1)).mapM (ClassDecl.ofModel (commented settings) mapper)) s (es.map (·.2)) t) :
    ∃ t', Yields (namingWarnings settings schema) {} (es.flatMap (fun e => classNotices mapper e.1 e.2)) t' := by
  obtain ⟨t', -, hwalk⟩ := mirrors_mapM (mirrors_renameWarnings (commented settings) mapper) _ s _ t h {} hs.symm
  refine ⟨t', yields_bind.mpr ⟨mapper, {}, yields_ofFault.mpr ⟨hmapper, rfl⟩, ?_⟩⟩
  rw [← hall]
  refine yields_bind.mpr ⟨_, t', hwalk, yields_pure.mpr ⟨?_, rfl⟩⟩
  show _ = (((es.map (·.1)).zip (es.map (·.2))).map (fun e => classNotices mapper e.1 e.2)).flatten
  rw [List.zip_map', List.map_map]
  rfl

/-! ## The shared warnings -/

theorem exists_schemaWarnings {schema : Schema}
    (hvalues : ∀ e ∈ Entries.values schema.enums, ∀ v ∈ e.values, v.isScalar = true) :
    ∃ shared, schemaWarnings schema = .ok shared := by
  have hdistinct : ∀ e ∈ Entries.values schema.enums, ∃ b, distinctValues e.values = .ok b := by
    intro e he
    obtain ⟨keys, hkeys⟩ : ∃ keys, e.values.mapM Json.toKey = .ok keys :=
      exists_mapM_eq_ok fun v hv => ⟨v, if_pos (hvalues e he v hv)⟩
    exact ⟨distinct keys, bind_eq_ok.mpr ⟨keys, hkeys, rfl⟩⟩
  have henums : ∀ e ∈ Entries.values schema.enums, ∃ ws, enumWarnings e = .ok ws := by
    intro e he
    obtain ⟨b, hb⟩ := hdistinct e he
    unfold enumWarnings
    split
    · exact ⟨_, rfl⟩
    · rw [hb]
      cases b <;> exact ⟨_, rfl⟩
  obtain ⟨ws, hws⟩ := exists_mapM_eq_ok henums
  exact ⟨_, bind_eq_ok.mpr ⟨ws, hws, rfl⟩⟩

theorem head?_append {x y : String} {c : Char} (h : x.toList.head? = some c) : (x ++ y).toList.head? = some c := by
  rw [String.toList_append, List.head?_append, h]
  rfl

theorem getLast?_append {x y : String} {c : Char} (h : y.toList.getLast? = some c) :
    (x ++ y).toList.getLast? = some c := by
  rw [String.toList_append, List.getLast?_append, h]
  rfl

/-- Shared warnings begin with what they are about, and end in what it lacks or has twice. -/
theorem ends_of_mem_schemaWarnings {schema : Schema} {shared : List String} (h : schemaWarnings schema = .ok shared)
    {w : String} (hw : w ∈ shared) :
    (w.toList.head? = some 'M' ∨ w.toList.head? = some 'E') ∧
      (w.toList.getLast? = some 's' ∨ w.toList.getLast? = some 'd') := by
  obtain ⟨ws, hws, hshared⟩ := bind_eq_ok.mp h
  rw [pure_eq_ok.mp hshared] at hw
  rcases List.mem_append.mp hw with hw | hw
  · obtain ⟨m, -, hw⟩ := List.mem_flatMap.mp hw
    unfold modelWarnings at hw
    split at hw
    · rw [List.mem_singleton.mp hw]
      exact ⟨Or.inl (head?_append (head?_append rfl)), Or.inl (getLast?_append rfl)⟩
    · split at hw
      · rw [List.mem_singleton.mp hw]
        exact ⟨Or.inl (head?_append (head?_append rfl)), Or.inr (getLast?_append rfl)⟩
      · cases hw
  · obtain ⟨l, hl, hw⟩ := List.mem_flatten.mp hw
    obtain ⟨e, -, he⟩ := mem_of_mapM_eq_ok hws l hl
    unfold enumWarnings at he
    split at he
    · rw [pure_eq_ok.mp he] at hw
      rw [List.mem_singleton.mp hw]
      exact ⟨Or.inr (head?_append (head?_append rfl)), Or.inl (getLast?_append rfl)⟩
    · obtain ⟨b, -, he⟩ := bind_eq_ok.mp he
      split at he
      · rw [pure_eq_ok.mp he] at hw
        cases hw
      · rw [pure_eq_ok.mp he] at hw
        rw [List.mem_singleton.mp hw]
        exact ⟨Or.inr (head?_append (head?_append rfl)), Or.inl (getLast?_append rfl)⟩

/-! ## Reading a warning back -/

theorem append_cons_inj {α : Type} {a : α} {xs ys us vs : List α} (hus : a ∉ us) (hvs : a ∉ vs)
    (h : xs ++ a :: us = ys ++ a :: vs) : xs = ys ∧ us = vs := by
  rcases List.append_eq_append_iff.mp h with ⟨zs, rfl, hrest⟩ | ⟨zs, rfl, hrest⟩
  · cases zs with
    | nil => simpa using hrest
    | cons z zs =>
      rw [(List.cons_eq_cons.mp hrest).2] at hus
      simp at hus
  · cases zs with
    | nil => simpa [eq_comm] using hrest
    | cons z zs =>
      rw [(List.cons_eq_cons.mp hrest).2] at hvs
      simp at hvs

/-- A last word can be told from what is before it. -/
theorem lastWord_inj {x y u v : String} (hu : ' ' ∉ u.toList) (hv : ' ' ∉ v.toList)
    (h : x ++ " " ++ u = y ++ " " ++ v) : x = y ∧ u = v := by
  have hchars : x.toList ++ ' ' :: u.toList = y.toList ++ ' ' :: v.toList := by
    have hblank : " ".toList = [' '] := rfl
    have := congrArg String.toList h
    simpa only [String.toList_append, hblank, List.append_assoc, List.singleton_append] using this
  obtain ⟨hxy, huv⟩ := append_cons_inj hu hv hchars
  exact ⟨String.toList_inj.mp hxy, String.toList_inj.mp huv⟩

theorem renamedText_inj {M M' N N' : String} (hN : ' ' ∉ N.toList) (hN' : ' ' ∉ N'.toList)
    (h : renamedText M N = renamedText M' N') : M = M' ∧ N = N' := by
  have hwords : " renamed to " = " renamed to" ++ " " := rfl
  have h := (String.append_left_inj _).mp h
  rw [hwords, ← String.append_assoc, ← String.append_assoc] at h
  obtain ⟨hmodel, hclass⟩ := lastWord_inj hN hN' h
  exact ⟨(String.append_right_inj _).mp ((String.append_left_inj _).mp hmodel), hclass⟩

theorem count_unknownText (type place written : String) :
    (unknownText type place written).toList.count ' ' =
      7 + type.toList.count ' ' + place.toList.count ' ' + written.toList.count ' ' := by
  have htype : "Unknown type ".toList.count ' ' = 2 := rfl
  have hplace : " for ".toList.count ' ' = 2 := rfl
  have hwritten : ", emitted as ".toList.count ' ' = 3 := rfl
  simp only [unknownText, String.toList_append, List.count_append, htype, hplace, hwritten]
  omega

theorem unknownText_inj {T T' P P' X X' : String} (hT : ' ' ∉ T.toList) (hP : ' ' ∉ P.toList) (hX : ' ' ∉ X.toList)
    (h : unknownText T P X = unknownText T' P' X') : T = T' ∧ P = P' ∧ X = X' := by
  have hcount := congrArg (fun w => w.toList.count ' ') h
  simp only [count_unknownText, List.count_eq_zero.mpr hT, List.count_eq_zero.mpr hP,
    List.count_eq_zero.mpr hX] at hcount
  have hP' : ' ' ∉ P'.toList := List.count_eq_zero.mp (by omega)
  have hX' : ' ' ∉ X'.toList := List.count_eq_zero.mp (by omega)
  have hwords : " for " = " for" ++ " " ∧ ", emitted as " = ", emitted as" ++ " " := ⟨rfl, rfl⟩
  unfold unknownText at h
  rw [hwords.2, ← String.append_assoc, ← String.append_assoc] at h
  obtain ⟨hbefore, hwritten⟩ := lastWord_inj hX hX' h
  have hbefore := (String.append_left_inj _).mp hbefore
  rw [hwords.1, ← String.append_assoc, ← String.append_assoc] at hbefore
  obtain ⟨htype, hplace⟩ := lastWord_inj hP hP' hbefore
  exact ⟨(String.append_right_inj _).mp ((String.append_left_inj _).mp htype), hplace, hwritten⟩

section Telling

variable {schema : Schema} {shared : List String} {es : List (Model × ClassDecl)}

theorem head?_renamedText (M N : String) : (renamedText M N).toList.head? = some 'M' :=
  head?_append (head?_append (head?_append (head?_append rfl)))

theorem head?_unknownText (T P X : String) : (unknownText T P X).toList.head? = some 'U' :=
  head?_append (head?_append (head?_append (head?_append (head?_append rfl))))

theorem renamedText_ne_unknownText {M N T P X : String} : renamedText M N ≠ unknownText T P X := by
  intro h
  have := head?_unknownText T P X
  rw [← h, head?_renamedText] at this
  simp at this

/-- A renaming is told in words that no other warning has. -/
theorem renamedText_mem_iff (hshared : schemaWarnings schema = .ok shared)
    (hnames : ∀ e ∈ es, ∃ n, e.1.name = .str n) (hblank : ∀ e ∈ es, ' ' ∉ e.2.name.toList) {M N : String}
    (hN : ' ' ∉ N.toList) :
    renamedText M N ∈ shared ++ es.flatMap (fun e => classNotices mapper e.1 e.2) ↔
      ∃ e ∈ es, e.1.name = .str M ∧ e.2.name = N ∧ M ≠ N := by
  rw [List.mem_append, List.mem_flatMap]
  refine ⟨fun h => ?_, fun h => Or.inr ?_⟩
  · rcases h with h | ⟨e, he, h⟩
    · have := (ends_of_mem_schemaWarnings hshared h).2
      rw [show (renamedText M N).toList.getLast? = some 'a' from getLast?_append rfl] at this
      simp at this
    · refine ⟨e, he, ?_⟩
      rcases List.mem_append.mp h with h | h
      · unfold renameNotice at h
        split at h
        · cases h
        · rename_i hother
          obtain ⟨n, hn⟩ := hnames e he
          obtain ⟨rfl, rfl⟩ := renamedText_inj hN (hblank e he) (List.mem_singleton.mp h)
          rw [hn] at hother ⊢
          exact ⟨rfl, rfl, fun heq => hother (beq_str_iff.mpr (congrArg Json.str heq))⟩
      · obtain ⟨x, -, h⟩ := List.mem_flatMap.mp h
        unfold typeNotice at h
        split at h
        · cases h
        · exact absurd (List.mem_singleton.mp h) renamedText_ne_unknownText
  · obtain ⟨e, he, hname, rfl, hne⟩ := h
    refine ⟨e, he, List.mem_append_left _ ?_⟩
    unfold renameNotice
    rw [hname, if_neg (fun heq => hne (Json.str.inj (beq_str_iff.mp heq)))]
    exact List.mem_singleton.mpr rfl

/-- And so is an unknown type. -/
theorem unknownText_mem_iff (hshared : schemaWarnings schema = .ok shared) {T P X : String}
    (hT : ' ' ∉ T.toList) (hP : ' ' ∉ P.toList) (hX : ' ' ∉ X.toList) :
    unknownText T P X ∈ shared ++ es.flatMap (fun e => classNotices mapper e.1 e.2) ↔
      ∃ e ∈ es, ∃ x ∈ e.2.members, mapper.knows x.field.type = false ∧ x.field.type.display = T ∧ placeOf e.1 x = P ∧
        x.type = X := by
  rw [List.mem_append, List.mem_flatMap]
  refine ⟨fun h => ?_, fun h => Or.inr ?_⟩
  · rcases h with h | ⟨e, he, h⟩
    · have := (ends_of_mem_schemaWarnings hshared h).1
      rw [head?_unknownText] at this
      simp at this
    · refine ⟨e, he, ?_⟩
      rcases List.mem_append.mp h with h | h
      · unfold renameNotice at h
        split at h
        · cases h
        · exact absurd (List.mem_singleton.mp h).symm renamedText_ne_unknownText
      · obtain ⟨x, hx, h⟩ := List.mem_flatMap.mp h
        unfold typeNotice at h
        split at h
        · cases h
        · rename_i hunknown
          obtain ⟨rfl, rfl, rfl⟩ := unknownText_inj hT hP hX (List.mem_singleton.mp h)
          exact ⟨x, hx, Bool.eq_false_iff.mpr hunknown, rfl, rfl, rfl⟩
  · obtain ⟨e, he, x, hx, hunknown, rfl, rfl, rfl⟩ := h
    refine ⟨e, he, List.mem_append_right _ (List.mem_flatMap.mpr ⟨x, hx, ?_⟩)⟩
    unfold typeNotice
    rw [hunknown]
    exact List.mem_singleton.mpr rfl

end Telling

/-- Wherever the class pass of a whole schema succeeds, the warnings are there and tell the truth about its text. After
    the shared ones they have, model by model, the name a model is declared under if that is another one, and the type
    that is written for each member whose type is unknown. -/
theorem warnings_of_classPass {settings : Settings} {schema : Schema} {text : String}
    (hall : settings.selectedType.truthy = false)
    (hvalues : ∀ e ∈ Entries.values schema.enums, ∀ v ∈ e.values, v.isScalar = true)
    (h : Yields (classPass settings schema) s text t) :
    ∃ mapper es shared ws, newMapper settings schema = .ok mapper ∧ (Output.classes es).Prints settings schema text ∧
      es.map (·.1) = Entries.values schema.models ∧ schemaWarnings schema = .ok shared ∧
      warnings settings schema = .ok ws ∧ ws = shared ++ es.flatMap (fun e => classNotices mapper e.1 e.2) ∧
      (∀ M N, ' ' ∉ N.toList → (renamedText M N ∈ ws ↔ ∃ e ∈ es, e.1.name = .str M ∧ e.2.name = N ∧ M ≠ N)) ∧
      ∀ T P X, ' ' ∉ T.toList → ' ' ∉ P.toList → ' ' ∉ X.toList → (unknownText T P X ∈ ws ↔
        ∃ e ∈ es, ∃ x ∈ e.2.members, mapper.knows x.field.type = false ∧ x.field.type.display = T ∧
          placeOf e.1 x = P ∧ x.type = X) := by
  obtain ⟨mapper, es, hmapper, hprints, ⟨s₁, t₁, -, hs₁, hdeclared, -⟩, -, hnamed⟩ := classes_of_classPass h
  obtain ⟨shared, hshared⟩ := exists_schemaWarnings hvalues
  obtain ⟨models, _, hmodels, hfst, -⟩ := id hprints
  have hmodels : schema.models = models := by
    unfold selectedModels select at hmodels
    rw [hall] at hmodels
    exact Except.ok.inj hmodels
  rw [← hmodels] at hfst
  obtain ⟨t', hwalk⟩ := yields_namingWarnings hmapper hfst hs₁ hdeclared
  have hblank : ∀ e ∈ es, ' ' ∉ e.2.name.toList := by
    intro e he hmem
    rw [(hnamed e he).2.1] at hmem
    have := isNameChar_of_mem_nthName hmem
    revert this
    decide
  refine ⟨mapper, es, shared, _, hmapper, hprints, hfst, hshared, ?_, rfl,
    fun M N => renamedText_mem_iff hshared (fun e he => (hnamed e he).1) hblank,
    fun T P X => unknownText_mem_iff hshared⟩
  refine bind_eq_ok.mpr ⟨shared, ?_, bind_eq_ok.mpr ⟨_, congrArg Prod.fst hwalk, rfl⟩⟩
  rw [hshared]
  rfl

/-- Two models and an enum with colliding names, and a field of unknown type. -/
def drafts : Schema :=
  { models := [
      (.str "draft", { name := .str "draft", fields := [
        { name := .str "id", type := .str "ID" }, { name := .str "next", type := .str "Draft" },
        { name := .str "moods", type := .str "Mood", list := true }] }),
      (.str "Draft", { name := .str "Draft", fields := [{ name := .str "id", type := .str "ID" }] }),
      (.str "Note", { name := .str "Note", fields := [{ name := .str "id", type := .str "ID" }] })]
    enums := [(.str "State", { name := .str "State", values := [.str "OPEN", .str "OPEN"] })] }

def draftWarnings : List String :=
  ["Enum 'State' has duplicate values", "Model draft renamed to Draft in Java",
    "Unknown type Mood for draft.moods, emitted as List<Mood>", "Model Draft renamed to Draft_1 in Java"]

/-- The field `next` is named before the model of its type is reached, and the warnings know. -/
theorem warnings_of_drafts :
    ∃ text t es, Yields (classPass {} drafts) {} text t ∧ (Output.classes es).Prints {} drafts text ∧
      warnings {} drafts = .ok draftWarnings ∧ (∃ e ∈ es, e.1.name = .str "draft" ∧ e.2.name = "Draft") ∧
      ∃ e ∈ es, e.1.name = .str "Draft" ∧ e.2.name = "Draft_1" := by
  obtain ⟨text, t, h⟩ := exists_yields_of_succeeds
    (show succeeds (classPass {} drafts) {} = true by decide +kernel)
  obtain ⟨mapper, es, shared, ws, -, hprints, -, -, hws, -, hrenamed, -⟩ :=
    warnings_of_classPass rfl (by decide +kernel) h
  have hcomputed : (warnings {} drafts).toOption = some draftWarnings := by decide +kernel
  rw [hws] at hcomputed
  obtain rfl : ws = draftWarnings := Option.some.inj hcomputed
  obtain ⟨e, he, hdraft, hname, -⟩ := (hrenamed "draft" "Draft" (by decide)).mp (by decide)
  obtain ⟨e', he', hDraft, hname', -⟩ := (hrenamed "Draft" "Draft_1" (by decide)).mp (by decide)
  exact ⟨text, t, es, h, hprints, hws, ⟨e, he, hdraft, hname⟩, e', he', hDraft, hname'⟩

end SchemaForge.Java
