import SchemaForge.Proofs.Generation.Outcomes
import SchemaForge.Proofs.Java.ClassNames
import SchemaForge.Proofs.Java.ImportList
import SchemaForge.Proofs.Text.CommaLists

/-
The model provider. Its pass asks for the class names of the selected models (`listing`), and all else in its text
depends on the settings and on the version of the schema alone (`outcome_registryPass`). So it fails when the listing
does, and two of its texts can differ in no more than the list and the version.

The list has one entry for each selected model, in the order of the schema. Different names get different classes, so
leaving out what is repeated leaves out nothing, and the list that is read from the text is the whole list
(`entries_of_registryPass`).
-/

namespace SchemaForge.Java

open Generation Generation.Pass Template Naming

/-! ## The text -/

namespace Provider

/-- The text up to the version. -/
def opening (s : Settings) : String :=
  (if s.addComments.truthy then
      "/**\n" ++ " * Contains the set of model classes that implement \x7b@link Model\x7d\n" ++ " * interface.\n"
        ++ " */\n" else "")
    ++ "public final class " ++ s.loaderClassName.display ++ " implements ModelProvider \x7b\n"
    ++ "  private static final String " ++ "AMPLIFY_MODEL_VERSION" ++ " = "

/-- The text between the version and the list of classes. -/
def middle (s : Settings) : String :=
  ";\n" ++ "  private static " ++ s.loaderClassName.display ++ " amplifyGeneratedModelInstance;\n" ++ "\n"
    ++ "  private " ++ s.loaderClassName.display ++ "() \x7b\n" ++ "\n" ++ "  \x7d\n" ++ "\n"
    ++ "  public static synchronized " ++ s.loaderClassName.display ++ " getInstance() \x7b\n"
    ++ "    if (amplifyGeneratedModelInstance == null) \x7b\n" ++ "      amplifyGeneratedModelInstance = new "
    ++ s.loaderClassName.display ++ "();\n" ++ "    \x7d\n" ++ "    return amplifyGeneratedModelInstance;\n"
    ++ "  \x7d\n" ++ "\n" ++ "  /**\n" ++ "   * Get a set of the model classes.\n" ++ "   *\n"
    ++ "   * @return a set of the model classes.\n" ++ "   */\n" ++ "  @Override\n"
    ++ "  public Set<Class<? extends Model>> models() \x7b\n"
    ++ "    final Set<Class<? extends Model>> modifiableSet = new HashSet<>(\n"
    ++ "      Arrays.<Class<? extends Model>>asList("

def closing : String :=
  ")\n" ++ "    );\n" ++ "\n" ++ "    return Immutable.of(modifiableSet);\n" ++ "  \x7d\n" ++ "\n" ++ "  /**\n"
    ++ "   * Get the version of the models.\n" ++ "   *\n" ++ "   * @return the version string of the models.\n"
    ++ "   */\n" ++ "  @Override\n" ++ "  public String version() \x7b\n" ++ "    return "
    ++ "AMPLIFY_MODEL_VERSION" ++ ";\n" ++ "  \x7d\n" ++ "\x7d"

/-- The provider with a version and the text of a list. -/
def source (s : Settings) (version list : String) : String :=
  opening s ++ stringLiteral version ++ middle s ++ list ++ closing

/-- The file of the provider. -/
def file (s : Settings) (version list : String) : String :=
  fileOf (headText s.packageName providerImports) [source s version list]

def listText (entries : List String) : String := String.intercalate ", " entries

/-- The entries that are read from the text of a list. -/
def listed (list : String) : List String := (Text.commaList list.toList).map String.ofList

end Provider

open Provider

theorem render_providerTemplate (s : Settings) (version : String) (classes : List String) :
    providerTemplate.render (providerContext s version classes) = .ok (source s version (listText classes)) := by
  have hcomments : renderAll { bound := providerContext s version classes } (if s.addComments.truthy then
      [.text ("/**\n" ++ " * Contains the set of model classes that implement \x7b@link Model\x7d\n"
        ++ " * interface.\n" ++ " */\n")] else []) =
      .ok (if s.addComments.truthy then
        "/**\n" ++ " * Contains the set of model classes that implement \x7b@link Model\x7d\n" ++ " * interface.\n"
          ++ " */\n" else "") := by
    split
    · simp [-String.reduceAppend, Except.map]
    · exact renderAll_nil
  have hlist : (classes.map Json.str).map Json.display = classes := by
    rw [List.map_map]
    exact List.map_id _
  unfold Template.render providerTemplate
  rw [if_neg (by simp [providerContext, Entries.has])]
  simp only
  rw [renderAll_branch (by simp [providerContext]) hcomments]
  simp only [renderAll_text, renderAll_out]
  rw [renderAll_joined (classes.map Json.str) (by simp [providerContext])]
  unfold source opening middle closing listText
  simp [-String.reduceAppend, providerContext, hlist, Except.bind, Except.map, String.append_assoc]

/-! ## The pass -/

variable {settings : Settings} {schema : Schema} {s t : Session} {text : String}

/-- The classes of the selected models, as they are asked for. -/
def listing (settings : Settings) (schema : Schema) : Pass (List String) := do
  let _ ← startMapper settings schema
  let models ← Generator.ofExcept (selectedModels settings schema)
  (Entries.values models).mapM (fun m => do return (← className m.name) ++ ".class")

theorem outcome_registryPass (settings : Settings) (schema : Schema) (s : Session) :
    outcome (registryPass settings schema) s = (outcome (listing settings schema) s).map
      (fun classes => file settings schema.version (listText (firstOccurrences classes))) := by
  have hpass : registryPass settings schema = listing settings schema >>= fun classes => do
      Pass.note .debug
        ("Model version " ++ schema.version ++ " for " ++ toString schema.models.length ++ " models")
      let body ← Pass.render providerTemplate (providerContext settings schema.version (firstOccurrences classes))
      return fileOf (← fileHead settings providerImports) [body] := by
    simp only [registryPass, listing, bind_assoc]
  rw [hpass]
  refine outcome_bind_map (fun classes t => ?_) s
  have hbody := render_providerTemplate settings schema.version (firstOccurrences classes)
  have hhead := render_packageTemplate settings.packageName providerImports
  have hprinted : ∀ u, Yields (do
      let body ← Pass.render providerTemplate (providerContext settings schema.version (firstOccurrences classes))
      return fileOf (← fileHead settings providerImports) [body]) u
        (file settings schema.version (listText (firstOccurrences classes))) u := by
    intro u
    refine yields_bind.mpr ⟨_, u, yields_render.mpr ⟨hbody, rfl⟩, ?_⟩
    exact yields_bind.mpr ⟨_, u, yields_render.mpr ⟨hhead, rfl⟩, yields_pure.mpr ⟨rfl, rfl⟩⟩
  exact ⟨_, yields_bind.mpr ⟨(), _, yields_note.mpr rfl, hprinted _⟩⟩

/-- Each class of the listing is the one that its model is given. -/
theorem yields_listing {classes : List String} (h : Yields (listing settings schema) s classes t) :
    ∃ models, selectedModels settings schema = .ok models ∧ classes = (Entries.values models).map
      (fun m => given rules (asked settings schema .registry) m.name.display ++ ".class") := by
  simp only [listing, yields_bind, yields_ofExcept] at h
  obtain ⟨mapper, _, hmapper, models, _, ⟨hmodels, rfl⟩, hclasses⟩ := h
  have hreq : requests settings schema .registry = (Entries.values models).map (·.name) := by
    unfold requests
    rw [hmodels]
  have hentries := forall₂_of_mapM_named (R := fun n _ entry => entry = n ++ ".class") entryName_of_numbered hclasses
    (numbered_of_startMapper hmapper)
  rw [← hreq] at hentries
  exact ⟨models, hmodels, eq_map_of_forall₂ hentries⟩

/-! ## The list -/

theorem firstOccurrences_of_nodup {xs : List String} (h : xs.Nodup) : firstOccurrences xs = xs := by
  induction xs with
  | nil => rfl
  | cons x xs ih =>
    obtain ⟨hx, hxs⟩ := List.nodup_cons.mp h
    rw [firstOccurrences, ih hxs]
    refine congrArg (x :: ·) (List.filter_eq_self.mpr fun y hy => ?_)
    rw [bne_iff_ne]
    rintro rfl
    exact hx hy

theorem range_of_isNameChar {c : Char} (h : isNameChar c = true) : 45 ≤ c.toNat ∧ c.toNat ≤ 122 := by
  simp only [isNameChar, Bool.or_eq_true, isUpper_iff, isLower_iff, isDigit_iff, beq_iff_eq] at h
  rcases h with (((h | h) | h) | rfl) | rfl
  · omega
  · omega
  · omega
  · decide
  · decide

theorem not_isBlank_of_isNameChar {c : Char} (h : isNameChar c = true) : Text.isBlank c = false := by
  have hrange := range_of_isNameChar h
  unfold Text.isBlank
  simp only [Bool.or_eq_false_iff, Bool.and_eq_false_iff, decide_eq_false_iff_not, beq_eq_false_iff_ne]
  omega

/-- An entry has no blank and no comma in it. -/
theorem listWord_entry (asked : List String) (n : String) :
    Text.ListWord (given rules asked n ++ ".class").toList := by
  have hall : ".class".toList.all (fun c => !Text.isBlank c && c != ',') = true := by decide
  have hclass : ∀ c ∈ ".class".toList, Text.isBlank c = false ∧ c ≠ ',' := by
    intro c hc
    simpa using List.all_eq_true.mp hall c hc
  have hname : ∀ c : Char, isNameChar c = true → Text.isBlank c = false ∧ c ≠ ',' := by
    intro c hc
    refine ⟨not_isBlank_of_isNameChar hc, ?_⟩
    rintro rfl
    revert hc
    decide
  have hchars : ∀ c ∈ (given rules asked n ++ ".class").toList, Text.isBlank c = false ∧ c ≠ ',' := by
    intro c hc
    rw [String.toList_append, List.mem_append] at hc
    exact hc.elim (fun hc => hname c (isNameChar_of_mem_nthName hc)) (hclass c)
  refine ⟨?_, fun c hc => (hchars c hc).1, fun hcomma => (hchars _ hcomma).2 rfl⟩
  rw [String.toList_append]
  exact fun h => List.cons_ne_nil _ _ (List.append_eq_nil_iff.mp h).2

theorem listed_listText {entries : List String} (h : ∀ e ∈ entries, Text.ListWord e.toList) :
    listed (listText entries) = entries := by
  have hwords : ∀ w ∈ entries.map String.toList, Text.ListWord w := by
    intro w hw
    obtain ⟨e, he, rfl⟩ := List.mem_map.mp hw
    exact h e he
  have hnone : ∀ c ∈ ([] : List Char), Text.isBlank c = true := fun c hc => by cases hc
  have hgap : ∀ c ∈ [' '], Text.isBlank c = true := List.all_eq_true.mp (by decide)
  have hread := Text.commaList_intercalate hwords hnone hgap hnone
  rw [List.nil_append, List.append_nil] at hread
  unfold listed listText
  rw [String.toList_intercalate, show ", ".toList = [',', ' '] from rfl, hread, List.map_map]
  exact List.map_id'' (fun e => String.ofList_toList) entries

/-- No two models of a document have the same entry. -/
theorem nodup_entries {d : Json} {models : List (Json × Model)} (hd : Schema.ofDocument d = .ok schema)
    (hmodels : selectedModels settings schema = .ok models) (htexts : ∀ m ∈ Entries.values models, ∃ n, m.name = .str n) :
    ((Entries.values models).map
      (fun m => given rules (asked settings schema .registry) m.name.display ++ ".class")).Nodup := by
  have hrequested : ∀ m ∈ Entries.values models, m.name.display ∈ asked settings schema .registry := by
    intro m hm
    refine mem_askAll ?_
    unfold requests
    rw [hmodels]
    exact List.mem_map_of_mem hm
  have hnodup := nodup_given (nodup_names_of_selectedModels hd hmodels htexts) htexts hrequested
  have hentries := hnodup.map (f := (· ++ ".class")) fun n k heq => (String.append_left_inj ".class").mp heq
  rwa [List.map_map] at hentries

/-- Where all models have texts for names, the list of the provider has one entry for each selected model, in the order
    of the schema, and no two of them are the same. The text has this list in full, from which the same entries are
    read, and the version of the whole schema, whatever is selected. -/
theorem entries_of_registryPass {d : Json} (hd : Schema.ofDocument d = .ok schema)
    (hnames : ∀ m ∈ Entries.values schema.models, ∃ n, m.name = .str n)
    (h : Yields (registryPass settings schema) s text t) :
    ∃ models entries, selectedModels settings schema = .ok models ∧
      (Entries.values models).Sublist (Entries.values schema.models) ∧
      entries = (Entries.values models).map
        (fun m => given rules (asked settings schema .registry) m.name.display ++ ".class") ∧
      entries.Nodup ∧ text = file settings schema.version (listText entries) ∧ listed (listText entries) = entries := by
  have houtcome := outcome_registryPass settings schema s
  rw [show outcome (registryPass settings schema) s = .ok text from congrArg Prod.fst h] at houtcome
  cases hclasses : outcome (listing settings schema) s with
  | error e =>
    rw [hclasses] at houtcome
    cases houtcome
  | ok classes =>
    rw [hclasses] at houtcome
    have htext : text = file settings schema.version (listText (firstOccurrences classes)) := Except.ok.inj houtcome
    obtain ⟨u, hlisting⟩ := exists_yields_of_outcome hclasses
    obtain ⟨models, hmodels, hentries⟩ := yields_listing hlisting
    have hscope := values_select_sublist hmodels
    have htexts : ∀ m ∈ Entries.values models, ∃ n, m.name = .str n := fun m hm => hnames m (hscope.subset hm)
    have hdistinct : classes.Nodup := hentries ▸ nodup_entries hd hmodels htexts
    have hwords : ∀ e ∈ classes, Text.ListWord e.toList := by
      intro e he
      rw [hentries] at he
      obtain ⟨m, -, rfl⟩ := List.mem_map.mp he
      exact listWord_entry _ _
    refine ⟨models, classes, hmodels, hscope, hentries, hdistinct, ?_, listed_listText hwords⟩
    rw [htext, firstOccurrences_of_nodup hdistinct]

/-- Three models of one name in Java, around another one. -/
def notes : Schema :=
  { models := [
      (.str "note_book", { name := .str "note_book" }), (.str "NoteBook", { name := .str "NoteBook" }),
      (.str "Page", { name := .str "Page" }), (.str "noteBook", { name := .str "noteBook" })] }

theorem ofDocument_notes : ∃ d, Schema.ofDocument d = .ok notes := by
  let model (name : String) : Json := .obj [("name", .str name)]
  exact ⟨.obj [("models", .arr [model "note_book", model "NoteBook", model "Page", model "noteBook"])], rfl⟩

/-- All of them are listed, each under its own class, and alone they are listed with the same version. -/
theorem entries_of_notes :
    (∃ text t, Yields (registryPass {} notes) {} text t ∧ text = file {} notes.version
      (listText ["NoteBook.class", "NoteBook_1.class", "Page.class", "NoteBook_2.class"])) ∧
      ∃ text t, Yields (registryPass { selectedType := .str "Page" } notes) {} text t ∧
        text = file { selectedType := .str "Page" } notes.version (listText ["Page.class"]) := by
  obtain ⟨d, hd⟩ := ofDocument_notes
  have hnames : ∀ m ∈ Entries.values notes.models, ∃ n, m.name = .str n := by
    intro m hm
    simp only [notes, Entries.values, List.map_cons, List.map_nil, List.mem_cons, List.not_mem_nil, or_false] at hm
    rcases hm with rfl | rfl | rfl | rfl <;> exact ⟨_, rfl⟩
  obtain ⟨text, t, h⟩ := exists_yields_of_succeeds
    (show succeeds (registryPass {} notes) {} = true by decide +kernel)
  obtain ⟨text', t', h'⟩ := exists_yields_of_succeeds
    (show succeeds (registryPass { selectedType := .str "Page" } notes) {} = true by decide +kernel)
  obtain ⟨models, entries, hmodels, -, hentries, -, htext, -⟩ := entries_of_registryPass hd hnames h
  obtain ⟨models', entries', hmodels', -, hentries', -, htext', -⟩ := entries_of_registryPass hd hnames h'
  obtain rfl : notes.models = models := Except.ok.inj hmodels
  obtain rfl : [(.str "Page", { name := .str "Page" })] = models' := Except.ok.inj hmodels'
  refine ⟨⟨text, t, h, ?_⟩, text', t', h', ?_⟩
  · rw [htext, hentries]
    exact congrArg (fun es => file {} notes.version (listText es)) (by decide +kernel)
  · rw [htext', hentries']
    exact congrArg (fun es => file { selectedType := .str "Page" } notes.version (listText es)) (by decide +kernel)

end SchemaForge.Java
