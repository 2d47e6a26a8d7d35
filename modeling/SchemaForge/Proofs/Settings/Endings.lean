import SchemaForge.Java.Backend
import SchemaForge.Proofs.Loader.Endings
import SchemaForge.Proofs.Settings.Precedence

/-
How a load of settings from a file ends. It should end with custom entries, which is what a generator asks its settings
for (`exists_create_iff`), or with an error about the configuration (`Regular`).

Two kinds of files break this (`load_regular_iff`). From some nothing can be read, and what is raised is passed on as it
is (`ends_membersOfFile`). Others have a member under `custom` that is no object. Such a member is not merged but takes
the place of the entries. There it stays, unless there are members without a field: these are put into the entries that
can be made of it, if any can (`ends_of_not_object`).
-/

namespace SchemaForge.Settings

open Entries

/-- Settings with custom entries, or an error about the configuration. -/
def Regular : Except SettingsError Settings → Prop
  | .ok s => ∃ es, s.custom = .entries es
  | .error e => e.isConfiguration = true

/-- The file is one that errors escape from when it is read. With the wrong suffix it is not read. -/
def Escapes (files : FileStore) (p : Path) : Prop :=
  Loader.File.Escapes files p ∧ (files.exists? p = .ok true → p.isJson = true)

/-- Under `custom` stands no object, and no entries are made of it. -/
def Misplaced (ms : Members) : Prop :=
  ∃ v, get? "custom" ms = some v ∧ v.isObject = false ∧ (unnamed ms = [] ∨ ∃ f, v.entries = .error f)

theorem exists_create_iff (s : Settings) :
    (∃ g, Generator.create Java.backend s = .ok g) ↔ ∃ es, s.custom = .entries es := by
  simp only [Generator.create, Java.backend, Java.overridesOf, Custom.get?, Runs.bind_eq_ok, Runs.pure_eq_ok]
  cases s.custom <;> simp

variable {files : FileStore} {p : Path} {language : String} {ms : Members} {v : Json}

/-! ## Reading the file -/

theorem ends_membersOfFile (files : FileStore) (p : Path) :
    (∃ ms, membersOfFile files p = .ok ms ∧ ¬ Escapes files p) ∨
      ∃ e, membersOfFile files p = .error e ∧ (e.isConfiguration = true ↔ ¬ Escapes files p) := by
  unfold membersOfFile
  cases hexists : files.exists? p with
  | error e =>
    have hescapes : Escapes files p := ⟨Loader.File.escapes_of_unaskable hexists, fun h => by simp [hexists] at h⟩
    exact Or.inr ⟨_, rfl, iff_of_false Bool.false_ne_true (not_not_intro hescapes)⟩
  | ok found =>
    cases found with
    | false => exact Or.inr ⟨_, rfl, iff_of_true rfl fun h => Loader.File.not_escapes_of_missing hexists h.1⟩
    | true =>
      cases hjson : p.isJson with
      | false => exact Or.inr ⟨_, rfl, iff_of_true rfl fun h => by simp [h.2 hexists] at hjson⟩
      | true =>
        have hescapes : Escapes files p ↔ (∃ m, Json.ofFile files p = .error (.encoding m)) ∨
            ∃ x, Json.ofFile files p = .error (.excess x) := by
          rw [Escapes, Loader.File.escapes_iff_of_exists hexists, and_iff_left fun _ => hjson]
        rw [hescapes]
        cases hfile : Json.ofFile files p with
        | ok v =>
          cases v with
          | obj ms => exact Or.inl ⟨ms, rfl, by simp⟩
          | _ => exact Or.inr ⟨_, rfl, iff_of_true rfl (by simp)⟩
        | error d =>
          cases d with
          | text e => exact Or.inr ⟨_, rfl, iff_of_true rfl (by simp)⟩
          | file e => exact Or.inr ⟨_, rfl, iff_of_true rfl (by simp)⟩
          | excess x => exact Or.inr ⟨_, rfl, iff_of_false Bool.false_ne_true (by simp)⟩
          | encoding m => exact Or.inr ⟨_, rfl, iff_of_false Bool.false_ne_true (by simp)⟩

/-! ## What the members make -/

theorem load_of_members {merged : Members} (hfile : membersOfFile files p = .ok ms)
    (hmerged : merge (base language) ms = .ok merged) :
    load files language .null (some p) = lift (ofMembers merged) := by
  rw [load_eq, fileMembers, hfile]
  show (lift (merge (base language) ms) >>= _) = _
  rw [hmerged]
  rfl

theorem unnamed_eq_nil_iff : unnamed ms = [] ↔ ∀ n ∈ keys ms, n ∈ names := by
  simp [unnamed, keys, List.filter_eq_nil_iff]

theorem unnamed_merged_eq_nil_iff : unnamed (putAll ms (base language)) = [] ↔ unnamed ms = [] := by
  have hbase : ∀ n ∈ keys (base language), n ∈ names := by
    by_cases h : language = "java"
    · obtain rfl := h
      decide
    · rw [base_of_ne h]
      exact fun _ hn => nomatch hn
  simp only [unnamed_eq_nil_iff, mem_keys_putAll]
  exact ⟨fun h n hn => h n (Or.inl hn), fun h n hn => hn.elim (h n) (hbase n)⟩

/-- A member under `custom` that is no object is kept if there are no members without a field. Otherwise it is turned
    into entries, or it is an error that it cannot be. -/
theorem ends_of_not_object (language : String) (hfile : membersOfFile files p = .ok ms)
    (hget : get? "custom" ms = some v) (hv : v.isObject = false) :
    unnamed ms = [] ∧ (∃ s, load files language .null (some p) = .ok s ∧ s.custom = .other v) ∨
      unnamed ms ≠ [] ∧ ((∃ f, v.entries = .error f ∧ load files language .null (some p) = .error (.fault f)) ∨
        ∃ pairs s es, v.entries = .ok pairs ∧ load files language .null (some p) = .ok s ∧ s.custom = .entries es) := by
  have hgiven : fileMembers files (some p) = .ok ms := hfile
  have hkeyed := Json.wellKeyed_obj.mp (wellKeyed_of_fileMembers hgiven)
  have hnone : ∀ m ∈ ms, m.1 = "custom" → m.2.isObject = false := by
    rintro ⟨name, w⟩ hm rfl
    rw [get?_of_mem hkeyed.1 hm] at hget
    exact Option.some.inj hget ▸ hv
  have hcustom : givenCustom (putAll ms (base language)) = .other v := by
    rw [givenCustom, get?_putAll hkeyed.1, hget]
    cases v <;> first | rfl | cases hv
  have hnodup : (keys (putAll ms (base language))).Nodup := nodup_keys_putAll (proper_base language).names_nodup
  obtain ⟨s, -, hs, hof⟩ := ofMembers_eq hnodup
  rw [load_of_members hfile (merge_eq_putAll hnone _), hof]
  rw [hcustom] at hs ⊢
  by_cases hunnamed : unnamed ms = []
  · rw [if_pos (List.isEmpty_iff.mpr (unnamed_merged_eq_nil_iff.mpr hunnamed))]
    exact Or.inl ⟨hunnamed, s, rfl, hs⟩
  · refine Or.inr ⟨hunnamed, ?_⟩
    rw [if_neg fun h => hunnamed (unnamed_merged_eq_nil_iff.mp (List.isEmpty_iff.mp h)), Custom.toEntries]
    cases hentries : v.entries with
    | error f => exact Or.inl ⟨f, rfl, rfl⟩
    | ok pairs => exact Or.inr ⟨pairs, _, _, rfl, rfl, rfl⟩

/-- Settings from a file, with nothing else given: what comes out has custom entries, or is an error about the
    configuration, unless errors escape from the file or no entries are made of what stands under `custom`. And what has
    no custom entries is what no generator is made with. -/
theorem load_regular_iff (files : FileStore) (language : String) (p : Path) :
    (Regular (load files language .null (some p)) ↔
      ¬ (Escapes files p ∨ ∃ ms, membersOfFile files p = .ok ms ∧ Misplaced ms)) ∧
    ∀ s, load files language .null (some p) = .ok s →
      ((∃ g, Generator.create Java.backend s = .ok g) ↔ Regular (.ok s)) := by
  refine ⟨?_, fun s _ => exists_create_iff s⟩
  rcases ends_membersOfFile files p with ⟨ms, hfile, hescapes⟩ | ⟨e, hfile, hescapes⟩
  · have hmisplaced : (Escapes files p ∨ ∃ ms, membersOfFile files p = .ok ms ∧ Misplaced ms) ↔ Misplaced ms := by
      simp [hescapes, hfile]
    rw [hmisplaced]
    by_cases hobject : ∀ v, get? "custom" ms = some v → v.isObject = true
    · have hgiven : fileMembers files (some p) = .ok ms := hfile
      obtain ⟨s, entries, hload, -, hcustom, -⟩ := load_eq_ok language hgiven explicitMembers_null
        (proper_of_wellKeyed (wellKeyed_of_fileMembers hgiven) hobject) proper_nil
      rw [hload]
      refine iff_of_true ⟨_, hcustom⟩ ?_
      rintro ⟨v, hget, hv, -⟩
      rw [hobject v hget] at hv
      cases hv
    · simp only [not_forall, Bool.not_eq_true] at hobject
      obtain ⟨v, hget, hv⟩ := hobject
      rcases ends_of_not_object language hfile hget hv with
        ⟨hunnamed, s, hload, hcustom⟩ | ⟨hunnamed, ⟨f, hentries, hload⟩ | ⟨pairs, s, es, hentries, hload, hcustom⟩⟩
      · rw [hload]
        refine iff_of_false (fun ⟨es, hes⟩ => ?_) (not_not_intro ⟨v, hget, hv, Or.inl hunnamed⟩)
        rw [hcustom] at hes
        cases hes
      · rw [hload]
        exact iff_of_false Bool.false_ne_true (not_not_intro ⟨v, hget, hv, Or.inr ⟨f, hentries⟩⟩)
      · rw [hload]
        refine iff_of_true ⟨es, hcustom⟩ ?_
        rintro ⟨w, hget', -, hnone | ⟨f, hfails⟩⟩
        · exact hunnamed hnone
        · obtain rfl := Option.some.inj (hget.symm.trans hget')
          rw [hentries] at hfails
          cases hfails
  · have hload : load files language .null (some p) = .error e := by rw [load_eq, fileMembers, hfile]; rfl
    rw [hload, Regular, hescapes]
    simp [hfile]

def nothingText : String := "\x7b\"custom\": \"none\"\x7d"

/-- A store in which the settings file has a text under `custom`. -/
def nothingFiles : FileStore := { entries := [(["settings.json"], .file nothingText.toUTF8.toList)] }

/-- The text is loaded as it is, and no generator can be made with it. -/
theorem none_is_kept : ∃ s, load nothingFiles "java" .null (some (Path.ofString "settings.json")) = .ok s ∧
    s.custom = .other (.str "none") ∧ ¬ Regular (.ok s) ∧ ¬ ∃ g, Generator.create Java.backend s = .ok g := by
  have hread : nothingFiles.read (Path.ofString "settings.json") = .ok nothingText.toUTF8.toList := rfl
  have hlines : String.ofList (Json.unifyLineEnds nothingText.toList) = nothingText := rfl
  have hparse : Json.parse nothingText = .ok (.obj [("custom", .str "none")]) := by cbv
  have hfile : membersOfFile nothingFiles (Path.ofString "settings.json") = .ok [("custom", .str "none")] :=
    membersOfFile_of_text rfl rfl hread hlines hparse
  obtain ⟨hregular, hcreate⟩ := load_regular_iff nothingFiles "java" (Path.ofString "settings.json")
  rcases ends_of_not_object "java" hfile rfl rfl with ⟨-, s, hload, hcustom⟩ | ⟨hunnamed, -⟩
  · have hbroken : ¬ Regular (.ok s) := by
      rw [← hload, hregular]
      exact not_not_intro (Or.inr ⟨_, hfile, _, rfl, rfl, Or.inl rfl⟩)
    exact ⟨s, hload, hcustom, hbroken, fun hmade => hbroken ((hcreate s hload).mp hmade)⟩
  · exact absurd rfl hunnamed

end SchemaForge.Settings
