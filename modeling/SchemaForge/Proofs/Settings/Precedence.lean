import SchemaForge.Proofs.Json.WellKeyed
import SchemaForge.Proofs.Settings.Members
import SchemaForge.Proofs.Text.Utf8

/-
Which source a setting comes from. Each source is an object of settings: explicit ones, those of a file, the defaults of
the language.

A field has the value of the first source that gives it. A custom setting can be given in two ways, as a member of its
own or as an entry under `custom`, and sources are merged member by member and entry by entry before the members without
a field become custom settings. So a member of any source goes before the entries of all. It follows which settings are
resolved by source alone (`load_precedence`): all but those that the file gives as a member and the explicit settings,
with another value, only as an entry.
-/

namespace SchemaForge.Settings

open Entries

variable {ms target overrides : Members} {v : Json}

/-! ## Sources -/

/-- What a source gives for a custom setting as a member of its own. -/
def plain? (ms : Members) (k : String) : Option Json := get? k (unnamed ms)

/-- What a source gives for a custom setting as an entry under `custom`. -/
def nested? (ms : Members) (k : String) : Option Json := get? k (customOf ms)

/-- What a source gives for a custom setting, in either way. -/
def given? (ms : Members) (k : String) : Option Json := (plain? ms k).or (nested? ms k)

theorem proper_nil : Proper [] where
  names_nodup := List.nodup_nil
  custom := by
    intro v h
    cases h

theorem proper_of_wellKeyed (h : (Json.obj ms).WellKeyed)
    (hcustom : ∀ v, get? "custom" ms = some v → v.isObject = true) : Proper ms where
  names_nodup := (Json.wellKeyed_obj.mp h).1
  custom := by
    intro v hv
    have hobject := hcustom v hv
    cases v with
    | obj c => exact ⟨c, rfl, (Json.wellKeyed_obj.mp (Json.wellKeyed_get? h hv)).1⟩
    | _ => cases hobject

theorem proper_put {name : String} (h : Proper ms) (hv : name = "custom" → ∃ c, v = .obj c ∧ (keys c).Nodup) :
    Proper (put name v ms) where
  names_nodup := nodup_keys_put h.names_nodup _ _
  custom := by
    intro w hw
    rw [get?_put] at hw
    split at hw
    · rename_i hname
      obtain rfl := Option.some.inj hw
      exact hv (beq_iff_eq.mp hname)
    · exact h.custom w hw

theorem proper_cons {m : String × Json} (h : Proper (m :: ms)) : m.1 ∉ keys ms ∧ Proper [m] ∧ Proper ms := by
  have hnodup : m.1 ∉ keys ms ∧ (keys ms).Nodup := List.nodup_cons.mp h.names_nodup
  refine ⟨hnodup.1, ⟨List.nodup_singleton _, fun w hw => h.custom w ?_⟩, ⟨hnodup.2, fun w hw => h.custom w ?_⟩⟩
  · unfold get? at hw ⊢
    split at hw
    · rename_i hm
      rwa [if_pos hm]
    · cases hw
  · rw [get?, if_neg, hw]
    intro hm
    have : "custom" ∈ keys ms := List.mem_map_of_mem (mem_of_get? hw)
    exact hnodup.1 (by rwa [beq_iff_eq.mp hm])

theorem nodup_customOf (h : Proper ms) : (keys (customOf ms)).Nodup := by
  unfold customOf
  cases hget : get? "custom" ms with
  | none => exact List.nodup_nil
  | some v =>
    obtain ⟨c, rfl, hc⟩ := h.custom v hget
    exact hc

theorem customOf_congr {ns : Members} (h : get? "custom" ms = get? "custom" ns) : customOf ms = customOf ns := by
  rw [customOf, customOf, h]

theorem customOf_of_ne {m : String × Json} (h : m.1 ≠ "custom") : customOf [m] = [] := by
  simp [customOf, get?, h]

/-! ## Merging -/

theorem override_of_ne {name : String} (h : name ≠ "custom") (target : Members) (v : Json) :
    override target (name, v) = .ok (put name v target) := by
  unfold override
  split
  · rename_i heq
    exact absurd (Prod.mk.inj heq).1 h
  · rename_i heq
    cases heq
    rfl

theorem override_custom (h : Proper target) (new : Members) :
    override target ("custom", .obj new) = .ok (put "custom" (.obj (putAll new (customOf target))) target) := by
  unfold override customOf
  cases hget : get? "custom" target with
  | none => rfl
  | some v =>
    obtain ⟨c, rfl, -⟩ := h.custom v hget
    rfl

/-- Setting one member leaves the others; under `custom` it leaves the other entries. -/
theorem override_eq_ok {m : String × Json} (htarget : Proper target) (hm : Proper [m]) :
    ∃ next, override target m = .ok next ∧ Proper next ∧
      (∀ n, n ≠ "custom" → get? n next = (get? n [m]).or (get? n target)) ∧
      (∀ k, nested? next k = (nested? [m] k).or (nested? target k)) := by
  obtain ⟨name, v⟩ := m
  by_cases hname : name = "custom"
  · obtain rfl := hname
    obtain ⟨new, rfl, hnew⟩ := hm.custom v rfl
    have hnodup : (keys (putAll new (customOf target))).Nodup := nodup_keys_putAll (nodup_customOf htarget)
    refine ⟨_, override_custom htarget new, proper_put htarget fun _ => ⟨_, rfl, hnodup⟩, fun n hn => ?_, fun k => ?_⟩
    · rw [get?_put_of_ne hn, get?, if_neg (by simpa using Ne.symm hn)]
      rfl
    · have hput : ∀ c, customOf (put "custom" (.obj c) target) = c := fun c => by rw [customOf, get?_put_self]
      rw [nested?, hput, get?_putAll hnew]
      rfl
  · refine ⟨_, override_of_ne hname target v, proper_put htarget fun h => absurd h hname, fun n _ => ?_, fun k => ?_⟩
    · rw [get?_put]
      by_cases h : name = n <;> simp [get?, h]
    · have hput : customOf (put name v target) = customOf target :=
        customOf_congr (get?_put_of_ne (Ne.symm hname) v target)
      rw [nested?, hput, nested?, customOf_of_ne hname]
      rfl

/-- Where a name stands once, it does not matter whether it is looked for in the first member first or last. -/
theorem get?_cons_or {m : String × Json} (h : m.1 ∉ keys ms) (n : String) :
    get? n (m :: ms) = (get? n ms).or (get? n [m]) := by
  by_cases hm : m.1 = n
  · rw [get?, if_pos (beq_iff_eq.mpr hm), ← hm, get?_eq_none_iff.mpr h, get?, if_pos BEq.rfl]
    rfl
  · rw [get?, if_neg (by simpa using hm), get?, if_neg (by simpa using hm)]
    exact (Option.or_none).symm

theorem nested?_cons_or {m : String × Json} (h : Proper (m :: ms)) (k : String) :
    nested? (m :: ms) k = (nested? ms k).or (nested? [m] k) := by
  obtain ⟨hnew, -, -⟩ := proper_cons h
  by_cases hm : m.1 = "custom"
  · have hrest : customOf ms = [] := by rw [customOf, get?_eq_none_iff.mpr (hm ▸ hnew)]
    have hone : customOf (m :: ms) = customOf [m] := customOf_congr (by simp [get?, hm])
    rw [nested?, hone, nested?, hrest]
    rfl
  · have hrest : customOf (m :: ms) = customOf ms := customOf_congr (by simp [get?, hm])
    rw [nested?, hrest, nested?, nested?, customOf_of_ne hm]
    exact (Option.or_none).symm

/-- Merged members hold what the new ones give, then what the old ones give, and so do the entries under `custom`. -/
theorem merge_eq_ok (htarget : Proper target) (h : Proper overrides) :
    ∃ merged, merge target overrides = .ok merged ∧ Proper merged ∧
      (∀ n, n ≠ "custom" → get? n merged = (get? n overrides).or (get? n target)) ∧
      (∀ k, nested? merged k = (nested? overrides k).or (nested? target k)) := by
  unfold merge
  -- Later members override earlier ones. Which is looked up first does not matter, as no name stands twice.
  induction overrides generalizing target with
  | nil => exact ⟨target, rfl, htarget, fun _ _ => rfl, fun _ => rfl⟩
  | cons m overrides ih =>
    obtain ⟨hnew, hone, hrest⟩ := proper_cons h
    obtain ⟨next, hnext, hproper, hmembers, hentries⟩ := override_eq_ok htarget hone
    obtain ⟨merged, hmerged, hproper, hmembers', hentries'⟩ := ih hproper hrest
    refine ⟨merged, ?_, hproper, fun n hn => ?_, fun k => ?_⟩
    · rw [List.foldlM_cons, hnext]
      exact hmerged
    · rw [hmembers' n hn, hmembers n hn, get?_cons_or hnew, Option.or_assoc]
    · rw [hentries', hentries, nested?_cons_or h, Option.or_assoc]

/-- Where there is no object under `custom`, each member is put in turn. -/
theorem merge_eq_putAll (h : ∀ m ∈ overrides, m.1 = "custom" → m.2.isObject = false) (target : Members) :
    merge target overrides = .ok (putAll overrides target) := by
  refine Runs.foldlM_eq_ok_foldl (fun target m hm => ?_) target
  obtain ⟨name, v⟩ := m
  unfold override
  split
  · rename_i heq
    obtain ⟨rfl, rfl⟩ := Prod.mk.inj heq
    cases h _ hm rfl
  · rename_i heq
    cases heq
    rfl

theorem plain?_of_merged {merged : Members}
    (h : ∀ n, n ≠ "custom" → get? n merged = (get? n overrides).or (get? n target)) (k : String) :
    plain? merged k = (plain? overrides k).or (plain? target k) := by
  simp only [plain?, get?_unnamed]
  by_cases hk : k ∈ names
  · simp only [hk, if_true, Option.or_none]
  · have hcustom : k ≠ "custom" := by
      rintro rfl
      exact hk (by decide)
    simp only [hk, if_false, h k hcustom]

/-! ## Loading -/

/-- The members of a settings file, if there is one. -/
def fileMembers (files : FileStore) : Option Path → Except SettingsError Members
  | some p => membersOfFile files p
  | none => .ok []

theorem wellKeyed_of_ofFile {files : FileStore} {p : Path} (h : Json.ofFile files p = .ok v) : v.WellKeyed := by
  unfold Json.ofFile at h
  split at h
  · cases h
  · split at h
    · cases h
    · split at h
      · cases h
      · cases h
      · rename_i hparse
        cases h
        exact Json.wellKeyed_of_parse hparse

theorem ofFile_of_membersOfFile {files : FileStore} {p : Path} (h : membersOfFile files p = .ok ms) :
    Json.ofFile files p = .ok (.obj ms) := by
  unfold membersOfFile at h
  cases hexists : files.exists? p with
  | error e =>
    rw [hexists] at h
    cases h
  | ok found =>
    rw [hexists] at h
    cases found with
    | false => cases h
    | true =>
      cases hjson : p.isJson with
      | false =>
        simp only [hjson] at h
        cases h
      | true =>
        cases hfile : Json.ofFile files p with
        | error d =>
          simp only [hjson, hfile] at h
          cases d <;> cases h
        | ok v =>
          simp only [hjson, hfile] at h
          cases v with
          | obj c =>
            cases h
            rfl
          | _ => cases h

/-- A settings file that holds a text, with its lines ended in one way, has the members that the text stands for. -/
theorem membersOfFile_of_text {files : FileStore} {p : Path} {text : String} (hexists : files.exists? p = .ok true)
    (hjson : p.isJson = true) (hread : files.read p = .ok text.toUTF8.toList)
    (hlines : String.ofList (Json.unifyLineEnds text.toList) = text) (hparse : Json.parse text = .ok (.obj ms)) :
    membersOfFile files p = .ok ms := by
  have hfile : Json.ofFile files p = .ok (.obj ms) := by
    simp only [Json.ofFile, hread, Text.Utf8.decode_toUTF8, hlines, hparse]
  simp only [membersOfFile, hexists, hjson, hfile]
  rfl

theorem wellKeyed_of_fileMembers {files : FileStore} {file : Option Path} (h : fileMembers files file = .ok ms) :
    (Json.obj ms).WellKeyed := by
  cases file with
  | none =>
    cases h
    exact Json.wellKeyed_obj_nil
  | some p => exact wellKeyed_of_ofFile (ofFile_of_membersOfFile h)

/-- The custom settings of a language where no source gives any. -/
def customDefaults (language : String) : Members :=
  if language = "java" then [("scalar_overrides", .obj [])] else []

/-- The settings of a language where no source gives any. -/
def defaults (language : String) : Settings := { custom := .entries (Custom.keyed (customDefaults language)) }

/-- The built-in members of a language. -/
def base (language : String) : Members := (get? language languageDefaults).getD []

theorem base_of_ne {language : String} (h : language ≠ "java") : base language = [] := by
  simp [base, languageDefaults, get?, Ne.symm h]

theorem proper_base (language : String) : Proper (base language) := by
  by_cases h : language = "java"
  · obtain rfl := h
    exact ⟨by decide, fun v hv => ⟨[("scalar_overrides", .obj [])], (Option.some.inj hv).symm, by decide⟩⟩
  · rw [base_of_ne h]
    exact proper_nil

theorem nested?_base (language k : String) : nested? (base language) k = get? k (customDefaults language) := by
  by_cases h : language = "java"
  · obtain rfl := h
    rfl
  · rw [base_of_ne h, customDefaults, if_neg h]
    rfl

theorem plain?_base (language k : String) : plain? (base language) k = none := by
  by_cases h : language = "java"
  · obtain rfl := h
    rfl
  · rw [base_of_ne h]
    rfl

theorem field_base {name : String} (language : String) (hname : name ∈ names) (hcustom : name ≠ "custom") :
    (get? name (base language)).or (get? name ({} : Settings).toMembers) = get? name (defaults language).toMembers := by
  have hdefaults : (defaults language).toMembers =
      put "custom" (defaults language).custom.toJson ({} : Settings).toMembers := toMembers_custom {} _
  rw [hdefaults, get?_put_of_ne hcustom]
  by_cases h : language = "java"
  · obtain rfl := h
    simp only [names, toMembers, List.map_cons, List.map_nil, List.mem_cons, List.not_mem_nil, or_false] at hname
    rcases hname with rfl | rfl | rfl | rfl | rfl | rfl | rfl
    all_goals first
      | exact absurd rfl hcustom
      | rfl
  · rw [base_of_ne h]
    rfl

theorem explicitMembers_obj (explicit : Members) : explicitMembers (.obj explicit) = .ok explicit := by
  cases explicit <;> rfl

theorem explicitMembers_null : explicitMembers .null = .ok [] := rfl

theorem lift_eq_ok {α : Type} {x : Except Fault α} {a : α} : lift x = .ok a ↔ x = .ok a := by
  cases x with
  | error f =>
    refine ⟨fun h => ?_, fun h => ?_⟩
    · cases h
    · cases h
  | ok b => exact ⟨fun h => congrArg Except.ok (Except.ok.inj h), fun h => congrArg Except.ok (Except.ok.inj h)⟩

theorem load_eq (files : FileStore) (language : String) (explicit : Json) (file : Option Path) :
    load files language explicit file = (do
      let fromFile ← fileMembers files file
      let inner ← lift (merge (base language) fromFile)
      let merged ← lift (do merge inner (← explicitMembers explicit))
      lift (ofMembers merged)) := by
  cases file <;> rfl

/-- Loading reads the file, merges the sources in turn and makes settings of what came out. -/
theorem load_eq_ok_iff {files : FileStore} {language : String} {explicit : Json} {file : Option Path} {s : Settings} :
    load files language explicit file = .ok s ↔ ∃ fromFile given inner merged, fileMembers files file = .ok fromFile ∧
      explicitMembers explicit = .ok given ∧ merge (base language) fromFile = .ok inner ∧
      merge inner given = .ok merged ∧ ofMembers merged = .ok s := by
  simp only [load_eq, Runs.bind_eq_ok, lift_eq_ok]
  refine ⟨?_, ?_⟩
  · rintro ⟨fromFile, hfile, inner, hinner, merged, ⟨given, hgiven, hmerged⟩, hs⟩
    exact ⟨fromFile, given, inner, merged, hfile, hgiven, hinner, hmerged, hs⟩
  · rintro ⟨fromFile, given, inner, merged, hfile, hgiven, hinner, hmerged, hs⟩
    exact ⟨fromFile, hfile, inner, hinner, merged, ⟨given, hgiven, hmerged⟩, hs⟩

/-- Sources of proper members load. Each field has the value of the first source that gives it. A custom setting has
    that of the first member, explicit or of the file, and only then that of the first entry. -/
theorem load_eq_ok (language : String) {files : FileStore} {explicit : Json} {given fromFile : Members}
    {file : Option Path} (hfile : fileMembers files file = .ok fromFile) (hgiven : explicitMembers explicit = .ok given)
    (hfileProper : Proper fromFile) (hproper : Proper given) :
    ∃ s entries, load files language explicit file = .ok s ∧
      (∀ n ∈ names, n ≠ "custom" → get? n s.toMembers =
        (get? n given).or ((get? n fromFile).or (get? n (defaults language).toMembers))) ∧
      s.custom = .entries (Custom.keyed entries) ∧ (keys entries).Nodup ∧
      ∀ k, get? k entries = (plain? given k).or ((plain? fromFile k).or
        ((nested? given k).or ((nested? fromFile k).or (get? k (customDefaults language))))) := by
  obtain ⟨inner, hinner, hinnerProper, hfields, hentries⟩ := merge_eq_ok (proper_base language) hfileProper
  obtain ⟨merged, hmerged, hmergedProper, hfields', hentries'⟩ := merge_eq_ok hinnerProper hproper
  obtain ⟨s, hs, hsfields, hscustom⟩ := ofMembers_eq_ok hmergedProper
  refine ⟨s, _, load_eq_ok_iff.mpr ⟨fromFile, given, inner, merged, hfile, hgiven, hinner, hmerged, hs⟩,
    fun n hn hne => ?_, hscustom, nodup_keys_putAll (nodup_customOf hmergedProper), fun k => ?_⟩
  · rw [hsfields n hn hne, hfields' n hne, hfields n hne, Option.or_assoc, Option.or_assoc, field_base language hn hne]
  · have hunnamed : (keys (unnamed merged)).Nodup := (List.filter_sublist.map _).nodup hmergedProper.names_nodup
    -- What has no field is put into the entries last, so it is looked up first.
    calc get? k (putAll (unnamed merged) (customOf merged))
        = (plain? merged k).or (nested? merged k) := get?_putAll hunnamed _ _
      _ = _ := by
          rw [plain?_of_merged hfields', plain?_of_merged hfields, plain?_base, hentries', hentries, nested?_base,
            Option.or_none, Option.or_assoc]

/-- The value of a custom setting if the sources were asked in turn. -/
def bySource (language : String) (explicit fromFile : Members) (k : String) : Option Json :=
  (given? explicit k).or ((given? fromFile k).or (get? k (customDefaults language)))

/-- Loading explicit settings and a file gives settings in which each field has the value of the first source that gives
    it: explicit, file, default. A custom setting has the value of the first member, explicit or of the file, and only
    then that of the first entry under `custom`. So it is resolved by source like a field, unless the explicit settings
    give it as an entry alone and the file gives it as a member with another value. -/
theorem load_precedence (language : String) {files : FileStore} {explicit fromFile : Members} {file : Option Path}
    (hfile : fileMembers files file = .ok fromFile) (hexplicit : (Json.obj explicit).WellKeyed)
    (hobject : ∀ v, get? "custom" explicit = some v → v.isObject = true)
    (hfileObject : ∀ v, get? "custom" fromFile = some v → v.isObject = true) :
    ∃ s, load files language (.obj explicit) file = .ok s ∧
      (∀ n ∈ names, n ≠ "custom" → get? n s.toMembers =
        (get? n explicit).or ((get? n fromFile).or (get? n (defaults language).toMembers))) ∧
      (∀ k, s.custom.get? k = .ok ((plain? explicit k).or ((plain? fromFile k).or
        ((nested? explicit k).or ((nested? fromFile k).or (get? k (customDefaults language))))))) ∧
      (∀ k, s.custom.get? k = .ok (bySource language explicit fromFile k) ↔
        ¬ ∃ v w, plain? explicit k = none ∧ nested? explicit k = some v ∧ plain? fromFile k = some w ∧ w ≠ v) := by
  obtain ⟨s, entries, hs, hfields, hcustom, -, hentries⟩ := load_eq_ok language hfile (explicitMembers_obj explicit)
    (proper_of_wellKeyed (wellKeyed_of_fileMembers hfile) hfileObject) (proper_of_wellKeyed hexplicit hobject)
  have hcustom : ∀ k, s.custom.get? k = .ok ((plain? explicit k).or ((plain? fromFile k).or
      ((nested? explicit k).or ((nested? fromFile k).or (get? k (customDefaults language)))))) := by
    intro k
    rw [hcustom, Custom.get?, Custom.get?_keyed, hentries]
  refine ⟨s, hs, hfields, hcustom, fun k => ?_⟩
  rw [hcustom k, bySource, given?, given?]
  cases plain? explicit k with
  | some u => simp
  | none =>
    cases nested? explicit k with
    | none => simp [Option.or_assoc]
    | some v =>
      cases plain? fromFile k with
      | none => simp
      | some w => simp

def regionText : String := "\x7b\"region\": \"eu\", \"generate\": \"loader\"\x7d"

/-- A store in which the settings file gives a region, as a member. -/
def regionFiles : FileStore := { entries := [(["settings.json"], .file regionText.toUTF8.toList)] }

def regionMembers : Members := [("region", .str "eu"), ("generate", .str "loader")]

/-- Explicit settings that give another region, as an entry. -/
def regionExplicit : Members := [("custom", .obj [("region", .str "us"), ("tier", .str "paid")])]

theorem fileMembers_region : fileMembers regionFiles (some (Path.ofString "settings.json")) = .ok regionMembers := by
  have hread : regionFiles.read (Path.ofString "settings.json") = .ok regionText.toUTF8.toList := rfl
  have hlines : String.ofList (Json.unifyLineEnds regionText.toList) = regionText := rfl
  have hparse : Json.parse regionText = .ok (.obj regionMembers) := by cbv
  rw [fileMembers]
  exact membersOfFile_of_text rfl rfl hread hlines hparse

/-- The region is that of the file. The other settings come from the first source that gives them. -/
theorem region_of_the_file : ∃ s,
    load regionFiles "java" (.obj regionExplicit) (some (Path.ofString "settings.json")) = .ok s ∧
      s.custom.get? "region" = .ok (some (.str "eu")) ∧
      bySource "java" regionExplicit regionMembers "region" = some (.str "us") ∧
      (∀ k ∈ ["tier", "scalar_overrides"], s.custom.get? k = .ok (bySource "java" regionExplicit regionMembers k)) ∧
      ∀ m ∈ [("generate", Json.str "loader"), ("add_comments", .bool true)], get? m.1 s.toMembers = some m.2 := by
  have hexplicit : (Json.obj regionExplicit).WellKeyed := by
    unfold Json.WellKeyed
    decide +kernel
  obtain ⟨s, hs, hfields, hcustom, hsource⟩ :=
    load_precedence "java" fileMembers_region hexplicit (by decide) (by decide)
  refine ⟨s, hs, hcustom "region", rfl, ?_, ?_⟩
  · intro k hk
    refine (hsource k).mpr fun ⟨v, w, _, _, hplain, _⟩ => ?_
    obtain rfl | rfl := List.mem_pair.mp hk <;> cases hplain
  · intro m hm
    obtain rfl | rfl := List.mem_pair.mp hm
    · exact hfields "generate" (by decide) (by decide)
    · exact hfields "add_comments" (by decide) (by decide)

end SchemaForge.Settings
