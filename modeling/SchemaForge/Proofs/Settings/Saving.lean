import Mathlib.Data.List.Nodup
import Mathlib.Data.List.Perm.Subperm
import SchemaForge.Proofs.Json.ReadBack
import SchemaForge.Proofs.Settings.Precedence

/-
Settings that are saved and loaded again. A saved file holds the fields and the custom entries side by side, so loading
has to tell them apart by their names. It gives the same settings exactly if every custom entry is named by a text
other than those of the fields, and if the entries that Java settings have by default are among them
(`reload_same_iff`): what is named like a field sets that field, what stands under `custom` is taken for the entries
themselves, and a default that is missing comes back.
-/

namespace SchemaForge

open Entries

namespace Json

/-! ## Entries of a value -/

theorem ne_of_mem_obj {m : String × Json} {ms : List (String × Json)} (h : m ∈ ms) : m.2 ≠ .obj ms := by
  intro heq
  have hm : sizeOf m < sizeOf ms := List.sizeOf_lt_of_mem h
  have hparts : sizeOf m = 1 + sizeOf m.1 + sizeOf m.2 := rfl
  rw [heq, Json.obj.sizeOf_spec] at hparts
  omega

/-- The elements of an array are its items; all others are texts. -/
theorem of_mem_elements {v x : Json} {xs : List Json} (h : v.elements = .ok xs) (hx : x ∈ xs) :
    v = .arr xs ∨ ∃ text, x = .str text := by
  cases v with
  | arr ys =>
    cases h
    exact Or.inl rfl
  | obj ms =>
    cases h
    obtain ⟨m, -, rfl⟩ := List.mem_map.mp hx
    exact Or.inr ⟨_, rfl⟩
  | str s =>
    cases h
    obtain ⟨c, -, rfl⟩ := List.mem_map.mp hx
    exact Or.inr ⟨_, rfl⟩
  | _ => cases h

theorem mem_pairsFrom {xs : List Json} {position : Nat} {pairs : List (Json × Json)} {e : Json × Json}
    (h : pairsFrom position xs = .ok pairs) (he : e ∈ pairs) : ∃ x ∈ xs, ∃ i, pairAt i x = .ok e := by
  induction xs generalizing position pairs with
  | nil =>
    cases h
    cases he
  | cons x xs ih =>
    simp only [pairsFrom, Runs.bind_eq_ok, Runs.pure_eq_ok] at h
    obtain ⟨first, hfirst, rest, hrest, rfl⟩ := h
    rcases List.mem_cons.mp he with rfl | he
    · exact ⟨x, List.mem_cons_self .., position, hfirst⟩
    · obtain ⟨y, hy, hpair⟩ := ih hrest he
      exact ⟨y, List.mem_cons_of_mem _ hy, hpair⟩

/-- The value of a pair is an element of what stood for the pair. -/
theorem elements_of_pairAt {x : Json} {i : Nat} {e : Json × Json} (h : pairAt i x = .ok e) :
    ∃ k, x.elements = .ok [k, e.2] := by
  unfold pairAt at h
  split at h
  · cases h
  · rename_i k w helements
    simp only [Runs.bind_eq_ok, Runs.pure_eq_ok] at h
    obtain ⟨key, -, rfl⟩ := h
    exact ⟨k, helements⟩
  · cases h

/-- No value is the value of one of its own entries. -/
theorem ne_of_mem_entries {v : Json} {pairs : List (Json × Json)} {e : Json × Json} (h : v.entries = .ok pairs)
    (he : e ∈ pairs) : e.2 ≠ v := by
  cases v with
  | obj ms =>
    cases h
    obtain ⟨m, hm, rfl⟩ := List.mem_map.mp he
    exact ne_of_mem_obj hm
  | arr xs =>
    obtain ⟨x, hx, i, hpair⟩ := mem_pairsFrom h he
    obtain ⟨k, helements⟩ := elements_of_pairAt hpair
    have hmem : e.2 ∈ [k, e.2] := List.mem_cons_of_mem _ (List.mem_cons_self ..)
    intro heq
    rcases of_mem_elements helements hmem with rfl | ⟨text, htext⟩
    · have houter : sizeOf (Json.arr [k, e.2]) < sizeOf xs := List.sizeOf_lt_of_mem hx
      have hinner : sizeOf e.2 < sizeOf [k, e.2] := List.sizeOf_lt_of_mem hmem
      have hself : sizeOf e.2 = 1 + sizeOf xs := by rw [heq, Json.arr.sizeOf_spec]
      rw [Json.arr.sizeOf_spec] at houter
      omega
    · rw [htext] at heq
      cases heq
  | str s =>
    obtain ⟨x, hx, i, hpair⟩ := mem_pairsFrom h he
    obtain ⟨k, helements⟩ := elements_of_pairAt hpair
    obtain ⟨c, -, rfl⟩ := List.mem_map.mp hx
    have htwo := congrArg List.length (Except.ok.inj helements)
    simp at htwo
  | _ => cases h

end Json

namespace Settings

variable {s s' : Settings} {ms target overrides : Members} {es : List (Json × Json)} {c : Members} {v : Json}

/-! ## Settings that can be loaded -/

theorem wellKeyed_override {m : String × Json} {next : Members} (htarget : (Json.obj target).WellKeyed)
    (hm : m.2.WellKeyed) (h : override target m = .ok next) : (Json.obj next).WellKeyed := by
  unfold override at h
  split at h
  · rename_i new
    have hold : ((get? "custom" target).getD (.obj [])).WellKeyed := Json.wellKeyed_getD htarget Json.wellKeyed_obj_nil
    split at h
    · rename_i old hget
      rw [hget] at hold
      cases h
      exact Json.wellKeyed_put (Json.wellKeyed_putAll (Json.wellKeyed_obj.mp hm).2 old hold) htarget
    · cases h
  · cases h
    exact Json.wellKeyed_put hm htarget

theorem wellKeyed_merge {merged : Members} (htarget : (Json.obj target).WellKeyed)
    (hoverrides : (Json.obj overrides).WellKeyed) (h : merge target overrides = .ok merged) :
    (Json.obj merged).WellKeyed :=
  have hvalues := (Json.wellKeyed_obj.mp hoverrides).2
  Runs.of_foldlM_eq_ok (P := fun ms : Members => (Json.obj ms).WellKeyed)
    (fun _ m hm _ htarget hnext => wellKeyed_override htarget (hvalues m hm) hnext) htarget h

theorem wellKeyed_base (language : String) : (Json.obj (base language)).WellKeyed := by
  by_cases h : language = "java"
  · obtain rfl := h
    unfold Json.WellKeyed
    decide +kernel
  · rw [base_of_ne h]
    exact Json.wellKeyed_obj_nil

theorem apart_keyed : Apart (Custom.keyed c) ↔ (keys c).Nodup := by
  have hkeys : keys (Custom.keyed c) = (keys c).map Json.str := by simp [keys, Custom.keyed]
  have hne : ∀ a b : String, (Json.str a == Json.str b) = false ↔ a ≠ b := by
    intro a b
    rw [Bool.eq_false_iff, ne_eq, Json.beq_str_iff, Json.str.injEq]
  simp only [Apart, hkeys, List.pairwise_map, hne]
  rfl

theorem apart_of_toEntries (h : (Json.obj ms).WellKeyed) (hes : (givenCustom ms).toEntries = .ok es) : Apart es := by
  unfold givenCustom at hes
  cases hget : get? "custom" ms with
  | none =>
    rw [hget] at hes
    cases hes
    exact apart_nil
  | some v =>
    rw [hget] at hes
    have hv := Json.wellKeyed_get? h hget
    cases v with
    | obj c =>
      cases hes
      exact apart_keyed.mpr (Json.wellKeyed_obj.mp hv).1
    | _ =>
      obtain ⟨pairs, -, hes⟩ := Runs.bind_eq_ok.mp hes
      cases hes
      exact apart_putAll apart_nil pairs

/-- Loaded settings have no custom entry twice. -/
theorem apart_of_load {files : FileStore} {language : String} {explicit : Json} {file : Option Path}
    (hexplicit : explicit.WellKeyed) (h : load files language explicit file = .ok s) (hs : s.custom = .entries es) :
    Apart es := by
  obtain ⟨fromFile, given, inner, merged, hfile, hgiven, hinner, hmerged, hof⟩ := load_eq_ok_iff.mp h
  have hgiven : (Json.obj given).WellKeyed := by
    unfold explicitMembers at hgiven
    split at hgiven
    · split at hgiven
      · cases hgiven
        exact hexplicit
      · cases hgiven
    · cases hgiven
      exact Json.wellKeyed_obj_nil
  have hinner := wellKeyed_merge (wellKeyed_base language) (wellKeyed_of_fileMembers hfile) hinner
  have hmerged := wellKeyed_merge hinner hgiven hmerged
  obtain ⟨old, hold, rfl⟩ := entries_of_ofMembers (Json.wellKeyed_obj.mp hmerged).1 hof hs
  exact apart_putAll (apart_of_toEntries hmerged hold) _

/-! ## Saved members -/

/-- The fields without the custom settings. -/
def fieldMembers (s : Settings) : Members := s.toMembers.filter (fun m => m.1 != "custom")

/-- The members of the file that settings with these custom entries are saved to. -/
def savedMembers (s : Settings) (es : List (Json × Json)) : Members :=
  (putAll es (Custom.keyed s.fieldMembers)).map (fun e => (e.1.keyText, e.2))

theorem get?_fieldMembers (n : String) (s : Settings) :
    get? n s.fieldMembers = if n ≠ "custom" then get? n s.toMembers else none := by
  simp only [fieldMembers, get?_filter (· != "custom"), bne_iff_ne]

theorem toSaved_eq (hs : s.custom = .entries es) : s.toSaved = .ok (.obj (s.savedMembers es)) := by
  simp only [toSaved, flattened, hs, Custom.toEntries]
  rfl

theorem savedMembers_keyed (s : Settings) (c : Members) :
    s.savedMembers (Custom.keyed c) = putAll c s.fieldMembers := by
  rw [savedMembers, Custom.putAll_keyed, Custom.keyed, List.map_map]
  exact List.map_id _

/-- Only a text is written as that text. -/
theorem eq_str_of_keyText {k : Json} (h : k.keyText = "custom") : k = .str "custom" := by
  have hscalar : ∀ v : Json, String.ofList (Json.scalar Json.lightString v) = "custom" →
      Json.scalar Json.lightString v = "custom".toList := by
    intro v hv
    rw [← hv, String.toList_ofList]
  cases k with
  | str s => exact congrArg Json.str h
  | null => exact absurd h (by decide)
  | bool b => cases b <;> exact absurd h (by decide)
  | int n =>
    have htext : (toString n).toList = "custom".toList := hscalar (.int n) h
    have hc : 'c' ∈ (toString n).toList := by
      rw [htext]
      decide
    rcases Json.mem_int hc with hc | hc <;> exact absurd hc (by decide)
  | float x =>
    have htext : (x.format Json.writtenFloat).toList = "custom".toList := hscalar (.float x) h
    cases hx : x.isNaN with
    | true =>
      rw [show x.format Json.writtenFloat = "NaN" from if_pos hx] at htext
      exact absurd htext (by decide)
    | false =>
      exact absurd htext (Json.float_ne hx (by decide) (by decide) (a := 'c') (by decide) (by decide) (by decide))
  | arr xs => exact absurd (hscalar (.arr xs) h) (List.cons_ne_nil _ _).symm
  | obj ms => exact absurd (hscalar (.obj ms) h) (List.cons_ne_nil _ _).symm

/-- What is saved under `custom` was a custom entry of that name. -/
theorem mem_of_saved_custom (h : get? "custom" (s.savedMembers es) = some v) : (.str "custom", v) ∈ es := by
  obtain ⟨⟨k, w⟩, he, heq⟩ := List.mem_map.mp (mem_of_get? h)
  obtain ⟨hkey, rfl⟩ := Prod.mk.inj heq
  obtain rfl : k = .str "custom" := eq_str_of_keyText hkey
  rcases mem_or_exists_of_mem_putAll he with hfield | ⟨⟨k, u⟩, hd, rfl, hk⟩
  · obtain ⟨m, hm, hname⟩ := List.mem_map.mp hfield
    have hne : m.1 ≠ "custom" := bne_iff_ne.mp (List.mem_filter.mp hm).2
    exact absurd (Json.str.inj (Prod.mk.inj hname).1) hne
  · have hk : k = .str "custom" := by
      rcases hk with hk | hk
      · exact hk.symm
      · cases k with
        | str t => exact (Json.beq_str_iff.mp hk).symm
        | _ => cases hk
    exact hk ▸ hd

/-! ## The file -/

variable {out stored : FileStore} {p : Path} {text : String}

theorem save_eq_ok (hs : s.custom = .entries es) (h : s.save out p = .ok (text, stored)) :
    p.holdsNul = false ∧ out.write p (Json.obj (s.savedMembers es)).indented.toUTF8.toList = .ok stored := by
  simp only [save, toSaved_eq hs] at h
  cases hnul : p.holdsNul with
  | true =>
    rw [hnul] at h
    cases h
  | false =>
    rw [hnul] at h
    cases hwrite : out.write p (Json.obj (s.savedMembers es)).indented.toUTF8.toList with
    | error e =>
      simp only [lift, bind, Except.bind, hwrite] at h
      cases h
    | ok files =>
      simp only [lift, bind, Except.bind, hwrite] at h
      cases h
      exact ⟨rfl, rfl⟩

theorem fileMembers_of_save (hs : s.custom = .entries es) (h : s.save out p = .ok (text, stored))
    (hread : Json.parse (Json.obj (s.savedMembers es)).indented = .ok (.obj (s.savedMembers es))) :
    fileMembers stored (some p) = if p.isJson then .ok (s.savedMembers es) else .error (.notJsonFile p) := by
  obtain ⟨hnul, hwrite⟩ := save_eq_ok hs h
  have hexists := FileStore.exists_of_write hwrite hnul
  have hfile := Json.ofFile_of_write hwrite hread
  cases hjson : p.isJson with
  | false => simp [fileMembers, membersOfFile, hexists, hjson]; rfl
  | true => simp [fileMembers, membersOfFile, hexists, hjson, hfile]; rfl

/-! ## Loading again -/

/-- The same fields, and the same custom entries in whatever order. -/
structure Same (s' s : Settings) : Prop where
  fields : ({ s' with custom := s.custom } : Settings) = s
  custom : ∃ es' es, s'.custom = .entries es' ∧ s.custom = .entries es ∧ es'.Perm es

theorem eq_of_fields (h : ∀ n ∈ names, n ≠ "custom" → get? n s'.toMembers = get? n s.toMembers) :
    ({ s' with custom := s.custom } : Settings) = s := by
  have houtput : s'.outputFile = s.outputFile := Option.some.inj (h "output_file" (by decide) (by decide))
  have hpackage : s'.packageName = s.packageName := Option.some.inj (h "package_name" (by decide) (by decide))
  have hloader : s'.loaderClassName = s.loaderClassName :=
    Option.some.inj (h "loader_class_name" (by decide) (by decide))
  have hgenerate : s'.generate = s.generate := Option.some.inj (h "generate" (by decide) (by decide))
  have hselected : s'.selectedType = s.selectedType := Option.some.inj (h "selected_type" (by decide) (by decide))
  have hcomments : s'.addComments = s.addComments := Option.some.inj (h "add_comments" (by decide) (by decide))
  rw [houtput, hpackage, hloader, hgenerate, hselected, hcomments]

theorem perm_of_get?_eq {d : Members} (hd : (keys d).Nodup) (hc : (keys c).Nodup) (h : ∀ k, get? k d = get? k c) :
    d.Perm c := by
  refine (List.perm_ext_iff_of_nodup hd.of_map hc.of_map).mpr fun ⟨k, v⟩ => ⟨fun hm => ?_, fun hm => ?_⟩
  · exact mem_of_get? (h k ▸ get?_of_mem hd hm)
  · exact mem_of_get? ((h k).trans (get?_of_mem hc hm))

theorem get?_of_mem_keyed {k : String} (hc : (keys c).Nodup) (h : (.str k, v) ∈ Custom.keyed c) :
    get? k c = some v := by
  obtain ⟨⟨name, w⟩, hm, heq⟩ := List.mem_map.mp h
  cases heq
  exact get?_of_mem hc hm

theorem exists_keyed (h : ∀ e ∈ es, ∃ name, e.1 = .str name) : ∃ c, es = Custom.keyed c := by
  induction es with
  | nil => exact ⟨[], rfl⟩
  | cons e es ih =>
    obtain ⟨c, rfl⟩ := ih fun d hd => h d (List.mem_cons_of_mem _ hd)
    obtain ⟨name, hname⟩ := h e (List.mem_cons_self ..)
    exact ⟨(name, e.2) :: c, congrArg (· :: Custom.keyed c) (Prod.ext hname rfl)⟩

/-- No language has a custom setting by default that is named like a field. -/
theorem get?_customDefaults_of_names {n : String} (language : String) (h : n ∈ names) :
    get? n (customDefaults language) = none := by
  rw [get?_eq_none_iff]
  unfold customDefaults
  split
  · rw [keys_cons, List.mem_cons, not_or]
    refine ⟨?_, List.not_mem_nil⟩
    rintro rfl
    exact absurd h (by decide)
  · exact List.not_mem_nil

theorem plain?_of_names {n : String} (ms : Members) (h : n ∈ names) : plain? ms n = none := by
  rw [plain?, get?_unnamed, if_pos h]

/-- What is no object is not merged. -/
theorem get?_merge_of_not_object {merged : Members} (hnodup : (keys overrides).Nodup)
    (hget : get? "custom" overrides = some v) (hv : v.isObject = false) (h : merge target overrides = .ok merged) :
    get? "custom" merged = some v := by
  have hnone : ∀ m ∈ overrides, m.1 = "custom" → m.2.isObject = false := by
    rintro ⟨name, w⟩ hm rfl
    rw [get?_of_mem hnodup hm] at hget
    exact Option.some.inj hget ▸ hv
  obtain rfl := Except.ok.inj ((merge_eq_putAll hnone target).symm.trans h)
  rw [get?_putAll hnodup, hget]
  rfl

/-- The value that a file gives under `custom` is not a custom entry of that name: what stands there is taken for the
    entries themselves. -/
theorem not_mem_loaded {files : FileStore} {language : String} {file : Option Path}
    (hfile : fileMembers files file = .ok ms) (hget : get? "custom" ms = some v)
    (hload : load files language .null file = .ok s) (hs : s.custom = .entries es) : (.str "custom", v) ∉ es := by
  intro hmem
  have hkeyed := wellKeyed_of_fileMembers hfile
  cases hobject : v.isObject with
  | true =>
    have hproper : Proper ms := proper_of_wellKeyed hkeyed fun w hw => by
      rw [hget] at hw
      exact Option.some.inj hw ▸ hobject
    obtain ⟨s', entries, hload', -, hcustom, hnodup, hentries⟩ :=
      load_eq_ok language hfile explicitMembers_null hproper proper_nil
    obtain rfl : s' = s := Except.ok.inj (hload'.symm.trans hload)
    obtain rfl : Custom.keyed entries = es := Custom.entries.inj (hcustom.symm.trans hs)
    obtain ⟨c, rfl, -⟩ := hproper.custom v hget
    have hself : get? "custom" entries = some (.obj c) := get?_of_mem_keyed hnodup hmem
    have hnested : nested? ms "custom" = get? "custom" c := by rw [nested?, customOf, hget]
    rw [hentries, plain?_of_names _ (by decide), plain?_of_names _ (by decide), hnested,
      get?_customDefaults_of_names language (by decide), Option.or_none] at hself
    exact Json.ne_of_mem_obj (mem_of_get? hself) rfl
  | false =>
    obtain ⟨_, _, inner, merged, hfile', hgiven, hinner, hmerged, hof⟩ := load_eq_ok_iff.mp hload
    cases hfile.symm.trans hfile'
    cases hgiven
    cases hmerged
    have hcustom : givenCustom inner = .other v := by
      rw [givenCustom, get?_merge_of_not_object (Json.wellKeyed_obj.mp hkeyed).1 hget hobject hinner]
      cases v <;> first | rfl | cases hobject
    obtain ⟨old, hold, rfl⟩ := entries_of_ofMembers
      (Json.wellKeyed_obj.mp (wellKeyed_merge (wellKeyed_base language) hkeyed hinner)).1 hof hs
    rw [hcustom] at hold
    obtain ⟨pairs, hpairs, hold⟩ := Runs.bind_eq_ok.mp hold
    cases hold
    rcases mem_or_exists_of_mem_putAll hmem with hmem | ⟨d, hd, -, hkey⟩
    · rcases mem_or_exists_of_mem_putAll hmem with hmem | ⟨d, hd, hvalue, -⟩
      · cases hmem
      · exact Json.ne_of_mem_entries hpairs hd hvalue.symm
    · obtain ⟨m, hm, rfl⟩ := List.mem_map.mp hd
      have hname : m.1 = "custom" := by
        rcases hkey with hkey | hkey
        · exact (Json.str.inj hkey).symm
        · exact (Json.str.inj (Json.beq_str_iff.mp hkey)).symm
      have hunnamed := (List.mem_filter.mp hm).2
      rw [hname] at hunnamed
      exact absurd hunnamed (by decide)

/-- Custom entries that come back from the file: named by texts that no field has, the default ones among them. -/
structure Storable (es : List (Json × Json)) : Prop where
  named : ∀ e ∈ es, ∃ name, e.1 = .str name ∧ name ∉ names
  defaults : .str "scalar_overrides" ∈ keys es

theorem storable_of_loaded {files : FileStore} {file : Option Path} (hfile : fileMembers files file = .ok ms)
    (hnone : get? "custom" ms = none) (hload : load files "java" .null file = .ok s) (hs : s.custom = .entries es) :
    Storable es := by
  have hproper : Proper ms := proper_of_wellKeyed (wellKeyed_of_fileMembers hfile) fun w hw => by
    rw [hnone] at hw
    cases hw
  obtain ⟨s', entries, hload', -, hcustom, -, hentries⟩ :=
    load_eq_ok "java" hfile explicitMembers_null hproper proper_nil
  obtain rfl : s' = s := Except.ok.inj (hload'.symm.trans hload)
  obtain rfl : Custom.keyed entries = es := Custom.entries.inj (hcustom.symm.trans hs)
  have hnested : ∀ k, nested? ms k = none := by
    intro k
    rw [nested?, customOf, hnone]
    rfl
  refine ⟨fun e he => ?_, ?_⟩
  · obtain ⟨m, hm, rfl⟩ := List.mem_map.mp he
    refine ⟨m.1, rfl, fun hname => ?_⟩
    have hentry := hentries m.1
    rw [plain?_of_names _ hname, plain?_of_names _ hname, hnested, get?_customDefaults_of_names "java" hname] at hentry
    exact get?_eq_none_iff.mp hentry (List.mem_map_of_mem hm)
  · have hdefault : "scalar_overrides" ∈ keys entries := by
      rw [← exists_get?_iff, hentries, hnested]
      cases plain? ms "scalar_overrides" with
      | none => exact ⟨_, rfl⟩
      | some w => exact ⟨w, rfl⟩
    obtain ⟨m, hm, hname⟩ := List.mem_map.mp hdefault
    exact List.mem_map.mpr ⟨_, List.mem_map_of_mem hm, congrArg Json.str hname⟩

theorem same_of_storable {files : FileStore} {file : Option Path} (hes : Storable es) (hapart : Apart es)
    (hs : s.custom = .entries es) (hfile : fileMembers files file = .ok (s.savedMembers es)) :
    ∃ s', load files "java" .null file = .ok s' ∧ s'.Same s := by
  obtain ⟨c, rfl⟩ := exists_keyed fun e he => (hes.named e he).imp fun _ hname => hname.1
  have hc : (keys c).Nodup := apart_keyed.mp hapart
  have hnames : ∀ n ∈ names, get? n c = none := by
    intro n hn
    rw [get?_eq_none_iff]
    intro hmem
    obtain ⟨m, hm, rfl⟩ := List.mem_map.mp hmem
    obtain ⟨name, hname, hfree⟩ := hes.named (.str m.1, m.2) (List.mem_map_of_mem hm)
    exact hfree (Json.str.inj hname ▸ hn)
  rw [savedMembers_keyed] at hfile
  have hsaved : ∀ n, get? n (putAll c s.fieldMembers) = (get? n c).or (get? n s.fieldMembers) := get?_putAll hc _
  have hnone : get? "custom" (putAll c s.fieldMembers) = none := by
    rw [hsaved, hnames _ (by decide), get?_fieldMembers, if_neg (not_not_intro rfl)]
    rfl
  have hproper : Proper (putAll c s.fieldMembers) := proper_of_wellKeyed (wellKeyed_of_fileMembers hfile) fun w hw => by
    rw [hnone] at hw
    cases hw
  obtain ⟨s', entries, hload, hfields, hcustom, hnodup, hentries⟩ :=
    load_eq_ok "java" hfile explicitMembers_null hproper proper_nil
  refine ⟨s', hload, eq_of_fields fun n hn hne => ?_, _, _, hcustom, hs, (perm_of_get?_eq hnodup hc fun k => ?_).map _⟩
  · obtain ⟨v, hv⟩ := exists_get?_iff.mpr (show n ∈ keys s.toMembers from hn)
    rw [hfields n hn hne, hsaved, hnames n hn, get?_fieldMembers, if_pos hne, hv]
    rfl
  · have hnested : nested? (putAll c s.fieldMembers) k = none := by
      rw [nested?, customOf, hnone]
      rfl
    rw [hentries, hnested]
    by_cases hk : k ∈ names
    · rw [plain?_of_names _ hk, plain?_of_names _ hk, get?_customDefaults_of_names "java" hk, hnames k hk]
      rfl
    · have hfield : get? k s.fieldMembers = none := by
        rw [get?_fieldMembers, get?_eq_none_iff.mpr (show k ∉ keys s.toMembers from hk), ite_self]
      have hplain : plain? (putAll c s.fieldMembers) k = get? k c := by
        rw [plain?, get?_unnamed, if_neg hk, hsaved, hfield, Option.or_none]
      rw [hplain]
      cases hget : get? k c with
      | some v => rfl
      | none =>
        have hk : k ∉ keys (customDefaults "java") := by
          intro hdefault
          obtain rfl := List.mem_singleton.mp hdefault
          obtain ⟨_, he, hname⟩ := List.mem_map.mp hes.defaults
          obtain ⟨m, hm, rfl⟩ := List.mem_map.mp he
          have hkey : m.1 ∈ keys c := List.mem_map_of_mem hm
          rw [Json.str.inj hname] at hkey
          exact get?_eq_none_iff.mp hget hkey
        exact get?_eq_none_iff.mpr hk

/-- Java settings that were loaded, saved and loaded from the saved file come back, provided that the reader reads what
    the writer wrote, exactly if the file is named as a JSON file, every custom entry is named by a text that is not the
    name of a field, and the scalar overrides are among the entries. -/
theorem reload_same_iff {files out stored : FileStore} {explicit : Json} {file : Option Path} {p : Path} {text : String}
    (hexplicit : explicit.WellKeyed) (hload : load files "java" explicit file = .ok s) (hs : s.custom = .entries es)
    (hsave : s.save out p = .ok (text, stored)) (hread : ∀ v, s.toSaved = .ok v → Json.parse v.indented = .ok v) :
    (∃ s', load stored "java" .null (some p) = .ok s' ∧ s'.Same s) ↔ p.isJson = true ∧ Storable es := by
  have hfile := fileMembers_of_save hs hsave (hread _ (toSaved_eq hs))
  refine ⟨fun ⟨s', hload', hsame⟩ => ?_, fun ⟨hjson, hes⟩ => ?_⟩
  · obtain ⟨es', _, hs', hs'', hperm⟩ := hsame.custom
    obtain rfl := Custom.entries.inj (hs.symm.trans hs'')
    cases hjson : p.isJson with
    | false =>
      rw [hjson] at hfile
      obtain ⟨_, _, _, _, hfile', -⟩ := load_eq_ok_iff.mp hload'
      cases hfile.symm.trans hfile'
    | true =>
      rw [hjson] at hfile
      have hnone : get? "custom" (s.savedMembers es) = none := by
        cases hget : get? "custom" (s.savedMembers es) with
        | none => rfl
        | some v =>
          exact absurd (hperm.mem_iff.mpr (mem_of_saved_custom hget)) (not_mem_loaded hfile hget hload' hs')
      obtain ⟨hnamed, hdefaults⟩ := storable_of_loaded hfile hnone hload' hs'
      exact ⟨rfl, fun e he => hnamed e (hperm.mem_iff.mpr he), (hperm.map _).mem_iff.mp hdefaults⟩
  · rw [hjson] at hfile
    exact same_of_storable hes (apart_of_load hexplicit hload hs) hs hfile

/-- Explicit settings with a custom entry that is named like a field. -/
def shadowExplicit : Members := [("custom", .obj [("package_name", .str "shadow")])]

def shadowSettings : Settings :=
  { custom := .entries [(.str "scalar_overrides", .obj []), (.str "package_name", .str "shadow")] }

def shadowPath : Path := Path.ofString "saved.json"

/-- The file has one package name, that of the custom entry. -/
def shadowSaved : Json :=
  .obj [("output_file", .null), ("package_name", .str "shadow"), ("loader_class_name", .str "AmplifyModelProvider"),
    ("generate", .str "code"), ("selected_type", .null), ("add_comments", .bool true), ("scalar_overrides", .obj [])]

theorem fits_shadowSaved : Json.Fits Json.maxDepth shadowSaved := by
  show Json.Fits (984 + 1) shadowSaved
  refine .obj (by decide) fun m hm => ?_
  simp only [List.mem_cons, List.not_mem_nil, or_false] at hm
  rcases hm with rfl | rfl | rfl | rfl | rfl | rfl | rfl
  · exact .null
  · exact .str _
  · exact .str _
  · exact .str _
  · exact .null
  · exact .bool _
  · exact .obj List.nodup_nil fun _ h => by cases h

theorem shadow_not_reloaded : ∃ text stored, load {} "java" (.obj shadowExplicit) none = .ok shadowSettings ∧
    shadowSettings.save {} shadowPath = .ok (text, stored) ∧
      ¬ ∃ s, load stored "java" .null (some shadowPath) = .ok s ∧ s.Same shadowSettings := by
  have hexplicit : (Json.obj shadowExplicit).WellKeyed := by
    unfold Json.WellKeyed
    decide +kernel
  have hload : load {} "java" (.obj shadowExplicit) none = .ok shadowSettings := rfl
  have hsaved : shadowSettings.toSaved = .ok shadowSaved := rfl
  have hsave : ∃ stored, shadowSettings.save {} shadowPath = .ok (shadowSaved.indented, stored) := ⟨_, rfl⟩
  have hread : ∀ v, shadowSettings.toSaved = .ok v → Json.parse v.indented = .ok v := by
    intro v hv
    cases hsaved.symm.trans hv
    exact Json.parse_indented fits_shadowSaved
  obtain ⟨stored, hsave⟩ := hsave
  refine ⟨_, stored, hload, hsave, fun h => ?_⟩
  obtain ⟨-, hstorable⟩ := (reload_same_iff hexplicit hload rfl hsave hread).mp h
  obtain ⟨name, hname, hfree⟩ := hstorable.named _ (List.mem_cons_of_mem _ (List.mem_cons_self ..))
  cases hname
  exact hfree (by decide)

end Settings

end SchemaForge
