import Mathlib.Data.List.Basic
import SchemaForge.Proofs.Naming.UsedNames

/-
Which requests an allocator takes for one. It knows a request by its text, in which name, style and suffix are joined by
underscores. Underscores may occur in all three, so a text can have several readings, in which a longer name takes more
of what follows it. `Rereads` lists the ways in which two requests read one text, and there are no others
(`key_eq_iff`). With the underscore as the suffix of both only the first of them is left: a name in screaming snake
style, and the same name with `_screaming` at its end in snake style (`rereads_underscore_iff`).

Until the next reset an answer is remembered, and no other text gets it. So the answers to two requests are one name
exactly if the requests are the same or one rereads the other (`answer_eq_iff`).
-/

namespace SchemaForge.Naming

/-! ## Readings of a text -/

namespace Request

/-- Two readings of one text, of which the second has the longer name. -/
inductive Rereads : Request → Request → Prop
  /-- One style ends in the other. -/
  | style (name suffix : String) : Rereads ⟨name, .screamingSnake, suffix⟩ ⟨name ++ "_screaming", .snake, suffix⟩
  /-- The suffix of the first begins with the style of the second. -/
  | suffix (name : String) (style style' : Case) (suffix : String) :
      Rereads ⟨name, style, style'.tag ++ "_" ++ suffix⟩ ⟨name ++ "_" ++ style.tag, style', suffix⟩
  /-- The suffix of the first has the style of the second further on. -/
  | within (name middle : String) (style style' : Case) (suffix : String) :
      Rereads ⟨name, style, middle ++ "_" ++ style'.tag ++ "_" ++ suffix⟩
        ⟨name ++ "_" ++ style.tag ++ "_" ++ middle, style', suffix⟩

theorem toList_key (q : Request) :
    q.key.toList = q.name.toList ++ '_' :: (q.style.tag.toList ++ '_' :: q.suffix.toList) := by
  simp [key, Allocator.requestKey]

theorem key_eq_of_rereads {q q' : Request} (h : Rereads q q') : q.key = q'.key := by
  cases h <;> simp [key, Allocator.requestKey, Case.tag, String.append_assoc]

/-- A style stands at the beginning of no other one. -/
theorem tag_append_inj {style style' : Case} {cs ds : List Char}
    (h : style.tag.toList ++ '_' :: cs = style'.tag.toList ++ '_' :: ds) : style = style' ∧ cs = ds := by
  cases style <;> cases style' <;> simp_all [Case.tag]

/-- The only underscore in a style. -/
theorem eq_screamingSnake_of_tag {style : Case} {cs ds : List Char} (h : style.tag.toList = cs ++ '_' :: ds) :
    style = .screamingSnake ∧ cs = "screaming".toList ∧ ds = "snake".toList := by
  have hmem : '_' ∈ style.tag.toList := by simp [h]
  cases style with
  | screamingSnake =>
    have hsplit : "screaming".toList ++ '_' :: "snake".toList = cs ++ '_' :: ds := h
    obtain ⟨hcs, -, hds⟩ := (List.append_cons_inj_of_notMem (by simp) (by simp)).mp hsplit
    exact ⟨rfl, hcs.symm, hds.symm⟩
  | _ => simp [Case.tag] at hmem

/-- A longer name that takes the whole style reads the rest of the text as a suffix that holds the other style. -/
theorem rereads_past_style {name name' suffix suffix' : String} {style style' : Case} {rest : List Char}
    (hname : name'.toList = name.toList ++ '_' :: (style.tag.toList ++ rest))
    (hrest : '_' :: suffix.toList = rest ++ '_' :: (style'.tag.toList ++ '_' :: suffix'.toList)) :
    Rereads ⟨name, style, suffix⟩ ⟨name', style', suffix'⟩ := by
  cases rest with
  | nil =>
    obtain rfl : suffix = style'.tag ++ "_" ++ suffix' := by
      apply String.toList_inj.mp
      simpa using hrest
    obtain rfl : name' = name ++ "_" ++ style.tag := by
      apply String.toList_inj.mp
      simpa using hname
    exact .suffix name style style' suffix'
  | cons c middle =>
    obtain ⟨rfl, hmiddle⟩ := List.cons.inj hrest
    obtain rfl : suffix = String.ofList middle ++ "_" ++ style'.tag ++ "_" ++ suffix' := by
      apply String.toList_inj.mp
      simpa using hmiddle
    obtain rfl : name' = name ++ "_" ++ style.tag ++ "_" ++ String.ofList middle := by
      apply String.toList_inj.mp
      simpa using hname
    exact .within name (String.ofList middle) style style' suffix'

/-- A longer name takes the whole style, or it ends inside it, at its only underscore. -/
theorem rereads_of_longer {q q' : Request} {taken : List Char} (hname : q'.name.toList = q.name.toList ++ '_' :: taken)
    (h : q.style.tag.toList ++ '_' :: q.suffix.toList = taken ++ '_' :: (q'.style.tag.toList ++ '_' :: q'.suffix.toList)) :
    Rereads q q' := by
  obtain ⟨name, style, suffix⟩ := q
  obtain ⟨name', style', suffix'⟩ := q'
  rcases List.append_eq_append_iff.mp h with ⟨rest, rfl, hrest⟩ | ⟨rest, htag, hrest⟩
  · exact rereads_past_style hname hrest
  · cases rest with
    | nil =>
      obtain rfl : taken = style.tag.toList := by simpa using htag.symm
      have hwhole : name'.toList = name.toList ++ '_' :: (style.tag.toList ++ []) := by simpa using hname
      exact rereads_past_style hwhole hrest.symm
    | cons c rest =>
      obtain ⟨rfl, htail⟩ := List.cons.inj hrest
      obtain ⟨rfl, rfl, rfl⟩ := eq_screamingSnake_of_tag htag
      have hsnake : style'.tag.toList ++ '_' :: suffix'.toList = Case.snake.tag.toList ++ '_' :: suffix.toList := htail
      obtain ⟨rfl, hsame⟩ := tag_append_inj hsnake
      obtain rfl : suffix' = suffix := String.toList_inj.mp hsame
      obtain rfl : name' = name ++ "_screaming" := by
        apply String.toList_inj.mp
        simpa using hname
      exact .style name suffix'

/-- A name that is at least as long is the same or takes something from the rest. -/
theorem eq_or_rereads {q q' : Request} {taken : List Char} (hname : q'.name.toList = q.name.toList ++ taken)
    (h : '_' :: (q.style.tag.toList ++ '_' :: q.suffix.toList) =
      taken ++ '_' :: (q'.style.tag.toList ++ '_' :: q'.suffix.toList)) : q = q' ∨ Rereads q q' := by
  cases taken with
  | nil =>
    obtain ⟨hstyle, hsuffix⟩ := tag_append_inj (List.cons.inj h).2
    obtain ⟨name, style, suffix⟩ := q
    obtain ⟨name', style', suffix'⟩ := q'
    simp_all [String.toList_inj]
  | cons c taken =>
    obtain ⟨rfl, htail⟩ := List.cons.inj h
    exact Or.inr (rereads_of_longer hname htail)

theorem key_eq_iff {q q' : Request} : q.key = q'.key ↔ q = q' ∨ Rereads q q' ∨ Rereads q' q := by
  refine ⟨fun h => ?_, fun h => ?_⟩
  · have htext := congrArg String.toList h
    rw [toList_key, toList_key] at htext
    rcases List.append_eq_append_iff.mp htext with ⟨taken, hname, hrest⟩ | ⟨taken, hname, hrest⟩
    · exact (eq_or_rereads hname hrest).imp_right Or.inl
    · exact (eq_or_rereads hname hrest).imp Eq.symm Or.inr
  · rcases h with rfl | h | h
    · rfl
    · exact key_eq_of_rereads h
    · exact (key_eq_of_rereads h).symm

/-- Where the suffix is an underscore, one style has to end in the other. -/
theorem rereads_underscore_iff {name name' : String} {style style' : Case} :
    Rereads ⟨name, style, "_"⟩ ⟨name', style', "_"⟩ ↔
      style = .screamingSnake ∧ style' = .snake ∧ name' = name ++ "_screaming" := by
  have hshort : ∀ before after : String, "_" = before ++ "_" ++ after → before = "" := by
    intro before after h
    have hlength := congrArg (fun s => s.toList.length) h
    simp only [String.toList_append, List.length_append] at hlength
    exact String.toList_eq_nil_iff.mp (List.length_eq_zero_iff.mp (by omega))
  have htag : ∀ style : Case, style.tag ≠ "" := by
    intro style
    cases style <;> simp [Case.tag]
  refine ⟨fun h => ?_, fun h => ?_⟩
  · generalize hq : (⟨name, style, "_"⟩ : Request) = q at h
    generalize hq' : (⟨name', style', "_"⟩ : Request) = q' at h
    cases h with
    | style n suffix =>
      cases hq
      cases hq'
      exact ⟨rfl, rfl, rfl⟩
    | suffix n s s' suffix =>
      obtain ⟨-, -, hsuffix⟩ := Request.mk.inj hq
      exact absurd (hshort _ _ hsuffix) (htag s')
    | within n middle s s' suffix =>
      obtain ⟨-, -, hsuffix⟩ := Request.mk.inj hq
      exact absurd (String.append_eq_empty_iff.mp (hshort _ _ hsuffix)).2 (htag s')
  · obtain ⟨rfl, rfl, rfl⟩ := h
    exact .style name "_"

end Request

/-! ## Between two resets -/

namespace Allocator

variable {r : Rules} {a : Allocator} {q : Request} {key text : String}

theorem answered?_run (h : a.answered? key = some text) {call : Call} (hcall : call ≠ .reset) :
    (call.run r a).answered? key = some text := by
  cases call with
  | convert q => exact h
  | reset => exact absurd rfl hcall
  | assign q =>
    rw [answered?_assign]
    split
    · rename_i hkey
      rw [(assign_of_answered (hkey ▸ h)).1]
    · exact h

/-- Whatever is called but a reset, what is remembered stays. -/
theorem answered?_foldl {later : List Call} (h : a.answered? key = some text) (hlater : ∀ call ∈ later, call ≠ .reset) :
    (later.foldl (Call.run r) a).answered? key = some text :=
  List.foldlRecOn (motive := fun b => b.answered? key = some text) later (Call.run r) h
    fun _ h call hcall => answered?_run h (hlater call hcall)

/-- A remembered answer is given to requests of its text only. -/
theorem answer_eq_iff_key_eq (ha : a.Coherent) (h : a.answered? key = some text) : a.answer r q = text ↔ q.key = key := by
  have hmem : (key, text) ∈ a.assigned := Entries.mem_of_get? h
  refine ⟨fun hanswer => ?_, fun hkey => (assign_of_answered (hkey ▸ h)).1⟩
  cases hq : a.answered? q.key with
  | some other =>
    have hother : (q.key, other) ∈ a.assigned := Entries.mem_of_get? hq
    have hsame : other = text := (assign_of_answered hq).1.symm.trans hanswer
    exact congrArg Prod.fst (List.inj_on_of_nodup_map ha.answers hother hmem hsame)
  | none =>
    have hused : text ∈ a.used := (ha.used text).mpr (List.mem_map_of_mem hmem)
    obtain ⟨-, hunused, -⟩ := assign_of_new (r := r) hq
    exact absurd (hanswer ▸ hused) hunused

/-- Two requests of one allocator, with any calls before the first and any but a reset between them, are answered by one
    name exactly if they are the same or one rereads the text of the other. -/
theorem answer_eq_iff (r : Rules) (calls later : List Call) (q q' : Request) (h : ∀ call ∈ later, call ≠ .reset) :
    (after r (calls ++ .assign q :: later)).answer r q' = (after r calls).answer r q ↔
      q = q' ∨ q.Rereads q' ∨ q'.Rereads q := by
  have hremembered : (after r (calls ++ .assign q :: later)).answered? q.key = some ((after r calls).answer r q) := by
    unfold after
    rw [List.foldl_append, List.foldl_cons]
    refine answered?_foldl ?_ h
    rw [answered?_assign, if_pos rfl]
  rw [answer_eq_iff_key_eq (coherent_after r _) hremembered, eq_comm, Request.key_eq_iff]

/-- A name in snake style is also the answer to a shorter name in screaming snake style, and to nothing else in snake
    style. -/
theorem screaming_is_answered_in_snake :
    let calls : List Call := [.assign ⟨"level", .snake, "_"⟩, .reset]
    let later : List Call := [.convert ⟨"level", .screamingSnake, "_"⟩, .assign ⟨"level", .snake, "_"⟩]
    let a := after {} (calls ++ .assign ⟨"level_screaming", .snake, "_"⟩ :: later)
    (after {} calls).answer {} ⟨"level_screaming", .snake, "_"⟩ = "level_screaming" ∧
      a.answer {} ⟨"level", .screamingSnake, "_"⟩ = "level_screaming" ∧
      ∀ name, a.answer {} ⟨name, .snake, "_"⟩ = "level_screaming" ↔ name = "level_screaming" := by
  intro calls later a
  have hfirst : (after {} calls).answer {} ⟨"level_screaming", .snake, "_"⟩ = "level_screaming" := by decide +kernel
  have hlater : ∀ call ∈ later, call ≠ .reset := by simp [later]
  have hiff : ∀ q', a.answer {} q' = "level_screaming" ↔ _ := fun q' =>
    hfirst ▸ answer_eq_iff {} calls later ⟨"level_screaming", .snake, "_"⟩ q' hlater
  refine ⟨hfirst, (hiff _).mpr (Or.inr (Or.inr (.style "level" "_"))), fun name => ?_⟩
  rw [hiff, Request.rereads_underscore_iff, Request.rereads_underscore_iff]
  simp [eq_comm]

end Allocator

end SchemaForge.Naming
