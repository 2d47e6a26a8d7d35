import Mathlib.Data.List.Forall2
import SchemaForge.Generation.Backend

/-
Passes that succeed. `Yields p s a t`: run in session `s`, the pass `p` ends with `a` and leaves session `t`.

One lemma for each way a pass is put together (`yields_bind`, `yields_mapM`, ...) says what its success means
for its parts, so that no later proof opens the transformers. A pass `KeepsNames` when it hands out none, whatever
else it does to its session. It `IgnoresLog` when only the names in its session matter to it, and one pass `Mirrors`
another when the two hand out names alike.
-/

namespace SchemaForge.Generation.Pass

def Yields {α : Type} (p : Pass α) (s : Session) (a : α) (t : Session) : Prop :=
  (p.run.run s : Id _) = (.ok a, t)

variable {α β γ : Type} {s t u : Session} {a : α} {b : β}

/-- Whether a pass ends with a result can be computed. -/
def succeeds (p : Pass α) (s : Session) : Bool := (p.run.run s : Id _).1.toBool

theorem exists_yields_of_succeeds {p : Pass α} (h : succeeds p s = true) : ∃ a t, Yields p s a t := by
  unfold succeeds at h
  cases hr : (p.run.run s : Id _) with
  | mk outcome t =>
    rw [hr] at h
    cases outcome with
    | error e => cases h
    | ok a => exact ⟨a, t, hr⟩

theorem yields_pure {a' : α} : Yields (pure a') s a t ↔ a = a' ∧ t = s := by
  refine ⟨fun h => ?_, fun h => ?_⟩
  · cases h
    exact ⟨rfl, rfl⟩
  · obtain ⟨rfl, rfl⟩ := h
    rfl

/-- The second part of a pass runs in the session that the first leaves, if that ends with a result. -/
theorem run_bind (p : Pass α) (f : α → Pass β) (s : Session) : ((p >>= f).run.run s : Id _) =
    match (p.run.run s : Id _) with
    | (.ok a, t) => ((f a).run.run t : Id _)
    | (.error e, t) => (.error e, t) := by
  show (ExceptT.bind p f) s = _
  simp only [ExceptT.bind, ExceptT.mk, bind, StateT.bind, ExceptT.run, StateT.run]
  cases h : p s with
  | mk outcome t => cases outcome <;> rfl

/-- A failure that is caught is worked on in the session that it leaves. -/
theorem run_tryCatch (p : Pass α) (handle : Failure → Pass α) (s : Session) :
    ((tryCatch p handle).run.run s : Id _) =
      match (p.run.run s : Id _) with
      | (.ok a, t) => (.ok a, t)
      | (.error e, t) => ((handle e).run.run t : Id _) := by
  show (ExceptT.tryCatch p handle) s = _
  simp only [ExceptT.tryCatch, ExceptT.mk, bind, StateT.bind, ExceptT.run, StateT.run]
  cases h : p s with
  | mk outcome t => cases outcome <;> rfl

theorem yields_bind {p : Pass α} {f : α → Pass β} :
    Yields (p >>= f) s b u ↔ ∃ a t, Yields p s a t ∧ Yields (f a) t b u := by
  unfold Yields
  rw [run_bind]
  refine ⟨fun h => ?_, fun h => ?_⟩
  · split at h
    · rename_i a t hp
      exact ⟨a, t, hp, h⟩
    · cases h
  · obtain ⟨a, t, hp, hf⟩ := h
    rw [hp]
    exact hf

theorem not_yields_fail {f : Failure} : ¬ Yields (fail f : Pass α) s a t := by
  intro h
  cases h

theorem yields_ofFault {e : Except Fault α} : Yields (ofFault e) s a t ↔ e = .ok a ∧ t = s := by
  cases e with
  | ok a' =>
    show Yields (pure a') s a t ↔ _
    rw [yields_pure]
    refine ⟨fun h => ?_, fun hr => ?_⟩
    · obtain ⟨rfl, rfl⟩ := h
      exact ⟨rfl, rfl⟩
    · obtain ⟨h, rfl⟩ := hr
      cases h
      exact ⟨rfl, rfl⟩
  | error f =>
    refine ⟨fun h => ?_, fun hr => ?_⟩
    · cases h
    · obtain ⟨h, -⟩ := hr
      cases h

theorem yields_ofExcept {e : Except Failure α} : Yields (Generator.ofExcept e) s a t ↔ e = .ok a ∧ t = s := by
  cases e with
  | ok a' =>
    show Yields (pure a') s a t ↔ _
    rw [yields_pure]
    refine ⟨fun h => ?_, fun hr => ?_⟩
    · obtain ⟨rfl, rfl⟩ := h
      exact ⟨rfl, rfl⟩
    · obtain ⟨h, rfl⟩ := hr
      cases h
      exact ⟨rfl, rfl⟩
  | error f =>
    refine ⟨fun h => ?_, fun hr => ?_⟩
    · cases h
    · obtain ⟨h, -⟩ := hr
      cases h

theorem yields_note {level : Level} {text : String} {x : Unit} :
    Yields (note level text) s x t ↔ t = { s with log := s.log ++ [⟨level, text⟩] } := by
  refine ⟨fun h => ?_, fun h => ?_⟩
  · cases h
    rfl
  · obtain rfl := h
    rfl

theorem yields_resetNames {x : Unit} : Yields resetNames s x t ↔ t = { s with names := s.names.reset } := by
  refine ⟨fun h => ?_, fun h => ?_⟩
  · cases h
    rfl
  · obtain rfl := h
    rfl

theorem yields_render {template : Template} {context : List (String × Json)} {text : String} :
    Yields (render template context) s text t ↔ template.render context = .ok text ∧ t = s := by
  unfold render
  cases hr : template.render context with
  | ok text' =>
    rw [yields_pure]
    refine ⟨fun h => ?_, fun hr => ?_⟩
    · obtain ⟨rfl, rfl⟩ := h
      exact ⟨rfl, rfl⟩
    · obtain ⟨h, rfl⟩ := hr
      cases h
      exact ⟨rfl, rfl⟩
  | error e =>
    refine ⟨fun h => ?_, fun hr => ?_⟩
    · cases e <;> cases h
    · obtain ⟨h, -⟩ := hr
      cases h

/-- A request that is made for no text is answered as it was before or not at all. -/
theorem run_assignName_of_not_text (rules : Naming.Rules) {name : Json} (style : Naming.Case) (suffix : String)
    (hname : ∀ n, name ≠ .str n) (s : Session) : ((assignName rules name style suffix).run.run s : Id _) =
      ((match s.names.answered? (Naming.Allocator.requestKey name.display style suffix) with
        | some answer => .ok answer
        | none => .error (.fault (.notText name))), s) := by
  unfold assignName
  rw [run_bind]
  cases name with
  | str n => exact absurd rfl (hname n)
  | _ =>
    show ((match s.names.answered? _ with
      | some answer => pure answer
      | none => throw _ : Pass String).run.run s : Id _) = _
    cases s.names.answered? _ <;> rfl

/-- A request neither looks at the log nor adds to it. -/
theorem run_assignName (rules : Naming.Rules) (name : Json) (style : Naming.Case) (suffix : String) (s : Session) :
    ((assignName rules name style suffix).run.run s : Id _) =
      match ((assignName rules name style suffix).run.run { names := s.names } : Id _) with
      | (outcome, next) => (outcome, { s with names := next.names }) := by
  by_cases htext : ∃ n, name = .str n
  · obtain ⟨n, rfl⟩ := htext
    rfl
  · have hrun := run_assignName_of_not_text rules style suffix fun n hn => htext ⟨n, hn⟩
    rw [hrun, hrun]

/-- Whatever value the request is made for, it is answered as its text would be. -/
theorem yields_assignName {rules : Naming.Rules} {name : Json} {style : Naming.Case} {suffix answer : String}
    (h : Yields (assignName rules name style suffix) s answer t) :
    answer = (s.names.assign rules name.display style suffix).1 ∧
      t = { s with names := (s.names.assign rules name.display style suffix).2 } := by
  by_cases htext : ∃ n, name = .str n
  · obtain ⟨n, rfl⟩ := htext
    cases h
    exact ⟨rfl, rfl⟩
  · unfold Yields at h
    rw [run_assignName_of_not_text rules style suffix fun n hn => htext ⟨n, hn⟩] at h
    cases found : s.names.answered? (Naming.Allocator.requestKey name.display style suffix) with
    | none =>
      rw [found] at h
      cases h
    | some answer' =>
      rw [found] at h
      cases h
      simp only [Naming.Allocator.assign, found]
      exact ⟨trivial, trivial⟩

theorem yields_mapM_nil {f : α → Pass β} {bs : List β} : Yields ([].mapM f) s bs t ↔ bs = [] ∧ t = s := by
  rw [List.mapM_nil]
  exact yields_pure

theorem yields_mapM_cons {f : α → Pass β} {x : α} {xs : List α} {bs : List β} :
    Yields ((x :: xs).mapM f) s bs u ↔
      ∃ b t cs, Yields (f x) s b t ∧ Yields (xs.mapM f) t cs u ∧ bs = b :: cs := by
  rw [List.mapM_cons, yields_bind]
  refine ⟨fun hr => ?_, fun h => ?_⟩
  · obtain ⟨b, t, hb, h⟩ := hr
    obtain ⟨cs, t', hcs, h⟩ := yields_bind.mp h
    obtain ⟨rfl, rfl⟩ := yields_pure.mp h
    exact ⟨b, t, cs, hb, hcs, rfl⟩
  · obtain ⟨b, t, cs, hb, hcs, rfl⟩ := h
    exact ⟨b, t, hb, yields_bind.mpr ⟨cs, u, hcs, yields_pure.mpr ⟨rfl, rfl⟩⟩⟩

/-- What holds of every single result holds along the list. -/
theorem forall₂_of_yields_mapM {f : α → Pass β} {R : α → β → Prop}
    (hf : ∀ x s b t, Yields (f x) s b t → R x b) :
    ∀ (xs : List α) {s : Session} {bs : List β} {t : Session}, Yields (xs.mapM f) s bs t → List.Forall₂ R xs bs := by
  intro xs
  induction xs with
  | nil =>
    intro s bs t h
    obtain ⟨rfl, -⟩ := yields_mapM_nil.mp h
    exact .nil
  | cons x xs ih =>
    intro s bs t h
    obtain ⟨b, t', cs, hb, hcs, rfl⟩ := yields_mapM_cons.mp h
    exact .cons (hf x s b t' hb) (ih hcs)

/-- What holds of every single result holds of each along the list. -/
theorem forall_mem_of_yields_mapM {f : α → Pass β} {P : β → Prop} (hf : ∀ x s b t, Yields (f x) s b t → P b)
    {xs : List α} {bs : List β} (h : Yields (xs.mapM f) s bs t) : ∀ b ∈ bs, P b := by
  have each := forall₂_of_yields_mapM (R := fun _ b => P b) hf xs h
  clear h
  induction each with
  | nil =>
    intro b hb
    cases hb
  | cons hx _ ih =>
    intro b hb
    rcases List.mem_cons.mp hb with rfl | hb
    · exact hx
    · exact ih b hb

theorem exists_yields_of_mem {f : α → Pass β} {xs : List α} {bs : List β} (h : Yields (xs.mapM f) s bs t) {x : α}
    (hx : x ∈ xs) : ∃ b ∈ bs, ∃ u v, Yields (f x) u b v := by
  induction xs generalizing s bs with
  | nil => cases hx
  | cons y ys ih =>
    obtain ⟨b, u, cs, hb, hcs, rfl⟩ := yields_mapM_cons.mp h
    rcases List.mem_cons.mp hx with rfl | hx
    · exact ⟨b, List.mem_cons_self .., s, u, hb⟩
    · obtain ⟨c, hc, hyields⟩ := ih hcs hx
      exact ⟨c, List.mem_cons_of_mem _ hc, hyields⟩

/-- If a pass is another one whose result is worked on, so is its walk along a list. -/
theorem yields_mapM_map {f : α → Pass β} {g : α → Pass γ} {w : γ → β}
    (hf : ∀ x s b t, Yields (f x) s b t ↔ ∃ c, Yields (g x) s c t ∧ b = w c) :
    ∀ (xs : List α) {s : Session} {bs : List β} {t : Session},
      Yields (xs.mapM f) s bs t ↔ ∃ cs, Yields (xs.mapM g) s cs t ∧ bs = cs.map w := by
  intro xs
  induction xs with
  | nil =>
    intro s bs t
    rw [yields_mapM_nil]
    refine ⟨fun h => ?_, fun hr => ?_⟩
    · obtain ⟨rfl, rfl⟩ := h
      exact ⟨[], yields_mapM_nil.mpr ⟨rfl, rfl⟩, rfl⟩
    · obtain ⟨cs, hcs, rfl⟩ := hr
      obtain ⟨rfl, rfl⟩ := yields_mapM_nil.mp hcs
      exact ⟨rfl, rfl⟩
  | cons x xs ih =>
    intro s bs t
    rw [yields_mapM_cons]
    refine ⟨fun hr => ?_, fun hr => ?_⟩
    · obtain ⟨b, u, _, hb, hbs, rfl⟩ := hr
      obtain ⟨c, hc, rfl⟩ := (hf x s b u).mp hb
      obtain ⟨cs, hcs, rfl⟩ := ih.mp hbs
      exact ⟨c :: cs, yields_mapM_cons.mpr ⟨c, u, cs, hc, hcs, rfl⟩, rfl⟩
    · obtain ⟨_, hall, rfl⟩ := hr
      obtain ⟨c, u, cs, hc, hcs, rfl⟩ := yields_mapM_cons.mp hall
      exact ⟨w c, u, cs.map w, (hf x s _ u).mpr ⟨c, hc, rfl⟩, ih.mpr ⟨cs, hcs, rfl⟩, rfl⟩

/-! ## Names -/

def KeepsNames (p : Pass α) : Prop := ∀ s a t, Yields p s a t → t.names = s.names

/-! ## Passes that name alike -/

/-- Wherever `p` ends, `q` ends too if as much has been named before it: with what `w` makes of the result of `p`, and
    with the same names handed out. The logs may differ. -/
def Mirrors (q : Pass γ) (p : Pass β) (w : β → γ) : Prop :=
  ∀ s b t, Yields p s b t → ∀ s', s'.names = s.names → ∃ t', t'.names = t.names ∧ Yields q s' (w b) t'

/-- A pass to whose result its log makes no difference. -/
def IgnoresLog (p : Pass α) : Prop := Mirrors p p id

theorem mirrors_mapM {f : α → Pass β} {g : α → Pass γ} {w : α → β → γ} (hfg : ∀ x, Mirrors (g x) (f x) (w x))
    (xs : List α) : Mirrors (xs.mapM g) (xs.mapM f) (fun bs => (xs.zip bs).map (fun e => w e.1 e.2)) := by
  induction xs with
  | nil =>
    intro s bs t h s' hs
    obtain ⟨rfl, rfl⟩ := yields_mapM_nil.mp h
    exact ⟨s', hs, yields_mapM_nil.mpr ⟨rfl, rfl⟩⟩
  | cons x xs ih =>
    intro s bs u h s' hs
    obtain ⟨b, t, cs, hb, hcs, rfl⟩ := yields_mapM_cons.mp h
    obtain ⟨t', ht, hb'⟩ := hfg x s b t hb s' hs
    obtain ⟨u', hu, hcs'⟩ := ih t cs u hcs t' ht
    exact ⟨u', hu, yields_mapM_cons.mpr ⟨_, t', _, hb', hcs', rfl⟩⟩

end SchemaForge.Generation.Pass
