import SchemaForge.Proofs.Generation.Yields

/-
Two runs of passes. `Agree R p q R'` says that `p` and `q` end alike when they run in sessions that `R` relates: with one
result or with one failure, and after a result in sessions that `R'` relates. What a failure leaves need not be related.

There is one rule for each way a pass is put together. A pass that does not look at its session agrees with itself
whatever relates the two, and a note only asks that the relation bears it (`Bears`). So a statement about two runs of a
whole pass comes down to its requests for names.

Results need not be the same on the way: `AgreeVia w R p q R'` says that `q` ends with what `w` makes of the result of
`p`, and has a rule for each way in turn. A walk whose results are collected agrees with the walk that leaves out what
gives none (`agree_collect_filter`).
-/

namespace SchemaForge.Generation.Pass

variable {α β : Type}

/-- How a pass ends that runs in a session. -/
def outcome (p : Pass α) (s : Session) : Except Failure α := (p.run.run s : Id _).1

def Agree (R : Session → Session → Prop) (p q : Pass α) (R' : Session → Session → Prop) : Prop :=
  ∀ s t, R s t → ∃ r s' t', (p.run.run s : Id _) = (r, s') ∧ (q.run.run t : Id _) = (r, t') ∧
    ∀ a, r = .ok a → R' s' t'

variable {R R' R'' : Session → Session → Prop}

theorem outcome_eq_of_agree {p q : Pass α} (h : Agree R p q R') {s t : Session} (hst : R s t) :
    outcome p s = outcome q t := by
  obtain ⟨r, s', t', hp, hq, -⟩ := h s t hst
  unfold outcome
  rw [hp, hq]

/-! ## Rules -/

theorem agree_bind {p q : Pass α} {f g : α → Pass β} (hpq : Agree R p q R') (hfg : ∀ a, Agree R' (f a) (g a) R'') :
    Agree R (p >>= f) (q >>= g) R'' := by
  intro s t hst
  obtain ⟨r, s', t', hp, hq, hnext⟩ := hpq s t hst
  rw [run_bind, run_bind, hp, hq]
  cases r with
  | error e =>
    refine ⟨.error e, s', t', rfl, rfl, fun a ha => ?_⟩
    cases ha
  | ok a => exact hfg a s' t' (hnext a rfl)

/-- Two runs in one session are one run. -/
theorem agree_eq (p : Pass α) : Agree Eq p p Eq := by
  intro s t hst
  obtain rfl := hst
  exact ⟨_, _, _, rfl, rfl, fun _ _ => rfl⟩

theorem agree_pure (a : α) : Agree R (pure a) (pure a) R := fun s t hst => ⟨_, s, t, rfl, rfl, fun _ _ => hst⟩

theorem agree_fail (f : Failure) : Agree R (fail f : Pass α) (fail f) R' := by
  intro s t _
  refine ⟨_, s, t, rfl, rfl, fun a ha => ?_⟩
  cases ha

theorem agree_fail_bind (e : Failure) (f g : α → Pass β) : Agree R (fail e >>= f) (fail e >>= g) R' := by
  intro s t _
  refine ⟨.error e, s, t, rfl, rfl, fun b hb => ?_⟩
  cases hb

theorem agree_ofFault (e : Except Fault α) : Agree R (ofFault e) (ofFault e) R := by
  cases e with
  | ok a => exact agree_pure a
  | error f => exact agree_fail (.fault f)

/-- Both runs go on only with the value that there is. -/
theorem agree_ofFault_bind {e : Except Fault α} {f g : α → Pass β} (h : ∀ a, e = .ok a → Agree R (f a) (g a) R') :
    Agree R (ofFault e >>= f) (ofFault e >>= g) R' := by
  cases e with
  | ok a => exact h a rfl
  | error e => exact agree_fail_bind (.fault e) f g

theorem agree_ofExcept (e : Except Failure α) : Agree R (Generator.ofExcept e) (Generator.ofExcept e) R := by
  cases e with
  | ok a => exact agree_pure a
  | error f => exact agree_fail f

theorem agree_render (template : Template) (context : List (String × Json)) :
    Agree R (render template context) (render template context) R := by
  unfold render
  cases template.render context with
  | ok text => exact agree_pure text
  | error e => cases e <;> exact agree_fail _

/-- Sessions stay related when the same is noted in both. -/
def Bears (R : Session → Session → Prop) : Prop :=
  ∀ s t entry, R s t → R { s with log := s.log ++ [entry] } { t with log := t.log ++ [entry] }

theorem agree_note (hR : Bears R) (level : Level) (text : String) : Agree R (note level text) (note level text) R :=
  fun s t hst => ⟨_, _, _, rfl, rfl, fun _ _ => hR s t ⟨level, text⟩ hst⟩

/-- Along a list, what relates the sessions may depend on what is still to come. -/
theorem agree_mapM {f g : α → Pass β} {R : List α → Session → Session → Prop} {xs : List α}
    (h : ∀ x ∈ xs, ∀ later, Agree (R (x :: later)) (f x) (g x) (R later)) :
    Agree (R xs) (xs.mapM f) (xs.mapM g) (R []) := by
  induction xs with
  | nil => exact agree_pure []
  | cons x xs ih =>
    rw [List.mapM_cons, List.mapM_cons]
    refine agree_bind (h x (List.mem_cons_self ..) xs) fun b => ?_
    exact agree_bind (ih fun y hy => h y (List.mem_cons_of_mem _ hy)) fun bs => agree_pure (b :: bs)

/-! ## Results that are worked on -/

def AgreeVia {γ : Type} (w : α → γ) (R : Session → Session → Prop) (p : Pass α) (q : Pass γ)
    (R' : Session → Session → Prop) : Prop :=
  ∀ s t, R s t → ∃ r s' t', (p.run.run s : Id _) = (r, s') ∧ (q.run.run t : Id _) = (r.map w, t') ∧
    ∀ a, r = .ok a → R' s' t'

section Via

variable {γ δ : Type} {w : α → γ} {v : β → δ}

theorem agreeVia_of_agree {p q : Pass α} (h : Agree R p q R') : AgreeVia id R p q R' := by
  intro s t hst
  obtain ⟨r, s', t', hp, hq, hnext⟩ := h s t hst
  refine ⟨r, s', t', hp, hq.trans ?_, hnext⟩
  cases r <;> rfl

theorem agree_of_agreeVia {p q : Pass α} (h : AgreeVia id R p q R') : Agree R p q R' := by
  intro s t hst
  obtain ⟨r, s', t', hp, hq, hnext⟩ := h s t hst
  refine ⟨r, s', t', hp, hq.trans ?_, hnext⟩
  cases r <;> rfl

theorem agreeVia_bind {p : Pass α} {q : Pass γ} {f : α → Pass β} {g : γ → Pass δ} (hpq : AgreeVia w R p q R')
    (hfg : ∀ a, AgreeVia v R' (f a) (g (w a)) R'') : AgreeVia v R (p >>= f) (q >>= g) R'' := by
  intro s t hst
  obtain ⟨r, s', t', hp, hq, hnext⟩ := hpq s t hst
  rw [run_bind, run_bind, hp, hq]
  cases r with
  | error e =>
    refine ⟨.error e, s', t', rfl, rfl, fun a ha => ?_⟩
    cases ha
  | ok a => exact hfg a s' t' (hnext a rfl)

/-- Behind a part with one result for both, the runs go on from it. -/
theorem agreeVia_bind_of_agree {p q : Pass α} {f : α → Pass β} {g : α → Pass δ} (hpq : Agree R p q R')
    (hfg : ∀ a, AgreeVia v R' (f a) (g a) R'') : AgreeVia v R (p >>= f) (q >>= g) R'' :=
  agreeVia_bind (agreeVia_of_agree hpq) hfg

theorem agreeVia_pure {a : α} {c : γ} (h : c = w a) : AgreeVia w R (pure a) (pure c) R :=
  fun s t hst => ⟨.ok a, s, t, rfl, h ▸ rfl, fun _ _ => hst⟩

theorem agreeVia_fail (e : Failure) : AgreeVia w R (fail e) (fail e) R' := by
  intro s t _
  refine ⟨.error e, s, t, rfl, rfl, fun a ha => ?_⟩
  cases ha

theorem agreeVia_fail_bind (e : Failure) (f : α → Pass β) (g : α → Pass δ) :
    AgreeVia v R (fail e >>= f) (fail e >>= g) R' := by
  intro s t _
  refine ⟨.error e, s, t, rfl, rfl, fun b hb => ?_⟩
  cases hb

theorem agreeVia_mapM {ε : Type} {f : α → Pass β} {g : ε → Pass δ} {u : α → ε} {xs : List α}
    (h : ∀ x ∈ xs, AgreeVia v R (f x) (g (u x)) R) : AgreeVia (List.map v) R (xs.mapM f) ((xs.map u).mapM g) R := by
  induction xs with
  | nil => exact agreeVia_pure rfl
  | cons x xs ih =>
    rw [List.map_cons, List.mapM_cons, List.mapM_cons]
    refine agreeVia_bind (h x (List.mem_cons_self ..)) fun b => ?_
    exact agreeVia_bind (ih fun y hy => h y (List.mem_cons_of_mem _ hy)) fun bs => agreeVia_pure rfl

end Via

/-! ## Walks whose results are collected -/

/-- The results along a list that are there. -/
def collect (f : α → Pass (Option β)) (xs : List α) : Pass (List β) := do return (← xs.mapM f).filterMap id

theorem collect_cons (f : α → Pass (Option β)) (x : α) (xs : List α) :
    collect f (x :: xs) = (do
      let b ← f x
      let bs ← collect f xs
      return b.toList ++ bs) := by
  unfold collect
  simp only [List.mapM_cons, bind_assoc, pure_bind]
  refine congrArg (f x >>= ·) (funext fun b => congrArg (xs.mapM f >>= ·) (funext fun bs => ?_))
  cases b <;> rfl

/-- What gives no result can be left out. -/
theorem agree_collect_filter {f : α → Pass (Option β)} {keep : α → Bool} (hkeep : ∀ x, Agree R (f x) (f x) R)
    (hdrop : ∀ x, keep x = false → Agree R (f x) (pure none) R) (xs : List α) :
    Agree R (collect f xs) (collect f (xs.filter keep)) R := by
  induction xs with
  | nil => exact agree_pure []
  | cons x xs ih =>
    rw [collect_cons]
    cases hx : keep x with
    | true =>
      rw [List.filter_cons_of_pos hx, collect_cons]
      exact agree_bind (hkeep x) fun b => agree_bind ih fun bs => agree_pure _
    | false =>
      rw [List.filter_cons_of_neg (Bool.eq_false_iff.mp hx)]
      have hnone : Agree R (f x >>= fun b => collect f xs >>= fun bs => pure (b.toList ++ bs))
          (pure none >>= fun b => collect f (xs.filter keep) >>= fun bs => pure (b.toList ++ bs)) R :=
        agree_bind (hdrop x hx) fun b => agree_bind ih fun bs => agree_pure _
      simpa only [pure_bind, Option.toList_none, List.nil_append, bind_pure] using hnone

/-! ## Names -/

def SameNames (s t : Session) : Prop := t.names = s.names

theorem agree_assignName (rules : Naming.Rules) (name : Json) (style : Naming.Case) (suffix : String) :
    Agree SameNames (assignName rules name style suffix) (assignName rules name style suffix) SameNames := by
  intro s t hst
  have ht := run_assignName rules name style suffix t
  rw [show t.names = s.names from hst] at ht
  exact ⟨_, _, _, run_assignName rules name style suffix s, ht, fun _ _ => rfl⟩

/-- Any relation is kept that bears notes, and so are the names. -/
theorem keepsNames_of_agree {p : Pass α} (h : ∀ R, Bears R → Agree R p p R) : KeepsNames p := by
  intro s a t hp
  obtain ⟨r, s', t', hrun, -, hnext⟩ := h (fun u _ => u.names = s.names) (fun _ _ _ hu => hu) s s rfl
  obtain ⟨rfl, rfl⟩ := Prod.mk.inj (hrun.symm.trans hp)
  exact hnext a rfl

theorem ignoresLog_of_agree {p : Pass α} (h : Agree SameNames p p SameNames) : IgnoresLog p := by
  intro s a t hp s' hs
  obtain ⟨r, u, u', hrun, hrun', hnext⟩ := h s s' hs
  obtain ⟨rfl, rfl⟩ := Prod.mk.inj (hrun.symm.trans hp)
  exact ⟨u', hnext a rfl, hrun'⟩

end SchemaForge.Generation.Pass
