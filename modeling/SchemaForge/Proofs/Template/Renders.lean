import SchemaForge.Template.Basic

/-
Rendering node by node. A list of nodes renders when its first node does and the rest does, and the texts are joined
(`renderAll_text`, `renderAll_out`, `renderAll_joined`, `renderAll_unlessLast`, `renderAll_branch`, `renderAll_each`).
A loop writes one line for each element, and `lines` tells a line whether it is the last. A variable is looked up from
the innermost binder outwards (`eval_var_cons`, `eval_member_cons`).
-/

namespace SchemaForge.Template

variable {α : Type} {s : Scope} {ns : List Node} {rest : String}

/-- A line for each element, told whether it is the last. -/
def lines (line : α → Bool → String) : List α → String
  | [] => ""
  | [x] => line x true
  | x :: y :: xs => line x false ++ lines line (y :: xs)

theorem lines_eq_join (line : α → String) (xs : List α) : lines (fun x _ => line x) xs = String.join (xs.map line) := by
  induction xs with
  | nil => rfl
  | cons x xs ih =>
    cases xs with
    | nil => simp [lines]
    | cons y xs => rw [lines, ih, List.map_cons (l := y :: xs), String.join_cons]

theorem lines_map {β : Type} (line : β → Bool → String) (f : α → β) (xs : List α) :
    lines line (xs.map f) = lines (fun x last => line (f x) last) xs := by
  induction xs with
  | nil => rfl
  | cons x xs ih =>
    cases xs with
    | nil => rfl
    | cons y xs => exact congrArg (line (f x) false ++ ·) ih

/-! ## One node and the rest -/

@[simp]
theorem renderAll_nil : renderAll s [] = .ok "" := by
  rw [renderAll]

theorem renderAll_append {ms : List Node} {text : String} (h : renderAll s ms = .ok text) :
    renderAll s (ms ++ ns) = (renderAll s ns).map (text ++ ·) := by
  induction ms generalizing text with
  | nil =>
    rw [renderAll_nil] at h
    cases h
    rw [List.nil_append]
    cases renderAll s ns <;> simp [Except.map]
  | cons m ms ih =>
    rw [renderAll] at h
    rw [List.cons_append, renderAll]
    cases hm : m.render s with
    | error e =>
      rw [hm] at h
      cases h
    | ok first =>
      rw [hm] at h
      cases hms : renderAll s ms with
      | error e =>
        rw [hms] at h
        cases h
      | ok later =>
        rw [hms] at h
        cases h
        rw [ih hms]
        cases renderAll s ns with
        | error e => rfl
        | ok last => exact congrArg Except.ok (String.append_assoc ..).symm

@[simp]
theorem renderAll_text {t : String} : renderAll s (.text t :: ns) = (renderAll s ns).map (t ++ ·) := by
  rw [renderAll, Node.render]
  cases renderAll s ns <;> rfl

@[simp]
theorem renderAll_out {e : Expr} :
    renderAll s (.out e :: ns) = (e.eval s).bind (fun v => (renderAll s ns).map (v.display ++ ·)) := by
  rw [renderAll, Node.render]
  cases e.eval s <;> cases renderAll s ns <;> rfl

theorem renderAll_joined {e : Expr} {separator : String} (xs : List Json) (h : e.eval s = .ok (.arr xs)) :
    renderAll s (.joined e separator :: ns) =
      (renderAll s ns).map (String.intercalate separator (xs.map Json.display) ++ ·) := by
  rw [renderAll, Node.render, Expr.elements, h]
  cases renderAll s ns <;> rfl

@[simp]
theorem renderAll_unlessLast {t : String} :
    renderAll s (.unlessLast t :: ns) = (renderAll s ns).map ((if s.last then "" else t) ++ ·) := by
  rw [renderAll, Node.render]
  cases renderAll s ns <;> rfl

theorem renderAll_branch {e : Expr} {yes no : List Node} {v : Json} {text : String} (h : e.eval s = .ok v)
    (hbranch : renderAll s (if v.truthy then yes else no) = .ok text) :
    renderAll s (.branch e yes no :: ns) = (renderAll s ns).map (text ++ ·) := by
  have head : (Node.branch e yes no).render s = .ok text := by
    rw [Node.render, h, ← hbranch]
    show (if v.truthy = true then renderAll s yes else renderAll s no) = _
    split <;> rfl
  rw [renderAll, head]
  cases renderAll s ns <;> rfl

theorem rounds_map {round : Json → Bool → Except Error String} {g : α → Json} {line : α → Bool → String} :
    ∀ (xs : List α), (∀ x ∈ xs, ∀ last, round (g x) last = .ok (line x last)) →
      rounds round (xs.map g) = .ok (lines line xs) := by
  intro xs
  induction xs with
  | nil => intro _; rfl
  | cons x xs ih =>
    intro h
    have hx := h x (List.mem_cons_self ..)
    have hxs := ih (fun y hy => h y (List.mem_cons_of_mem _ hy))
    cases xs with
    | nil => exact hx true
    | cons y xs =>
      show rounds round (g x :: g y :: xs.map g) = _
      rw [rounds, hx false]
      show (do return line x false ++ (← rounds round ((y :: xs).map g)) : Except Error String) = _
      rw [hxs]
      rfl

theorem renderAll_each {e : Expr} {binder : String} {body : List Node} (g : α → Json) (line : α → Bool → String)
    (xs : List α) (h : e.eval s = .ok (.arr (xs.map g)))
    (hbody : ∀ x ∈ xs, ∀ last, renderAll { bound := (binder, g x) :: s.bound, last := last } body = .ok (line x last)) :
    renderAll s (.each binder e body :: ns) = (renderAll s ns).map (lines line xs ++ ·) := by
  have head : (Node.each binder e body).render s = .ok (lines line xs) := by
    rw [Node.render, Expr.elements, h]
    exact rounds_map xs hbody
  rw [renderAll, head]
  cases renderAll s ns <;> rfl

/-! ## Lookups, from the innermost binder outwards -/

/-- The member of a value that a template asks for. -/
def memberOf (name : String) : Json → Except Error Json
  | .obj ms => (Entries.get? name ms).elim (.error (.noMember (.obj ms) name)) .ok
  | v => .error (.noMember v name)

@[simp]
theorem memberOf_obj (name : String) (ms : List (String × Json)) :
    memberOf name (.obj ms) = (Entries.get? name ms).elim (.error (.noMember (.obj ms) name)) .ok := rfl

@[simp]
theorem display_str (text : String) : (Json.str text).display = text := rfl

variable {bound : List (String × Json)} {last : Bool}

@[simp]
theorem get?_cons {ν : Type} (k k' : String) (v : ν) (es : List (String × ν)) :
    Entries.get? k ((k', v) :: es) = if k' = k then some v else Entries.get? k es := by
  show (if k' == k then some v else Entries.get? k es) = _
  simp only [beq_iff_eq]

@[simp]
theorem eval_var_cons (name k : String) (v : Json) :
    (Expr.var name).eval { bound := (k, v) :: bound, last := last } =
      if k = name then .ok v else (Expr.var name).eval { bound := bound, last := last } := by
  unfold Expr.eval
  rw [get?_cons]
  by_cases h : k = name
  · rw [if_pos h, if_pos h]
  · rw [if_neg h, if_neg h]

theorem eval_member_var (owner name : String) :
    (Expr.member (.var owner) name).eval s = ((Expr.var owner).eval s).bind (memberOf name) := by
  conv => lhs; rw [Expr.eval]
  cases (Expr.var owner).eval s with
  | error e => rfl
  | ok v =>
    cases v with
    | obj ms =>
      simp only [bind, Except.bind, memberOf_obj]
      cases Entries.get? name ms <;> rfl
    | _ => rfl

@[simp]
theorem eval_member_cons (owner name k : String) (v : Json) :
    (Expr.member (.var owner) name).eval { bound := (k, v) :: bound, last := last } =
      if k = owner then memberOf name v else (Expr.member (.var owner) name).eval { bound := bound, last := last } := by
  rw [eval_member_var, eval_var_cons]
  by_cases h : k = owner
  · rw [if_pos h, if_pos h]
    rfl
  · rw [if_neg h, if_neg h, eval_member_var]

end SchemaForge.Template
