import Mathlib.Data.List.Induction
import Mathlib.Logic.Function.Basic
import SchemaForge.Java.Imports

/-
Collections of imports that feed each other. Names are added to any of them, one is merged into another or into itself,
and one is drained, in any order and any number of times.

What a collection should list is told without collections: `arrived` writes down every name that has reached a key since
it was last drained, as often as it came. A merge brings what the source lists, that is each name of its record once,
where it first came.

A step changes one collection and one record in the same way (`names_run`), so after any moves each collection lists the
names of its record, each once and in order of first arrival (`first_arrivals_after`). A merge into itself brings only
what is there.
-/

namespace SchemaForge.Java.Imports

inductive Move (K : Type)
  | add (target : K) (name : String)
  | merge (target source : K)
  | drain (target : K)

variable {K : Type} [DecidableEq K]

namespace Move

def target : Move K → K
  | .add k _ => k
  | .merge k _ => k
  | .drain k => k

def run (f : K → Imports) : Move K → K → Imports
  | .add k name => Function.update f k ((f k).add name)
  | .merge k source => Function.update f k ((f k).merge (f source))
  | .drain k => Function.update f k (f k).drain.2

/-- The records after a move. -/
def record (log : K → List String) : Move K → K → List String
  | .add k name => Function.update log k (log k ++ [name])
  | .merge k source => Function.update log k (log k ++ (log source).eraseDups)
  | .drain k => Function.update log k []

end Move

/-- The collections after moves that began with all of them empty. -/
def after (moves : List (Move K)) : K → Imports := moves.foldl Move.run (fun _ => {})

/-- The names that have reached each collection since it was last drained. -/
def arrived (moves : List (Move K)) : K → List String := moves.foldl Move.record (fun _ => [])

/-! ## One move -/

theorem names_foldl_add_of_log {i : Imports} {log : List String} (h : i.names = log.eraseDups) (names : List String) :
    (names.foldl add i).names = (log ++ names).eraseDups := by
  rw [names_foldl_add, List.eraseDups_append, h, List.removeAll]
  refine congrArg (fun later => log.eraseDups ++ List.eraseDups later) (List.filter_congr fun x _ => ?_)
  simp

theorem names_run {f : K → Imports} {log : K → List String} (h : ∀ k, (f k).names = (log k).eraseDups)
    (move : Move K) (k : K) : (move.run f k).names = (move.record log k).eraseDups := by
  cases move with
  | add target name =>
    by_cases hk : k = target
    · subst hk
      simp only [Move.run, Move.record, Function.update_self]
      exact names_foldl_add_of_log (h k) [name]
    · simp only [Move.run, Move.record, Function.update_of_ne hk, h k]
  | merge target source =>
    by_cases hk : k = target
    · subst hk
      simp only [Move.run, Move.record, Function.update_self]
      rw [← h source]
      exact names_foldl_add_of_log (h k) (f source).names
    · simp only [Move.run, Move.record, Function.update_of_ne hk, h k]
  | drain target =>
    by_cases hk : k = target
    · subst hk
      simp [Move.run, Move.record, drain]
    · simp only [Move.run, Move.record, Function.update_of_ne hk, h k]

theorem run_of_ne {f : K → Imports} {move : Move K} {k : K} (h : k ≠ move.target) : move.run f k = f k := by
  cases move <;> exact Function.update_of_ne h _ _

/-! ## Any moves -/

theorem after_concat (moves : List (Move K)) (move : Move K) : after (moves ++ [move]) = move.run (after moves) := by
  rw [after, List.foldl_append]
  rfl

theorem arrived_concat (moves : List (Move K)) (move : Move K) :
    arrived (moves ++ [move]) = move.record (arrived moves) := by
  rw [arrived, List.foldl_append]
  rfl

theorem names_after (moves : List (Move K)) : ∀ k, (after moves k).names = (arrived moves k).eraseDups := by
  induction moves using List.reverseRecOn with
  | nil => exact fun _ => rfl
  | append_singleton moves move ih =>
    rw [after_concat, arrived_concat]
    exact names_run ih move

/-- After any moves each collection lists what has reached it since it was last drained, each name once and in order of
    first arrival. Its size and its members are those of the list, a drain hands the list out and leaves nothing, and a
    merge brings the list of its source. Every move leaves the collections alone that are not its target, so a source too,
    and a merge of a collection into itself changes nothing. -/
theorem first_arrivals_after (moves : List (Move K)) (k : K) :
    (after moves k).names = (arrived moves k).eraseDups ∧ (after moves k).names.Nodup ∧
      (after moves k).size = (arrived moves k).eraseDups.length ∧
      (∀ name, (after moves k).contains name = true ↔ name ∈ arrived moves k) ∧
      (after moves k).drain = ((arrived moves k).eraseDups, {}) ∧ (after (moves ++ [.drain k]) k).names = [] ∧
      (∀ source, arrived (moves ++ [.merge k source]) k = arrived moves k ++ (after moves source).names) ∧
      (∀ move : Move K, k ≠ move.target → after (moves ++ [move]) k = after moves k) ∧
      after (moves ++ [.merge k k]) = after moves := by
  have hnames := names_after moves
  refine ⟨hnames k, ?_, ?_, fun name => ?_, ?_, ?_, fun source => ?_, fun move hmove => ?_, ?_⟩
  · rw [hnames]
    exact nodup_eraseDups _
  · rw [size, hnames]
  · rw [contains, List.contains_iff_mem, hnames, List.mem_eraseDups]
  · rw [drain, hnames]
  · simp [after_concat, Move.run, drain]
  · rw [arrived_concat, hnames]
    exact Function.update_self ..
  · rw [after_concat, run_of_ne hmove]
  · rw [after_concat, Move.run, merge_self, Function.update_eq_self]

end SchemaForge.Java.Imports
