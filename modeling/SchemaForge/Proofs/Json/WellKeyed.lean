import SchemaForge.Fault
import SchemaForge.Json.Reader
import SchemaForge.Proofs.Json.Alike
import SchemaForge.Proofs.Runs

/-
Values whose objects have each key once, at every depth. What is taken out of such a value is such a value, and putting
members into an object one by one makes one (`wellKeyed_put`). The reader builds its objects so: every value it reads
from a text is well keyed (`wellKeyed_of_parse`).
-/

namespace SchemaForge.Json

/-- No object inside has a key twice. -/
def WellKeyed (v : Json) : Prop := v.everywhere keysUnique = true

section Parts

variable {ms : List (String × Json)} {v : Json}

theorem wellKeyed_scalar (hv : v.isScalar = true) : v.WellKeyed := by
  unfold WellKeyed
  rw [everywhere_scalar hv]
  cases v with
  | obj _ => cases hv
  | _ => rfl

theorem wellKeyed_arr {xs : List Json} : (Json.arr xs).WellKeyed ↔ ∀ x ∈ xs, x.WellKeyed := by
  unfold WellKeyed
  rw [everywhere_arr]
  exact and_iff_right rfl

theorem wellKeyed_obj : (Json.obj ms).WellKeyed ↔ (Entries.keys ms).Nodup ∧ ∀ m ∈ ms, m.2.WellKeyed := by
  unfold WellKeyed
  rw [everywhere_obj]
  exact and_congr_left' decide_eq_true_iff

theorem wellKeyed_arr_nil : (Json.arr []).WellKeyed := wellKeyed_arr.mpr fun _ hx => by cases hx

theorem wellKeyed_obj_nil : (Json.obj []).WellKeyed := wellKeyed_obj.mpr ⟨List.nodup_nil, fun _ hm => by cases hm⟩

theorem wellKeyed_get? {key : String} (h : (Json.obj ms).WellKeyed) (hget : Entries.get? key ms = some v) :
    v.WellKeyed :=
  (wellKeyed_obj.mp h).2 _ (Entries.mem_of_get? hget)

theorem wellKeyed_getD {key : String} {absent : Json} (h : (Json.obj ms).WellKeyed) (ha : absent.WellKeyed) :
    ((Entries.get? key ms).getD absent).WellKeyed := by
  cases hget : Entries.get? key ms with
  | none => exact ha
  | some v => exact wellKeyed_get? h hget

theorem wellKeyed_put {k : String} (hv : v.WellKeyed) (h : (Json.obj ms).WellKeyed) :
    (Json.obj (Entries.put k v ms)).WellKeyed := by
  obtain ⟨hkeys, hvalues⟩ := wellKeyed_obj.mp h
  refine wellKeyed_obj.mpr ⟨Entries.nodup_keys_put hkeys _ _, fun n hn => ?_⟩
  rcases Entries.mem_put hn with hn | ⟨hvalue, -⟩
  · exact hvalues n hn
  · rw [hvalue]
    exact hv

theorem wellKeyed_putAll {new : List (String × Json)} (hnew : ∀ m ∈ new, m.2.WellKeyed) :
    ∀ old : List (String × Json), (Json.obj old).WellKeyed → (Json.obj (Entries.putAll new old)).WellKeyed := by
  induction new with
  | nil =>
    intro old hold
    exact hold
  | cons m new ih =>
    intro old hold
    exact ih (fun n hn => hnew n (List.mem_cons_of_mem _ hn)) _ (wellKeyed_put (hnew m (List.mem_cons_self ..)) hold)

end Parts

/-! ## What the reader reads -/

namespace Reader

open Runs

theorem isScalar_of_constant? {cs : List Char} {found : Json × Rest cs} (h : constant? cs = some found) :
    found.1.isScalar = true := by
  unfold constant? at h
  split at h <;> cases h <;> rfl

theorem isScalar_of_integer {neg : Bool} {ds : List Char} {v : Json} (h : integer neg ds = .ok v) :
    v.isScalar = true := by
  unfold integer at h
  split at h <;> cases h
  rfl

theorem isScalar_of_unsigned? {neg : Bool} {cs : List Char} {v : Json} {rest : Rest cs}
    (h : unsigned? neg cs = some (.ok v, rest)) : v.isScalar = true := by
  unfold unsigned? at h
  rw [Option.bind_eq_bind, Option.bind_eq_some_iff] at h
  obtain ⟨⟨whole, r₁, h₁⟩, _, h⟩ := h
  dsimp only at h
  split at h
  · cases h
    rfl
  · split at h
    · obtain ⟨hv, _⟩ := Prod.mk.inj (Option.some.inj h)
      exact isScalar_of_integer hv
    · cases h
      rfl

theorem isScalar_of_number? {cs : List Char} {v : Json} {rest : Rest cs} (h : number? cs = some (.ok v, rest)) :
    v.isScalar = true := by
  unfold number? at h
  split at h
  · rw [Option.bind_eq_bind, Option.bind_eq_some_iff] at h
    obtain ⟨⟨numeral, r₁, h₁⟩, hread, h⟩ := h
    cases h
    exact isScalar_of_unsigned? hread
  · exact isScalar_of_unsigned? h

/-- What opens neither a string nor an array nor an object is a constant or a number. -/
theorem wellKeyed_of_bare {room : Nat} {cs : List Char} (hs : ∀ r, cs = '"' :: r → False)
    (ha : ∀ r, cs = '[' :: r → False) (ho : ∀ r, cs = '\x7b' :: r → False) {p : Json × Rest cs}
    (h : value room cs = .ok p) : p.1.WellKeyed := by
  rw [value.eq_4 room cs hs ha ho] at h
  split at h
  · rename_i hfound
    cases h
    exact wellKeyed_scalar (isScalar_of_constant? hfound)
  · split at h
    · rename_i hnumber
      cases h
      exact wellKeyed_scalar (isScalar_of_number? hnumber)
    · cases h
    · cases h

/-- What is read as a value is well keyed; what is read into an object keeps it so. -/
theorem wellKeyed_read :
    (∀ room cs, ∀ p, value room cs = .ok p → p.1.WellKeyed) ∧
      (∀ room done cs, (Json.obj done).WellKeyed → ∀ p, members room done cs = .ok p → (Json.obj p.1).WellKeyed) ∧
      ∀ room cs, ∀ p, items room cs = .ok p → ∀ x ∈ p.1, x.WellKeyed := by
  refine value.mutual_induct (fun room cs => ∀ p, value room cs = .ok p → p.1.WellKeyed)
    (fun room done cs => (Json.obj done).WellKeyed → ∀ p, members room done cs = .ok p → (Json.obj p.1).WellKeyed)
    (fun room cs => ∀ p, items room cs = .ok p → ∀ x ∈ p.1, x.WellKeyed) ?string ?arrDeep ?arrNil ?arr ?objDeep ?objNil
    ?obj ?constant ?number ?excess ?noValue ?member ?noMember ?item
  case string =>
    intro room r p h
    rw [value] at h
    simp only [bind_eq_ok, pure_eq_ok] at h
    obtain ⟨_, _, rfl⟩ := h
    exact wellKeyed_scalar rfl
  case arrDeep =>
    intro r p h
    rw [value, if_pos rfl] at h
    cases h
  case arrNil =>
    intro room r hroom _ t ht p h
    rw [value, if_neg hroom] at h
    split at h
    · cases h
      exact wellKeyed_arr_nil
    · rename_i hne
      exact absurd ht (hne t)
  case arr =>
    intro room r hroom _ hne ih p h
    rw [value, if_neg hroom] at h
    split at h
    · rename_i ht
      exact absurd ht (hne _)
    · simp only [bind_eq_ok, pure_eq_ok] at h
      obtain ⟨q, hq, rfl⟩ := h
      exact wellKeyed_arr.mpr (ih q hq)
  case objDeep =>
    intro r p h
    rw [value, if_pos rfl] at h
    cases h
  case objNil =>
    intro room r hroom _ t ht p h
    rw [value, if_neg hroom] at h
    split at h
    · cases h
      exact wellKeyed_obj_nil
    · rename_i hne
      exact absurd ht (hne t)
  case obj =>
    intro room r hroom _ hne ih p h
    rw [value, if_neg hroom] at h
    split at h
    · rename_i ht
      exact absurd ht (hne _)
    · simp only [bind_eq_ok, pure_eq_ok] at h
      obtain ⟨q, hq, rfl⟩ := h
      exact ih wellKeyed_obj_nil q hq
  case constant =>
    intro room cs hs ha ho _ _ p h
    exact wellKeyed_of_bare hs ha ho h
  case number =>
    intro room cs hs ha ho _ _ _ _ p h
    exact wellKeyed_of_bare hs ha ho h
  case excess =>
    intro room cs hs ha ho _ _ _ _ p h
    exact wellKeyed_of_bare hs ha ho h
  case noValue =>
    intro room cs hs ha ho _ _ p h
    exact wellKeyed_of_bare hs ha ho h
  case member =>
    intro room done r ihvalue ihmembers hdone p h
    rw [members] at h
    rw [bind_eq_ok] at h
    obtain ⟨⟨k, r₁, h₁⟩, _, h⟩ := h
    dsimp only at h
    split at h
    · rename_i r₂ hcolon
      rw [bind_eq_ok] at h
      obtain ⟨⟨v, r₄, h₄⟩, hv, h⟩ := h
      have hput := wellKeyed_put (k := k) (ihvalue r₁ h₁ r₂ hcolon _ hv) hdone
      dsimp only at h
      split at h
      · cases h
        exact hput
      · rename_i t ht
        rw [bind_eq_ok] at h
        obtain ⟨q, hq, h⟩ := h
        cases h
        exact ihmembers k r₁ h₁ r₂ hcolon v r₄ h₄ t ht hput q hq
      · cases h
    · cases h
  case noMember =>
    intro room done cs hs _ p h
    rw [members.eq_2 room done cs hs] at h
    cases h
  case item =>
    intro room cs ihvalue ihitems p h x hx
    rw [items, bind_eq_ok] at h
    obtain ⟨⟨v, r, hr⟩, hv, h⟩ := h
    dsimp only at h
    split at h
    · cases h
      rw [List.mem_singleton.mp hx]
      exact ihvalue _ hv
    · rename_i t ht
      rw [bind_eq_ok] at h
      obtain ⟨q, hq, h⟩ := h
      cases h
      rcases List.mem_cons.mp hx with rfl | hx
      · exact ihvalue _ hv
      · exact ihitems r hr t ht q hq x hx
    · cases h

end Reader

/-- Every value read from a text has each key of an object once. -/
theorem wellKeyed_of_parse {text : String} {v : Json} (h : parse text = .ok v) : v.WellKeyed := by
  have hread : Reader.document text.toList = .ok v := by
    unfold parse at h
    dsimp only at h
    split at h
    · rename_i hread
      cases h
      exact hread
    · cases h
    · cases h
  unfold Reader.document at hread
  split at hread
  · cases hread
  · rw [Runs.bind_eq_ok] at hread
    obtain ⟨p, hp, hread⟩ := hread
    dsimp only at hread
    split at hread
    · cases hread
      exact Reader.wellKeyed_read.1 _ _ _ hp
    · cases hread

end SchemaForge.Json
