import SchemaForge.Fault

/-
Step chains. An ordered list of items becomes a chain of contracts, each naming the only item that may come
next; the last one leads to the terminal step. Two items under one key would make a step reachable on more
than one path, and a reserved key belongs to the terminal step, so both are refused.

The contracts hold the items in order (`map_item_contracts`).
-/

namespace SchemaForge.Builder

structure Contract (α : Type) where
  item : α
  next : Option α

/-- Nothing follows: the chain is at its terminal step. -/
def Contract.isLast {α : Type} (c : Contract α) : Bool := c.next.isNone

inductive ChainError (κ : Type)
  | reserved (key : κ)
  | duplicate (key : κ)

def ChainError.message {κ : Type} (written : κ → String) : ChainError κ → String
  | .reserved k => "Step '" ++ written k ++ "' collides with the terminal build step"
  | .duplicate k => "Duplicate step '" ++ written k ++ "' in builder chain"

/-- The keys in order, each neither reserved nor among those before it. -/
def checkKeys {κ : Type} [BEq κ] (reserved seen : List κ) : List κ → Except (ChainError κ) Unit
  | [] => .ok ()
  | k :: ks =>
    if reserved.contains k then .error (.reserved k)
    else if seen.contains k then .error (.duplicate k)
    else checkKeys reserved (k :: seen) ks

def contracts {α : Type} : List α → List (Contract α)
  | [] => []
  | [x] => [⟨x, none⟩]
  | x :: y :: rest => ⟨x, some y⟩ :: contracts (y :: rest)

theorem map_item_contracts {α : Type} (xs : List α) : (contracts xs).map (·.item) = xs := by
  induction xs with
  | nil => rfl
  | cons x xs ih => cases xs <;> simp_all [contracts]

def planChain {α κ : Type} [BEq κ] (key : α → κ) (reserved : List κ) (items : List α) :
    Except (ChainError κ) (List (Contract α)) := do
  checkKeys reserved [] (items.map key)
  return contracts items

/-! Chains over arbitrary values, where a key may fail to exist or to be a key. -/

inductive ValueChainError
  | chain (e : ChainError Json)
  | fault (f : Fault)

/-- The keys before the first item that has none that can be used, and what is wrong with that one. -/
def usableKeys {α : Type} (key : α → Except Fault Json) (reserved : List Json) :
    List α → List Json × Option ValueChainError
  | [] => ([], none)
  | x :: xs =>
    match key x with
    | .error f => ([], some (.fault f))
    | .ok k =>
      if k.isScalar then
        let (ks, stop) := usableKeys key reserved xs
        (k :: ks, stop)
      else if reserved.contains k then ([], some (.chain (.reserved k)))
      else ([], some (.fault (.notKey k)))

def planValues {α : Type} (key : α → Except Fault Json) (reserved : List Json) (items : List α) :
    Except ValueChainError (List (Contract α)) :=
  let (keys, stop) := usableKeys key reserved items
  match checkKeys reserved [] keys, stop with
  | .error e, _ => .error (.chain e)
  | .ok _, some e => .error e
  | .ok _, none => .ok (contracts items)

/-- In a chain of values a null successor stands for none. -/
def Contract.leadsNowhere (c : Contract Json) : Bool :=
  match c.next with
  | none => true
  | some .null => true
  | some _ => false

end SchemaForge.Builder
