import SchemaForge.Builder.Chain
import SchemaForge.Schema.Basic

/-
The plan of a staged builder. Required fields other than the identity form the chain, in declaration order;
the identity and the optional fields get setters on the terminal step; every field has a slot. The items of
a plan are fields, or anything that carries one.
-/

namespace SchemaForge.Builder

structure Plan (α : Type) where
  steps : List (Contract α)
  identity : Option α
  optional : List α
  slots : List α

/-- The first item of the chain; without one the terminal step is the entry. -/
def Plan.entry? {α : Type} (p : Plan α) : Option α := p.steps.head?.map (·.item)

/-- The items that must be set before anything can be built. -/
def chained {α : Type} (field : α → Field) (items : List α) : List α :=
  items.filter (fun x => (field x).required && !(field x).isIdentity)

def Plan.ofSteps {α : Type} (field : α → Field) (items : List α) (steps : List (Contract α)) : Plan α :=
  { steps := steps
    identity := items.find? (fun x => (field x).isIdentity)
    optional := items.filter (fun x => !(field x).required && !(field x).isIdentity)
    slots := items }

def planBuilder {α κ : Type} [BEq κ] (field : α → Field) (key : α → κ) (reserved : List κ) (items : List α) :
    Except (ChainError κ) (Plan α) := do
  return Plan.ofSteps field items (← planChain key reserved (chained field items))

def planBuilderValues {α : Type} (field : α → Field) (key : α → Except Fault Json) (reserved : List Json)
    (items : List α) : Except ValueChainError (Plan α) := do
  return Plan.ofSteps field items (← planValues key reserved (chained field items))

end SchemaForge.Builder
