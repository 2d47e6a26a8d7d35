/-
Imports: the qualified type names found while members are written, each once, in order of first arrival.

`mem_names_add` and `nodup_add` say what one arrival does; a name that is there stays where it is
(`add_of_mem`). After several arrivals the names are the arrivals with repetitions left out (`names_foldl_add`), and
collecting them apart and merging leaves the same as collecting them in one go (`merge_all`).
-/

namespace SchemaForge.Java

structure Imports where
  names : List String := []

namespace Imports

def add (i : Imports) (name : String) : Imports :=
  if i.names.contains name then i else { names := i.names ++ [name] }

/-- Delivers the names of the other collection in their order. -/
def merge (i other : Imports) : Imports := other.names.foldl add i

/-- The names, and the emptied collection. -/
def drain (i : Imports) : List String × Imports := (i.names, {})

def size (i : Imports) : Nat := i.names.length

def contains (i : Imports) (name : String) : Bool := i.names.contains name

theorem add_of_mem {i : Imports} {name : String} (h : name ∈ i.names) : i.add name = i := by
  simp [add, h]

theorem mem_names_add {i : Imports} {name x : String} : x ∈ (i.add name).names ↔ x ∈ i.names ∨ x = name := by
  unfold add
  split
  · rename_i h
    constructor
    · exact Or.inl
    · rintro (h' | rfl)
      · exact h'
      · simpa using h
  · simp

theorem nodup_add {i : Imports} (h : i.names.Nodup) (name : String) : (i.add name).names.Nodup := by
  unfold add
  split
  · exact h
  · rename_i hn
    refine List.nodup_append.2 ⟨h, by simp, ?_⟩
    intro a ha b hb
    rw [List.mem_singleton.1 hb]
    rintro rfl
    exact hn (by simpa using ha)

theorem add_of_not_mem {i : Imports} {name : String} (h : name ∉ i.names) :
    i.add name = { names := i.names ++ [name] } := by
  simp [add, h]

theorem mem_names_foldl_add {i : Imports} {x : String} (arrivals : List String) :
    x ∈ (arrivals.foldl add i).names ↔ x ∈ i.names ∨ x ∈ arrivals := by
  induction arrivals generalizing i with
  | nil => simp
  | cons name arrivals ih => rw [List.foldl_cons, ih, mem_names_add, List.mem_cons, or_assoc]

theorem nodup_names_foldl_add {i : Imports} (h : i.names.Nodup) (arrivals : List String) :
    (arrivals.foldl add i).names.Nodup := by
  induction arrivals generalizing i with
  | nil => exact h
  | cons name arrivals ih => exact ih (nodup_add h name)

/-- What was there comes first, then every other arrival where it first occurs. -/
theorem names_foldl_add (i : Imports) (arrivals : List String) :
    (arrivals.foldl add i).names = i.names ++ (arrivals.filter (!i.names.contains ·)).eraseDups := by
  induction arrivals generalizing i with
  | nil => simp
  | cons name arrivals ih =>
    rw [List.foldl_cons]
    by_cases h : name ∈ i.names
    · rw [add_of_mem h, ih]
      simp [h]
    · have hlater : (arrivals.filter (!i.names.contains ·)).filter (fun x => !x == name) =
          arrivals.filter (!(i.names ++ [name]).contains ·) := by
        rw [List.filter_filter]
        exact List.filter_congr fun x _ => by by_cases hx : x = name <;> simp [hx]
      rw [add_of_not_mem h, ih, List.filter_cons_of_pos (by simpa using h), List.eraseDups_cons, hlater,
        List.append_assoc, List.singleton_append]

theorem nodup_eraseDups (arrivals : List String) : arrivals.eraseDups.Nodup := by
  have hall : (arrivals.foldl add {}).names = arrivals.eraseDups := by
    rw [names_foldl_add]
    exact congrArg List.eraseDups (List.filter_eq_self.mpr fun _ _ => rfl)
  exact hall ▸ nodup_names_foldl_add List.nodup_nil arrivals

/-- A collection brings itself nothing new. -/
theorem merge_self (i : Imports) : i.merge i = i :=
  List.foldlRecOn (motive := (· = i)) i.names add rfl fun _ h _ hname => by rw [h, add_of_mem hname]

theorem merge_add (i j : Imports) (name : String) : i.merge (j.add name) = (i.merge j).add name := by
  unfold merge
  by_cases h : name ∈ j.names
  · rw [add_of_mem h, add_of_mem ((mem_names_foldl_add _).mpr (Or.inr h))]
  · rw [add_of_not_mem h, List.foldl_append]
    rfl

theorem merge_foldl_add (i j : Imports) (arrivals : List String) :
    i.merge (arrivals.foldl add j) = arrivals.foldl add (i.merge j) := by
  induction arrivals generalizing j with
  | nil => rfl
  | cons name arrivals ih => rw [List.foldl_cons, ih, merge_add, List.foldl_cons]

/-- It makes no difference whether each list of arrivals has a collection of its own. -/
theorem merge_all (i : Imports) (arrivals : List (List String)) :
    (arrivals.map (fun names => names.foldl add {})).foldl merge i = arrivals.flatten.foldl add i := by
  induction arrivals generalizing i with
  | nil => rfl
  | cons names arrivals ih =>
    rw [List.map_cons, List.foldl_cons, merge_foldl_add, ih, List.flatten_cons, List.foldl_append]
    rfl

end Imports

/-- What every file of classes imports; an empty line is a separator. -/
def classImports : List String :=
  ["java.util.List", "java.util.UUID", "java.util.Objects", "",
    "androidx.core.util.ObjectsCompat", "",
    "com.amplifyframework.AmplifyException",
    "com.amplifyframework.core.model.Model",
    "com.amplifyframework.core.model.annotations.Index",
    "com.amplifyframework.core.model.annotations.Connection",
    "com.amplifyframework.core.model.annotations.ModelConfig",
    "com.amplifyframework.core.model.annotations.ModelField",
    "com.amplifyframework.core.model.query.predicate.QueryField", "",
    "static com.amplifyframework.core.model.query.predicate.QueryField.field"]

/-- What the model provider imports. -/
def providerImports : List String :=
  ["com.amplifyframework.core.model.Model",
    "com.amplifyframework.core.model.ModelProvider",
    "com.amplifyframework.util.Immutable", "",
    "java.util.Arrays", "java.util.HashSet", "java.util.Set"]

end SchemaForge.Java
