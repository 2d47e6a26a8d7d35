import Mathlib.Data.Finset.Card
import SchemaForge.Proofs.Generation.Outcomes
import SchemaForge.Proofs.Java.TypeNames

/-
The class names that are handed out for a sequence of type names, from the start. A name is converted, and what it is
converted to is its base. Its rivals are the other names of this base that were asked for before it first was. Without
rivals it gets the base, and else the base with their number (`classNameAmong`), whenever it is asked for.

`Numbered` says the same by ranks among distinct names; `rank_eq_card_rivals` is how the two go together. The ranks of one
base are all numbers below how many names share it, so which class names are handed out depends on which names are asked
for and not on the order (`mem_map_given_iff`).
-/

namespace SchemaForge

open Generation Generation.Pass

namespace Naming

variable {base : String → String} {asked names : List String} {n : String}

/-- The other names of its base that are asked for before a name first is. -/
def rivals (base : String → String) (names : List String) (n : String) : Finset String :=
  (names.takeWhile (· != n)).toFinset.filter (fun m => base m = base n)

theorem toFinset_foldl_ask : (names.foldl ask []).toFinset = names.toFinset := by
  ext n
  simp [mem_foldl_ask]

theorem sharing_eq_card (h : asked.Nodup) (b : String) :
    sharing base asked b = (asked.toFinset.filter (fun m => base m = b)).card := by
  have hfilter : (asked.filter (fun m => base m == b)).toFinset = asked.toFinset.filter (fun m => base m = b) := by
    simp [List.toFinset_filter]
  rw [sharing, List.countP_eq_length_filter, ← hfilter, List.toFinset_card_of_nodup (h.filter _)]

theorem rank_eq_card_rivals (hn : n ∈ names) : rank base (names.foldl ask []) n = (rivals base names n).card := by
  obtain ⟨before, later, rfl, hbefore⟩ := List.eq_append_cons_of_mem hn
  have hfirst : (before ++ n :: later).takeWhile (· != n) = before := by
    have hother : ∀ m ∈ before, (m != n) = true := fun m hm => bne_iff_ne.mpr (ne_of_mem_of_not_mem hm hbefore)
    rw [List.takeWhile_append_of_pos hother]
    simp
  have hnew : n ∉ before.foldl ask [] := by simpa [mem_foldl_ask] using hbefore
  calc rank base ((before ++ n :: later).foldl ask []) n
      = rank base (before.foldl ask [] ++ [n]) n := by
        rw [List.foldl_append, List.foldl_cons, rank_foldl_ask later (mem_ask.mpr (Or.inr rfl)), ask, if_neg hnew]
    _ = sharing base (before.foldl ask []) (base n) := rank_append_self hnew
    _ = (rivals base (before ++ n :: later) n).card := by
        rw [sharing_eq_card (nodup_foldl_ask List.nodup_nil), toFinset_foldl_ask, rivals, hfirst]

/-- The names handed out are, for each base, as many of its first ones as names share it. -/
theorem mem_map_given_iff {r : Rules} {a : Allocator} (h : Numbered r asked a) {x : String} :
    x ∈ asked.map (given r asked) ↔ ∃ b i, i < sharing (pascalBase r) asked b ∧ x = nthName b "_" i := by
  rw [List.mem_map]
  refine ⟨?_, ?_⟩
  · rintro ⟨n, hn, rfl⟩
    exact ⟨pascalBase r n, rank (pascalBase r) asked n, (h.ranked _ _).mp ⟨n, hn, rfl, rfl⟩, rfl⟩
  · rintro ⟨b, i, hi, rfl⟩
    obtain ⟨n, hn, rfl, rfl⟩ := (h.ranked b i).mpr hi
    exact ⟨n, hn, rfl⟩

end Naming

namespace Java

open Naming

variable {names : List String} {s : Session}

/-- The class name for a name in a sequence of requests. -/
def classNameAmong (names : List String) (n : String) : String :=
  nthName (rules.convert n .pascal "_") "_" (rivals (pascalBase rules) names n).card

theorem given_eq_classNameAmong {n : String} (hn : n ∈ names) :
    given rules (names.foldl ask []) n = classNameAmong names n := by
  rw [given, rank_eq_card_rivals hn]
  rfl

/-- A sequence of requests is answered by the ranks of its names, and the answers stand. -/
theorem yields_classNames (names : List String) (hs : s.names = {}) :
    ∃ t, Yields (names.mapM fun n => className (.str n)) s (names.map (given rules (names.foldl ask []))) t ∧
      Numbered rules (names.foldl ask []) t.names := by
  have hdelivers : Delivers (names.mapM fun n => className (.str n)) fun answers => ∀ x ∈ answers, True :=
    delivers_mapM fun n _ => delivers_assignName rules n .pascal conflictSuffix
  obtain ⟨answers, t, hyields, -⟩ := hdelivers s
  have hasked : askAll [] (names.flatMap fun n => [.str n]) = names.foldl ask [] := by
    unfold askAll
    rw [List.map_flatMap]
    simp [Json.display]
  obtain ⟨ht, hanswers⟩ := mapM_of_numbered (D := []) (fun n => [.str n]) (fun A n x => x = given rules A n)
    (fun n D s x t h hs => (className_of_numbered h hs).symm)
    (fun A later n x hA hx => hx.trans (given_askAll later (hA (.str n) (List.mem_singleton_self _))).symm)
    names hyields (hs ▸ numbered_nil)
  rw [hasked] at ht hanswers
  exact ⟨t, eq_map_of_forall₂ hanswers ▸ hyields, ht⟩

theorem map_given (names : List String) :
    names.map (given rules (names.foldl ask [])) = names.map (classNameAmong names) :=
  List.map_congr_left fun _ hn => given_eq_classNameAmong hn

/-- Of each base, as many class names are handed out as distinct names have it, and these are its first ones. -/
theorem mem_map_classNameAmong_iff {x : String} : x ∈ names.map (classNameAmong names) ↔
    ∃ b i, i < (names.toFinset.filter (fun n => pascalBase rules n = b)).card ∧ x = nthName b "_" i := by
  obtain ⟨t, -, hnumbered⟩ := yields_classNames (s := {}) names rfl
  have hsame : x ∈ (names.foldl ask []).map (given rules (names.foldl ask [])) ↔
      x ∈ names.map (given rules (names.foldl ask [])) := by
    simp [mem_foldl_ask]
  rw [← map_given, ← hsame, mem_map_given_iff hnumbered]
  simp only [sharing_eq_card hnumbered.nodup, toFinset_foldl_ask]

/-- However often and in whatever order names are asked for, each is answered by its base and the number of its rivals.
    So no two names have one class name, and the same names have the same class names in any order. -/
theorem class_names_of_requests (names : List String) (s : Session) (hs : s.names = {}) :
    (∃ t, Yields (names.mapM fun n => className (.str n)) s (names.map (classNameAmong names)) t) ∧
      (∀ m ∈ names, ∀ n ∈ names, classNameAmong names m = classNameAmong names n → m = n) ∧
      ∀ others : List String, others.toFinset = names.toFinset →
        (others.map (classNameAmong others)).toFinset = (names.map (classNameAmong names)).toFinset := by
  obtain ⟨t, hyields, -⟩ := yields_classNames names hs
  refine ⟨⟨t, map_given names ▸ hyields⟩, fun m hm n hn heq => ?_, fun others hsame => ?_⟩
  · rw [← given_eq_classNameAmong hm, ← given_eq_classNameAmong hn] at heq
    exact given_inj (mem_foldl_ask.mpr (Or.inr hm)) (mem_foldl_ask.mpr (Or.inr hn)) heq
  · ext x
    rw [List.mem_toFinset, List.mem_toFinset, mem_map_classNameAmong_iff, mem_map_classNameAmong_iff, hsame]

/-- Names of two bases, one of them a name that generated classes use themselves, with a name that is asked for twice. -/
def postNames : List String := ["blog_post", "model", "BlogPost", "Model", "blog_post", "blog post"]

/-- Asked for the other way round, the posts change their numbers and the models theirs, and no name is new. -/
theorem post_names_in_two_orders :
    (∃ t, Yields (postNames.mapM fun n => className (.str n)) {}
      ["BlogPost", "Model_", "BlogPost_1", "Model__1", "BlogPost", "BlogPost_2"] t) ∧
    (∃ t, Yields (postNames.reverse.mapM fun n => className (.str n)) {}
      ["BlogPost", "BlogPost_1", "Model_", "BlogPost_2", "Model__1", "BlogPost_1"] t) ∧
    (postNames.reverse.map (classNameAmong postNames.reverse)).toFinset =
      (postNames.map (classNameAmong postNames)).toFinset := by
  obtain ⟨hposts, -, hany⟩ := class_names_of_requests postNames {} rfl
  obtain ⟨hreversed, -⟩ := class_names_of_requests postNames.reverse {} rfl
  have hnames : postNames.map (classNameAmong postNames) =
      ["BlogPost", "Model_", "BlogPost_1", "Model__1", "BlogPost", "BlogPost_2"] := by decide +kernel
  have hnames' : postNames.reverse.map (classNameAmong postNames.reverse) =
      ["BlogPost", "BlogPost_1", "Model_", "BlogPost_2", "Model__1", "BlogPost_1"] := by decide +kernel
  exact ⟨hnames ▸ hposts, hnames' ▸ hreversed, hany postNames.reverse (by simp)⟩

end Java

end SchemaForge
