/-
Character classes as sorted run boundaries: a class is the list of code points where membership turns on
or off, so a code point is a member exactly when an odd number of boundaries is at or below it.
-/

namespace SchemaForge.Text.Runs

/-- How many of the sorted boundaries with index below `hi` are at or below `x`; those below `lo` are known to be. -/
def countUpTo (bounds : Array Nat) (x lo hi : Nat) : Nat :=
  if h : lo < hi then
    let mid := (lo + hi) / 2
    if bounds.getD mid 0 ≤ x then countUpTo bounds x (mid + 1) hi else countUpTo bounds x lo mid
  else lo
termination_by hi - lo
decreasing_by all_goals omega

def has (bounds : Array Nat) (x : Nat) : Bool :=
  countUpTo bounds x 0 bounds.size % 2 == 1

end SchemaForge.Text.Runs
