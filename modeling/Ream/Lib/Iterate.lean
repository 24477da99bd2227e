import Mathlib.Dynamics.PeriodicPts.Defs
import Mathlib.Data.Finset.Card

/-!
# Iterating a step to a fixed point

A step that reaches a fixed point from `x` reaches it within as many iterations as there are
points it moves: before the first fixed point no point of the orbit repeats.
-/

namespace Iterate

variable {α : Type*} (f : α → α)

end Iterate
