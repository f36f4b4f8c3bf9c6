/-!
# Sets of characters given by ranges of code points

A property of characters is stored as a list of closed intervals in
increasing order.  `Ranges.covers` searches such a list and stops at the
first interval that begins above the code point it looks for.
-/

namespace ScriptEngine.Text

/-- Closed intervals of code points, in increasing order. -/
abbrev Ranges := List (Nat × Nat)

namespace Ranges

/-- Whether some interval contains the code point. -/
def covers : Ranges → Nat → Bool
  | [], _ => false
  | (low, high) :: rest, point =>
    if point < low then false else point ≤ high || covers rest point

@[simp]
theorem covers_nil (point : Nat) : covers [] point = false := rfl

theorem covers_cons_of_lt
    {low high point : Nat}
    (rest : Ranges)
    (below : point < low) :
    covers ((low, high) :: rest) point = false := by
  simp [covers, below]

theorem covers_cons_of_mem
    {low high point : Nat}
    (rest : Ranges)
    (above : low ≤ point)
    (within : point ≤ high) :
    covers ((low, high) :: rest) point = true := by
  simp [covers, Nat.not_lt.2 above, within]

end Ranges

end ScriptEngine.Text
