/-! # Ranges of characters

A property of characters is kept as a table of ranges of their numbers, in ascending order. `inRanges`
stops at the first range that lies beyond. -/

namespace CacheAside.Text
set_option autoImplicit false

/-- Whether a number lies in one of the ranges, which stand in ascending order. -/
def inRanges (n : Nat) : List (Nat × Nat) → Bool
  | [] => false
  | (first, last) :: rest => if n < first then false else decide (n ≤ last) || inRanges n rest

end CacheAside.Text
