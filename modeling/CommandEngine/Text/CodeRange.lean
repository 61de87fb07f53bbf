/-!
# Ranges of character codes

A property of characters is given by the codes that have it, and these come in ranges. A table is a
list of ranges in ascending order, so a search stops at the first range that lies above the code
sought.
-/

namespace CommandEngine.Text

/-- Whether a code lies in one of the ranges, which ascend. -/
def inRanges : List (Nat × Nat) → Nat → Bool
  | [], _ => false
  | (low, high) :: rest, code =>
    if code < low then false else code ≤ high || inRanges rest code

end CommandEngine.Text
