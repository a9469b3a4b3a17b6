/-
Sets of code points as ascending ranges.

* `Unicode.Ranges`: arithmetic progressions `(lo, hi, step)` in ascending order.
* `Unicode.Ranges.mem`: membership.
-/

namespace Verdict
namespace Unicode

/-- Ascending and disjoint progressions `lo, lo + step, ..., hi`. -/
abbrev Ranges : Type := List (Nat × Nat × Nat)

/-- Whether a code point lies in one of the progressions. -/
def Ranges.mem (c : Nat) : Ranges → Bool
  | [] => false
  | (lo, hi, step) :: rest =>
    if c < lo then false
    else (c ≤ hi && (c - lo) % step == 0) || mem c rest

end Unicode
end Verdict
