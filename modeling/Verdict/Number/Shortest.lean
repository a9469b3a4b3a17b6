/-
The shortest decimal that reads back as a given double.

Of all decimals that round to the double, the one with the fewest digits is
taken, and of two of these the nearer.  The search runs over the grids of one,
two, ... significant digits; on each grid only the two neighbours of the exact
value can be the answer, because the decimals that round to a double form an
interval around it.

* `Binary64.ofDecimal?`: the double nearest to `digits · 10 ^ exponent`.
* `Binary64.readsBack`: whether a decimal rounds to the double.
* `Binary64.shortest`: the digits and the power of ten of the shortest decimal.
-/
import Verdict.Number.Binary64

namespace Verdict
namespace Binary64

/-- The double nearest to `digits · 10 ^ exponent`.  Exponents far outside the
range of doubles are answered without computing the power of ten. -/
def ofDecimal? (negative : Bool) (digits : Nat) (exponent : Int) : Option Binary64 :=
  let order := exponent + (Nat.toDigits 10 digits).length
  if digits = 0 ∨ order < -400 then some (zero negative)
  else if 400 < order then none
  else ofRatio? negative (digits * Nat.pow 10 exponent.toNat) (Nat.pow 10 (-exponent).toNat)

/-- Whether `digits · 10 ^ exponent` rounds to the magnitude of `x`. -/
def readsBack (x : Binary64) (digits : Nat) (exponent : Int) : Bool :=
  ofRatio? false (digits * Nat.pow 10 exponent.toNat) (Nat.pow 10 (-exponent).toNat)
    == some { x with negative := false }

/-- The decimal of the grid `10 ^ exponent` that reads back as `x`, the nearer
one if both neighbours of `x` on the grid do. -/
def onGrid? (x : Binary64) (exponent : Int) : Option (Nat × Int) :=
  let n := x.ratio.1 * Nat.pow 10 (-exponent).toNat
  let d := x.ratio.2 * Nat.pow 10 exponent.toNat
  let low := n / d
  match x.readsBack low exponent, x.readsBack (low + 1) exponent with
  | true, true => some (divToEven n d, exponent)
  | true, false => some (low, exponent)
  | false, true => some (low + 1, exponent)
  | false, false => none

/-- A power of ten above the magnitude of `x`, at most three places too high. -/
def orderBound (x : Binary64) : Int :=
  let (n, d) := x.ratio
  let guess := ((n.log2 : Int) - d.log2) * 30103 / 100000 - 1
  let above (k : Int) : Bool := n * Nat.pow 10 (-k).toNat < d * Nat.pow 10 k.toNat
  if above guess then guess
  else if above (guess + 1) then guess + 1
  else if above (guess + 2) then guess + 2
  else guess + 3

/-- Moves the trailing zeros of `digits` into the exponent. -/
def dropZeros (digits : Nat) (exponent : Int) : Nat × Int :=
  if digits ≠ 0 ∧ digits % 10 = 0 then dropZeros (digits / 10) (exponent + 1)
  else (digits, exponent)
  termination_by digits

/-- The shortest decimal `digits · 10 ^ exponent` that reads back as the
magnitude of `x`.  Seventeen digits always read back; the exact value stands in
for them should the search end without an answer. -/
def shortest (x : Binary64) : Nat × Int :=
  if x.isZero then (0, 0) else
  let bound := x.orderBound
  let found := (List.range 17).findSome? fun n => x.onGrid? (bound - ((n + 1 : Nat) : Int))
  let (digits, exponent) := found.getD
    (x.significand * Nat.pow 2 x.exponent.toNat * Nat.pow 5 (-x.exponent).toNat, min 0 x.exponent)
  dropZeros digits exponent

end Binary64
end Verdict
