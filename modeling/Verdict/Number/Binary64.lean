/-
Finite binary64 numbers as exact data.

A finite double is a sign, a significand and a power of two in canonical form,
so that two doubles of one sign denote the same real exactly when they are the
same data.  Every operation computes the exact rational result and rounds it
once, to nearest with ties to the even significand.

* `Binary64`, `Binary64.IsCanonical`: the number and its normal form.
* `Binary64.ratio`: the magnitude as a quotient of naturals.
* `Binary64.ofRatio?`: the double nearest to a quotient of naturals, `none`
  when it rounds beyond the largest finite double.
* `Binary64.sameValue`, `Binary64.roundedHalfUp`: comparison and rounding.
-/
import Verdict.Number.Rounding

namespace Verdict

/-- The significand and exponent of a finite double in normal form: 53 bits
with the leading one present, or fewer bits at the least exponent. -/
def Binary64.IsCanonical (significand : Nat) (exponent : Int) : Prop :=
  significand < Nat.pow 2 53 ∧ -1074 ≤ exponent ∧ exponent ≤ 971 ∧
    (Nat.pow 2 52 ≤ significand ∨ exponent = -1074)

instance (significand : Nat) (exponent : Int) :
    Decidable (Binary64.IsCanonical significand exponent) := by
  unfold Binary64.IsCanonical; infer_instance

/-- The finite double `± significand · 2 ^ exponent`. -/
structure Binary64 where
  negative : Bool
  significand : Nat
  exponent : Int
  canonical : Binary64.IsCanonical significand exponent
  deriving DecidableEq, Repr

namespace Binary64

/-- Zero with the given sign. -/
def zero (negative : Bool) : Binary64 := ⟨negative, 0, -1074, by decide⟩

instance : Inhabited Binary64 := ⟨zero false⟩

/-- Both signed zeros are zero. -/
def isZero (x : Binary64) : Bool := x.significand == 0

/-- The magnitude `n / d` of a double, as the pair `(n, d)` with `d` a power of two. -/
def ratio (x : Binary64) : Nat × Nat :=
  (x.significand * Nat.pow 2 x.exponent.toNat, Nat.pow 2 (-x.exponent).toNat)

/-- Equality of the denoted reals: the sign of zero does not count. -/
def sameValue (x y : Binary64) : Bool :=
  x == y || (x.isZero && y.isZero)

/-- The exponent at which the quotient `n / d` has a significand of 53 bits,
raised to the least exponent where the quotient is subnormal. -/
def exponentOf (n d : Nat) : Int :=
  let e := (n.log2 : Int) - d.log2 - 52
  let full := n * Nat.pow 2 (-(e + 52)).toNat < d * Nat.pow 2 (e + 52).toNat
  max (-1074) (if full then e - 1 else e)

/-- The double of the given sign nearest to `n / d`, ties to the even
significand; `none` when that lies beyond the largest finite double. -/
def ofRatio? (negative : Bool) (n d : Nat) : Option Binary64 :=
  if n = 0 then some (zero negative) else
  let e := exponentOf n d
  let s := divToEven (n * Nat.pow 2 (-e).toNat) (d * Nat.pow 2 e.toNat)
  let (s, e) := if s = Nat.pow 2 53 then (Nat.pow 2 52, e + 1) else (s, e)
  if h : IsCanonical s e then some ⟨negative, s, e, h⟩ else none

/-- The double nearest to an integer, if finite. -/
def ofInt? (n : Int) : Option Binary64 := ofRatio? (decide (n < 0)) n.natAbs 1

/-- The magnitude rounded to a natural, halves up. -/
def roundedHalfUp (x : Binary64) : Nat := divHalfUp x.ratio.1 x.ratio.2

end Binary64

end Verdict
