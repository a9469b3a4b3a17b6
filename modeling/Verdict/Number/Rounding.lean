/-
Rounding a quotient of naturals to a natural.

* `divToEven n d`: the natural nearest to `n / d`, a tie to the even neighbour.
* `divHalfUp n d`: the natural nearest to `n / d`, a tie to the larger neighbour.
* `divToEven_of_dvd`: rounding to even does not change an exact quotient.
-/

namespace Verdict

/-- The natural nearest to `n / d`; of two equally near ones the even one. -/
def divToEven (n d : Nat) : Nat :=
  let q := n / d
  let r := n % d
  if 2 * r < d then q
  else if d < 2 * r then q + 1
  else if q % 2 = 0 then q else q + 1

/-- The natural nearest to `n / d`; of two equally near ones the larger. -/
def divHalfUp (n d : Nat) : Nat := (2 * n + d) / (2 * d)

/-- Rounding to even leaves an exact quotient alone. -/
theorem divToEven_of_dvd (q d : Nat) (hd : 0 < d) : divToEven (q * d) d = q := by
  simp [divToEven, Nat.mul_mod_left, Nat.mul_div_cancel _ hd, hd]

end Verdict
