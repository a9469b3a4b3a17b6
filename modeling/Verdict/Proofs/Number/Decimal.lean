/-
The decimals of numbers.

A number denotes the rational that its text stands for.  As a decimal it is taken at that
rational rounded to 28 decimals, if the rational is zero or lies from `10 ^ -28` up to `2 ^ 96`;
all other numbers are no decimals.  Doubles keep their rationals apart, so equality of doubles is
equality of rationals.

* `Binary64.value`, `Number.value`: the rational that a number denotes.
* `Decimal.value`, `Decimal.order_eq_compare`: decimals are ordered by their rationals.
* `Decimal.InRange`, `Decimal.rounded`: the range of decimals and the rounding to 28 decimals.
* `Number.isSome_toDecimal?_iff`, `Number.value_of_toDecimal?`: the decimal of a number.
* `Number.rounded_value`: numbers that are not rounded.
* `Binary64.nearest?_decimalMagnitude`: a double is the nearest one to its shortest decimal.
* `Binary64.sameValue_iff_value_eq`: doubles are equal if they denote the same rational.
* `Number.equalByValue_of_not_inRange`: equality of numbers that are no decimals.
-/
import Verdict.Proofs.Number.Shortest
import Verdict.Proofs.Value.Congruence

namespace Verdict

/-! ### Values -/

namespace Binary64

/-- The rational that the shortest decimal of a double denotes, without its sign. -/
def decimalMagnitude (x : Binary64) : ℚ := x.shortest.1 * 10 ^ x.shortest.2

/-- The rational that the text of a double denotes. -/
def value (x : Binary64) : ℚ := (if x.negative then -1 else 1) * x.decimalMagnitude

variable {x y : Binary64}

lemma decimalMagnitude_of_isZero (hx : x.isZero = true) : x.decimalMagnitude = 0 := by
  rw [decimalMagnitude, shortest, if_pos hx]
  simp

lemma decimalMagnitude_pos (hx : x.isZero = false) : 0 < x.decimalMagnitude := by
  have hdigits := (shortest_reads_back hx).2.1
  rw [decimalMagnitude]
  positivity

lemma decimalMagnitude_nonneg (x : Binary64) : 0 ≤ x.decimalMagnitude := by
  rw [decimalMagnitude]
  positivity

lemma abs_value (x : Binary64) : |x.value| = x.decimalMagnitude := by
  rw [value]
  split_ifs <;> simp [abs_of_nonneg x.decimalMagnitude_nonneg]

lemma value_eq_zero_iff : x.value = 0 ↔ x.isZero = true := by
  rw [← abs_eq_zero, abs_value]
  cases hx : x.isZero with
  | true => simp [decimalMagnitude_of_isZero hx]
  | false => simp [(decimalMagnitude_pos hx).ne']

lemma value_neg_iff (hx : x.isZero = false) : x.value < 0 ↔ x.negative = true := by
  have hpos := decimalMagnitude_pos hx
  rw [value]
  cases x.negative with
  | true => simp [hpos]
  | false => simp [hpos.le]

lemma eq_zero_of_isZero (hx : x.isZero = true) : x = zero x.negative := by
  obtain ⟨negative, significand, exponent, hcanonical⟩ := x
  obtain rfl : significand = 0 := by simpa [isZero] using hx
  obtain rfl : exponent = -1074 := hcanonical.2.2.2.resolve_left (by decide)
  rfl

/-- A double is the nearest one to its shortest decimal. -/
theorem nearest?_decimalMagnitude (x : Binary64) :
    nearest? x.negative x.decimalMagnitude = some x := by
  cases hx : x.isZero with
  | true =>
    rw [decimalMagnitude_of_isZero hx, nearest?, if_pos rfl]
    exact congrArg some (eq_zero_of_isZero hx).symm
  | false =>
    rw [nearest?_eq_map, decimalMagnitude, (shortest_reads_back hx).1]
    rfl

/-- Doubles are equal exactly if they denote the same rational. -/
theorem sameValue_iff_value_eq : x.sameValue y = true ↔ x.value = y.value := by
  rw [sameValue_iff]
  constructor
  · rintro (rfl | ⟨hx, hy⟩)
    · rfl
    · rw [value_eq_zero_iff.mpr hx, value_eq_zero_iff.mpr hy]
  · intro h
    cases hx : x.isZero with
    | true =>
      rw [value_eq_zero_iff.mpr hx] at h
      exact .inr ⟨rfl, value_eq_zero_iff.mp h.symm⟩
    | false =>
      have hy : y.isZero = false := by
        rw [← Bool.not_eq_true, ← value_eq_zero_iff, ← h, value_eq_zero_iff, hx]
        simp
      have hsign : x.negative = y.negative := by
        rw [Bool.eq_iff_iff, ← value_neg_iff hx, ← value_neg_iff hy, h]
      have hmagnitude : x.decimalMagnitude = y.decimalMagnitude := by
        rw [← abs_value, ← abs_value, h]
      have hread := nearest?_decimalMagnitude x
      rw [hsign, hmagnitude, nearest?_decimalMagnitude] at hread
      exact .inl (Option.some.inj hread).symm

end Binary64

namespace Number

/-- The rational that the text of a number denotes. -/
def value : Number → ℚ
  | .integer n => n
  | .real x => x.value

/-- An integer of a number is a word of 64 bits, with or without a sign. -/
def IsWord : Number → Prop
  | .integer n => leastInteger ≤ n ∧ n ≤ greatestUnsigned
  | .real _ => True

lemma IsWord.natAbs_lt {n : ℤ} (hn : IsWord (.integer n)) : n.natAbs < 2 ^ 64 := by
  obtain ⟨hleast, hgreatest⟩ := hn
  rw [leastInteger] at hleast
  rw [greatestUnsigned] at hgreatest
  omega

end Number

/-! ### Decimals and their range -/

namespace Decimal

/-- The rational that a decimal denotes. -/
def value (a : Decimal) : ℚ := a.coefficient / 10 ^ a.scale

lemma coefficient_mul_pow (a : Decimal) (s : ℕ) :
    ((a.coefficient * Nat.pow 10 s : ℤ) : ℚ) = a.value * (10 ^ a.scale * 10 ^ s) := by
  rw [value]
  field_simp
  push_cast [Nat.pow_eq]
  rfl

/-- Decimals of any two scales are ordered by their values. -/
lemma order_eq_compare (a b : Decimal) : a.order b = compare a.value b.value := by
  have hscale : (0 : ℚ) < 10 ^ a.scale * 10 ^ b.scale := by positivity
  calc a.order b
      = cmp (a.coefficient * Nat.pow 10 b.scale : ℤ) (b.coefficient * Nat.pow 10 a.scale) :=
        (cmp_eq_compare _ _).symm
    _ = cmp ((a.coefficient * Nat.pow 10 b.scale : ℤ) : ℚ)
          ((b.coefficient * Nat.pow 10 a.scale : ℤ) : ℚ) :=
        (Int.cast_strictMono.cmp_map_eq _ _).symm
    _ = compare a.value b.value := by
        rw [coefficient_mul_pow, coefficient_mul_pow, mul_comm (10 ^ b.scale),
          cmp_mul_pos_right hscale, cmp_eq_compare]

/-- The rationals that have a decimal nearby. -/
def InRange (v : ℚ) : Prop := v = 0 ∨ 10 ^ (-28 : ℤ) ≤ |v| ∧ |v| < 2 ^ 96

/-- A rational rounded to 28 decimals, a half away from zero. -/
def rounded (v : ℚ) : ℚ := (if v < 0 then -1 else 1) * (⌊|v| * 10 ^ 28 + 1 / 2⌋₊ / 10 ^ 28)

lemma rounded_nonneg {v : ℚ} (h : 0 ≤ v) : rounded v = ⌊v * 10 ^ 28 + 1 / 2⌋₊ / 10 ^ 28 := by
  rw [rounded, if_neg (not_lt.mpr h), abs_of_nonneg h, one_mul]

lemma rounded_neg (v : ℚ) : rounded (-v) = -rounded v := by
  rcases lt_trichotomy v 0 with h | rfl | h
  · rw [rounded, rounded, if_neg (by linarith), if_pos h, abs_neg]
    ring
  · norm_num [rounded]
  · rw [rounded, rounded, if_pos (by linarith), if_neg (by linarith), abs_neg]
    ring

lemma rounded_mono : Monotone rounded := by
  have hnonneg {v w : ℚ} (hv : 0 ≤ v) (hvw : v ≤ w) : rounded v ≤ rounded w := by
    rw [rounded_nonneg hv, rounded_nonneg (hv.trans hvw)]
    gcongr
  have hsign {v : ℚ} (hv : 0 ≤ v) : 0 ≤ rounded v := by
    rw [rounded_nonneg hv]
    positivity
  intro v w hvw
  rcases le_or_gt 0 v with hv | hv
  · exact hnonneg hv hvw
  · have hback := rounded_neg v
    rcases le_or_gt 0 w with hw | hw
    · have h₁ := hsign (v := -v) (by linarith)
      have h₂ := hsign hw
      linarith
    · have h := hnonneg (v := -w) (w := -v) (by linarith) (by linarith)
      have hback' := rounded_neg w
      linarith

lemma floor_add_half (m : ℕ) : ⌊(m : ℚ) + 1 / 2⌋₊ = m := by
  rw [add_comm, Nat.floor_add_natCast (by norm_num)]
  norm_num

/-- Rationals of at most 28 decimals are not changed. -/
lemma rounded_of_decimals {v : ℚ} {m s : ℕ} (hs : s ≤ 28) (hm : |v| = m / 10 ^ s) :
    rounded v = v := by
  have hsplit : (10 : ℚ) ^ 28 = 10 ^ s * 10 ^ (28 - s) := by rw [← pow_add, Nat.add_sub_cancel' hs]
  have hmultiple : |v| * 10 ^ 28 = (m * 10 ^ (28 - s) : ℕ) := by
    rw [hm, hsplit]
    push_cast
    field_simp
  rw [rounded, hmultiple, floor_add_half, ← hmultiple, mul_div_assoc, div_self (by positivity),
    mul_one]
  split_ifs with h
  · rw [abs_of_neg h]
    ring
  · rw [abs_of_nonneg (not_lt.mp h), one_mul]

end Decimal

/-! ### The decimal of a double -/

lemma divHalfUp_eq (n : ℕ) {d : ℕ} (hd : 0 < d) : divHalfUp n d = ⌊(n : ℚ) / d + 1 / 2⌋₊ := by
  have hsum : (n : ℚ) / d + 1 / 2 = (2 * n + d : ℕ) / (2 * d : ℕ) := by
    have hd' : (d : ℚ) ≠ 0 := by exact_mod_cast hd.ne'
    push_cast
    field_simp
  rw [hsum, Nat.floor_div_eq_div, divHalfUp]

namespace Binary64

/-- The number of decimals that are kept of a double. -/
def places (x : Binary64) : ℕ := min 28 (-x.shortest.2).toNat

variable {x : Binary64}

lemma places_le (x : Binary64) : x.places ≤ 28 := min_le_left _ _

/-- A double whose shortest decimal has at most 28 decimals is a whole number of their units. -/
lemma decimalMagnitude_eq (h : -28 ≤ x.shortest.2) :
    x.decimalMagnitude = (x.shortest.1 * 10 ^ x.shortest.2.toNat : ℕ) / 10 ^ x.places := by
  have hplaces : x.places = (-x.shortest.2).toNat := by rw [places]; omega
  rw [decimalMagnitude, ← decimal_div, hplaces]
  push_cast [Nat.pow_eq]
  rfl

/-- With seventeen digits there is no room for more than 28 decimals from `10 ^ -12` on. -/
lemma few_decimals (h : 10 ^ (-12 : ℤ) ≤ x.decimalMagnitude) : -28 ≤ x.shortest.2 := by
  have hx : x.isZero = false := by
    rw [← Bool.not_eq_true]
    intro hzero
    rw [decimalMagnitude_of_isZero hzero] at h
    norm_num at h
  have hdigits : (x.shortest.1 : ℚ) < 10 ^ (17 : ℤ) := by
    exact_mod_cast (shortest_reads_back hx).2.2.1
  have hpower : (10 : ℚ) ^ (-12 : ℤ) < 10 ^ (17 + x.shortest.2) := by
    rw [zpow_add₀ (by norm_num)]
    refine h.trans_lt ?_
    rw [decimalMagnitude]
    gcongr
  have horder : -12 < 17 + x.shortest.2 :=
    (zpow_lt_zpow_iff_right₀ (by norm_num : (1 : ℚ) < 10)).mp hpower
  omega

/-- The shortest decimal of a double with a fraction is less than its digits. -/
lemma decimalMagnitude_mul_le (h : x.shortest.2 < 0) :
    x.decimalMagnitude * 10 ^ x.places ≤ x.shortest.1 := by
  rw [decimalMagnitude, mul_assoc, ← zpow_natCast, ← zpow_add₀ (by norm_num)]
  refine mul_le_of_le_one_right (by positivity) (zpow_le_one_of_nonpos₀ (by norm_num) ?_)
  rw [places]
  omega

end Binary64

namespace Number

variable {x : Binary64}

/-- The coefficient of the decimal of a double, without its sign. -/
lemma realToDecimal?_magnitude (x : Binary64) :
    divHalfUp (x.shortest.1 * Nat.pow 10 (min 28 (-x.shortest.2).toNat + x.shortest.2.toNat))
      (Nat.pow 10 (-x.shortest.2).toNat) = ⌊x.decimalMagnitude * 10 ^ x.places + 1 / 2⌋₊ := by
  have hscaled := Binary64.decimal_div (x.shortest.1 * 10 ^ x.places) x.shortest.2
  have hpower : 0 < Nat.pow 10 (-x.shortest.2).toNat := Nat.pow_pos (by norm_num)
  rw [mul_assoc, Nat.pow_eq, ← pow_add] at hscaled
  rw [divHalfUp_eq _ hpower, ← Binary64.places, Binary64.decimalMagnitude, Nat.pow_eq, hscaled]
  push_cast
  ring_nf

/-- The coefficient of a double in range has at most 96 bits. -/
lemma coefficient_lt_iff (hx : x.isZero = false) :
    ⌊x.decimalMagnitude * 10 ^ x.places + 1 / 2⌋₊ < 2 ^ 96 ↔ x.decimalMagnitude < 2 ^ 96 := by
  obtain ⟨-, -, hseventeen, -⟩ := Binary64.shortest_reads_back hx
  rcases le_or_gt 0 x.shortest.2 with hwhole | hfraction
  · have hplaces : x.places = 0 := by rw [Binary64.places]; omega
    have hmagnitude := Binary64.decimalMagnitude_eq (x := x) (by omega)
    rw [hplaces, pow_zero, div_one] at hmagnitude
    rw [hplaces, pow_zero, mul_one, hmagnitude, Decimal.floor_add_half]
    exact_mod_cast Iff.rfl
  · have hcoefficient := Binary64.decimalMagnitude_mul_le hfraction
    have hdigits : (x.shortest.1 : ℚ) < 10 ^ 17 := by exact_mod_cast hseventeen
    constructor
    · intro
      calc x.decimalMagnitude = x.decimalMagnitude * 1 := (mul_one _).symm
        _ ≤ x.decimalMagnitude * 10 ^ x.places :=
            mul_le_mul_of_nonneg_left (one_le_pow₀ (by norm_num)) x.decimalMagnitude_nonneg
        _ < 2 ^ 96 := by linarith
    · intro
      refine (Nat.floor_lt' (by norm_num)).mpr ?_
      push_cast
      linarith

/-- A double has a decimal exactly if its shortest decimal is in range. -/
theorem isSome_realToDecimal?_iff (hx : x.isZero = false) : (realToDecimal? x).isSome = true ↔
    10 ^ (-28 : ℤ) ≤ x.decimalMagnitude ∧ x.decimalMagnitude < 2 ^ 96 := by
  obtain ⟨-, hdigits, -⟩ := Binary64.shortest_reads_back hx
  obtain ⟨hlow, hhigh⟩ := Binary64.decimal_order_bounds hdigits x.shortest.2
  rw [← Binary64.decimalMagnitude] at hlow hhigh
  rw [← coefficient_lt_iff hx]
  simp only [realToDecimal?, realToDecimal?_magnitude]
  generalize x.shortest.2 + ((Nat.toDigits 10 x.shortest.1).length : ℤ) - 1 = order at hlow hhigh ⊢
  have hten : (1 : ℚ) < 10 := by norm_num
  have hleast : 10 ^ (-28 : ℤ) ≤ x.decimalMagnitude ↔ -28 ≤ order := by
    constructor
    · intro h
      have hpower : -28 < order + 1 := (zpow_lt_zpow_iff_right₀ hten).mp (h.trans_lt hhigh)
      omega
    · intro h
      exact (zpow_le_zpow_right₀ hten.le h).trans hlow
  have hgreatest : x.decimalMagnitude < 2 ^ 96 → order ≤ 28 := by
    intro h
    have hbound : (10 : ℚ) ^ order < 10 ^ (29 : ℤ) := by
      refine (hlow.trans_lt h).trans ?_
      norm_num
    have hpower : order < 29 := (zpow_lt_zpow_iff_right₀ hten).mp hbound
    omega
  rw [← coefficient_lt_iff hx] at hgreatest
  rw [hleast]
  have hsign (magnitude : ℕ) :
      (if x.negative = true then -(magnitude : ℤ) else magnitude).natAbs = magnitude := by
    split_ifs <;> omega
  simp only [hsign, Nat.pow_eq]
  split_ifs <;>
    simp only [Option.isSome_none, Option.isSome_some, Bool.false_eq_true, false_iff, true_iff] <;>
    omega

/-- The decimal of a double is its coefficient over the power of ten of its decimals. -/
lemma realToDecimal?_eq_some {a : Decimal} (h : realToDecimal? x = some a) :
    a.value = (if x.negative then -1 else 1)
      * (⌊x.decimalMagnitude * 10 ^ x.places + 1 / 2⌋₊ / 10 ^ x.places) := by
  simp only [realToDecimal?, realToDecimal?_magnitude] at h
  split_ifs at h with horder hsign hbits hbits <;> obtain rfl := Option.some.inj h <;>
    simp only [Decimal.value, Binary64.places, hsign, if_true, if_false, Bool.false_eq_true]
  · push_cast
    ring
  · rw [one_mul, Int.cast_natCast]

/-- Rounding to fewer than 28 decimals does not change a double that has no more. -/
lemma floor_places (x : Binary64) :
    (⌊x.decimalMagnitude * 10 ^ x.places + 1 / 2⌋₊ / 10 ^ x.places : ℚ)
      = ⌊x.decimalMagnitude * 10 ^ 28 + 1 / 2⌋₊ / 10 ^ 28 := by
  rcases le_or_gt (-28) x.shortest.2 with hfew | hmany
  · have hmagnitude := Binary64.decimalMagnitude_eq hfew
    have hkept : x.decimalMagnitude * 10 ^ x.places
        = (x.shortest.1 * 10 ^ x.shortest.2.toNat : ℕ) := by
      rw [hmagnitude, div_mul_cancel₀ _ (by positivity)]
    have hrounded : Decimal.rounded x.decimalMagnitude = x.decimalMagnitude :=
      Decimal.rounded_of_decimals x.places_le
        (by rw [abs_of_nonneg x.decimalMagnitude_nonneg, ← hmagnitude])
    rw [hkept, Decimal.floor_add_half, ← hmagnitude,
      ← Decimal.rounded_nonneg x.decimalMagnitude_nonneg, hrounded]
  · have hplaces : x.places = 28 := by rw [Binary64.places]; omega
    rw [hplaces]

/-- The decimal of a double is what its text denotes, rounded to 28 decimals. -/
theorem value_of_realToDecimal? {a : Decimal} (h : realToDecimal? x = some a) :
    a.value = Decimal.rounded x.value := by
  rw [realToDecimal?_eq_some h, floor_places, Decimal.rounded, Binary64.abs_value]
  cases hx : x.isZero with
  | true => norm_num [Binary64.decimalMagnitude_of_isZero hx]
  | false => simp only [Binary64.value_neg_iff hx]

end Number

/-! ### The decimal of a number -/

/-- Rounding leaves an exact quotient alone. -/
lemma intDivToEven_mul (q : ℤ) {d : ℕ} (hd : 0 < d) : intDivToEven (q * d) d = q := by
  rw [intDivToEven, Int.natAbs_mul, Int.natAbs_natCast, divToEven_of_dvd _ _ hd, Int.sign_mul,
    Int.sign_natCast_of_ne_zero hd.ne', mul_one, Int.sign_mul_natAbs]

lemma Decimal.ofInt?_eq (n : ℤ) :
    ofInt? n = if h : n.natAbs < 2 ^ 96 then some ⟨n, 0, h, by decide⟩ else none := by
  have hexact : intDivToEven n 1 = n := by simpa using intDivToEven_mul n one_pos
  simp only [ofInt?, fit?, hexact, Nat.pow_eq]

namespace Number

variable {n : Number}

/-- The decimal of a number is what its text denotes, rounded to 28 decimals. -/
theorem value_of_toDecimal? {a : Decimal} (h : n.toDecimal? = some a) :
    a.value = Decimal.rounded n.value := by
  cases n with
  | integer n =>
    rw [toDecimal?, Decimal.ofInt?_eq] at h
    split_ifs at h
    obtain rfl := Option.some.inj h
    have hrounded : Decimal.rounded (n : ℚ) = n :=
      Decimal.rounded_of_decimals (m := n.natAbs) (s := 0) (by norm_num) (by simp [Nat.cast_natAbs])
    rw [value, hrounded, Decimal.value, pow_zero, div_one]
  | real x => exact value_of_realToDecimal? h

lemma inRange_integer {n : ℤ} (hn : IsWord (.integer n)) : Decimal.InRange n := by
  have hbits := hn.natAbs_lt
  rcases eq_or_ne n 0 with rfl | hne
  · exact .inl Int.cast_zero
  · have hlow : (1 : ℚ) ≤ |(n : ℚ)| := by exact_mod_cast Int.one_le_abs hne
    have hhigh : |(n : ℚ)| < 2 ^ 96 := by
      have habs : |n| < 2 ^ 96 := abs_lt.mpr ⟨by omega, by omega⟩
      exact_mod_cast habs
    exact .inr ⟨le_trans (zpow_le_one_of_nonpos₀ (by norm_num) (by norm_num)) hlow, hhigh⟩

/-- The numbers that have a decimal are those that denote a rational in its range. -/
theorem isSome_toDecimal?_iff (hn : n.IsWord) :
    n.toDecimal?.isSome = true ↔ Decimal.InRange n.value := by
  cases n with
  | integer n =>
    have hbits : n.natAbs < 2 ^ 96 := hn.natAbs_lt.trans (by norm_num)
    simp only [toDecimal?, Decimal.ofInt?_eq, dif_pos hbits, Option.isSome_some, value,
      inRange_integer hn]
  | real x =>
    rw [toDecimal?, value, Decimal.InRange, Binary64.abs_value, Binary64.value_eq_zero_iff]
    cases hx : x.isZero with
    | true => simp [realToDecimal?_of_isZero hx]
    | false => simp [isSome_realToDecimal?_iff hx]

/-- Numbers from `10 ^ -12` on have at most 28 decimals, so they are not rounded. -/
theorem rounded_value (h : n.value = 0 ∨ 10 ^ (-12 : ℤ) ≤ |n.value|) :
    Decimal.rounded n.value = n.value := by
  rcases h with h | h
  · rw [h]
    exact Decimal.rounded_of_decimals (m := 0) (s := 0) (by norm_num) (by simp)
  · cases n with
    | integer n =>
      exact Decimal.rounded_of_decimals (m := n.natAbs) (s := 0) (by norm_num)
        (by simp [value, Nat.cast_natAbs])
    | real x =>
      rw [value, Binary64.abs_value] at h
      exact Decimal.rounded_of_decimals x.places_le
        ((Binary64.abs_value x).trans (Binary64.decimalMagnitude_eq (Binary64.few_decimals h)))

end Number

/-! ### Equality beyond the range of decimals -/

namespace Binary64

variable {x : Binary64}

/-- The shortest decimal of a double lies between the same powers of two as the double. -/
lemma magnitude_of_not_inRange (h : ¬ Decimal.InRange x.value) :
    0 < x.magnitude ∧ x.magnitude < 1 ∨ 2 ^ 96 ≤ x.magnitude := by
  rw [Decimal.InRange, not_or, value_eq_zero_iff, Bool.not_eq_true, abs_value, not_and_or, not_le,
    not_lt] at h
  obtain ⟨hx, hsmall | hlarge⟩ := h
  · have hlt : x.decimalMagnitude < 2 ^ (-1 : ℤ) := hsmall.trans (by norm_num)
    have hle := magnitude_le (decimalMagnitude_pos hx) (shortest_reads_back hx).1 (by norm_num) hlt
    exact .inl ⟨magnitude_pos hx, lt_of_le_of_lt hle (by norm_num)⟩
  · have hle : (2 : ℚ) ^ (96 : ℤ) ≤ x.decimalMagnitude := by exact_mod_cast hlarge
    have hge := le_magnitude (decimalMagnitude_pos hx) (shortest_reads_back hx).1 (by norm_num) hle
    exact .inr (by exact_mod_cast hge)

/-- The double nearest to a word of 64 bits is zero or lies from `1` to `2 ^ 64`. -/
lemma exists_ofInt? {n : ℤ} (hn : Number.IsWord (.integer n)) : ∃ y, ofInt? n = some y ∧
    (y.magnitude = 0 ∨ 1 ≤ y.magnitude ∧ y.magnitude ≤ 2 ^ 64) := by
  have hhigh : (n.natAbs : ℚ) < 2 ^ (64 : ℤ) := by exact_mod_cast hn.natAbs_lt
  obtain ⟨y, hy⟩ := Option.isSome_iff_exists.mp (isSome_ofInt? (by norm_num) hhigh)
  refine ⟨y, hy, ?_⟩
  rcases eq_or_ne n 0 with rfl | hne
  · obtain rfl : zero false = y := Option.some.inj hy
    exact .inl (by simp [magnitude, zero])
  · have hlow : (2 : ℚ) ^ (0 : ℤ) ≤ n.natAbs := by exact_mod_cast Int.natAbs_pos.mpr hne
    have hpos : (0 : ℚ) < n.natAbs := lt_of_lt_of_le (by norm_num) hlow
    rw [ofInt?_eq] at hy
    have hle := magnitude_le hpos hy (by norm_num) hhigh
    have hge := le_magnitude hpos hy (by norm_num) hlow
    exact .inr ⟨by exact_mod_cast hge, by exact_mod_cast hle⟩

/-- A double that is no decimal is not the one nearest to a word of 64 bits. -/
lemma value_ne_ofInt? {y : Binary64} {n : ℤ} (hn : Number.IsWord (.integer n))
    (hy : ofInt? n = some y) (hx : ¬ Decimal.InRange x.value) : x.value ≠ y.value := by
  obtain ⟨y', hy', hword⟩ := exists_ofInt? hn
  obtain rfl : y = y' := Option.some.inj (hy.symm.trans hy')
  rw [ne_eq, ← sameValue_iff_value_eq, sameValue_iff]
  intro h
  have hmagnitude : x.magnitude = y.magnitude := by
    rcases h with rfl | ⟨hzero, hzero'⟩
    · rfl
    · rw [isZero_iff.mp hzero, isZero_iff.mp hzero']
  have hfar := magnitude_of_not_inRange hx
  rw [hmagnitude] at hfar
  norm_num at hfar hword
  rcases hfar with ⟨hpos, hlt⟩ | hlarge <;> rcases hword with hzero | ⟨hone, hbits⟩ <;> linarith

end Binary64

namespace Number

variable {a b : Number}

lemma equalByValue_of_eq_none {x y : Binary64} (h : a.toDecimal? = none ∨ b.toDecimal? = none)
    (ha : a.toBinary64? = some x) (hb : b.toBinary64? = some y) :
    a.equalByValue b = x.sameValue y := by
  simp only [equalByValue, ha, hb]
  rcases h with h | h <;> rw [h]
  cases a.toDecimal? <;> rfl

/-- Where a number is no decimal, equality by value is that of the rationals. -/
theorem equalByValue_of_not_inRange (ha : a.IsWord) (hb : b.IsWord)
    (h : ¬ (Decimal.InRange a.value ∧ Decimal.InRange b.value)) :
    a.equalByValue b = decide (a.value = b.value) := by
  have hnone : a.toDecimal? = none ∨ b.toDecimal? = none := by
    rw [not_and_or, ← isSome_toDecimal?_iff ha, ← isSome_toDecimal?_iff hb] at h
    simpa using h
  rw [Bool.eq_iff_iff, decide_eq_true_eq]
  cases a with
  | integer m =>
    obtain ⟨x, hx, -⟩ := Binary64.exists_ofInt? ha
    cases b with
    | integer n => exact absurd ⟨inRange_integer ha, inRange_integer hb⟩ h
    | real y =>
      have hy : ¬ Decimal.InRange y.value := fun hy => h ⟨inRange_integer ha, hy⟩
      rw [equalByValue_of_eq_none hnone hx rfl, Binary64.sameValue_iff_value_eq]
      exact iff_of_false (Binary64.value_ne_ofInt? ha hx hy).symm
        fun heq : (m : ℚ) = y.value => hy (heq ▸ inRange_integer ha)
  | real x =>
    cases b with
    | integer n =>
      obtain ⟨y, hy, -⟩ := Binary64.exists_ofInt? hb
      have hx : ¬ Decimal.InRange x.value := fun hx => h ⟨hx, inRange_integer hb⟩
      rw [equalByValue_of_eq_none hnone rfl hy, Binary64.sameValue_iff_value_eq]
      exact iff_of_false (Binary64.value_ne_ofInt? hb hy hx)
        fun heq : x.value = n => hx (heq ▸ inRange_integer hb)
    | real y =>
      rw [equalByValue_of_eq_none hnone rfl rfl]
      exact Binary64.sameValue_iff_value_eq

end Number

end Verdict
