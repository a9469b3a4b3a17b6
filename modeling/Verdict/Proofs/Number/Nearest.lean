/-
Rounding to the nearest double.

The double nearest to a quotient depends on the rational alone.  It is found on the grid of
doubles that belongs to the power of two below the rational; so it does not leave the powers of
two between which the rational lies, and every rational nearer to a double than half of the gap
beside it is rounded to that double.

* `nearestEven`, `divToEven_eq`: the natural nearest to a rational.
* `Binary64.magnitude`: the rational that a double denotes, without its sign.
* `Binary64.gridOf`, `Binary64.exponentOf_eq`: the grid on which a rational is rounded.
* `Binary64.nearest?`, `Binary64.ofRatio?_eq`: the double nearest to a rational.
* `Binary64.nearest?_isSome`, `Binary64.nearest?_eq_none`: the rationals in the range of doubles.
* `Binary64.magnitude_le`, `Binary64.le_magnitude`: rounding stays between powers of two.
* `Binary64.nearest?_of_close`: what is rounded to a given double.
-/
import Mathlib
import Verdict.Number.Shortest

namespace Verdict

/-! ### Naturals nearest to a rational -/

/-- The natural nearest to a rational that is not negative, of two equally near ones the even
one. -/
def nearestEven (v : ℚ) : ℕ :=
  if v - ⌊v⌋₊ < 1 / 2 then ⌊v⌋₊
  else if 1 / 2 < v - ⌊v⌋₊ then ⌊v⌋₊ + 1
  else if ⌊v⌋₊ % 2 = 0 then ⌊v⌋₊ else ⌊v⌋₊ + 1

/-- Dividing with the tie to even rounds the rational quotient. -/
lemma divToEven_eq (n : ℕ) {d : ℕ} (hd : 0 < d) : divToEven n d = nearestEven (n / d) := by
  have hd' : (0 : ℚ) < d := by exact_mod_cast hd
  have hrest : (n : ℚ) / d - (n / d : ℕ) = (n % d : ℕ) / d := by
    rw [div_sub' hd'.ne', div_left_inj' hd'.ne']
    have hsplit : (d * (n / d : ℕ) + (n % d : ℕ) : ℚ) = n := by exact_mod_cast Nat.div_add_mod n d
    linarith
  have hless : (n : ℚ) / d - (n / d : ℕ) < 1 / 2 ↔ 2 * (n % d) < d := by
    rw [hrest, div_lt_div_iff₀ hd' two_pos]
    norm_cast
    omega
  have hmore : 1 / 2 < (n : ℚ) / d - (n / d : ℕ) ↔ d < 2 * (n % d) := by
    rw [hrest, div_lt_div_iff₀ two_pos hd']
    norm_cast
    omega
  simp only [divToEven, nearestEven, Nat.floor_div_eq_div, hless, hmore]

variable {v : ℚ} {q : ℕ}

/-- A natural below a rational stays below what it is rounded to. -/
lemma le_nearestEven (h : q ≤ v) : q ≤ nearestEven v := by
  have hfloor : q ≤ ⌊v⌋₊ := Nat.le_floor h
  rw [nearestEven]
  split_ifs <;> omega

lemma nearestEven_le (h : v ≤ q) : nearestEven v ≤ q := by
  have hfloor : ⌊v⌋₊ ≤ q := Nat.floor_le_of_le h
  rcases hfloor.eq_or_lt with heq | hlt
  · have hrest : v - ⌊v⌋₊ < 1 / 2 := by
      rw [heq]
      linarith
    rw [nearestEven, if_pos hrest]
    exact hfloor
  · rw [nearestEven]
    split_ifs <;> omega

/-- A natural within a half of a rational is what it is rounded to. -/
lemma nearestEven_eq (h : |v - q| < 1 / 2) : nearestEven v = q := by
  obtain ⟨hlow, hhigh⟩ := abs_lt.mp h
  rcases le_or_gt (q : ℚ) v with hge | hlt
  · have hfloor : ⌊v⌋₊ = q := by
      rw [Nat.floor_eq_iff (le_trans (Nat.cast_nonneg q) hge)]
      exact ⟨hge, by linarith⟩
    rw [nearestEven, hfloor, if_pos hhigh]
  · cases q with
    | zero =>
      have hfloor : ⌊v⌋₊ = 0 := Nat.floor_of_nonpos (by simpa using hlt.le)
      rw [nearestEven, hfloor, if_pos (by simpa using hhigh)]
    | succ p =>
      push_cast at hlow hlt
      have hp : (0 : ℚ) ≤ p := Nat.cast_nonneg p
      have hfloor : ⌊v⌋₊ = p := by
        rw [Nat.floor_eq_iff (by linarith)]
        exact ⟨by linarith, hlt⟩
      rw [nearestEven, hfloor, if_neg (by linarith), if_pos (by linarith)]

/-- A rational is nearest to a point of a grid if it is nearer than half of the gap. -/
lemma nearestEven_div {g : ℚ} (hg : 0 < g) (h : |v - q * g| < g / 2) : nearestEven (v / g) = q := by
  have hrest : v / g - q = (v - q * g) / g := by field_simp
  refine nearestEven_eq ?_
  rwa [hrest, abs_div, abs_of_pos hg, div_lt_iff₀ hg, one_div_mul_eq_div]

/-! ### Powers -/

section Powers

variable {b : ℕ} (hb : 0 < b)

include hb

/-- A power with an integer exponent is a quotient of two powers, of which one is 1. -/
lemma zpow_eq_div (e : ℤ) : (b : ℚ) ^ e = b ^ e.toNat / b ^ (-e).toNat := by
  have hb' : (b : ℚ) ≠ 0 := by exact_mod_cast hb.ne'
  rw [← zpow_natCast, ← zpow_natCast, ← zpow_sub₀ hb']
  congr 1
  omega

/-- A quotient times a power, as a quotient of naturals. -/
lemma scaled_div (n d : ℕ) (e : ℤ) :
    ((n * Nat.pow b e.toNat : ℕ) : ℚ) / (d * Nat.pow b (-e).toNat : ℕ) = n / d * b ^ e := by
  rw [zpow_eq_div hb]
  push_cast [Nat.pow_eq]
  rw [mul_div_mul_comm]

/-- A quotient is compared with a power in naturals. -/
lemma scaled_lt_iff (n : ℕ) {d : ℕ} (hd : 0 < d) (e : ℤ) :
    n * Nat.pow b (-e).toNat < d * Nat.pow b e.toNat ↔ (n : ℚ) / d < b ^ e := by
  have hd' : (0 : ℚ) < d := by exact_mod_cast hd
  have hb' : (0 : ℚ) < b := by exact_mod_cast hb
  rw [zpow_eq_div hb, div_lt_div_iff₀ hd' (by positivity), mul_comm (_ ^ _) (d : ℚ)]
  norm_cast

end Powers

namespace Binary64

/-- The rational that a double denotes, without its sign. -/
def magnitude (x : Binary64) : ℚ := x.significand * 2 ^ x.exponent

lemma ratio_snd_pos (x : Binary64) : 0 < x.ratio.2 := Nat.two_pow_pos _

/-- The ratio of a double is its magnitude. -/
lemma ratio_div (x : Binary64) : (x.ratio.1 : ℚ) / x.ratio.2 = x.magnitude := by
  have h := scaled_div two_pos x.significand 1 x.exponent
  rw [one_mul, Nat.cast_one, div_one] at h
  exact h

/-- A double is a zero exactly if its magnitude is 0. -/
lemma isZero_iff {x : Binary64} : x.isZero = true ↔ x.magnitude = 0 := by
  have hpower : (2 : ℚ) ^ x.exponent ≠ 0 := by positivity
  rw [isZero, beq_iff_eq, magnitude, mul_eq_zero_iff_right hpower, Nat.cast_eq_zero]

lemma magnitude_pos {x : Binary64} (hx : x.isZero = false) : 0 < x.magnitude := by
  have hne : x.magnitude ≠ 0 := fun h => by simp [isZero_iff.mpr h] at hx
  have hle : 0 ≤ x.magnitude := by rw [magnitude]; positivity
  exact lt_of_le_of_ne hle hne.symm

/-- Magnitudes of doubles other than zero lie between the least and the greatest power of two. -/
lemma magnitude_bounds {x : Binary64} (hx : x.isZero = false) :
    (2 : ℚ) ^ (-1074 : ℤ) ≤ x.magnitude ∧ x.magnitude < 2 ^ (1024 : ℤ) := by
  obtain ⟨hs53, hleast, hgreatest, -⟩ := x.canonical
  have hs : 1 ≤ x.significand := Nat.pos_of_ne_zero (by simpa [isZero] using hx)
  rw [magnitude]
  constructor
  · calc (2 : ℚ) ^ (-1074 : ℤ) ≤ 2 ^ x.exponent := zpow_le_zpow_right₀ one_le_two hleast
      _ = 1 * 2 ^ x.exponent := (one_mul _).symm
      _ ≤ x.significand * 2 ^ x.exponent := by gcongr; exact_mod_cast hs
  · calc (x.significand : ℚ) * 2 ^ x.exponent < 2 ^ (53 : ℤ) * 2 ^ x.exponent := by
          gcongr
          exact_mod_cast hs53
      _ = 2 ^ (53 + x.exponent) := (zpow_add₀ two_ne_zero _ _).symm
      _ ≤ 2 ^ (1024 : ℤ) := zpow_le_zpow_right₀ one_le_two (by omega)

/-! ### The grid of a rational -/

/-- The exponent of the grid of doubles on which a positive rational is rounded: 53 bits below
the rational, but not below the least exponent. -/
def gridOf (v : ℚ) : ℤ := max (-1074) (Int.log 2 v - 52)

/-- The binary logarithms of numerator and denominator tell that of the quotient up to one. -/
lemma log2_div {n d : ℕ} (hn : 0 < n) (hd : 0 < d) :
    (2 : ℚ) ^ ((n.log2 : ℤ) - d.log2 - 1) < n / d ∧
      (n : ℚ) / d < 2 ^ ((n.log2 : ℤ) - d.log2 + 1) := by
  have hbounds {m : ℕ} (hm : 0 < m) : (2 : ℚ) ^ m.log2 ≤ m ∧ (m : ℚ) < 2 ^ (m.log2 + 1) := by
    constructor
    · exact_mod_cast Nat.log2_self_le hm.ne'
    · exact_mod_cast Nat.lt_log2_self
  have hd' : (0 : ℚ) < d := by exact_mod_cast hd
  obtain ⟨hn₁, hn₂⟩ := hbounds hn
  obtain ⟨hd₁, hd₂⟩ := hbounds hd
  constructor
  · calc (2 : ℚ) ^ ((n.log2 : ℤ) - d.log2 - 1) = 2 ^ n.log2 / 2 ^ (d.log2 + 1) := by
          rw [← zpow_natCast, ← zpow_natCast, ← zpow_sub₀ two_ne_zero]
          congr 1
          push_cast
          ring
      _ ≤ n / 2 ^ (d.log2 + 1) := by gcongr
      _ < n / d := by gcongr
  · calc (n : ℚ) / d < 2 ^ (n.log2 + 1) / 2 ^ d.log2 := by gcongr
      _ = 2 ^ ((n.log2 : ℤ) - d.log2 + 1) := by
          rw [← zpow_natCast, ← zpow_natCast, ← zpow_sub₀ two_ne_zero]
          congr 1
          push_cast
          ring

lemma log_eq {v : ℚ} {k : ℤ} (h : (2 : ℚ) ^ k ≤ v) (h' : v < 2 ^ (k + 1)) : Int.log 2 v = k := by
  have hv : 0 < v := lt_of_lt_of_le (by positivity) h
  refine le_antisymm ?_ ?_
  · exact Int.lt_add_one_iff.mp ((Int.lt_zpow_iff_log_lt one_lt_two hv).mp (by exact_mod_cast h'))
  · exact (Int.zpow_le_iff_le_log one_lt_two hv).mp (by exact_mod_cast h)

/-- So the exponent that is computed from them is that of the grid of the quotient. -/
lemma exponentOf_eq {n d : ℕ} (hn : 0 < n) (hd : 0 < d) :
    exponentOf n d = gridOf (n / d) := by
  have hd' : (0 : ℚ) < d := by exact_mod_cast hd
  obtain ⟨hlow, hhigh⟩ := log2_div hn hd
  rw [exponentOf, gridOf]
  have hfull := scaled_lt_iff two_pos n hd ((n.log2 : ℤ) - d.log2 - 52 + 52)
  rw [Nat.cast_ofNat, sub_add_cancel] at hfull
  simp only [sub_add_cancel, hfull]
  split_ifs with h
  · rw [log_eq hlow.le (by rwa [sub_add_cancel])]
    congr 1
    ring
  · rw [log_eq (not_lt.mp h) hhigh]

/-! ### The nearest double -/

section Carried

variable (negative : Bool) {s : ℕ} {e : ℤ}

/-- The double `± s * 2 ^ e` in normal form, where `s` may have come to `2 ^ 53`. -/
def carried? (s : ℕ) (e : ℤ) : Option Binary64 :=
  let (s, e) := if s = 2 ^ 53 then (2 ^ 52, e + 1) else (s, e)
  if h : IsCanonical s e then some ⟨negative, s, e, h⟩ else none

/-- Below the carry the significand stands as it is. -/
lemma carried?_of_lt (hs : s < 2 ^ 53) : carried? negative s e
    = if h : IsCanonical s e then some ⟨negative, s, e, h⟩ else none := by
  simp only [carried?, if_neg hs.ne]

/-- At the carry the significand is halved. -/
lemma carried?_carry (e : ℤ) :
    carried? negative (2 ^ 53) e = carried? negative (2 ^ 52) (e + 1) := by
  rw [carried?_of_lt negative (by norm_num : 2 ^ 52 < 2 ^ 53)]
  simp only [carried?, if_true]

/-- A double is in normal form. -/
lemma carried?_self (x : Binary64) :
    carried? negative x.significand x.exponent = some { x with negative := negative } := by
  rw [carried?_of_lt negative x.canonical.1, dif_pos x.canonical]

/-- A normal or least significand with an exponent in range makes a double. -/
lemma carried?_isSome (hs : s ≤ 2 ^ 53) (he : -1074 ≤ e) (he' : e ≤ 970)
    (hnormal : 2 ^ 52 ≤ s ∨ e = -1074) : (carried? negative s e).isSome = true := by
  rcases hs.eq_or_lt with rfl | hlt
  · have hcanonical : IsCanonical (2 ^ 52) (e + 1) := by
      simp only [IsCanonical, Nat.pow_eq]
      omega
    rw [carried?_carry, carried?_of_lt negative (by norm_num), dif_pos hcanonical]
    rfl
  · have hcanonical : IsCanonical s e := by
      simp only [IsCanonical, Nat.pow_eq]
      omega
    rw [carried?_of_lt negative hlt, dif_pos hcanonical]
    rfl

variable {negative}

/-- The double that is made has the sign and the magnitude asked for. -/
lemma carried?_eq_some {x : Binary64} (h : carried? negative s e = some x) :
    x.negative = negative ∧ x.magnitude = s * 2 ^ e := by
  by_cases hs : s = 2 ^ 53
  · rw [hs, carried?_carry, carried?_of_lt negative (by norm_num)] at h
    split_ifs at h
    obtain rfl := Option.some.inj h
    refine ⟨rfl, ?_⟩
    rw [magnitude, hs, zpow_add₀ two_ne_zero]
    push_cast
    ring
  · simp only [carried?, if_neg hs] at h
    split_ifs at h
    obtain rfl := Option.some.inj h
    exact ⟨rfl, rfl⟩

end Carried

/-- The double of the given sign nearest to a rational that is not negative. -/
def nearest? (negative : Bool) (v : ℚ) : Option Binary64 :=
  if v = 0 then some (zero negative)
  else carried? negative (nearestEven (v / 2 ^ gridOf v)) (gridOf v)

/-- Rounding a quotient looks only at the rational. -/
theorem ofRatio?_eq (negative : Bool) (n : ℕ) {d : ℕ} (hd : 0 < d) :
    ofRatio? negative n d = nearest? negative (n / d) := by
  rcases n.eq_zero_or_pos with rfl | hn
  · simp [ofRatio?, nearest?]
  · have hne : (n : ℚ) / d ≠ 0 := by positivity
    have hscaled (e : ℤ) : divToEven (n * 2 ^ (-e).toNat) (d * 2 ^ e.toNat)
        = nearestEven (n / d / 2 ^ e) := by
      have h := scaled_div two_pos n d (-e)
      rw [neg_neg, zpow_neg, Nat.cast_ofNat, ← div_eq_mul_inv] at h
      rw [← h]
      exact divToEven_eq _ (Nat.mul_pos hd (Nat.two_pow_pos _))
    simp only [ofRatio?, nearest?, carried?, if_neg hn.ne', if_neg hne, exponentOf_eq hn hd,
      Nat.pow_eq, hscaled]

section Grid

variable {v : ℚ} (hv : 0 < v)

include hv

/-- On its grid a rational has at most 53 bits. -/
lemma lt_grid : v < 2 ^ (gridOf v + 53) := by
  refine (Int.lt_zpow_iff_log_lt one_lt_two hv).mpr ?_
  rw [gridOf]
  omega

/-- On a grid that is not the finest one it has all 53. -/
lemma grid_le (h : -1074 < gridOf v) : 2 ^ (gridOf v + 52) ≤ v := by
  refine (Int.zpow_le_iff_le_log one_lt_two hv).mpr ?_
  rw [gridOf] at h ⊢
  omega

omit hv in
/-- No grid is finer than that of the least double. -/
lemma le_gridOf (v : ℚ) : -1074 ≤ gridOf v := le_max_left _ _

/-- A small rational has a fine grid. -/
lemma gridOf_le {k : ℤ} (hk : -1074 ≤ k) (h : v < 2 ^ (k + 53)) : gridOf v ≤ k := by
  have hlog : Int.log 2 v < k + 53 :=
    (Int.lt_zpow_iff_log_lt one_lt_two hv).mp (by exact_mod_cast h)
  rw [gridOf]
  omega

/-- Rounding may carry the significand to `2 ^ 53`, but not beyond. -/
lemma significand_le : nearestEven (v / 2 ^ gridOf v) ≤ 2 ^ 53 := by
  refine nearestEven_le ?_
  rw [div_le_iff₀ (by positivity)]
  refine (lt_grid hv).le.trans_eq ?_
  rw [zpow_add₀ two_ne_zero]
  push_cast
  ring

/-- The rounded significand is normal, unless the grid is the finest one. -/
lemma le_significand : 2 ^ 52 ≤ nearestEven (v / 2 ^ gridOf v) ∨ gridOf v = -1074 := by
  rcases (le_gridOf v).eq_or_lt with heq | hlt
  · exact .inr heq.symm
  · refine .inl (le_nearestEven ?_)
    rw [le_div_iff₀ (by positivity)]
    refine Eq.trans_le ?_ (grid_le hv hlt)
    rw [zpow_add₀ two_ne_zero]
    push_cast
    ring

lemma nearest?_of_pos (negative : Bool) : nearest? negative v
    = carried? negative (nearestEven (v / 2 ^ gridOf v)) (gridOf v) := by
  rw [nearest?, if_neg hv.ne']

/-- A rational well below the greatest double is in the range of doubles. -/
theorem nearest?_isSome (negative : Bool) {k : ℤ} (hk : k ≤ 1023) (h : v < 2 ^ k) :
    (nearest? negative v).isSome = true := by
  have hhigh : gridOf v ≤ 970 :=
    gridOf_le hv (by norm_num) (h.trans_le (zpow_le_zpow_right₀ one_le_two (by omega)))
  rw [nearest?_of_pos hv]
  exact carried?_isSome negative (significand_le hv) (le_gridOf v) hhigh (le_significand hv)

section Bounds

variable {negative : Bool} {x : Binary64} (h : nearest? negative v = some x) {k : ℤ}
  (hk : -1074 ≤ k)

include h

/-- The nearest double is the rational rounded on its grid. -/
lemma magnitude_eq : x.magnitude = nearestEven (v / 2 ^ gridOf v) * 2 ^ gridOf v := by
  rw [nearest?_of_pos hv] at h
  exact (carried?_eq_some h).2

include hk

/-- Rounding does not go beyond the next power of two. -/
theorem magnitude_le (hle : v < 2 ^ k) : x.magnitude ≤ 2 ^ k := by
  have hgrid : gridOf v ≤ k :=
    gridOf_le hv hk (hle.trans (zpow_lt_zpow_right₀ one_lt_two (by omega)))
  obtain ⟨j, rfl⟩ := Int.le.dest hgrid
  rw [magnitude_eq hv h, add_comm, zpow_add₀ two_ne_zero, zpow_natCast]
  rw [add_comm, zpow_add₀ two_ne_zero, zpow_natCast, ← div_lt_iff₀ (by positivity)] at hle
  gcongr
  exact_mod_cast nearestEven_le (by exact_mod_cast hle.le)

/-- Rounding does not go below the last power of two. -/
theorem le_magnitude (hle : 2 ^ k ≤ v) : 2 ^ k ≤ x.magnitude := by
  rw [magnitude_eq hv h]
  rcases le_or_gt (gridOf v) k with hgrid | hgrid
  · obtain ⟨j, rfl⟩ := Int.le.dest hgrid
    rw [add_comm, zpow_add₀ two_ne_zero, zpow_natCast] at hle ⊢
    rw [← le_div_iff₀ (by positivity)] at hle
    gcongr
    exact_mod_cast le_nearestEven (by exact_mod_cast hle)
  · have hnormal := (le_significand hv).resolve_right (by omega)
    calc (2 : ℚ) ^ k ≤ 2 ^ gridOf v := zpow_le_zpow_right₀ one_le_two hgrid.le
      _ = 1 * 2 ^ gridOf v := (one_mul _).symm
      _ ≤ nearestEven (v / 2 ^ gridOf v) * 2 ^ gridOf v := by
          gcongr
          exact_mod_cast le_trans (by norm_num) hnormal

end Bounds

end Grid

section Limits

variable (negative : Bool) {v : ℚ}

/-- Rounding looks at the magnitude, and the sign is put on afterwards. -/
lemma nearest?_eq_map (v : ℚ) :
    nearest? negative v = (nearest? false v).map fun x => { x with negative := negative } := by
  have hcarried (s : ℕ) (e : ℤ) : carried? negative s e
      = (carried? false s e).map fun x => { x with negative := negative } := by
    rw [carried?, carried?]
    dsimp only
    split_ifs <;> rfl
  rw [nearest?, nearest?]
  split_ifs
  · rfl
  · exact hcarried _ _

/-- Nothing from `2 ^ 1024` on is rounded to a double. -/
lemma nearest?_eq_none (h : 2 ^ (1024 : ℤ) ≤ v) : nearest? negative v = none := by
  have hv : 0 < v := lt_of_lt_of_le (by positivity) h
  refine Option.eq_none_iff_forall_ne_some.mpr fun x hx => ?_
  have hge := le_magnitude hv hx (by norm_num) h
  cases hzero : x.isZero with
  | true =>
    rw [isZero_iff.mp hzero] at hge
    exact absurd hge (not_le.mpr (by positivity))
  | false => exact absurd (magnitude_bounds hzero).2 (not_lt.mpr hge)

/-- Less than half of the least double is rounded to zero. -/
lemma nearest?_eq_zero (hv : 0 < v) (h : v < 2 ^ (-1075 : ℤ)) :
    nearest? negative v = some (zero negative) := by
  have hgrid : gridOf v = -1074 :=
    le_antisymm (gridOf_le hv le_rfl (h.trans (zpow_lt_zpow_right₀ one_lt_two (by norm_num))))
      (le_gridOf v)
  have hpower : (0 : ℚ) < 2 ^ (-1074 : ℤ) := by positivity
  have hhalf : (2 : ℚ) ^ (-1075 : ℤ) = 2 ^ (-1074 : ℤ) / 2 := by
    rw [show (-1075 : ℤ) = -1074 - 1 by norm_num, zpow_sub_one₀ two_ne_zero]
    rfl
  have hsignificand : nearestEven (v / 2 ^ (-1074 : ℤ)) = 0 := by
    refine nearestEven_div hpower ?_
    rw [Nat.cast_zero, zero_mul, sub_zero, abs_of_pos hv]
    exact h.trans_eq hhalf
  rw [nearest?_of_pos hv, hgrid, hsignificand]
  exact carried?_self negative (zero negative)

end Limits

/-- The double nearest to an integer is that of its magnitude. -/
lemma ofInt?_eq (n : ℤ) : ofInt? n = nearest? (decide (n < 0)) n.natAbs := by
  rw [ofInt?, ofRatio?_eq _ _ one_pos, Nat.cast_one, div_one]

/-- Integers well below the greatest double have a nearest one. -/
lemma isSome_ofInt? {n : ℤ} {k : ℤ} (hk : k ≤ 1023) (h : (n.natAbs : ℚ) < 2 ^ k) :
    (ofInt? n).isSome = true := by
  rcases eq_or_ne n 0 with rfl | hne
  · rfl
  · rw [ofInt?_eq]
    exact nearest?_isSome (by exact_mod_cast Int.natAbs_pos.mpr hne) _ hk h

section Close

variable (negative : Bool) {v : ℚ} {e : ℤ}

/-- Just below a power of two the grid is finer, and rounding comes back to the power. -/
lemma nearest?_below_power (hleast : -1074 < e) (hlow : 2 ^ 52 * 2 ^ e - v < 2 ^ e / 4)
    (hhigh : v < 2 ^ 52 * 2 ^ e) : nearest? negative v = carried? negative (2 ^ 52) e := by
  have hhalf : (2 : ℚ) ^ e = 2 ^ (e - 1) * 2 := by rw [← zpow_add_one₀ two_ne_zero, sub_add_cancel]
  rw [hhalf] at hlow hhigh
  have hpower : (0 : ℚ) < 2 ^ (e - 1) := by positivity
  have hv : 0 < v := by
    norm_num at hlow
    linarith
  have hgrid : gridOf v = e - 1 := by
    refine le_antisymm (gridOf_le hv (by omega) ?_) ?_
    · rw [zpow_add₀ two_ne_zero]
      norm_num at hhigh ⊢
      linarith
    · have hlog : e + 51 ≤ Int.log 2 v := by
        refine (Int.zpow_le_iff_le_log one_lt_two hv).mp ?_
        rw [show e + 51 = e - 1 + 52 by ring, zpow_add₀ (by norm_num)]
        norm_num at hlow ⊢
        linarith
      rw [gridOf]
      omega
  have hsignificand : nearestEven (v / 2 ^ (e - 1)) = 2 ^ 53 := by
    refine nearestEven_div hpower (abs_lt.mpr ⟨?_, ?_⟩) <;> norm_num at hlow hhigh ⊢ <;> linarith
  rw [nearest?_of_pos hv, hgrid, hsignificand, carried?_carry, sub_add_cancel]

/-- A rational is rounded to a double if it is nearer to it than half of the gap above it.  At
a power of two the gap below is half as wide. -/
theorem nearest?_of_close {x : Binary64} (hx : x.isZero = false)
    (hclose : |v - x.magnitude| < 2 ^ x.exponent / 2)
    (hbelow : x.significand = 2 ^ 52 → x.magnitude - v < 2 ^ x.exponent / 4) :
    nearest? negative v = some { x with negative := negative } := by
  obtain ⟨hs53, hleast, -, hnormal⟩ := x.canonical
  rw [← carried?_self negative x]
  have hs : 0 < x.significand := Nat.pos_of_ne_zero (by simpa [isZero] using hx)
  rw [magnitude] at hclose hbelow
  obtain ⟨hlow, hhigh⟩ := abs_lt.mp hclose
  generalize x.significand = s, x.exponent = e at *
  simp only [Nat.pow_eq] at hs53 hnormal
  have hpower : (0 : ℚ) < 2 ^ e := by positivity
  have hs' : (1 : ℚ) ≤ s := by exact_mod_cast hs
  have hv : 0 < v := by nlinarith
  have hgrid : gridOf v ≤ e := by
    refine gridOf_le hv hleast ?_
    have hs53' : (s : ℚ) + 1 ≤ 2 ^ 53 := by exact_mod_cast hs53
    rw [zpow_add₀ two_ne_zero]
    norm_num at hs53' ⊢
    nlinarith
  rcases hgrid.eq_or_lt with heq | hlt
  · rw [nearest?_of_pos hv, heq, nearestEven_div hpower hclose]
  · -- On a finer grid the rational lies below the power of two that the double is.
    have hleast' := le_gridOf v
    have hv52 : v < 2 ^ 52 * 2 ^ e := by
      refine (lt_grid hv).trans_le ?_
      rw [mul_comm, ← zpow_natCast, ← zpow_add₀ two_ne_zero]
      exact zpow_le_zpow_right₀ one_le_two (by push_cast; omega)
    have hs52 : s = 2 ^ 52 := by
      have hle : (s : ℚ) < 2 ^ 52 + 1 := by nlinarith
      have hle' : s < 2 ^ 52 + 1 := by exact_mod_cast hle
      omega
    have hquarter := hbelow hs52
    rw [hs52] at hquarter ⊢
    exact nearest?_below_power negative (by omega) (by exact_mod_cast hquarter) hv52

end Close

end Binary64

end Verdict
