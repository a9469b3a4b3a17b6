/-
The shortest decimal of a double.

Of the grids of one, two, ... decimal digits the one of seventeen is finer than the gaps between
doubles, so the search on these grids always finds a decimal that is rounded to the double.  The
decimal that a double is written with therefore has at most seventeen digits and determines the
double.

* `Binary64.readsBack_iff`: a decimal reads back if it is rounded to the double.
* `Binary64.ofDecimal?_eq`: the double of a decimal is the nearest one.
* `Binary64.orderBound_bounds`: the power of ten next above a double.
* `Binary64.exists_close`, `Binary64.exists_found`: seventeen digits always read back.
* `Binary64.dropZeros_eq`: trailing zeros are moved into the power of ten.
* `Binary64.shortest_reads_back`: the shortest decimal is rounded to the double.
-/
import Verdict.Proofs.Number.Nearest

namespace Verdict
namespace Binary64

variable {x : Binary64}

/-! ### Reading back -/

lemma decimal_div (digits : ℕ) (exponent : ℤ) :
    ((digits * Nat.pow 10 exponent.toNat : ℕ) : ℚ) / (Nat.pow 10 (-exponent).toNat : ℕ)
      = digits * 10 ^ exponent := by
  have h := scaled_div (b := 10) (by norm_num) digits 1 exponent
  rwa [one_mul, Nat.cast_one, div_one] at h

/-- A decimal reads back as a double if it is rounded to its magnitude. -/
lemma readsBack_iff {digits : ℕ} {exponent : ℤ} : x.readsBack digits exponent = true ↔
    nearest? false (digits * 10 ^ exponent) = some { x with negative := false } := by
  have hpower : 0 < Nat.pow 10 (-exponent).toNat := Nat.pow_pos (by norm_num)
  rw [readsBack, beq_iff_eq, ofRatio?_eq _ _ hpower, decimal_div]

/-! ### Decimals and powers of two -/

/-- A decimal logarithm is estimated from a binary one: `2 ^ 10000` has 3011 digits. -/
lemma ten_zpow_le {a b : ℤ} (h : 10000 * a ≤ 3010 * b) (h' : 10000 * a ≤ 3011 * b) :
    (10 : ℚ) ^ a ≤ 2 ^ b := by
  have hlow : (10 : ℕ) ^ 3010 ≤ 2 ^ 10000 := by decide +kernel
  have hhigh : (2 : ℕ) ^ 10000 ≤ 10 ^ 3011 := by decide +kernel
  have hlow' : (10 : ℚ) ^ (3010 : ℤ) ≤ 2 ^ (10000 : ℤ) := by exact_mod_cast hlow
  have hhigh' : (2 : ℚ) ^ (10000 : ℤ) ≤ 10 ^ (3011 : ℤ) := by exact_mod_cast hhigh
  have hpower : ((10 : ℚ) ^ a) ^ (10000 : ℤ) ≤ ((2 : ℚ) ^ b) ^ (10000 : ℤ) := by
    rw [← zpow_mul, ← zpow_mul, mul_comm b, zpow_mul 2]
    rcases le_total 0 b with hb | hb
    · calc (10 : ℚ) ^ (a * 10000) ≤ 10 ^ (3010 * b) :=
            zpow_le_zpow_right₀ (by norm_num) (by omega)
        _ = (10 ^ (3010 : ℤ)) ^ b := zpow_mul _ _ _
        _ ≤ (2 ^ (10000 : ℤ)) ^ b := zpow_le_zpow_left₀ hb (by positivity) hlow'
    · calc (10 : ℚ) ^ (a * 10000) ≤ 10 ^ (3011 * b) :=
            zpow_le_zpow_right₀ (by norm_num) (by omega)
        _ = ((10 ^ (3011 : ℤ)) ^ (-b))⁻¹ := by rw [zpow_mul, zpow_neg, inv_inv]
        _ ≤ ((2 ^ (10000 : ℤ)) ^ (-b))⁻¹ :=
            inv_anti₀ (by positivity) (zpow_le_zpow_left₀ (by omega) (by positivity) hhigh')
        _ = (2 ^ (10000 : ℤ)) ^ b := by rw [zpow_neg, inv_inv]
  exact (zpow_le_zpow_iff_left₀ (by positivity) (by positivity) (by norm_num)).mp hpower

lemma two_zpow_le {a b : ℤ} (h : 3010 * b ≤ 10000 * a) (h' : 3011 * b ≤ 10000 * a) :
    (2 : ℚ) ^ b ≤ 10 ^ a := by
  have hinverse := ten_zpow_le (a := -a) (b := -b) (by omega) (by omega)
  rw [zpow_neg, zpow_neg] at hinverse
  exact (inv_le_inv₀ (by positivity) (by positivity)).mp hinverse

/-- The first digit of a decimal stands at the power of ten below it. -/
lemma decimal_order_bounds {digits : ℕ} (hdigits : 0 < digits) (exponent : ℤ) :
    (10 : ℚ) ^ (exponent + (Nat.toDigits 10 digits).length - 1) ≤ digits * 10 ^ exponent ∧
      digits * 10 ^ exponent < (10 : ℚ) ^ (exponent + (Nat.toDigits 10 digits).length - 1 + 1) := by
  generalize hlength : (Nat.toDigits 10 digits).length = length
  have hpos : 0 < length := hlength ▸ Nat.length_toDigits_pos
  have hlow : 10 ^ (length - 1) ≤ digits := by
    rcases (length - 1).eq_zero_or_pos with hzero | hmore
    · rw [hzero]
      exact hdigits
    · rw [← not_lt, ← Nat.length_toDigits_le_iff (by norm_num) hmore, hlength]
      omega
  have hhigh : digits < 10 ^ length :=
    (Nat.length_toDigits_le_iff (by norm_num) hpos).mp hlength.le
  have hlow' : (10 : ℚ) ^ ((length - 1 : ℕ) : ℤ) ≤ digits := by exact_mod_cast hlow
  have hhigh' : (digits : ℚ) < 10 ^ (length : ℤ) := by exact_mod_cast hhigh
  constructor
  · rw [show exponent + length - 1 = ((length - 1 : ℕ) : ℤ) + exponent by omega,
      zpow_add₀ (by norm_num)]
    gcongr
  · rw [show exponent + length - 1 + 1 = length + exponent by omega, zpow_add₀ (by norm_num)]
    gcongr

/-- Rounding a decimal looks only at its rational, also where it is answered beforehand. -/
theorem ofDecimal?_eq (negative : Bool) (digits : ℕ) (exponent : ℤ) :
    ofDecimal? negative digits exponent = nearest? negative (digits * 10 ^ exponent) := by
  rcases digits.eq_zero_or_pos with rfl | hdigits
  · simp [ofDecimal?, nearest?]
  · obtain ⟨hlow, hhigh⟩ := decimal_order_bounds hdigits exponent
    have hpos : (0 : ℚ) < digits * 10 ^ exponent := by positivity
    rw [ofDecimal?]
    generalize exponent + ((Nat.toDigits 10 digits).length : ℤ) = order at hlow hhigh ⊢
    split_ifs with hsmall hlarge
    · refine (nearest?_eq_zero negative hpos (hhigh.trans_le ?_)).symm
      calc (10 : ℚ) ^ (order - 1 + 1) ≤ 10 ^ (-400 : ℤ) :=
            zpow_le_zpow_right₀ (by norm_num) (by omega)
        _ ≤ 2 ^ (-1075 : ℤ) := ten_zpow_le (by norm_num) (by norm_num)
    · refine (nearest?_eq_none negative (le_trans ?_ hlow)).symm
      calc (2 : ℚ) ^ (1024 : ℤ) ≤ 10 ^ (400 : ℤ) := two_zpow_le (by norm_num) (by norm_num)
        _ ≤ 10 ^ (order - 1) := zpow_le_zpow_right₀ (by norm_num) (by omega)
    · have hpower : 0 < Nat.pow 10 (-exponent).toNat := Nat.pow_pos (by norm_num)
      rw [ofRatio?_eq negative _ hpower, decimal_div]

/-! ### The power of ten above a double -/

/-- The magnitude of a double other than zero lies between its power of ten and the last one. -/
theorem orderBound_bounds (hx : x.isZero = false) :
    (10 : ℚ) ^ (x.orderBound - 1) ≤ x.magnitude ∧ x.magnitude < 10 ^ x.orderBound := by
  have hd : 0 < x.ratio.2 := x.ratio_snd_pos
  have hn : 0 < x.ratio.1 := by
    have hpos := magnitude_pos hx
    rw [← ratio_div] at hpos
    exact_mod_cast (div_pos_iff_of_pos_right (by exact_mod_cast hd)).mp hpos
  obtain ⟨hleast, hgreatest⟩ := magnitude_bounds hx
  obtain ⟨hlow, hhigh⟩ := log2_div hn hd
  have habove (k : ℤ) := scaled_lt_iff (b := 10) (by norm_num) x.ratio.1 hd k
  rw [ratio_div] at hlow hhigh
  simp only [ratio_div, Nat.cast_ofNat] at habove
  rw [orderBound]
  simp only [habove, decide_eq_true_eq]
  generalize hl : (x.ratio.1.log2 : ℤ) - x.ratio.2.log2 = l at hlow hhigh ⊢
  have hl₁ : -1074 < l + 1 :=
    (zpow_lt_zpow_iff_right₀ one_lt_two).mp (hleast.trans_lt hhigh)
  have hl₂ : l - 1 < 1024 :=
    (zpow_lt_zpow_iff_right₀ one_lt_two).mp (hlow.trans hgreatest)
  generalize hg : l * 30103 / 100000 - 1 = g
  have hbelow : (10 : ℚ) ^ g ≤ x.magnitude := (ten_zpow_le (by omega) (by omega)).trans hlow.le
  have hbeyond : x.magnitude < 10 ^ (g + 3) :=
    hhigh.trans_le (two_zpow_le (by omega) (by omega))
  rw [if_neg (not_lt.mpr hbelow)]
  split_ifs with h₁ h₂
  · exact ⟨by rwa [add_sub_cancel_right], h₁⟩
  · exact ⟨by rw [show g + 2 - 1 = g + 1 by ring]; exact not_lt.mp h₁, h₂⟩
  · exact ⟨by rw [show g + 3 - 1 = g + 2 by ring]; exact not_lt.mp h₂, hbeyond⟩

/-! ### Grids of decimals -/

/-- On a grid of sixteen digits or more below a double one of its two neighbours is rounded to
it. -/
lemma exists_close (hx : x.isZero = false) {k : ℤ} (hk : (10 : ℚ) ^ (k + 16) ≤ x.magnitude) :
    x.readsBack ⌊x.magnitude / 10 ^ k⌋₊ k = true ∨
      x.readsBack (⌊x.magnitude / 10 ^ k⌋₊ + 1) k = true := by
  obtain ⟨hs53, -⟩ := x.canonical
  have hpower : (0 : ℚ) < 2 ^ x.exponent := by positivity
  have hgrid : (0 : ℚ) < 10 ^ k := by positivity
  -- The grid is finer than the gap above the double, and than twice the gap below a power of two.
  have hfine : (10 : ℚ) ^ k * 10 ^ 16 ≤ x.significand * 2 ^ x.exponent := by
    rw [zpow_add₀ (by norm_num)] at hk
    exact_mod_cast hk
  have hs53' : (x.significand : ℚ) < 9007199254740992 := by exact_mod_cast hs53
  have hgap : (10 : ℚ) ^ k < 2 ^ x.exponent := by nlinarith
  have hgap' (hs : x.significand = 2 ^ 52) : (10 : ℚ) ^ k < 2 ^ x.exponent / 2 := by
    rw [hs] at hfine
    norm_num at hfine
    linarith
  have hclose {digits : ℕ} (h : |(digits : ℚ) * 10 ^ k - x.magnitude| ≤ 10 ^ k / 2) :
      x.readsBack digits k = true := by
    refine readsBack_iff.mpr (nearest?_of_close false hx (by linarith) fun hs => ?_)
    have hbelow := (abs_le.mp h).1
    have hhalf := hgap' hs
    linarith
  have hlow : (⌊x.magnitude / 10 ^ k⌋₊ : ℚ) * 10 ^ k ≤ x.magnitude := by
    rw [← le_div_iff₀ hgrid]
    exact Nat.floor_le (div_nonneg (magnitude_pos hx).le hgrid.le)
  have hhigh : x.magnitude < ((⌊x.magnitude / 10 ^ k⌋₊ + 1 : ℕ) : ℚ) * 10 ^ k := by
    rw [← div_lt_iff₀ hgrid]
    exact_mod_cast Nat.lt_floor_add_one _
  push_cast at hhigh
  rcases le_or_gt (x.magnitude - ⌊x.magnitude / 10 ^ k⌋₊ * 10 ^ k) (10 ^ k / 2) with hnear | hfar
  · exact .inl (hclose (abs_le.mpr ⟨by linarith, by linarith⟩))
  · refine .inr (hclose (abs_le.mpr ⟨?_, ?_⟩)) <;> push_cast <;> linarith

lemma floor_eq (x : Binary64) (k : ℤ) :
    x.ratio.1 * Nat.pow 10 (-k).toNat / (x.ratio.2 * Nat.pow 10 k.toNat)
      = ⌊x.magnitude / 10 ^ k⌋₊ := by
  have h := scaled_div (b := 10) (by norm_num) x.ratio.1 x.ratio.2 (-k)
  rw [neg_neg, ratio_div, zpow_neg, Nat.cast_ofNat, ← div_eq_mul_inv] at h
  rw [← h, Nat.floor_div_eq_div]

lemma divToEven_cases (n d : ℕ) : divToEven n d = n / d ∨ divToEven n d = n / d + 1 := by
  rw [divToEven]
  split_ifs <;> simp

/-- What is found on a grid is one of the two neighbours, and reads back. -/
lemma onGrid?_eq_some {k : ℤ} {found : ℕ × ℤ} (h : x.onGrid? k = some found) :
    found.2 = k ∧ found.1 ≤ ⌊x.magnitude / 10 ^ k⌋₊ + 1 ∧
      x.readsBack found.1 found.2 = true := by
  have hcases := divToEven_cases (x.ratio.1 * Nat.pow 10 (-k).toNat)
    (x.ratio.2 * Nat.pow 10 k.toNat)
  rw [onGrid?] at h
  simp only [floor_eq] at h hcases
  cases hlow : x.readsBack ⌊x.magnitude / 10 ^ k⌋₊ k <;>
    cases hhigh : x.readsBack (⌊x.magnitude / 10 ^ k⌋₊ + 1) k <;>
    simp only [hlow, hhigh, Option.some.injEq, reduceCtorEq] at h <;> subst h
  · exact ⟨rfl, le_rfl, hhigh⟩
  · exact ⟨rfl, Nat.le_succ _, hlow⟩
  · rcases hcases with heq | heq <;> rw [heq]
    · exact ⟨rfl, Nat.le_succ _, hlow⟩
    · exact ⟨rfl, le_rfl, hhigh⟩

lemma onGrid?_isSome {k : ℤ} (h : x.readsBack ⌊x.magnitude / 10 ^ k⌋₊ k = true ∨
    x.readsBack (⌊x.magnitude / 10 ^ k⌋₊ + 1) k = true) : (x.onGrid? k).isSome = true := by
  rw [onGrid?]
  simp only [floor_eq]
  rcases h with h | h
  · cases x.readsBack (⌊x.magnitude / 10 ^ k⌋₊ + 1) k <;> simp [h]
  · cases x.readsBack ⌊x.magnitude / 10 ^ k⌋₊ k <;> simp [h]

/-! ### The shortest decimal -/

/-- Moving trailing zeros into the power of ten keeps the value and leaves no zero at the end. -/
lemma dropZeros_eq (digits : ℕ) (exponent : ℤ) (hdigits : 0 < digits) :
    ((dropZeros digits exponent).1 : ℚ) * 10 ^ (dropZeros digits exponent).2
        = digits * 10 ^ exponent ∧
      0 < (dropZeros digits exponent).1 ∧ (dropZeros digits exponent).1 ≤ digits ∧
      (dropZeros digits exponent).1 % 10 ≠ 0 := by
  induction digits, exponent using dropZeros.induct with
  | case1 digits exponent h ih =>
    obtain ⟨hvalue, hpos, hle, hlast⟩ := ih (by omega)
    rw [dropZeros, if_pos h]
    refine ⟨?_, hpos, by omega, hlast⟩
    have hsplit : (digits : ℚ) = (digits / 10 : ℕ) * 10 := by
      exact_mod_cast (Nat.div_mul_cancel (Nat.dvd_of_mod_eq_zero h.2)).symm
    rw [hvalue, hsplit, zpow_add_one₀ (by norm_num)]
    ring
  | case2 digits exponent h =>
    rw [dropZeros, if_neg h]
    exact ⟨rfl, hdigits, le_rfl, fun hlast => h ⟨hdigits.ne', hlast⟩⟩

/-- The search on the grids of one to seventeen digits finds a decimal. -/
lemma exists_found (hx : x.isZero = false) : ∃ found : ℕ × ℤ,
    ((List.range 17).findSome? fun n => x.onGrid? (x.orderBound - ((n + 1 : ℕ) : ℤ)))
      = some found ∧ x.readsBack found.1 found.2 = true ∧ found.1 ≤ 10 ^ 17 := by
  obtain ⟨hlow, hhigh⟩ := orderBound_bounds hx
  have hseventeen : (x.onGrid? (x.orderBound - ((16 + 1 : ℕ) : ℤ))).isSome = true := by
    refine onGrid?_isSome (exists_close hx ?_)
    rwa [show x.orderBound - ((16 + 1 : ℕ) : ℤ) + 16 = x.orderBound - 1 by push_cast; ring]
  generalize hsearch : ((List.range 17).findSome? fun n =>
    x.onGrid? (x.orderBound - ((n + 1 : ℕ) : ℤ))) = search
  cases search with
  | none =>
    rw [List.findSome?_eq_none_iff] at hsearch
    rw [hsearch 16 (by simp)] at hseventeen
    simp at hseventeen
  | some found =>
    obtain ⟨n, hn, hgrid⟩ := List.exists_of_findSome?_eq_some hsearch
    obtain ⟨-, hle, hread⟩ := onGrid?_eq_some hgrid
    refine ⟨found, rfl, hread, hle.trans ?_⟩
    have hdigits : x.magnitude / 10 ^ (x.orderBound - ((n + 1 : ℕ) : ℤ)) < (10 ^ (n + 1) : ℕ) := by
      rw [div_lt_iff₀ (by positivity)]
      refine hhigh.trans_eq ?_
      push_cast
      rw [← zpow_natCast, ← zpow_add₀ (by norm_num)]
      congr 1
      push_cast
      ring
    have hfloor := (Nat.floor_lt' (by positivity)).mpr hdigits
    calc _ ≤ 10 ^ (n + 1) := hfloor
      _ ≤ 10 ^ 17 := Nat.pow_le_pow_right (by norm_num) (by simpa using hn)

lemma digits_pos (hx : x.isZero = false) {digits : ℕ} {exponent : ℤ}
    (h : x.readsBack digits exponent = true) : 0 < digits := by
  refine Nat.pos_of_ne_zero fun hzero => ?_
  rw [readsBack_iff, hzero, nearest?, if_pos (by simp), Option.some.injEq] at h
  have hsignificand : x.significand = 0 := (congrArg Binary64.significand h).symm
  simp [isZero, hsignificand] at hx

/-- The shortest decimal of a double has at most seventeen digits, does not end in a zero and is
rounded to the double. -/
theorem shortest_reads_back (hx : x.isZero = false) :
    nearest? false (x.shortest.1 * 10 ^ x.shortest.2) = some { x with negative := false } ∧
      0 < x.shortest.1 ∧ x.shortest.1 < 10 ^ 17 ∧ x.shortest.1 % 10 ≠ 0 := by
  obtain ⟨found, hfound, hread, hle⟩ := exists_found hx
  have hshortest : x.shortest = dropZeros found.1 found.2 := by
    simp only [shortest, hx, hfound, Option.getD_some, Bool.false_eq_true, if_false]
  obtain ⟨hvalue, hdigits, hle', hlast⟩ := dropZeros_eq found.1 found.2 (digits_pos hx hread)
  rw [hshortest, hvalue]
  refine ⟨readsBack_iff.mp hread, hdigits, ?_, hlast⟩
  refine (hle'.trans hle).lt_of_ne fun heq => hlast ?_
  rw [heq]
  rfl

end Binary64
end Verdict
