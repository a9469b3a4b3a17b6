/-
Slices of a sequence.

A slice is walked along with numbers of 64 bits.  They hold all bounds, and wherever they do
not hold the next position, the walk is over anyway; so what is selected is the slice over
unbounded integers.

* `strideCount`, `pythonStart`, `pythonStop`, `pythonSlice`: a slice as Python defines it.
* `Before`, `lt_strideCount_iff`: how far a slice goes.
* `toInt_fromEnd`, `toInt_sliceBounds`: the bounds are exact.
* `Inwards`, `walk_eq`, `walk_slice`: the positions that are walked along.
* `SliceSound`: nothing overflows, no position is out of range, and the walk ends.
* `slice_eq_pythonSlice`: slices of sequences, of arrays and of fan-outs.
* `slice_eq_pythonSlice_extreme`: the greatest and the least stride.
-/
import Mathlib
import Verdict.Selection.Structural

namespace Verdict

/-! ### Slices in Python -/

/-- How many of the numbers `i`, `i + k`, `i + 2 * k`, ... are in reach before `j`: they are
the numbers `i + m * k` with `0 ≤ m < (j - i) / k`. -/
def strideCount (i j k : Int) : Nat := ⌈((j - i : Int) : ℚ) / k⌉.toNat

/-- A bound of a slice of `n` items: the default if it is absent, and otherwise counted from
the end if it is negative, and held between two limits. -/
def pythonBound (n : Nat) (low high default : Int) : Option Int → Int
  | none => default
  | some b => max low (min (if b < 0 then b + n else b) high)

/-- Where a slice of `n` items with the stride `k` starts: by default at the first item, or
at the last one if it goes backwards. -/
def pythonStart (n : Nat) (k : Int) (start : Option Int) : Int :=
  if 0 < k then pythonBound n 0 n 0 start else pythonBound n (-1) (n - 1) (n - 1) start

/-- Where it stops, by default behind the last item, or before the first one if it goes
backwards. -/
def pythonStop (n : Nat) (k : Int) (stop : Option Int) : Int :=
  if 0 < k then pythonBound n 0 n n stop else pythonBound n (-1) (n - 1) (-1) stop

/-- What `items[start:stop:stride]` is in Python, over unbounded integers: the items at the
numbers from the start on in steps of the stride, which is by default one. -/
def pythonSlice {α : Type} (items : List α) (start stop stride : Option Int) : List α :=
  let k := stride.getD 1
  let i := pythonStart items.length k start
  let j := pythonStop items.length k stop
  (List.range (strideCount i j k)).filterMap fun (m : Nat) => items[(i + m * k).toNat]?

example : pythonSlice [0, 1, 2, 3, 4, 5] (some 4) none (some (-2)) = [4, 2, 0] := by cbv

/-! ### How far a slice goes -/

/-- The number `i` stands before `j` in the direction of `k`. -/
def Before (k i j : Int) : Prop := if 0 < k then i < j else j < i

variable {i j k : Int}

lemma before_of_pos (hk : 0 < k) : Before k i j ↔ i < j := by rw [Before, if_pos hk]

lemma before_of_neg (hk : k < 0) : Before k i j ↔ j < i := by rw [Before, if_neg (by omega)]

lemma lt_strideCount_iff (hk : k ≠ 0) (m : Nat) :
    m < strideCount i j k ↔ Before k (i + m * k) j := by
  rw [strideCount, Int.lt_toNat, Int.lt_ceil]
  rcases lt_or_gt_of_ne hk with hneg | hpos
  · rw [before_of_neg hneg, lt_div_iff_of_neg (by exact_mod_cast hneg)]
    norm_cast
    omega
  · rw [before_of_pos hpos, lt_div_iff₀ (by exact_mod_cast hpos)]
    norm_cast
    omega

lemma strideCount_eq_zero (hk : k ≠ 0) (h : ¬ Before k i j) : strideCount i j k = 0 := by
  have hfirst := lt_strideCount_iff (i := i) (j := j) hk 0
  rw [Nat.cast_zero, Int.zero_mul, Int.add_zero] at hfirst
  by_contra hne
  exact h (hfirst.mp (Nat.pos_of_ne_zero hne))

/-- With every number that is before the bound, one more is in reach. -/
lemma strideCount_eq_succ (hk : k ≠ 0) (h : Before k i j) :
    strideCount i j k = strideCount (i + k) j k + 1 := by
  have hfirst : 0 < strideCount i j k := by
    rw [lt_strideCount_iff hk, Nat.cast_zero, Int.zero_mul, Int.add_zero]
    exact h
  have hnext (m : Nat) : m < strideCount (i + k) j k ↔ m + 1 < strideCount i j k := by
    rw [lt_strideCount_iff hk, lt_strideCount_iff hk, Nat.cast_add_one]
    ring_nf
  have := hnext (strideCount (i + k) j k)
  have := hnext (strideCount i j k - 1)
  have := hnext (strideCount i j k - 2)
  omega

/-! ### Numbers of 64 bits -/

section Words

variable {a b : Int64}

lemma toInt_of_checkedAdd? {sum : Int64} (h : checkedAdd? a b = some sum) :
    sum.toInt = a.toInt + b.toInt := by
  rw [checkedAdd?] at h
  split at h
  · obtain rfl := Option.some.inj h
    assumption
  · cases h

lemma toInt_add_of_bounds (hlow : -2 ^ 63 ≤ a.toInt + b.toInt)
    (hhigh : a.toInt + b.toInt < 2 ^ 63) : (a + b).toInt = a.toInt + b.toInt := by
  rw [Int64.toInt_add, Int.bmod_eq_of_le] <;> omega

/-- A sum that 64 bits do not hold is greater than all that they hold, or less. -/
lemma out_of_checkedAdd? (h : checkedAdd? a b = none) :
    a.toInt + b.toInt < -2 ^ 63 ∨ 2 ^ 63 ≤ a.toInt + b.toInt := by
  by_contra hin
  rw [checkedAdd?, if_pos (toInt_add_of_bounds (by omega) (by omega))] at h
  cases h

lemma toInt_ne_zero (h : a ≠ 0) : a.toInt ≠ 0 :=
  fun hzero => h (Int64.toInt_inj.mp (hzero.trans Int64.toInt_zero.symm))

lemma toInt_clamp {low high x : Int64} (h : low.toInt ≤ high.toInt) :
    (clamp low high x).toInt = max low.toInt (min x.toInt high.toInt) := by
  simp only [clamp, Int64.lt_iff_toInt_lt]
  split
  · omega
  · split <;> omega

lemma toNat_toUInt64 (h : 0 ≤ a.toInt) : a.toUInt64.toNat = a.toInt.toNat := by
  rw [Int64.toNat_toUInt64_of_le (Int64.le_iff_toInt_le.mpr h)]
  rfl

end Words

/-! ### Bounds -/

section Bounds

variable {n : Nat} (hn : n < 2 ^ 63)
include hn

lemma toInt_last : (Int64.ofNat n - 1).toInt = n - 1 := by
  rw [Int64.toInt_sub, Int64.toInt_ofNat_of_lt hn, Int64.toInt_one, Int.bmod_eq_of_le] <;> omega

lemma toInt_fromEnd (b : Int64) : (fromEnd (.ofNat n) b).toInt
    = if b.toInt < 0 then b.toInt + n else b.toInt := by
  have hlength := Int64.toInt_ofNat_of_lt hn
  have hlow := b.le_toInt
  simp only [fromEnd, Int64.lt_iff_toInt_lt, Int64.toInt_zero]
  split
  · rw [toInt_add_of_bounds] <;> omega
  · rfl

lemma toInt_bound {low high default : Int64} (hlow : low.toInt ≤ default.toInt)
    (hhigh : default.toInt ≤ high.toInt) (b : Option Int64) :
    (clamp low high ((b.map (fromEnd (.ofNat n))).getD default)).toInt
      = pythonBound n low.toInt high.toInt default.toInt (b.map Int64.toInt) := by
  rw [toInt_clamp (Int.le_trans hlow hhigh)]
  cases b with
  | none =>
    rw [Option.map_none, Option.map_none, Option.getD_none, pythonBound]
    omega
  | some b => rw [Option.map_some, Option.map_some, Option.getD_some, toInt_fromEnd hn, pythonBound]

/-- The bounds that are computed are those over unbounded integers. -/
lemma toInt_sliceBounds (start stop : Option Int64) (stride : Int64) :
    (sliceBounds (.ofNat n) start stop stride).1.toInt
        = pythonStart n stride.toInt (start.map Int64.toInt) ∧
      (sliceBounds (.ofNat n) start stop stride).2.toInt
        = pythonStop n stride.toInt (stop.map Int64.toInt) := by
  have hlength := Int64.toInt_ofNat_of_lt hn
  have hlast := toInt_last hn
  have hminus : (-1 : Int64).toInt = -1 := rfl
  have hzero := Int64.toInt_zero
  simp only [sliceBounds, pythonStart, pythonStop, Int64.lt_iff_toInt_lt, hzero]
  split
  · rw [toInt_bound hn (by omega) (by omega), toInt_bound hn (by omega) (by omega), hlength, hzero]
    exact ⟨rfl, rfl⟩
  · rw [toInt_bound hn (by omega) (by omega), toInt_bound hn (by omega) (by omega), hlast, hminus]
    exact ⟨rfl, rfl⟩

end Bounds

/-! ### Positions -/

section Walks

variable {start stop stride : Int64}

/-- Forwards a walk starts in the sequence, and backwards it stops before the first item at
the latest; so it goes through no negative numbers. -/
structure Inwards (start stop stride : Int64) : Prop where
  start_nonneg : 0 < stride.toInt → 0 ≤ start.toInt
  stop_ge : stride.toInt < 0 → -1 ≤ stop.toInt

lemma Inwards.nonneg (h : Inwards start stop stride) (hstride : stride ≠ 0)
    (hbefore : Before stride.toInt start.toInt stop.toInt) : 0 ≤ start.toInt := by
  rcases lt_or_gt_of_ne (toInt_ne_zero hstride) with hneg | hpos
  · rw [before_of_neg hneg] at hbefore
    have := h.stop_ge hneg
    omega
  · exact h.start_nonneg hpos

lemma Inwards.next {next : Int64} (h : Inwards start stop stride)
    (hnext : next.toInt = start.toInt + stride.toInt) : Inwards next stop stride := by
  refine ⟨fun hpos => ?_, h.stop_ge⟩
  have := h.start_nonneg hpos
  omega

/-- A number that 64 bits do not hold is behind every bound that they hold. -/
lemma not_before_of_checkedAdd? (hstride : stride ≠ 0)
    (hsum : checkedAdd? start stride = none) :
    ¬ Before stride.toInt (start.toInt + stride.toInt) stop.toInt := by
  have hlow := stop.le_toInt
  have hhigh := stop.toInt_lt
  have hstart := start.toInt_lt
  have hstart' := start.le_toInt
  rcases lt_or_gt_of_ne (toInt_ne_zero hstride) with hneg | hpos
  · rw [before_of_neg hneg]
    rcases out_of_checkedAdd? hsum with hout | hout <;> omega
  · rw [before_of_pos hpos]
    rcases out_of_checkedAdd? hsum with hout | hout <;> omega

/-- The walk goes through the numbers in reach before its bound, and as long as there is one
more of them, 64 bits hold it. -/
theorem walk_eq (hstride : stride ≠ 0) (fuel : Nat) (start : Int64)
    (hin : Inwards start stop stride)
    (hfuel : strideCount start.toInt stop.toInt stride.toInt ≤ fuel) :
    walk stop stride fuel start
      = (List.range (strideCount start.toInt stop.toInt stride.toInt)).map
        fun (m : Nat) => (start.toInt + m * stride.toInt).toNat := by
  have hk := toInt_ne_zero hstride
  induction fuel generalizing start with
  | zero =>
    rw [Nat.le_zero.mp hfuel]
    rfl
  | succ fuel ih =>
    have hcond : (if 0 < stride then start < stop else stop < start)
        ↔ Before stride.toInt start.toInt stop.toInt := by
      simp only [Before, Int64.lt_iff_toInt_lt, Int64.toInt_zero]
    rw [walk]
    by_cases hbefore : Before stride.toInt start.toInt stop.toInt
    · have hsucc := strideCount_eq_succ hk hbefore
      have hrest (m : Nat) : start.toInt + (m + 1 : Nat) * stride.toInt
          = start.toInt + stride.toInt + m * stride.toInt := by
        rw [Nat.cast_add_one]
        ring
      rw [if_pos (hcond.mpr hbefore), toNat_toUInt64 (hin.nonneg hstride hbefore), hsucc,
        List.range_succ_eq_map, List.map_cons, List.map_map, Nat.cast_zero, Int.zero_mul,
        Int.add_zero]
      refine congrArg (start.toInt.toNat :: ·) ?_
      simp only [Function.comp_def, Nat.succ_eq_add_one, hrest]
      cases hsum : checkedAdd? start stride with
      | some next =>
        have hnext := toInt_of_checkedAdd? hsum
        rw [← hnext]
        exact ih next (hin.next hnext) (by rw [hnext]; omega)
      | none =>
        rw [strideCount_eq_zero hk (not_before_of_checkedAdd? hstride hsum)]
        rfl
    · rw [if_neg (hcond.not.mpr hbefore), strideCount_eq_zero hk hbefore]
      rfl

end Walks

section Positions

variable {n : Nat} (start stop : Option Int)

/-- A slice starts and stops in the sequence, or just outside of it. -/
lemma python_bounds (n : Nat) (k : Int) :
    (0 < k → 0 ≤ pythonStart n k start ∧ pythonStop n k stop ≤ n) ∧
      (k < 0 → pythonStart n k start ≤ n - 1 ∧ -1 ≤ pythonStop n k stop) := by
  constructor
  · intro hk
    rw [pythonStart, pythonStop, if_pos hk, if_pos hk]
    cases start <;> cases stop <;> simp only [pythonBound] <;> omega
  · intro hk
    rw [pythonStart, pythonStop, if_neg (by omega), if_neg (by omega)]
    cases start <;> cases stop <;> simp only [pythonBound] <;> omega

/-- Whatever is in reach is in the sequence. -/
lemma inside_of_lt_strideCount (hk : k ≠ 0) {m : Nat}
    (h : m < strideCount (pythonStart n k start) (pythonStop n k stop) k) :
    0 ≤ pythonStart n k start + m * k ∧ pythonStart n k start + m * k < n := by
  rw [lt_strideCount_iff hk] at h
  obtain ⟨hforwards, hbackwards⟩ := python_bounds start stop n k
  rcases lt_or_gt_of_ne hk with hneg | hpos
  · obtain ⟨hstart, hstop⟩ := hbackwards hneg
    have hdown : (m : Int) * k ≤ 0 := Int.mul_nonpos_of_nonneg_of_nonpos (by omega) (by omega)
    rw [before_of_neg hneg] at h
    omega
  · obtain ⟨hstart, hstop⟩ := hforwards hpos
    have hup : 0 ≤ (m : Int) * k := Int.mul_nonneg (by omega) (by omega)
    rw [before_of_pos hpos] at h
    omega

/-- So a slice has no more items than the sequence. -/
lemma strideCount_le (hk : k ≠ 0) :
    strideCount (pythonStart n k start) (pythonStop n k stop) k ≤ n := by
  by_contra hmore
  obtain ⟨hlow, hhigh⟩ := inside_of_lt_strideCount start stop hk (Nat.lt_of_not_le hmore)
  obtain ⟨hforwards, hbackwards⟩ := python_bounds start stop n k
  rcases lt_or_gt_of_ne hk with hneg | hpos
  · have := hbackwards hneg
    have hdown : (n : Int) * k ≤ n * (-1) := Int.mul_le_mul_of_nonneg_left (by omega) (by omega)
    omega
  · have := hforwards hpos
    have hup : (n : Int) * 1 ≤ n * k := Int.mul_le_mul_of_nonneg_left (by omega) (by omega)
    omega

end Positions

section Slices

variable {n : Nat} (hn : n < 2 ^ 63) (start stop : Option Int64) {stride : Int64}
  (hstride : stride ≠ 0)
include hn hstride

/-- The walk of a slice ends with the last number in reach, however long it might go on. -/
lemma walk_slice {fuel : Nat} (hfuel : n ≤ fuel) :
    walk (sliceBounds (.ofNat n) start stop stride).2 stride fuel
        (sliceBounds (.ofNat n) start stop stride).1
      = (List.range (strideCount (pythonStart n stride.toInt (start.map Int64.toInt))
          (pythonStop n stride.toInt (stop.map Int64.toInt)) stride.toInt)).map fun (m : Nat) =>
            (pythonStart n stride.toInt (start.map Int64.toInt) + m * stride.toInt).toNat := by
  obtain ⟨hstart, hstop⟩ := toInt_sliceBounds hn start stop stride
  obtain ⟨hforwards, hbackwards⟩ :=
    python_bounds (start.map Int64.toInt) (stop.map Int64.toInt) n stride.toInt
  rw [← hstart, ← hstop] at hforwards hbackwards ⊢
  have hin : Inwards (sliceBounds (.ofNat n) start stop stride).1
      (sliceBounds (.ofNat n) start stop stride).2 stride :=
    ⟨fun hpos => (hforwards hpos).1, fun hneg => (hbackwards hneg).2⟩
  refine walk_eq hstride fuel _ hin ?_
  rw [hstart, hstop]
  exact Nat.le_trans (strideCount_le _ _ (toInt_ne_zero hstride)) hfuel

/-- No position is out of range. -/
lemma lt_of_mem_sliceSpan {p : Nat} (hp : p ∈ sliceSpan n start stop stride) : p < n := by
  have hk := toInt_ne_zero hstride
  rw [sliceSpan, walk_slice hn start stop hstride (Nat.le_refl n)] at hp
  obtain ⟨m, hm, rfl⟩ := List.mem_map.mp hp
  have := inside_of_lt_strideCount _ _ hk (List.mem_range.mp hm)
  omega

end Slices

/-- The slice of a sequence of `n` items is computed without fault: the length, the last
position and the bounds that are counted from the end are the exact numbers, all positions
are in range, and the walk is over after at most `n` of them. -/
structure SliceSound (n : Nat) (start stop : Option Int64) (stride : Int64) : Prop where
  length : (Int64.ofNat n).toInt = n
  last : (Int64.ofNat n - 1).toInt = n - 1
  bounds : ∀ b ∈ start.toList ++ stop.toList, (fromEnd (.ofNat n) b).toInt
    = if b.toInt < 0 then b.toInt + n else b.toInt
  inside : ∀ p ∈ sliceSpan n start stop stride, p < n
  ends : ∀ fuel, n ≤ fuel → walk (sliceBounds (.ofNat n) start stop stride).2 stride fuel
    (sliceBounds (.ofNat n) start stop stride).1 = sliceSpan n start stop stride

lemma sliceStride_toInt (stride : Option Int64) :
    sliceStride (stride.map Int64.toInt) = stride.getD 1 := by
  cases stride with
  | none => rfl
  | some stride => exact Int64.ofInt_toInt stride

lemma map_ofInt_toInt (b : Option Int64) : (b.map Int64.toInt).map Int64.ofInt = b := by
  cases b with
  | none => rfl
  | some b => exact congrArg some (Int64.ofInt_toInt b)

/-- Slices with bounds and strides of 64 bits are those of Python. -/
lemma slice_of_words {items : List Selected} (hlength : items.length < 2 ^ 63)
    (start stop : Option Int64) {stride : Option Int64} (hstride : stride.getD 1 ≠ 0) :
    slice items (start.map Int64.toInt) (stop.map Int64.toInt) (stride.map Int64.toInt)
      = .ok (pythonSlice items (start.map Int64.toInt) (stop.map Int64.toInt)
          (stride.map Int64.toInt)) := by
  have htoInt : (stride.map Int64.toInt).getD 1 = (stride.getD 1).toInt := by
    cases stride <;> rfl
  calc slice items (start.map Int64.toInt) (stop.map Int64.toInt) (stride.map Int64.toInt)
      = .ok ((sliceSpan items.length start stop (stride.getD 1)).filterMap (items[·]?)) := by
        rw [slice, sliceStride_toInt, if_neg hstride, map_ofInt_toInt, map_ofInt_toInt]
    _ = .ok (pythonSlice items (start.map Int64.toInt) (stop.map Int64.toInt)
          (stride.map Int64.toInt)) := by
        rw [sliceSpan, walk_slice hlength start stop hstride (Nat.le_refl _),
          List.filterMap_map, pythonSlice, htoInt]
        rfl

/-- A slice with any bounds and any stride but zero, all of 64 bits, is computed without
fault and is the slice of Python over unbounded integers: of a sequence, which has less than
`2 ^ 63` items, of the parts of a single array, and of the nodes of a fan-out.  A single node
that is no array is refused. -/
theorem slice_eq_pythonSlice (start stop stride : Option Int64) (hstride : stride ≠ some 0) :
    let step : Step :=
      .slice (start.map Int64.toInt) (stop.map Int64.toInt) (stride.map Int64.toInt)
    let sliced (items : List Selected) : List Selected :=
      pythonSlice items (start.map Int64.toInt) (stop.map Int64.toInt) (stride.map Int64.toInt)
    (∀ items : List Selected, items.length < 2 ^ 63 →
      SliceSound items.length start stop (stride.getD 1) ∧
      slice items (start.map Int64.toInt) (stop.map Int64.toInt) (stride.map Int64.toInt)
        = .ok (sliced items)) ∧
    (∀ (r : Resolved) (s : Selected), r.selection = .single s →
      (r.arena.isArray s.node = true → (r.arena.children s.node).length < 2 ^ 63 →
        r.step step = .ok (r.select (.multiple (sliced (r.arena.children s.node))))) ∧
      (r.arena.isArray s.node = false → r.step step
        = .error (.typeMismatch ("slice step cannot be applied to " ++ r.arena.kind s.node)))) ∧
    ∀ (r : Resolved) (items : List Selected), r.selection = .multiple items →
      items.length < 2 ^ 63 → r.step step = .ok (r.select (.multiple (sliced items))) := by
  intro step sliced
  have hne : stride.getD 1 ≠ 0 := by
    cases stride with
    | none => decide
    | some stride => exact fun h => hstride (congrArg some h)
  refine ⟨fun items hlength => ⟨?_, slice_of_words hlength start stop hne⟩,
    fun r s hsingle => ⟨fun harray hlength => ?_, fun hother => ?_⟩,
    fun r items hmultiple hlength => ?_⟩
  · exact
      { length := Int64.toInt_ofNat_of_lt hlength
        last := toInt_last hlength
        bounds := fun b _ => toInt_fromEnd hlength b
        inside := fun p hp => lt_of_mem_sliceSpan hlength start stop hne hp
        ends := fun fuel hfuel => (walk_slice hlength start stop hne hfuel).trans
          (walk_slice hlength start stop hne (Nat.le_refl _)).symm }
  · simp only [step, Resolved.step, Resolved.stepSelection, hsingle, harray, ↓reduceIte,
      slice_of_words hlength start stop hne]
    rfl
  · simp only [step, Resolved.step, Resolved.stepSelection, hsingle, hother,
      Bool.false_eq_true, ↓reduceIte]
    rfl
  · simp only [step, Resolved.step, Resolved.stepSelection, hmultiple,
      slice_of_words hlength start stop hne]
    rfl

/-- The greatest and the least stride come to the first and to the last item. -/
theorem slice_eq_pythonSlice_extreme :
    let r : Resolved := .ofValue (.defined (.array [.null, .bool true, .ofNat 3]))
    r.step (.slice (some (-3)) none (some 9223372036854775807))
        = .ok (r.select (.multiple [⟨1, some ⟨0, .index 0⟩⟩])) ∧
      r.step (.slice none (some (-9223372036854775808)) (some (-9223372036854775808)))
        = .ok (r.select (.multiple [⟨3, some ⟨0, .index 2⟩⟩])) := by
  intro r
  obtain ⟨-, hgreatest, -⟩ :=
    slice_eq_pythonSlice (some (-3)) none (some Int64.maxValue) (by decide)
  obtain ⟨-, hleast, -⟩ :=
    slice_eq_pythonSlice none (some Int64.minValue) (some Int64.minValue) (by decide)
  have hchildren : r.arena.children 0
      = [⟨1, some ⟨0, .index 0⟩⟩, ⟨2, some ⟨0, .index 1⟩⟩, ⟨3, some ⟨0, .index 2⟩⟩] := by cbv
  have hlength : (r.arena.children 0).length < 2 ^ 63 := by
    rw [hchildren]
    decide
  have hfirst := (hgreatest r ⟨0, none⟩ rfl).1 (by cbv) hlength
  have hlast := (hleast r ⟨0, none⟩ rfl).1 (by cbv) hlength
  rw [hchildren] at hfirst hlast
  exact ⟨hfirst.trans (by cbv), hlast.trans (by cbv)⟩

end Verdict
