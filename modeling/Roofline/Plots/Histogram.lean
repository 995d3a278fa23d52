import Mathlib.Data.List.MinMax
import Mathlib.Data.Rat.Floor
import Roofline.Java.Throwable
import Roofline.Library.Bins
import Roofline.Library.Integers

/-!
# Histograms

The values that were added are counted in bins between two bounds.  The bin of a value is found by
scaling the value, and the center of a bin by a formula of its own.  Numbers are exact.

Main results:

- Theorem {lit}`countRound_eq`: one round of the loop counts a value in its bin.
- Theorem {lit}`getCounts_eq`: the loop uses no index outside the bins.
- Theorem {lit}`binOf_eq_some_iff`: the bin of a value is the one around whose center it is.
- Theorem {lit}`getCounts_correct`: the counts belong to the centers.
-/

namespace Roofline
namespace Plots

open Bins Integers

/-- The values that were added. -/
structure Histogram (K : Type) where
  values : List K

namespace Histogram

section Methods

variable {K : Type}

/-- {lit}`apply` -/
def apply (h : Histogram K) (d : K) : Histogram K where
  values := h.values ++ [d]

/-- The cast of a whole number to {lit}`int`. -/
def castInt (i : Int) : Signed 32 :=
  ⟨max (-2 ^ 31) (min i (2 ^ 31 - 1)), by omega⟩

/-- {lit}`counts[index]++`. -/
def incrementAt (counts : List Nat) (index : Signed 32) : Except Throwable (List Nat) :=
  if 0 ≤ index.val ∧ index.val < counts.length then .ok (increment counts index.val.toNat)
  else .error .indexOutOfBoundsException

variable [Field K] [LinearOrder K] [FloorRing K]

/-- The bin of a value before it is compared with the number of bins.  Without a span the quotient
is infinite, and the cast gives the end of the range. -/
def scaledBin (binCount : Signed 32) (min max d : K) : Signed 32 :=
  if max - min = 0 then castInt (if min < d then 2 ^ 31 - 1 else -2 ^ 31)
  else castInt ⌊(d - min) / (max - min) * binCount.val⌋

/-- One round of the loop. -/
def countRound (binCount : Signed 32) (min max : K) (counts : List Nat) (d : K) :
    Except Throwable (List Nat) :=
  if d = max then incrementAt counts (.wrap 32 (binCount.val - 1))
  else
    let bin := scaledBin binCount min max d
    if 0 ≤ bin.val ∧ bin.val < binCount.val then incrementAt counts bin else .ok counts

/-- A count is at most the number of values, so none overflows. -/
def getCounts (h : Histogram K) (binCount : Signed 32) (min max : K) :
    Except Throwable (List Nat) :=
  if binCount.val < 0 then .error .negativeArraySizeException
  else h.values.foldlM (countRound binCount min max) (List.replicate binCount.val.toNat 0)

/-- The counts between the smallest and the largest value.  Without values these are not numbers,
but nothing is compared with them. -/
def getCountsOfAll (h : Histogram K) (binCount : Signed 32) : Except Throwable (List Nat) :=
  h.getCounts binCount (h.values.min?.getD 0) (h.values.max?.getD 0)

omit [LinearOrder K] [FloorRing K] in
/-- {lit}`getBinCenters` -/
def getBinCenters (binCount : Signed 32) (min max : K) : Except Throwable (List K) :=
  if binCount.val < 0 then .error .negativeArraySizeException
  else .ok ((List.range binCount.val.toNat).map fun i : Nat =>
    min + (max - min) * (1 / 2 + (i : K)) / binCount.val)

end Methods

/-! ## What the counts should be -/

section Specification

variable {K : Type} [Field K] [LinearOrder K]

/-- The values of a bin: the interval around its center, whose upper end belongs to the next bin,
if there is one. -/
def InBin (width center : K) (last : Prop) (d : K) : Prop :=
  center - width / 2 ≤ d ∧ (d < center + width / 2 ∨ last ∧ d = center + width / 2)

/-- Whether a value is in a bin can be decided. -/
instance (width center : K) (last : Prop) [Decidable last] :
    DecidablePred (InBin width center last) :=
  fun _ => inferInstanceAs (Decidable (_ ∧ _))

/-- The counts of some values in the bins around some centers. -/
structure CorrectCounts (values : List K) (min max : K) (counts : List Nat) (centers : List K) :
    Prop where
  length_eq : counts.length = centers.length
  counted : ∀ i count center, counts[i]? = some count → centers[i]? = some center →
    count = values.countP (InBin ((max - min) / centers.length) center (i + 1 = centers.length))
  once : ∀ d, min ≤ d → d ≤ max → ∃! i, ∃ center, centers[i]? = some center ∧
    InBin ((max - min) / centers.length) center (i + 1 = centers.length) d
  maximum : ∀ i center, centers[i]? = some center →
    (InBin ((max - min) / centers.length) center (i + 1 = centers.length) max ↔
      i + 1 = centers.length)
  outside : ∀ d, d < min ∨ max < d → ∀ i center, centers[i]? = some center →
    ¬ InBin ((max - min) / centers.length) center (i + 1 = centers.length) d
  sum_eq : counts.sum = values.countP fun d => min ≤ d ∧ d ≤ max

end Specification

/-! ## The loop -/

/-- A cast number is a bin exactly if the number is. -/
theorem castInt_mem_iff {n : Signed 32} {i : Int} :
    0 ≤ (castInt i).val ∧ (castInt i).val < n.val ↔ 0 ≤ i ∧ i < n.val := by
  have hn : n.val < 2 ^ 31 := n.property.2
  change 0 ≤ max (-2 ^ 31) (min i (2 ^ 31 - 1)) ∧ max (-2 ^ 31) (min i (2 ^ 31 - 1)) < n.val ↔ _
  omega

/-- A number that is a bin is not changed by the cast. -/
theorem castInt_val {n : Signed 32} {i : Int} (hlow : 0 ≤ i) (hhigh : i < n.val) :
    (castInt i).val = i := by
  have hn : n.val < 2 ^ 31 := n.property.2
  change max (-2 ^ 31) (min i (2 ^ 31 - 1)) = i
  omega

/-- A count inside of the array is incremented. -/
theorem incrementAt_eq {counts : List Nat} {index : Signed 32} (hlow : 0 ≤ index.val)
    (hhigh : index.val < counts.length) :
    incrementAt counts index = .ok (increment counts index.val.toNat) := by
  rw [incrementAt, if_pos ⟨hlow, hhigh⟩]

section Loop

variable {K : Type} [Field K] [LinearOrder K] [FloorRing K]

/-- The bin that a value is counted in. -/
def binOf (n : Nat) (min max d : K) : Option Nat :=
  if d = max then some (n - 1)
  else if 0 ≤ position n min max d ∧ position n min max d < n then
    some (position n min max d).toNat
  else none

/-- The bin of a value is one of the bins. -/
theorem binOf_lt {n : Nat} (hn : 0 < n) {min max d : K} {i : Nat} (h : binOf n min max d = some i) :
    i < n := by
  unfold binOf at h
  split at h
  · cases h
    omega
  · split at h
    · cases h
      omega
    · cases h

/-- The counts add up to the values that have a bin. -/
theorem sum_tally_binOf {n : Nat} (hn : 0 < n) {min max : K} (values : List K) :
    (tally (binOf n min max) (List.replicate n 0) values).sum =
      values.countP fun d => (binOf n min max d).isSome := by
  have hbin : ∀ d, ∀ i ∈ binOf n min max d, i < (List.replicate n 0).length := by
    intro d i hi
    rw [List.length_replicate]
    exact binOf_lt hn hi
  rw [sum_tally (binOf n min max) hbin, List.sum_replicate, nsmul_zero, Nat.zero_add]

/-- The computed bin is the cast position. -/
theorem scaledBin_eq {binCount : Signed 32} {n : Nat} (hn : binCount.val = n) {min max : K}
    (hne : max - min ≠ 0) (d : K) :
    scaledBin binCount min max d = castInt (position n min max d) := by
  rw [scaledBin, if_neg hne, position, hn, Int.cast_natCast]

/-- One round of the loop counts a value in its bin. -/
theorem countRound_eq {binCount : Signed 32} {n : Nat} (hn : binCount.val = n) (hpos : 0 < n)
    {min max d : K} (hne : d ≠ max → max - min ≠ 0) {counts : List Nat}
    (hlength : counts.length = n) :
    countRound binCount min max counts d =
      .ok ((binOf n min max d).elim counts (increment counts)) := by
  unfold countRound binOf
  split
  · -- the maximum is counted in the last bin
    have hbound : binCount.val < 2 ^ 31 := binCount.property.2
    have hwrap : (Signed.wrap 32 (binCount.val - 1)).val = binCount.val - 1 :=
      Signed.wrap_of_mem (by omega) (by omega) (by omega)
    rw [incrementAt_eq (by omega) (by omega), hwrap, Option.elim_some]
    congr 2
    omega
  next hmax =>
    simp only [scaledBin_eq hn (hne hmax), castInt_mem_iff]
    rw [hn]
    split
    next hmem =>
      have hcast : (castInt (position n min max d)).val = position n min max d :=
        castInt_val (n := binCount) hmem.1 (by omega)
      rw [incrementAt_eq (by omega) (by omega), hcast, Option.elim_some]
    next => rfl

/-- The loop uses no index outside the bins. -/
theorem foldlM_countRound {binCount : Signed 32} {n : Nat} (hn : binCount.val = n) (hpos : 0 < n)
    {min max : K} {values : List K} (hne : ∀ d ∈ values, d ≠ max → max - min ≠ 0)
    {counts : List Nat} (hlength : counts.length = n) :
    values.foldlM (countRound binCount min max) counts =
      .ok (tally (binOf n min max) counts values) := by
  induction values generalizing counts with
  | nil => rfl
  | cons d values ih =>
      rw [List.foldlM_cons, countRound_eq hn hpos (hne d List.mem_cons_self) hlength]
      exact ih (fun other hother => hne other (List.mem_cons_of_mem d hother))
        ((length_visit (binOf n min max) counts d).trans hlength)

/-- The counts are those of the bins of the values. -/
theorem getCounts_eq {binCount : Signed 32} {n : Nat} (hn : binCount.val = n) (hpos : 0 < n)
    {min max : K} {h : Histogram K} (hne : ∀ d ∈ h.values, d ≠ max → max - min ≠ 0) :
    h.getCounts binCount min max =
      .ok (tally (binOf n min max) (List.replicate n 0) h.values) := by
  have hnat : binCount.val.toNat = n := by omega
  rw [getCounts, if_neg (by omega), hnat,
    foldlM_countRound hn hpos hne List.length_replicate]

end Loop

/-! ## The bins and their centers -/

section Correctness

variable {K : Type} [Field K]

/-- The centers of the bins. -/
def centers (n : Nat) (min max : K) : List K :=
  (List.range n).map fun i : Nat => min + (max - min) * (1 / 2 + (i : K)) / n

/-- The centers are those of the bins. -/
theorem getBinCenters_eq {binCount : Signed 32} {n : Nat} (hn : binCount.val = n) (min max : K) :
    getBinCenters binCount min max = .ok (centers n min max) := by
  have hnat : binCount.val.toNat = n := by omega
  rw [getBinCenters, if_neg (by omega), hnat, hn, Int.cast_natCast, centers]

/-- There are as many centers as bins. -/
@[simp] theorem length_centers (n : Nat) (min max : K) : (centers n min max).length = n := by
  simp [centers]

/-- The center of a bin. -/
theorem getElem?_centers {n : Nat} {min max center : K} {i : Nat} :
    (centers n min max)[i]? = some center ↔
      i < n ∧ min + (max - min) * (1 / 2 + (i : K)) / n = center := by
  rw [centers, List.getElem?_map, Option.map_eq_some_iff]
  constructor
  · rintro ⟨j, hj, hcenter⟩
    obtain ⟨hi, rfl⟩ := List.getElem?_eq_some_iff.mp hj
    rw [List.getElem_range] at hcenter
    exact ⟨by simpa using hi, hcenter⟩
  · rintro ⟨hi, hcenter⟩
    exact ⟨i, by simp [hi], hcenter⟩

variable [LinearOrder K] [IsStrictOrderedRing K] {n : Nat} (hn : 0 < n) {min max : K}

include hn

/-- The interval around the center of a bin is between its edges. -/
theorem inBin_iff {i : Nat} {last : Prop} {d : K} :
    InBin ((max - min) / n) (min + (max - min) * (1 / 2 + (i : K)) / n) last d ↔
      edge n min max i ≤ d ∧ (d < edge n min max (i + 1) ∨ last ∧ d = edge n min max (i + 1)) := by
  rw [InBin, edge_succ hn, edge_center hn, Int.cast_natCast]

variable [FloorRing K] (h : min < max)

include h

/-- The bin of a value is the one around whose center it is. -/
theorem binOf_eq_some_iff {i : Nat} {d : K} :
    binOf n min max d = some i ↔ i < n ∧
      InBin ((max - min) / n) (min + (max - min) * (1 / 2 + (i : K)) / n) (i + 1 = n) d := by
  rw [inBin_iff hn]
  have hlast : edge n min max n = max := edge_last hn
  unfold binOf
  split
  next hmax =>
    rw [Option.some_inj]
    constructor
    · intro hi
      obtain rfl : i + 1 = n := by omega
      rw [Nat.cast_succ] at hlast
      refine ⟨Nat.lt_succ_self i, ?_, .inr ⟨rfl, hmax.trans hlast.symm⟩⟩
      calc
        edge (i + 1) min max i ≤ edge (i + 1) min max (i + 1) :=
          ((edge_lt_iff hn h).mpr (by omega)).le
        _ = d := hlast.trans hmax.symm
    · rintro ⟨hi, -, hlt | ⟨hi', -⟩⟩
      · -- no bin before the last one reaches beyond the maximum
        rw [hmax] at hlt
        have hbeyond := (edge_lt_iff hn h).mp (hlast.trans_lt hlt)
        omega
      · omega
  next hmax =>
    have hposition : position n min max d = i ↔
        edge n min max i ≤ d ∧ (d < edge n min max (i + 1) ∨
          i + 1 = n ∧ d = edge n min max (i + 1)) := by
      rw [position_eq_iff hn h]
      refine and_congr_right fun _ => ⟨Or.inl, fun hcases => hcases.resolve_right ?_⟩
      rintro ⟨rfl, heq⟩
      rw [Nat.cast_succ] at hlast
      exact hmax (heq.trans hlast)
    rw [← hposition]
    split <;> simp only [Option.some_inj, reduceCtorEq, false_iff] <;> omega

/-- A value is around a center exactly if it is in that bin. -/
theorem inBin_center_iff {i : Nat} {d center : K} (hcenter : (centers n min max)[i]? = some center) :
    InBin ((max - min) / n) center (i + 1 = n) d ↔ binOf n min max d = some i := by
  obtain ⟨hi, rfl⟩ := getElem?_centers.mp hcenter
  rw [binOf_eq_some_iff hn h]
  exact ⟨fun hbin => ⟨hi, hbin⟩, And.right⟩

/-- The values between the bounds are in a bin. -/
theorem isSome_binOf_iff {d : K} : (binOf n min max d).isSome ↔ min ≤ d ∧ d ≤ max := by
  unfold binOf
  split
  next hmax => simp [hmax, h.le]
  next hmax =>
    have hle : d < max ↔ d ≤ max := ⟨le_of_lt, fun hle => lt_of_le_of_ne hle hmax⟩
    simp only [position_nonneg_iff hn h, position_lt_iff hn h, hle]
    split <;> simp [*]

/-- The values that are tallied in their bins. -/
theorem correctCounts_tally (values : List K) :
    CorrectCounts values min max (tally (binOf n min max) (List.replicate n 0) values)
      (centers n min max) where
  length_eq := by simp
  counted := by
    intro i count center hcount hcenter
    rw [length_centers]
    rw [getElem?_tally, List.getElem?_replicate, if_pos (getElem?_centers.mp hcenter).1,
      Option.map_some, Option.some_inj, Nat.zero_add] at hcount
    rw [← hcount]
    apply List.countP_congr
    intro d _
    simp only [decide_eq_true_eq]
    exact (inBin_center_iff hn h hcenter).symm
  once := by
    intro d hmin hmax
    rw [length_centers]
    obtain ⟨i, hi⟩ := Option.isSome_iff_exists.mp ((isSome_binOf_iff hn h).mpr ⟨hmin, hmax⟩)
    refine ⟨i, ⟨_, getElem?_centers.mpr ⟨binOf_lt hn hi, rfl⟩, ?_⟩, ?_⟩
    · exact ((binOf_eq_some_iff hn h).mp hi).2
    · rintro j ⟨center, hcenter, hbin⟩
      rw [inBin_center_iff hn h hcenter, hi] at hbin
      exact (Option.some_inj.mp hbin).symm
  maximum := by
    intro i center hcenter
    have hi := (getElem?_centers.mp hcenter).1
    rw [length_centers, inBin_center_iff hn h hcenter, binOf, if_pos rfl, Option.some_inj]
    omega
  outside := by
    intro d hd i center hcenter hbin
    rw [length_centers, inBin_center_iff hn h hcenter] at hbin
    have hbounds := (isSome_binOf_iff hn h).mp (Option.isSome_of_eq_some hbin)
    exact hd.elim (not_lt.mpr hbounds.1) (not_lt.mpr hbounds.2)
  sum_eq := by
    rw [sum_tally_binOf hn]
    apply List.countP_congr
    intro d _
    rw [isSome_binOf_iff hn h, decide_eq_true_iff]

end Correctness

/-! ## All the values -/

section All

variable {K : Type} [Field K] [LinearOrder K] [IsStrictOrderedRing K] [FloorRing K]
  {binCount : Signed 32} (hcount : 1 ≤ binCount.val) {min max : K}

include hcount

/-- Values that are all between the bounds are all counted, also between equal bounds. -/
theorem sum_getCounts {h : Histogram K} (hvalues : ∀ d ∈ h.values, min ≤ d ∧ d ≤ max) :
    ∃ counts, h.getCounts binCount min max = .ok counts ∧
      (counts.length : Int) = binCount.val ∧ counts.sum = h.values.length := by
  obtain ⟨n, hn⟩ := Int.eq_ofNat_of_zero_le (show 0 ≤ binCount.val by omega)
  have hpos : 0 < n := by omega
  have hlt : ∀ d ∈ h.values, d ≠ max → min < max := fun d hd hmax =>
    (hvalues d hd).1.trans_lt (lt_of_le_of_ne (hvalues d hd).2 hmax)
  refine ⟨_, getCounts_eq hn hpos fun d hd hmax => (sub_pos.mpr (hlt d hd hmax)).ne', ?_, ?_⟩
  · rw [length_tally, List.length_replicate, hn]
  rw [sum_tally_binOf hpos, List.countP_eq_length]
  intro d hd
  by_cases hmax : d = max
  · rw [binOf, if_pos hmax, Option.isSome_some]
  · exact (isSome_binOf_iff hpos (hlt d hd hmax)).mpr (hvalues d hd)

/-- Between the smallest and the largest value all values are counted. -/
theorem sum_getCountsOfAll (h : Histogram K) :
    ∃ counts, h.getCountsOfAll binCount = .ok counts ∧
      (counts.length : Int) = binCount.val ∧ counts.sum = h.values.length := by
  apply sum_getCounts hcount
  intro d hd
  obtain ⟨low, hlow⟩ := Option.isSome_iff_exists.mp (List.isSome_min?_of_mem hd)
  obtain ⟨high, hhigh⟩ := Option.isSome_iff_exists.mp (List.isSome_max?_of_mem hd)
  rw [hlow, hhigh, Option.getD_some, Option.getD_some]
  exact ⟨(List.min?_eq_some_iff.mp hlow).2 d hd, (List.max?_eq_some_iff.mp hhigh).2 d hd⟩

example : (⟨[1, 2, 3, 4]⟩ : Histogram ℚ).getCountsOfAll ⟨4, by decide⟩ = .ok [1, 1, 1, 1] := by
  decide +kernel

/-- The counts belong to the centers: each value between the bounds is counted once, in the bin
around whose center it is, and no other value is counted. -/
theorem getCounts_correct (h : min < max) (histogram : Histogram K) :
    ∃ counts centers, histogram.getCounts binCount min max = .ok counts ∧
      getBinCenters binCount min max = .ok centers ∧ (centers.length : Int) = binCount.val ∧
      CorrectCounts histogram.values min max counts centers := by
  obtain ⟨n, hn⟩ := Int.eq_ofNat_of_zero_le (show 0 ≤ binCount.val by omega)
  have hpos : 0 < n := by omega
  refine ⟨_, _, getCounts_eq hn hpos fun _ _ _ => (sub_pos.mpr h).ne',
    getBinCenters_eq hn min max, ?_, correctCounts_tally hpos h histogram.values⟩
  rw [length_centers, hn]

end All

/-- Four values in four bins, the last of which has the maximum. -/
theorem getCounts_correct_four :
    ∃ counts centers,
      (⟨[1, 2, 3, 4]⟩ : Histogram ℚ).getCounts ⟨4, by decide⟩ 1 4 = .ok counts ∧
        getBinCenters ⟨4, by decide⟩ (1 : ℚ) 4 = .ok centers ∧ (centers.length : Int) = 4 ∧
        CorrectCounts [1, 2, 3, 4] (1 : ℚ) 4 counts centers :=
  getCounts_correct (by decide +kernel) (by decide) _

end Histogram
end Plots
end Roofline
