import Mathlib.Algebra.Order.Archimedean.Basic
import Mathlib.Data.Int.Log
import Mathlib.Data.List.DropRight
import Mathlib.Data.Rat.Floor
import Mathlib.Tactic.Linarith
import Mathlib.Tactic.NormNum
import Roofline.Library.WhileLoops
import Roofline.Plots.AxisRanges

/-!
# Ticks of a logarithmic axis

The loop goes from the magnitude of the lower bound to the upper bound, one power of ten after the
other, and adds a major tick for the power and minor ticks for its multiples.  Numbers are exact.

Main results:

- Theorem {lit}`mem_minorTicks`: the minor ticks of a decade.
- Theorem {lit}`correctTicks_round`: one round of the loop adds the ticks of one decade.
- Theorem {lit}`ends_of_pos`: above zero the loop ends with the ticks of the range.
- Theorem {lit}`not_ends_of_zero`: at zero the loop never ends.
- Theorem {lit}`getLogTicks_iff`: when the ticks of an axis are found.
-/

namespace Roofline
namespace Plots

open WhileLoops

/-! ## The method -/

/-- A tick with its label, its position and its level for gnuplot, which is zero for a major
tick and one for a minor one. -/
structure Tick where
  label : List Char
  position : ℚ
  level : Nat

/-- {lit}`String.format` for the conversions of numbers, without and with an exponent. -/
structure Formatter where
  f : ℚ → List Char
  g : ℚ → List Char

variable (formatter : Formatter)

/-- {lit}`floor(log10(x))`: for zero it is negative infinity, and there is none for a negative
number. -/
def floorLog10 (x : ℚ) : Option (WithBot ℤ) :=
  if x < 0 then none else if x = 0 then some ⊥ else some (Int.log 10 x : ℤ)

/-- {lit}`pow(10, x)`. -/
def pow10 : WithBot ℤ → ℚ
  | ⊥ => 0
  | (k : ℤ) => (10 : ℚ) ^ k

/-- The label of a major tick. -/
def label (magnitude : ℚ) : List Char :=
  let stripped := ((formatter.f magnitude).dropWhile (· == '0')).rdropWhile (· == '0')
  let padded := if stripped.head? = some '.' then '0' :: stripped else stripped
  padded.rdropWhile (· == '.')

/-- The loop over the minor ticks; a position before the range is skipped, one behind it ends the
loop. -/
def minorTicks (minimum maximum magnitude : ℚ) : List Nat → List Tick
  | [] => []
  | i :: rest =>
      let d := magnitude + i * magnitude
      if d < minimum then minorTicks minimum maximum magnitude rest
      else if d ≥ maximum then []
      else ⟨[], d, 1⟩ :: minorTicks minimum maximum magnitude rest

/-- The ticks that a round of the loop adds. -/
def ticksOf (minimum maximum magnitude : ℚ) : List Tick :=
  (if magnitude > minimum then [⟨label formatter magnitude, magnitude, 0⟩] else []) ++
    minorTicks minimum maximum magnitude (List.range' 1 8)

/-- A round of the loop over the magnitudes. -/
def tickRound (minimum maximum : ℚ) (s : ℚ × List Tick) : (ℚ × List Tick) ⊕ List Tick :=
  if s.1 < maximum then .inl (s.1 * 10, s.2 ++ ticksOf formatter minimum maximum s.1)
  else .inr s.2

/-- The ticks, if the loop ends within {lit}`fuel` rounds.  The logarithm of a negative number is
not a number, with which the loop is not entered. -/
def logTicks (fuel : Nat) (minimum maximum : ℚ) : Option (List Tick) :=
  match floorLog10 minimum with
  | none => some []
  | some exponent => loop (tickRound formatter minimum maximum) fuel (pow10 exponent, [])

/-- A tick as gnuplot reads it. -/
def Tick.text (tick : Tick) : List Char :=
  '"' :: tick.label ++ '"' :: ' ' :: formatter.g tick.position ++
    ' ' :: Nat.toDigits 10 tick.level

/-- {lit}`StringUtils.join`. -/
def joinTicks (ticks : List Tick) : List Char :=
  [','].intercalate (ticks.map fun tick => tick.text formatter)

/-- The text for gnuplot. -/
def getLogTicks (fuel : Nat) (minimum maximum : ℚ) : Option (List Char) :=
  (logTicks formatter fuel minimum maximum).map (joinTicks formatter)

/-! ## What the ticks should be -/

/-- A power of ten. -/
def IsPower (x : ℚ) : Prop :=
  ∃ k : ℤ, x = 10 ^ k

/-- Two to nine times a power of ten. -/
def IsMultiple (x : ℚ) : Prop :=
  ∃ (k : ℤ) (m : Nat), 2 ≤ m ∧ m ≤ 9 ∧ x = m * 10 ^ k

/-- The ticks of a range, whose upper end does not belong to it. -/
structure CorrectTicks (minimum maximum : ℚ) (ticks : List Tick) : Prop where
  increasing : (ticks.map Tick.position).Pairwise (· < ·)
  inRange : ∀ tick ∈ ticks, minimum ≤ tick.position ∧ tick.position < maximum
  level : ∀ tick ∈ ticks, tick.level = 0 ∨ tick.level = 1
  major : ∀ x, (∃ tick ∈ ticks, tick.level = 0 ∧ tick.position = x) ↔
    IsPower x ∧ minimum < x ∧ x < maximum
  minor : ∀ x, (∃ tick ∈ ticks, tick.level = 1 ∧ tick.position = x) ↔
    IsMultiple x ∧ minimum ≤ x ∧ x < maximum

/-! ## Powers and multiples -/

/-- Powers of ten are positive. -/
theorem zpow_ten_pos (k : ℤ) : (0 : ℚ) < 10 ^ k :=
  zpow_pos (by norm_num) k

/-- The next power of ten. -/
theorem zpow_ten_succ (k : ℤ) : (10 : ℚ) ^ (k + 1) = 10 * 10 ^ k := by
  rw [zpow_add_one₀ (by norm_num), mul_comm]

/-- Powers of ten are ordered as their exponents. -/
theorem zpow_ten_lt_iff {j k : ℤ} : (10 : ℚ) ^ j < 10 ^ k ↔ j < k :=
  zpow_lt_zpow_iff_right₀ (by norm_num)

/-- Powers of ten are ordered as their exponents, equality included. -/
theorem zpow_ten_le_iff {j k : ℤ} : (10 : ℚ) ^ j ≤ 10 ^ k ↔ j ≤ k :=
  zpow_le_zpow_iff_right₀ (by norm_num)

/-- A multiple is in the decade of its power. -/
theorem multiple_lt_zpow_iff {m : Nat} (hone : 1 ≤ m) (hnine : m ≤ 9) {j k : ℤ} :
    (m : ℚ) * 10 ^ j < 10 ^ k ↔ j < k := by
  have hpos := zpow_ten_pos j
  have hlower : (1 : ℚ) ≤ m := by exact_mod_cast hone
  have hupper : (m : ℚ) ≤ 9 := by exact_mod_cast hnine
  constructor
  · intro h
    rw [← zpow_ten_lt_iff]
    calc
      (10 : ℚ) ^ j ≤ m * 10 ^ j := le_mul_of_one_le_left hpos.le hlower
      _ < 10 ^ k := h
  · intro h
    have hnext : (10 : ℚ) ^ (j + 1) ≤ 10 ^ k := zpow_ten_le_iff.mpr (by omega)
    calc
      (m : ℚ) * 10 ^ j ≤ 9 * 10 ^ j := mul_le_mul_of_nonneg_right hupper hpos.le
      _ < 10 * 10 ^ j := by linarith
      _ = 10 ^ (j + 1) := (zpow_ten_succ j).symm
      _ ≤ 10 ^ k := hnext

/-! ## One round -/

section Round

variable {minimum maximum magnitude : ℚ}

/-- Later ticks of a magnitude are at higher positions. -/
theorem position_lt (h : 0 < magnitude) {i j : Nat} (hij : i < j) :
    magnitude + i * magnitude < magnitude + j * magnitude := by
  have hcast : (i : ℚ) < j := by exact_mod_cast hij
  have hmul := mul_lt_mul_of_pos_right hcast h
  linarith

/-- The minor ticks of a decade. -/
theorem mem_minorTicks (h : 0 < magnitude) {start n : Nat} {tick : Tick} :
    tick ∈ minorTicks minimum maximum magnitude (List.range' start n) ↔
      ∃ i, start ≤ i ∧ i < start + n ∧ minimum ≤ magnitude + i * magnitude ∧
        magnitude + i * magnitude < maximum ∧ tick = ⟨[], magnitude + i * magnitude, 1⟩ := by
  induction n generalizing start with
  | zero =>
      simp only [List.range'_zero, minorTicks, List.not_mem_nil, false_iff]
      rintro ⟨i, hle, hlt, -⟩
      omega
  | succ n ih =>
      rw [List.range'_succ, minorTicks]
      split
      next hskip =>
        rw [ih]
        constructor
        · rintro ⟨i, hle, hlt, hrest⟩
          exact ⟨i, by omega, by omega, hrest⟩
        · rintro ⟨i, hle, hlt, hlower, hrest⟩
          have hne : i ≠ start := by
            rintro rfl
            exact absurd hlower (not_le.mpr hskip)
          exact ⟨i, by omega, by omega, hlower, hrest⟩
      next hlower =>
        split
        next hbehind =>
          simp only [List.not_mem_nil, false_iff]
          rintro ⟨i, hle, -, -, hupper, -⟩
          rcases Nat.eq_or_lt_of_le hle with rfl | hlt
          · linarith
          · have hposition := position_lt h hlt
            linarith
        next hupper =>
          rw [List.mem_cons, ih]
          constructor
          · rintro (rfl | ⟨i, hle, hlt, hrest⟩)
            · exact ⟨start, by omega, by omega, not_lt.mp hlower, not_le.mp hupper, rfl⟩
            · exact ⟨i, by omega, by omega, hrest⟩
          · rintro ⟨i, hle, hlt, hrest⟩
            rcases Nat.eq_or_lt_of_le hle with rfl | hnext
            · exact .inl hrest.2.2
            · exact .inr ⟨i, by omega, by omega, hrest⟩

/-- The minor ticks of a magnitude are in order. -/
theorem increasing_minorTicks (h : 0 < magnitude) (start n : Nat) :
    ((minorTicks minimum maximum magnitude (List.range' start n)).map Tick.position).Pairwise
      (· < ·) := by
  induction n generalizing start with
  | zero => simp [minorTicks]
  | succ n ih =>
      rw [List.range'_succ, minorTicks]
      split
      · exact ih (start + 1)
      · split
        · exact List.Pairwise.nil
        · rw [List.map_cons, List.pairwise_cons]
          refine ⟨?_, ih (start + 1)⟩
          intro position hposition
          obtain ⟨tick, htick, rfl⟩ := List.mem_map.mp hposition
          obtain ⟨i, hle, -, -, -, rfl⟩ := (mem_minorTicks h).mp htick
          exact position_lt h (by omega)

variable {formatter : Formatter}

/-- The ticks of a magnitude. -/
theorem mem_ticksOf (h : 0 < magnitude) {tick : Tick} :
    tick ∈ ticksOf formatter minimum maximum magnitude ↔
      (minimum < magnitude ∧ tick = ⟨label formatter magnitude, magnitude, 0⟩) ∨
        ∃ m : Nat, 2 ≤ m ∧ m ≤ 9 ∧ minimum ≤ m * magnitude ∧ m * magnitude < maximum ∧
          tick = ⟨[], m * magnitude, 1⟩ := by
  have hmajor : tick ∈ (if magnitude > minimum then
      [(⟨label formatter magnitude, magnitude, 0⟩ : Tick)] else []) ↔
        minimum < magnitude ∧ tick = ⟨label formatter magnitude, magnitude, 0⟩ := by
    by_cases hlarger : magnitude > minimum
    · simp [hlarger]
    · simp [hlarger]
  rw [ticksOf, List.mem_append, hmajor, mem_minorTicks h]
  apply or_congr Iff.rfl
  constructor
  · rintro ⟨i, hle, hlt, hrest⟩
    have hposition : magnitude + i * magnitude = ((i + 1 : Nat) : ℚ) * magnitude := by
      push_cast
      ring
    rw [hposition] at hrest
    exact ⟨i + 1, by omega, by omega, hrest⟩
  · rintro ⟨m, hle, hlt, hrest⟩
    obtain ⟨i, rfl⟩ : ∃ i, m = i + 1 := ⟨m - 1, by omega⟩
    have hposition : ((i + 1 : Nat) : ℚ) * magnitude = magnitude + i * magnitude := by
      push_cast
      ring
    rw [hposition] at hrest
    exact ⟨i, by omega, by omega, hrest⟩

/-- They are in order. -/
theorem increasing_ticksOf (h : 0 < magnitude) :
    ((ticksOf formatter minimum maximum magnitude).map Tick.position).Pairwise (· < ·) := by
  rw [ticksOf, List.map_append, List.pairwise_append]
  refine ⟨?_, increasing_minorTicks h 1 8, ?_⟩
  · split
    · exact List.pairwise_singleton _ _
    · exact List.Pairwise.nil
  · intro major hmajor minor hminor
    obtain ⟨tick, htick, rfl⟩ := List.mem_map.mp hminor
    obtain ⟨i, hle, -, -, -, rfl⟩ := (mem_minorTicks h).mp htick
    have hposition := position_lt h (show 0 < i by omega)
    split at hmajor
    · obtain rfl : major = magnitude := by simpa using hmajor
      simpa using hposition
    · simp at hmajor

/-- The ticks of a decade are in the decade and in the range. -/
theorem range_of_mem_ticksOf {k : ℤ} (hmaximum : (10 : ℚ) ^ k < maximum) {tick : Tick}
    (h : tick ∈ ticksOf formatter minimum maximum (10 ^ k)) :
    10 ^ k ≤ tick.position ∧ minimum ≤ tick.position ∧
      tick.position < min maximum (10 ^ (k + 1)) := by
  rcases (mem_ticksOf (zpow_ten_pos k)).mp h with
    ⟨hlarger, rfl⟩ | ⟨m, hle, hlt, hlower, hupper, rfl⟩
  · exact ⟨le_rfl, hlarger.le, lt_min hmaximum (zpow_ten_lt_iff.mpr (by omega))⟩
  · have hdecade := (multiple_lt_zpow_iff (m := m) (j := k) (k := k + 1) (by omega) hlt).mpr
      (by omega)
    have hnotBefore := mt (multiple_lt_zpow_iff (m := m) (j := k) (k := k) (by omega) hlt).mp
      (by omega)
    exact ⟨not_lt.mp hnotBefore, hlower, lt_min hupper hdecade⟩

/-- A round of the loop adds the ticks of one decade. -/
theorem correctTicks_round {k : ℤ} {ticks : List Tick} (h : CorrectTicks minimum (10 ^ k) ticks)
    (hmaximum : (10 : ℚ) ^ k < maximum) :
    CorrectTicks minimum (min maximum (10 ^ (k + 1)))
      (ticks ++ ticksOf formatter minimum maximum (10 ^ k)) := by
  have hpos := zpow_ten_pos k
  have hnext : (10 : ℚ) ^ k < 10 ^ (k + 1) := zpow_ten_lt_iff.mpr (by omega)
  constructor
  case increasing =>
    rw [List.map_append, List.pairwise_append]
    refine ⟨h.increasing, increasing_ticksOf hpos, ?_⟩
    intro first hfirst second hsecond
    obtain ⟨tick, htick, rfl⟩ := List.mem_map.mp hfirst
    obtain ⟨other, hother, rfl⟩ := List.mem_map.mp hsecond
    exact lt_of_lt_of_le (h.inRange tick htick).2 (range_of_mem_ticksOf hmaximum hother).1
  case inRange =>
    intro tick htick
    rcases List.mem_append.mp htick with hold | hnew
    · obtain ⟨hlower, hupper⟩ := h.inRange tick hold
      exact ⟨hlower, lt_min (hupper.trans hmaximum) (hupper.trans hnext)⟩
    · exact (range_of_mem_ticksOf hmaximum hnew).2
  case level =>
    intro tick htick
    rcases List.mem_append.mp htick with hold | hnew
    · exact h.level tick hold
    · rcases (mem_ticksOf hpos).mp hnew with ⟨-, rfl⟩ | ⟨m, -, -, -, -, rfl⟩
      · exact .inl rfl
      · exact .inr rfl
  case major =>
    intro x
    constructor
    · rintro ⟨tick, htick, hlevel, rfl⟩
      rcases List.mem_append.mp htick with hold | hnew
      · obtain ⟨hpower, hlower, hupper⟩ := (h.major _).mp ⟨tick, hold, hlevel, rfl⟩
        exact ⟨hpower, hlower, lt_min (hupper.trans hmaximum) (hupper.trans hnext)⟩
      · have hrange := (range_of_mem_ticksOf hmaximum hnew).2.2
        rcases (mem_ticksOf hpos).mp hnew with ⟨hlarger, rfl⟩ | ⟨m, -, -, -, -, rfl⟩
        · exact ⟨⟨k, rfl⟩, hlarger, hrange⟩
        · cases hlevel
    · rintro ⟨⟨j, rfl⟩, hlower, hupper⟩
      have hj : j < k + 1 := zpow_ten_lt_iff.mp (lt_of_lt_of_le hupper (min_le_right _ _))
      rcases Int.lt_or_eq_of_le (Int.le_of_lt_add_one hj) with hlt | rfl
      · obtain ⟨tick, hold, hlevel, hposition⟩ :=
          (h.major _).mpr ⟨⟨j, rfl⟩, hlower, zpow_ten_lt_iff.mpr hlt⟩
        exact ⟨tick, List.mem_append_left _ hold, hlevel, hposition⟩
      · exact ⟨_, List.mem_append_right _ ((mem_ticksOf hpos).mpr (.inl ⟨hlower, rfl⟩)), rfl, rfl⟩
  case minor =>
    intro x
    constructor
    · rintro ⟨tick, htick, hlevel, rfl⟩
      rcases List.mem_append.mp htick with hold | hnew
      · obtain ⟨hmultiple, hlower, hupper⟩ := (h.minor _).mp ⟨tick, hold, hlevel, rfl⟩
        exact ⟨hmultiple, hlower, lt_min (hupper.trans hmaximum) (hupper.trans hnext)⟩
      · have hrange := (range_of_mem_ticksOf hmaximum hnew).2.2
        rcases (mem_ticksOf hpos).mp hnew with ⟨-, rfl⟩ | ⟨m, hle, hlt, hlower, -, rfl⟩
        · cases hlevel
        · exact ⟨⟨k, m, hle, hlt, rfl⟩, hlower, hrange⟩
    · rintro ⟨⟨j, m, hle, hlt, rfl⟩, hlower, hupper⟩
      have hj : j < k + 1 := (multiple_lt_zpow_iff (by omega) hlt).mp
        (lt_of_lt_of_le hupper (min_le_right _ _))
      rcases Int.lt_or_eq_of_le (Int.le_of_lt_add_one hj) with hbefore | rfl
      · obtain ⟨tick, hold, hlevel, hposition⟩ := (h.minor _).mpr
          ⟨⟨j, m, hle, hlt, rfl⟩, hlower, (multiple_lt_zpow_iff (by omega) hlt).mpr hbefore⟩
        exact ⟨tick, List.mem_append_left _ hold, hlevel, hposition⟩
      · have hbound := lt_of_lt_of_le hupper (min_le_left _ _)
        exact ⟨_, List.mem_append_right _ ((mem_ticksOf hpos).mpr
          (.inr ⟨m, hle, hlt, hlower, hbound, rfl⟩)), rfl, rfl⟩

end Round

/-! ## The whole loop -/

section Loop

variable {minimum maximum : ℚ} {formatter : Formatter}

/-- In a range that ends where it begins there are no ticks. -/
theorem correctTicks_nil (h : maximum ≤ minimum) : CorrectTicks minimum maximum [] where
  increasing := List.Pairwise.nil
  inRange := by simp
  level := by simp
  major := by
    intro x
    simp only [List.not_mem_nil, false_and, exists_false, false_iff]
    rintro ⟨-, hlower, hupper⟩
    linarith
  minor := by
    intro x
    simp only [List.not_mem_nil, false_and, exists_false, false_iff]
    rintro ⟨-, hlower, hupper⟩
    linarith

/-- From a power of ten the loop goes up to the next power behind the range, which is {lit}`n`
powers away. -/
theorem ends_of_zpow {n : Nat} {k : ℤ} {ticks : List Tick}
    (h : CorrectTicks minimum (min maximum (10 ^ k)) ticks)
    (hlast : maximum ≤ (10 : ℚ) ^ (k + n)) :
    ∃ result, Ends (tickRound formatter minimum maximum) (10 ^ k, ticks) result ∧
      CorrectTicks minimum maximum result := by
  induction n generalizing k ticks with
  | zero =>
      have hle : maximum ≤ (10 : ℚ) ^ k := by simpa using hlast
      rw [min_eq_left hle] at h
      exact ⟨ticks, .leave (if_neg (not_lt.mpr hle)), h⟩
  | succ n ih =>
      by_cases hlt : (10 : ℚ) ^ k < maximum
      · rw [min_eq_right hlt.le] at h
        have hround : CorrectTicks minimum (min maximum (10 ^ (k + 1)))
            (ticks ++ ticksOf formatter minimum maximum (10 ^ k)) :=
          correctTicks_round h hlt
        have hexponent : k + 1 + (n : ℤ) = k + ((n + 1 : Nat) : ℤ) := by
          push_cast
          ring
        rw [← hexponent] at hlast
        obtain ⟨result, hends, hcorrect⟩ := ih hround hlast
        rw [zpow_ten_succ, mul_comm] at hends
        exact ⟨result, .next (if_pos hlt) hends, hcorrect⟩
      · rw [min_eq_left (not_lt.mp hlt)] at h
        exact ⟨ticks, .leave (if_neg hlt), h⟩

/-- Above zero the loop ends with the ticks of the range. -/
theorem ends_of_pos (h : 0 < minimum) :
    ∃ result, Ends (tickRound formatter minimum maximum) (10 ^ Int.log 10 minimum, []) result ∧
      CorrectTicks minimum maximum result := by
  have hfirst : (10 : ℚ) ^ Int.log 10 minimum ≤ minimum :=
    Int.zpow_log_le_self (by norm_num) h
  obtain ⟨n, hn⟩ := pow_unbounded_of_one_lt (maximum / 10 ^ Int.log 10 minimum)
    (show (1 : ℚ) < 10 by norm_num)
  have hpos := zpow_ten_pos (Int.log 10 minimum)
  apply ends_of_zpow (n := n) (correctTicks_nil ((min_le_right _ _).trans hfirst))
  rw [zpow_add₀ (by norm_num), zpow_natCast]
  rw [div_lt_iff₀ hpos] at hn
  linarith

/-- At zero the loop never ends, as the magnitude stays zero. -/
theorem not_ends_of_zero (h : 0 < maximum) (ticks result : List Tick) :
    ¬Ends (tickRound formatter minimum maximum) (0, ticks) result := by
  apply not_ends_of_invariant fun s => s.1 = 0
  · rintro ⟨magnitude, added⟩ hzero
    obtain rfl : magnitude = 0 := hzero
    exact ⟨(0 * 10, added ++ ticksOf formatter minimum maximum 0), if_pos h, zero_mul 10⟩
  · rfl

end Loop

/-- On an axis that does not begin below zero the method returns the ticks of the axis exactly if
the axis begins above zero or also ends at zero. -/
theorem getLogTicks_iff (minimum maximum : ℚ) (hminimum : 0 ≤ minimum)
    (hmaximum : minimum ≤ maximum) :
    (∃ fuel ticks, logTicks formatter fuel minimum maximum = some ticks ∧
        getLogTicks formatter fuel minimum maximum = some (joinTicks formatter ticks) ∧
        CorrectTicks minimum maximum ticks) ↔
      (minimum = 0 → maximum = 0) := by
  have hjoined : ∀ {fuel : Nat} {ticks : List Tick},
      logTicks formatter fuel minimum maximum = some ticks →
        getLogTicks formatter fuel minimum maximum = some (joinTicks formatter ticks) := by
    intro fuel ticks hticks
    rw [getLogTicks, hticks, Option.map_some]
  rcases eq_or_lt_of_le hminimum with hzero | hpos
  · have hlog : floorLog10 minimum = some ⊥ := by simp [floorLog10, ← hzero]
    have hloop : ∀ fuel, logTicks formatter fuel minimum maximum =
        loop (tickRound formatter minimum maximum) fuel (0, []) := by
      intro fuel
      simp only [logTicks, hlog, pow10]
    constructor
    · rintro ⟨fuel, ticks, hticks, -⟩ -
      by_contra hne
      have hlarger : 0 < maximum := by
        rcases eq_or_lt_of_le (hminimum.trans hmaximum) with heq | hlt
        · exact absurd heq.symm hne
        · exact hlt
      rw [hloop] at hticks
      exact not_ends_of_zero hlarger [] ticks (ends_iff_loop.mpr ⟨fuel, hticks⟩)
    · intro hends
      have hend : maximum = 0 := hends hzero.symm
      have hround : tickRound formatter minimum maximum (0, []) = .inr [] := by
        simp [tickRound, hend]
      have hticks : logTicks formatter 1 minimum maximum = some [] :=
        (hloop 1).trans (loop_leave hround 0)
      refine ⟨1, [], hticks, hjoined hticks, correctTicks_nil ?_⟩
      rw [hend, ← hzero]
  · have hlog : floorLog10 minimum = some ((Int.log 10 minimum : ℤ) : WithBot ℤ) := by
      rw [floorLog10, if_neg (not_lt.mpr hminimum), if_neg hpos.ne']
    have hcorrect : ∃ result, Ends (tickRound formatter minimum maximum)
        (10 ^ Int.log 10 minimum, []) result ∧ CorrectTicks minimum maximum result :=
      ends_of_pos hpos
    obtain ⟨result, hends, hcorrect⟩ := hcorrect
    obtain ⟨fuel, hfuel⟩ := ends_iff_loop.mp hends
    constructor
    · intro _ hzero
      exact absurd hzero hpos.ne'
    · intro _
      have hticks : logTicks formatter fuel minimum maximum = some result := by
        simpa only [logTicks, hlog, pow10] using hfuel
      exact ⟨fuel, result, hticks, hjoined hticks, hcorrect⟩

/-- The ticks of the axis that a plot for a Core CPU has by default, with six digits behind the
point. -/
theorem getLogTicks_core :
    let digits : ℚ → List Char := fun x => Nat.toDigits 10 ⌊x⌋.toNat ++
      '.' :: (Nat.toDigits 10 (10 ^ 6 + ⌊(x - ⌊x⌋) * 10 ^ 6⌋.toNat)).tail
    ∃ fuel ticks, logTicks ⟨digits, digits⟩ fuel (3 / 100) 100 = some ticks ∧
      getLogTicks ⟨digits, digits⟩ fuel (3 / 100) 100 =
        some (joinTicks ⟨digits, digits⟩ ticks) ∧
      CorrectTicks (3 / 100) 100 ticks := by
  intro digits
  exact (getLogTicks_iff ⟨digits, digits⟩ (3 / 100) 100 (by norm_num) (by norm_num)).mpr
    (by norm_num)

/-- With a point whose operational intensity is zero an axis that is scaled automatically begins at
zero, and its ticks are never found. -/
theorem zero_intensity_no_ticks :
    let plot : RooflinePlot := ⟨[0, 2], [1, 1], [4], true, true, ⟨none, none⟩, ⟨none, none⟩⟩
    ∃ range, plot.getXRange .Core = .ok range ∧ 0 ≤ range.minimum ∧
      ∀ formatter : Formatter,
        ¬∃ fuel ticks, logTicks formatter fuel range.minimum range.maximum = some ticks ∧
          getLogTicks formatter fuel range.minimum range.maximum =
            some (joinTicks formatter ticks) ∧
          CorrectTicks range.minimum range.maximum ticks := by
  intro plot
  have hrange : plot.getXRange .Core = .ok ⟨0, 4, by norm_num⟩ := by
    simp only [RooflinePlot.getXRange, axisRange, plot, getRange, List.foldl_cons, List.foldl_nil,
      visitItem]
    norm_num [Range.between, combineRanges, bind, Except.bind, pure, Except.pure]
  refine ⟨_, hrange, le_rfl, ?_⟩
  rintro formatter ⟨fuel, ticks, hticks, -⟩
  exact not_ends_of_zero (by norm_num) [] ticks (ends_iff_loop.mpr ⟨fuel, hticks⟩)

end Plots
end Roofline
