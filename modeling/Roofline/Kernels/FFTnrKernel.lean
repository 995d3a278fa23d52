import Mathlib.Analysis.CStarAlgebra.Classes
import Mathlib.Analysis.Real.Pi.Bounds
import Mathlib.Analysis.SpecialFunctions.Trigonometric.Bounds
import Roofline.Library.FourierTransforms
import Roofline.Library.Loops

/-!
# The fast Fourier transform of the kernel

The kernel transforms a buffer of complex numbers, whose real and imaginary parts follow each
other.  A first loop swaps the numbers into the order of their reversed bits, counting up to the
reversed index by carries from the top.  The Danielson-Lanczos stages combine blocks of doubling
length, with powers of a rotation that are found by repeated multiplication.

Numbers are real here, and the sine is exact; the constant for the circle is the one of the
source.

Main results:

- Theorem {lit}`reversal_eq`: the first loop puts each number to the index with reversed bits.
- Theorem {lit}`four1_isSome_iff`: for which lengths the accesses stay inside of the buffer.
- Theorem {lit}`four1_near_dft`: how far the result is from the Fourier transform.
-/

namespace Roofline
namespace Kernels
namespace FFTnrKernel

open Loops

/-! ## The kernel -/

section Model

variable {R : Type}

/-- {lit}`SWAP(data[a], data[b])`, which must not leave the buffer. -/
def swap (a b : Nat) (data : List R) : Option (List R) := do
  let tempr ← data[a]?
  let value ← data[b]?
  return (data.set a value).set b tempr

/-- {lit}`while (m >= 2 && j > m)`: the carry to the lower bits. -/
def carry (m j : Nat) : Nat × Nat :=
  if 2 ≤ m ∧ m < j then carry (m / 2) (j - m) else (m, j)
termination_by m
decreasing_by omega

/-- {lit}`if (j > i)`: the swap of the real and of the imaginary parts. -/
def swapNumbers (i j : Nat) (data : List R) : Option (List R) :=
  if i < j then do
    let data ← swap (j - 1) (i - 1) data
    swap j i data
  else some data

/-- A round of the loop that reverses the bits, with {lit}`j` and the data. -/
def reversalRound (n i : Nat) (s : Nat × List R) : Option (Nat × List R) := do
  let data ← swapNumbers i s.1 s.2
  let (m, j) := carry (n / 2) s.1
  return (j + m, data)

/-- The first loop, which puts the numbers into bit-reversed order. -/
def reversal (n : Nat) (data : List R) : Option (List R) := do
  let s ← loop 1 n 2 (reversalRound n) (1, data)
  return s.2

variable [Field R]

/-- The body of the innermost loop. -/
def butterfly (wr wi : R) (mmax i : Nat) (data : List R) : Option (List R) := do
  let j := i + mmax
  let tempr := wr * (← data[j - 1]?) - wi * (← data[j]?)
  let tempi := wr * (← data[j]?) + wi * (← data[j - 1]?)
  let data := data.set (j - 1) ((← data[i - 1]?) - tempr)
  let data := data.set j ((← data[i]?) - tempi)
  let data := data.set (i - 1) ((← data[i - 1]?) + tempr)
  return data.set i ((← data[i]?) + tempi)

/-- The factor of the innermost loop and the data. -/
structure State (R : Type) where
  wr : R
  wi : R
  data : List R

/-- The body of the loop over {lit}`m`. -/
def stageRound (n mmax : Nat) (wpr wpi : R) (m : Nat) (s : State R) : Option (State R) := do
  let data ← loop m (n + 1) (2 * mmax) (butterfly s.wr s.wi mmax) s.data
  return {
    wr := s.wr * wpr - s.wi * wpi + s.wr
    wi := s.wi * wpr + s.wr * wpi + s.wi
    data }

variable (sin : R → R) (n : Nat) (isign : Int)

/-- The angle of a stage, from the constant in the source. -/
def theta (mmax : Nat) : R :=
  isign * (6.28318530717959 / mmax)

/-- The body of the loop over {lit}`mmax`. -/
def stageBody (mmax : Nat) (data : List R) : Option (List R) := do
  let wtemp := sin (0.5 * theta isign mmax)
  let wpr := -2.0 * wtemp * wtemp
  let wpi := sin (theta isign mmax)
  let s ← loop 1 mmax 2 (stageRound n mmax wpr wpi) { wr := 1, wi := 0, data }
  return s.data

/-- The Danielson-Lanczos routine from {lit}`mmax` on. -/
def danielsonLanczos (mmax : Nat) (hpos : 0 < mmax) (data : List R) : Option (List R) :=
  if mmax < n then do
    let data ← stageBody sin n isign mmax data
    danielsonLanczos (2 * mmax) (Nat.mul_pos Nat.two_pos hpos) data
  else some data
termination_by n - mmax

/-- {lit}`four1`; none if the buffer is left. -/
def four1 (data : List R) (nn : Nat) : Option (List R) := do
  let data ← reversal (2 * nn) data
  danielsonLanczos sin (2 * nn) isign 2 Nat.two_pos data

end Model

/-! ## Lengths -/

section Lengths

variable {R : Type} {data data' : List R}

/-- Swapping keeps the length. -/
theorem length_of_swap {a b : Nat} (h : swap a b data = some data') :
    data'.length = data.length := by
  simp only [swap, Option.bind_eq_bind, Option.bind_eq_some_iff, Option.pure_def,
    Option.some.injEq] at h
  rcases h with ⟨_, _, _, _, rfl⟩
  simp

/-- A round of the first loop keeps the length. -/
theorem length_of_reversalRound {n i : Nat} {s s' : Nat × List R}
    (h : reversalRound n i s = some s') : s'.2.length = s.2.length := by
  simp only [reversalRound, Option.bind_eq_bind, Option.bind_eq_some_iff, Option.pure_def,
    Option.some.injEq] at h
  rcases h with ⟨swapped, hswap, rfl⟩
  unfold swapNumbers at hswap
  split at hswap
  · rcases Option.bind_eq_some_iff.mp hswap with ⟨first, hfirst, hsecond⟩
    rw [length_of_swap hsecond, length_of_swap hfirst]
  · cases hswap
    rfl

/-- The first loop keeps the length. -/
theorem length_of_reversal {n : Nat} (h : reversal n data = some data') :
    data'.length = data.length := by
  simp only [reversal, Option.bind_eq_bind, Option.bind_eq_some_iff, Option.pure_def,
    Option.some.injEq] at h
  rcases h with ⟨s, hloop, rfl⟩
  exact (exists_round (P := fun _ s => s.2.length = data.length) rfl hloop rfl
    fun _ _ s s' hs hround => (length_of_reversalRound hround).trans hs).1

/-- Where the innermost body succeeds. -/
theorem of_butterfly [Field R] {wr wi : R} {mmax i : Nat}
    (h : butterfly wr wi mmax i data = some data') :
    data'.length = data.length ∧ i + mmax < data.length := by
  simp only [butterfly, Option.bind_eq_bind, Option.bind_eq_some_iff, Option.pure_def,
    Option.some.injEq] at h
  rcases h with ⟨_, _, _, hlast, _, _, _, _, _, _, _, _, _, _, _, _, rfl⟩
  rcases List.getElem?_eq_some_iff.mp hlast with ⟨hlt, _⟩
  exact ⟨by simp, hlt⟩

end Lengths

/-! ## The order of the numbers -/

section Reversal

open FourierTransforms

variable {R : Type} {data : List R}

/-- The complex number at an index. -/
def number (data : List R) (q : Nat) : Option R × Option R :=
  (data[2 * q]?, data[2 * q + 1]?)

/-- Two elements inside of the buffer are swapped. -/
theorem swap_spec (data : List R) {a b : Nat} (ha : a < data.length) (hb : b < data.length) :
    ∃ data', swap a b data = some data' ∧ data'.length = data.length ∧
      ∀ q, data'[q]? = if q = b then data[a]? else if q = a then data[b]? else data[q]? := by
  refine ⟨(data.set a data[b]).set b data[a], by simp [swap, ha, hb], by simp, fun q => ?_⟩
  rw [List.getElem?_set, List.getElem?_set]
  split
  · next heq =>
      subst heq
      simp [hb]
  · next hne =>
      rw [if_neg (Ne.symm hne)]
      split
      · next heq =>
          subst heq
          simp
      · next hother => rw [if_neg (Ne.symm hother)]

/-- Two complex numbers are swapped if the first one comes first. -/
theorem swapNumbers_spec {i j n : Nat} (hlength : data.length = 2 * n) (hi : i < n) (hj : j < n) :
    ∃ data', swapNumbers (2 * i + 1) (2 * j + 1) data = some data' ∧
      data'.length = data.length ∧
        ∀ q, number data' q =
          if i < j then
            if q = i then number data j else if q = j then number data i else number data q
          else number data q := by
  unfold swapNumbers
  by_cases hlt : i < j
  · have hodd : 2 * i + 1 < 2 * j + 1 := by omega
    rcases swap_spec data (a := 2 * j) (b := 2 * i) (by omega) (by omega) with
      ⟨first, hfirst, hlengthFirst, hvalues⟩
    rcases swap_spec first (a := 2 * j + 1) (b := 2 * i + 1) (by omega) (by omega) with
      ⟨data', hsecond, hlength', hvalues'⟩
    refine ⟨data', ?_, hlength'.trans hlengthFirst, fun q => ?_⟩
    · rw [if_pos hodd, Nat.add_sub_cancel, Nat.add_sub_cancel, hfirst]
      exact hsecond
    · have hne : ∀ a b : Nat, 2 * a ≠ 2 * b + 1 := by omega
      have hne' : ∀ a b : Nat, 2 * a + 1 ≠ 2 * b := by omega
      simp only [if_pos hlt, number, hvalues', hvalues, hne, hne', if_false,
        Nat.mul_right_inj two_ne_zero, Nat.add_right_cancel_iff]
      split
      · rfl
      · split <;> rfl
  · exact ⟨data, by rw [if_neg (by omega)], rfl, fun q => by rw [if_neg hlt]⟩

/-- Counting up to the reversed index: a carry goes from the top to the lower bits. -/
theorem carry_reverseBits {k i : Nat} (hi : i + 1 < 2 ^ k) :
    (carry (2 ^ k) (2 * reverseBits k i + 1)).2 + (carry (2 ^ k) (2 * reverseBits k i + 1)).1 =
      2 * reverseBits k (i + 1) + 1 := by
  induction k generalizing i with
  | zero => simp at hi
  | succ k ih =>
      have hpos : 0 < 2 ^ k := Nat.two_pow_pos k
      have hpow : 2 ^ (k + 1) = 2 * 2 ^ k := Nat.pow_succ'
      rw [carry]
      rcases Nat.even_or_odd' i with ⟨half, rfl | rfl⟩
      · have hlow := reverseBits_lt k half
        rw [reverseBits_even, reverseBits_odd, if_neg (by omega)]
        simp only
        omega
      · have hnext : 2 * half + 1 + 1 = 2 * (half + 1) := by omega
        have hhalf : 2 ^ (k + 1) / 2 = 2 ^ k := by omega
        have hrest : 2 * (2 ^ k + reverseBits k half) + 1 - 2 ^ (k + 1) =
            2 * reverseBits k half + 1 := by omega
        rw [reverseBits_odd, if_pos (by omega), hhalf, hrest, hnext, reverseBits_even]
        exact ih (by omega)

/-- The first loop puts each number to the index with reversed bits. -/
theorem reversal_eq {k : Nat} (hlength : data.length = 2 * 2 ^ k) :
    ∃ data', reversal (2 * 2 ^ k) data = some data' ∧ data'.length = data.length ∧
      ∀ q < 2 ^ k, number data' q = number data (reverseBits k q) := by
  have hcount : (2 * 2 ^ k - 1 + (2 - 1)) / 2 = 2 ^ k := by
    have hpos : 0 < 2 ^ k := Nat.two_pow_pos k
    omega
  -- the numbers of a pair have changed places as soon as one of them has been passed
  have hloop := loop_rule (s := (1, data)) (reversalRound (2 * 2 ^ k))
    (fun i s => (i < 2 ^ k → s.1 = 2 * reverseBits k i + 1) ∧ s.2.length = data.length ∧
      ∀ q < 2 ^ k, number s.2 q =
        if q < i ∨ reverseBits k q < i then number data (reverseBits k q) else number data q)
    hcount ⟨fun _ => by simp, rfl, fun q _ => by simp⟩ ?_
  · rcases hloop with ⟨s, hsome, _, hlength', hvalues⟩
    refine ⟨s.2, by rw [reversal, hsome]; rfl, hlength', fun q hq => ?_⟩
    rw [hvalues q hq, if_pos (Or.inl hq)]
  · rintro i hi ⟨j, before⟩ ⟨hj, hlengthBefore, hvalues⟩
    have hrev := reverseBits_lt k i
    obtain rfl : j = 2 * reverseBits k i + 1 := hj hi
    rcases swapNumbers_spec (hlengthBefore.trans hlength) hi hrev with
      ⟨after, hswap, hlengthAfter, hafter⟩
    have hindex : 1 + i * 2 = 2 * i + 1 := by omega
    have hhalf : 2 * 2 ^ k / 2 = 2 ^ k := by omega
    refine ⟨((carry (2 ^ k) (2 * reverseBits k i + 1)).2 +
        (carry (2 ^ k) (2 * reverseBits k i + 1)).1, after), ?_,
      fun hnext => carry_reverseBits hnext, hlengthAfter.trans hlengthBefore, fun q hq => ?_⟩
    · simp only [reversalRound, hindex, hswap, hhalf, Option.bind_eq_bind, Option.bind_some,
        Option.pure_def]
    · have hback := reverseBits_reverseBits hi
      have hbackQ := reverseBits_reverseBits hq
      have hsame : reverseBits k q = i ↔ q = reverseBits k i := by
        constructor
        · intro h
          rw [← hbackQ, h]
        · intro h
          rw [h, hback]
      have hnow := hvalues q hq
      have hfirst := hvalues i hi
      have hsecond := hvalues (reverseBits k i) hrev
      rw [hback] at hsecond
      rw [hafter q]
      by_cases hq' : q = i
      · subst hq'
        split <;> grind
      · by_cases hpartner : q = reverseBits k i
        · subst hpartner
          split <;> grind
        · have hother : reverseBits k q ≠ i := fun h => hpartner (hsame.mp h)
          split <;> grind

end Reversal

/-! ## The stages -/

section Stages

open FourierTransforms

variable {data : List ℝ}

/-- The complex number at an index, with zeros outside of the buffer. -/
def complexAt (data : List ℝ) (q : Nat) : ℂ :=
  ⟨(number data q).1.getD 0, (number data q).2.getD 0⟩

/-- A butterfly replaces two numbers by their sum and difference, the second one turned. -/
theorem butterfly_spec (wr wi : ℝ) {i l n : Nat} (hlength : data.length = 2 * n) (hl : 0 < l)
    (hi : i + l < n) :
    ∃ data', butterfly wr wi (2 * l) (2 * i + 1) data = some data' ∧
      data'.length = data.length ∧
        ∀ q, complexAt data' q =
          if q = i then complexAt data i + ⟨wr, wi⟩ * complexAt data (i + l)
          else if q = i + l then complexAt data i - ⟨wr, wi⟩ * complexAt data (i + l)
          else complexAt data q := by
  have hinside : ∀ q < 2 * n, ∃ x, data[q]? = some x := by
    intro q hq
    exact ⟨_, List.getElem?_eq_getElem (hlength ▸ hq)⟩
  rcases hinside (2 * i) (by omega) with ⟨a, ha⟩
  rcases hinside (2 * i + 1) (by omega) with ⟨b, hb⟩
  rcases hinside (2 * (i + l)) (by omega) with ⟨c, hc⟩
  rcases hinside (2 * (i + l) + 1) (by omega) with ⟨d, hd⟩
  have hj : 2 * i + 1 + 2 * l = 2 * (i + l) + 1 := by ring
  have hodd : ∀ a b : Nat, 2 * a + 1 ≠ 2 * b := by omega
  have hodd' : ∀ a b : Nat, 2 * a ≠ 2 * b + 1 := by omega
  have hfirst : complexAt data i = ⟨a, b⟩ := by simp [complexAt, number, ha, hb]
  have hsecond : complexAt data (i + l) = ⟨c, d⟩ := by simp [complexAt, number, hc, hd]
  refine ⟨(((data.set (2 * (i + l)) (a - (wr * c - wi * d))).set (2 * (i + l) + 1)
    (b - (wr * d + wi * c))).set (2 * i) (a + (wr * c - wi * d))).set (2 * i + 1)
      (b + (wr * d + wi * c)), ?_, by simp, fun q => ?_⟩
  · have hl' : l ≠ 0 := by omega
    simp [butterfly, hj, ha, hb, hc, hd, hl', hodd, hodd']
  · have hlast : 2 * (i + l) + 1 < data.length := by omega
    have hlow : 2 * i + 1 < data.length := by omega
    rw [hfirst, hsecond]
    by_cases hq : q = i
    · subst hq
      have heven : 2 * q < data.length := by omega
      rw [if_pos rfl]
      apply Complex.ext <;> simp [complexAt, number, heven, hlow]
    · rw [if_neg hq]
      by_cases hq' : q = i + l
      · subst hq'
        have heven : 2 * (i + l) < data.length := by omega
        have hl' : l ≠ 0 := by omega
        rw [if_pos rfl]
        apply Complex.ext <;> simp [complexAt, number, heven, hlast, hl', hodd, hodd']
      · rw [if_neg hq']
        apply Complex.ext <;>
          simp [complexAt, number, hodd, hodd', Ne.symm hq, Ne.symm hq']

/-- The two members of a block that a round of the innermost loop combines. -/
theorem mod_and_div_iff {l p q t : Nat} (hp : p < l) :
    q % l = p ∧ q / (2 * l) = t ↔ q = p + t * (2 * l) ∨ q = p + t * (2 * l) + l := by
  have hpos : 0 < l := by omega
  have hdiv : q / (2 * l) = q / l / 2 := by rw [Nat.div_div_eq_div_mul, Nat.mul_comm]
  constructor
  · rintro ⟨rfl, rfl⟩
    have hq := Nat.div_add_mod q l
    rw [hdiv]
    rcases Nat.even_or_odd' (q / l) with ⟨half, hhalf | hhalf⟩
    · left
      have hdouble : q / l / 2 = half := by omega
      rw [hhalf] at hq
      rw [hdouble]
      linarith
    · right
      have hdouble : q / l / 2 = half := by omega
      rw [hhalf] at hq
      rw [hdouble]
      linarith
  · intro h
    have hform : ∃ half < 2, q = l * (2 * t + half) + p := by
      rcases h with rfl | rfl
      · exact ⟨0, by omega, by ring⟩
      · exact ⟨1, by omega, by ring⟩
    rcases hform with ⟨half, hhalf, rfl⟩
    rw [hdiv, Nat.mul_add_mod, Nat.mod_eq_of_lt hp, Nat.mul_add_div hpos, Nat.div_eq_of_lt hp]
    omega

variable {w : Nat → Nat → ℂ} {a : Nat → ℂ} {k l : Nat}

/-- The innermost loop combines the members of all blocks with one factor. -/
theorem butterflies_spec {wr wi : ℝ} {p : Nat} (hl : l < k) (hp : p < 2 ^ l)
    (hlength : data.length = 2 * 2 ^ k) (hw : (⟨wr, wi⟩ : ℂ) = w l p)
    (hvalues : ∀ q < 2 ^ k,
      complexAt data q = if q % 2 ^ l < p then stage w l a q else a q) :
    ∃ data', loop (1 + p * 2) (2 * 2 ^ k + 1) (2 * (2 * 2 ^ l)) (butterfly wr wi (2 * 2 ^ l)) data =
        some data' ∧ data'.length = 2 * 2 ^ k ∧
      ∀ q < 2 ^ k, complexAt data' q = if q % 2 ^ l < p + 1 then stage w l a q else a q := by
  obtain ⟨blocks, hblocks⟩ : ∃ blocks, 2 ^ k = blocks * (2 * 2 ^ l) := by
    refine ⟨2 ^ (k - (l + 1)), ?_⟩
    rw [← Nat.pow_succ', ← Nat.pow_add]
    congr 1
    omega
  have hcount : (2 * 2 ^ k + 1 - (1 + p * 2) + (2 * (2 * 2 ^ l) - 1)) / (2 * (2 * 2 ^ l)) =
      blocks := by
    have hdouble : blocks * (2 * (2 * 2 ^ l)) = 2 * 2 ^ k := by
      rw [hblocks]
      ring
    apply Nat.div_eq_of_lt_le
    · omega
    · rw [Nat.add_mul, Nat.one_mul, hdouble]
      omega
  have hloop := loop_rule (s := data) (butterfly wr wi (2 * 2 ^ l))
    (fun t data => data.length = 2 * 2 ^ k ∧ ∀ q < 2 ^ k, complexAt data q =
      if q % 2 ^ l < p ∨ q % 2 ^ l = p ∧ q / (2 * 2 ^ l) < t then stage w l a q else a q)
    hcount ⟨hlength, fun q hq => by simpa using hvalues q hq⟩ ?_
  · rcases hloop with ⟨data', hsome, hlength', hvalues'⟩
    refine ⟨data', hsome, hlength', fun q hq => ?_⟩
    have hblock : q / (2 * 2 ^ l) < blocks := by
      apply Nat.div_lt_of_lt_mul
      rwa [Nat.mul_comm, ← hblocks]
    have hdone : q % 2 ^ l < p + 1 ↔
        q % 2 ^ l < p ∨ q % 2 ^ l = p ∧ q / (2 * 2 ^ l) < blocks := by omega
    rw [hvalues' q hq, if_congr hdone rfl rfl]
  · rintro t ht before ⟨hlengthBefore, hbefore⟩
    have hblockEnd : t * (2 * 2 ^ l) + 2 * 2 ^ l ≤ 2 ^ k := by
      rw [hblocks, ← Nat.succ_mul]
      exact Nat.mul_le_mul_right _ ht
    have hindex : 1 + p * 2 + t * (2 * (2 * 2 ^ l)) = 2 * (p + t * (2 * 2 ^ l)) + 1 := by ring
    rcases butterfly_spec wr wi (i := p + t * (2 * 2 ^ l)) hlengthBefore
      (Nat.two_pow_pos l) (by omega) with ⟨after, hsome, hlengthAfter, hafter⟩
    refine ⟨after, by rw [hindex, hsome], hlengthAfter.trans hlengthBefore, fun q hq => ?_⟩
    have hposition := fun q => mod_and_div_iff (q := q) (t := t) hp
    have hlow := (hposition (p + t * (2 * 2 ^ l))).mpr (Or.inl rfl)
    have hhigh := (hposition (p + t * (2 * 2 ^ l) + 2 ^ l)).mpr (Or.inr rfl)
    have hpow : 2 * 2 ^ l = 2 ^ (l + 1) := Nat.pow_succ'.symm
    have hlowStage : stage w l a (p + t * (2 * 2 ^ l)) =
        a (p + t * (2 * 2 ^ l)) + w l p * a (p + t * (2 * 2 ^ l) + 2 ^ l) := by
      have horder : p + t * (2 * 2 ^ l) = t * 2 ^ (l + 1) + p := by rw [hpow, Nat.add_comm]
      have hnext : t * 2 ^ (l + 1) + p + 2 ^ l = t * 2 ^ (l + 1) + 2 ^ l + p := by ring
      rw [horder, stage_block l a (by omega), combine, if_pos hp, hnext]
    have hhighStage : stage w l a (p + t * (2 * 2 ^ l) + 2 ^ l) =
        a (p + t * (2 * 2 ^ l)) - w l p * a (p + t * (2 * 2 ^ l) + 2 ^ l) := by
      have horder : p + t * (2 * 2 ^ l) = t * 2 ^ (l + 1) + p := by rw [hpow, Nat.add_comm]
      have hnext : t * 2 ^ (l + 1) + p + 2 ^ l = t * 2 ^ (l + 1) + 2 ^ l + p := by ring
      have hupper : t * 2 ^ (l + 1) + p + 2 ^ l = t * 2 ^ (l + 1) + (2 ^ l + p) := by ring
      have hsub : 2 ^ l + p - 2 ^ l = p := by omega
      rw [horder]
      rw [hupper, stage_block l a (by omega), combine, if_neg (by omega), hsub]
      rw [← hupper, hnext]
    have hlowBefore : complexAt before (p + t * (2 * 2 ^ l)) = a (p + t * (2 * 2 ^ l)) := by
      rw [hbefore _ (by omega), if_neg (by omega)]
    have hhighBefore : complexAt before (p + t * (2 * 2 ^ l) + 2 ^ l) =
        a (p + t * (2 * 2 ^ l) + 2 ^ l) := by
      rw [hbefore _ (by omega), if_neg (by omega)]
    rw [hafter q, hw, hlowBefore, hhighBefore]
    by_cases hq' : q = p + t * (2 * 2 ^ l)
    · rw [if_pos hq', hq', if_pos (by omega), hlowStage]
    · rw [if_neg hq']
      by_cases hq'' : q = p + t * (2 * 2 ^ l) + 2 ^ l
      · rw [if_pos hq'', hq'', if_pos (by omega), hhighStage]
      · have hother := (hposition q).not.mpr (by omega)
        have hcond : (q % 2 ^ l < p ∨ q % 2 ^ l = p ∧ q / (2 * 2 ^ l) < t + 1) ↔
            (q % 2 ^ l < p ∨ q % 2 ^ l = p ∧ q / (2 * 2 ^ l) < t) := by omega
        rw [if_neg hq'', hbefore q hq, if_congr hcond rfl rfl]

/-- The rotation by which the loop over {lit}`m` multiplies. -/
noncomputable def rotation (sin : ℝ → ℝ) (isign : Int) (l : Nat) : ℂ :=
  ⟨1 + -2.0 * sin (0.5 * theta isign (2 * 2 ^ l)) * sin (0.5 * theta isign (2 * 2 ^ l)),
    sin (theta isign (2 * 2 ^ l))⟩

/-- The trigonometric recurrence is a multiplication. -/
theorem recurrence_eq (wr wi wpr wpi : ℝ) :
    (⟨wr * wpr - wi * wpi + wr, wi * wpr + wr * wpi + wi⟩ : ℂ) = ⟨wr, wi⟩ * ⟨1 + wpr, wpi⟩ := by
  apply Complex.ext <;> simp only [Complex.mul_re, Complex.mul_im] <;> ring

/-- A round of the loop over {lit}`mmax` is a stage of the transform. -/
theorem stageBody_spec (sin : ℝ → ℝ) (isign : Int) (hl : l < k)
    (hlength : data.length = 2 * 2 ^ k) :
    ∃ data', stageBody sin (2 * 2 ^ k) isign (2 * 2 ^ l) data = some data' ∧
      data'.length = 2 * 2 ^ k ∧
        ∀ q < 2 ^ k, complexAt data' q =
          stage (fun l p => rotation sin isign l ^ p) l (complexAt data) q := by
  have hpos := Nat.two_pow_pos l
  have hcount : (2 * 2 ^ l - 1 + (2 - 1)) / 2 = 2 ^ l := by omega
  have hloop := loop_rule (s := { wr := 1, wi := 0, data })
    (stageRound (2 * 2 ^ k) (2 * 2 ^ l)
      (-2.0 * sin (0.5 * theta isign (2 * 2 ^ l)) * sin (0.5 * theta isign (2 * 2 ^ l)))
      (sin (theta isign (2 * 2 ^ l))))
    (fun p s => (⟨s.wr, s.wi⟩ : ℂ) = rotation sin isign l ^ p ∧
      s.data.length = 2 * 2 ^ k ∧ ∀ q < 2 ^ k, complexAt s.data q =
        if q % 2 ^ l < p then stage (fun l p => rotation sin isign l ^ p) l (complexAt data) q
        else complexAt data q)
    hcount ⟨rfl, hlength, fun q _ => rfl⟩ ?_
  · rcases hloop with ⟨s, hsome, _, hlength', hvalues⟩
    refine ⟨s.data, by simp only [stageBody, hsome, Option.bind_eq_bind, Option.bind_some,
      Option.pure_def], hlength', fun q hq => ?_⟩
    rw [hvalues q hq, if_pos (Nat.mod_lt q hpos)]
  · rintro p hp ⟨wr, wi, before⟩ ⟨hw, hlengthBefore, hbefore⟩
    rcases butterflies_spec (w := fun l p => rotation sin isign l ^ p) hl hp hlengthBefore hw hbefore
      with ⟨after, hsome, hlengthAfter, hafter⟩
    have hround : ∀ wpr wpi : ℝ, stageRound (2 * 2 ^ k) (2 * 2 ^ l) wpr wpi (1 + p * 2)
        { wr, wi, data := before } =
          some { wr := wr * wpr - wi * wpi + wr, wi := wi * wpr + wr * wpi + wi, data := after } := by
      intro wpr wpi
      simp only [stageRound, hsome, Option.bind_eq_bind, Option.bind_some, Option.pure_def]
    refine ⟨_, hround _ _, ?_, hlengthAfter, hafter⟩
    rw [pow_succ, ← hw]
    exact recurrence_eq wr wi _ _

/-- The remaining stages. -/
theorem danielsonLanczos_spec (sin : ℝ → ℝ) (isign : Int) {x : Nat → ℂ} (hl : l ≤ k)
    (hpos : 0 < 2 * 2 ^ l) (hlength : data.length = 2 * 2 ^ k)
    (hvalues : ∀ q < 2 ^ k,
      complexAt data q = stages (fun l p => rotation sin isign l ^ p) l x q) :
    ∃ out, danielsonLanczos sin (2 * 2 ^ k) isign (2 * 2 ^ l) hpos data = some out ∧
      out.length = 2 * 2 ^ k ∧
        ∀ q < 2 ^ k, complexAt out q = stages (fun l p => rotation sin isign l ^ p) k x q := by
  obtain ⟨rest, rfl⟩ : ∃ rest, k = l + rest := ⟨k - l, by omega⟩
  induction rest generalizing l data with
  | zero =>
      refine ⟨data, ?_, hlength, hvalues⟩
      rw [danielsonLanczos, if_neg (by simp)]
  | succ rest ih =>
      have hlt : 2 * 2 ^ l < 2 * 2 ^ (l + (rest + 1)) :=
        Nat.mul_lt_mul_of_pos_left (Nat.pow_lt_pow_right (by omega) (by omega)) Nat.two_pos
      rcases stageBody_spec sin isign (l := l) (by omega) hlength with
        ⟨after, hsome, hlengthAfter, hafter⟩
      have hexp : l + (rest + 1) = l + 1 + rest := by omega
      have hdouble : 2 * (2 * 2 ^ l) = 2 * 2 ^ (l + 1) := by rw [Nat.pow_succ']
      have hnext : ∀ q < 2 ^ (l + 1 + rest),
          complexAt after q = stages (fun l p => rotation sin isign l ^ p) (l + 1) x q := by
        intro q hq
        rw [← hexp] at hq
        rw [hafter q hq, stages]
        exact stage_congr (by omega) hvalues hq
      rw [hexp] at hlengthAfter
      rcases ih (l := l + 1) (by omega) (by omega) hlengthAfter hnext with
        ⟨out, hout, hlengthOut, hresult⟩
      refine ⟨out, ?_, by rw [hexp]; exact hlengthOut, by rw [hexp]; exact hresult⟩
      rw [danielsonLanczos, if_pos hlt, hsome]
      simp only [hdouble, Option.bind_eq_bind, Option.bind_some]
      rw [hexp]
      exact hout

/-- The kernel computes the recursion, whatever the sine is. -/
theorem four1_eq (sin : ℝ → ℝ) (isign : Int) (hlength : data.length = 2 * 2 ^ k) :
    ∃ out, four1 sin isign data (2 ^ k) = some out ∧ out.length = 2 * 2 ^ k ∧
      ∀ q < 2 ^ k, complexAt out q =
        radix2 (fun l p => rotation sin isign l ^ p) k (complexAt data) q := by
  rcases reversal_eq hlength with ⟨reversed, hreversal, hlengthReversed, hreversed⟩
  have hstart : ∀ q < 2 ^ k, complexAt reversed q = complexAt data (reverseBits k q) := by
    intro q hq
    rw [complexAt, hreversed q hq, complexAt]
  rcases danielsonLanczos_spec sin isign (l := 0) (x := complexAt reversed)
    (Nat.zero_le k) (by omega) (hlengthReversed.trans hlength) (fun q _ => rfl) with
    ⟨out, hout, hlengthOut, hresult⟩
  refine ⟨out, ?_, hlengthOut, fun q hq => ?_⟩
  · rw [four1, hreversal]
    exact hout
  · rw [hresult q hq, stages_reversed hstart hq]

end Stages

/-! ## Accesses outside of the buffer -/

section Accesses

variable {R : Type} [Field R] {sin : R → R} {isign : Int} {n : Nat} {data data' : List R}

/-- The innermost loop keeps the length and stays inside of the buffer. -/
theorem length_of_butterflies {m mmax : Nat} {wr wi : R}
    (h : loop m (n + 1) (2 * mmax) (butterfly wr wi mmax) data = some data')
    (hlength : data.length = n) :
    data'.length = n ∧ (0 < mmax → m ≤ n → m + mmax < n) := by
  have hrounds := exists_round (P := fun _ data => data.length = n) rfl h hlength
    fun _ _ _ _ hlengthBefore hbody => (of_butterfly hbody).1.trans hlengthBefore
  refine ⟨hrounds.1, fun hpos hm => ?_⟩
  have hsome : 0 < (n + 1 - m + (2 * mmax - 1)) / (2 * mmax) := Nat.div_pos (by omega) (by omega)
  rcases hrounds.2 0 hsome with ⟨before, after, hlengthBefore, hbody⟩
  have hlast := (of_butterfly hbody).2
  omega

/-- A round of the loop over the factors keeps the length and stays inside of the buffer. -/
theorem length_of_stageRound {m mmax : Nat} {wpr wpi : R} {s s' : State R}
    (h : stageRound n mmax wpr wpi m s = some s') (hlength : s.data.length = n) :
    s'.data.length = n ∧ (0 < mmax → m ≤ n → m + mmax < n) := by
  simp only [stageRound, Option.bind_eq_bind, Option.bind_eq_some_iff, Option.pure_def,
    Option.some.injEq] at h
  rcases h with ⟨_, hloop, rfl⟩
  exact length_of_butterflies hloop hlength

/-- The last factor of a stage is used for the upper half of the first block. -/
theorem length_of_stageBody {l : Nat} (h : stageBody sin n isign (2 * l) data = some data')
    (hlength : data.length = n) (hl : 0 < l) (hle : 2 * l ≤ n) :
    data'.length = n ∧ 2 * (2 * l) ≤ n := by
  simp only [stageBody, Option.bind_eq_bind, Option.bind_eq_some_iff, Option.pure_def,
    Option.some.injEq] at h
  rcases h with ⟨s, hloop, rfl⟩
  have hcount : (2 * l - 1 + (2 - 1)) / 2 = l := by omega
  have hrounds := exists_round (P := fun _ s => s.data.length = n) hcount hloop hlength
    fun _ _ _ _ hlengthBefore hround => (length_of_stageRound hround hlengthBefore).1
  rcases hrounds.2 (l - 1) (by omega) with ⟨before, after, hlengthBefore, hround⟩
  have hlast := (length_of_stageRound hround hlengthBefore).2 (by omega) (by omega)
  exact ⟨hrounds.1, by omega⟩

/-- If the stages stay inside of the buffer, its length is twice a power of two. -/
theorem exists_of_danielsonLanczos {l : Nat} (hpos : 0 < 2 * 2 ^ l)
    (h : danielsonLanczos sin n isign (2 * 2 ^ l) hpos data = some data')
    (hlength : data.length = n) (hle : 2 * 2 ^ l ≤ n) : ∃ k, n = 2 * 2 ^ k := by
  obtain ⟨rest, hrest⟩ : ∃ rest, n - 2 ^ l = rest := ⟨_, rfl⟩
  induction rest using Nat.strong_induction_on generalizing l data with
  | _ rest ih =>
      have hpow := Nat.two_pow_pos l
      rw [danielsonLanczos] at h
      split at h
      · simp only [Option.bind_eq_bind, Option.bind_eq_some_iff] at h
        rcases h with ⟨after, hstage, hlater⟩
        rcases length_of_stageBody hstage hlength hpow hle with ⟨hlengthAfter, hle'⟩
        have hdouble : 2 * (2 * 2 ^ l) = 2 * 2 ^ (l + 1) := by rw [Nat.pow_succ']
        simp only [hdouble] at hlater hle'
        refine ih (n - 2 ^ (l + 1)) ?_ (by omega) hlater hlengthAfter hle' rfl
        rw [Nat.pow_succ']
        omega
      · exact ⟨l, by omega⟩

/-- The accesses stay inside of a buffer exactly if its length is a power of two. -/
theorem four1_isSome_iff (sin : ℝ → ℝ) (isign : Int) {data : List ℝ} {nn : Nat} (hnn : 0 < nn)
    (hlength : data.length = 2 * nn) :
    (four1 sin isign data nn).isSome = true ↔ ∃ k, nn = 2 ^ k := by
  constructor
  · intro h
    rcases Option.isSome_iff_exists.mp h with ⟨out, hout⟩
    simp only [four1, Option.bind_eq_bind, Option.bind_eq_some_iff] at hout
    rcases hout with ⟨reversed, hreversal, hstages⟩
    have hlengthReversed := (length_of_reversal hreversal).trans hlength
    rcases exists_of_danielsonLanczos (l := 0) (by omega) hstages hlengthReversed (by omega) with
      ⟨k, hk⟩
    exact ⟨k, by omega⟩
  · rintro ⟨k, rfl⟩
    rcases four1_eq sin isign hlength with ⟨out, hout, _⟩
    rw [hout]
    rfl

/-- Three numbers are no power of two. -/
theorem four1_isSome_iff_three :
    (four1 (fun x : ℝ => x) 1 [1, 0, 2, 1, 0, 3] 3).isSome = true ↔ ∃ k, 3 = 2 ^ k :=
  four1_isSome_iff (fun x => x) 1 (by omega) rfl

end Accesses

/-! ## The Fourier transform -/

section Accuracy

open FourierTransforms Complex

/-- The root of unity of the transform. -/
noncomputable def root (isign : Int) (nn : Nat) : ℂ :=
  exp ((Real.pi * (2 * isign : Int) / nn : ℝ) * I)

/-- With the exact sine, the rotation of a stage is the exponential of its angle. -/
theorem rotation_eq (isign : Int) (l : Nat) :
    rotation Real.sin isign l = exp ((theta isign (2 * 2 ^ l) : ℝ) * I) := by
  have hcos := Real.cos_two_mul (0.5 * theta isign (2 * 2 ^ l))
  have hdouble : 2 * (0.5 * theta isign (2 * 2 ^ l) : ℝ) = theta isign (2 * 2 ^ l) := by ring
  rw [hdouble, Real.cos_sq'] at hcos
  apply Complex.ext
  · have htwo : (-2.0 : ℝ) = -2 := by norm_num
    rw [exp_ofReal_mul_I_re, hcos, rotation, htwo]
    ring
  · rw [exp_ofReal_mul_I_im, rotation]

/-- Points on the circle are no further apart than their angles. -/
theorem norm_exp_sub_exp_le (x y : ℝ) : ‖exp (x * I) - exp (y * I)‖ ≤ |x - y| := by
  have hproduct : exp (x * I) - exp (y * I) = exp (y * I) * (exp (I * (x - y : ℝ)) - 1) := by
    rw [mul_sub, ← Complex.exp_add, mul_one]
    congr 2
    push_cast
    ring
  rw [hproduct, norm_mul, norm_exp_ofReal_mul_I, one_mul]
  exact Real.norm_exp_I_mul_ofReal_sub_one_le

/-- The constant in the source is near the length of the circle. -/
theorem abs_circle_le : |(6.28318530717959 : ℝ) - 2 * Real.pi| ≤ 4 / 10 ^ 15 := by
  have hlow := Real.pi_gt_d20
  have hhigh := Real.pi_lt_d20
  rw [abs_le]
  constructor <;> norm_num at hlow hhigh ⊢ <;> linarith

/-- The factors of the stages are near the powers of the roots of unity. -/
theorem factors (isign : Int) (hsign : isign = 1 ∨ isign = -1) :
    Factors (fun l => root isign (2 ^ l)) (fun l p => rotation Real.sin isign l ^ p)
      (2 / 10 ^ 15) where
  square l := by
    rw [root, root, ← Complex.exp_nat_mul]
    congr 1
    push_cast
    field_simp
    ring
  half l := by
    have hpos : (2 : ℂ) ^ l ≠ 0 := pow_ne_zero l two_ne_zero
    have hangle : ((2 ^ l : ℕ) : ℂ) * ((Real.pi * (2 * isign : Int) / (2 ^ (l + 1) : ℕ) : ℝ) * I) =
        isign * (Real.pi * I) := by
      push_cast
      field_simp
      ring
    rw [root, ← Complex.exp_nat_mul, hangle]
    rcases hsign with rfl | rfl
    · simp
    · simp [Complex.exp_neg]
  unit l n := by
    rw [norm_pow, root, norm_exp_ofReal_mul_I, one_pow]
  factor l p := by
    rw [norm_pow, rotation_eq, norm_exp_ofReal_mul_I, one_pow]
  close l p hp := by
    have hpos : (0 : ℝ) < 2 ^ l := pow_pos two_pos l
    have hsign' : |(isign : ℝ)| = 1 := by rcases hsign with rfl | rfl <;> simp
    have hp' : (p : ℝ) ≤ 2 ^ l := by exact_mod_cast hp.le
    have hangle : (p * theta isign (2 * 2 ^ l) : ℝ) -
        p * (Real.pi * (2 * isign : Int) / (2 ^ (l + 1) : ℕ)) =
          isign * (6.28318530717959 - 2 * Real.pi) * (p / (2 * 2 ^ l)) := by
      rw [theta]
      push_cast
      field_simp
      ring
    have hfraction : |(p : ℝ) / (2 * 2 ^ l)| ≤ 1 / 2 := by
      rw [abs_of_nonneg (by positivity), div_le_div_iff₀ (by positivity) two_pos]
      linarith
    have hexp : ∀ x : ℝ, exp (x * I) ^ p = exp ((p * x : ℝ) * I) := by
      intro x
      rw [← Complex.exp_nat_mul]
      congr 1
      push_cast
      ring
    rw [rotation_eq, root, hexp, hexp]
    calc
      _ ≤ |(p * theta isign (2 * 2 ^ l) : ℝ) - p * (Real.pi * (2 * isign : Int) / (2 ^ (l + 1) : ℕ))| :=
        norm_exp_sub_exp_le _ _
      _ = |(6.28318530717959 : ℝ) - 2 * Real.pi| * |(p : ℝ) / (2 * 2 ^ l)| := by
        rw [hangle, abs_mul, abs_mul, hsign', one_mul]
      _ ≤ 4 / 10 ^ 15 * (1 / 2) :=
        mul_le_mul abs_circle_le hfraction (abs_nonneg _) (by positivity)
      _ = 2 / 10 ^ 15 := by norm_num

/-- How far the result is from the Fourier transform. -/
theorem four1_near_dft {k : Nat} {isign : Int} {data : List ℝ} (hsign : isign = 1 ∨ isign = -1)
    (hlength : data.length = 2 * 2 ^ k) :
    ∃ out, four1 Real.sin isign data (2 ^ k) = some out ∧ out.length = 2 * 2 ^ k ∧
      ∀ q < 2 ^ k, ‖complexAt out q - dft (root isign (2 ^ k)) (2 ^ k) (complexAt data) q‖ ≤
        k * (2 / 10 ^ 15) * ∑ j ∈ Finset.range (2 ^ k), ‖complexAt data j‖ := by
  rcases four1_eq Real.sin isign hlength with ⟨out, hout, hlengthOut, hresult⟩
  refine ⟨out, hout, hlengthOut, fun q hq => ?_⟩
  rw [hresult q hq]
  exact norm_radix2_sub_dft_le (factors isign hsign) k (complexAt data) hq

/-- The transform of four numbers. -/
theorem four1_near_dft_four :
    ∃ out, four1 Real.sin (-1) [1, 0, 2, 1, 0, 3, 1, 1] 4 = some out ∧ out.length = 8 ∧
      ∀ q < 4, ‖complexAt out q - dft (root (-1) 4) 4 (complexAt [1, 0, 2, 1, 0, 3, 1, 1]) q‖ ≤
        (2 : Nat) * (2 / 10 ^ 15) *
          ∑ j ∈ Finset.range 4, ‖complexAt [1, 0, 2, 1, 0, 3, 1, 1] j‖ :=
  four1_near_dft (k := 2) (Or.inr rfl) rfl

end Accuracy

end FFTnrKernel
end Kernels
end Roofline
