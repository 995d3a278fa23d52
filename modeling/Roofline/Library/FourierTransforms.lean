import Mathlib.Algebra.BigOperators.Intervals
import Mathlib.Analysis.Normed.Ring.Basic
import Mathlib.Tactic.Ring

/-!
# Library - Fourier transforms in place

The discrete Fourier transform of a sequence whose length is a power of two is combined from
those of its even and its odd members.  Done in place, on a sequence whose indices have had
their bits reversed, it takes one stage for each power.  The factors of a stage need not be
exact.

Main results:

- Theorem {lit}`reverseBits_reverseBits`: reversing the bits twice changes nothing.
- Theorem {lit}`stages_reversed`: the stages, on a sequence in the order of the reversed bits,
  give what the recursion gives.
- Theorem {lit}`norm_radix2_sub_dft_le`: how far the recursion is from the transform if its
  factors are close to the powers of the roots.
-/

namespace Roofline
namespace FourierTransforms

/-! ## Reversed bits -/

/-- The number whose bits are the lowest {lit}`k` bits in reverse order. -/
def reverseBits : Nat → Nat → Nat
  | 0, _ => 0
  | k + 1, i => i % 2 * 2 ^ k + reverseBits k (i / 2)

/-- A last bit that is zero comes first. -/
@[simp]
theorem reverseBits_even (k i : Nat) : reverseBits (k + 1) (2 * i) = reverseBits k i := by
  simp [reverseBits]

/-- A last bit that is one comes first. -/
@[simp]
theorem reverseBits_odd (k i : Nat) :
    reverseBits (k + 1) (2 * i + 1) = 2 ^ k + reverseBits k i := by
  have hmod : (2 * i + 1) % 2 = 1 := by omega
  have hdiv : (2 * i + 1) / 2 = i := by omega
  rw [reverseBits, hmod, hdiv, Nat.one_mul]

/-- Zero is reversed to zero. -/
@[simp]
theorem reverseBits_zero (k : Nat) : reverseBits k 0 = 0 := by
  induction k with
  | zero => rfl
  | succ k ih => simpa [ih] using reverseBits_even k 0

/-- A reversed number has no more bits. -/
theorem reverseBits_lt (k i : Nat) : reverseBits k i < 2 ^ k := by
  induction k generalizing i with
  | zero => exact Nat.one_pos
  | succ k ih =>
      have hrest := ih (i / 2)
      have hbit : i % 2 < 2 := Nat.mod_lt i (by omega)
      rw [reverseBits, Nat.pow_succ]
      have hhigh : i % 2 * 2 ^ k ≤ 1 * 2 ^ k := Nat.mul_le_mul_right _ (by omega)
      omega

/-- The highest bit becomes the lowest one. -/
theorem reverseBits_high (k : Nat) {high i : Nat} (hi : i < 2 ^ k) (hhigh : high < 2) :
    reverseBits (k + 1) (high * 2 ^ k + i) = 2 * reverseBits k i + high := by
  induction k generalizing i with
  | zero =>
      have hzero : i = 0 := by simpa using hi
      subst hzero
      simp [reverseBits, Nat.mod_eq_of_lt hhigh]
  | succ k ih =>
      have hhalf : i / 2 < 2 ^ k := by
        rw [Nat.pow_succ] at hi
        omega
      have hdouble : high * 2 ^ (k + 1) = 2 * (high * 2 ^ k) := by ring
      have hmod : (high * 2 ^ (k + 1) + i) % 2 = i % 2 := by omega
      have hdiv : (high * 2 ^ (k + 1) + i) / 2 = high * 2 ^ k + i / 2 := by omega
      rw [reverseBits, hmod, hdiv, ih hhalf, reverseBits]
      ring

/-- Reversing the bits twice changes nothing. -/
theorem reverseBits_reverseBits {k i : Nat} (hi : i < 2 ^ k) :
    reverseBits k (reverseBits k i) = i := by
  induction k generalizing i with
  | zero =>
      have hzero : i = 0 := by simpa using hi
      rw [hzero, reverseBits]
  | succ k ih =>
      have hhalf : i / 2 < 2 ^ k := by
        rw [Nat.pow_succ] at hi
        omega
      have hback := ih hhalf
      have hbit : i % 2 < 2 := Nat.mod_lt i (by omega)
      have houter : reverseBits (k + 1) i = i % 2 * 2 ^ k + reverseBits k (i / 2) := rfl
      rw [houter, reverseBits_high k (reverseBits_lt k _) hbit, hback]
      omega

/-! ## The transform -/

section Transform

variable {A : Type*} [CommRing A]

/-- The discrete Fourier transform of the first {lit}`n` members, with powers of a root. -/
def dft (ζ : A) (n : Nat) (x : Nat → A) (p : Nat) : A :=
  ∑ j ∈ Finset.range n, x j * ζ ^ (j * p)

/-- A sum over even and odd indices. -/
theorem sum_range_double {M : Type*} [AddCommMonoid M] (n : Nat) (f : Nat → M) :
    ∑ j ∈ Finset.range (2 * n), f j =
      (∑ j ∈ Finset.range n, f (2 * j)) + ∑ j ∈ Finset.range n, f (2 * j + 1) := by
  induction n with
  | zero => simp
  | succ n ih =>
      have hdouble : 2 * (n + 1) = 2 * n + 1 + 1 := by omega
      rw [hdouble, Finset.sum_range_succ, Finset.sum_range_succ, ih, Finset.sum_range_succ,
        Finset.sum_range_succ]
      abel

/-- A transform is combined from those of the even and of the odd members. -/
theorem dft_double (ζ : A) (n : Nat) (x : Nat → A) (p : Nat) :
    dft ζ (2 * n) x p =
      dft (ζ ^ 2) n (fun j => x (2 * j)) p + ζ ^ p * dft (ζ ^ 2) n (fun j => x (2 * j + 1)) p := by
  rw [dft, sum_range_double, dft, dft, Finset.mul_sum]
  congr 1
  · apply Finset.sum_congr rfl
    intro j _
    rw [← pow_mul, Nat.mul_assoc]
  · apply Finset.sum_congr rfl
    intro j _
    rw [← pow_mul]
    ring

/-- The transform of a sequence is periodic. -/
theorem dft_add {ζ : A} {n : Nat} (hζ : ζ ^ n = 1) (x : Nat → A) (p : Nat) :
    dft ζ n x (n + p) = dft ζ n x p := by
  apply Finset.sum_congr rfl
  intro j _
  rw [Nat.mul_add, pow_add, Nat.mul_comm j n, pow_mul, hζ, one_pow, one_mul]

/-! ## The recursion and the stages -/

/-- The transforms of the even and of the odd members, combined with the factors for
{lit}`2 ^ l`. -/
def combine (w : Nat → Nat → A) (l : Nat) (even odd : Nat → A) (p : Nat) : A :=
  if p < 2 ^ l then even p + w l p * odd p
  else even (p - 2 ^ l) - w l (p - 2 ^ l) * odd (p - 2 ^ l)

/-- The transform by recursion over the even and the odd indices. -/
def radix2 (w : Nat → Nat → A) : Nat → (Nat → A) → Nat → A
  | 0, x, _ => x 0
  | l + 1, x, p =>
      combine w l (radix2 w l fun j => x (2 * j)) (radix2 w l fun j => x (2 * j + 1)) p

/-- A stage in place: blocks of {lit}`2 ^ l` members are combined in pairs. -/
def stage (w : Nat → Nat → A) (l : Nat) (a : Nat → A) (i : Nat) : A :=
  combine w l (fun q => a (i / 2 ^ (l + 1) * 2 ^ (l + 1) + q))
    (fun q => a (i / 2 ^ (l + 1) * 2 ^ (l + 1) + 2 ^ l + q)) (i % 2 ^ (l + 1))

/-- The transform in place, stage by stage. -/
def stages (w : Nat → Nat → A) : Nat → (Nat → A) → Nat → A
  | 0, a => a
  | l + 1, a => stage w l (stages w l a)

variable {w : Nat → Nat → A}

/-- What is combined depends on the halves only. -/
theorem combine_congr {l p : Nat} {even even' odd odd' : Nat → A} (hp : p < 2 ^ (l + 1))
    (heven : ∀ q < 2 ^ l, even q = even' q) (hodd : ∀ q < 2 ^ l, odd q = odd' q) :
    combine w l even odd p = combine w l even' odd' p := by
  unfold combine
  split
  · next hlt => rw [heven p hlt, hodd p hlt]
  · next hge =>
      have hq : p - 2 ^ l < 2 ^ l := by
        rw [Nat.pow_succ] at hp
        omega
      rw [heven _ hq, hodd _ hq]

/-- A stage combines the halves of each block. -/
theorem stage_block (l : Nat) (a : Nat → A) {b p : Nat} (hp : p < 2 ^ (l + 1)) :
    stage w l a (b * 2 ^ (l + 1) + p) =
      combine w l (fun q => a (b * 2 ^ (l + 1) + q)) (fun q => a (b * 2 ^ (l + 1) + 2 ^ l + q)) p := by
  have hdiv : (b * 2 ^ (l + 1) + p) / 2 ^ (l + 1) = b := by
    rw [Nat.mul_comm, Nat.mul_add_div (Nat.two_pow_pos _), Nat.div_eq_of_lt hp, Nat.add_zero]
  have hmod : (b * 2 ^ (l + 1) + p) % 2 ^ (l + 1) = p := by
    rw [Nat.mul_comm, Nat.mul_add_mod, Nat.mod_eq_of_lt hp]
  rw [stage, hdiv, hmod]

/-- A stage needs only the members of its blocks. -/
theorem stage_congr {k l : Nat} (hl : l < k) {a a' : Nat → A} (h : ∀ i < 2 ^ k, a i = a' i) {i : Nat}
    (hi : i < 2 ^ k) : stage w l a i = stage w l a' i := by
  have hsplit : (2 : Nat) ^ k = 2 ^ (k - (l + 1)) * 2 ^ (l + 1) := by
    rw [← Nat.pow_add]
    congr 1
    omega
  have hblock : i / 2 ^ (l + 1) * 2 ^ (l + 1) + 2 ^ (l + 1) ≤ 2 ^ k := by
    have hlt : i / 2 ^ (l + 1) < 2 ^ (k - (l + 1)) := by
      apply Nat.div_lt_of_lt_mul
      rwa [Nat.mul_comm, ← hsplit]
    have hmul := Nat.mul_le_mul_right (2 ^ (l + 1)) (Nat.succ_le_of_lt hlt)
    rw [← hsplit, Nat.succ_mul] at hmul
    exact hmul
  rw [Nat.pow_succ 2 l] at hblock
  unfold stage
  apply combine_congr (Nat.mod_lt _ (Nat.two_pow_pos _))
  · intro q hq
    apply h
    rw [Nat.pow_succ 2 l]
    omega
  · intro q hq
    apply h
    rw [Nat.pow_succ 2 l]
    omega

/-- On a sequence in the order of the reversed bits, each block of a stage is the recursion on
the members whose indices have the same lowest bits. -/
theorem stages_blocks {k l : Nat} (hl : l ≤ k) {x a : Nat → A}
    (ha : ∀ i < 2 ^ k, a i = x (reverseBits k i)) {b p : Nat} (hb : b < 2 ^ (k - l))
    (hp : p < 2 ^ l) :
    stages w l a (b * 2 ^ l + p) =
      radix2 w l (fun j => x (reverseBits (k - l) b + j * 2 ^ (k - l))) p := by
  induction l generalizing b p with
  | zero =>
      have hzero : p = 0 := by simpa using hp
      subst hzero
      simpa [stages, radix2] using ha b hb
  | succ l ih =>
      obtain ⟨m, hm⟩ : ∃ m, k - l = m + 1 := ⟨k - l - 1, by omega⟩
      have hm' : k - (l + 1) = m := by omega
      rw [hm'] at hb ⊢
      rw [stages, stage_block l _ hp, radix2]
      apply combine_congr hp
      · intro q hq
        have hblock : b * 2 ^ (l + 1) + q = 2 * b * 2 ^ l + q := by ring
        have hb' : 2 * b < 2 ^ (k - l) := by
          rw [hm, Nat.pow_succ]
          omega
        have hstride : ∀ j, j * 2 ^ (m + 1) = 2 * j * 2 ^ m := by
          intro j
          ring
        simp only [hblock, ih (by omega) hb' hq, hm, reverseBits_even, hstride]
      · intro q hq
        have hblock : b * 2 ^ (l + 1) + 2 ^ l + q = (2 * b + 1) * 2 ^ l + q := by ring
        have hb' : 2 * b + 1 < 2 ^ (k - l) := by
          rw [hm, Nat.pow_succ]
          omega
        have hstride : ∀ j, 2 ^ m + reverseBits m b + j * 2 ^ (m + 1) =
            reverseBits m b + (2 * j + 1) * 2 ^ m := by
          intro j
          ring
        simp only [hblock, ih (by omega) hb' hq, hm, reverseBits_odd, hstride]

/-- All stages, on a sequence in the order of the reversed bits. -/
theorem stages_reversed {k : Nat} {x a : Nat → A} (ha : ∀ i < 2 ^ k, a i = x (reverseBits k i))
    {p : Nat} (hp : p < 2 ^ k) : stages w k a p = radix2 w k x p := by
  have hzero : 0 < 2 ^ (k - k) := Nat.two_pow_pos _
  have hblocks := stages_blocks (w := w) (Nat.le_refl k) ha hzero hp
  simpa [reverseBits] using hblocks

end Transform

/-! ## Factors that are not exact -/

section Errors

variable {A : Type*} [NormedCommRing A]

/-- A transform is bounded by the sum of the norms. -/
theorem norm_dft_le {ζ : A} (hζ : ∀ n, ‖ζ ^ n‖ ≤ 1) (n : Nat) (x : Nat → A) (p : Nat) :
    ‖dft ζ n x p‖ ≤ ∑ j ∈ Finset.range n, ‖x j‖ := by
  apply (norm_sum_le _ _).trans
  apply Finset.sum_le_sum
  intro j _
  apply (norm_mul_le _ _).trans
  exact mul_le_of_le_one_right (norm_nonneg _) (hζ _)

/-- Roots of order {lit}`2 ^ l`, and factors that are close to their powers. -/
structure Factors (ζ : Nat → A) (w : Nat → Nat → A) (δ : ℝ) : Prop where
  square : ∀ l, ζ (l + 1) ^ 2 = ζ l
  half : ∀ l, ζ (l + 1) ^ 2 ^ l = -1
  unit : ∀ l n, ‖ζ l ^ n‖ ≤ 1
  factor : ∀ l p, ‖w l p‖ ≤ 1
  close : ∀ l, ∀ p < 2 ^ l, ‖w l p - ζ (l + 1) ^ p‖ ≤ δ

variable {ζ : Nat → A} {w : Nat → Nat → A} {δ : ℝ}

/-- The roots are roots of unity. -/
theorem Factors.full (h : Factors ζ w δ) (l : Nat) : ζ l ^ 2 ^ l = 1 := by
  rw [← h.square l, ← pow_mul, Nat.mul_comm, pow_mul, h.half l]
  ring

/-- The error of a combination, from those of its parts. -/
theorem norm_combination_le {even even' odd odd' factor factor' : A} {s t : ℝ} {l : Nat}
    (hfactor : ‖factor‖ ≤ 1) (hclose : ‖factor - factor'‖ ≤ δ)
    (heven : ‖even - even'‖ ≤ l * δ * s) (hodd : ‖odd - odd'‖ ≤ l * δ * t) (hs : 0 ≤ s)
    (ht : ‖odd'‖ ≤ t) :
    ‖even + factor * odd - (even' + factor' * odd')‖ ≤ (l + 1 : ℝ) * δ * (s + t) := by
  have hδ : 0 ≤ δ := (norm_nonneg _).trans hclose
  have hparts : even + factor * odd - (even' + factor' * odd') =
      even - even' + factor * (odd - odd') + (factor - factor') * odd' := by ring
  have hfirst : ‖factor * (odd - odd')‖ ≤ l * δ * t :=
    (norm_mul_le _ _).trans ((mul_le_of_le_one_left (norm_nonneg _) hfactor).trans hodd)
  have hsecond : ‖(factor - factor') * odd'‖ ≤ δ * t :=
    (norm_mul_le _ _).trans (mul_le_mul hclose ht (norm_nonneg _) hδ)
  have hrest : 0 ≤ δ * s := mul_nonneg hδ hs
  calc
    ‖even + factor * odd - (even' + factor' * odd')‖
        ≤ ‖even - even'‖ + ‖factor * (odd - odd')‖ + ‖(factor - factor') * odd'‖ := by
      rw [hparts]
      exact norm_add₃_le
    _ ≤ l * δ * s + l * δ * t + δ * t := add_le_add (add_le_add heven hfirst) hsecond
    _ ≤ (l + 1 : ℝ) * δ * (s + t) := by linarith

/-- How far the recursion is from the transform. -/
theorem norm_radix2_sub_dft_le (h : Factors ζ w δ) (l : Nat) (x : Nat → A) {p : Nat}
    (hp : p < 2 ^ l) :
    ‖radix2 w l x p - dft (ζ l) (2 ^ l) x p‖ ≤
      l * δ * ∑ j ∈ Finset.range (2 ^ l), ‖x j‖ := by
  induction l generalizing x p with
  | zero =>
      have hzero : p = 0 := by simpa using hp
      subst hzero
      simp [radix2, dft]
  | succ l ih =>
      have hnonneg : 0 ≤ ∑ j ∈ Finset.range (2 ^ l), ‖x (2 * j)‖ :=
        Finset.sum_nonneg fun j _ => norm_nonneg _
      have hodd := fun q => norm_dft_le (h.unit l) (2 ^ l) (fun j => x (2 * j + 1)) q
      rw [Nat.pow_succ', sum_range_double, dft_double, h.square, radix2, combine, Nat.cast_succ]
      split
      · next hlt =>
          exact norm_combination_le (h.factor l p) (h.close l p hlt) (ih _ hlt) (ih _ hlt) hnonneg
            (hodd p)
      · next hge =>
          -- in the upper half the root has gone half around
          obtain ⟨q, rfl⟩ : ∃ q, p = 2 ^ l + q := ⟨p - 2 ^ l, by omega⟩
          have hq : q < 2 ^ l := by
            rw [Nat.pow_succ] at hp
            omega
          have hsub : 2 ^ l + q - 2 ^ l = q := by omega
          have hfactor : ‖-w l q‖ ≤ 1 := by
            rw [norm_neg]
            exact h.factor l q
          have hclose : ‖-w l q - -ζ (l + 1) ^ q‖ ≤ δ := by
            rw [← neg_sub', norm_neg]
            exact h.close l q hq
          have hroot : ζ (l + 1) ^ (2 ^ l + q) = -ζ (l + 1) ^ q := by
            rw [pow_add, h.half l, neg_one_mul]
          rw [hsub, dft_add (h.full l), dft_add (h.full l), hroot, sub_eq_add_neg (radix2 w l _ q),
            ← neg_mul]
          exact norm_combination_le hfactor hclose (ih _ hq) (ih _ hq) hnonneg (hodd q)

end Errors

end FourierTransforms
end Roofline
