import Mathlib.Algebra.Ring.Nat
import Mathlib.Tactic.Common

/-!
# Pseudorandom numbers and shuffles of the Java library

{lit}`java.util.Random` is a linear congruential generator on 48 bits, and
{lit}`Collections.shuffle` swaps the elements of a list with randomly selected ones, from the last
one backwards.

Main results:

- Theorem {lit}`shuffle_perm`: a shuffle keeps the elements.
-/

namespace Roofline
namespace Random

/-- The state of a generator. -/
structure Generator where
  seed : Nat

/-- {lit}`new Random(seed)`, which scrambles the seed. -/
def create (seed : Nat) : Generator :=
  ⟨(seed ^^^ 0x5DEECE66D) % 2 ^ 48⟩

/-- {lit}`next(31)`. -/
def next (generator : Generator) : Nat × Generator :=
  let seed := (generator.seed * 0x5DEECE66D + 0xB) % 2 ^ 48
  (seed / 2 ^ 17, ⟨seed⟩)

/-- Numbers are drawn until the sum with the bound does not overflow an {lit}`int`; the period of
the generator bounds how many are drawn. -/
def drawBelow (bound : Nat) : Nat → Generator → Nat × Generator
  | 0, generator => (0, generator)
  | draws + 1, generator =>
      let (bits, generator) := next generator
      let value := bits % bound
      if bits - value + (bound - 1) < 2 ^ 31 then (value, generator)
      else drawBelow bound draws generator

/-- {lit}`nextInt`. -/
def nextInt (bound : Nat) (generator : Generator) : Nat × Generator :=
  if bound &&& (bound - 1) = 0 then
    let (bits, generator) := next generator
    (bound * bits / 2 ^ 31, generator)
  else
    drawBelow bound (2 ^ 48) generator

section Shuffle

variable {α : Type*}

/-- {lit}`Collections.swap`. -/
def swap (l : List α) (i j : Nat) : List α :=
  match l[i]?, l[j]? with
  | some a, some b => (l.set i b).set j a
  | _, _ => l

/-- The positions below this one are still to be swapped. -/
def shuffleFrom : Nat → Generator → List α → List α
  | 0, _, l => l
  | 1, _, l => l
  | i + 2, generator, l =>
      let (j, generator) := nextInt (i + 2) generator
      shuffleFrom (i + 1) generator (swap l (i + 1) j)

/-- {lit}`Collections.shuffle` with a new generator. -/
def shuffle (seed : Nat) (l : List α) : List α :=
  shuffleFrom l.length (create seed) l

/-- Swapping two elements permutes the list. -/
theorem swap_perm (l : List α) (i j : Nat) : (swap l i j).Perm l := by
  unfold swap
  cases hi : l[i]? with
  | none => exact List.Perm.refl l
  | some a =>
      cases hj : l[j]? with
      | none => exact List.Perm.refl l
      | some b =>
          rcases List.getElem?_eq_some_iff.mp hi with ⟨hilt, rfl⟩
          rcases List.getElem?_eq_some_iff.mp hj with ⟨hjlt, rfl⟩
          exact List.set_set_perm hilt hjlt

/-- A shuffle keeps the elements. -/
theorem shuffle_perm (seed : Nat) (l : List α) : (shuffle seed l).Perm l := by
  have hfrom (i : Nat) (generator : Generator) (l : List α) :
      (shuffleFrom i generator l).Perm l := by
    induction i generalizing generator l with
    | zero => exact List.Perm.refl l
    | succ i ih =>
        cases i with
        | zero => exact List.Perm.refl l
        | succ i => exact (ih _ _).trans (swap_perm l _ _)
  exact hfrom _ _ l

/-- The numbers 0 to 8 in the order of the fixed generator. -/
example : shuffle 0 (List.range 9) = [3, 7, 2, 1, 0, 5, 4, 8, 6] := by decide +kernel

end Shuffle

end Random
end Roofline
