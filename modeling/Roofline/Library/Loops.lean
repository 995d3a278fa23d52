import Mathlib.Algebra.Ring.Nat
import Mathlib.Data.List.Perm.Basic
import Mathlib.Data.List.ProdSigma
import Mathlib.Tactic.Common
import Mathlib.Tactic.Ring

/-!
# Library - Counting loops

A loop {lit}`for (i = start; i < stop; i += step)` runs its body for the values of the counter in
order.  Nested loops run the innermost body for a list of tuples, and loops over blocks and
inside of the blocks go through the same values as one loop, in another order.

Main results:

- Theorems {lit}`counters_of_lt` and {lit}`counters_of_le`: the counter takes the values that the
  loop gives it.
- Theorem {lit}`flatMap_counters`: loops over the blocks and inside of them are one loop.
- Theorem {lit}`flatMap_product_perm`: blocked loops over two counters go through all pairs.
- Theorem {lit}`loop_foldlM`: a loop around a fold is a fold.
- Theorems {lit}`loop_rule` and {lit}`exists_round`: what the rounds of a loop establish, for a
  loop that must not fail and for one that has not failed.
-/

namespace Roofline
namespace Loops

/-! ## Counters -/

/-- The values of the counter of {lit}`for (i = start; i < stop; i += step)`. -/
def counters (start stop step : Nat) : List Nat :=
  List.range' start ((stop - start + (step - 1)) / step) step

section Counters

variable {start stop step : Nat}

/-- A loop that starts behind its end makes no round. -/
theorem counters_of_le (hstep : 0 < step) (h : stop ≤ start) : counters start stop step = [] := by
  have hnone : (stop - start + (step - 1)) / step = 0 := by
    apply Nat.div_eq_of_lt
    omega
  rw [counters, hnone, List.range'_zero]

/-- Any other loop makes its first round and goes on. -/
theorem counters_of_lt (hstep : 0 < step) (h : start < stop) :
    counters start stop step = start :: counters (start + step) stop step := by
  have hcount : (stop - start + (step - 1)) / step =
      (stop - (start + step) + (step - 1)) / step + 1 := by
    by_cases hlast : stop ≤ start + step
    · have hone : (stop - start + (step - 1)) / step = 1 := by
        apply Nat.div_eq_of_lt_le <;> omega
      have hzero : (stop - (start + step) + (step - 1)) / step = 0 := by
        apply Nat.div_eq_of_lt
        omega
      rw [hone, hzero]
    · have hmore : stop - start + (step - 1) = stop - (start + step) + (step - 1) + step := by
        omega
      rw [hmore, Nat.add_div_right _ hstep]
  rw [counters, hcount, List.range'_succ]
  rfl

/-- A loop whose length is a multiple of the step. -/
theorem counters_mul (hstep : 0 < step) (start n : Nat) :
    counters start (start + n * step) step = List.range' start n step := by
  induction n generalizing start with
  | zero =>
      rw [Nat.zero_mul, Nat.add_zero, counters_of_le hstep (Nat.le_refl start), List.range'_zero]
  | succ n ih =>
      have hlast : start + (n + 1) * step = start + step + n * step := by
        rw [Nat.add_mul, Nat.one_mul]
        omega
      have hlt : start < start + step + n * step := by omega
      rw [hlast, counters_of_lt hstep hlt, ih, List.range'_succ]

/-- The counters of a loop by steps of one. -/
theorem counters_one (start n : Nat) : counters start (start + n) 1 = List.range' start n := by
  simpa using counters_mul Nat.one_pos start n

/-- The counters of a loop from zero by steps of one. -/
theorem counters_zero_one (n : Nat) : counters 0 n 1 = List.range n := by
  rw [List.range_eq_range', ← counters_one, Nat.zero_add]

/-- Loops over the blocks and inside of them are one loop. -/
theorem flatMap_range' (start n m step : Nat) :
    ((List.range' start n (m * step)).flatMap fun i => List.range' i m step) =
      List.range' start (n * m) step := by
  induction n generalizing start with
  | zero => simp
  | succ n ih =>
      rw [List.range'_succ, List.flatMap_cons, ih, Nat.mul_comm m step, List.range'_append]
      congr 1
      rw [Nat.add_mul, Nat.one_mul, Nat.add_comm]

/-- A loop over blocks whose size is a multiple of the step inside of them. -/
theorem flatMap_counters {block : Nat} (hstep : 0 < step) (hblock : 0 < block)
    (hdvd : step ∣ block) (hlength : block ∣ stop) :
    ((counters start (start + stop) block).flatMap fun i => counters i (i + block) step) =
      counters start (start + stop) step := by
  obtain ⟨m, rfl⟩ := hdvd
  obtain ⟨n, rfl⟩ := hlength
  have hinner : ∀ i, counters i (i + step * m) step = List.range' i m step := by
    intro i
    rw [Nat.mul_comm, counters_mul hstep]
  have hlength : step * m * n = n * m * step := by ring
  simp only [hinner]
  rw [Nat.mul_comm _ n, counters_mul hblock, Nat.mul_comm step m, flatMap_range',
    ← Nat.mul_assoc, counters_mul hstep]

/-- A loop from zero whose length is a multiple of the step. -/
theorem counters_zero_mul (hstep : 0 < step) (n : Nat) :
    counters 0 (n * step) step = (List.range n).map (· * step) := by
  have hcounters := counters_mul hstep 0 n
  rw [Nat.zero_add] at hcounters
  rw [hcounters]
  apply List.ext_getElem
  · simp
  · intro i _ _
    simp [Nat.mul_comm]

end Counters

/-! ## Indices -/

/-- An index of two dimensions is below their product. -/
theorem index_lt {a b m n : Nat} (ha : a < m) (hb : b < n) : a * n + b < m * n := by
  calc
    a * n + b < a * n + n := Nat.add_lt_add_left hb _
    _ = (a + 1) * n := by rw [Nat.add_mul, Nat.one_mul]
    _ ≤ m * n := Nat.mul_le_mul_right n ha

/-- Chunks of the same length, one after the other. -/
theorem flatMap_chunks (m n : Nat) :
    ((List.range m).flatMap fun a => List.range' (a * n) n) = List.range (m * n) := by
  cases n with
  | zero => simp
  | succ n =>
      have hblocks := flatMap_range' 0 m (n + 1) 1
      have hstarts := counters_zero_mul (Nat.succ_pos n) m
      have hcounters := counters_mul (Nat.succ_pos n) 0 m
      rw [Nat.zero_add] at hcounters
      rw [Nat.mul_one, ← hcounters, hstarts, List.flatMap_map] at hblocks
      rw [List.range_eq_range' (n := m * (n + 1)), ← hblocks]

/-- The indices of a table, row by row. -/
theorem flatMap_indices (m n : Nat) :
    ((List.range m).flatMap fun a => (List.range n).map fun b => a * n + b) =
      List.range (m * n) := by
  rw [← flatMap_chunks]
  apply List.flatMap_congr
  intro a _
  rw [List.range'_eq_map_range]

/-! ## Nested loops -/

section Nests

variable {α β γ δ : Type*}

/-- Two loops that do not depend on each other can be interchanged. -/
theorem flatMap_interchange_perm (l : List α) (l' : List β) (f : α → β → List γ) :
    (l.flatMap fun a => l'.flatMap fun b => f a b).Perm
      (l'.flatMap fun b => l.flatMap fun a => f a b) := by
  induction l with
  | nil => simp
  | cons a l ih =>
      simp only [List.flatMap_cons]
      exact (ih.append_left _).trans (List.flatMap_append_perm l' _ _)

/-- Products of the parts on the left are the product of the whole. -/
theorem flatMap_product_left (l : List α) (f : α → List γ) (l' : List δ) :
    (l.flatMap fun a => f a ×ˢ l') = (l.flatMap f) ×ˢ l' := by
  simp only [SProd.sprod, List.product, List.flatMap_assoc]

/-- Products of the parts on the right are a permutation of it. -/
theorem flatMap_product_right_perm (l : List γ) (l' : List β) (g : β → List δ) :
    (l'.flatMap fun b => l ×ˢ g b).Perm (l ×ˢ l'.flatMap g) := by
  have hpairs : l ×ˢ l'.flatMap g = l.flatMap fun c => l'.flatMap fun b => (g b).map (c, ·) := by
    simp only [SProd.sprod, List.product, List.map_flatMap]
  rw [hpairs]
  exact flatMap_interchange_perm l' l fun b c => (g b).map (c, ·)

/-- Blocked loops over two counters go through all pairs. -/
theorem flatMap_product_perm (l : List α) (l' : List β) (f : α → List γ) (g : β → List δ) :
    (l.flatMap fun a => l'.flatMap fun b => f a ×ˢ g b).Perm
      ((l.flatMap f) ×ˢ (l'.flatMap g)) := by
  rw [← flatMap_product_left]
  exact List.Perm.flatMap_left l fun a _ => flatMap_product_right_perm (f a) l' g

/-- Blocked loops over three counters go through all triples. -/
theorem flatMap_product₃_perm {ε ζ : Type*} (l : List α) (l' : List β) (l'' : List ε)
    (f : α → List γ) (g : β → List δ) (h : ε → List ζ) :
    (l.flatMap fun a => l'.flatMap fun b => l''.flatMap fun e => f a ×ˢ (g b ×ˢ h e)).Perm
      ((l.flatMap f) ×ˢ ((l'.flatMap g) ×ˢ (l''.flatMap h))) := by
  rw [← flatMap_product_left]
  apply List.Perm.flatMap_left
  intro a _
  have hinner : ∀ b ∈ l', (l''.flatMap fun e => f a ×ˢ (g b ×ˢ h e)).Perm
      (f a ×ˢ l''.flatMap fun e => g b ×ˢ h e) :=
    fun b _ => flatMap_product_right_perm (f a) l'' fun e => g b ×ˢ h e
  apply (List.Perm.flatMap_left l' hinner).trans
  apply (flatMap_product_right_perm (f a) l' _).trans
  exact (flatMap_product_perm l' l'' g h).product_left (f a)

/-- The first loop of three can be moved to the inside. -/
theorem flatMap_rotate_perm {ε : Type*} (l : List ε) (l' : List α) (l'' : List β) :
    (l.flatMap fun e => l'.flatMap fun a => l''.map fun b => (a, b, e)).Perm
      (l' ×ˢ (l'' ×ˢ l)) := by
  have htriples : l' ×ˢ (l'' ×ˢ l) =
      l'.flatMap fun a => l''.flatMap fun b => l.flatMap fun e => [(a, b, e)] := by
    simp only [SProd.sprod, List.product, List.map_flatMap, List.map_map]
    simp [List.map_eq_flatMap]
  rw [htriples]
  apply (flatMap_interchange_perm l l' fun e a => l''.map fun b => (a, b, e)).trans
  apply List.Perm.flatMap_left
  intro a _
  simp only [List.map_eq_flatMap]
  exact flatMap_interchange_perm l l'' fun e b => [(a, b, e)]

end Nests

/-! ## Bodies -/

section Bodies

variable {m : Type → Type} [Monad m] {σ ι : Type}

/-- A loop whose body changes the state, and may fail. -/
def loop (start stop step : Nat) (body : Nat → σ → m σ) (s : σ) : m σ :=
  (counters start stop step).foldlM (fun s i => body i s) s

variable [LawfulMonad m]

/-- A loop over parts is a loop within a loop. -/
theorem foldlM_flatMap (l : List ι) {κ : Type} (f : ι → List κ) (body : σ → κ → m σ) (s : σ) :
    (l.flatMap f).foldlM body s = l.foldlM (fun s i => (f i).foldlM body s) s := by
  induction l generalizing s with
  | nil => rfl
  | cons i l ih =>
      rw [List.flatMap_cons, List.foldlM_append, List.foldlM_cons]
      exact bind_congr ih

/-- A loop around a fold is a fold. -/
theorem loop_foldlM (start stop step : Nat) {κ : Type} (f : Nat → List κ) (body : σ → κ → m σ)
    (s : σ) :
    loop start stop step (fun i s => (f i).foldlM body s) s =
      ((counters start stop step).flatMap f).foldlM body s := by
  rw [foldlM_flatMap]
  rfl

end Bodies

/-! ## Rules -/

section Rules

variable {σ : Type} {start stop step count : Nat} {body : Nat → σ → Option σ} {P : Nat → σ → Prop}
  {s : σ}

variable (body P) in
/-- What the rounds of a loop establish one after the other. -/
theorem loop_rule (hcount : (stop - start + (step - 1)) / step = count) (hstart : P 0 s)
    (hround : ∀ n < count, ∀ s, P n s → ∃ s', body (start + n * step) s = some s' ∧ P (n + 1) s') :
    ∃ s', loop start stop step body s = some s' ∧ P count s' := by
  have hrounds : ∀ n ≤ count, ∃ s',
      (List.range' start n step).foldlM (fun s i => body i s) s = some s' ∧ P n s' := by
    intro n hn
    induction n with
    | zero => exact ⟨s, rfl, hstart⟩
    | succ n ih =>
        rcases ih (by omega) with ⟨front, hfront, hP⟩
        rcases hround n (by omega) front hP with ⟨s', hbody, hP'⟩
        refine ⟨s', ?_, hP'⟩
        rw [List.range'_concat, List.foldlM_append, hfront, Nat.mul_comm]
        simp [hbody]
  rw [loop, counters, hcount]
  exact hrounds count (Nat.le_refl count)

/-- A loop that does not fail has run each of its rounds. -/
theorem exists_round (hcount : (stop - start + (step - 1)) / step = count) {last : σ}
    (hloop : loop start stop step body s = some last) (hstart : P 0 s)
    (hround : ∀ n < count, ∀ s s', P n s → body (start + n * step) s = some s' → P (n + 1) s') :
    P count last ∧ ∀ n < count, ∃ s s', P n s ∧ body (start + n * step) s = some s' := by
  have hrest : ∀ n i s, i + n = count → P i s →
      (List.range' (start + i * step) n step).foldlM (fun s i => body i s) s = some last →
        P count last ∧ ∀ m, i ≤ m → m < count →
          ∃ s s', P m s ∧ body (start + m * step) s = some s' := by
    intro n
    induction n with
    | zero =>
        intro i s hn hP h
        cases h
        obtain rfl : i = count := by omega
        exact ⟨hP, by omega⟩
    | succ n ih =>
        intro i s hn hP h
        rw [List.range'_succ, List.foldlM_cons] at h
        rcases Option.bind_eq_some_iff.mp h with ⟨s', hbody, hfold⟩
        have hnext : start + i * step + step = start + (i + 1) * step := by ring
        rw [hnext] at hfold
        rcases ih (i + 1) s' (by omega) (hround i (by omega) s s' hP hbody) hfold with
          ⟨hlast, hlater⟩
        refine ⟨hlast, fun m hi hm => ?_⟩
        rcases Nat.eq_or_lt_of_le hi with rfl | hlt
        · exact ⟨s, s', hP, hbody⟩
        · exact hlater m hlt hm
  rw [loop, counters, hcount] at hloop
  have hall := hrest count 0 s (by omega) hstart (by simpa using hloop)
  exact ⟨hall.1, fun n => hall.2 n (by omega)⟩

end Rules

end Loops
end Roofline
