import Mathlib.Algebra.BigOperators.Fin
import Mathlib.Data.List.Nodup
import Mathlib.Data.Matrix.Mul
import Roofline.Library.Loops

/-!
# Multiplying matrices in blocks

The kernel adds the product of two matrices to a third one.  The matrices are stored row by row
in buffers of their own.  One variant is the plain triple loop, another one has two levels of
blocks, whose sizes are fixed when the kernel is compiled.

Main results:

- Theorem {lit}`foldlM_multiplyAdd`: what a sequence of products does to the buffer, as long as
  all of them are inside of the matrices.
- Theorem {lit}`blockedOrder_perm`: the blocked loops go through the same products as the triple
  loop.
- Theorem {lit}`blocked_eq_tripleLoop`: both variants add the product of the matrices.
-/

namespace Roofline
namespace Kernels
namespace MMMKernel

open Loops

/-! ## The kernel -/

/-- {lit}`RMT_MMM_Nb`, {lit}`RMT_MMM_Mu`, {lit}`RMT_MMM_Nu` and {lit}`RMT_MMM_Ku`. -/
structure Factors where
  nb : Nat
  mu : Nat
  nu : Nat
  ku : Nat

/-- The buffer {lit}`c`, and the products that have been added to it. -/
structure State (R : Type) where
  c : List R
  executed : List (Nat × Nat × Nat)

section Model

variable {R : Type} [CommRing R] (size : Nat) (a b : List R)

/-- {lit}`c[i * size + j] += a[i * size + k] * b[k * size + j]`, which must not leave the
buffers. -/
def multiplyAdd (s : State R) : Nat × Nat × Nat → Option (State R)
  | (i, j, k) => do
      let x ← a[i * size + k]?
      let y ← b[k * size + j]?
      let z ← s.c[i * size + j]?
      return {
        c := s.c.set (i * size + j) (z + x * y)
        executed := s.executed ++ [(i, j, k)] }

/-- {lit}`tripleLoop`; none if a buffer is left. -/
def tripleLoop : State R → Option (State R) :=
  loop 0 size 1 fun i =>
    loop 0 size 1 fun j =>
      loop 0 size 1 fun k s => multiplyAdd size a b s (i, j, k)

/-- {lit}`blocked`, with restricted pointers or without. -/
def blocked (factors : Factors) : State R → Option (State R) :=
  loop 0 size factors.nb fun i =>
    loop 0 size factors.nb fun j =>
      loop 0 size factors.nb fun k =>
        loop i (i + factors.nb) factors.mu fun id =>
          loop j (j + factors.nb) factors.nu fun jd =>
            loop k (k + factors.nb) factors.ku fun kd =>
              loop kd (kd + factors.ku) 1 fun kdd =>
                loop id (id + factors.mu) 1 fun idd =>
                  loop jd (jd + factors.nu) 1 fun jdd s =>
                    multiplyAdd size a b s (idd, jdd, kdd)

end Model

/-! ## The order of the products -/

/-- The indices of all products, in the order of the triple loop. -/
def allProducts (size : Nat) : List (Nat × Nat × Nat) :=
  List.range size ×ˢ (List.range size ×ˢ List.range size)

/-- The products of an inner block. -/
def innerOrder (factors : Factors) (id jd kd : Nat) : List (Nat × Nat × Nat) :=
  (counters kd (kd + factors.ku) 1).flatMap fun kdd =>
    (counters id (id + factors.mu) 1).flatMap fun idd =>
      (counters jd (jd + factors.nu) 1).map fun jdd => (idd, jdd, kdd)

/-- The products of an outer block. -/
def blockOrder (factors : Factors) (i j k : Nat) : List (Nat × Nat × Nat) :=
  (counters i (i + factors.nb) factors.mu).flatMap fun id =>
    (counters j (j + factors.nb) factors.nu).flatMap fun jd =>
      (counters k (k + factors.nb) factors.ku).flatMap fun kd => innerOrder factors id jd kd

/-- The indices of the products in the order of the blocked loops. -/
def blockedOrder (factors : Factors) (size : Nat) : List (Nat × Nat × Nat) :=
  (counters 0 size factors.nb).flatMap fun i =>
    (counters 0 size factors.nb).flatMap fun j =>
      (counters 0 size factors.nb).flatMap fun k => blockOrder factors i j k

section Order

variable {R : Type} [CommRing R] {size : Nat} {a b : List R}

/-- A loop over products adds them one after the other. -/
theorem loop_multiplyAdd {start stop step : Nat} (f : Nat → Nat × Nat × Nat) (s : State R) :
    loop start stop step (fun i s => multiplyAdd size a b s (f i)) s =
      ((counters start stop step).map f).foldlM (multiplyAdd size a b) s := by
  rw [loop, List.foldlM_map]

/-- The triple loop adds all products in order. -/
theorem tripleLoop_eq (s : State R) :
    tripleLoop size a b s = (allProducts size).foldlM (multiplyAdd size a b) s := by
  have horder : allProducts size = (counters 0 size 1).flatMap fun i =>
      (counters 0 size 1).flatMap fun j => (counters 0 size 1).map fun k => (i, j, k) := by
    simp only [allProducts, counters_zero_one, SProd.sprod, List.product, List.map_flatMap,
      List.map_map]
    rfl
  rw [horder, tripleLoop]
  simp only [← loop_foldlM, ← loop_multiplyAdd]

/-- The blocked loops add the products in their own order. -/
theorem blocked_eq (factors : Factors) (s : State R) :
    blocked size a b factors s =
      (blockedOrder factors size).foldlM (multiplyAdd size a b) s := by
  unfold blocked blockedOrder blockOrder innerOrder
  simp only [← loop_foldlM, ← loop_multiplyAdd]

end Order

/-! ## The blocks and all products -/

/-- The sizes for which the blocks fit into the matrices. -/
structure Factors.Fit (factors : Factors) (size : Nat) : Prop where
  nb_pos : 0 < factors.nb
  nb_dvd : factors.nb ∣ size
  mu_dvd : factors.mu ∣ factors.nb
  nu_dvd : factors.nu ∣ factors.nb
  ku_dvd : factors.ku ∣ factors.nb

section Blocks

variable {factors : Factors} {size : Nat}

/-- The innermost block has each of its products once. -/
theorem innerOrder_perm (factors : Factors) (id jd kd : Nat) :
    (innerOrder factors id jd kd).Perm
      (counters id (id + factors.mu) 1 ×ˢ
        (counters jd (jd + factors.nu) 1 ×ˢ counters kd (kd + factors.ku) 1)) :=
  flatMap_rotate_perm _ _ _

/-- The loops inside of a block, along one side of the matrices. -/
theorem flatMap_inner {start nb factor : Nat} (hpos : 0 < nb) (hdvd : factor ∣ nb) :
    ((counters start (start + nb) factor).flatMap fun id => counters id (id + factor) 1) =
      counters start (start + nb) 1 :=
  flatMap_counters Nat.one_pos (Nat.pos_of_dvd_of_pos hdvd hpos) (Nat.one_dvd _) hdvd

/-- So has each block, if the factors fit. -/
theorem blockOrder_perm (hfit : factors.Fit size) (i j k : Nat) :
    (blockOrder factors i j k).Perm
      (counters i (i + factors.nb) 1 ×ˢ
        (counters j (j + factors.nb) 1 ×ˢ counters k (k + factors.nb) 1)) := by
  rw [← flatMap_inner hfit.nb_pos hfit.mu_dvd, ← flatMap_inner hfit.nb_pos hfit.nu_dvd,
    ← flatMap_inner hfit.nb_pos hfit.ku_dvd]
  refine List.Perm.trans ?_ (flatMap_product₃_perm _ _ _ _ _ _)
  apply List.Perm.flatMap_left
  intro id _
  apply List.Perm.flatMap_left
  intro jd _
  apply List.Perm.flatMap_left
  intro kd _
  exact innerOrder_perm factors id jd kd

/-- The loops over the blocks, along one side of the matrices. -/
theorem flatMap_blocks (hfit : factors.Fit size) :
    ((counters 0 size factors.nb).flatMap fun i => counters i (i + factors.nb) 1) =
      List.range size := by
  have hblocks : ((counters 0 (0 + size) factors.nb).flatMap fun i =>
      counters i (i + factors.nb) 1) = counters 0 (0 + size) 1 :=
    flatMap_counters Nat.one_pos hfit.nb_pos (Nat.one_dvd _) hfit.nb_dvd
  rwa [Nat.zero_add, counters_zero_one] at hblocks

/-- The blocked loops go through the same products as the triple loop. -/
theorem blockedOrder_perm (hfit : factors.Fit size) :
    (blockedOrder factors size).Perm (allProducts size) := by
  rw [allProducts, ← flatMap_blocks hfit]
  refine List.Perm.trans ?_ (flatMap_product₃_perm _ _ _ _ _ _)
  apply List.Perm.flatMap_left
  intro i _
  apply List.Perm.flatMap_left
  intro j _
  apply List.Perm.flatMap_left
  intro k _
  exact blockOrder_perm hfit i j k

/-- The indices are those inside of the matrices. -/
theorem mem_allProducts {t : Nat × Nat × Nat} :
    t ∈ allProducts size ↔ t.1 < size ∧ t.2.1 < size ∧ t.2.2 < size := by
  rcases t with ⟨i, j, k⟩
  simp [allProducts, List.mem_product]

/-- No product comes twice. -/
theorem nodup_allProducts (size : Nat) : (allProducts size).Nodup :=
  List.nodup_range.product (List.nodup_range.product List.nodup_range)

end Blocks

/-! ## What a sequence of products adds -/

section Sums

variable {R : Type} [CommRing R] (size : Nat) (a b : List R)

/-- The product of the elements. -/
def productAt (t : Nat × Nat × Nat) : R :=
  a.getD (t.1 * size + t.2.2) 0 * b.getD (t.2.2 * size + t.2.1) 0

/-- What the products add to an element of {lit}`c`. -/
def addedTo (order : List (Nat × Nat × Nat)) (x : Nat) : R :=
  ((order.filter fun t => t.1 * size + t.2.1 = x).map (productAt size a b)).sum

variable {size a b}

/-- What is added to an element by one more product. -/
theorem addedTo_cons (t : Nat × Nat × Nat) (order : List (Nat × Nat × Nat)) (x : Nat) :
    addedTo size a b (t :: order) x =
      (if t.1 * size + t.2.1 = x then productAt size a b t else 0) + addedTo size a b order x := by
  unfold addedTo
  by_cases hx : t.1 * size + t.2.1 = x
  · simp [hx]
  · simp [hx]

/-- The order of the products does not matter. -/
theorem addedTo_perm {order order' : List (Nat × Nat × Nat)} (h : order.Perm order') (x : Nat) :
    addedTo size a b order x = addedTo size a b order' x :=
  ((h.filter _).map _).sum_eq

/-- One product inside of the matrices. -/
theorem multiplyAdd_of_lt (ha : a.length = size * size) (hb : b.length = size * size)
    {s : State R} (hc : s.c.length = size * size) {t : Nat × Nat × Nat}
    (ht : t ∈ allProducts size) :
    multiplyAdd size a b s t = some {
      c := s.c.mapIdx fun x z => z + if t.1 * size + t.2.1 = x then productAt size a b t else 0
      executed := s.executed ++ [t] } := by
  rcases t with ⟨i, j, k⟩
  obtain ⟨hi, hj, hk⟩ := mem_allProducts.mp ht
  have hx : i * size + k < a.length := ha ▸ index_lt hi hk
  have hy : k * size + j < b.length := hb ▸ index_lt hk hj
  have hz : i * size + j < s.c.length := hc ▸ index_lt hi hj
  have hset : s.c.set (i * size + j) (s.c[i * size + j] + a[i * size + k] * b[k * size + j]) =
      s.c.mapIdx fun x z => z + if i * size + j = x then productAt size a b (i, j, k) else 0 := by
    apply List.ext_getElem?
    intro x
    rw [List.getElem?_set, List.getElem?_mapIdx]
    by_cases hsame : i * size + j = x
    · subst hsame
      simp [hz, productAt, hx, hy]
    · simp [hsame]
  simp only [multiplyAdd, List.getElem?_eq_getElem hx, List.getElem?_eq_getElem hy,
    List.getElem?_eq_getElem hz, Option.bind_eq_bind, Option.bind_some, Option.pure_def, hset]

/-- A sequence of products inside of the matrices. -/
theorem foldlM_multiplyAdd (ha : a.length = size * size) (hb : b.length = size * size)
    {order : List (Nat × Nat × Nat)} (horder : ∀ t ∈ order, t ∈ allProducts size) {s : State R}
    (hc : s.c.length = size * size) :
    order.foldlM (multiplyAdd size a b) s = some {
      c := s.c.mapIdx fun x z => z + addedTo size a b order x
      executed := s.executed ++ order } := by
  induction order generalizing s with
  | nil =>
      have hsame : (s.c.mapIdx fun x z => z + addedTo size a b [] x) = s.c := by
        apply List.ext_getElem?
        intro x
        simp [addedTo]
      rw [hsame, List.append_nil]
      rfl
  | cons t order ih =>
      rw [List.forall_mem_cons] at horder
      rw [List.foldlM_cons, multiplyAdd_of_lt ha hb hc horder.1]
      simp only [Option.bind_eq_bind, Option.bind_some]
      rw [ih horder.2 (by simp [hc])]
      simp only [List.mapIdx_mapIdx, List.append_assoc, List.singleton_append, Option.some.injEq,
        State.mk.injEq, and_true]
      congr 1
      funext x z
      rw [Function.comp_apply, addedTo_cons, add_assoc]

/-- Two elements at the same place of the buffer are the same. -/
theorem index_inj {i j i' j' : Nat} (hj : j < size) (hj' : j' < size) :
    i' * size + j' = i * size + j ↔ i' = i ∧ j' = j := by
  constructor
  · intro h
    have hrow : ∀ row {column : Nat}, column < size → (row * size + column) / size = row := by
      intro row column hcolumn
      rw [Nat.mul_comm, Nat.mul_add_div (Nat.zero_lt_of_lt hcolumn), Nat.div_eq_of_lt hcolumn,
        Nat.add_zero]
    have hrows : i' = i := by
      rw [← hrow i' hj', h, hrow i hj]
    subst hrows
    exact ⟨rfl, Nat.add_left_cancel h⟩
  · rintro ⟨rfl, rfl⟩
    rfl

/-- All products together add the scalar product of a row and a column. -/
theorem addedTo_allProducts {i j : Nat} (hi : i < size) (hj : j < size) :
    addedTo size a b (allProducts size) (i * size + j) =
      ∑ k : Fin size, a.getD (i * size + k) 0 * b.getD (k * size + j) 0 := by
  have hfilter : ((allProducts size).filter fun t => t.1 * size + t.2.1 = i * size + j).Perm
      ((List.range size).map fun k => (i, j, k)) := by
    apply (List.perm_ext_iff_of_nodup ((nodup_allProducts size).filter _)
      (List.nodup_range.map fun k k' h => by simpa using h)).mpr
    rintro ⟨i', j', k⟩
    rw [List.mem_filter, mem_allProducts, List.mem_map, decide_eq_true_eq]
    constructor
    · rintro ⟨⟨hi', hj', hk⟩, hindex⟩
      obtain ⟨rfl, rfl⟩ := (index_inj hj hj').mp hindex
      exact ⟨k, List.mem_range.mpr hk, rfl⟩
    · rintro ⟨k', hk', heq⟩
      cases heq
      exact ⟨⟨hi, hj, List.mem_range.mp hk'⟩, rfl⟩
  rw [addedTo, (hfilter.map _).sum_eq, List.map_map, ← Finset.sum_range
    fun k => a.getD (i * size + k) 0 * b.getD (k * size + j) 0]
  rfl

/-- The matrix that is stored row by row. -/
def toMatrix (size : Nat) (l : List R) : Matrix (Fin size) (Fin size) R :=
  Matrix.of fun i j => l.getD (i * size + j) 0

/-- Adding all products to the buffer adds the product of the matrices. -/
theorem toMatrix_mapIdx {c : List R} (hc : c.length = size * size) :
    toMatrix size (c.mapIdx fun x z => z + addedTo size a b (allProducts size) x) =
      toMatrix size c + toMatrix size a * toMatrix size b := by
  apply Matrix.ext
  intro i j
  have hz : i * size + j < c.length := hc ▸ index_lt i.isLt j.isLt
  rw [Matrix.add_apply, Matrix.mul_apply]
  simp only [toMatrix, Matrix.of_apply]
  rw [← addedTo_allProducts i.isLt j.isLt]
  simp [hz]

end Sums

/-! ## Both variants -/

section Variants

variable {R : Type} [CommRing R] {factors : Factors} {size : Nat} {a b c : List R}

/-- What a variant does with the buffers: no element outside of them is accessed, each product is
executed once, and the product of the matrices is added. -/
structure Multiplies (size : Nat) (a b c : List R) (s : State R) : Prop where
  length : s.c.length = size * size
  sum : toMatrix size s.c = toMatrix size c + toMatrix size a * toMatrix size b
  once : ∀ i j k, i < size → j < size → k < size → s.executed.count (i, j, k) = 1
  inside : ∀ t ∈ s.executed, t.1 < size ∧ t.2.1 < size ∧ t.2.2 < size

/-- The products in any order. -/
theorem multiplies_of_perm (ha : a.length = size * size) (hb : b.length = size * size)
    (hc : c.length = size * size) {order : List (Nat × Nat × Nat)}
    (horder : order.Perm (allProducts size)) :
    ∃ s, order.foldlM (multiplyAdd size a b) ⟨c, []⟩ = some s ∧ Multiplies size a b c s ∧
      s.c = c.mapIdx fun x z => z + addedTo size a b (allProducts size) x := by
  have hrun := foldlM_multiplyAdd ha hb (fun t ht => horder.mem_iff.mp ht) (s := ⟨c, []⟩) hc
  simp only [addedTo_perm horder, List.nil_append] at hrun
  refine ⟨_, hrun, ?_, rfl⟩
  constructor
  case length => simpa using hc
  case sum => exact toMatrix_mapIdx hc
  case once =>
    intro i j k hi hj hk
    rw [horder.count_eq]
    exact List.count_eq_one_of_mem (nodup_allProducts size) (mem_allProducts.mpr ⟨hi, hj, hk⟩)
  case inside => exact fun t ht => mem_allProducts.mp (horder.mem_iff.mp ht)

/-- Both variants add the product of the matrices. -/
theorem blocked_eq_tripleLoop (hfit : factors.Fit size) (ha : a.length = size * size)
    (hb : b.length = size * size) (hc : c.length = size * size) :
    ∃ s s', blocked size a b factors ⟨c, []⟩ = some s ∧ tripleLoop size a b ⟨c, []⟩ = some s' ∧
      s.c = s'.c ∧ Multiplies size a b c s ∧ Multiplies size a b c s' := by
  obtain ⟨s, hblocked, hs, hsum⟩ := multiplies_of_perm ha hb hc (blockedOrder_perm hfit)
  obtain ⟨s', htriple, hs', hsum'⟩ :=
    multiplies_of_perm ha hb hc (List.Perm.refl (allProducts size))
  refine ⟨s, s', ?_, ?_, hsum.trans hsum'.symm, hs, hs'⟩
  · rw [blocked_eq, hblocked]
  · rw [tripleLoop_eq, htriple]

/-- Blocks of two by two elements in matrices of four by four. -/
theorem blocked_eq_tripleLoop_four :
    ∃ s s', blocked 4 (List.replicate 16 (2 : Int)) (List.replicate 16 3) ⟨4, 2, 1, 2⟩
        ⟨List.replicate 16 1, []⟩ = some s ∧
      tripleLoop 4 (List.replicate 16 (2 : Int)) (List.replicate 16 3)
        ⟨List.replicate 16 1, []⟩ = some s' ∧
      s.c = s'.c ∧
      Multiplies 4 (List.replicate 16 2) (List.replicate 16 3) (List.replicate 16 1) s ∧
      Multiplies 4 (List.replicate 16 2) (List.replicate 16 3) (List.replicate 16 1) s' :=
  blocked_eq_tripleLoop ⟨by decide, by decide, by decide, by decide, by decide⟩ rfl rfl rfl

end Variants

end MMMKernel
end Kernels
end Roofline
