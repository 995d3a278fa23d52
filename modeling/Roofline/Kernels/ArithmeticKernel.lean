import Mathlib.Algebra.BigOperators.Group.List.Basic
import Roofline.Library.Integers
import Roofline.Library.Loops
import Roofline.Library.Rounding

/-!
# Counting the operations of the arithmetic kernel

The main loop of the kernel adds and multiplies the values of its registers.  The driver has a
formula of its own for the number of operations, which the counters of the processor are compared
with.

Main results:

- Theorem {lit}`flops_mainLoop`: the operations that the main loop executes.
- Theorem {lit}`countsAgree_iff`: the parameters for which the formula gives this number.
-/

namespace Roofline
namespace Kernels
namespace ArithmeticKernel

open Loops Integers Rounding

/-! ## The main loop -/

/-- {lit}`ArithmeticOperation` -/
inductive ArithmeticOperation
  | add
  | mul
  | mulAdd
deriving DecidableEq

/-- {lit}`InstructionSet` -/
inductive InstructionSet
  | sse
  | sseScalar
  | x87
deriving DecidableEq

/-- The macros {lit}`MUL` and {lit}`ADD`. -/
inductive Operator
  | mul
  | add
deriving DecidableEq

/-- The macro definitions, and the field {lit}`iterations`. -/
structure Parameters where
  operation : ArithmeticOperation
  instructionSet : InstructionSet
  iterations : Int
  unroll : Int
  dlp : Nat
  additions : Nat
  multiplications : Nat
  mulAddMix : List Operator

/-- An instruction on a register, which does an operation on each of its lanes. -/
structure Instruction where
  operator : Operator
  register : Nat
  lanes : Nat

/-- The floating point operations of a sequence of instructions. -/
def flops (instructions : List Instruction) : Nat :=
  (instructions.map Instruction.lanes).sum

namespace Parameters

variable (parameters : Parameters)

/-- SSE instructions are used if the compiler supports them. -/
def lanes (sse2 : Bool) : Nat :=
  if sse2 = true ∧ parameters.instructionSet = .sse then 2 else 1

/-- The loops that the macros are expanded to. -/
def expand (sse2 : Bool) (j : Nat) : Operator → List Instruction
  | .mul => (counters 0 parameters.multiplications 1).map fun h =>
      ⟨.mul, j * parameters.multiplications + h, parameters.lanes sse2⟩
  | .add => (counters 0 parameters.additions 1).map fun h =>
      ⟨.add, j * parameters.additions + h, parameters.lanes sse2⟩

/-- The body of the main loop. -/
def body (sse2 : Bool) (j : Nat) : List Instruction :=
  match parameters.operation with
  | .add => [⟨.add, j, parameters.lanes sse2⟩]
  | .mul => [⟨.mul, j, parameters.lanes sse2⟩]
  | .mulAdd => parameters.mulAddMix.flatMap (parameters.expand sse2 j)

/-- The instructions that {lit}`run` executes in one pass. -/
def mainLoop (sse2 : Bool) : List Instruction :=
  (counters 0 parameters.iterations.toNat 1).flatMap fun _ =>
    (counters 0 parameters.unroll.toNat 1).flatMap fun _ =>
      (counters 0 parameters.dlp 1).flatMap fun j => parameters.body sse2 j

end Parameters

/-- The conversion of a long to a double. -/
def toDouble (i : Int) : Int :=
  i.sign * roundTo 53 i.natAbs

/-- {lit}`getExpectedOperationCount`: a long is computed, and doubled as a double. -/
def getExpectedOperationCount (parameters : Parameters) : Int :=
  let result := toDouble
    (Signed.wrap 64 (parameters.iterations * parameters.unroll * parameters.dlp)).val
  let result := if parameters.operation = .mulAdd then result * 2 else result
  if parameters.instructionSet = .sse then result * 2 else result

/-! ## What the main loop executes -/

namespace Parameters

variable (parameters : Parameters)

/-- The passes through the body. -/
def steps : Nat :=
  parameters.iterations.toNat * parameters.unroll.toNat * parameters.dlp

/-- The operations of the body. -/
def flopsPerStep (sse2 : Bool) : Nat :=
  match parameters.operation with
  | .mulAdd => (parameters.mulAddMix.count .mul * parameters.multiplications +
      parameters.mulAddMix.count .add * parameters.additions) * parameters.lanes sse2
  | _ => parameters.lanes sse2

/-- The operations of the body that the formula assumes. -/
def assumedPerStep : Nat :=
  (if parameters.operation = .mulAdd then 2 else 1) *
    if parameters.instructionSet = .sse then 2 else 1

end Parameters

section Counting

variable {parameters : Parameters} {sse2 : Bool}

/-- The operations of instructions in sequence add up. -/
theorem flops_append (l l' : List Instruction) : flops (l ++ l') = flops l + flops l' := by
  simp [flops]

/-- A loop whose body has the same number of operations each time. -/
theorem flops_counters (n : Nat) {f : Nat → List Instruction} {k : Nat}
    (h : ∀ i, flops (f i) = k) : flops ((counters 0 n 1).flatMap f) = n * k := by
  rw [counters_zero_one]
  induction n with
  | zero => simp [flops]
  | succ n ih =>
      rw [List.range_succ, List.flatMap_append, flops_append, ih, List.flatMap_singleton, h,
        Nat.add_mul, Nat.one_mul]

/-- The operations of all multiplications of one step. -/
theorem flops_expand_mul (j : Nat) :
    flops (parameters.expand sse2 j .mul) =
      parameters.multiplications * parameters.lanes sse2 := by
  simp [Parameters.expand, flops, counters_zero_one, Function.comp_def]

/-- The operations of all additions of one step. -/
theorem flops_expand_add (j : Nat) :
    flops (parameters.expand sse2 j .add) = parameters.additions * parameters.lanes sse2 := by
  simp [Parameters.expand, flops, counters_zero_one, Function.comp_def]

/-- The operations of a mix of both. -/
theorem flops_mix (mix : List Operator) (j : Nat) :
    flops (mix.flatMap (parameters.expand sse2 j)) =
      (mix.count .mul * parameters.multiplications + mix.count .add * parameters.additions) *
        parameters.lanes sse2 := by
  induction mix with
  | nil => simp [flops]
  | cons operator mix ih =>
      rw [List.flatMap_cons, flops_append, ih]
      cases operator with
      | mul =>
          rw [flops_expand_mul]
          simp only [List.count_cons_self, List.count_cons_of_ne, ne_eq, reduceCtorEq,
            not_false_eq_true]
          ring
      | add =>
          rw [flops_expand_add]
          simp only [List.count_cons_self, List.count_cons_of_ne, ne_eq, reduceCtorEq,
            not_false_eq_true]
          ring

/-- The operations of the body of the loop. -/
theorem flops_body (j : Nat) : flops (parameters.body sse2 j) = parameters.flopsPerStep sse2 := by
  unfold Parameters.body Parameters.flopsPerStep
  cases parameters.operation with
  | add => simp [flops]
  | mul => simp [flops]
  | mulAdd => exact flops_mix _ j

/-- The operations that the main loop executes. -/
theorem flops_mainLoop (parameters : Parameters) (sse2 : Bool) :
    flops (parameters.mainLoop sse2) = parameters.flopsPerStep sse2 * parameters.steps := by
  have hdlp := flops_counters parameters.dlp (@flops_body parameters sse2)
  have hunroll := flops_counters parameters.unroll.toNat fun _ => hdlp
  have hiterations := flops_counters parameters.iterations.toNat fun _ => hunroll
  rw [Parameters.mainLoop, hiterations, Parameters.steps]
  ring

end Counting

/-! ## Where the formula is right -/

section Agreement

/-- A number that is not negative is rounded to 53 bits. -/
theorem toDouble_natCast (n : Nat) : toDouble n = roundTo 53 n := by
  cases n with
  | zero => rfl
  | succ n =>
      rw [toDouble, Int.natAbs_natCast, Int.sign_natCast_of_ne_zero (Nat.succ_ne_zero n),
        Int.one_mul]

/-- Rounding keeps numbers positive. -/
theorem roundTo_pos {n : Nat} (h : 0 < n) : 0 < roundTo 53 n := by
  have hclose := @le_roundTo 53 n (by decide)
  omega

/-- A long that becomes a positive double is positive. -/
theorem exists_of_toDouble_pos {i : Int} (h : 0 < toDouble i) :
    ∃ n : Nat, i = n ∧ 0 < n := by
  rcases Int.lt_trichotomy i 0 with hneg | rfl | hpos
  · exfalso
    rw [toDouble, Int.sign_eq_neg_one_of_neg hneg] at h
    omega
  · cases h
  · exact ⟨i.toNat, by omega, by omega⟩

/-- Only zero is rounded to zero. -/
theorem toDouble_eq_zero_iff {i : Int} : toDouble i = 0 ↔ i = 0 := by
  constructor
  · intro h
    rw [toDouble, Int.mul_eq_zero] at h
    rcases h with h | h
    · exact Int.sign_eq_zero_iff_zero.mp h
    · by_contra hne
      have hpos := roundTo_pos (Int.natAbs_pos.mpr hne)
      omega
  · rintro rfl
    rfl

/-- No sum of a long that overflowed once and its remainder is four times the rounded
remainder. -/
theorem four_mul_roundTo_ne {r : Nat} (hlt : r < 2 ^ 63) : 2 ^ 64 + r ≠ 4 * roundTo 53 r := by
  intro heq
  have hle := @roundTo_le 53 r (by decide)
  have hge := @le_roundTo 53 r (by decide)
  have hlow : 2 ^ 62 ≤ r := by omega
  have hlog : r.log2 = 62 := (Nat.log2_eq_iff (by omega)).mpr ⟨hlow, hlt⟩
  have hunit : unit 53 r = 1024 := by
    rw [unit, hlog]
    rfl
  have hdvd := unit_dvd_roundTo 53 r
  have hsame : roundTo 53 r = r := by
    rw [roundTo_eq_self_iff, hunit]
    rw [hunit] at hdvd
    omega
  omega

/-- How often the body has to count a step so that its operations are those of the formula. -/
theorem mul_eq_roundTo_iff {k f e r m : Nat} (hf : f = 1 ∨ f = 2 ∨ f = 4) (he : e = m * 2 ^ 64 + r)
    (hpos : 0 < r) (hlt : r < 2 ^ 63) :
    k * e = f * roundTo 53 r ↔ k = f ∧ m = 0 ∧ roundTo 53 r = r := by
  have hle := @roundTo_le 53 r (by decide)
  have hge := @le_roundTo 53 r (by decide)
  constructor
  · intro heq
    have hne := four_mul_roundTo_ne hlt
    have hrounded := roundTo_pos hpos
    have hk : k ≤ f := by
      by_contra hlarge
      have hmul : (f + 1) * e ≤ k * e := Nat.mul_le_mul_right e (by omega)
      rcases hf with rfl | rfl | rfl <;> omega
    have hcount : k = 0 ∨ k = 1 ∨ k = 2 ∨ k = 3 ∨ k = 4 := by omega
    -- the rounded number is too near to the exact one for other multiples
    obtain rfl | rfl | hm : m = 0 ∨ m = 1 ∨ 2 ≤ m := by omega
    · rcases hf with rfl | rfl | rfl <;> rcases hcount with rfl | rfl | rfl | rfl | rfl <;> omega
    · rcases hf with rfl | rfl | rfl <;> rcases hcount with rfl | rfl | rfl | rfl | rfl <;> omega
    · rcases hf with rfl | rfl | rfl <;> rcases hcount with rfl | rfl | rfl | rfl | rfl <;> omega
  · rintro ⟨rfl, rfl, hround⟩
    rw [he, hround, Nat.zero_mul, Nat.zero_add]

/-- The driver expects the operations that the main loop executes. -/
def CountsAgree (parameters : Parameters) (sse2 : Bool) : Prop :=
  flops (parameters.mainLoop sse2) = getExpectedOperationCount parameters

/-- The operations of the body are those that the formula assumes, and the number of steps is
neither too large nor rounded; or nothing is executed, and the formula gives zero. -/
def FormulaApplies (parameters : Parameters) (sse2 : Bool) : Prop :=
  parameters.flopsPerStep sse2 = parameters.assumedPerStep ∧
      0 ≤ parameters.iterations ∧ 0 ≤ parameters.unroll ∧ parameters.steps < 2 ^ 63 ∧
      unit 53 parameters.steps ∣ parameters.steps ∨
    parameters.flopsPerStep sse2 * parameters.steps = 0 ∧
      (2 ^ 64 : Int) ∣ parameters.iterations * parameters.unroll * parameters.dlp

/-- One, two or four operations are assumed for each step. -/
theorem assumedPerStep_cases (parameters : Parameters) :
    parameters.assumedPerStep = 1 ∨ parameters.assumedPerStep = 2 ∨
      parameters.assumedPerStep = 4 := by
  unfold Parameters.assumedPerStep
  split <;> split <;> simp

/-- The expected count, with the wrap of the product and its rounding. -/
theorem getExpectedOperationCount_eq (parameters : Parameters) :
    getExpectedOperationCount parameters = parameters.assumedPerStep * toDouble
      ((parameters.iterations * parameters.unroll * parameters.dlp).bmod (2 ^ 64)) := by
  unfold getExpectedOperationCount Parameters.assumedPerStep
  simp only [Signed.wrap]
  split <;> split <;> push_cast <;> omega

/-- Where something is executed, the product of the parameters is the number of steps. -/
theorem steps_eq {parameters : Parameters} (hiterations : 0 ≤ parameters.iterations)
    (hunroll : 0 ≤ parameters.unroll) :
    parameters.iterations * parameters.unroll * parameters.dlp = parameters.steps := by
  rw [Parameters.steps]
  push_cast
  rw [Int.toNat_of_nonneg hiterations, Int.toNat_of_nonneg hunroll]

/-- If there are steps, neither factor is negative. -/
theorem nonneg_of_steps_pos {parameters : Parameters} (h : 0 < parameters.steps) :
    0 ≤ parameters.iterations ∧ 0 ≤ parameters.unroll := by
  unfold Parameters.steps at h
  have hproduct := Nat.pos_of_mul_pos_right h
  constructor
  · have hiterations := Nat.pos_of_mul_pos_right hproduct
    omega
  · have hunroll := Nat.pos_of_mul_pos_left hproduct
    omega

/-- Where nothing is executed, the formula has to give zero. -/
theorem countsAgree_of_idle {parameters : Parameters} {sse2 : Bool}
    (h : parameters.flopsPerStep sse2 * parameters.steps = 0) :
    CountsAgree parameters sse2 ↔
      (2 ^ 64 : Int) ∣ parameters.iterations * parameters.unroll * parameters.dlp := by
  have hassumed : (parameters.assumedPerStep : Int) ≠ 0 := by
    rcases assumedPerStep_cases parameters with hf | hf | hf <;> omega
  rw [CountsAgree, flops_mainLoop, h, getExpectedOperationCount_eq, eq_comm, Nat.cast_zero,
    Int.mul_eq_zero, or_iff_right hassumed, toDouble_eq_zero_iff]
  exact ⟨Int.dvd_of_bmod_eq_zero, Int.bmod_eq_zero_of_dvd⟩

/-- Where something is executed, the body has to be what the formula assumes, and the number of
steps a double. -/
theorem countsAgree_of_busy {parameters : Parameters} {sse2 : Bool}
    (h : 0 < parameters.flopsPerStep sse2 * parameters.steps) :
    CountsAgree parameters sse2 ↔
      parameters.flopsPerStep sse2 = parameters.assumedPerStep ∧ parameters.steps < 2 ^ 63 ∧
        unit 53 parameters.steps ∣ parameters.steps := by
  have hsteps := Nat.pos_of_mul_pos_left h
  have hnonneg := nonneg_of_steps_pos hsteps
  have hassumed := assumedPerStep_cases parameters
  rw [CountsAgree, flops_mainLoop, getExpectedOperationCount_eq, steps_eq hnonneg.1 hnonneg.2]
  constructor
  · intro heq
    have hpositive : 0 < toDouble ((parameters.steps : Int).bmod (2 ^ 64)) := by
      have hproduct : (0 : Int) < (parameters.flopsPerStep sse2 * parameters.steps : Nat) := by
        exact_mod_cast h
      rw [heq] at hproduct
      rcases hassumed with hf | hf | hf <;> rw [hf] at hproduct <;> omega
    rcases exists_of_toDouble_pos hpositive with ⟨r, hr, hpos⟩
    have hsplit := Int.bmod_add_bdiv (parameters.steps : Int) (2 ^ 64)
    have hbelow := Int.bmod_lt (x := (parameters.steps : Int)) (Nat.two_pow_pos 64)
    rw [hr] at heq hsplit hbelow
    rw [toDouble_natCast] at heq
    obtain ⟨m, hm⟩ : ∃ m : Nat, (parameters.steps : Int).bdiv (2 ^ 64) = m :=
      ⟨((parameters.steps : Int).bdiv (2 ^ 64)).toNat, by omega⟩
    rw [hm] at hsplit
    have hmultiple : parameters.steps = m * 2 ^ 64 + r := by omega
    have heq' : parameters.flopsPerStep sse2 * parameters.steps =
        parameters.assumedPerStep * roundTo 53 r := by exact_mod_cast heq
    rcases (mul_eq_roundTo_iff hassumed hmultiple hpos (by omega)).mp heq' with
      ⟨hsame, rfl, hround⟩
    rw [Nat.zero_mul, Nat.zero_add] at hmultiple
    rw [← hmultiple] at hround hbelow
    exact ⟨hsame, by omega, roundTo_eq_self_iff.mp hround⟩
  · rintro ⟨hsame, hlt, hdvd⟩
    have hbmod : (parameters.steps : Int).bmod (2 ^ 64) = parameters.steps := by
      apply Int.bmod_eq_of_le <;> omega
    rw [hbmod, toDouble_natCast, roundTo_eq_self_iff.mpr hdvd, hsame]
    push_cast
    rfl

/-- The formula gives the number of operations exactly where it applies. -/
theorem countsAgree_iff (parameters : Parameters) (sse2 : Bool) :
    CountsAgree parameters sse2 ↔ FormulaApplies parameters sse2 := by
  rcases Nat.eq_zero_or_pos (parameters.flopsPerStep sse2 * parameters.steps) with hidle | hbusy
  · rw [countsAgree_of_idle hidle, FormulaApplies]
    constructor
    · exact fun hdvd => Or.inr ⟨hidle, hdvd⟩
    · rintro (⟨hsame, hiterations, hunroll, -⟩ | ⟨-, hdvd⟩)
      · have hassumed : parameters.flopsPerStep sse2 ≠ 0 := by
          rcases assumedPerStep_cases parameters with hf | hf | hf <;> omega
        have hsteps := (Nat.mul_eq_zero.mp hidle).resolve_left hassumed
        rw [steps_eq hiterations hunroll, hsteps]
        exact Int.dvd_zero _
      · exact hdvd
  · rw [countsAgree_of_busy hbusy, FormulaApplies, or_iff_left (fun h => hbusy.ne' h.1)]
    have hnonneg := nonneg_of_steps_pos (Nat.pos_of_mul_pos_left hbusy)
    rw [and_iff_right hnonneg.1, and_iff_right hnonneg.2]

/-- The default mix with the default numbers of additions and multiplications. -/
def defaultMix : Parameters where
  operation := .mulAdd
  instructionSet := .x87
  iterations := 1
  unroll := 1
  dlp := 1
  additions := 2
  multiplications := 1
  mulAddMix := [.mul, .add, .add]

/-- Five operations are executed, and two are expected. -/
theorem not_countsAgree_defaultMix : ¬CountsAgree defaultMix true := by
  unfold CountsAgree
  decide

end Agreement

end ArithmeticKernel
end Kernels
end Roofline
