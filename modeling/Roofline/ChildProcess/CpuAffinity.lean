import Mathlib.Tactic.Common
import Roofline.Library.Integers
import Roofline.ParentProcess.Abi

/-!
# Pinning a thread to a CPU

A workload and a kernel pin their thread to a CPU.  They allocate a set of CPUs whose size is
computed from the number of the CPU, and add the CPU to it.

Main results:

- Theorem {lit}`contains_pin`: what is in the set that is passed.
- Theorem {lit}`pinsToCpu_iff`: the CPU is the only one in the set exactly if its number is not a
  multiple of the bits of a word.
-/

namespace Roofline
namespace ChildProcess
namespace CpuAffinity

open Integers ParentProcess

/-! ## Sets of CPUs -/

/-- {lit}`sizeof(__cpu_mask)`. -/
abbrev maskBytes : Abi → Nat
  | .i386 => 4
  | .x86_64 => 8

/-- The words of a set of CPUs. -/
abbrev CpuSet (abi : Abi) := List (Long abi)

section CpuSets

variable {abi : Abi}

/-- An {lit}`int` that becomes a {lit}`size_t`. -/
def toSize (abi : Abi) (i : Signed 32) : Long abi :=
  BitVec.ofInt abi.wordSize i.val

/-- {lit}`CPU_ALLOC_SIZE`: the bits of whole words, in bytes. -/
def cpuAllocSize (abi : Abi) (count : Signed 32) : Nat :=
  ((toSize abi count + BitVec.ofNat abi.wordSize (abi.wordSize - 1)).toNat / abi.wordSize) *
    maskBytes abi

/-- {lit}`CPU_ALLOC`, with the words that happen to be in memory. -/
def cpuAlloc (memory : Nat → Long abi) (count : Signed 32) : CpuSet abi :=
  (List.range (cpuAllocSize abi count / maskBytes abi)).map memory

/-- {lit}`CPU_ZERO_S`. -/
def cpuZeroS (size : Nat) (mask : CpuSet abi) : CpuSet abi :=
  List.replicate (size / maskBytes abi) 0 ++ mask.drop (size / maskBytes abi)

/-- {lit}`CPU_SET_S`: a CPU whose bit is beyond the size is ignored. -/
def cpuSetS (cpu : Signed 32) (size : Nat) (mask : CpuSet abi) : CpuSet abi :=
  let cpu := (toSize abi cpu).toNat
  if cpu / 8 < size then
    mask.modify (cpu / abi.wordSize) fun word =>
      word ||| (1 : Long abi) <<< (cpu % abi.wordSize)
  else mask

/-- A call of {lit}`sched_setaffinity`. -/
structure SetAffinity (abi : Abi) where
  tid : Pid
  size : Nat
  mask : CpuSet abi

/-- The CPUs in the set that is passed. -/
def SetAffinity.contains (call : SetAffinity abi) (cpu : Nat) : Bool :=
  cpu / 8 < call.size && (call.mask.getD (cpu / abi.wordSize) 0).getLsbD (cpu % abi.wordSize)

/-- The thread is pinned to this CPU and to no other. -/
def SetAffinity.PinsTo (call : SetAffinity abi) (cpu : Signed 32) : Prop :=
  ∀ i : Nat, call.contains i = true ↔ (i : Int) = cpu.val

end CpuSets

/-! ## Pinning -/

section Model

variable {abi : Abi} (memory : Nat → Long abi)

/-- The block that both functions have. -/
def pin (tid : Pid) (cpu : Signed 32) : SetAffinity abi :=
  let mask := cpuAlloc memory cpu
  let size := cpuAllocSize abi cpu
  let mask := cpuZeroS size mask
  let mask := cpuSetS cpu size mask
  { tid := tid, size := size, mask := mask }

/-- What {lit}`Workload::startInThread` pins its thread to; -1 means no pinning. -/
def startInThread (tid : Pid) (cpu : Signed 32) : Option (SetAffinity abi) :=
  if cpu.val ≠ -1 then some (pin memory tid cpu) else none

/-- {lit}`CpuMigratingKernel::run`, which then checks on which CPU it runs. -/
def run (targetCpu : Signed 32) (getcpu : Int) : SetAffinity abi × Except String Unit :=
  (pin memory 0 targetCpu,
    if getcpu ≠ targetCpu.val then .error "cpu migratin failed" else .ok ())

end Model

/-! ## The set that is passed -/

section Pinning

variable {abi : Abi} {cpu : Signed 32}

/-- A CPU number that is not negative is its size. -/
theorem toNat_toSize (abi : Abi) (hcpu : 0 ≤ cpu.val) :
    (toSize abi cpu).toNat = cpu.val.toNat := by
  have hhigh : cpu.val < 2 ^ 31 := cpu.property.2
  rw [toSize, BitVec.toNat_ofInt]
  cases abi with
  | i386 =>
      change (cpu.val % (2 ^ 32 : Nat)).toNat = cpu.val.toNat
      omega
  | x86_64 =>
      change (cpu.val % (2 ^ 64 : Nat)).toNat = cpu.val.toNat
      omega

/-- The bytes that are allocated for the mask, rounded up to words. -/
theorem cpuAllocSize_eq (abi : Abi) (hcpu : 0 ≤ cpu.val) :
    cpuAllocSize abi cpu =
      (cpu.val.toNat + (abi.wordSize - 1)) / abi.wordSize * maskBytes abi := by
  have hhigh : cpu.val < 2 ^ 31 := cpu.property.2
  have hsum : (toSize abi cpu + BitVec.ofNat abi.wordSize (abi.wordSize - 1)).toNat =
      cpu.val.toNat + (abi.wordSize - 1) := by
    rw [BitVec.toNat_add, toNat_toSize abi hcpu, BitVec.toNat_ofNat]
    cases abi with
    | i386 =>
        change (cpu.val.toNat + 31 % 2 ^ 32) % 2 ^ 32 = cpu.val.toNat + 31
        omega
    | x86_64 =>
        change (cpu.val.toNat + 63 % 2 ^ 64) % 2 ^ 64 = cpu.val.toNat + 63
        omega
  rw [cpuAllocSize, hsum]

/-- The size covers the CPU exactly if its number is not a multiple of the bits of a word. -/
theorem lt_cpuAllocSize_iff (abi : Abi) (hcpu : 0 ≤ cpu.val) :
    cpu.val.toNat / 8 < cpuAllocSize abi cpu ↔ ¬abi.wordSize ∣ cpu.val.toNat := by
  rw [cpuAllocSize_eq abi hcpu]
  cases abi with
  | i386 => simp only [Abi.wordSize, maskBytes]; omega
  | x86_64 => simp only [Abi.wordSize, maskBytes]; omega

/-- After the set has been cleared, all of its words are zero. -/
theorem cpuZeroS_cpuAlloc (memory : Nat → Long abi) (cpu : Signed 32) :
    cpuZeroS (cpuAllocSize abi cpu) (cpuAlloc memory cpu) =
      List.replicate (cpuAllocSize abi cpu / maskBytes abi) 0 := by
  rw [cpuZeroS, List.drop_eq_nil_of_le (by simp [cpuAlloc]), List.append_nil]

/-- Shifting a one sets a single bit. -/
theorem getLsbD_one_shiftLeft {w i j : Nat} (hj : j < w) :
    (0 ||| (1 : BitVec w) <<< i).getLsbD j = decide (j = i) := by
  change (0#w ||| 1#w <<< i).getLsbD j = decide (j = i)
  rw [BitVec.zero_or, BitVec.getLsbD_shiftLeft, BitVec.getLsbD_one]
  by_cases hsame : j = i
  · subst hsame
    simp [hj, Nat.zero_lt_of_lt hj]
  · by_cases hlt : j < i
    · simp [hsame, hlt]
    · have hsub : j - i ≠ 0 := by omega
      simp [hsame, hsub]

/-- In a cleared set of this many words, a CPU has been added. -/
theorem getLsbD_modify {w n c i : Nat} (hw : 0 < w) (hc : c / w < n) :
    ((((List.replicate n (0 : BitVec w)).modify (c / w) fun word =>
      word ||| (1 : BitVec w) <<< (c % w)).getD
      (i / w) 0).getLsbD (i % w)) = decide (i = c) := by
  rw [List.getD_eq_getElem?_getD, List.getElem?_modify, List.getElem?_replicate]
  have hword : i = c ↔ i / w = c / w ∧ i % w = c % w := by
    constructor
    · rintro rfl
      exact ⟨rfl, rfl⟩
    · rintro ⟨hdiv, hmod⟩
      rw [← Nat.div_add_mod i w, ← Nat.div_add_mod c w, hdiv, hmod]
  by_cases hdiv : c / w = i / w
  · rw [if_pos (hdiv ▸ hc)]
    simp only [hdiv, if_true, Option.map_eq_map, Option.map_some, Option.getD_some]
    rw [getLsbD_one_shiftLeft (Nat.mod_lt i hw)]
    simp [hword, hdiv]
  · have hne : i ≠ c := fun h => hdiv (hword.mp h).1.symm
    simp only [hdiv, if_false, hne, decide_false]
    split <;> simp

/-- The set holds the CPU if its size covers it, and nothing else. -/
theorem contains_pin (memory : Nat → Long abi) (tid : Pid) (hcpu : 0 ≤ cpu.val) (i : Nat) :
    (pin memory tid cpu).contains i = true ↔
      i = cpu.val.toNat ∧ ¬abi.wordSize ∣ cpu.val.toNat := by
  have hcovered := lt_cpuAllocSize_iff abi hcpu
  unfold pin SetAffinity.contains
  simp only [cpuZeroS_cpuAlloc, cpuSetS, toNat_toSize abi hcpu]
  by_cases hlt : cpu.val.toNat / 8 < cpuAllocSize abi cpu
  · have hword : cpu.val.toNat / abi.wordSize < cpuAllocSize abi cpu / maskBytes abi := by
      rw [cpuAllocSize_eq abi hcpu] at hlt ⊢
      cases abi with
      | i386 => simp only [Abi.wordSize, maskBytes] at hlt ⊢; omega
      | x86_64 => simp only [Abi.wordSize, maskBytes] at hlt ⊢; omega
    have hpos : 0 < abi.wordSize := Nat.lt_of_lt_of_le (by decide) abi.le_wordSize
    rw [if_pos hlt, getLsbD_modify hpos hword, and_iff_left (hcovered.mp hlt)]
    simp only [Bool.and_eq_true, decide_eq_true_eq]
    constructor
    · exact fun h => h.2
    · rintro rfl
      exact ⟨hlt, rfl⟩
  · rw [if_neg hlt]
    have hdvd := not_not.mp (mt hcovered.mpr hlt)
    simp only [hdvd, not_true, and_false, iff_false, Bool.and_eq_true, not_and]
    intro _
    rw [List.getD_eq_getElem?_getD, List.getElem?_replicate]
    split <;> simp

/-- The thread is pinned to the CPU exactly if its number is no multiple of the word size. -/
theorem pinsTo_pin_iff (memory : Nat → Long abi) (tid : Pid) (hcpu : 0 ≤ cpu.val) :
    (pin memory tid cpu).PinsTo cpu ↔ ¬abi.wordSize ∣ cpu.val.toNat := by
  constructor
  · intro h
    have hself := (h cpu.val.toNat).mpr (Int.toNat_of_nonneg hcpu)
    exact ((contains_pin memory tid hcpu cpu.val.toNat).mp hself).2
  · intro hdvd i
    rw [contains_pin memory tid hcpu i, and_iff_left hdvd]
    omega

/-- The CPU is the only one in the set exactly if its number is not a multiple of the bits of a
word. -/
theorem pinsToCpu_iff (memory : Nat → Long abi) (tid : Pid) (getcpu : Int)
    (hcpu : 0 ≤ cpu.val) :
    ((∃ call, startInThread memory tid cpu = some call ∧ call.PinsTo cpu) ↔
      ¬abi.wordSize ∣ cpu.val.toNat) ∧
    ((run memory cpu getcpu).1.PinsTo cpu ↔ ¬abi.wordSize ∣ cpu.val.toNat) := by
  constructor
  · rw [startInThread, if_pos (by omega), ← pinsTo_pin_iff memory tid hcpu]
    constructor
    · rintro ⟨call, hcall, hpins⟩
      cases hcall
      exact hpins
    · exact fun hpins => ⟨_, rfl, hpins⟩
  · exact pinsTo_pin_iff memory 0 hcpu

/-- The second CPU of a machine with words of 64 bits. -/
theorem pinsToCpu_iff_one :
    (0 : Int) ≤ (Signed.wrap 32 1).val ∧
      ((run (fun _ => (0 : Long .x86_64)) (Signed.wrap 32 1) 1).1.PinsTo (Signed.wrap 32 1)) :=
  ⟨by decide, (pinsToCpu_iff _ 0 1 (by decide)).2.mpr (by decide)⟩

/-- The set that should hold CPU 0 has no words. -/
theorem not_pinsTo_zero :
    (∀ call, startInThread (fun _ => (0 : Long .x86_64)) 1 (Signed.wrap 32 0) = some call →
      ¬call.PinsTo (Signed.wrap 32 0)) ∧
    ¬(run (fun _ => (0 : Long .x86_64)) (Signed.wrap 32 0) 0).1.PinsTo (Signed.wrap 32 0) := by
  constructor
  · intro call hcall hpins
    cases hcall
    exact absurd ((hpins 0).mpr (by decide)) (by decide)
  · intro hpins
    exact absurd ((hpins 0).mpr (by decide)) (by decide)

end Pinning

end CpuAffinity
end ChildProcess
end Roofline
