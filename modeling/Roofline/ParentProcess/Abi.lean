import Mathlib.Data.BitVec
import Mathlib.Tactic.Common

/-!
# Machine types of the tracing parent process

The parent process of the measuring core is compiled for 32 and for 64 bit
machines.  This file has the integer types, the registers and the wait statuses
its code works with.

Main results:

- Theorem {lit}`throughUint32_eq_iff`: an argument survives a {lit}`uint32_t` variable
  exactly when it fits into one.
- Theorem {lit}`fits_toLong`: a process id that is not negative does.
-/

namespace Roofline
namespace ParentProcess

/-- The two ABIs the code distinguishes by {lit}`_LP64`. -/
inductive Abi where
  | i386
  | x86_64
deriving DecidableEq, Repr

/-- The width of {lit}`long` and of a register. -/
abbrev Abi.wordSize : Abi → Nat
  | .i386 => 32
  | .x86_64 => 64

/-- {lit}`SYS_exit` of the ABI. -/
def Abi.sysExit : (abi : Abi) → BitVec abi.wordSize
  | .i386 => 1
  | .x86_64 => 60

/-- {lit}`SYS_getpid` of the ABI. -/
def Abi.sysGetpid : (abi : Abi) → BitVec abi.wordSize
  | .i386 => 20
  | .x86_64 => 39

/-- Words have at least 32 bits. -/
theorem Abi.le_wordSize (abi : Abi) : 32 ≤ abi.wordSize := by
  cases abi <;> decide

/-- {lit}`long` and {lit}`unsigned long`. -/
abbrev Long (abi : Abi) := BitVec abi.wordSize

/-- {lit}`pid_t`, a signed 32 bit integer. -/
abbrev Pid := BitVec 32

/-- {lit}`user_regs_struct`: the registers the code names, and all the others. -/
structure Regs (abi : Abi) where
  ip : Long abi
  ax : Long abi
  bx : Long abi
  cx : Long abi
  dx : Long abi
  di : Long abi
  origAx : Long abi
  others : List (Long abi)
deriving DecidableEq, Repr

/-! ## Conversions -/

/-- A {lit}`pid_t` converted to {lit}`long`. -/
def Pid.toLong (abi : Abi) (pid : Pid) : Long abi :=
  pid.signExtend abi.wordSize

/-- A {lit}`long` stored in a {lit}`uint32_t` and read back as a {lit}`long`. -/
def throughUint32 {abi : Abi} (arg : Long abi) : Long abi :=
  (arg.setWidth 32).setWidth abi.wordSize

/-- The argument fits into a {lit}`uint32_t`. -/
def Fits {abi : Abi} (arg : Long abi) : Prop :=
  arg.toNat < 2 ^ 32

/-- Whether an argument fits can be decided. -/
instance {abi : Abi} (arg : Long abi) : Decidable (Fits arg) :=
  inferInstanceAs (Decidable (_ < _))

/-- The argument survives {lit}`uint32_t` exactly when it fits. -/
theorem throughUint32_eq_iff {abi : Abi} (arg : Long abi) :
    throughUint32 arg = arg ↔ Fits arg := by
  have hmod : (throughUint32 arg).toNat = arg.toNat % 2 ^ 32 := by
    simp only [throughUint32, BitVec.toNat_setWidth]
    apply Nat.mod_eq_of_lt
    have hlt : arg.toNat % 2 ^ 32 < 2 ^ 32 := Nat.mod_lt _ (by decide)
    have hle : 2 ^ 32 ≤ 2 ^ abi.wordSize := Nat.pow_le_pow_right (by decide) abi.le_wordSize
    omega
  unfold Fits
  constructor
  · intro heq
    rw [heq] at hmod
    rw [hmod]
    exact Nat.mod_lt _ (by decide)
  · intro hlt
    apply BitVec.eq_of_toNat_eq
    rw [hmod, Nat.mod_eq_of_lt hlt]

/-- Zero fits. -/
theorem fits_zero (abi : Abi) : Fits (0 : Long abi) := by
  cases abi <;> decide

/-- On the 32 bit machine every argument fits. -/
theorem fits_i386 (arg : Long .i386) : Fits arg :=
  arg.isLt

/-- A process id that is not negative fits. -/
theorem fits_toLong {abi : Abi} {pid : Pid} (hpid : pid.msb = false) :
    Fits (pid.toLong abi) := by
  unfold Fits Pid.toLong
  rw [BitVec.signExtend_eq_setWidth_of_msb_false hpid, BitVec.toNat_setWidth]
  exact Nat.lt_of_le_of_lt (Nat.mod_le _ _) pid.isLt

/-! ## Notifications -/

/-- What a child notifies the parent of. -/
inductive ParentNotification where
  | startup
  | processingDone
  | queueProcessActions
deriving DecidableEq, Repr

/-- What the parent notifies a child of. -/
inductive ChildNotification where
  | threadStarted
  | processActions
  | threadExited
  | threadExiting
deriving DecidableEq, Repr

/-- {lit}`(ParentNotification) REG(regs,cx)`: the lower 32 bits of the register; a
value that is no enumerator compares different from all of them. -/
def Regs.notification {abi : Abi} (regs : Regs abi) : Option ParentNotification :=
  match (regs.cx.setWidth 32).toNat with
  | 0 => some .startup
  | 1 => some .processingDone
  | 2 => some .queueProcessActions
  | _ => none

/-- The value of a child notification in a register. -/
def ChildNotification.toLong (abi : Abi) : ChildNotification → Long abi
  | .threadStarted => 0
  | .processActions => 1
  | .threadExited => 2
  | .threadExiting => 3

/-! ## Wait statuses -/

/-- The status {lit}`waitpid` stores. -/
abbrev Status := BitVec 32

/-- {lit}`WIFEXITED` -/
def Status.wifexited (status : Status) : Bool :=
  status &&& 0x7F == 0

/-- {lit}`WEXITSTATUS` -/
def Status.wexitstatus (status : Status) : BitVec 32 :=
  (status >>> 8) &&& 0xFF

/-- {lit}`WIFSTOPPED` -/
def Status.wifstopped (status : Status) : Bool :=
  status &&& 0xFF == 0x7F

/-- {lit}`WIFSIGNALED` -/
def Status.wifsignaled (status : Status) : Bool :=
  status &&& 0x7F != 0 && status &&& 0x7F != 0x7F

/-- A thread that is stopped was not ended by a signal. -/
theorem Status.not_wifsignaled_of_wifstopped (status : Status)
    (h : status.wifstopped = true) : status.wifsignaled = false := by
  have hlow : status &&& 0xFF = 0x7F := by simpa [Status.wifstopped] using h
  have hsplit : status &&& 0x7F = (status &&& 0xFF) &&& 0x7F := by
    rw [BitVec.and_assoc]
    rfl
  unfold Status.wifsignaled
  rw [hsplit, hlow]
  rfl

/-- {lit}`WSTOPSIG` -/
def Status.wstopsig (status : Status) : BitVec 32 :=
  (status >>> 8) &&& 0xFF

/-- The signal number without the bit that marks system call stops. -/
def Status.stopSig (status : Status) : BitVec 32 :=
  status.wstopsig &&& 0x7F

/-- The bit that {lit}`PTRACE_O_TRACESYSGOOD` sets for system call stops. -/
def Status.sysGood (status : Status) : Bool :=
  status.wstopsig &&& 0x80 != 0

/-- The ptrace event of a stop. -/
def Status.event (status : Status) : BitVec 32 :=
  (status >>> 16) &&& 0xFF

/-- {lit}`SIGTRAP` -/
def SIGTRAP : BitVec 32 := 5

/-- {lit}`SIGSTOP` -/
def SIGSTOP : BitVec 32 := 19

/-- {lit}`PTRACE_EVENT_CLONE` -/
def PTRACE_EVENT_CLONE : BitVec 32 := 3

/-- {lit}`PTRACE_EVENT_EXIT` -/
def PTRACE_EVENT_EXIT : BitVec 32 := 6

end ParentProcess
end Roofline
