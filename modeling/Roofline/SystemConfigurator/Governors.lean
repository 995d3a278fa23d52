import Roofline.Cpp.IStream
import Roofline.Library.Programs

/-!
# Setting the governors of CPUs

A program of its own writes a governor for each CPU of a list.  It parses the whole list before
it sets anything, and it stops at the first CPU whose file does not take the governor.

Main results:

- Theorem {lit}`main_returnsIff`: when the program exits with the status zero.
- Theorem {lit}`main_ensures`: the governors that it leaves.
-/

namespace Roofline
namespace SystemConfigurator

open Cpp Decimals Integers Programs

/-! ## The program -/

/-- The governor of each CPU. -/
abbrev Governors :=
  Int → String

/-- {lit}`MAX_CPU`. -/
def maxCpu : Int :=
  128

/-- The status of a program that fails. -/
def failure : Nat :=
  1

section Program

-- whether the file of a CPU can be opened and takes a governor
variable (accepts : Int → String → Bool)

/-- Set the governor of each processor in turn; one that does not accept it throws. -/
def setGovernor (governor : String) (cpus : List Int) : Program Nat Governors PUnit :=
  cpus.forM fun cpu =>
    if accepts cpu governor then
      primitive fun governors => (.ok ⟨⟩, Function.update governors cpu governor)
    else
      throw failure

/-- The governor that the chain of comparisons recognizes. -/
def parseGovernor (text : String) : Option String :=
  let governor := none
  let governor := if text = "powersave" then some "powersave" else governor
  let governor := if text = "performance" then some "performance" else governor
  if text = "ondemand" then some "ondemand" else governor

/-- A number of the list. -/
def parseCpu (arg : String) : Option Int :=
  match scanI 32 arg.toList with
  | none => none
  | some cpu => if cpu.val < 0 ∨ cpu.val > maxCpu then none else some cpu.val

/-- The status is zero if the program returns, and what it throws otherwise. -/
def main : List String → Program Nat Governors PUnit
  | _ :: command :: governorArg :: cpuArg :: cpuArgs =>
      if command = "governor" then
        match parseGovernor governorArg with
        | none => throw failure
        | some governor =>
            match (cpuArg :: cpuArgs).mapM parseCpu with
            | none => throw failure
            | some cpus => setGovernor accepts governor cpus
      else
        throw failure
  | _ => throw failure

end Program

/-! ## What it reads -/

section Arguments

/-- The decimal notation is what the library prints. -/
theorem toList_toString (i : Int) : (toString i).toList = decimal i := by
  unfold decimal
  cases i with
  | ofNat n => simp [toString, Int.repr, Nat.repr]
  | negSucc n => simp [toString, Int.repr, Nat.repr, Int.negSucc_lt_zero]

/-- The governors that the program knows. -/
def knownGovernors : List String :=
  ["powersave", "performance", "ondemand"]

/-- A text is recognized exactly if it is the name of a known governor. -/
theorem parseGovernor_eq (text : String) :
    parseGovernor text = if text ∈ knownGovernors then some text else none := by
  unfold parseGovernor knownGovernors
  by_cases hondemand : text = "ondemand"
  · simp [hondemand]
  · by_cases hperformance : text = "performance"
    · simp [hperformance]
    · by_cases hpowersave : text = "powersave"
      · simp [hpowersave]
      · simp [hondemand, hperformance, hpowersave]

/-- A number that Java has as an {lit}`int`. -/
def IsInt (i : Int) : Prop :=
  -2 ^ (32 - 1) ≤ i ∧ i < 2 ^ (32 - 1)

/-- Whether a number is an int can be decided. -/
instance (i : Int) : Decidable (IsInt i) :=
  inferInstanceAs (Decidable (-2 ^ (32 - 1) ≤ i ∧ i < 2 ^ (32 - 1)))

/-- The check that the program makes. -/
def InRange (cpu : Int) : Prop :=
  0 ≤ cpu ∧ cpu ≤ maxCpu

/-- Whether a number is in the range can be decided. -/
instance (cpu : Int) : Decidable (InRange cpu) :=
  inferInstanceAs (Decidable (0 ≤ cpu ∧ cpu ≤ maxCpu))

/-- A number that is printed is read back. -/
theorem parseCpu_toString {cpu : Int} (hint : IsInt cpu) :
    parseCpu (toString cpu) = if InRange cpu then some cpu else none := by
  have hscan : scanI 32 (decimal cpu) = some ⟨cpu, hint⟩ :=
    scanI_decimal_val (by decide) (by decide) ⟨cpu, hint⟩
  rw [parseCpu, toList_toString, hscan]
  change (if cpu < 0 ∨ cpu > maxCpu then none else some cpu) = _
  have hiff : cpu < 0 ∨ cpu > maxCpu ↔ ¬InRange cpu := by
    unfold InRange
    omega
  by_cases hrange : InRange cpu
  · rw [if_pos hrange, if_neg fun h => hiff.mp h hrange]
  · rw [if_neg hrange, if_pos (hiff.mpr hrange)]

/-- All numbers are parsed exactly if each of them is in the range. -/
theorem mapM_parseCpu {cpus : List Int} (hints : ∀ cpu ∈ cpus, IsInt cpu) :
    (cpus.map toString).mapM parseCpu = if ∀ cpu ∈ cpus, InRange cpu then some cpus else none := by
  induction cpus with
  | nil => rfl
  | cons cpu cpus ih =>
      rw [List.forall_mem_cons] at hints
      rw [List.map_cons, List.mapM_cons, parseCpu_toString hints.1, ih hints.2]
      by_cases hfirst : InRange cpu
      · by_cases hrest : ∀ cpu ∈ cpus, InRange cpu
        · have hall : ∀ other ∈ cpu :: cpus, InRange other := List.forall_mem_cons.mpr ⟨hfirst, hrest⟩
          rw [if_pos hfirst, if_pos hrest, if_pos hall]
          rfl
        · have hnot : ¬∀ other ∈ cpu :: cpus, InRange other := fun h =>
            hrest (List.forall_mem_cons.mp h).2
          rw [if_pos hfirst, if_neg hrest, if_neg hnot]
          rfl
      · have hnot : ¬∀ other ∈ cpu :: cpus, InRange other := fun h =>
          hfirst (List.forall_mem_cons.mp h).1
        rw [if_neg hfirst, if_neg hnot]
        rfl

end Arguments

/-! ## What it does -/

section Effects

variable {accepts : Int → String → Bool} {governor : String} {cpus : List Int}

/-- The governors after one has been set for CPUs. -/
def Governors.set (governors : Governors) (governor : String) (cpus : List Int) : Governors :=
  fun cpu => if cpu ∈ cpus then governor else governors cpu

/-- The CPUs before the first one that does not take the governor get it. -/
theorem setGovernor_ensures (governors : Governors) :
    Ensures (· = governors) (setGovernor accepts governor cpus)
      (fun _ after => after = governors.set governor cpus)
      (fun _ after => ∃ done, done <+: cpus ∧ after = governors.set governor done) := by
  have hloop : Ensures (fun after => after = governors.set governor [])
      (setGovernor accepts governor cpus) (fun _ after => after = governors.set governor cpus)
      (fun _ after => ∃ done, done <+: cpus ∧ after = governors.set governor done) := by
    apply Ensures.forM (I := fun done after => after = governors.set governor done)
    intro done cpu rest hcpus
    apply Ensures.ite
    · intro _ before hbefore
      change Function.update before cpu governor = governors.set governor (done ++ [cpu])
      rw [hbefore]
      funext other
      by_cases hother : other = cpu
      · simp [hother, Governors.set]
      · simp [hother, Governors.set]
    · intro _
      exact Ensures.throw fun before hbefore => ⟨done, ⟨cpu :: rest, hcpus.symm⟩, hbefore⟩
  refine hloop.weaken (fun before hbefore => ?_) (fun _ _ h => h) fun _ _ h => h
  rw [hbefore]
  funext cpu
  exact (if_neg List.not_mem_nil).symm

/-- The loop returns exactly if every processor accepts the governor. -/
theorem setGovernor_returnsIff :
    ReturnsIff (setGovernor accepts governor cpus) (∀ cpu ∈ cpus, accepts cpu governor = true) := by
  apply ReturnsIff.forM
  intro cpu _
  refine (ReturnsIff.ite (fun _ => ⟨fun _ => trivial, fun _ => ⟨⟨⟩, rfl⟩⟩)
    (ReturnsIff.throw _)).congr ?_
  simp

/-- The arguments that set a governor for CPUs. -/
def arguments (name governor : String) (cpus : List Int) : List String :=
  name :: "governor" :: governor :: cpus.map toString

/-- Nothing is set if an argument is wrong. -/
theorem main_eq (hints : ∀ cpu ∈ cpus, IsInt cpu) (name : String) :
    main accepts (arguments name governor cpus) =
      if governor ∈ knownGovernors ∧ cpus ≠ [] ∧ ∀ cpu ∈ cpus, InRange cpu then
        setGovernor accepts governor cpus
      else
        throw failure := by
  cases cpus with
  | nil => simp [arguments, main]
  | cons cpu cpus =>
      have hparse := mapM_parseCpu hints
      rw [List.map_cons] at hparse
      rw [arguments, List.map_cons, main, if_pos rfl, parseGovernor_eq]
      by_cases hgovernor : governor ∈ knownGovernors
      · by_cases hrange : ∀ other ∈ cpu :: cpus, InRange other
        · rw [if_pos hgovernor, if_pos ⟨hgovernor, List.cons_ne_nil _ _, hrange⟩]
          simp only [hparse, if_pos hrange]
        · rw [if_pos hgovernor, if_neg fun h => hrange h.2.2]
          simp only [hparse, if_neg hrange]
      · rw [if_neg hgovernor, if_neg fun h => hgovernor h.1]

/-- The whole list is set if the status is zero, and a part of it otherwise. -/
theorem main_ensures (hints : ∀ cpu ∈ cpus, IsInt cpu) (name : String) (governors : Governors) :
    Ensures (· = governors) (main accepts (arguments name governor cpus))
      (fun _ after => after = governors.set governor cpus)
      (fun _ after => ∃ done, done <+: cpus ∧ after = governors.set governor done) := by
  rw [main_eq hints]
  apply Ensures.ite
  · exact fun _ => setGovernor_ensures governors
  · intro _
    apply Ensures.throw
    rintro before rfl
    refine ⟨[], List.nil_prefix, ?_⟩
    funext cpu
    exact (if_neg List.not_mem_nil).symm

/-- The arguments are a known governor and the numbers of CPUs that take it. -/
def Accepted (accepts : Int → String → Bool) : List String → Prop
  | _ :: command :: governor :: cpuArg :: cpuArgs =>
      command = "governor" ∧ governor ∈ knownGovernors ∧
        ∃ cpus, (cpuArg :: cpuArgs).mapM parseCpu = some cpus ∧
          ∀ cpu ∈ cpus, accepts cpu governor = true
  | _ => False

/-- Whether the status is zero depends on the arguments, and not on the governors before. -/
theorem main_returnsIff (args : List String) :
    ReturnsIff (main accepts args) (Accepted accepts args) := by
  rcases args with _ | ⟨name, _ | ⟨command, _ | ⟨governor, _ | ⟨cpuArg, cpuArgs⟩⟩⟩⟩
  · exact ReturnsIff.throw _
  · exact ReturnsIff.throw _
  · exact ReturnsIff.throw _
  · exact ReturnsIff.throw _
  rw [main, Accepted]
  by_cases hcommand : command = "governor"
  · rw [if_pos hcommand, parseGovernor_eq]
    by_cases hgovernor : governor ∈ knownGovernors
    · rw [if_pos hgovernor]
      cases hcpus : (cpuArg :: cpuArgs).mapM parseCpu with
      | none => exact (ReturnsIff.throw _).congr (by simp)
      | some cpus => exact setGovernor_returnsIff.congr (by simp [hcommand, hgovernor])
    · rw [if_neg hgovernor]
      exact (ReturnsIff.throw _).congr (by simp [hgovernor])
  · rw [if_neg hcommand]
    exact (ReturnsIff.throw _).congr (by simp [hcommand])

/-- When a governor can be set for CPUs. -/
theorem accepted_arguments_iff (hints : ∀ cpu ∈ cpus, IsInt cpu) (name : String) :
    Accepted accepts (arguments name governor cpus) ↔
      governor ∈ knownGovernors ∧ cpus ≠ [] ∧
        ∀ cpu ∈ cpus, InRange cpu ∧ accepts cpu governor = true := by
  cases cpus with
  | nil => simp [arguments, Accepted]
  | cons cpu cpus =>
      have hparse := mapM_parseCpu hints
      rw [List.map_cons] at hparse
      rw [arguments, List.map_cons, Accepted, hparse, forall₂_and]
      by_cases hrange : ∀ other ∈ cpu :: cpus, InRange other
      · rw [if_pos hrange]
        simp only [Option.some.injEq, exists_eq_left', true_and]
        exact ⟨fun h => ⟨h.1, List.cons_ne_nil _ _, hrange, h.2⟩, fun h => ⟨h.1, h.2.2.2⟩⟩
      · rw [if_neg hrange]
        simp only [reduceCtorEq, false_and, exists_const, and_false, false_iff]
        exact fun h => hrange h.2.2.1

end Effects

end SystemConfigurator
end Roofline
