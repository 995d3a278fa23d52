import Roofline.ParentProcess.StepCases

/-!
# Every request to process actions is handled once

A child asks the parent by a trap to let a thread process its actions.  The parent
recognises the trap by the address of its instruction and reads the request from
the registers.  This file counts the requests the children make and those the parent
handles.

Main results:

- Theorem {lit}`reaction_requests`: one reaction handles one request if it is taken for
  one, and none otherwise.
- Theorem {lit}`requestsCounted_iff`: over every run, the counts agree exactly when no
  trap is mistaken.
- Theorem {lit}`not_requestsCounted`: a wake-up that reaches a thread directly after its
  request makes the parent handle the request again.
-/

namespace Roofline
namespace ParentProcess
namespace System

open Runs

variable {abi : Abi} {sys sys' : System abi} {stop : Stop abi}

/-! ## Counting -/

/-- The parent handles a request to process actions. -/
def isHandledRequest : Effect abi → Bool
  | .handled _ event => event == some .queueProcessActions
  | _ => false

/-- The parent queues a notification to process actions. -/
def isQueuedActions : Effect abi → Bool
  | .queued _ event _ => event == .processActions
  | _ => false

/-- A thread executes the trap by which {lit}`ChildThread::queueAction` notifies the parent. -/
def executesRequest : Input abi → Bool
  | .created _ => false
  | .reported stop =>
      stop.isTrap && stop.cause == .notification &&
        (stop.regs.bind Regs.notification == some .queueProcessActions)

/-- The parent handles, and queues, as many notifications as there were requests. -/
def RequestsCounted (inputs : List (Input abi)) (sys : System abi) : Prop :=
  sys.log.countP isHandledRequest = inputs.countP executesRequest ∧
    sys.log.countP isQueuedActions = inputs.countP executesRequest

/-- The stop is taken for a request: a trap at the notification address. -/
def takenForRequest (sys : System abi) (stop : Stop abi) : Bool :=
  stop.isTrap && stop.regs.any fun regs =>
    regs.ip == sys.notifyAddress && regs.notification == some .queueProcessActions

/-- A trap is mistaken: the registers say that a request was made, and either the
thread is at the notification address without having executed the trap of a request, or
it executed one elsewhere. -/
def MistakesTrap (sys : System abi) : Input abi → Prop
  | .created _ => False
  | .reported stop =>
      stop.isTrap = true ∧ ∃ regs, stop.regs = some regs ∧
        regs.notification = some .queueProcessActions ∧
        ¬(regs.ip = sys.notifyAddress ↔ stop.cause = .notification)

/-- Whether a trap is mistaken is whether it is taken for a request it is not, or not
taken for one it is. -/
theorem mistakesTrap_iff (sys : System abi) (stop : Stop abi) :
    MistakesTrap sys (.reported stop) ↔
      takenForRequest sys stop ≠ executesRequest (.reported stop) := by
  unfold MistakesTrap takenForRequest executesRequest
  by_cases htrap : stop.isTrap = true
  · cases hregs : stop.regs with
    | none => simp [htrap, hregs]
    | some regs =>
        by_cases hrequest : regs.notification = some .queueProcessActions
        · by_cases hip : regs.ip = sys.notifyAddress
          · by_cases hcause : stop.cause = .notification <;>
              simp [htrap, hregs, hrequest, hip, hcause]
          · by_cases hcause : stop.cause = .notification <;>
              simp [htrap, hregs, hrequest, hip, hcause]
        · have hnot := beq_eq_false_iff_ne.mpr hrequest
          simp [htrap, hregs, hnot, hrequest]
  · simp [htrap]

/-! ## Steps -/

/-- What a reaction adds to the two counts. -/
def Adds (sys sys' : System abi) (n : Nat) : Prop :=
  sys'.log.countP isHandledRequest = sys.log.countP isHandledRequest + n ∧
    sys'.log.countP isQueuedActions = sys.log.countP isQueuedActions + n

/-- Effects without requests add none. -/
theorem adds_zero_of_log {effects : List (Effect abi)} (hlog : sys'.log = sys.log ++ effects)
    (hhandled : effects.countP isHandledRequest = 0)
    (hqueued : effects.countP isQueuedActions = 0) : Adds sys sys' 0 := by
  unfold Adds
  rw [hlog, List.countP_append, List.countP_append, hhandled, hqueued]
  exact ⟨rfl, rfl⟩

/-- A change that adds none after one that adds some. -/
theorem Adds.trans_zero {mid : System abi} {n : Nat} (h : Adds sys mid n)
    (h' : Adds mid sys' 0) : Adds sys sys' n := by
  unfold Adds at *
  omega

/-- Installing a notification from the queue handles and queues nothing. -/
theorem Installed.adds (h : Installed sys stop sys') : Adds sys sys' 0 := by
  cases h with
  | @intro event arg rest saved hqueue hsaved =>
      apply adds_zero_of_log (List.append_assoc _ _ _)
      · rfl
      · rfl

/-- A request adds one. -/
theorem requested_adds (regs : Regs abi) : Adds sys (sys.requested stop regs) 1 := by
  unfold Adds requested
  rw [queueNotification_log]
  simp only [push, record, List.countP_append]
  exact ⟨rfl, rfl⟩

/-- A trap is taken for a request by its place and its notification. -/
theorem takenForRequest_of_trap {regs : Regs abi} (htrap : stop.isTrap = true)
    (hregs : stop.regs = some regs) :
    takenForRequest sys stop =
      (regs.ip == sys.notifyAddress && regs.notification == some .queueProcessActions) := by
  simp [takenForRequest, htrap, hregs]

/-- Other stops are not taken for one. -/
theorem takenForRequest_of_not_trap (htrap : stop.isTrap = false) :
    takenForRequest sys stop = false := by
  simp [takenForRequest, htrap]

/-- Nor are other notifications. -/
theorem takenForRequest_of_other {regs : Regs abi} (hregs : stop.regs = some regs)
    {event : ParentNotification} (hevent : regs.notification = some event)
    (hne : event ≠ .queueProcessActions) : takenForRequest sys stop = false := by
  have hnot : (some event == some ParentNotification.queueProcessActions) = false := by
    simpa using hne
  simp only [takenForRequest, hregs, Option.any_some, hevent, hnot, Bool.and_false]

/-- A trap of a normally running thread handles a request if it is taken for one. -/
theorem notified_adds {regs : Regs abi} (htrap : stop.isTrap = true)
    (hregs : stop.regs = some regs) :
    Adds sys (sys.notified stop regs) (takenForRequest sys stop).toNat := by
  rw [takenForRequest_of_trap htrap hregs]
  rcases notified_cases sys stop regs with
    ⟨hip, heq⟩ | ⟨hip, hrequest, heq⟩ | ⟨hip, hother, heq⟩
  · have hnot : (regs.ip == sys.notifyAddress) = false := by simpa using hip
    rw [heq, hnot]
    exact ⟨rfl, rfl⟩
  · rw [heq, hip, hrequest]
    simpa using requested_adds regs
  · have hnot : (regs.notification == some .queueProcessActions) = false := by simpa using hother
    rw [heq, hnot, Bool.and_false]
    apply adds_zero_of_log rfl
    · simp [isHandledRequest, hnot]
    · rfl

/-- One reaction handles one request if the stop is taken for one, and none otherwise. -/
theorem reaction_requests (h : Reaction sys stop sys') :
    Adds sys sys' (takenForRequest sys stop).toNat := by
  have hquiet : stop.isTrap = false → Adds sys sys' 0 →
      Adds sys sys' (takenForRequest sys stop).toNat := by
    intro htrap hadds
    rw [takenForRequest_of_not_trap htrap]
    exact hadds
  have hsame : Adds sys sys 0 := ⟨rfl, rfl⟩
  have hstopTrap : stop.status.stopSig = SIGSTOP → stop.isTrap = false := by
    intro hstop
    have hne : (SIGSTOP == SIGTRAP) = false := rfl
    simp [Stop.isTrap, hstop, hne]
  have hforget : ∀ pid, Adds sys (sys.handleChildThreadExited pid) 0 := by
    intro pid
    have hlog : (sys.handleChildThreadExited pid).log =
        sys.log ++ [.forgotten pid, .queued sys.mainChild .threadExited (pid.toLong abi)] := by
      rw [handleChildThreadExited, queueNotification_log]
      simp [push, forget]
    exact adds_zero_of_log hlog rfl rfl
  cases h with
  | gone hexited => exact hquiet (by simp [Stop.isTrap, hexited]) hsame
  | threadExited hexit =>
      have hend := stop.isEnd_of_isExit hexit
      apply hquiet _ (hforget stop.pid)
      by_contra htrap
      have hnot := stop.not_isEnd_of_isTrap (by simpa using htrap)
      simp [hend] at hnot
  | terminated _ hstopped => exact hquiet (by simp [Stop.isTrap, hstopped]) hsame
  | newThread hstop =>
      apply hquiet (hstopTrap hstop)
      exact adds_zero_of_log (List.append_assoc _ _ _) rfl rfl
  | newThreadEarly hstop =>
      apply hquiet (hstopTrap hstop)
      exact adds_zero_of_log (List.append_assoc _ _ _) rfl rfl
  | syscallEntered hsyscall =>
      exact hquiet (stop.not_isTrap_of_isSyscall hsyscall) ⟨rfl, rfl⟩
  | exitIntercepted hsyscall =>
      apply hquiet (stop.not_isTrap_of_isSyscall hsyscall)
      exact adds_zero_of_log rfl rfl rfl
  | syscallLeft hsyscall => exact hquiet (stop.not_isTrap_of_isSyscall hsyscall) ⟨rfl, rfl⟩
  | exitLeft hsyscall _ _ _ hinstalled =>
      apply hquiet (stop.not_isTrap_of_isSyscall hsyscall)
      have hpush : Adds sys ((sys.setInSyscall stop.pid false).push stop.pid .threadExiting
          ((sys.childExitValue stop.pid).getD 0)) 0 := adds_zero_of_log rfl rfl rfl
      exact hpush.trans_zero hinstalled.adds
  | ignored _ _ _ htrap => exact hquiet htrap hsame
  | started htrap _ hregs _ hstartup =>
      rw [takenForRequest_of_other hregs hstartup (by decide)]
      exact adds_zero_of_log rfl rfl rfl
  | trapped htrap _ hregs => exact notified_adds htrap hregs
  | trappedDelivered htrap _ hregs _ hinstalled =>
      exact (notified_adds htrap hregs).trans_zero hinstalled.adds
  | processingNext htrap _ hregs _ hdone hinstalled =>
      rw [takenForRequest_of_other hregs hdone (by decide)]
      exact hinstalled.adds
  | processingDone htrap _ hregs _ hdone =>
      rw [takenForRequest_of_other hregs hdone (by decide)]
      exact adds_zero_of_log rfl rfl rfl
  | processingRequested htrap _ hregs hip hrequest =>
      rw [takenForRequest_of_trap htrap hregs, hip, hrequest]
      simpa using requested_adds _
  | processingIgnored htrap _ hregs hip =>
      have hnot := beq_eq_false_iff_ne.mpr hip
      rw [takenForRequest_of_trap htrap hregs, hnot]
      exact hsame

/-- A step handles one request if its report is taken for one, and none otherwise. -/
theorem step_requests {input : Input abi} (hstep : sys.step input = .ok sys') :
    Adds sys sys' (match input with
      | .created _ => false
      | .reported stop => takenForRequest sys stop).toNat := by
  rcases step_cases hstep with
    ⟨pid, rfl, rfl⟩ | ⟨stop, reacted, effects, rfl, _, hreaction, rfl, heffects⟩
  · exact ⟨rfl, rfl⟩
  · have hadds := reaction_requests hreaction
    have hkernel : takenForRequest (sys.reportedByKernel stop) stop = takenForRequest sys stop := by
      simp [takenForRequest]
    have hresumed : Adds reacted (reacted.record effects) 0 := by
      apply adds_zero_of_log rfl
      · rw [List.countP_eq_zero]
        intro effect heffect
        rcases heffects effect heffect with ⟨sendSig, rfl⟩
        simp [isHandledRequest]
      · rw [List.countP_eq_zero]
        intro effect heffect
        rcases heffects effect heffect with ⟨sendSig, rfl⟩
        simp [isQueuedActions]
    have htotal := hadds.trans_zero hresumed
    rw [hkernel] at htotal
    unfold Adds at htotal ⊢
    rwa [reportedByKernel_log] at htotal

/-- A step keeps the counts equal exactly when it mistakes no trap. -/
theorem requestsCounted_step_iff {inputs : List (Input abi)} {input : Input abi}
    (hcounted : RequestsCounted inputs sys) (hstep : sys.step input = .ok sys') :
    RequestsCounted (inputs ++ [input]) sys' ↔ ¬MistakesTrap sys input := by
  have hadds := step_requests hstep
  unfold RequestsCounted at hcounted ⊢
  unfold Adds at hadds
  rw [List.countP_append, List.countP_singleton]
  cases input with
  | created pid => simp_all [executesRequest, MistakesTrap]
  | reported stop =>
      rw [mistakesTrap_iff, ne_eq, not_not]
      dsimp only at hadds
      cases htaken : takenForRequest sys stop <;>
        cases hexecuted : executesRequest (.reported stop) <;>
        simp [htaken] at hadds <;> simp <;> omega

/-- Over every run of the trace loop: at every moment the parent has executed
{lit}`handleNotification` and queued a notification to process actions exactly once for
each request trap the children executed, exactly when no trap is mistaken. -/
theorem requestsCounted_iff {mainChild : Pid} {notifyAddress entry : Long abi}
    {inputs : List (Input abi)} (hrun : Run step (start mainChild notifyAddress entry) inputs sys) :
    Visits step (start mainChild notifyAddress entry) inputs RequestsCounted ↔
      StepsMeet step (start mainChild notifyAddress entry)
        (fun _ s input => ¬MistakesTrap s input) inputs := by
  refine Run.visits_iff_stepsMeet (P := RequestsCounted) ?_ ?_ ?_ ?_ hrun
  · exact ⟨rfl, rfl⟩
  · intro before s input s' _ hcounted hright hstep
    exact (requestsCounted_step_iff hcounted hstep).mpr hright
  · intro before s hcounted
    exact hcounted
  · intro before s input s' hcounted hmistakes hstep hcounted'
    exact hmistakes ((requestsCounted_step_iff hcounted hstep).mp hcounted')

/-- The main child asks thread 101 to process its actions. -/
theorem requestsCounted_small :
    ∃ s, exec step smallStart
        [startsUp, firstStop 101, notifies 101 1 0, notifies mainPid 2 101] = .ok s ∧
      (Visits step smallStart
          [startsUp, firstStop 101, notifies 101 1 0, notifies mainPid 2 101] RequestsCounted ↔
        StepsMeet step smallStart (fun _ s input => ¬MistakesTrap s input)
          [startsUp, firstStop 101, notifies 101 1 0, notifies mainPid 2 101]) := by
  have hexec : ∃ s, exec step smallStart
      [startsUp, firstStop 101, notifies 101 1 0, notifies mainPid 2 101] = .ok s :=
    ⟨_, rfl⟩
  rcases hexec with ⟨s, hexec⟩
  exact ⟨s, hexec, requestsCounted_iff (run_iff_exec.mpr hexec)⟩

/-- The main child and thread 101 ask each other to process actions.  The wake-up of
the main child reaches it before it has executed another instruction, and its request
is handled again. -/
theorem not_requestsCounted :
    ¬∀ (inputs : List (Input .x86_64)) (s : System .x86_64),
      Run step smallStart inputs s → RequestsCounted inputs s := by
  intro hall
  have hexec : ∃ s, exec step smallStart
      [startsUp, firstStop 101, notifies 101 1 0, notifies mainPid 2 101, notifies 101 2 100,
        wakesUp mainPid address 2 101] = .ok s ∧ s.log.countP isHandledRequest = 3 := by
    refine ⟨_, rfl, ?_⟩
    decide
  rcases hexec with ⟨s, hexec, hthree⟩
  have htwo := (hall _ s (run_iff_exec.mpr hexec)).1
  rw [hthree] at htwo
  exact absurd htwo (by decide)

end System
end ParentProcess
end Roofline
