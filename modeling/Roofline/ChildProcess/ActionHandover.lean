import Mathlib.Algebra.BigOperators.Ring.Finset
import Mathlib.Algebra.Order.BigOperators.Group.Finset
import Mathlib.Data.Fintype.Basic
import Mathlib.Logic.Function.Basic
import Roofline.Library.Runs

/-!
# Handing over the actions of a workload to its thread

Actions can be queued in a workload before its thread exists.  They are parked there, and when the
thread starts, it forwards them to its own queue.  The model has the senders, which call
{lit}`Workload::queueAction`, the thread of the workload in {lit}`startInThread`, the thread that
processes its queue, and others that queue actions in the thread directly.  They interleave at
every operation on a queue; what is done under {lit}`childThreadMutex` is enclosed by locking and
unlocking it.

Main results:

- Theorem {lit}`KeepsActions.step`: no step loses, duplicates or reorders actions of a sender.
- Theorem {lit}`stepsLeft_step`: each step of the hand-over brings it closer to its end.
- Theorem {lit}`delivers_all`: every schedule hands over all actions of every sender in order.
-/

namespace Roofline
namespace ChildProcess
namespace ActionHandover

open Runs

/-! ## States and steps -/

section Model

variable (Sender Action : Type)

/-- A queued action, with its event, and the sender that queued it in the workload.  There is none
for an action that was queued in the thread directly. -/
abbrev Entry := Option Sender × Action

/-- A call of {lit}`Workload::queueAction` that holds the mutex. -/
inductive Call
  | locked (action : Action)
  | delivered

/-- Where {lit}`startInThread` is; an entry that was popped is in its hands until it is pushed. -/
inductive Starter
  | notStarted
  | locked
  | forwarding (hand : Option (Entry Sender Action))
  | drained
  | finished

/-- Who holds the mutex. -/
inductive Holder
  | sender (x : Sender)
  | starter
deriving DecidableEq

/-- The queues, the mutex, and what each of the parties is doing. -/
structure State where
  /-- The actions that a sender is still to queue. -/
  remaining : Sender → List Action
  calling : Sender → Option (Call Action)
  starter : Starter Sender Action
  childThreadMutex : Option (Holder Sender)
  /-- {lit}`childThread` is set. -/
  childThread : Bool
  /-- {lit}`Workload::actionQueue`. -/
  parked : List (Entry Sender Action)
  /-- {lit}`ChildThread::actionQueue`. -/
  queue : List (Entry Sender Action)
  /-- What the thread has popped from its queue. -/
  processed : List (Entry Sender Action)

/-- The steps of the senders, of the thread that starts, and of the queue of a started thread. -/
inductive Label
  | lock (x : Sender)
  | deliver (x : Sender)
  | unLock (x : Sender)
  | startLock
  | startSet
  | startPop
  | startPush
  | startUnLock
  | process
  | direct (action : Action)

end Model

variable {Sender Action : Type}

/-- The entry in the hands of {lit}`startInThread`. -/
def Starter.hand : Starter Sender Action → List (Entry Sender Action)
  | forwarding (some entry) => [entry]
  | _ => []

/-- The senders have these actions to queue, and the thread has not started. -/
def initial (programs : Sender → List Action) : State Sender Action where
  remaining := programs
  calling _ := none
  starter := .notStarted
  childThreadMutex := none
  childThread := false
  parked := []
  queue := []
  processed := []

section Step

variable [DecidableEq Sender]

/-- One step; a step of a party that is somewhere else, or that needs a locked mutex, is blocked. -/
def step (s : State Sender Action) : Label Sender Action → Except Blocked (State Sender Action)
  | .lock x =>
      match s.remaining x, s.childThreadMutex, s.calling x with
      | action :: rest, none, none => .ok { s with
          remaining := Function.update s.remaining x rest
          calling := Function.update s.calling x (some (.locked action))
          childThreadMutex := some (.sender x) }
      | _, _, _ => .error .blocked
  | .deliver x =>
      match s.calling x with
      | some (.locked action) =>
          -- if there is a child thread, the action is forwarded
          if s.childThread then .ok { s with
            calling := Function.update s.calling x (some .delivered)
            queue := s.queue ++ [(some x, action)] }
          else .ok { s with
            calling := Function.update s.calling x (some .delivered)
            parked := s.parked ++ [(some x, action)] }
      | _ => .error .blocked
  | .unLock x =>
      match s.calling x with
      | some .delivered => .ok { s with
          calling := Function.update s.calling x none
          childThreadMutex := none }
      | _ => .error .blocked
  | .startLock =>
      match s.starter, s.childThreadMutex with
      | .notStarted, none => .ok { s with starter := .locked, childThreadMutex := some .starter }
      | _, _ => .error .blocked
  | .startSet =>
      match s.starter with
      | .locked => .ok { s with starter := .forwarding none, childThread := true }
      | _ => .error .blocked
  | .startPop =>
      match s.starter, s.parked with
      | .forwarding none, [] => .ok { s with starter := .drained }
      | .forwarding none, entry :: parked =>
          .ok { s with starter := .forwarding (some entry), parked := parked }
      | _, _ => .error .blocked
  | .startPush =>
      match s.starter with
      | .forwarding (some entry) =>
          .ok { s with starter := .forwarding none, queue := s.queue ++ [entry] }
      | _ => .error .blocked
  | .startUnLock =>
      match s.starter with
      | .drained => .ok { s with starter := .finished, childThreadMutex := none }
      | _ => .error .blocked
  | .process =>
      match s.queue with
      | entry :: queue => .ok { s with queue := queue, processed := s.processed ++ [entry] }
      | [] => .error .blocked
  | .direct action =>
      if s.childThread then .ok { s with queue := s.queue ++ [(none, action)] }
      else .error .blocked

/-- What each step does, and when it can be made. -/
inductive Steps (s : State Sender Action) : Label Sender Action → State Sender Action → Prop
  | lock {x : Sender} {action : Action} {rest : List Action}
      (hremaining : s.remaining x = action :: rest) (hmutex : s.childThreadMutex = none)
      (hcalling : s.calling x = none) :
      Steps s (.lock x) { s with
        remaining := Function.update s.remaining x rest
        calling := Function.update s.calling x (some (.locked action))
        childThreadMutex := some (.sender x) }
  | forward {x : Sender} {action : Action} (hcalling : s.calling x = some (.locked action))
      (hchild : s.childThread = true) :
      Steps s (.deliver x) { s with
        calling := Function.update s.calling x (some .delivered)
        queue := s.queue ++ [(some x, action)] }
  | park {x : Sender} {action : Action} (hcalling : s.calling x = some (.locked action))
      (hchild : s.childThread = false) :
      Steps s (.deliver x) { s with
        calling := Function.update s.calling x (some .delivered)
        parked := s.parked ++ [(some x, action)] }
  | unLock {x : Sender} (hcalling : s.calling x = some .delivered) :
      Steps s (.unLock x) { s with
        calling := Function.update s.calling x none
        childThreadMutex := none }
  | startLock (hstarter : s.starter = .notStarted) (hmutex : s.childThreadMutex = none) :
      Steps s .startLock { s with starter := .locked, childThreadMutex := some .starter }
  | startSet (hstarter : s.starter = .locked) :
      Steps s .startSet { s with starter := .forwarding none, childThread := true }
  | drain (hstarter : s.starter = .forwarding none) (hparked : s.parked = []) :
      Steps s .startPop { s with starter := .drained }
  | pop {entry : Entry Sender Action} {parked : List (Entry Sender Action)}
      (hstarter : s.starter = .forwarding none) (hparked : s.parked = entry :: parked) :
      Steps s .startPop { s with starter := .forwarding (some entry), parked := parked }
  | startPush {entry : Entry Sender Action} (hstarter : s.starter = .forwarding (some entry)) :
      Steps s .startPush { s with starter := .forwarding none, queue := s.queue ++ [entry] }
  | startUnLock (hstarter : s.starter = .drained) :
      Steps s .startUnLock { s with starter := .finished, childThreadMutex := none }
  | process {entry : Entry Sender Action} {queue : List (Entry Sender Action)}
      (hqueue : s.queue = entry :: queue) :
      Steps s .process { s with queue := queue, processed := s.processed ++ [entry] }
  | direct {action : Action} (hchild : s.childThread = true) :
      Steps s (.direct action) { s with queue := s.queue ++ [(none, action)] }

/-- The step function takes exactly the steps of the relation. -/
theorem step_eq_ok_iff {s s' : State Sender Action} {label : Label Sender Action} :
    step s label = .ok s' ↔ Steps s label s' := by
  constructor
  · intro h
    cases label with
    | lock x =>
        simp only [step] at h
        split at h
        · rename_i hremaining hmutex hcalling
          cases h
          exact .lock hremaining hmutex hcalling
        · cases h
    | deliver x =>
        simp only [step] at h
        split at h
        · rename_i hcalling
          split at h
          · rename_i hchild
            cases h
            exact .forward hcalling hchild
          · rename_i hchild
            cases h
            exact .park hcalling (Bool.eq_false_iff.mpr hchild)
        · cases h
    | unLock x =>
        simp only [step] at h
        split at h
        · rename_i hcalling
          cases h
          exact .unLock hcalling
        · cases h
    | startLock =>
        simp only [step] at h
        split at h
        · rename_i hstarter hmutex
          cases h
          exact .startLock hstarter hmutex
        · cases h
    | startSet =>
        simp only [step] at h
        split at h
        · rename_i hstarter
          cases h
          exact .startSet hstarter
        · cases h
    | startPop =>
        simp only [step] at h
        split at h
        · rename_i hstarter hparked
          cases h
          exact .drain hstarter hparked
        · rename_i hstarter hparked
          cases h
          exact .pop hstarter hparked
        · cases h
    | startPush =>
        simp only [step] at h
        split at h
        · rename_i hstarter
          cases h
          exact .startPush hstarter
        · cases h
    | startUnLock =>
        simp only [step] at h
        split at h
        · rename_i hstarter
          cases h
          exact .startUnLock hstarter
        · cases h
    | process =>
        simp only [step] at h
        split at h
        · rename_i hqueue
          cases h
          exact .process hqueue
        · cases h
    | direct action =>
        simp only [step] at h
        split at h
        · rename_i hchild
          cases h
          exact .direct hchild
        · cases h
  · intro h
    cases h <;> simp [step, *]

end Step

/-! ## Nothing is lost -/

section Keeping

/-- {lit}`startInThread` holds the mutex. -/
def Starter.inSection : Starter Sender Action → Bool
  | locked => true
  | forwarding _ => true
  | drained => true
  | _ => false

/-- {lit}`startInThread` has set the child thread. -/
def Starter.hasSet : Starter Sender Action → Bool
  | forwarding _ => true
  | drained => true
  | finished => true
  | _ => false

/-- {lit}`startInThread` has found no parked action any more. -/
def Starter.hasDrained : Starter Sender Action → Bool
  | drained => true
  | finished => true
  | _ => false

/-- The action of a call that has not queued it yet. -/
def undelivered : Option (Call Action) → List Action
  | some (.locked action) => [action]
  | _ => []

/-- What has reached the queue of the thread, in the order of arrival. -/
def State.arrived (s : State Sender Action) : List (Entry Sender Action) :=
  s.processed ++ s.queue

/-- All entries, those that have arrived first. -/
def State.onTheWay (s : State Sender Action) : List (Entry Sender Action) :=
  s.arrived ++ s.starter.hand ++ s.parked

variable [DecidableEq Sender]

/-- The actions that a sender queued in the workload. -/
def fromSender (x : Sender) (entries : List (Entry Sender Action)) : List Action :=
  entries.filterMap fun entry => if entry.1 = some x then some entry.2 else none

/-- Nothing has come from anybody at first. -/
@[simp] theorem fromSender_nil (x : Sender) : fromSender x ([] : List (Entry Sender Action)) = [] :=
  rfl

/-- What comes from a sender is split as the entries are. -/
@[simp] theorem fromSender_append (x : Sender) (front back : List (Entry Sender Action)) :
    fromSender x (front ++ back) = fromSender x front ++ fromSender x back :=
  List.filterMap_append

/-- An action that was queued by no sender comes from none. -/
@[simp] theorem fromSender_direct (x : Sender) (action : Action)
    (entries : List (Entry Sender Action)) :
    fromSender x ((none, action) :: entries) = fromSender x entries := by
  simp [fromSender]

/-- An action of the sender comes from it. -/
@[simp] theorem fromSender_self (x : Sender) (action : Action) :
    fromSender x [(some x, action)] = [action] := by
  simp [fromSender]

/-- An action of another sender does not come from it. -/
theorem fromSender_other {x y : Sender} (h : y ≠ x) (action : Action) :
    fromSender y [(some x, action)] = [] := by
  simp [fromSender, h.symm]

/-- For each sender, what is on the way, what a call holds and what remains are its actions in
order. -/
def KeepsActions (programs : Sender → List Action) (s : State Sender Action) : Prop :=
  ∀ x, fromSender x s.onTheWay ++ undelivered (s.calling x) ++ s.remaining x = programs x

/-- Who is in a critical section holds the mutex, and how far {lit}`startInThread` is can be seen
from the child thread and the parked actions. -/
structure KeepsSections (s : State Sender Action) : Prop where
  sender_holds : ∀ x, s.calling x ≠ none ↔ s.childThreadMutex = some (.sender x)
  starter_holds : s.starter.inSection = true ↔ s.childThreadMutex = some .starter
  child : s.childThread = s.starter.hasSet
  drained : s.starter.hasDrained = true → s.parked = []

variable {programs : Sender → List Action} {s s' : State Sender Action}
  {label : Label Sender Action}

/-- At first all actions of a sender are still to be queued. -/
theorem keepsActions_initial (programs : Sender → List Action) :
    KeepsActions programs (initial programs) :=
  fun _ => rfl

omit [DecidableEq Sender] in
/-- At first nobody holds the mutex. -/
theorem keepsSections_initial (programs : Sender → List Action) :
    KeepsSections (initial programs) where
  sender_holds x := by simp [initial]
  starter_holds := by simp [initial, Starter.inSection]
  child := rfl
  drained _ := rfl

/-- A call goes on, or ends, and no other one is concerned. -/
theorem KeepsSections.of_calling (h : KeepsSections s) {x : Sender} {call : Option (Call Action)}
    (hcalling : s.calling x ≠ none) (y : Sender) :
    Function.update s.calling x call y ≠ none ↔
      call ≠ none ∧ s.childThreadMutex = some (.sender y) := by
  have hmutex := (h.sender_holds x).mp hcalling
  by_cases hsame : y = x
  · subst hsame
    rw [Function.update_self, and_iff_left hmutex]
  · rw [Function.update_of_ne hsame, h.sender_holds, hmutex]
    simp [Ne.symm hsame]

/-- Every step keeps the sections apart. -/
theorem KeepsSections.step (h : KeepsSections s) (hstep : Steps s label s') :
    KeepsSections s' := by
  have hsender := h.sender_holds
  have hstarts := h.starter_holds
  have hchildThread := h.child
  have hempty := h.drained
  cases hstep with
  | lock hremaining hmutex hcalling =>
      rw [hmutex] at hsender hstarts
      refine ⟨?_, by simpa using hstarts, hchildThread, hempty⟩
      intro y
      rename_i x _ _
      by_cases hsame : y = x
      · subst hsame
        simp
      · have hnone : s.calling y = none := by
          by_contra hsome
          simpa using (hsender y).mp hsome
        simp [Function.update_of_ne hsame, hnone, Ne.symm hsame]
  | forward hcalling hchild =>
      refine ⟨?_, hstarts, hchildThread, hempty⟩
      intro y
      rw [h.of_calling (by simp [hcalling])]
      simp
  | park hcalling hchild =>
      refine ⟨?_, hstarts, hchildThread, ?_⟩
      · intro y
        rw [h.of_calling (by simp [hcalling])]
        simp
      · intro hdrained
        rw [hchildThread] at hchild
        cases hstarter : s.starter <;>
          simp [hstarter, Starter.hasDrained, Starter.hasSet] at hdrained hchild
  | unLock hcalling =>
      have hmutex := (hsender _).mp (by rw [hcalling]; simp)
      rw [hmutex] at hstarts
      refine ⟨?_, by simpa using hstarts, hchildThread, hempty⟩
      intro y
      rw [h.of_calling (by simp [hcalling])]
      simp
  | startLock hstarter hmutex =>
      rw [hmutex] at hsender
      refine ⟨by simpa using hsender, by simp [Starter.inSection], ?_, by simp [Starter.hasDrained]⟩
      rw [hchildThread, hstarter]
      rfl
  | startSet hstarter =>
      rw [hstarter] at hstarts
      exact ⟨hsender, hstarts, rfl, by simp [Starter.hasDrained]⟩
  | drain hstarter hparked =>
      rw [hstarter] at hstarts hchildThread
      exact ⟨hsender, hstarts, hchildThread, fun _ => hparked⟩
  | pop hstarter hparked =>
      rw [hstarter] at hstarts hchildThread
      exact ⟨hsender, hstarts, hchildThread, by simp [Starter.hasDrained]⟩
  | startPush hstarter =>
      rw [hstarter] at hstarts hchildThread
      exact ⟨hsender, hstarts, hchildThread, by simp [Starter.hasDrained]⟩
  | startUnLock hstarter =>
      rw [hstarter] at hstarts hchildThread hempty
      rw [hstarts.mp rfl] at hsender
      exact ⟨by simpa using hsender, by simp [Starter.inSection], hchildThread, hempty⟩
  | process hqueue => exact ⟨hsender, hstarts, hchildThread, hempty⟩
  | direct hchild => exact ⟨hsender, hstarts, hchildThread, hempty⟩

omit [DecidableEq Sender] in
/-- While a call holds the mutex and the child thread is set, no action is parked. -/
theorem KeepsSections.nothing_parked (h : KeepsSections s) {x : Sender}
    (hcalling : s.calling x ≠ none) (hchild : s.childThread = true) :
    s.starter.hand = [] ∧ s.parked = [] := by
  have hmutex := (h.sender_holds x).mp hcalling
  have hsection : s.starter.inSection = false := by
    rw [Bool.eq_false_iff, Ne, h.starter_holds, hmutex]
    simp
  rw [h.child] at hchild
  have hdrained := h.drained
  cases hstarter : s.starter with
  | finished =>
      rw [hstarter] at hdrained
      exact ⟨rfl, hdrained rfl⟩
  | _ => simp [hstarter, Starter.inSection, Starter.hasSet] at hsection hchild

/-- An entry that a call queues comes last on the way. -/
theorem KeepsActions.of_delivered (h : KeepsActions programs s) {x : Sender} {action : Action}
    (hcalling : s.calling x = some (.locked action)) {entries : List (Entry Sender Action)}
    (hentries : entries = s.onTheWay ++ [(some x, action)]) (y : Sender) :
    fromSender y entries ++
      undelivered (Function.update s.calling x (some .delivered) y) ++ s.remaining y =
        programs y := by
  rw [← h y, hentries, fromSender_append]
  by_cases hsame : y = x
  · subst hsame
    rw [Function.update_self, hcalling, fromSender_self]
    simp [undelivered]
  · rw [Function.update_of_ne hsame, fromSender_other hsame, List.append_nil]

/-- Where no call gets on, only the entries on the way need to be looked at. -/
theorem KeepsActions.of_calls (h : KeepsActions programs s)
    (hcalling : s'.calling = s.calling) (hremaining : s'.remaining = s.remaining)
    (hentries : ∀ y, fromSender y s'.onTheWay = fromSender y s.onTheWay) :
    KeepsActions programs s' := by
  intro y
  rw [hentries, hcalling, hremaining]
  exact h y

/-- Where one call gets on without an entry, only its own actions need to be looked at. -/
theorem KeepsActions.of_sender (h : KeepsActions programs s) (x : Sender)
    (hentries : s'.onTheWay = s.onTheWay)
    (hother : ∀ y, y ≠ x → s'.calling y = s.calling y ∧ s'.remaining y = s.remaining y)
    (hx : undelivered (s'.calling x) ++ s'.remaining x =
      undelivered (s.calling x) ++ s.remaining x) :
    KeepsActions programs s' := by
  intro y
  rw [← h y, hentries, List.append_assoc, List.append_assoc]
  by_cases hsame : y = x
  · rw [hsame, hx]
  · rw [(hother y hsame).1, (hother y hsame).2]

/-- Every step keeps the actions of each sender, in their order. -/
theorem KeepsActions.step (h : KeepsActions programs s) (hsections : KeepsSections s)
    (hstep : Steps s label s') : KeepsActions programs s' := by
  cases hstep with
  | lock hremaining hmutex hcalling =>
      rename_i x action rest
      refine h.of_sender x rfl ?_ ?_
      · intro y hy
        exact ⟨Function.update_of_ne hy _ _, Function.update_of_ne hy _ _⟩
      · simp [hremaining, hcalling, undelivered]
  | forward hcalling hchild =>
      rcases hsections.nothing_parked (by rw [hcalling]; simp) hchild with ⟨hhand, hparked⟩
      apply h.of_delivered hcalling
      simp [State.onTheWay, State.arrived, hhand, hparked]
  | park hcalling hchild =>
      apply h.of_delivered hcalling
      simp [State.onTheWay, State.arrived]
  | unLock hcalling =>
      rename_i x
      refine h.of_sender x rfl ?_ ?_
      · intro y hy
        exact ⟨Function.update_of_ne hy _ _, rfl⟩
      · simp [hcalling, undelivered]
  | startLock hstarter hmutex =>
      refine h.of_calls rfl rfl ?_
      simp [State.onTheWay, State.arrived, hstarter, Starter.hand]
  | startSet hstarter =>
      refine h.of_calls rfl rfl ?_
      simp [State.onTheWay, State.arrived, hstarter, Starter.hand]
  | drain hstarter hparked =>
      refine h.of_calls rfl rfl ?_
      simp [State.onTheWay, State.arrived, hstarter, Starter.hand]
  | pop hstarter hparked =>
      refine h.of_calls rfl rfl ?_
      simp [State.onTheWay, State.arrived, hstarter, hparked, Starter.hand]
  | startPush hstarter =>
      refine h.of_calls rfl rfl ?_
      simp [State.onTheWay, State.arrived, hstarter, Starter.hand]
  | startUnLock hstarter =>
      refine h.of_calls rfl rfl ?_
      simp [State.onTheWay, State.arrived, hstarter, Starter.hand]
  | process hqueue =>
      refine h.of_calls rfl rfl ?_
      simp [State.onTheWay, State.arrived, hqueue]
  | direct hchild =>
      refine h.of_calls rfl rfl ?_
      simp [State.onTheWay, State.arrived]

end Keeping

/-! ## The hand-over ends -/

section Ending

/-- The steps of the calls and of {lit}`startInThread`. -/
def Label.isHandover : Label Sender Action → Bool
  | process => false
  | direct _ => false
  | _ => true

/-- The steps that a call still makes, a pop and a push for its action included. -/
def Call.steps : Option (Call Action) → Nat
  | some (.locked _) => 4
  | some .delivered => 1
  | none => 0

/-- The steps the starting thread still makes, a pushed action included. -/
def Starter.steps : Starter Sender Action → Nat
  | notStarted => 4
  | locked => 3
  | forwarding none => 2
  | forwarding (some _) => 3
  | drained => 1
  | finished => 0

/-- The steps that are left for a sender. -/
def State.senderSteps (s : State Sender Action) (x : Sender) : Nat :=
  5 * (s.remaining x).length + Call.steps (s.calling x)

variable [Fintype Sender]

/-- No more steps of the hand-over can be made than these. -/
def State.stepsLeft (s : State Sender Action) : Nat :=
  ∑ x, s.senderSteps x + 2 * s.parked.length + s.starter.steps

/-- The steps that are left at first: five for each action, and those of the starting thread. -/
theorem stepsLeft_initial (programs : Sender → List Action) :
    (initial programs).stepsLeft = 5 * ∑ x, (programs x).length + 4 := by
  simp [State.stepsLeft, State.senderSteps, initial, Call.steps, Starter.steps, Finset.mul_sum]

variable [DecidableEq Sender] {s s' : State Sender Action} {label : Label Sender Action}

/-- Where one sender gets on only, its steps tell how many are left. -/
theorem stepsLeft_add_le {x : Sender} {n : Nat}
    (hother : ∀ y, y ≠ x → s'.senderSteps y = s.senderSteps y)
    (hx : s'.senderSteps x + 2 * s'.parked.length + s'.starter.steps + n ≤
      s.senderSteps x + 2 * s.parked.length + s.starter.steps) :
    s'.stepsLeft + n ≤ s.stepsLeft := by
  have hrest : ∑ y ∈ Finset.univ.erase x, s'.senderSteps y =
      ∑ y ∈ Finset.univ.erase x, s.senderSteps y :=
    Finset.sum_congr rfl fun y hy => hother y (Finset.ne_of_mem_erase hy)
  have hafter := Finset.add_sum_erase _ s'.senderSteps (Finset.mem_univ x)
  have hbefore := Finset.add_sum_erase _ s.senderSteps (Finset.mem_univ x)
  rw [State.stepsLeft, State.stepsLeft]
  omega

/-- Each step of the hand-over brings it closer to its end, and no other step sets it back. -/
theorem stepsLeft_step (hstep : Steps s label s') :
    s'.stepsLeft + (if label.isHandover then 1 else 0) ≤ s.stepsLeft := by
  cases hstep with
  | lock hremaining hmutex hcalling =>
      rename_i x action rest
      apply stepsLeft_add_le (x := x)
      · intro y hy
        simp [State.senderSteps, hy]
      · simp [State.senderSteps, hremaining, hcalling, Call.steps, Label.isHandover]
        omega
  | forward hcalling hchild =>
      rename_i x action
      apply stepsLeft_add_le (x := x)
      · intro y hy
        simp [State.senderSteps, hy]
      · simp only [State.senderSteps, hcalling, Function.update_self, Call.steps,
          Label.isHandover, if_true]
        omega
  | park hcalling hchild =>
      rename_i x action
      apply stepsLeft_add_le (x := x)
      · intro y hy
        simp [State.senderSteps, hy]
      · simp only [State.senderSteps, hcalling, Function.update_self, Call.steps,
          Label.isHandover, if_true, List.length_append, List.length_singleton]
        omega
  | unLock hcalling =>
      rename_i x
      apply stepsLeft_add_le (x := x)
      · intro y hy
        simp [State.senderSteps, hy]
      · simp only [State.senderSteps, hcalling, Function.update_self, Call.steps,
          Label.isHandover, if_true]
        omega
  | startLock hstarter hmutex =>
      simp [State.stepsLeft, State.senderSteps, hstarter, Starter.steps, Label.isHandover]
  | startSet hstarter =>
      simp [State.stepsLeft, State.senderSteps, hstarter, Starter.steps, Label.isHandover]
  | drain hstarter hparked =>
      simp [State.stepsLeft, State.senderSteps, hstarter, Starter.steps, Label.isHandover]
  | pop hstarter hparked =>
      simp [State.stepsLeft, State.senderSteps, hstarter, hparked, Starter.steps,
        Label.isHandover]
      omega
  | startPush hstarter =>
      simp [State.stepsLeft, State.senderSteps, hstarter, Starter.steps, Label.isHandover]
  | startUnLock hstarter =>
      simp [State.stepsLeft, State.senderSteps, hstarter, Starter.steps, Label.isHandover]
  | process hqueue => exact Nat.le_refl _
  | direct hchild => exact Nat.le_refl _

omit [Fintype Sender] in
/-- Where no step of the hand-over can be made, all calls have returned and the thread has
started. -/
theorem finished_of_blocked (h : KeepsSections s)
    (hblocked : ∀ label : Label Sender Action, label.isHandover = true → ∀ s', ¬Steps s label s') :
    s.starter = .finished ∧ ∀ x, s.calling x = none ∧ s.remaining x = [] := by
  have hstarts := h.starter_holds
  cases hmutex : s.childThreadMutex with
  | some holder =>
      exfalso
      cases holder with
      | sender x =>
          have hcalling := (h.sender_holds x).mpr hmutex
          cases hcall : s.calling x with
          | none => exact hcalling hcall
          | some call =>
              cases call with
              | locked action =>
                  cases hchild : s.childThread with
                  | true => exact hblocked (.deliver x) rfl _ (.forward hcall hchild)
                  | false => exact hblocked (.deliver x) rfl _ (.park hcall hchild)
              | delivered => exact hblocked (.unLock x) rfl _ (.unLock hcall)
      | starter =>
          have hsection := hstarts.mpr hmutex
          cases hstarter : s.starter with
          | notStarted => simp [hstarter, Starter.inSection] at hsection
          | locked => exact hblocked .startSet rfl _ (.startSet hstarter)
          | forwarding hand =>
              cases hand with
              | none =>
                  cases hparked : s.parked with
                  | nil => exact hblocked .startPop rfl _ (.drain hstarter hparked)
                  | cons entry parked => exact hblocked .startPop rfl _ (.pop hstarter hparked)
              | some entry => exact hblocked .startPush rfl _ (.startPush hstarter)
          | drained => exact hblocked .startUnLock rfl _ (.startUnLock hstarter)
          | finished => simp [hstarter, Starter.inSection] at hsection
  | none =>
      rw [hmutex] at hstarts
      have hcalling : ∀ x, s.calling x = none := by
        intro x
        by_contra hsome
        have hholds := (h.sender_holds x).mp hsome
        rw [hmutex] at hholds
        cases hholds
      refine ⟨?_, fun x => ⟨hcalling x, ?_⟩⟩
      · cases hstarter : s.starter with
        | notStarted => exact absurd (.startLock hstarter hmutex) (hblocked .startLock rfl _)
        | finished => rfl
        | _ => simp [hstarter, Starter.inSection] at hstarts
      · cases hremaining : s.remaining x with
        | nil => rfl
        | cons action rest =>
            exact absurd (.lock hremaining hmutex (hcalling x)) (hblocked (.lock x) rfl _)

end Ending

/-! ## All actions arrive -/

section Arrival

variable [DecidableEq Sender] {programs : Sender → List Action} {s : State Sender Action}
  {schedule : List (Label Sender Action)}

/-- Both invariants hold after every run. -/
theorem keeps_of_run (hrun : Run step (initial programs) schedule s) :
    KeepsActions programs s ∧ KeepsSections s := by
  induction hrun with
  | start => exact ⟨keepsActions_initial programs, keepsSections_initial programs⟩
  | next _ hstep ih =>
      rw [step_eq_ok_iff] at hstep
      exact ⟨ih.1.step ih.2 hstep, ih.2.step hstep⟩

/-- Each step of the handover uses up one of the steps that were left. -/
theorem countP_of_run [Fintype Sender] (hrun : Run step (initial programs) schedule s) :
    schedule.countP Label.isHandover + s.stepsLeft ≤ (initial programs).stepsLeft := by
  induction hrun with
  | start => simp
  | next _ hstep ih =>
      rw [step_eq_ok_iff] at hstep
      have hleft := stepsLeft_step hstep
      rw [List.countP_append, List.countP_singleton]
      omega

/-- Every schedule hands over all actions of every sender in order: what has arrived at any time is
a prefix of them, the hand-over makes a bounded number of steps, and when it can make no more, all
have arrived. -/
theorem delivers_all [Fintype Sender] (hrun : Run step (initial programs) schedule s) :
    (∀ x, fromSender x s.arrived <+: programs x) ∧
    schedule.countP Label.isHandover ≤ 5 * ∑ x, (programs x).length + 4 ∧
    ((∀ label : Label Sender Action, label.isHandover = true → ∀ s', step s label ≠ .ok s') →
      ∀ x, fromSender x s.arrived = programs x) := by
  rcases keeps_of_run hrun with ⟨hactions, hsections⟩
  refine ⟨?_, ?_, ?_⟩
  · intro x
    rw [← hactions x, State.onTheWay]
    simp only [fromSender_append, List.append_assoc]
    exact List.prefix_append _ _
  · have hcount := countP_of_run hrun
    rw [stepsLeft_initial] at hcount
    omega
  · intro hblocked x
    have hsteps : ∀ label : Label Sender Action, label.isHandover = true →
        ∀ s', ¬Steps s label s' := by
      intro label hlabel s' hstep
      exact hblocked label hlabel s' (step_eq_ok_iff.mpr hstep)
    rcases finished_of_blocked hsections hsteps with ⟨hstarter, hcalls⟩
    have hparked : s.parked = [] := hsections.drained (by rw [hstarter]; rfl)
    rw [← hactions x, State.onTheWay, hstarter, hparked, (hcalls x).1, (hcalls x).2]
    simp [Starter.hand, undelivered]

/-- Two senders with three actions. -/
def twoSenders : Bool → List Nat
  | false => [1, 2]
  | true => [3]

/-- One action is parked, and others are queued while the thread forwards it and afterwards. -/
def overlapping : List (Label Bool Nat) :=
  [.lock false, .deliver false, .unLock false, .startLock, .startSet, .direct 9, .startPop,
    .startPush, .process, .startPop, .startUnLock, .lock true, .deliver true, .unLock true,
    .lock false, .process, .deliver false, .unLock false]

/-- A run in which the senders and the starting thread overlap. -/
theorem delivers_overlapping :
    ∃ s, Run step (initial twoSenders) overlapping s ∧
      ((∀ x, fromSender x s.arrived <+: twoSenders x) ∧
      overlapping.countP Label.isHandover ≤ 5 * ∑ x, (twoSenders x).length + 4 ∧
      ((∀ label : Label Bool Nat, label.isHandover = true → ∀ s', step s label ≠ .ok s') →
        ∀ x, fromSender x s.arrived = twoSenders x)) :=
  ⟨_, run_iff_exec.mpr rfl, delivers_all (run_iff_exec.mpr rfl)⟩

end Arrival

end ActionHandover
end ChildProcess
end Roofline
