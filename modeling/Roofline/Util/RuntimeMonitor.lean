import Mathlib.Algebra.BigOperators.Group.Finset.Piecewise
import Mathlib.Algebra.Order.BigOperators.Group.Finset
import Mathlib.Logic.Function.Basic
import Mathlib.Tactic.Common

/-!
# The runtime monitor

The time that the tool runs is charged to categories.  The categories that were entered are on a
stack, and only the timer of the one on top is running; it is stopped when another category is
entered or left and started again when its category is on top again.

Main results:

- Theorem {lit}`timeAt_perform`: no time is gained or lost by starting and stopping timers.
- Theorem {lit}`timeAt_of_le`: time only passes for the innermost category.
- Theorem {lit}`sum_timeAt`: all categories together have the time in which one was open.
- Theorem {lit}`accounting`: these facts for all sequences of calls.
-/

namespace Roofline
namespace RuntimeMonitoring

variable {Category : Type} [DecidableEq Category]

/-! ## The fields and methods -/

/-- The stack of the monitor, innermost category first, and the fields of the categories. -/
structure RuntimeMonitor (Category : Type) where
  stack : List Category
  start : Category → Int
  categoryTime : Category → Int
  startCount : Category → Int

namespace RuntimeMonitor

/-- No category was entered. -/
def initial : RuntimeMonitor Category where
  stack := []
  start := fun _ => 0
  categoryTime := fun _ => 0
  startCount := fun _ => 0

/-- The timer of a category is started. -/
def startTimer (now : Int) (category : Category) (monitor : RuntimeMonitor Category) :
    RuntimeMonitor Category :=
  { monitor with start := Function.update monitor.start category now }

/-- The timer of a category is stopped, and the time since its start is added. -/
def stopTimer (now : Int) (category : Category) (monitor : RuntimeMonitor Category) :
    RuntimeMonitor Category :=
  { monitor with
    categoryTime := Function.update monitor.categoryTime category
      (monitor.categoryTime category + (now - monitor.start category)) }

/-- Start the timer of the head of the stack, if there is one. -/
def startHead (now : Int) (monitor : RuntimeMonitor Category) : RuntimeMonitor Category :=
  match monitor.stack with
  | [] => monitor
  | head :: _ => monitor.startTimer now head

/-- Stop the timer of the head of the stack, if there is one. -/
def stopHead (now : Int) (monitor : RuntimeMonitor Category) : RuntimeMonitor Category :=
  match monitor.stack with
  | [] => monitor
  | head :: _ => monitor.stopTimer now head

/-- The stack is replaced. -/
def setStack (stack : List Category) (monitor : RuntimeMonitor Category) :
    RuntimeMonitor Category :=
  { monitor with stack := stack }

/-- {lit}`Category.enter`; the new category is the head of the stack when its timer is started. -/
def enter (now : Int) (category : Category) (monitor : RuntimeMonitor Category) :
    RuntimeMonitor Category :=
  let counted := { monitor with
    startCount := Function.update monitor.startCount category (monitor.startCount category + 1) }
  ((counted.stopHead now).setStack (category :: monitor.stack)).startHead now

/-- The loop that pops until the category is found; {lit}`head` was popped last. -/
def popTill (category head : Category) : List Category → List Category
  | [] => []
  | next :: stack => if head = category then next :: stack else popTill category next stack

/-- {lit}`Category.leave`. -/
def leave (now : Int) (category : Category) (monitor : RuntimeMonitor Category) :
    RuntimeMonitor Category :=
  if category ∈ monitor.stack then
    match monitor.stack with
    | [] => monitor
    | head :: rest =>
        let stopped := (monitor.setStack rest).stopTimer now head
        let popped :=
          if head = category then stopped else stopped.setStack (popTill category head rest)
        popped.startHead now
  else monitor

end RuntimeMonitor

/-- A call on a category. -/
inductive Operation (Category : Type) where
  | enter (category : Category)
  | leave (category : Category)
deriving DecidableEq

/-- A call and what the clock shows then. -/
structure Event (Category : Type) where
  clock : Int
  operation : Operation Category

/-- One call at the time its clock shows. -/
def perform (monitor : RuntimeMonitor Category) (event : Event Category) :
    RuntimeMonitor Category :=
  match event.operation with
  | .enter category => monitor.enter event.clock category
  | .leave category => monitor.leave event.clock category

/-- A sequence of calls. -/
def run (monitor : RuntimeMonitor Category) (events : List (Event Category)) :
    RuntimeMonitor Category :=
  events.foldl perform monitor

/-! ## What is accounted -/

/-- The open categories after an operation: to leave one that is open is to leave all that were
entered since it was entered last. -/
def openAfter (categories : List Category) : Operation Category → List Category
  | .enter category => category :: categories
  | .leave category =>
      if category ∈ categories then (categories.dropWhile (· ≠ category)).tail else categories

/-- The time in which some category is open, from one moment up to another. -/
def openTime (categories : List Category) (since : Int) : List (Event Category) → Int → Int
  | [], now => if categories = [] then 0 else now - since
  | event :: events, now =>
      (if categories = [] then 0 else event.clock - since) +
        openTime (openAfter categories event.operation) event.clock events now

namespace RuntimeMonitor

/-- The time that is charged to the category, with what its running timer shows. -/
def timeAt (now : Int) (category : Category) (monitor : RuntimeMonitor Category) : Int :=
  monitor.categoryTime category +
    if monitor.stack.head? = some category then now - monitor.start category else 0

/-- What the timer of the innermost category shows. -/
def running (now : Int) (monitor : RuntimeMonitor Category) : Int :=
  match monitor.stack with
  | [] => 0
  | head :: _ => now - monitor.start head

end RuntimeMonitor

/-! ## A single call -/

namespace RuntimeMonitor

variable {monitor : RuntimeMonitor Category}

/-- The loop removes everything up to the category. -/
theorem popTill_eq (category head : Category) (stack : List Category)
    (h : category ∈ head :: stack) :
    popTill category head stack = ((head :: stack).dropWhile (· ≠ category)).tail := by
  induction stack generalizing head with
  | nil =>
      obtain rfl : category = head := by simpa using h
      simp [popTill]
  | cons next stack ih =>
      by_cases hhead : head = category
      · simp [popTill, hhead]
      · have hrest : category ∈ next :: stack := by
          rcases List.mem_cons.mp h with heq | hmem
          · exact absurd heq.symm hhead
          · exact hmem
        have hdrop : (head :: next :: stack).dropWhile (· ≠ category) =
            (next :: stack).dropWhile (· ≠ category) :=
          List.dropWhile_cons_of_pos (by simpa using hhead)
        rw [popTill, if_neg hhead, ih next hrest, hdrop]

/-- A category that is not open is not left. -/
theorem leave_of_not_mem {category : Category} (h : category ∉ monitor.stack) (now : Int) :
    monitor.leave now category = monitor := by
  rw [leave, if_neg h]

/-- To leave a category is to stop the head, to change the stack and to start the new head. -/
theorem leave_of_mem {category : Category} (h : category ∈ monitor.stack) (now : Int) :
    monitor.leave now category =
      ((monitor.stopHead now).setStack
        (monitor.stack.dropWhile (· ≠ category)).tail).startHead now := by
  obtain ⟨stack, start, categoryTime, startCount⟩ := monitor
  cases stack with
  | nil => simp at h
  | cons head rest =>
      have hpopped := popTill_eq category head rest h
      rw [leave, if_pos h]
      by_cases hhead : head = category
      · simp [hhead, stopHead, setStack, stopTimer]
      · simp [hhead, stopHead, setStack, stopTimer, hpopped]

/-- Starting a timer leaves the stack as it is. -/
@[simp]
theorem stack_startHead (now : Int) : (monitor.startHead now).stack = monitor.stack := by
  unfold startHead
  split
  · rfl
  · rfl

/-- A timer that is stopped has charged what it has shown. -/
theorem categoryTime_stopHead (now : Int) (category : Category) :
    (monitor.stopHead now).categoryTime category = monitor.timeAt now category := by
  obtain ⟨stack, start, categoryTime, startCount⟩ := monitor
  cases stack with
  | nil => simp [stopHead, timeAt]
  | cons head rest =>
      by_cases hhead : category = head
      · subst hhead
        simp [stopHead, stopTimer, timeAt]
      · simp [stopHead, stopTimer, timeAt, hhead, Ne.symm hhead]

/-- A timer that was just started shows nothing. -/
theorem timeAt_startHead (now : Int) (category : Category) :
    (monitor.startHead now).timeAt now category = monitor.categoryTime category := by
  obtain ⟨stack, start, categoryTime, startCount⟩ := monitor
  cases stack with
  | nil => simp [startHead, timeAt]
  | cons head rest =>
      by_cases hhead : head = category
      · subst hhead
        simp [startHead, startTimer, timeAt]
      · simp [startHead, startTimer, timeAt, hhead]

/-- Whatever becomes of the stack, no time is gained or lost. -/
theorem timeAt_switch (now : Int) (stack : List Category) (category : Category) :
    (((monitor.stopHead now).setStack stack).startHead now).timeAt now category =
      monitor.timeAt now category := by
  rw [timeAt_startHead]
  exact categoryTime_stopHead now category

/-- Time only passes for the innermost category. -/
theorem timeAt_of_le (since now : Int) (category : Category) :
    monitor.timeAt now category - monitor.timeAt since category =
      if monitor.stack.head? = some category then now - since else 0 := by
  unfold timeAt
  split
  · omega
  · omega

end RuntimeMonitor

section Calls

variable (monitor : RuntimeMonitor Category) (event : Event Category)

/-- The stack holds the open categories. -/
theorem stack_perform :
    (perform monitor event).stack = openAfter monitor.stack event.operation := by
  obtain ⟨clock, operation⟩ := event
  cases operation with
  | enter category => simp [perform, RuntimeMonitor.enter, RuntimeMonitor.setStack, openAfter]
  | leave category =>
      by_cases hmem : category ∈ monitor.stack
      · simp [perform, RuntimeMonitor.leave_of_mem hmem, RuntimeMonitor.setStack, openAfter, hmem]
      · simp [perform, RuntimeMonitor.leave_of_not_mem hmem, openAfter, hmem]

/-- No time is gained or lost by starting and stopping timers. -/
theorem timeAt_perform (category : Category) :
    (perform monitor event).timeAt event.clock category =
      monitor.timeAt event.clock category := by
  obtain ⟨clock, operation⟩ := event
  cases operation with
  | enter entered => exact RuntimeMonitor.timeAt_switch clock (entered :: monitor.stack) category
  | leave left =>
      change (monitor.leave clock left).timeAt clock category = monitor.timeAt clock category
      by_cases hmem : left ∈ monitor.stack
      · rw [RuntimeMonitor.leave_of_mem hmem]
        exact RuntimeMonitor.timeAt_switch clock _ category
      · rw [RuntimeMonitor.leave_of_not_mem hmem]

end Calls

/-! ## Sequences of calls -/

/-- The categories that are entered. -/
def entered (events : List (Event Category)) : Finset Category :=
  (events.filterMap fun event =>
    match event.operation with
    | .enter category => some category
    | .leave _ => none).toFinset

/-- A sequence of calls after another one. -/
theorem run_append (monitor : RuntimeMonitor Category) (front back : List (Event Category)) :
    run monitor (front ++ back) = run (run monitor front) back :=
  List.foldl_append

/-- The stack holds the categories that are open. -/
theorem stack_run (monitor : RuntimeMonitor Category) (events : List (Event Category)) :
    (run monitor events).stack =
      (events.map Event.operation).foldl openAfter monitor.stack := by
  induction events generalizing monitor with
  | nil => rfl
  | cons event events ih =>
      have hstep := ih (perform monitor event)
      rw [stack_perform] at hstep
      exact hstep

/-- A category that is open was entered just now or was open before. -/
theorem mem_of_mem_openAfter {categories : List Category} {operation : Operation Category}
    {category : Category} (h : category ∈ openAfter categories operation) :
    operation = .enter category ∨ category ∈ categories := by
  cases operation with
  | enter new =>
      rcases List.mem_cons.mp h with rfl | hmem
      · exact .inl rfl
      · exact .inr hmem
  | leave left =>
      simp only [openAfter] at h
      split at h
      · exact .inr ((List.dropWhile_sublist _).mem (List.mem_of_mem_tail h))
      · exact .inr h

/-- A category with a call that enters it is one of those entered. -/
theorem enter_mem_entered {events : List (Event Category)} {event : Event Category}
    (hevent : event ∈ events) {category : Category}
    (h : event.operation = .enter category) : category ∈ entered events := by
  simp only [entered, List.mem_toFinset, List.mem_filterMap]
  exact ⟨event, hevent, by rw [h]⟩

section Sums

open Finset

variable {categories : Finset Category} {monitor : RuntimeMonitor Category}

/-- The times of all categories grow like the time if one of them is open. -/
theorem sum_timeAt_sub (h : ∀ category ∈ monitor.stack, category ∈ categories)
    (since now : Int) :
    ∑ category ∈ categories, monitor.timeAt now category =
      ∑ category ∈ categories, monitor.timeAt since category +
        if monitor.stack = [] then 0 else now - since := by
  have hgrowth : ∀ category ∈ categories, monitor.timeAt now category =
      monitor.timeAt since category +
        if monitor.stack.head? = some category then now - since else 0 := by
    intro category _
    have hle := monitor.timeAt_of_le since now category
    omega
  rw [sum_congr rfl hgrowth, sum_add_distrib]
  congr 1
  cases hstack : monitor.stack with
  | nil => simp
  | cons head rest =>
      have hhead : head ∈ categories := h head (by simp [hstack])
      simp [hhead]

/-- All categories together have the time in which one was open. -/
theorem sum_timeAt (events : List (Event Category))
    (h : ∀ category ∈ monitor.stack, category ∈ categories)
    (hentered : entered events ⊆ categories) (since now : Int) :
    ∑ category ∈ categories, (run monitor events).timeAt now category =
      ∑ category ∈ categories, monitor.timeAt since category +
        openTime monitor.stack since events now := by
  induction events generalizing monitor since with
  | nil => exact sum_timeAt_sub h since now
  | cons event events ih =>
      have hopen : ∀ category ∈ (perform monitor event).stack, category ∈ categories := by
        intro category hcategory
        rw [stack_perform] at hcategory
        rcases mem_of_mem_openAfter hcategory with henter | hmem
        · exact hentered (enter_mem_entered (List.mem_cons_self ..) henter)
        · exact h category hmem
      have hrest : entered events ⊆ categories := by
        intro category hcategory
        apply hentered
        simp only [entered, List.mem_toFinset, List.mem_filterMap] at hcategory ⊢
        obtain ⟨other, hother, hcategory⟩ := hcategory
        exact ⟨other, List.mem_cons_of_mem _ hother, hcategory⟩
      have hstep := ih hopen hrest event.clock
      rw [sum_congr rfl fun category _ => timeAt_perform monitor event category,
        sum_timeAt_sub h since event.clock, stack_perform, add_assoc] at hstep
      exact hstep

/-- The innermost category has what its timer shows besides the charged time. -/
theorem sum_timeAt_eq (h : ∀ category ∈ monitor.stack, category ∈ categories) (now : Int) :
    ∑ category ∈ categories, monitor.timeAt now category =
      ∑ category ∈ categories, monitor.categoryTime category + monitor.running now := by
  unfold RuntimeMonitor.timeAt
  rw [sum_add_distrib]
  congr 1
  unfold RuntimeMonitor.running
  cases hstack : monitor.stack with
  | nil => simp
  | cons head rest =>
      have hhead : head ∈ categories := h head (by simp [hstack])
      simp [hhead]

end Sums

/-- The clock shows {lit}`since` first and {lit}`now` last, and it never goes back. -/
def NonDecreasing (since : Int) : List (Event Category) → Int → Prop
  | [], now => since ≤ now
  | event :: events, now => since ≤ event.clock ∧ NonDecreasing event.clock events now

section Bounds

variable {monitor : RuntimeMonitor Category}

/-- A category never loses time. -/
theorem timeAt_le_timeAt_run {since now : Int} {events : List (Event Category)}
    (h : NonDecreasing since events now) (category : Category) :
    monitor.timeAt since category ≤ (run monitor events).timeAt now category := by
  induction events generalizing monitor since with
  | nil =>
      have hgrowth := monitor.timeAt_of_le since now category
      have hclock : since ≤ now := h
      change monitor.timeAt since category ≤ monitor.timeAt now category
      split at hgrowth
      · omega
      · omega
  | cons event events ih =>
      have hgrowth := monitor.timeAt_of_le since event.clock category
      have hclock : since ≤ event.clock := h.1
      have hrest : (perform monitor event).timeAt event.clock category ≤
          (run (perform monitor event) events).timeAt now category := ih h.2
      rw [timeAt_perform] at hrest
      change monitor.timeAt since category ≤
        (run (perform monitor event) events).timeAt now category
      split at hgrowth
      · omega
      · omega

/-- No category is open for longer than the time that passes. -/
theorem openTime_le {since now : Int} {events : List (Event Category)}
    (h : NonDecreasing since events now) (categories : List Category) :
    openTime categories since events now ≤ now - since := by
  induction events generalizing since categories with
  | nil =>
      have hclock : since ≤ now := h
      unfold openTime
      split
      · omega
      · omega
  | cons event events ih =>
      have hclock : since ≤ event.clock := h.1
      have hrest := ih h.2 (openAfter categories event.operation)
      unfold openTime
      split
      · omega
      · omega

end Bounds

/-- No time is charged at first. -/
theorem timeAt_initial (now : Int) (category : Category) :
    (RuntimeMonitor.initial : RuntimeMonitor Category).timeAt now category = 0 := by
  simp [RuntimeMonitor.initial, RuntimeMonitor.timeAt]

/-- What stands on the stack was entered. -/
theorem mem_entered_of_mem_stack {events : List (Event Category)} {category : Category}
    (h : category ∈ (run RuntimeMonitor.initial events).stack) : category ∈ entered events := by
  induction events using List.reverseRecOn with
  | nil => simp [run, RuntimeMonitor.initial] at h
  | append_singleton events event ih =>
      rw [run_append] at h
      change category ∈ (perform (run RuntimeMonitor.initial events) event).stack at h
      rw [stack_perform] at h
      rcases mem_of_mem_openAfter h with henter | hmem
      · exact enter_mem_entered (by simp) henter
      · have hold := ih hmem
        simp only [entered, List.mem_toFinset, List.filterMap_append, List.mem_append] at hold ⊢
        exact .inl hold

/-- From the start on, the categories that are entered get the time in which one is open. -/
theorem sum_timeAt_initial (events : List (Event Category)) {categories : Finset Category}
    (h : entered events ⊆ categories) (since now : Int) :
    ∑ category ∈ categories, (run RuntimeMonitor.initial events).timeAt now category =
      openTime [] since events now := by
  have hstack : ∀ category ∈ (RuntimeMonitor.initial : RuntimeMonitor Category).stack,
      category ∈ categories := by
    intro category hcategory
    cases hcategory
  have hsum := sum_timeAt events hstack h since now
  have hstart : ∑ category ∈ categories,
      (RuntimeMonitor.initial : RuntimeMonitor Category).timeAt since category = 0 := by
    simp [timeAt_initial]
  rw [hstart, zero_add] at hsum
  exact hsum

section Run

variable {since now : Int} {events : List (Event Category)}

/-- No category has less than no time. -/
theorem timeAt_run_nonneg (h : NonDecreasing since events now) (category : Category) :
    0 ≤ (run RuntimeMonitor.initial events).timeAt now category := by
  have hle : RuntimeMonitor.initial.timeAt since category ≤
      (run RuntimeMonitor.initial events).timeAt now category :=
    timeAt_le_timeAt_run h category
  rwa [timeAt_initial] at hle

/-- No category has more time than has passed. -/
theorem timeAt_run_le (h : NonDecreasing since events now) (category : Category) :
    (run RuntimeMonitor.initial events).timeAt now category ≤ now - since := by
  have hsum := sum_timeAt_initial events (Finset.subset_insert category (entered events)) since now
  have hle := Finset.single_le_sum (fun other _ => timeAt_run_nonneg h other)
    (Finset.mem_insert_self category (entered events))
  rw [hsum] at hle
  exact hle.trans (openTime_le h _)

end Run

/-- The stack holds the open categories.  A call changes no time, and to leave a category that is
not open changes nothing at all; meanwhile only the innermost category gets time, so that the times
of the categories with what the innermost timer shows are the time in which one was open.  As the
clock does not go back, no time exceeds what has passed. -/
theorem accounting (since now : Int) (events : List (Event Category))
    (hclock : NonDecreasing since events now) :
    (run RuntimeMonitor.initial events).stack =
        (events.map Event.operation).foldl openAfter [] ∧
      (∀ (event : Event Category) (category : Category),
        (run RuntimeMonitor.initial (events ++ [event])).timeAt event.clock category =
          (run RuntimeMonitor.initial events).timeAt event.clock category) ∧
      (∀ (clock : Int) (category : Category),
        category ∉ (run RuntimeMonitor.initial events).stack →
          run RuntimeMonitor.initial (events ++ [⟨clock, .leave category⟩]) =
            run RuntimeMonitor.initial events) ∧
      (∀ (before after : Int) (category : Category),
        (run RuntimeMonitor.initial events).timeAt after category -
            (run RuntimeMonitor.initial events).timeAt before category =
          if (run RuntimeMonitor.initial events).stack.head? = some category then after - before
          else 0) ∧
      ∑ category ∈ entered events, (run RuntimeMonitor.initial events).categoryTime category +
          (run RuntimeMonitor.initial events).running now =
        openTime [] since events now ∧
      ∀ category, 0 ≤ (run RuntimeMonitor.initial events).timeAt now category ∧
        (run RuntimeMonitor.initial events).timeAt now category ≤ now - since := by
  have hstack : ∀ category ∈ (run RuntimeMonitor.initial events).stack,
      category ∈ entered events :=
    fun category => mem_entered_of_mem_stack
  refine ⟨stack_run _ events, ?_, ?_, ?_, ?_, ?_⟩
  · intro event category
    rw [run_append]
    exact timeAt_perform _ event category
  · intro clock category hcategory
    rw [run_append]
    exact RuntimeMonitor.leave_of_not_mem hcategory clock
  · intro before after category
    exact RuntimeMonitor.timeAt_of_le before after category
  · have hsum := sum_timeAt_initial events (Finset.Subset.refl _) since now
    rw [sum_timeAt_eq hstack] at hsum
    exact hsum
  · exact fun category => ⟨timeAt_run_nonneg hclock category, timeAt_run_le hclock category⟩

/-- Two categories are entered, the outer one is left while the inner one is open, and the inner
one is left again. -/
theorem accounting_after_mismatched_leave :
    let events : List (Event Bool) :=
      [⟨1, .enter true⟩, ⟨3, .enter false⟩, ⟨4, .leave true⟩, ⟨6, .leave false⟩]
    ∑ category ∈ entered events, (run RuntimeMonitor.initial events).categoryTime category +
        (run RuntimeMonitor.initial events).running 9 =
      openTime [] 0 events 9 := by
  intro events
  have hlast : (6 : Int) ≤ 9 := by decide
  have hclock : NonDecreasing 0 events 9 := ⟨by decide, by decide, by decide, by decide, hlast⟩
  exact (accounting 0 9 events hclock).2.2.2.2.1

end RuntimeMonitoring
end Roofline
