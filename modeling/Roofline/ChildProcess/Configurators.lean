import Mathlib.Data.List.MinMax
import Roofline.Measurement.Preparation
import Roofline.SystemConfigurator.Governors

/-!
# Configurators

Configurators are notified before and after a measurement and before and after each of its runs.
Some of them run commands, and the process exits as soon as one of these fails: what comes after
the measurement is left out then.

The driver adds a configurator that sets the governors of the online CPUs.

Main results:

- Theorem {lit}`governors_of_measurement`: the governors during the runs and at the end.
- Theorem {lit}`exits_normally_iff`: when a measurement exits normally.
-/

namespace Roofline
namespace ChildProcess
namespace Configurators

open Programs SystemConfigurator
open Measurements (PreparationSettings SystemInfo Measurement prepareMeasurement LeavesFrequency
  governorCommand)

/-! ## Notifications -/

/-- A command as the child process gets it. -/
structure Command where
  executable : String
  args : List String

/-- The configurators as the child process gets them. -/
inductive Configurator where
  | runCommand (beforeMeasurementCommands afterMeasurementCommands beforeRunCommands
      afterRunCommands : List Command)
  | sleep (sleepBeforeMeasurement sleepAfterMeasurement sleepBeforeRun sleepAfterRun : Int)

/-- The notifications. -/
inductive Notification where
  | beforeMeasurement
  | afterMeasurement
  | beforeRun
  | afterRun
deriving DecidableEq

/-- What remains unchanged during a measurement: which governors the CPUs take, which executable
is the system configurator, and which of the other commands and of the runs succeed. -/
structure Machine where
  accepts : Int → String → Bool
  systemConfigurator : String
  succeeds : Command → Bool
  runSucceeds : Nat → Bool

/-- The governors of all CPUs now and during each run so far, and the number of runs in the output
that has been written. -/
structure State where
  governors : Governors
  runs : List Governors
  output : Option Nat

section Notifications

variable (machine : Machine)

/-- One round of {lit}`runConfigurator`.  All of its failures end the process with the same
status. -/
def runCommand (command : Command) : Program Nat State PUnit :=
  if command.executable = machine.systemConfigurator then
    primitive fun s =>
      match outcome (main machine.accepts command.args) s.governors with
      | (.ok _, governors) => (.ok ⟨⟩, { s with governors })
      | (.error _, governors) => (.error failure, { s with governors })
  else if machine.succeeds command then
    pure ⟨⟩
  else
    throw failure

/-- {lit}`runConfigurator`: one command after the other, up to the first that fails. -/
def runConfigurator (commands : List Command) : Program Nat State PUnit :=
  commands.forM (runCommand machine)

/-- The commands of a notification. -/
def Configurator.commands (notification : Notification) : Configurator → List Command
  | runCommand beforeMeasurementCommands afterMeasurementCommands beforeRunCommands
      afterRunCommands =>
      match notification with
      | .beforeMeasurement => beforeMeasurementCommands
      | .afterMeasurement => afterMeasurementCommands
      | .beforeRun => beforeRunCommands
      | .afterRun => afterRunCommands
  | sleep _ _ _ _ => []

/-- Sleeping changes nothing. -/
def notify (notification : Notification) (configurator : Configurator) :
    Program Nat State PUnit :=
  runConfigurator machine (configurator.commands notification)

/-- The run, from its start event to its stop event. -/
def measureRun (runNumber : Nat) : Program Nat State PUnit :=
  primitive fun s =>
    (if machine.runSucceeds runNumber then .ok ⟨⟩ else .error failure,
      { s with runs := s.runs ++ [s.governors] })

/-- One run: the configurators in their order before it and in the reverse order after it. -/
def performRun (configurators : List Configurator) (runNumber : Nat) :
    Program Nat State PUnit := do
  configurators.forM (notify machine .beforeRun)
  measureRun machine runNumber
  configurators.reverse.forM (notify machine .afterRun)

/-- {lit}`innerMain`: the configurators around all runs; the output is written at the end. -/
def innerMain (configurators : List Configurator) (runCount : Int) : Program Nat State PUnit := do
  configurators.forM (notify machine .beforeMeasurement)
  (List.range runCount.toNat).forM (performRun machine configurators)
  configurators.reverse.forM (notify machine .afterMeasurement)
  primitive fun s => (.ok ⟨⟩, { s with output := some runCount.toNat })

end Notifications

/-! ## Configurators that are sent -/

section Received

/-- The command in the other process; no null is sent. -/
def receiveCommand (command : Measurements.RunCommand) : Option Command := do
  let args ← command.args.mapM id
  return ⟨command.executable, args⟩

/-- A configurator as the child process gets it; null arguments cannot be sent. -/
def receiveConfigurator : Measurements.Configurator → Option Configurator
  | .runCommand _ beforeMeasurementCommands afterMeasurementCommands beforeRunCommands
      afterRunCommands => do
      let beforeMeasurementCommands ← beforeMeasurementCommands.mapM receiveCommand
      let afterMeasurementCommands ← afterMeasurementCommands.mapM receiveCommand
      let beforeRunCommands ← beforeRunCommands.mapM receiveCommand
      let afterRunCommands ← afterRunCommands.mapM receiveCommand
      return .runCommand beforeMeasurementCommands afterMeasurementCommands beforeRunCommands
        afterRunCommands
  | .sleep _ sleepBeforeMeasurement sleepAfterMeasurement sleepBeforeRun sleepAfterRun =>
      some (.sleep sleepBeforeMeasurement sleepAfterMeasurement sleepBeforeRun sleepAfterRun)

/-- The configurators of the measurement, in their order. -/
def receiveConfigurators (m : Measurement) : Option (List Configurator) :=
  (m.configurators.map m.configurator).mapM receiveConfigurator

/-- The configurator that sets the governors. -/
def frequencyConfigurator (executable measurementGovernor defaultGovernor : String)
    (cpus : List Int) : Configurator :=
  .runCommand
    [⟨executable, arguments (Measurements.fileName executable) measurementGovernor cpus⟩]
    [⟨executable, arguments (Measurements.fileName executable) defaultGovernor cpus⟩] [] []

/-- Arguments that are not null are received as they are. -/
theorem mapM_id_map_some (texts : List String) :
    (texts.map some).mapM (id : Option String → Option String) = some texts := by
  induction texts with
  | nil => rfl
  | cons text texts ih =>
      rw [List.map_cons, List.mapM_cons, ih]
      rfl

/-- The command for a governor, as the child process gets it. -/
theorem receiveCommand_governorCommand (settings : PreparationSettings) (system : SystemInfo)
    (governor : String) :
    receiveCommand (governorCommand settings system (some governor)) =
      some ⟨settings.systemConfiguratorExecutable,
        arguments (Measurements.fileName settings.systemConfiguratorExecutable) governor
          system.onlineCPUs⟩ := by
  have hargs : (governorCommand settings system (some governor)).args =
      (arguments (Measurements.fileName settings.systemConfiguratorExecutable) governor
        system.onlineCPUs).map some := by
    simp [governorCommand, arguments]
  rw [receiveCommand, hargs, mapM_id_map_some]
  rfl

/-- The configurator that is added is none of those that were there. -/
theorem ne_newConfigurator {m : Measurement} {configurator : Measurements.Ref .configurator}
    (h : configurator ∈ m.configurators) : configurator ≠ m.newConfigurator := by
  have hle : configurator.index ≤ (m.configurators.map Measurements.Ref.index).foldr max 0 :=
    List.le_max_of_le' 0 (List.mem_map_of_mem h) (le_refl _)
  intro heq
  rw [heq, Measurement.newConfigurator] at hle
  exact absurd hle (by simp)

/-- The configurator is the last one of a measurement that has been prepared. -/
theorem receiveConfigurators_prepareMeasurement {settings : PreparationSettings}
    {system : SystemInfo} (h : ¬LeavesFrequency settings system)
    {measurementGovernor defaultGovernor : String}
    (hmeasurement : settings.measurementFrequencyGovernor = some measurementGovernor)
    (hdefault : settings.defaultFrequencyGovernor = some defaultGovernor) {m : Measurement}
    {configurators : List Configurator} (hm : receiveConfigurators m = some configurators) :
    receiveConfigurators (prepareMeasurement settings system m) =
      some (configurators ++ [frequencyConfigurator settings.systemConfiguratorExecutable
        measurementGovernor defaultGovernor system.onlineCPUs]) := by
  rw [Measurements.prepareMeasurement_adds h, receiveConfigurators,
    Measurements.addMeasurementFrequencyConfigurator]
  have hkept : m.setIds.configurators.map (Function.update m.setIds.configurator
      m.setIds.newConfigurator (.runCommand (fun _ => none)
        [governorCommand settings system settings.measurementFrequencyGovernor]
        [governorCommand settings system settings.defaultFrequencyGovernor] [] [])) =
      m.configurators.map m.configurator := by
    have hids : m.setIds.configurators = m.configurators := m.sameShape_setIds.configurators
    rw [hids]
    apply List.map_congr_left
    intro configurator hconfigurator
    rw [← hids] at hconfigurator
    rw [Function.update_of_ne (ne_newConfigurator hconfigurator), m.setIds_eq]
  simp only [List.map_append, List.mapM_append, hkept, List.map_cons, List.map_nil,
    Function.update_self]
  have hadded : receiveConfigurator (.runCommand (fun _ => none)
      [governorCommand settings system settings.measurementFrequencyGovernor]
      [governorCommand settings system settings.defaultFrequencyGovernor] [] []) =
      some (frequencyConfigurator settings.systemConfiguratorExecutable measurementGovernor
        defaultGovernor system.onlineCPUs) := by
    rw [hmeasurement, hdefault, receiveConfigurator]
    simp only [List.mapM_cons, List.mapM_nil, receiveCommand_governorCommand]
    rfl
  rw [receiveConfigurators] at hm
  rw [hm, List.mapM_cons, List.mapM_nil, hadded]
  rfl

end Received

/-! ## Governors -/

section Effects

variable {machine : Machine} {measurementGovernor defaultGovernor : String} {cpus : List Int}

/-- The governor that is set by a notification. -/
def governorOf (measurementGovernor defaultGovernor : String) : Notification → Option String
  | .beforeMeasurement => some measurementGovernor
  | .afterMeasurement => some defaultGovernor
  | .beforeRun => none
  | .afterRun => none

/-- The system configurator is used for nothing else by the other configurators. -/
def Respects (machine : Machine) (measurementGovernor defaultGovernor : String) (cpus : List Int)
    (configurator : Configurator) : Prop :=
  ∀ notification, ∀ command ∈ configurator.commands notification,
    command.executable = machine.systemConfigurator →
      ∃ name governor, governorOf measurementGovernor defaultGovernor notification = some governor ∧
        command.args = arguments name governor cpus

/-- A property of states that setting a governor for some of the CPUs keeps. -/
def Keeps (governor : String) (cpus : List Int) (P : State → Prop) : Prop :=
  ∀ s done, done <+: cpus → P s → P { s with governors := s.governors.set governor done }

/-- The command for a governor sets it for the CPUs, or fails and keeps what is kept. -/
theorem runCommand_ensures (hints : ∀ cpu ∈ cpus, IsInt cpu) {command : Command}
    (hexecutable : command.executable = machine.systemConfigurator) {name governor : String}
    (hargs : command.args = arguments name governor cpus) {P : State → Prop}
    (hkeeps : Keeps governor cpus P) :
    Ensures P (runCommand machine command)
      (fun _ s => P s ∧ ∀ cpu ∈ cpus, s.governors cpu = governor) (fun _ => P) := by
  intro s hs
  have hensures : Ensures _ (main machine.accepts (arguments name governor cpus)) _ _ :=
    main_ensures hints name s.governors
  have hmain := hensures s.governors rfl
  rw [runCommand, if_pos hexecutable, outcome_primitive, hargs]
  rcases houtcome : outcome (main machine.accepts (arguments name governor cpus)) s.governors with
    ⟨status | _, after⟩
  · rw [houtcome] at hmain
    rcases hmain with ⟨done, hdone, rfl⟩
    exact hkeeps s done hdone hs
  · rw [houtcome] at hmain
    change after = _ at hmain
    subst hmain
    exact ⟨hkeeps s cpus (List.prefix_refl _) hs, fun cpu hcpu => if_pos hcpu⟩

/-- A configurator that respects the governors keeps what a notification has to keep. -/
theorem notify_ensures (hints : ∀ cpu ∈ cpus, IsInt cpu) {configurator : Configurator}
    (hrespects : Respects machine measurementGovernor defaultGovernor cpus configurator)
    {notification : Notification} {P : State → Prop}
    (hkeeps : ∀ governor, governorOf measurementGovernor defaultGovernor notification =
      some governor → Keeps governor cpus P) :
    Ensures P (notify machine notification configurator) (fun _ => P) (fun _ => P) := by
  apply Ensures.forM (I := fun _ => P)
  intro done command rest hcommands
  have hmem : command ∈ configurator.commands notification := by simp [hcommands]
  by_cases hexecutable : command.executable = machine.systemConfigurator
  · rcases hrespects notification command hmem hexecutable with ⟨name, governor, htarget, hargs⟩
    exact (runCommand_ensures hints hexecutable hargs (hkeeps governor htarget)).weaken
      (fun _ h => h) (fun _ _ h => h.1) fun _ _ h => h
  · rw [runCommand, if_neg hexecutable]
    exact Ensures.ite (fun _ => Ensures.pure fun _ h => h) fun _ => Ensures.throw fun _ h => h

/-- So do all configurators of a measurement. -/
theorem notifyAll_ensures (hints : ∀ cpu ∈ cpus, IsInt cpu) {configurators : List Configurator}
    (hrespects : ∀ configurator ∈ configurators,
      Respects machine measurementGovernor defaultGovernor cpus configurator)
    {notification : Notification} {P : State → Prop}
    (hkeeps : ∀ governor, governorOf measurementGovernor defaultGovernor notification =
      some governor → Keeps governor cpus P) :
    Ensures P (configurators.forM (notify machine notification)) (fun _ => P) (fun _ => P) := by
  apply Ensures.forM (I := fun _ => P)
  intro done configurator rest hconfigurators
  have hmem : configurator ∈ configurators := by simp [hconfigurators]
  exact notify_ensures hints (hrespects configurator hmem) hkeeps

/-- The added configurator sets the governor that goes with the notification. -/
theorem frequencyConfigurator_ensures (hints : ∀ cpu ∈ cpus, IsInt cpu)
    {notification : Notification} {governor : String}
    (hgovernor : governorOf measurementGovernor defaultGovernor notification = some governor)
    {P : State → Prop} (hkeeps : Keeps governor cpus P) :
    Ensures P (notify machine notification (frequencyConfigurator machine.systemConfigurator
        measurementGovernor defaultGovernor cpus))
      (fun _ s => P s ∧ ∀ cpu ∈ cpus, s.governors cpu = governor) (fun _ => P) := by
  cases notification with
  | beforeMeasurement =>
      cases hgovernor
      exact Ensures.bind (runCommand_ensures hints rfl rfl hkeeps) fun _ =>
        Ensures.pure fun _ h => h
  | afterMeasurement =>
      cases hgovernor
      exact Ensures.bind (runCommand_ensures hints rfl rfl hkeeps) fun _ =>
        Ensures.pure fun _ h => h
  | beforeRun => cases hgovernor
  | afterRun => cases hgovernor

/-- The added configurator respects the governors. -/
theorem respects_frequencyConfigurator :
    Respects machine measurementGovernor defaultGovernor cpus
      (frequencyConfigurator machine.systemConfigurator measurementGovernor defaultGovernor cpus) := by
  intro notification command hcommand _
  cases notification with
  | beforeMeasurement =>
      rcases List.mem_singleton.mp hcommand with rfl
      exact ⟨_, _, rfl, rfl⟩
  | afterMeasurement =>
      rcases List.mem_singleton.mp hcommand with rfl
      exact ⟨_, _, rfl, rfl⟩
  | beforeRun => cases hcommand
  | afterRun => cases hcommand

/-- With the added configurator, all configurators respect the governors. -/
theorem respects_received {configurators : List Configurator}
    (hrespects : ∀ configurator ∈ configurators,
      Respects machine measurementGovernor defaultGovernor cpus configurator) :
    ∀ configurator ∈ configurators ++ [frequencyConfigurator machine.systemConfigurator
      measurementGovernor defaultGovernor cpus],
      Respects machine measurementGovernor defaultGovernor cpus configurator := by
  intro configurator hmem
  rcases List.mem_append.mp hmem with hmem | hmem
  · exact hrespects configurator hmem
  · rcases List.mem_singleton.mp hmem with rfl
    exact respects_frequencyConfigurator

/-- What holds from the start of the process to its end. -/
structure Always (before : Governors) (measurementGovernor : String) (cpus : List Int)
    (s : State) : Prop where
  others : ∀ cpu ∉ cpus, s.governors cpu = before cpu
  runs : ∀ governors ∈ s.runs, ∀ cpu ∈ cpus, governors cpu = measurementGovernor
  output : s.output = none

/-- A governor that is set for the given CPUs leaves what always holds of the others. -/
theorem keeps_always {before : Governors} (governor : String) :
    Keeps governor cpus (Always before measurementGovernor cpus) := by
  intro s done hdone hs
  refine ⟨fun cpu hcpu => ?_, hs.runs, hs.output⟩
  have hnot : cpu ∉ done := fun hmem => hcpu (hdone.subset hmem)
  exact (if_neg hnot).trans (hs.others cpu hcpu)

/-- What holds between the first run and the last notification. -/
structure Measuring (before : Governors) (measurementGovernor : String) (cpus : List Int)
    (s : State) : Prop extends Always before measurementGovernor cpus s where
  chosen : ∀ cpu ∈ cpus, s.governors cpu = measurementGovernor

/-- The runs that have been made have succeeded. -/
structure Performed (machine : Machine) (done : List Nat) (s : State) : Prop where
  length : s.runs.length = done.length
  succeeded : ∀ runNumber ∈ done, machine.runSucceeds runNumber = true

/-- One run is made under the measurement governor and is recorded. -/
theorem performRun_ensures (hints : ∀ cpu ∈ cpus, IsInt cpu) {configurators : List Configurator}
    (hrespects : ∀ configurator ∈ configurators,
      Respects machine measurementGovernor defaultGovernor cpus configurator) {before : Governors}
    (done : List Nat) (runNumber : Nat) :
    Ensures (fun s => Measuring before measurementGovernor cpus s ∧ Performed machine done s)
      (performRun machine configurators runNumber)
      (fun _ s => Measuring before measurementGovernor cpus s ∧
        Performed machine (done ++ [runNumber]) s)
      (fun _ => Measuring before measurementGovernor cpus) := by
  apply Ensures.bind
  · exact (notifyAll_ensures hints hrespects fun governor hgovernor => by cases hgovernor).weaken
      (fun _ h => h) (fun _ _ h => h) fun _ _ h => h.1
  intro _
  have hrun : Ensures
      (fun s => Measuring before measurementGovernor cpus s ∧ Performed machine done s)
      (measureRun machine runNumber)
      (fun _ s => Measuring before measurementGovernor cpus s ∧
        Performed machine (done ++ [runNumber]) s)
      (fun _ => Measuring before measurementGovernor cpus) := by
    intro s hs
    have hmeasuring : Measuring before measurementGovernor cpus
        { s with runs := s.runs ++ [s.governors] } := by
      refine ⟨⟨hs.1.others, fun governors hgovernors => ?_, hs.1.output⟩, hs.1.chosen⟩
      rcases List.mem_append.mp hgovernors with hmem | hmem
      · exact hs.1.runs governors hmem
      · rcases List.mem_singleton.mp hmem with rfl
        exact hs.1.chosen
    rw [measureRun, outcome_primitive]
    cases hsucceeds : machine.runSucceeds runNumber with
    | false => exact hmeasuring
    | true =>
        refine ⟨hmeasuring, by simp [hs.2.length], fun other hother => ?_⟩
        rcases List.mem_append.mp hother with hmem | hmem
        · exact hs.2.succeeded other hmem
        · rcases List.mem_singleton.mp hmem with rfl
          exact hsucceeds
  apply Ensures.bind hrun
  intro _
  have hreverse : ∀ configurator ∈ configurators.reverse,
      Respects machine measurementGovernor defaultGovernor cpus configurator :=
    fun configurator hmem => hrespects configurator (List.mem_reverse.mp hmem)
  exact (notifyAll_ensures hints hreverse fun governor hgovernor => by cases hgovernor).weaken
    (fun _ h => h) (fun _ _ h => h) fun _ _ h => h.1

/-- What holds if the process exits with an error. -/
structure Aborted (machine : Machine) (before : Governors)
    (measurementGovernor defaultGovernor : String) (cpus : List Int) (runCount : Int) (s : State) :
    Prop extends Always before measurementGovernor cpus s where
  /-- Nothing has been measured, or the governors of the measurement remain, or the output of all
  runs is lost. -/
  stage : s.runs = [] ∨ (∀ cpu ∈ cpus, s.governors cpu = measurementGovernor) ∨
    Performed machine (List.range runCount.toNat) s ∧
      ∀ cpu ∈ cpus, s.governors cpu = measurementGovernor ∨ s.governors cpu = defaultGovernor

/-- What holds if the process exits normally. -/
structure Completed (before : Governors) (measurementGovernor defaultGovernor : String)
    (cpus : List Int) (runCount : Int) (s : State) : Prop where
  others : ∀ cpu ∉ cpus, s.governors cpu = before cpu
  runs : ∀ governors ∈ s.runs, ∀ cpu ∈ cpus, governors cpu = measurementGovernor
  length : s.runs.length = runCount.toNat
  output : s.output = some runCount.toNat
  reset : ∀ cpu ∈ cpus, s.governors cpu = defaultGovernor

/-- Nothing has been measured yet if a notification fails. -/
theorem beforeMeasurement_ensures (hints : ∀ cpu ∈ cpus, IsInt cpu)
    {configurators : List Configurator}
    (hrespects : ∀ configurator ∈ configurators,
      Respects machine measurementGovernor defaultGovernor cpus configurator) (before : Governors) :
    Ensures (· = ⟨before, [], none⟩)
      ((configurators ++ [frequencyConfigurator machine.systemConfigurator
        measurementGovernor defaultGovernor cpus]).forM (notify machine .beforeMeasurement))
      (fun _ s => Measuring before measurementGovernor cpus s ∧ Performed machine [] s)
      (fun _ s => Always before measurementGovernor cpus s ∧ s.runs = []) := by
  have hkeeps : Keeps measurementGovernor cpus
      fun s => Always before measurementGovernor cpus s ∧ s.runs = [] := fun s done hdone hs =>
    ⟨keeps_always measurementGovernor s done hdone hs.1, hs.2⟩
  have hstart : ∀ s : State, s = ⟨before, [], none⟩ →
      Always before measurementGovernor cpus s ∧ s.runs = [] := by
    rintro s rfl
    exact ⟨⟨fun _ _ => rfl, fun _ hmem => absurd hmem List.not_mem_nil, rfl⟩, rfl⟩
  apply Ensures.forM_append
    ((notifyAll_ensures hints hrespects fun governor hgovernor => by
      cases hgovernor
      exact hkeeps).weaken hstart (fun _ _ h => h) fun _ _ h => h)
  apply Ensures.bind (frequencyConfigurator_ensures hints rfl hkeeps)
  intro _
  exact Ensures.pure fun s h => ⟨⟨h.1.1, h.2⟩, by rw [h.1.2, List.length_nil, List.length_nil],
    fun _ hmem => absurd hmem List.not_mem_nil⟩

/-- The governors are reset first. -/
theorem afterMeasurement_ensures (hints : ∀ cpu ∈ cpus, IsInt cpu)
    {configurators : List Configurator}
    (hrespects : ∀ configurator ∈ configurators,
      Respects machine measurementGovernor defaultGovernor cpus configurator) {before : Governors}
    (done : List Nat) :
    Ensures (fun s => Measuring before measurementGovernor cpus s ∧ Performed machine done s)
      ((configurators ++ [frequencyConfigurator machine.systemConfigurator
        measurementGovernor defaultGovernor cpus]).reverse.forM (notify machine .afterMeasurement))
      (fun _ s => Always before measurementGovernor cpus s ∧ Performed machine done s ∧
        ∀ cpu ∈ cpus, s.governors cpu = defaultGovernor)
      (fun _ s => Always before measurementGovernor cpus s ∧ Performed machine done s ∧
        ∀ cpu ∈ cpus, s.governors cpu = measurementGovernor ∨
          s.governors cpu = defaultGovernor) := by
  have hreset : Keeps defaultGovernor cpus
      fun s => Always before measurementGovernor cpus s ∧ Performed machine done s ∧
        ∀ cpu ∈ cpus, s.governors cpu = defaultGovernor := by
    rintro s part hpart ⟨halways, hperformed, hs⟩
    refine ⟨keeps_always defaultGovernor s part hpart halways,
      ⟨hperformed.length, hperformed.succeeded⟩, fun cpu hcpu => ?_⟩
    exact ite_eq_iff.mpr ((em (cpu ∈ part)).imp (fun h => ⟨h, rfl⟩) fun h => ⟨h, hs cpu hcpu⟩)
  have hkeeps : Keeps defaultGovernor cpus
      fun s => Always before measurementGovernor cpus s ∧ Performed machine done s ∧
        ∀ cpu ∈ cpus, s.governors cpu = measurementGovernor ∨
          s.governors cpu = defaultGovernor := by
    rintro s part hpart ⟨halways, hperformed, hs⟩
    refine ⟨keeps_always defaultGovernor s part hpart halways,
      ⟨hperformed.length, hperformed.succeeded⟩, fun cpu hcpu => ?_⟩
    by_cases hmem : cpu ∈ part
    · exact Or.inr (if_pos hmem)
    · exact (hs cpu hcpu).imp (fun h => (if_neg hmem).trans h) fun h => (if_neg hmem).trans h
  rw [List.reverse_append, List.reverse_singleton, List.singleton_append]
  apply Ensures.bind
  · exact (frequencyConfigurator_ensures hints rfl hkeeps).weaken
      (fun s h => ⟨h.1.toAlways, h.2, fun cpu hcpu => Or.inl (h.1.chosen cpu hcpu)⟩)
      (fun _ _ h => h) fun _ _ h => h
  intro _
  have hreverse : ∀ configurator ∈ configurators.reverse,
      Respects machine measurementGovernor defaultGovernor cpus configurator :=
    fun configurator hmem => hrespects configurator (List.mem_reverse.mp hmem)
  exact (notifyAll_ensures hints hreverse fun governor hgovernor => by
    cases hgovernor
    exact hreset).weaken (fun s h => ⟨h.1.1, h.1.2.1, h.2⟩) (fun _ _ h => h)
      fun _ s h => ⟨h.1, h.2.1, fun cpu hcpu => Or.inr (h.2.2 cpu hcpu)⟩

/-- All runs are made under the measurement governor, and the default governor is set in the end. -/
theorem innerMain_ensures (hints : ∀ cpu ∈ cpus, IsInt cpu) {configurators : List Configurator}
    (hrespects : ∀ configurator ∈ configurators,
      Respects machine measurementGovernor defaultGovernor cpus configurator) (before : Governors)
    (runCount : Int) :
    Ensures (· = ⟨before, [], none⟩)
      (innerMain machine (configurators ++ [frequencyConfigurator machine.systemConfigurator
        measurementGovernor defaultGovernor cpus]) runCount)
      (fun _ => Completed before measurementGovernor defaultGovernor cpus runCount)
      (fun _ => Aborted machine before measurementGovernor defaultGovernor cpus runCount) := by
  apply Ensures.bind ((beforeMeasurement_ensures hints hrespects before).weaken (fun _ h => h)
    (fun _ _ h => h) fun _ s h => ⟨h.1, Or.inl h.2⟩)
  intro _
  have hruns : Ensures
      (fun s => Measuring before measurementGovernor cpus s ∧ Performed machine [] s)
      ((List.range runCount.toNat).forM (performRun machine (configurators ++
        [frequencyConfigurator machine.systemConfigurator measurementGovernor defaultGovernor cpus])))
      (fun _ s => Measuring before measurementGovernor cpus s ∧
        Performed machine (List.range runCount.toNat) s)
      (fun _ => Aborted machine before measurementGovernor defaultGovernor cpus runCount) := by
    apply Ensures.forM (I := fun done s => Measuring before measurementGovernor cpus s ∧
      Performed machine done s)
    intro done runNumber rest _
    exact (performRun_ensures hints (respects_received hrespects) done runNumber).weaken
      (fun _ h => h) (fun _ _ h => h)
      fun _ s h => ⟨h.toAlways, Or.inr (Or.inl h.chosen)⟩
  apply Ensures.bind hruns
  intro _
  apply Ensures.bind ((afterMeasurement_ensures hints hrespects _).weaken (fun _ h => h)
    (fun _ _ h => h) fun _ s h => ⟨h.1, Or.inr (Or.inr h.2)⟩)
  rintro _ s ⟨halways, hperformed, hreset⟩
  exact ⟨halways.others, halways.runs, by rw [hperformed.length, List.length_range], rfl, hreset⟩

/-- The governors of a measurement that has been prepared: during all of its runs the online CPUs
have the governor for measurements, at a normal exit they have the default one, and if anything
fails once a run has been made they keep the governor for measurements, or the output is lost. -/
theorem governors_of_measurement {settings : PreparationSettings} {system : SystemInfo}
    (h : ¬LeavesFrequency settings system)
    (hmeasurement : settings.measurementFrequencyGovernor = some measurementGovernor)
    (hdefault : settings.defaultFrequencyGovernor = some defaultGovernor)
    (hexecutable : settings.systemConfiguratorExecutable = machine.systemConfigurator)
    (hints : ∀ cpu ∈ system.onlineCPUs, IsInt cpu) {m : Measurement}
    {configurators : List Configurator} (hm : receiveConfigurators m = some configurators)
    (hrespects : ∀ configurator ∈ configurators,
      Respects machine measurementGovernor defaultGovernor system.onlineCPUs configurator)
    (before : Governors) (runCount : Int) :
    ∃ received, receiveConfigurators (prepareMeasurement settings system m) = some received ∧
      Ensures (· = ⟨before, [], none⟩) (innerMain machine received runCount)
        (fun _ => Completed before measurementGovernor defaultGovernor system.onlineCPUs runCount)
        (fun _ => Aborted machine before measurementGovernor defaultGovernor system.onlineCPUs
          runCount) := by
  refine ⟨_, receiveConfigurators_prepareMeasurement h hmeasurement hdefault hm, ?_⟩
  rw [hexecutable]
  exact innerMain_ensures hints hrespects before runCount

/-- The buffers of the file system are written before each run. -/
def syncedMeasurement : Measurement :=
  { Measurements.emptyMeasurement with
    configurators := [⟨0⟩]
    configurator := fun _ => .runCommand (fun _ => none) [] [] [⟨"sync", [some "sync"]⟩] [] }

/-- There are two CPUs, and the second run fails. -/
def failingMachine : Machine where
  accepts cpu _ := cpu = 0 ∨ cpu = 1
  systemConfigurator := "."
  succeeds _ := true
  runSucceeds runNumber := runNumber ≠ 1

/-- The default settings ask for a governor. -/
theorem not_leavesFrequency_default :
    ¬LeavesFrequency Measurements.defaultSettings ⟨true, [0, 1]⟩ := by
  rintro (h | h | h)
  · exact Bool.noConfusion h
  · exact Bool.noConfusion h
  · exact Bool.noConfusion h

/-- A configurator that runs another program respects the governors. -/
theorem respects_synced (configurator : Configurator)
    (h : configurator ∈ [Configurator.runCommand [] [] [⟨"sync", ["sync"]⟩] []]) :
    Respects failingMachine "performance" "ondemand" [0, 1] configurator := by
  rcases List.mem_singleton.mp h with rfl
  intro notification command hcommand hexecutable
  cases notification with
  | beforeMeasurement => cases hcommand
  | afterMeasurement => cases hcommand
  | beforeRun =>
      rcases List.mem_singleton.mp hcommand with rfl
      exact absurd hexecutable (by decide)
  | afterRun => cases hcommand

/-- A machine on which the last run of the measurement fails. -/
theorem governors_of_measurement_failing :
    ∃ received, receiveConfigurators (prepareMeasurement Measurements.defaultSettings
        ⟨true, [0, 1]⟩ syncedMeasurement) = some received ∧
      Ensures (· = ⟨fun _ => "powersave", [], none⟩) (innerMain failingMachine received 3)
        (fun _ => Completed (fun _ => "powersave") "performance" "ondemand" [0, 1] 3)
        (fun _ => Aborted failingMachine (fun _ => "powersave") "performance" "ondemand" [0, 1] 3) :=
  governors_of_measurement not_leavesFrequency_default rfl rfl rfl (by decide) rfl respects_synced
    (fun _ => "powersave") 3

/-! ## Normal exits -/

/-- The system configurator can set a governor for all of the CPUs. -/
def Settable (machine : Machine) (cpus : List Int) (governor : String) : Prop :=
  governor ∈ knownGovernors ∧ cpus ≠ [] ∧
    ∀ cpu ∈ cpus, InRange cpu ∧ machine.accepts cpu governor = true

/-- A command succeeds, whatever the governors are. -/
def CommandSucceeds (machine : Machine) (command : Command) : Prop :=
  if command.executable = machine.systemConfigurator then
    Accepted machine.accepts command.args
  else
    machine.succeeds command = true

/-- A command returns exactly if it succeeds, in whatever state. -/
theorem runCommand_returnsIff (command : Command) :
    ReturnsIff (runCommand machine command) (CommandSucceeds machine command) := by
  rw [runCommand, CommandSucceeds]
  by_cases hexecutable : command.executable = machine.systemConfigurator
  · rw [if_pos hexecutable, if_pos hexecutable]
    intro s
    rw [← main_returnsIff command.args s.governors, outcome_primitive]
    rcases outcome (main machine.accepts command.args) s.governors with ⟨status | _, after⟩
    · simp
    · simp
  · rw [if_neg hexecutable, if_neg hexecutable]
    refine (ReturnsIff.ite (ReturnsIff.pure _) (ReturnsIff.throw _)).congr ?_
    simp

/-- A notification returns exactly if all commands for it succeed. -/
theorem notifyAll_returnsIff (machine : Machine) (configurators : List Configurator)
    (notification : Notification) :
    ReturnsIff (configurators.forM (notify machine notification))
      (∀ configurator ∈ configurators, ∀ command ∈ configurator.commands notification,
        CommandSucceeds machine command) := by
  apply ReturnsIff.forM
  intro configurator _
  apply ReturnsIff.forM
  intro command _
  exact runCommand_returnsIff command

/-- The process exits normally exactly if all commands succeed, and all runs. -/
theorem innerMain_returnsIff (configurators : List Configurator) (runCount : Int) :
    ReturnsIff (innerMain machine configurators runCount)
      ((∀ notification, (notification = .beforeRun ∨ notification = .afterRun → 0 < runCount) →
          ∀ configurator ∈ configurators, ∀ command ∈ configurator.commands notification,
            CommandSucceeds machine command) ∧
        ∀ runNumber < runCount.toNat, machine.runSucceeds runNumber = true) := by
  have hrun : ∀ runNumber, ReturnsIff (measureRun machine runNumber)
      (machine.runSucceeds runNumber = true) := by
    intro runNumber s
    rw [measureRun, outcome_primitive]
    cases machine.runSucceeds runNumber <;> simp
  have hperform := fun runNumber =>
    (notifyAll_returnsIff machine configurators .beforeRun).bind fun _ =>
      (hrun runNumber).bind fun _ => notifyAll_returnsIff machine configurators.reverse .afterRun
  have hmain := (notifyAll_returnsIff machine configurators .beforeMeasurement).bind fun _ =>
    (ReturnsIff.forM fun runNumber (_ : runNumber ∈ List.range runCount.toNat) =>
      hperform runNumber).bind fun _ =>
        (notifyAll_returnsIff machine configurators.reverse .afterMeasurement).bind fun _ =>
          (fun _ => ⟨fun _ => trivial, fun _ => ⟨⟨⟩, rfl⟩⟩ : ReturnsIff (primitive fun s : State =>
            ((.ok ⟨⟩ : Except Nat PUnit), { s with output := some runCount.toNat })) True)
  refine hmain.congr ?_
  simp only [List.mem_reverse, List.mem_range, and_true]
  constructor
  · rintro ⟨hbefore, hruns, hafter⟩
    refine ⟨fun notification hcount => ?_, fun runNumber hrunNumber => (hruns runNumber hrunNumber).2.1⟩
    cases notification with
    | beforeMeasurement => exact hbefore
    | afterMeasurement => exact hafter
    | beforeRun => exact (hruns 0 (by simpa using hcount (Or.inl rfl))).1
    | afterRun => exact (hruns 0 (by simpa using hcount (Or.inr rfl))).2.2
  · rintro ⟨hcommands, hruns⟩
    have hpositive : ∀ runNumber < runCount.toNat, 0 < runCount := by
      intro runNumber hrunNumber
      omega
    exact ⟨hcommands .beforeMeasurement (by simp), fun runNumber hrunNumber =>
      ⟨hcommands .beforeRun fun _ => hpositive runNumber hrunNumber, hruns runNumber hrunNumber,
        hcommands .afterRun fun _ => hpositive runNumber hrunNumber⟩,
      hcommands .afterMeasurement (by simp)⟩

/-- The commands of the configurator that sets the governors. -/
theorem frequencyConfigurator_succeeds_iff (hints : ∀ cpu ∈ cpus, IsInt cpu)
    (notification : Notification) :
    (∀ command ∈ (frequencyConfigurator machine.systemConfigurator measurementGovernor
        defaultGovernor cpus).commands notification, CommandSucceeds machine command) ↔
      ∀ governor ∈ governorOf measurementGovernor defaultGovernor notification,
        Settable machine cpus governor := by
  have hcommand : ∀ name governor, CommandSucceeds machine
      ⟨machine.systemConfigurator, arguments name governor cpus⟩ ↔
        Settable machine cpus governor := by
    intro name governor
    rw [CommandSucceeds, if_pos rfl]
    exact accepted_arguments_iff hints name
  cases notification with
  | beforeMeasurement =>
      simp [frequencyConfigurator, Configurator.commands, governorOf, hcommand]
  | afterMeasurement =>
      simp [frequencyConfigurator, Configurator.commands, governorOf, hcommand]
  | beforeRun => simp [frequencyConfigurator, Configurator.commands, governorOf]
  | afterRun => simp [frequencyConfigurator, Configurator.commands, governorOf]

/-- A measurement that has been prepared exits normally exactly if both governors can be set for
all online CPUs, the commands of the other configurators succeed, and the runs do. -/
theorem exits_normally_iff {settings : PreparationSettings} {system : SystemInfo}
    (h : ¬LeavesFrequency settings system)
    (hmeasurement : settings.measurementFrequencyGovernor = some measurementGovernor)
    (hdefault : settings.defaultFrequencyGovernor = some defaultGovernor)
    (hexecutable : settings.systemConfiguratorExecutable = machine.systemConfigurator)
    (hints : ∀ cpu ∈ system.onlineCPUs, IsInt cpu) {m : Measurement}
    {configurators : List Configurator} (hm : receiveConfigurators m = some configurators)
    (runCount : Int) :
    ∃ received, receiveConfigurators (prepareMeasurement settings system m) = some received ∧
      ReturnsIff (innerMain machine received runCount)
        (Settable machine system.onlineCPUs measurementGovernor ∧
          Settable machine system.onlineCPUs defaultGovernor ∧
          (∀ notification, (notification = .beforeRun ∨ notification = .afterRun → 0 < runCount) →
            ∀ configurator ∈ configurators, ∀ command ∈ configurator.commands notification,
              CommandSucceeds machine command) ∧
          ∀ runNumber < runCount.toNat, machine.runSucceeds runNumber = true) := by
  refine ⟨_, receiveConfigurators_prepareMeasurement h hmeasurement hdefault hm, ?_⟩
  rw [hexecutable]
  refine (innerMain_returnsIff _ runCount).congr ?_
  simp only [List.forall_mem_append, List.forall_mem_singleton,
    frequencyConfigurator_succeeds_iff hints]
  constructor
  · rintro ⟨hcommands, hruns⟩
    exact ⟨(hcommands .beforeMeasurement (by simp)).2 _ rfl,
      (hcommands .afterMeasurement (by simp)).2 _ rfl,
      fun notification hcount => (hcommands notification hcount).1, hruns⟩
  · rintro ⟨hmeasured, hdefaulted, hothers, hruns⟩
    refine ⟨fun notification hcount => ⟨hothers notification hcount, ?_⟩, hruns⟩
    intro governor hgovernor
    cases notification with
    | beforeMeasurement =>
        cases hgovernor
        exact hmeasured
    | afterMeasurement =>
        cases hgovernor
        exact hdefaulted
    | beforeRun => cases hgovernor
    | afterRun => cases hgovernor

/-- A machine on which the governors can be set, but the last run fails. -/
theorem exits_normally_iff_failing :
    ∃ received, receiveConfigurators (prepareMeasurement Measurements.defaultSettings
        ⟨true, [0, 1]⟩ syncedMeasurement) = some received ∧
      ReturnsIff (innerMain failingMachine received 3)
        (Settable failingMachine [0, 1] "performance" ∧ Settable failingMachine [0, 1] "ondemand" ∧
          (∀ notification, (notification = .beforeRun ∨ notification = .afterRun → (0 : Int) < 3) →
            ∀ configurator ∈ [Configurator.runCommand [] [] [⟨"sync", ["sync"]⟩] []],
              ∀ command ∈ configurator.commands notification,
                CommandSucceeds failingMachine command) ∧
          ∀ runNumber < Int.toNat 3, failingMachine.runSucceeds runNumber = true) :=
  exits_normally_iff not_leavesFrequency_default rfl rfl rfl (by decide) rfl 3

end Effects

end Configurators
end ChildProcess
end Roofline
