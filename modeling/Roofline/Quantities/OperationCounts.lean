import Mathlib.Algebra.BigOperators.Group.List.Basic
import Mathlib.Algebra.BigOperators.Ring.Finset
import Mathlib.Algebra.CharZero.Defs
import Mathlib.Algebra.Field.Defs
import Mathlib.Algebra.Field.Rat
import Mathlib.Tactic.Ring
import Roofline.Quantities.CalculatorTrees

/-!
# Counting floating point operations

No event of a processor counts operations: there are events for scalar and for packed
instructions, with names of their own on each processor.  The service takes of the names it knows
the one whose performance monitoring unit is present, and builds a calculator that weights the
counts.

What the events count is documented by the vendors, and a parameter here.

Main results:

- Theorem {lit}`getOperationCountCalculator_isOk_iff`: on which systems there is a calculator.
- Theorem {lit}`getSingleResult_iff_no_wide_single`: when the calculator gives the number of
  operations that all threads have executed.
-/

namespace Roofline
namespace Quantities
namespace OperationCounts

open CalculatorTrees
open Programs (bind_eq_ok)

/-! ## Performance monitoring units -/

section Events

/-- {lit}`Error("Multiple items match the predicate")`. -/
def multipleItems : Throwable :=
  .error "Multiple items match the predicate"

/-- The loop of {lit}`singleOrDefault`, with the item found so far. -/
def singleOrDefaultFrom {α : Type} (pred : α → Bool) :
    List α → Option α → Except Throwable (Option α)
  | [], foundItem => .ok foundItem
  | item :: items, foundItem =>
      if pred item then
        match foundItem with
        | some _ => .error multipleItems
        | none => singleOrDefaultFrom pred items (some item)
      else singleOrDefaultFrom pred items foundItem

/-- The loop of {lit}`single`, for a predicate that may throw. -/
def singleFrom {α : Type} (pred : α → Except Throwable Bool) :
    List α → Option α → Except Throwable α
  | [], none => .error (.error "No item matched the predicate")
  | [], some foundItem => .ok foundItem
  | item :: items, foundItem => do
      if (← pred item) then
        match foundItem with
        | some _ => .error multipleItems
        | none => singleFrom pred items (some item)
      else singleFrom pred items foundItem

/-- An event {lit}`pmu::definition`. -/
structure Event where
  pmu : String
  definition : String
deriving DecidableEq

/-- The name of an event as perfmon knows it: the unit, two colons and the definition. -/
def Event.text (event : Event) : String :=
  event.pmu ++ "::" ++ event.definition

variable (presentPmus : List String)

/-- The unit with this name, if it is present. -/
def getPresentPMU (pmuName : String) : Except Throwable (Option String) :=
  singleOrDefaultFrom (fun pmu => pmu == pmuName) presentPmus none

/-- A unit with this name is present. -/
def isPMUPresent (pmuName : String) : Except Throwable Bool := do
  let pmu ← getPresentPMU presentPmus pmuName
  return pmu.isSome

/-- Whatever is thrown is replaced by an error that names the events. -/
def getAvailableEvent (events : List Event) : Except Throwable Event :=
  match singleFrom (fun event => isPMUPresent presentPmus event.pmu) events none with
  | .ok event => .ok event
  | .error _ =>
      .error (.error ("None of the following events was available: " ++
        String.join (events.map Event.text)))

/-- The processors the service knows. -/
inductive CpuType
  | core
  | yonah
  | sandyBridge
  | sandyBridgeExtreme
  | ivyBridge
deriving DecidableEq

/-- The type of the processor, told by the first unit of the list that is present. -/
def getCpuType : Except Throwable CpuType := do
  if (← isPMUPresent presentPmus "core") then return .core
  if (← isPMUPresent presentPmus "coreduo") then return .yonah
  if (← isPMUPresent presentPmus "snb") then return .sandyBridge
  if (← isPMUPresent presentPmus "snb_ep") then return .sandyBridgeExtreme
  if (← isPMUPresent presentPmus "ivb") then return .ivyBridge
  throw (.error ("CPU not supported, available PMUs: " ++ ",".intercalate presentPmus))

end Events

/-! ## Calculators -/

/-- What was counted, and for how long the event was enabled and counting. -/
structure PerfEventCount where
  rawCount : Nat
  timeEnabled : Nat
  timeRunning : Nat

/-- The operations that can be counted. -/
inductive Operation
  | singlePrecisionFlop
  | doublePrecisionFlop
  | compInstr
  | sseFlop
deriving DecidableEq

/-- The events for scalar instructions of single precision. -/
def scalarSingleEvents : List Event :=
  [⟨"coreduo", "SSE_COMP_INSTRUCTIONS_RETIRED:SCALAR_SINGLE"⟩,
    ⟨"core", "SIMD_COMP_INST_RETIRED:SCALAR_SINGLE"⟩,
    ⟨"snb", "FP_COMP_OPS_EXE:SSE_FP_SCALAR_SINGLE"⟩,
    ⟨"snb_ep", "FP_COMP_OPS_EXE:SSE_FP_SCALAR_SINGLE"⟩]

/-- The events for packed instructions of single precision. -/
def packedSingleEvents : List Event :=
  [⟨"coreduo", "SSE_COMP_INSTRUCTIONS_RETIRED:PACKED_SINGLE"⟩,
    ⟨"core", "SIMD_COMP_INST_RETIRED:PACKED_SINGLE"⟩,
    ⟨"snb", "FP_COMP_OPS_EXE:SSE_PACKED_SINGLE"⟩,
    ⟨"snb_ep", "FP_COMP_OPS_EXE:SSE_PACKED_SINGLE"⟩]

/-- The events for scalar instructions of double precision. -/
def scalarDoubleEvents : List Event :=
  [⟨"coreduo", "SSE_COMP_INSTRUCTIONS_RETIRED:SCALAR_DOUBLE"⟩,
    ⟨"core", "SIMD_COMP_INST_RETIRED:SCALAR_DOUBLE"⟩,
    ⟨"snb", "FP_COMP_OPS_EXE:SSE_SCALAR_DOUBLE"⟩,
    ⟨"snb_ep", "FP_COMP_OPS_EXE:SSE_SCALAR_DOUBLE"⟩]

/-- The events for packed instructions of double precision. -/
def packedDoubleEvents : List Event :=
  [⟨"snb_ep", "FP_COMP_OPS_EXE:SSE_FP_PACKED_DOUBLE"⟩,
    ⟨"snb", "FP_COMP_OPS_EXE:SSE_FP_PACKED_DOUBLE"⟩,
    ⟨"coreduo", "SSE_COMP_INSTRUCTIONS_RETIRED:PACKED_DOUBLE"⟩,
    ⟨"core", "SIMD_COMP_INST_RETIRED:PACKED_DOUBLE"⟩]

/-- The events for packed instructions on 256 bits. -/
def avxEvents : List Event :=
  [⟨"snb_ep", "SIMD_FP_256:PACKED_DOUBLE"⟩, ⟨"snb", "SIMD_FP_256:PACKED_DOUBLE"⟩]

/-- The events for computational instructions. -/
def compInstrEvents : List Event :=
  [⟨"coreduo", "FP_COMP_INSTR_RET"⟩, ⟨"core", "FP_COMP_OPS_EXE"⟩, ⟨"snb", "INST_RETIRED"⟩,
    ⟨"snb_ep", "INST_RETIRED"⟩]

section Calculators

variable {K : Type} [Field K]

/-- The count, scaled to the time the event was enabled. -/
def PerfEventCount.getScaledCount (count : PerfEventCount) : K :=
  count.rawCount * count.timeEnabled / count.timeRunning

/-- The state holds the event of each measurer that has been created; a measurer is known by its
position. -/
abbrev Building (α : Type) :=
  StateT (List Event) (Except Throwable) α

variable (presentPmus : List String)

/-- A calculator for a new measurer of the one available event. -/
def createPerfEventQuantityCalculator (combination : Combination) (events : List Event) :
    Building (Calculator Nat PerfEventCount K) := do
  let eventDefinition ← getAvailableEvent presentPmus events
  let created ← get
  set (created ++ [eventDefinition])
  return .terminal
    { requiredMeasurer := ⟨created.length, true⟩
      value := PerfEventCount.getScaledCount
      combination }

/-- The case {lit}`SinglePrecisionFlop`. -/
def singlePrecisionCalculator : Building (Calculator Nat PerfEventCount K) := do
  let scalar ← createPerfEventQuantityCalculator presentPmus .sum scalarSingleEvents
  let packed ← createPerfEventQuantityCalculator presentPmus .sum packedSingleEvents
  return .adding scalar (.multiplying packed (4 : Nat))

/-- The case {lit}`DoublePrecisionFlop`. -/
def doublePrecisionCalculator : Building (Calculator Nat PerfEventCount K) := do
  let scalar ← createPerfEventQuantityCalculator presentPmus .sum scalarDoubleEvents
  let packed ← createPerfEventQuantityCalculator presentPmus .sum packedDoubleEvents
  match ← getCpuType presentPmus with
  | .sandyBridgeExtreme | .sandyBridge | .ivyBridge => do
      let avx ← createPerfEventQuantityCalculator presentPmus .sum avxEvents
      return .adding (.multiplying avx (4 : Nat)) (.adding scalar (.multiplying packed (2 : Nat)))
  | .yonah =>
      -- the counter for packed instructions includes the scalar ones
      return .subtracting (.multiplying packed (2 : Nat)) scalar
  | .core => return .adding scalar (.multiplying packed (2 : Nat))

/-- The calculator for an operation; the measurers it needs are created on the way. -/
def getOperationCountCalculator : Operation → Building (Calculator Nat PerfEventCount K)
  | .sseFlop => do
      let single ← singlePrecisionCalculator presentPmus
      let double ← doublePrecisionCalculator presentPmus
      return .adding single double
  | .singlePrecisionFlop => singlePrecisionCalculator presentPmus
  | .doublePrecisionFlop => doublePrecisionCalculator presentPmus
  | .compInstr => createPerfEventQuantityCalculator presentPmus .sum compInstrEvents

end Calculators

/-! ## Which events are available -/

section Available

/-- The loop finds the only element, and throws if there are several. -/
theorem singleOrDefaultFrom_eq {α : Type} (pred : α → Bool) (items : List α) (found : Option α) :
    singleOrDefaultFrom pred items found =
      match found.toList ++ items.filter pred with
      | [] => .ok none
      | [item] => .ok (some item)
      | _ => .error multipleItems := by
  induction items generalizing found with
  | nil => cases found <;> rfl
  | cons item items ih =>
      unfold singleOrDefaultFrom
      by_cases hitem : pred item = true
      · rw [if_pos hitem, List.filter_cons_of_pos hitem]
        cases found with
        | none => exact ih (some item)
        | some first =>
            cases hrest : items.filter pred <;> rfl
      · rw [if_neg hitem, List.filter_cons_of_neg hitem, ih]

/-- No unit is listed twice. -/
theorem isPMUPresent_eq {presentPmus : List String} (hnodup : presentPmus.Nodup) (pmuName : String) :
    isPMUPresent presentPmus pmuName = .ok (decide (pmuName ∈ presentPmus)) := by
  have hfilter : presentPmus.filter (fun pmu => pmu == pmuName) =
      if pmuName ∈ presentPmus then [pmuName] else [] := by
    rw [List.filter_beq]
    split
    · next hmem => rw [List.count_eq_one_of_mem hnodup hmem, List.replicate_one]
    · next hmem => rw [List.count_eq_zero_of_not_mem hmem, List.replicate_zero]
  rw [isPMUPresent, getPresentPMU, singleOrDefaultFrom_eq, hfilter]
  by_cases hmem : pmuName ∈ presentPmus <;> simp [hmem]

variable {presentPmus : List String}

/-- The loop returns an element exactly if it is the only one. -/
theorem singleFrom_eq {α : Type} {pred : α → Except Throwable Bool} {p : α → Bool}
    (h : ∀ item, pred item = .ok (p item)) (items : List α) (found : Option α) {item : α} :
    singleFrom pred items found = .ok item ↔ found.toList ++ items.filter p = [item] := by
  induction items generalizing found with
  | nil =>
      cases found with
      | none => simp [singleFrom]
      | some first => simp [singleFrom]
  | cons next items ih =>
      unfold singleFrom
      rw [h next]
      change (if p next = true then _ else _) = Except.ok item ↔ _
      by_cases hnext : p next = true
      · rw [if_pos hnext, List.filter_cons_of_pos hnext]
        cases found with
        | none => exact ih (some next)
        | some first => simp
      · rw [if_neg hnext, List.filter_cons_of_neg hnext, ih]

/-- The event whose unit is present, if there is one and no other. -/
theorem getAvailableEvent_eq_ok (hnodup : presentPmus.Nodup) {events : List Event} {event : Event} :
    getAvailableEvent presentPmus events = .ok event ↔
      events.filter (fun event => event.pmu ∈ presentPmus) = [event] := by
  have hsingle : singleFrom _ events none = .ok event ↔ _ :=
    singleFrom_eq (fun event : Event => isPMUPresent_eq hnodup event.pmu) events none
  rw [Option.toList_none, List.nil_append] at hsingle
  rw [← hsingle, getAvailableEvent]
  split
  · next heq => rw [heq]
  · next heq => rw [heq]; simp

/-- The units whose events the service knows. -/
def supported : List String :=
  ["coreduo", "core", "snb", "snb_ep"]

/-- The only known unit that is present. -/
structure OnlyPresent (presentPmus : List String) (pmu : String) : Prop where
  mem_supported : pmu ∈ supported
  iff : ∀ other ∈ supported, other ∈ presentPmus ↔ other = pmu

/-- If one known unit is present, then its event is available. -/
theorem exists_available {pmu : String} (hnodup : presentPmus.Nodup) (h : OnlyPresent presentPmus pmu)
    {events : List Event} (hknown : (events.map Event.pmu).Perm supported) :
    ∃ event ∈ events, event.pmu = pmu ∧ getAvailableEvent presentPmus events = .ok event := by
  have hmem : ∀ event ∈ events, event.pmu ∈ supported := fun event hevent =>
    hknown.mem_iff.mp (List.mem_map_of_mem hevent)
  rcases List.mem_map.mp (hknown.mem_iff.mpr h.mem_supported) with ⟨event, hevent, heq⟩
  refine ⟨event, hevent, heq, (getAvailableEvent_eq_ok hnodup).mpr ?_⟩
  have hdistinct : (events.map Event.pmu).Nodup := hknown.nodup_iff.mpr (by decide)
  have hfilter : events.filter (fun event => event.pmu ∈ presentPmus) =
      events.filter (fun other => other = event) := by
    apply List.filter_congr
    intro other hother
    rw [decide_eq_decide, h.iff other.pmu (hmem other hother), ← heq]
    exact ⟨List.inj_on_of_nodup_map hdistinct hother hevent, fun h => congrArg Event.pmu h⟩
  rw [hfilter, List.filter_eq, List.count_eq_one_of_mem hdistinct.of_map hevent,
    List.replicate_one]

/-- An event is available exactly if one of the known units is present. -/
theorem onlyPresent_of_available (hnodup : presentPmus.Nodup) {events : List Event}
    (hknown : (events.map Event.pmu).Perm supported) {event : Event}
    (h : getAvailableEvent presentPmus events = .ok event) : OnlyPresent presentPmus event.pmu := by
  rw [getAvailableEvent_eq_ok hnodup] at h
  have hevent : event ∈ events ∧ event.pmu ∈ presentPmus := by
    have hmem : event ∈ events.filter (fun event => event.pmu ∈ presentPmus) := by simp [h]
    simpa using hmem
  refine ⟨hknown.mem_iff.mp (List.mem_map_of_mem hevent.1), fun other hother => ?_⟩
  constructor
  · intro hpresent
    rcases List.mem_map.mp (hknown.mem_iff.mpr hother) with ⟨found, hfound, rfl⟩
    have hmem : found ∈ events.filter (fun event => event.pmu ∈ presentPmus) := by
      simpa using ⟨hfound, hpresent⟩
    rw [h, List.mem_singleton] at hmem
    rw [hmem]
  · rintro rfl
    exact hevent.2

/-- All lists but that for 256 bits have one event for each known unit. -/
theorem known_events :
    (scalarSingleEvents.map Event.pmu).Perm supported ∧
      (packedSingleEvents.map Event.pmu).Perm supported ∧
        (scalarDoubleEvents.map Event.pmu).Perm supported ∧
          (packedDoubleEvents.map Event.pmu).Perm supported ∧
            (compInstrEvents.map Event.pmu).Perm supported := by
  decide

/-- The event for 256 bits is available on the two processors that have it. -/
theorem available_avx {pmu : String} (hnodup : presentPmus.Nodup) (h : OnlyPresent presentPmus pmu)
    (hpmu : pmu = "snb" ∨ pmu = "snb_ep") :
    ∃ event ∈ avxEvents, event.pmu = pmu ∧ getAvailableEvent presentPmus avxEvents = .ok event := by
  have hsnb := h.iff "snb" (by decide)
  have hsnbEp := h.iff "snb_ep" (by decide)
  rcases hpmu with rfl | rfl
  · refine ⟨⟨"snb", "SIMD_FP_256:PACKED_DOUBLE"⟩, by decide, rfl, ?_⟩
    rw [getAvailableEvent_eq_ok hnodup]
    simp [avxEvents, hsnb, hsnbEp]
  · refine ⟨⟨"snb_ep", "SIMD_FP_256:PACKED_DOUBLE"⟩, by decide, rfl, ?_⟩
    rw [getAvailableEvent_eq_ok hnodup]
    simp [avxEvents, hsnb, hsnbEp]

/-- The type of the processor with a unit. -/
def typeOf : String → CpuType
  | "core" => .core
  | "coreduo" => .yonah
  | "snb" => .sandyBridge
  | _ => .sandyBridgeExtreme

/-- The type of the processor follows from the unit that is present. -/
theorem getCpuType_eq {pmu : String} (hnodup : presentPmus.Nodup) (h : OnlyPresent presentPmus pmu) :
    getCpuType presentPmus = .ok (typeOf pmu) := by
  have hcore := h.iff "core" (by decide)
  have hcoreduo := h.iff "coreduo" (by decide)
  have hsnb := h.iff "snb" (by decide)
  have hsnbEp := h.iff "snb_ep" (by decide)
  have hpmu := h.mem_supported
  simp only [supported, List.mem_cons, List.not_mem_nil, or_false] at hpmu
  simp only [getCpuType, isPMUPresent_eq hnodup, hcore, hcoreduo, hsnb, hsnbEp]
  rcases hpmu with rfl | rfl | rfl | rfl <;> rfl

end Available

/-! ## The calculators that are built -/

section Building

variable {K : Type} [Field K] {presentPmus : List String} {created : List Event}

/-- The calculator for the counts of one measurer. -/
def leaf (K : Type) [Field K] (uid : Nat) : Terminal Nat PerfEventCount K where
  requiredMeasurer := ⟨uid, true⟩
  value := PerfEventCount.getScaledCount
  combination := .sum

/-- The calculator for an available event is a new leaf. -/
theorem create_eq {events : List Event} {event : Event}
    (h : getAvailableEvent presentPmus events = .ok event) :
    (createPerfEventQuantityCalculator presentPmus .sum events).run created =
      .ok (.terminal (leaf K created.length), created ++ [event]) := by
  simp only [createPerfEventQuantityCalculator, h]
  rfl

/-- If the calculator was created, an event was available. -/
theorem available_of_create {events : List Event} {calculator : Calculator Nat PerfEventCount K}
    {after : List Event}
    (h : (createPerfEventQuantityCalculator presentPmus .sum events).run created =
      .ok (calculator, after)) : ∃ event, getAvailableEvent presentPmus events = .ok event := by
  cases havailable : getAvailableEvent presentPmus events with
  | ok event => exact ⟨event, rfl⟩
  | error e =>
      simp only [createPerfEventQuantityCalculator, havailable] at h
      cases h

/-- A step that succeeds is followed by the next one. -/
theorem run_bind {α β : Type} {x : Building α} {f : α → Building β} {a : α} {after : List Event}
    (h : x.run created = .ok (a, after)) : (x >>= f).run created = (f a).run after := by
  rw [StateT.run_bind, h]
  rfl

/-- If two steps in a row succeed, then each of them does. -/
theorem exists_of_run_bind {α β : Type} {x : Building α} {f : α → Building β}
    {result : β × List Event} (h : (x >>= f).run created = .ok result) :
    ∃ a after, x.run created = .ok (a, after) ∧ (f a).run after = .ok result := by
  rw [StateT.run_bind] at h
  rcases bind_eq_ok.mp h with ⟨⟨a, after⟩, hfirst, hrest⟩
  exact ⟨a, after, hfirst, hrest⟩

variable (K) in
/-- The calculator for single precision. -/
def singleTree (uid : Nat) : Calculator Nat PerfEventCount K :=
  .adding (.terminal (leaf K uid)) (.multiplying (.terminal (leaf K (uid + 1))) (4 : Nat))

variable (K) in
/-- The calculator for double precision. -/
def doubleTree (uid : Nat) : CpuType → Calculator Nat PerfEventCount K
  | .core => .adding (.terminal (leaf K uid)) (.multiplying (.terminal (leaf K (uid + 1))) (2 : Nat))
  | .yonah =>
      .subtracting (.multiplying (.terminal (leaf K (uid + 1))) (2 : Nat)) (.terminal (leaf K uid))
  | _ =>
      .adding (.multiplying (.terminal (leaf K (uid + 2))) (4 : Nat))
        (.adding (.terminal (leaf K uid)) (.multiplying (.terminal (leaf K (uid + 1))) (2 : Nat)))

/-- The events that are measured for double precision. -/
structure DoubleEvents (pmu : String) (scalar packed : Event) (avx : List Event) : Prop where
  scalar_mem : scalar ∈ scalarDoubleEvents
  packed_mem : packed ∈ packedDoubleEvents
  packed_pmu : packed.pmu = pmu
  avx_mem : ∀ event ∈ avx, event ∈ avxEvents
  avx_length : avx.length = if pmu = "snb" ∨ pmu = "snb_ep" then 1 else 0

/-- The calculator for single precision adds one scalar event and one packed event. -/
theorem singlePrecision_eq {pmu : String} (hnodup : presentPmus.Nodup)
    (h : OnlyPresent presentPmus pmu) (created : List Event) :
    ∃ scalar ∈ scalarSingleEvents, ∃ packed ∈ packedSingleEvents,
      (singlePrecisionCalculator presentPmus).run created =
        .ok (singleTree K created.length, created ++ [scalar, packed]) := by
  rcases exists_available hnodup h known_events.1 with ⟨scalar, hscalar, _, hsome⟩
  rcases exists_available hnodup h known_events.2.1 with ⟨packed, hpacked, _, hsome'⟩
  refine ⟨scalar, hscalar, packed, hpacked, ?_⟩
  rw [singlePrecisionCalculator, run_bind (create_eq hsome), run_bind (create_eq hsome'),
    List.append_assoc, List.length_append]
  rfl

/-- The calculator for double precision is that of the type of the processor. -/
theorem doublePrecision_eq {pmu : String} (hnodup : presentPmus.Nodup)
    (h : OnlyPresent presentPmus pmu) (created : List Event) :
    ∃ scalar packed avx, DoubleEvents pmu scalar packed avx ∧
      (doublePrecisionCalculator presentPmus).run created =
        .ok (doubleTree K created.length (typeOf pmu), created ++ scalar :: packed :: avx) := by
  rcases exists_available hnodup h known_events.2.2.1 with ⟨scalar, hscalar, _, hsome⟩
  rcases exists_available hnodup h known_events.2.2.2.1 with ⟨packed, hpacked, hpmu, hsome'⟩
  have htype : (liftM (getCpuType presentPmus) : Building CpuType).run
      (created ++ [scalar] ++ [packed]) = .ok (typeOf pmu, created ++ [scalar] ++ [packed]) := by
    rw [getCpuType_eq hnodup h]
    rfl
  rw [doublePrecisionCalculator, run_bind (create_eq hsome), run_bind (create_eq hsome'),
    run_bind htype]
  have hlength : (created ++ [scalar]).length = created.length + 1 := by simp
  have hlength' : (created ++ [scalar] ++ [packed]).length = created.length + 2 := by simp
  have hmem := h.mem_supported
  simp only [supported, List.mem_cons, List.not_mem_nil, or_false] at hmem
  by_cases hnew : pmu = "snb" ∨ pmu = "snb_ep"
  · rcases available_avx hnodup h hnew with ⟨avx, havx, _, hsome''⟩
    refine ⟨scalar, packed, [avx], ⟨hscalar, hpacked, hpmu, by simpa using havx, by simp [hnew]⟩, ?_⟩
    rcases hnew with rfl | rfl
    · have hvalue : typeOf "snb" = .sandyBridge := rfl
      simp only [hvalue]
      rw [run_bind (create_eq hsome''), hlength, hlength', List.append_assoc, List.append_assoc]
      rfl
    · have hvalue : typeOf "snb_ep" = .sandyBridgeExtreme := rfl
      simp only [hvalue]
      rw [run_bind (create_eq hsome''), hlength, hlength', List.append_assoc, List.append_assoc]
      rfl
  · refine ⟨scalar, packed, [], ⟨hscalar, hpacked, hpmu, by simp, by simp [hnew]⟩, ?_⟩
    rcases hmem with rfl | rfl | rfl | rfl
    · rw [hlength, List.append_assoc]
      rfl
    · rw [hlength, List.append_assoc]
      rfl
    · exact absurd (Or.inl rfl) hnew
    · exact absurd (Or.inr rfl) hnew

/-- The first event that is looked for has a name on each of the units. -/
theorem onlyPresent_of_run (hnodup : presentPmus.Nodup) {operation : Operation}
    {result : Calculator Nat PerfEventCount K × List Event}
    (h : (getOperationCountCalculator presentPmus operation).run created = .ok result) :
    ∃ pmu, OnlyPresent presentPmus pmu := by
  have hfirst : ∃ events, (events.map Event.pmu).Perm supported ∧
      ∃ event, getAvailableEvent presentPmus events = .ok event := by
    cases operation with
    | singlePrecisionFlop =>
        rcases exists_of_run_bind h with ⟨_, _, hcreate, _⟩
        exact ⟨_, known_events.1, available_of_create hcreate⟩
    | doublePrecisionFlop =>
        rcases exists_of_run_bind h with ⟨_, _, hcreate, _⟩
        exact ⟨_, known_events.2.2.1, available_of_create hcreate⟩
    | compInstr => exact ⟨_, known_events.2.2.2.2, available_of_create h⟩
    | sseFlop =>
        rcases exists_of_run_bind h with ⟨_, _, hsingle, _⟩
        rcases exists_of_run_bind hsingle with ⟨_, _, hcreate, _⟩
        exact ⟨_, known_events.1, available_of_create hcreate⟩
  rcases hfirst with ⟨events, hknown, event, hsome⟩
  exact ⟨event.pmu, onlyPresent_of_available hnodup hknown hsome⟩

/-- The calculator for both precisions adds the two others. -/
theorem sseCalculator_eq {pmu : String} (hnodup : presentPmus.Nodup)
    (h : OnlyPresent presentPmus pmu) (created : List Event) :
    ∃ scalar ∈ scalarSingleEvents, ∃ packed ∈ packedSingleEvents,
      ∃ scalarDouble packedDouble avx, DoubleEvents pmu scalarDouble packedDouble avx ∧
        (getOperationCountCalculator presentPmus .sseFlop).run created =
          .ok (.adding (singleTree K created.length)
              (doubleTree K (created.length + 2) (typeOf pmu)),
            created ++ scalar :: packed :: scalarDouble :: packedDouble :: avx) := by
  rcases singlePrecision_eq (K := K) hnodup h created with
    ⟨scalar, hscalar, packed, hpacked, heq⟩
  rcases doublePrecision_eq (K := K) hnodup h (created ++ [scalar, packed]) with
    ⟨scalarDouble, packedDouble, avx, hdouble, heq'⟩
  refine ⟨scalar, hscalar, packed, hpacked, scalarDouble, packedDouble, avx, hdouble, ?_⟩
  rw [getOperationCountCalculator, run_bind heq, run_bind heq', List.length_append,
    List.append_assoc]
  rfl

/-- There is a calculator exactly if one of the known units is present, and only one. -/
theorem getOperationCountCalculator_isOk_iff (hnodup : presentPmus.Nodup) (operation : Operation)
    (created : List Event) :
    (∃ result, (getOperationCountCalculator (K := K) presentPmus operation).run created =
      .ok result) ↔ ∃! pmu, pmu ∈ supported ∧ pmu ∈ presentPmus := by
  constructor
  · rintro ⟨result, h⟩
    rcases onlyPresent_of_run hnodup h with ⟨pmu, hknown, hiff⟩
    exact ⟨pmu, ⟨hknown, (hiff pmu hknown).mpr rfl⟩, fun other hother =>
      (hiff other hother.1).mp hother.2⟩
  · rintro ⟨pmu, ⟨hknown, hpresent⟩, hunique⟩
    have h : OnlyPresent presentPmus pmu := by
      refine ⟨hknown, fun other hother => ⟨fun h => hunique other ⟨hother, h⟩, ?_⟩⟩
      rintro rfl
      exact hpresent
    cases operation with
    | singlePrecisionFlop =>
        rcases singlePrecision_eq (K := K) hnodup h created with ⟨_, _, _, _, heq⟩
        exact ⟨_, heq⟩
    | doublePrecisionFlop =>
        rcases doublePrecision_eq (K := K) hnodup h created with ⟨_, _, _, _, heq⟩
        exact ⟨_, heq⟩
    | compInstr =>
        rcases exists_available hnodup h known_events.2.2.2.2 with ⟨event, _, _, hsome⟩
        exact ⟨_, create_eq hsome⟩
    | sseFlop =>
        rcases sseCalculator_eq (K := K) hnodup h created with
          ⟨_, _, _, _, _, _, _, _, heq⟩
        exact ⟨_, heq⟩

/-- On Ivy Bridge the processor is known, but none of the events. -/
theorem getOperationCountCalculator_isOk_iff_ivyBridge :
    (∃ result, (getOperationCountCalculator (K := ℚ) ["perf", "ivb"] .doublePrecisionFlop).run [] =
      .ok result) ↔ ∃! pmu, pmu ∈ supported ∧ pmu ∈ ["perf", "ivb"] :=
  getOperationCountCalculator_isOk_iff (by decide) .doublePrecisionFlop []

end Building

/-! ## What is measured -/

/-- Instructions that operate on floating point numbers, by the precision and the width of their
operands; the wide ones have 256 bits. -/
inductive Instruction
  | scalarSingle
  | packedSingle
  | wideSingle
  | scalarDouble
  | packedDouble
  | wideDouble
deriving DecidableEq

/-- The operations of an instruction that are of a kind. -/
def flops : Operation → Instruction → Nat
  | .singlePrecisionFlop, .scalarSingle | .sseFlop, .scalarSingle => 1
  | .singlePrecisionFlop, .packedSingle | .sseFlop, .packedSingle => 4
  | .singlePrecisionFlop, .wideSingle | .sseFlop, .wideSingle => 8
  | .doublePrecisionFlop, .scalarDouble | .sseFlop, .scalarDouble => 1
  | .doublePrecisionFlop, .packedDouble | .sseFlop, .packedDouble => 2
  | .doublePrecisionFlop, .wideDouble | .sseFlop, .wideDouble => 4
  | _, _ => 0

/-- What the events count while a thread executes instructions.  On one processor the packed
instructions include the scalar ones. -/
structure CountsAsDocumented (counts : Event → List Instruction → Nat) : Prop where
  scalarSingle : ∀ event ∈ scalarSingleEvents, ∀ thread,
    counts event thread = thread.count .scalarSingle
  packedSingle : ∀ event ∈ packedSingleEvents, ∀ thread,
    counts event thread = thread.count .packedSingle
  scalarDouble : ∀ event ∈ scalarDoubleEvents, ∀ thread,
    counts event thread = thread.count .scalarDouble
  packedDouble : ∀ event ∈ packedDoubleEvents, event.pmu ≠ "coreduo" → ∀ thread,
    counts event thread = thread.count .packedDouble
  packedDoubleYonah : ∀ event ∈ packedDoubleEvents, event.pmu = "coreduo" → ∀ thread,
    counts event thread = thread.count .packedDouble + thread.count .scalarDouble
  wideDouble : ∀ event ∈ avxEvents, ∀ thread, counts event thread = thread.count .wideDouble

/-- Each measurer has measured its event in each thread; the outputs are in any order. -/
structure Measured (K : Type) [Field K] (counts : Event → List Instruction → Nat)
    (created : List Event) (threads : List (List Instruction))
    (outputs : List (MeasurerOutput Nat PerfEventCount)) : Prop where
  known : ∀ output ∈ outputs, output.measurerUid < created.length
  complete : ∀ uid event, created[uid]? = some event →
    ((outputs.filter fun output => output.measurerUid = uid).map fun output =>
      (output.value.getScaledCount : K)).Perm (threads.map fun thread => (counts event thread : K))

/-- The operations that a sequence of instructions performs. -/
def operations (operation : Operation) (instructions : List Instruction) : Nat :=
  (instructions.map (flops operation)).sum

/-- The operations of single precision, told by the kinds of instructions. -/
theorem operations_single (instructions : List Instruction) :
    operations .singlePrecisionFlop instructions =
      instructions.count .scalarSingle + instructions.count .packedSingle * 4 +
        instructions.count .wideSingle * 8 := by
  induction instructions with
  | nil => rfl
  | cons instruction instructions ih =>
      simp only [operations, List.map_cons, List.sum_cons, List.count_cons] at ih ⊢
      rw [ih]
      cases instruction <;> simp [flops] <;> omega

/-- The operations of double precision, told by the kinds of instructions. -/
theorem operations_double (instructions : List Instruction) :
    operations .doublePrecisionFlop instructions =
      instructions.count .scalarDouble + instructions.count .packedDouble * 2 +
        instructions.count .wideDouble * 4 := by
  induction instructions with
  | nil => rfl
  | cons instruction instructions ih =>
      simp only [operations, List.map_cons, List.sum_cons, List.count_cons] at ih ⊢
      rw [ih]
      cases instruction <;> simp [flops] <;> omega

/-- The operations of both precisions are those of the two. -/
theorem operations_sse (instructions : List Instruction) :
    operations .sseFlop instructions =
      operations .singlePrecisionFlop instructions +
        operations .doublePrecisionFlop instructions := by
  have hflops : flops .sseFlop = fun instruction =>
      flops .singlePrecisionFlop instruction + flops .doublePrecisionFlop instruction := by
    funext instruction
    cases instruction <;> rfl
  rw [operations, hflops, List.sum_map_add]
  rfl

section Measuring

variable {K : Type} [Field K] {counts : Event → List Instruction → Nat} {created : List Event}
  {threads : List (List Instruction)} {outputs : List (MeasurerOutput Nat PerfEventCount)}
  {stats : DescriptiveStatistics K}

/-- The sum of the counts of all threads. -/
theorem leafValue_eq (hsum : ∀ values, stats.getSum values = values.sum)
    (hmeasured : Measured K counts created threads outputs) {uid : Nat} {event : Event}
    (huid : created[uid]? = some event) :
    leafValue stats outputs (leaf K uid) = ((threads.map (counts event)).sum : Nat) := by
  have hperm := hmeasured.complete uid event huid
  rw [Nat.cast_list_sum, List.map_map]
  calc
    leafValue stats outputs (leaf K uid) = stats.getSum _ := rfl
    _ = _ := (hsum _).trans hperm.sum_eq

/-- The value of a leaf is the number of the instructions its event counts. -/
theorem leafValue_count (hsum : ∀ values, stats.getSum values = values.sum)
    (hmeasured : Measured K counts created threads outputs) {uid : Nat} {event : Event}
    (huid : created[uid]? = some event) {instruction : Instruction}
    (hcount : ∀ thread, counts event thread = thread.count instruction) :
    leafValue stats outputs (leaf K uid) = (threads.flatten.count instruction : Nat) := by
  rw [leafValue_eq hsum hmeasured huid, List.count_flatten, funext hcount]

/-- Each measurer belongs to one leaf. -/
theorem result_eq (hthreads : threads ≠ []) (hmeasured : Measured K counts created threads outputs)
    {calculator : Calculator Nat PerfEventCount K}
    (huids : (calculator.leaves.map fun leaf => leaf.requiredMeasurer.uid).Perm
      (List.range created.length)) :
    calculator.getSingleResult stats outputs =
      .ok (calculator.eval (leafValue stats outputs)) := by
  refine getSingleResult_eq (huids.nodup_iff.mpr List.nodup_range) ⟨?_, ?_⟩
  · intro leaf hleaf
    have huid := List.mem_range.mp (huids.mem_iff.mp (List.mem_map_of_mem hleaf))
    have hperm := hmeasured.complete _ _ (List.getElem?_eq_getElem huid)
    have hne : (outputs.filter fun output =>
        output.measurerUid = leaf.requiredMeasurer.uid) ≠ [] := by
      intro hempty
      rw [hempty, List.map_nil, List.nil_perm, List.map_eq_nil_iff] at hperm
      exact hthreads hperm
    rcases List.exists_mem_of_ne_nil _ hne with ⟨output, houtput⟩
    exact ⟨output, by simpa using houtput⟩
  · intro output houtput
    have huid := huids.mem_iff.mpr (List.mem_range.mpr (hmeasured.known output houtput))
    rcases List.mem_map.mp huid with ⟨leaf, hleaf, heq⟩
    exact ⟨leaf, hleaf, heq.symm⟩

/-- The tree for single precision counts the scalar and four times the packed instructions. -/
theorem singleTree_eval (hsum : ∀ values, stats.getSum values = values.sum)
    (hcounts : CountsAsDocumented counts)
    (hmeasured : Measured K counts created threads outputs) {uid : Nat} {scalar packed : Event}
    (hscalar : scalar ∈ scalarSingleEvents) (hpacked : packed ∈ packedSingleEvents)
    (huid : created[uid]? = some scalar) (huid' : created[uid + 1]? = some packed) :
    (singleTree K uid).eval (leafValue stats outputs) =
      (threads.flatten.count .scalarSingle + threads.flatten.count .packedSingle * 4 : Nat) := by
  have hfirst := leafValue_count hsum hmeasured huid (hcounts.scalarSingle scalar hscalar)
  have hsecond := leafValue_count hsum hmeasured huid' (hcounts.packedSingle packed hpacked)
  simp only [singleTree, Calculator.adding, Calculator.eval, combineResult, hfirst, hsecond]
  push_cast
  rfl

/-- The counts of a processor without wide instructions lack nothing. -/
theorem doubleTree_eval (hsum : ∀ values, stats.getSum values = values.sum)
    (hcounts : CountsAsDocumented counts)
    (hmeasured : Measured K counts created threads outputs) {uid : Nat} {pmu : String}
    {scalar packed : Event} {avx : List Event} (before : List Event) (hpmu : pmu ∈ supported)
    (hdouble : DoubleEvents pmu scalar packed avx)
    (hcreated : created = before ++ scalar :: packed :: avx) (huid : uid = before.length)
    (hwide : .wideDouble ∈ threads.flatten → pmu = "snb" ∨ pmu = "snb_ep") :
    (doubleTree K uid (typeOf pmu)).eval (leafValue stats outputs) =
      (operations .doublePrecisionFlop threads.flatten : Nat) := by
  have hfirst : leafValue stats outputs (leaf K uid) =
      (threads.flatten.count .scalarDouble : Nat) :=
    leafValue_count hsum hmeasured (by simp [hcreated, huid])
      (hcounts.scalarDouble scalar hdouble.scalar_mem)
  have huid' : created[uid + 1]? = some packed := by simp [hcreated, huid]
  have hsecond : pmu ≠ "coreduo" → leafValue stats outputs (leaf K (uid + 1)) =
      (threads.flatten.count .packedDouble : Nat) := fun hold =>
    leafValue_count hsum hmeasured huid'
      (hcounts.packedDouble packed hdouble.packed_mem (hdouble.packed_pmu ▸ hold))
  have hnarrow : ¬(pmu = "snb" ∨ pmu = "snb_ep") → threads.flatten.count .wideDouble = 0 :=
    fun hold => List.count_eq_zero.mpr fun hmem => hold (hwide hmem)
  simp only [supported, List.mem_cons, List.not_mem_nil, or_false] at hpmu
  rw [operations_double]
  by_cases hnew : pmu = "snb" ∨ pmu = "snb_ep"
  · have hthird : leafValue stats outputs (leaf K (uid + 2)) =
        (threads.flatten.count .wideDouble : Nat) := by
      have hlength := hdouble.avx_length
      rw [if_pos hnew] at hlength
      rcases List.length_eq_one_iff.mp hlength with ⟨event, rfl⟩
      exact leafValue_count hsum hmeasured (by simp [hcreated, huid])
        (hcounts.wideDouble event (hdouble.avx_mem event List.mem_cons_self))
    have hpacked := hsecond (by rcases hnew with rfl | rfl <;> decide)
    have htree : doubleTree K uid (typeOf pmu) = doubleTree K uid .sandyBridge := by
      rcases hnew with rfl | rfl <;> rfl
    rw [htree]
    simp only [doubleTree, Calculator.adding, Calculator.eval, combineResult, hfirst, hpacked,
      hthird]
    push_cast
    ring
  · rw [hnarrow hnew]
    rcases hpmu with rfl | rfl | hpmu
    · -- the scalar instructions that are counted twice are subtracted
      have hboth : leafValue stats outputs (leaf K (uid + 1)) =
          (threads.flatten.count .packedDouble + threads.flatten.count .scalarDouble : Nat) := by
        rw [leafValue_eq hsum hmeasured huid', funext fun thread =>
          hcounts.packedDoubleYonah packed hdouble.packed_mem hdouble.packed_pmu thread,
          List.sum_map_add, List.count_flatten, List.count_flatten]
      simp only [typeOf, doubleTree, Calculator.subtracting, Calculator.eval, combineResult,
        hfirst, hboth]
      push_cast
      ring
    · simp only [typeOf, doubleTree, Calculator.adding, Calculator.eval, combineResult, hfirst,
        hsecond (by decide)]
      push_cast
      ring
    · exact absurd hpmu hnew

/-- The tree for double precision reads each measurer that was created for it once. -/
theorem doubleTree_uids {pmu : String} {scalar packed : Event} {avx : List Event}
    (hpmu : pmu ∈ supported) (hdouble : DoubleEvents pmu scalar packed avx) (uid : Nat) :
    ((doubleTree K uid (typeOf pmu)).leaves.map fun leaf => leaf.requiredMeasurer.uid).Perm
      (List.range' uid (avx.length + 2)) := by
  have hwidth : ([uid + 2, uid, uid + 1] : List Nat).Perm (List.range' uid 3) :=
    (List.Perm.swap uid (uid + 2) [uid + 1]).trans ((List.Perm.swap (uid + 1) (uid + 2) []).cons uid)
  have hlength := hdouble.avx_length
  simp only [supported, List.mem_cons, List.not_mem_nil, or_false] at hpmu
  rcases hpmu with rfl | rfl | rfl | rfl
  · rw [hlength]
    exact List.Perm.swap uid (uid + 1) []
  · rw [hlength]
    exact List.Perm.refl _
  · rw [hlength]
    exact hwidth
  · rw [hlength]
    exact hwidth

/-- The calculator gives the number of operations that all threads have executed, except that
wide instructions of single precision are not counted. -/
theorem getSingleResult_iff_no_wide_single [CharZero K]
    (hsum : ∀ values, stats.getSum values = values.sum) (hcounts : CountsAsDocumented counts)
    {presentPmus : List String} (hnodup : presentPmus.Nodup) {operation : Operation}
    (hoperation : operation ≠ .compInstr) {calculator : Calculator Nat PerfEventCount K}
    (hbuilt : (getOperationCountCalculator presentPmus operation).run [] =
      .ok (calculator, created))
    (hwide : .wideDouble ∈ threads.flatten → "snb" ∈ presentPmus ∨ "snb_ep" ∈ presentPmus)
    (hthreads : threads ≠ []) (hmeasured : Measured K counts created threads outputs) :
    calculator.getSingleResult stats outputs =
        .ok (operations operation threads.flatten : Nat) ↔
      operation = .doublePrecisionFlop ∨ .wideSingle ∉ threads.flatten := by
  rcases onlyPresent_of_run hnodup hbuilt with ⟨pmu, h⟩
  have hwidePmu : .wideDouble ∈ threads.flatten → pmu = "snb" ∨ pmu = "snb_ep" := by
    intro hmem
    rcases hwide hmem with hpresent | hpresent
    · exact Or.inl ((h.iff "snb" (by decide)).mp hpresent).symm
    · exact Or.inr ((h.iff "snb_ep" (by decide)).mp hpresent).symm
  have hcount : ∀ m n : Nat, (.ok (m : K) : Except Throwable K) = .ok (n : K) ↔ m = n := by
    intro m n
    rw [Except.ok.injEq, Nat.cast_inj]
  cases operation with
  | compInstr => exact absurd rfl hoperation
  | singlePrecisionFlop =>
      rcases singlePrecision_eq (K := K) hnodup h [] with
        ⟨scalar, hscalar, packed, hpacked, heq⟩
      cases hbuilt.symm.trans heq
      rw [result_eq hthreads hmeasured (List.Perm.refl _),
        singleTree_eval hsum hcounts hmeasured hscalar hpacked rfl rfl, hcount, operations_single,
        ← List.count_eq_zero]
      simp
  | doublePrecisionFlop =>
      rcases doublePrecision_eq (K := K) hnodup h [] with
        ⟨scalar, packed, avx, hdouble, heq⟩
      cases hbuilt.symm.trans heq
      have huids := doubleTree_uids (K := K) h.mem_supported hdouble 0
      rw [← List.range_eq_range'] at huids
      have hvalue : (doubleTree K 0 (typeOf pmu)).eval (leafValue stats outputs) = _ :=
        doubleTree_eval hsum hcounts hmeasured [] h.mem_supported hdouble rfl rfl hwidePmu
      change (doubleTree K 0 (typeOf pmu)).getSingleResult stats outputs = _ ↔ _
      rw [result_eq hthreads hmeasured huids, hvalue]
      simp
  | sseFlop =>
      rcases sseCalculator_eq (K := K) hnodup h [] with
        ⟨scalar, hscalar, packed, hpacked, scalarDouble, packedDouble, avx, hdouble, heq⟩
      cases hbuilt.symm.trans heq
      have huids := (doubleTree_uids (K := K) h.mem_supported hdouble 2).append_left [0, 1]
      have hrange : [0, 1] ++ List.range' 2 (avx.length + 2) = List.range (avx.length + 4) := by
        rw [List.range_eq_range']
        rfl
      rw [hrange] at huids
      have hsingleValue : (singleTree K 0).eval (leafValue stats outputs) = _ :=
        singleTree_eval hsum hcounts hmeasured hscalar hpacked rfl rfl
      have hdoubleValue : (doubleTree K 2 (typeOf pmu)).eval (leafValue stats outputs) = _ :=
        doubleTree_eval hsum hcounts hmeasured [scalar, packed] h.mem_supported hdouble rfl rfl
          hwidePmu
      have hresult : (Calculator.adding (singleTree K 0)
          (doubleTree K 2 (typeOf pmu))).getSingleResult stats outputs = .ok _ :=
        result_eq hthreads hmeasured huids
      change (Calculator.adding (singleTree K 0)
        (doubleTree K 2 (typeOf pmu))).getSingleResult stats outputs = _ ↔ _
      rw [hresult]
      change (Except.ok ((singleTree K 0).eval (leafValue stats outputs) +
        (doubleTree K 2 (typeOf pmu)).eval (leafValue stats outputs)) : Except Throwable K) = _ ↔ _
      rw [hsingleValue, hdoubleValue, ← Nat.cast_add, hcount, operations_sse, operations_single,
        ← List.count_eq_zero]
      simp

/-- Counts on each of the processors. -/
def documentedCounts (event : Event) (thread : List Instruction) : Nat :=
  if event ∈ scalarSingleEvents then thread.count .scalarSingle
  else if event ∈ packedSingleEvents then thread.count .packedSingle
  else if event ∈ scalarDoubleEvents then thread.count .scalarDouble
  else if event ∈ packedDoubleEvents then
    thread.count .packedDouble + if event.pmu = "coreduo" then thread.count .scalarDouble else 0
  else thread.count .wideDouble

/-- The documented counts are what the documentation says. -/
theorem countsAsDocumented_documentedCounts : CountsAsDocumented documentedCounts where
  scalarSingle event hevent thread := if_pos hevent
  packedSingle event hevent thread := by
    have hdistinct : ∀ event ∈ packedSingleEvents, event ∉ scalarSingleEvents := by decide
    rw [documentedCounts, if_neg (hdistinct event hevent), if_pos hevent]
  scalarDouble event hevent thread := by
    have hdistinct : ∀ event ∈ scalarDoubleEvents,
        event ∉ scalarSingleEvents ∧ event ∉ packedSingleEvents := by decide
    rw [documentedCounts, if_neg (hdistinct event hevent).1, if_neg (hdistinct event hevent).2,
      if_pos hevent]
  packedDouble event hevent hpmu thread := by
    have hdistinct : ∀ event ∈ packedDoubleEvents, event ∉ scalarSingleEvents ∧
        event ∉ packedSingleEvents ∧ event ∉ scalarDoubleEvents := by decide
    rw [documentedCounts, if_neg (hdistinct event hevent).1, if_neg (hdistinct event hevent).2.1,
      if_neg (hdistinct event hevent).2.2, if_pos hevent, if_neg hpmu, Nat.add_zero]
  packedDoubleYonah event hevent hpmu thread := by
    have hdistinct : ∀ event ∈ packedDoubleEvents, event ∉ scalarSingleEvents ∧
        event ∉ packedSingleEvents ∧ event ∉ scalarDoubleEvents := by decide
    rw [documentedCounts, if_neg (hdistinct event hevent).1, if_neg (hdistinct event hevent).2.1,
      if_neg (hdistinct event hevent).2.2, if_pos hevent, if_pos hpmu]
  wideDouble event hevent thread := by
    have hdistinct : ∀ event ∈ avxEvents, event ∉ scalarSingleEvents ∧
        event ∉ packedSingleEvents ∧ event ∉ scalarDoubleEvents ∧
          event ∉ packedDoubleEvents := by decide
    rw [documentedCounts, if_neg (hdistinct event hevent).1, if_neg (hdistinct event hevent).2.1,
      if_neg (hdistinct event hevent).2.2.1, if_neg (hdistinct event hevent).2.2.2]

/-- The events of one processor, in the order in which they are looked for. -/
def sandyBridgeEvents : List Event :=
  [⟨"snb", "FP_COMP_OPS_EXE:SSE_FP_SCALAR_SINGLE"⟩, ⟨"snb", "FP_COMP_OPS_EXE:SSE_PACKED_SINGLE"⟩,
    ⟨"snb", "FP_COMP_OPS_EXE:SSE_SCALAR_DOUBLE"⟩, ⟨"snb", "FP_COMP_OPS_EXE:SSE_FP_PACKED_DOUBLE"⟩,
    ⟨"snb", "SIMD_FP_256:PACKED_DOUBLE"⟩]

/-- Two threads; each event has been counting all the time. -/
def twoThreads : List (List Instruction) :=
  [[.scalarSingle, .packedDouble], [.wideSingle, .wideDouble, .packedDouble]]

/-- The outputs of the measurers of both threads, with events that counted all the time. -/
def twoThreadsOutputs : List (MeasurerOutput Nat PerfEventCount) :=
  twoThreads.flatMap fun thread =>
    sandyBridgeEvents.zipIdx.map fun (event, uid) => ⟨uid, ⟨documentedCounts event thread, 7, 7⟩⟩

/-- The two threads execute no wide instruction of single precision. -/
theorem getSingleResult_iff_no_wide_single_two :
    (Calculator.adding (singleTree ℚ 0) (doubleTree ℚ 2 .sandyBridge)).getSingleResult
        { exactStatistics with getSum := List.sum } twoThreadsOutputs =
          .ok (operations .sseFlop twoThreads.flatten : Nat) ↔
      Operation.sseFlop = .doublePrecisionFlop ∨ .wideSingle ∉ twoThreads.flatten := by
  have hpmus : ["perf", "snb"].Nodup := by decide
  have hbuilt : (getOperationCountCalculator ["perf", "snb"] .sseFlop).run [] =
      .ok (Calculator.adding (singleTree ℚ 0) (doubleTree ℚ 2 .sandyBridge), sandyBridgeEvents) :=
    rfl
  refine getSingleResult_iff_no_wide_single (fun _ => rfl) countsAsDocumented_documentedCounts
    hpmus (by decide) hbuilt (by decide) (by decide) ⟨by decide, ?_⟩
  intro uid event huid
  match uid, huid with
  | 0, rfl => exact List.Perm.of_eq (by decide +kernel)
  | 1, rfl => exact List.Perm.of_eq (by decide +kernel)
  | 2, rfl => exact List.Perm.of_eq (by decide +kernel)
  | 3, rfl => exact List.Perm.of_eq (by decide +kernel)
  | 4, rfl => exact List.Perm.of_eq (by decide +kernel)

end Measuring

end OperationCounts
end Quantities
end Roofline
