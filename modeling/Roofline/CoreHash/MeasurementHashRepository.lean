import Roofline.Java.Throwable
import Roofline.Library.Runs
import Roofline.Library.ClassMap

/-!
# Measurement hashes and core hashes

The measurement driver remembers which measurements were found to need the same
measuring core.  {lit}`MeasurementHashRepository` keeps the answer in three maps:
from cores to their measurements, from measurements to cores, and from core
hashes to cores.  This file models the class with its object identities, its
exceptions and the state an exception leaves behind.

Main results:

- Theorem {lit}`moveMeasurements_ok`: a loop that ends without an exception
  redirects one core to another and keeps the maps inverse to each other.
- Theorems {lit}`setHaveEqualCores_ok` and {lit}`setCoreHash_ok`: the ways in
  which the two methods return, and what each has changed.
-/

namespace Roofline

open ClassMap

/-- The identity of a {lit}`Core` object, numbered by creation. -/
abbrev CoreRef := Nat

variable {MeasurementHash CoreHash : Type}

/-- The fields of the repository, and the heap of {lit}`Core` objects it creates. -/
structure MeasurementHashRepository (MeasurementHash CoreHash : Type) where
  nextCore : CoreRef
  coreHash : CoreRef → Option CoreHash
  coreToMeasurement : CoreRef → Option (List MeasurementHash)
  measurementToCore : MeasurementHash → Option CoreRef
  coreHashToCore : CoreHash → Option CoreRef

namespace MeasurementHashRepository

/-- A repository as it is constructed. -/
def empty : MeasurementHashRepository MeasurementHash CoreHash where
  nextCore := 0
  coreHash _ := none
  coreToMeasurement _ := none
  measurementToCore _ := none
  coreHashToCore _ := none

section Methods

variable [DecidableEq MeasurementHash] [DecidableEq CoreHash]
variable (repo : MeasurementHashRepository MeasurementHash CoreHash)

/-! ## The collections used by the class -/

/-- {lit}`MultiValueMap.put`: append to the collection of the key, creating it if needed. -/
def putMeasurement (core : CoreRef) (measurement : MeasurementHash) :
    CoreRef → Option (List MeasurementHash) :=
  Function.update repo.coreToMeasurement core
    (some ((repo.coreToMeasurement core).getD [] ++ [measurement]))

/-- {lit}`MultiValueMap.size` of a key. -/
def sizeOfCore (core : CoreRef) : Nat :=
  ((repo.coreToMeasurement core).getD []).length

/-- {lit}`coreToMeasurement.put` followed by {lit}`measurementToCore.put`. -/
def associate (core : CoreRef) (measurement : MeasurementHash) :
    MeasurementHashRepository MeasurementHash CoreHash :=
  { repo with
    coreToMeasurement := repo.putMeasurement core measurement
    measurementToCore := Function.update repo.measurementToCore measurement (some core) }

/-- {lit}`coreToMeasurement.remove`. -/
def removeCore (core : CoreRef) : MeasurementHashRepository MeasurementHash CoreHash :=
  { repo with coreToMeasurement := Function.update repo.coreToMeasurement core none }

/-- {lit}`new Core()`: a fresh object whose core hash is null. -/
def newCore : MeasurementHashRepository MeasurementHash CoreHash :=
  { repo with nextCore := repo.nextCore + 1 }

/-- The loop which moves all measurements of one core to another, followed by the
removal of the emptied core.  The iterator notices that its own collection has
grown as soon as source and target are the same core. -/
def moveMeasurements (target source : CoreRef) :
    MethodResult (MeasurementHashRepository MeasurementHash CoreHash) Unit :=
  match repo.coreToMeasurement source with
  | none => (.error .nullPointerException, repo)
  | some measurements =>
      if source = target then
        match measurements with
        | [] => (.ok (), repo.removeCore source)
        | measurement :: _ =>
            (.error .concurrentModificationException, repo.associate target measurement)
      else
        let moved := measurements.foldl (fun r m => r.associate target m) repo
        (.ok (), moved.removeCore source)

/-! ## The methods of the class -/

/-- Merges {lit}`coreB` into {lit}`coreA`. -/
def mergeSecondCoreIntoFirstCore (coreA coreB : CoreRef) :
    MethodResult (MeasurementHashRepository MeasurementHash CoreHash) Unit :=
  match repo.coreHash coreB with
  | none => repo.moveMeasurements coreA coreB
  | some hashB =>
      if (repo.coreHash coreA).isSome ∧ repo.coreHash coreA ≠ some hashB then
        (.error (.error "measurements set to equal, but core hashes differ"), repo)
      else
        { repo with
          coreHash := Function.update repo.coreHash coreA (some hashB) }.moveMeasurements
            coreA coreB

/-- Tells the repository that the cores of the two measurements are equal. -/
def setHaveEqualCores (a b : MeasurementHash) :
    MethodResult (MeasurementHashRepository MeasurementHash CoreHash) Unit :=
  match repo.measurementToCore a, repo.measurementToCore b with
  | none, none =>
      (.ok (), (repo.newCore.associate repo.nextCore a).associate repo.nextCore b)
  | none, some coreB => (.ok (), repo.associate coreB a)
  | some coreA, none => (.ok (), repo.associate coreA b)
  | some coreA, some coreB =>
      if coreA = coreB then
        (.ok (), repo)
      else if repo.sizeOfCore coreA > repo.sizeOfCore coreB then
        repo.mergeSecondCoreIntoFirstCore coreA coreB
      else
        repo.mergeSecondCoreIntoFirstCore coreB coreA

/-- Returns if the cores of two measurements are equal. -/
def areCoresEqual (a b : MeasurementHash) : Bool :=
  match repo.measurementToCore a, repo.measurementToCore b with
  | some coreA, some coreB => coreA == coreB
  | _, _ => false

/-- Whether the measurement occurs in the repository. -/
def hasMeasurementBeenSeen (hash : MeasurementHash) : Bool :=
  (repo.measurementToCore hash).isSome

/-- The core hash of a measurement; null if the measurement has not been seen or
its core hash is not known. -/
def getCoreHash (measurementHash : MeasurementHash) : Option CoreHash :=
  match repo.measurementToCore measurementHash with
  | none => none
  | some core => repo.coreHash core

/-- The first part of {lit}`setCoreHash`: the core of the measurement, created if
the measurement is unknown. -/
def coreForMeasurement (measurementHash : MeasurementHash) :
    CoreRef × MeasurementHashRepository MeasurementHash CoreHash :=
  match repo.measurementToCore measurementHash with
  | some core => (core, repo)
  | none => (repo.nextCore, repo.newCore.associate repo.nextCore measurementHash)

/-- Sets the core hash of a measurement, optionally merging cores. -/
def setCoreHash (measurementHash : MeasurementHash) (coreHash : CoreHash) :
    MethodResult (MeasurementHashRepository MeasurementHash CoreHash) Unit :=
  let (coreForMeasurement, repo) := repo.coreForMeasurement measurementHash
  match repo.coreHashToCore coreHash with
  | none =>
      (.ok (), { repo with
        coreHash := Function.update repo.coreHash coreForMeasurement (some coreHash)
        coreHashToCore :=
          Function.update repo.coreHashToCore coreHash (some coreForMeasurement) })
  | some coreForHash => repo.moveMeasurements coreForHash coreForMeasurement

/-! ## Sequences of calls -/

/-- The two methods that change the repository. -/
inductive Call (MeasurementHash CoreHash : Type) where
  | setHaveEqualCores (a b : MeasurementHash)
  | setCoreHash (measurementHash : MeasurementHash) (coreHash : CoreHash)
deriving DecidableEq, Repr

/-- Perform a call. -/
def invoke (call : Call MeasurementHash CoreHash) :
    MethodResult (MeasurementHashRepository MeasurementHash CoreHash) Unit :=
  match call with
  | .setHaveEqualCores a b => repo.setHaveEqualCores a b
  | .setCoreHash measurementHash coreHash => repo.setCoreHash measurementHash coreHash

/-- A call that does not throw, as a step to the repository it leaves. -/
def step (call : Call MeasurementHash CoreHash) :
    Except Throwable (MeasurementHashRepository MeasurementHash CoreHash) :=
  match repo.invoke call with
  | (.ok (), repo') => .ok repo'
  | (.error e, _) => .error e

/-- A step is a call that does not throw. -/
theorem step_eq_ok_iff {repo repo' : MeasurementHashRepository MeasurementHash CoreHash}
    {call : Call MeasurementHash CoreHash} :
    repo.step call = .ok repo' ↔ repo.invoke call = (.ok (), repo') := by
  unfold step
  rcases repo.invoke call with ⟨result | ⟨⟨⟩⟩, left⟩ <;> simp

end Methods

/-! ## Well-formed repositories -/

/-- The map from cores to measurements is the inverse of the map from
measurements to cores, no collection is empty, and object identities from
{lit}`nextCore` on are unused. -/
structure WellFormed (repo : MeasurementHashRepository MeasurementHash CoreHash) :
    Prop where
  mem_iff : ∀ core measurement,
    measurement ∈ (repo.coreToMeasurement core).getD [] ↔
      repo.measurementToCore measurement = some core
  ne_nil : ∀ core, repo.coreToMeasurement core ≠ some []
  unused : ∀ core, repo.nextCore ≤ core → repo.coreToMeasurement core = none
  unused_hash : ∀ core, repo.nextCore ≤ core → repo.coreHash core = none
  hash_used : ∀ hash core, repo.coreHashToCore hash = some core → core < repo.nextCore

/-- An empty repository is well-formed. -/
theorem empty_wellFormed :
    (empty : MeasurementHashRepository MeasurementHash CoreHash).WellFormed where
  mem_iff := by simp [empty]
  ne_nil := by simp [empty]
  unused := by simp [empty]
  unused_hash := by simp [empty]
  hash_used := by simp [empty]

section WellFormed

variable {repo : MeasurementHashRepository MeasurementHash CoreHash}

/-- A core has been emptied by a merge exactly when no measurement has it. -/
theorem WellFormed.coreToMeasurement_eq_none_iff (hwf : repo.WellFormed) (core : CoreRef) :
    repo.coreToMeasurement core = none ↔
      ∀ measurement, repo.measurementToCore measurement ≠ some core := by
  constructor
  · intro hnone measurement hm
    have hmem := (hwf.mem_iff core measurement).mpr hm
    simp [hnone] at hmem
  · intro hall
    cases hcore : repo.coreToMeasurement core with
    | none => rfl
    | some measurements =>
        cases measurements with
        | nil => exact absurd hcore (hwf.ne_nil core)
        | cons measurement rest =>
            refine absurd ((hwf.mem_iff core measurement).mp ?_) (hall measurement)
            simp [hcore]

/-- The core of a measurement has been created. -/
theorem WellFormed.core_lt (hwf : repo.WellFormed) {measurement : MeasurementHash}
    {core : CoreRef} (hm : repo.measurementToCore measurement = some core) :
    core < repo.nextCore := by
  by_contra hle
  have hnone := hwf.unused core (Nat.le_of_not_lt hle)
  exact (hwf.coreToMeasurement_eq_none_iff core).mp hnone measurement hm

/-- No measurement has the core that would be created next. -/
theorem WellFormed.nextCore_unused (hwf : repo.WellFormed) (measurement : MeasurementHash) :
    repo.measurementToCore measurement ≠ some repo.nextCore :=
  (hwf.coreToMeasurement_eq_none_iff _).mp (hwf.unused _ (Nat.le_refl _)) measurement

/-- A core that is removed has no measurements. -/
@[simp] theorem removeCore_self (core : CoreRef) :
    (repo.removeCore core).coreToMeasurement core = none := by
  simp [removeCore]

/-- The other cores keep theirs. -/
theorem removeCore_of_ne {c core : CoreRef} (hne : c ≠ core) :
    (repo.removeCore core).coreToMeasurement c = repo.coreToMeasurement c := by
  simp [removeCore, hne]

/-- Creating a core keeps the maps inverse. -/
theorem newCore_wellFormed (hwf : repo.WellFormed) : repo.newCore.WellFormed where
  mem_iff := hwf.mem_iff
  ne_nil := hwf.ne_nil
  unused core hcore := hwf.unused core (Nat.le_of_succ_le hcore)
  unused_hash core hcore := hwf.unused_hash core (Nat.le_of_succ_le hcore)
  hash_used hash core hcore := Nat.lt_succ_of_lt (hwf.hash_used hash core hcore)

/-- Setting the hash of a core keeps the maps inverse. -/
theorem setCoreHashField_wellFormed {repo : MeasurementHashRepository MeasurementHash CoreHash}
    (hwf : repo.WellFormed) {core : CoreRef} (hcore : core < repo.nextCore) (hash : CoreHash) :
    WellFormed { repo with coreHash := Function.update repo.coreHash core (some hash) } where
  mem_iff := hwf.mem_iff
  ne_nil := hwf.ne_nil
  unused := hwf.unused
  unused_hash c hle := by
    have hne : c ≠ core := by
      rintro rfl
      exact absurd hcore (Nat.not_lt.mpr hle)
    simpa [hne] using hwf.unused_hash c hle
  hash_used := hwf.hash_used

variable [DecidableEq MeasurementHash]

/-- Giving a measurement a core creates no core. -/
@[simp] theorem associate_nextCore (core : CoreRef) (measurement : MeasurementHash) :
    (repo.associate core measurement).nextCore = repo.nextCore :=
  rfl

/-- Giving a measurement a core sets no core hash. -/
@[simp] theorem associate_coreHash (core : CoreRef) (measurement : MeasurementHash) :
    (repo.associate core measurement).coreHash = repo.coreHash :=
  rfl

/-- Giving a measurement a core leaves the cores of the core hashes. -/
@[simp] theorem associate_coreHashToCore (core : CoreRef) (measurement : MeasurementHash) :
    (repo.associate core measurement).coreHashToCore = repo.coreHashToCore :=
  rfl

/-- The measurement has the core it was given. -/
@[simp] theorem associate_measurementToCore (core : CoreRef) (measurement : MeasurementHash) :
    (repo.associate core measurement).measurementToCore =
      Function.update repo.measurementToCore measurement (some core) :=
  rfl

/-- Giving an unknown measurement a core that exists keeps the maps inverse. -/
theorem associate_wellFormed (hwf : repo.WellFormed) {core : CoreRef}
    {measurement : MeasurementHash} (hcore : core < repo.nextCore)
    (hnew : repo.measurementToCore measurement = none ∨
      repo.measurementToCore measurement = some core) :
    (repo.associate core measurement).WellFormed where
  mem_iff c x := by
    have hold := hwf.mem_iff c x
    by_cases hc : c = core
    · subst hc
      by_cases hx : x = measurement
      · simp [associate, putMeasurement, hx]
      · simpa [associate, putMeasurement, hx] using hold
    · by_cases hx : x = measurement
      · subst hx
        rcases hnew with hnew | hnew <;>
          simpa [associate, putMeasurement, hc, hnew, Ne.symm hc, eq_comm] using hold
      · simpa [associate, putMeasurement, hc, hx] using hold
  ne_nil c := by
    by_cases hc : c = core
    · simp [associate, putMeasurement, hc]
    · simpa [associate, putMeasurement, hc] using hwf.ne_nil c
  unused c hle := by
    have hc : c ≠ core := by
      rintro rfl
      exact absurd hcore (Nat.not_lt.mpr hle)
    simpa [associate, putMeasurement, hc] using hwf.unused c hle
  unused_hash := hwf.unused_hash
  hash_used := hwf.hash_used

/-! ## The moving loop -/

/-- What the moving loop has done to the two maps after some iterations. -/
theorem foldl_associate (target : CoreRef) (measurements : List MeasurementHash)
    (repo : MeasurementHashRepository MeasurementHash CoreHash) :
    let moved := measurements.foldl (fun r m => r.associate target m) repo
    moved.nextCore = repo.nextCore ∧ moved.coreHash = repo.coreHash ∧
      moved.coreHashToCore = repo.coreHashToCore ∧
      (∀ x, moved.measurementToCore x =
        if x ∈ measurements then some target else repo.measurementToCore x) ∧
      (∀ c, (moved.coreToMeasurement c).getD [] =
        (repo.coreToMeasurement c).getD [] ++ if c = target then measurements else []) ∧
      ∀ c, moved.coreToMeasurement c = none ↔
        repo.coreToMeasurement c = none ∧ (c = target → measurements = []) := by
  induction measurements generalizing repo with
  | nil => simp
  | cons m rest ih =>
      rcases ih (repo.associate target m) with ⟨hnext, hhash, hto, hmtc, hctm, hnone⟩
      refine ⟨hnext, hhash, hto, ?_, ?_, ?_⟩
      · intro x
        rw [List.foldl_cons, hmtc]
        by_cases hx : x = m <;> by_cases hrest : x ∈ rest <;> simp [hx, hrest]
      · intro c
        rw [List.foldl_cons, hctm]
        by_cases hc : c = target <;> simp [associate, putMeasurement, hc]
      · intro c
        rw [List.foldl_cons, hnone]
        by_cases hc : c = target <;> simp [associate, putMeasurement, hc]

/-- After the loop and the removal of the emptied core the maps are inverse again. -/
theorem foldl_associate_wellFormed
    {repo : MeasurementHashRepository MeasurementHash CoreHash} {target source : CoreRef}
    {measurements : List MeasurementHash} (hwf : repo.WellFormed)
    (htarget : target < repo.nextCore) (hne : source ≠ target)
    (hsource : repo.coreToMeasurement source = some measurements) :
    let moved := measurements.foldl (fun r m => r.associate target m) repo
    (moved.removeCore source).WellFormed := by
  intro moved
  have hmem : ∀ x, x ∈ measurements ↔ repo.measurementToCore x = some source := by
    intro x
    simpa [hsource] using hwf.mem_iff source x
  rcases foldl_associate target measurements repo with
    ⟨hnext, hhash, hto, hmtc, hctm, hnone⟩
  change moved.nextCore = _ at hnext
  change moved.coreHash = _ at hhash
  change moved.coreHashToCore = _ at hto
  refine ⟨?_, ?_, ?_, ?_, ?_⟩
  · intro c x
    change _ ↔ moved.measurementToCore x = some c
    rw [hmtc x]
    by_cases hcs : c = source
    · subst hcs
      rw [removeCore_self]
      by_cases hx : x ∈ measurements
      · simp [hx, Ne.symm hne]
      · simp [hx, mt (hmem x).mpr hx]
    · rw [removeCore_of_ne hcs, hctm c, List.mem_append, hwf.mem_iff c x]
      by_cases hx : x ∈ measurements
      · by_cases hct : c = target
        · simp [hx, hct]
        · have hold : repo.measurementToCore x = some source := (hmem x).mp hx
          simp [hx, hct, hold, Ne.symm hcs, Ne.symm hct]
      · simp [hx]
  · intro c
    by_cases hcs : c = source
    · simp [hcs]
    · rw [removeCore_of_ne hcs]
      intro hnil
      have hc := hctm c
      rw [hnil] at hc
      have hold : repo.coreToMeasurement c = none := by
        cases hcase : repo.coreToMeasurement c with
        | none => rfl
        | some l =>
            have hl : l = [] := by
              rw [hcase] at hc
              exact (List.append_eq_nil_iff.mp hc.symm).1
            exact absurd (hl ▸ hcase) (hwf.ne_nil c)
      have hempty : c = target → measurements = [] := by
        intro hct
        rw [if_pos hct] at hc
        exact (List.append_eq_nil_iff.mp hc.symm).2
      rw [(hnone c).mpr ⟨hold, hempty⟩] at hnil
      simp at hnil
  · intro c hle
    by_cases hcs : c = source
    · simp [hcs]
    · have hct : c ≠ target := by
        rintro rfl
        exact absurd htarget (Nat.not_lt.mpr (hnext ▸ hle))
      rw [removeCore_of_ne hcs]
      exact (hnone c).mpr ⟨hwf.unused c (hnext ▸ hle), fun h => absurd h hct⟩
  · intro c hle
    exact hhash.symm ▸ hwf.unused_hash c (hnext ▸ hle)
  · intro hash c hc
    exact hnext.symm ▸ hwf.hash_used hash c (hto ▸ hc)

/-- A successful loop redirects the source core to the target core. -/
theorem moveMeasurements_ok {repo repo' : MeasurementHashRepository MeasurementHash CoreHash}
    {target source : CoreRef} (hwf : repo.WellFormed) (htarget : target < repo.nextCore)
    (hmove : repo.moveMeasurements target source = (.ok (), repo')) :
    source ≠ target ∧ repo'.WellFormed ∧
      repo'.measurementToCore = redirect repo.measurementToCore source target ∧
      repo'.coreHash = repo.coreHash ∧ repo'.coreHashToCore = repo.coreHashToCore := by
  unfold moveMeasurements at hmove
  cases hsource : repo.coreToMeasurement source with
  | none => simp [hsource] at hmove
  | some measurements =>
      by_cases hsame : source = target
      · cases measurements with
        | nil => exact absurd hsource (hwf.ne_nil source)
        | cons m rest =>
            rw [hsource] at hmove
            simp [hsame] at hmove
      · rw [hsource] at hmove
        simp only [hsame, if_false, Prod.mk.injEq, true_and] at hmove
        have hwf' := foldl_associate_wellFormed hwf htarget hsame hsource
        rcases foldl_associate target measurements repo with ⟨_, hhash, hto, hmtc, _, _⟩
        subst hmove
        refine ⟨hsame, hwf', ?_, hhash, hto⟩
        funext x
        apply (hmtc x).trans
        have hmem : x ∈ measurements ↔ repo.measurementToCore x = some source := by
          simpa [hsource] using hwf.mem_iff source x
        simp only [hmem, redirect]

/-- The loop succeeds on two different cores when the source core has measurements. -/
theorem moveMeasurements_isOk {repo : MeasurementHashRepository MeasurementHash CoreHash}
    {target source : CoreRef} (hwf : repo.WellFormed) (hne : source ≠ target)
    {measurement : MeasurementHash}
    (hm : repo.measurementToCore measurement = some source) :
    ∃ repo', repo.moveMeasurements target source = (.ok (), repo') := by
  unfold moveMeasurements
  cases hsource : repo.coreToMeasurement source with
  | none =>
      exact absurd hm ((hwf.coreToMeasurement_eq_none_iff source).mp hsource measurement)
  | some measurements =>
      simp [hne]

/-! ## What a call that does not throw has done -/

/-- The core hash of the merged core: taken over from the emptied core if that
one had a core hash, and then both agree. -/
def MergedCoreHash (repo repo' : MeasurementHashRepository MeasurementHash CoreHash)
    (target source : CoreRef) : Prop :=
  (repo.coreHash source = none ∧ repo'.coreHash = repo.coreHash) ∨
    ∃ hash, repo.coreHash source = some hash ∧
      (repo.coreHash target = none ∨ repo.coreHash target = some hash) ∧
      repo'.coreHash = Function.update repo.coreHash target (some hash)

variable [DecidableEq CoreHash]

/-- What a merge that does not throw has done. -/
theorem mergeSecondCoreIntoFirstCore_ok
    {repo repo' : MeasurementHashRepository MeasurementHash CoreHash} {coreA coreB : CoreRef}
    (hwf : repo.WellFormed) (hA : coreA < repo.nextCore)
    (hmerge : repo.mergeSecondCoreIntoFirstCore coreA coreB = (.ok (), repo')) :
    repo'.WellFormed ∧ repo'.coreHashToCore = repo.coreHashToCore ∧ coreB ≠ coreA ∧
      repo'.measurementToCore = redirect repo.measurementToCore coreB coreA ∧
      MergedCoreHash repo repo' coreA coreB := by
  unfold mergeSecondCoreIntoFirstCore at hmerge
  cases hB : repo.coreHash coreB with
  | none =>
      simp only [hB] at hmerge
      rcases moveMeasurements_ok hwf hA hmerge with ⟨hne, hwf', hmtc, hhash, hto⟩
      exact ⟨hwf', hto, hne, hmtc, Or.inl ⟨hB, hhash⟩⟩
  | some hashB =>
      simp only [hB] at hmerge
      split_ifs at hmerge with hdiffer
      · simp at hmerge
      · have hset := setCoreHashField_wellFormed hwf hA hashB
        rcases moveMeasurements_ok hset hA hmerge with ⟨hne, hwf', hmtc, hhash, hto⟩
        refine ⟨hwf', hto, hne, hmtc, Or.inr ⟨hashB, hB, ?_, hhash⟩⟩
        cases hcase : repo.coreHash coreA with
        | none => exact Or.inl rfl
        | some hashA =>
            apply Or.inr
            by_contra hne'
            exact hdiffer ⟨by simp [hcase], by simpa [hcase] using hne'⟩

/-- {lit}`{x, y} = {a, b}`, as ordered pairs. -/
def IsPair (x y a b : MeasurementHash) : Prop :=
  (x = a ∧ y = b) ∨ (x = b ∧ y = a)

/-- The four ways in which {lit}`setHaveEqualCores` returns. -/
inductive EqualCoresSet (repo repo' : MeasurementHashRepository MeasurementHash CoreHash)
    (a b : MeasurementHash) : Prop where
  | alreadyEqual {core : CoreRef} (ha : repo.measurementToCore a = some core)
      (hb : repo.measurementToCore b = some core) (hsame : repo' = repo)
  | bothNew (ha : repo.measurementToCore a = none) (hb : repo.measurementToCore b = none)
      (hmtc : repo'.measurementToCore =
        Function.update (Function.update repo.measurementToCore a (some repo.nextCore)) b
          (some repo.nextCore))
      (hhash : repo'.coreHash = repo.coreHash)
  | oneNew {x y : MeasurementHash} {core : CoreRef} (hpair : IsPair x y a b)
      (hx : repo.measurementToCore x = none) (hy : repo.measurementToCore y = some core)
      (hmtc : repo'.measurementToCore = Function.update repo.measurementToCore x (some core))
      (hhash : repo'.coreHash = repo.coreHash)
  | merged {x y : MeasurementHash} {target source : CoreRef} (hpair : IsPair x y a b)
      (hx : repo.measurementToCore x = some target)
      (hy : repo.measurementToCore y = some source) (hne : source ≠ target)
      (hmtc : repo'.measurementToCore = redirect repo.measurementToCore source target)
      (hhash : MergedCoreHash repo repo' target source)

/-- What reporting equal cores has done if it does not throw. -/
theorem setHaveEqualCores_ok
    {repo repo' : MeasurementHashRepository MeasurementHash CoreHash} {a b : MeasurementHash}
    (hwf : repo.WellFormed) (hcall : repo.setHaveEqualCores a b = (.ok (), repo')) :
    repo'.WellFormed ∧ repo'.coreHashToCore = repo.coreHashToCore ∧
      EqualCoresSet repo repo' a b := by
  unfold setHaveEqualCores at hcall
  cases ha : repo.measurementToCore a with
  | none =>
      cases hb : repo.measurementToCore b with
      | none =>
          simp only [ha, hb, Prod.mk.injEq, true_and] at hcall
          subst hcall
          have hlt : repo.nextCore < repo.newCore.nextCore := Nat.lt_succ_self _
          have hone : (repo.newCore.associate repo.nextCore a).WellFormed :=
            associate_wellFormed (newCore_wellFormed hwf) hlt (Or.inl ha)
          refine ⟨associate_wellFormed hone hlt ?_, rfl, .bothNew ha hb rfl rfl⟩
          by_cases hab : b = a
          · exact Or.inr (by simp [hab])
          · exact Or.inl (by simpa [hab, newCore] using hb)
      | some coreB =>
          simp only [ha, hb, Prod.mk.injEq, true_and] at hcall
          subst hcall
          exact ⟨associate_wellFormed hwf (hwf.core_lt hb) (Or.inl ha), rfl,
            .oneNew (Or.inl ⟨rfl, rfl⟩) ha hb rfl rfl⟩
  | some coreA =>
      cases hb : repo.measurementToCore b with
      | none =>
          simp only [ha, hb, Prod.mk.injEq, true_and] at hcall
          subst hcall
          exact ⟨associate_wellFormed hwf (hwf.core_lt ha) (Or.inl hb), rfl,
            .oneNew (Or.inr ⟨rfl, rfl⟩) hb ha rfl rfl⟩
      | some coreB =>
          simp only [ha, hb] at hcall
          split_ifs at hcall with hsame hsize
          · simp only [Prod.mk.injEq, true_and] at hcall
            exact ⟨hcall ▸ hwf, hcall ▸ rfl, .alreadyEqual ha (hsame ▸ hb) hcall.symm⟩
          · rcases mergeSecondCoreIntoFirstCore_ok hwf (hwf.core_lt ha) hcall with
              ⟨hwf', hto, hne, hmtc, hhash⟩
            exact ⟨hwf', hto, .merged (Or.inl ⟨rfl, rfl⟩) ha hb hne hmtc hhash⟩
          · rcases mergeSecondCoreIntoFirstCore_ok hwf (hwf.core_lt hb) hcall with
              ⟨hwf', hto, hne, hmtc, hhash⟩
            exact ⟨hwf', hto, .merged (Or.inr ⟨rfl, rfl⟩) hb ha hne hmtc hhash⟩

/-- When {lit}`setHaveEqualCores` throws, two core hashes differ and nothing has changed. -/
theorem setHaveEqualCores_error
    {repo repo' : MeasurementHashRepository MeasurementHash CoreHash} {a b : MeasurementHash}
    {e : Throwable} (hwf : repo.WellFormed)
    (hcall : repo.setHaveEqualCores a b = (.error e, repo')) : repo' = repo := by
  have hmerge : ∀ {target source measurement}, source ≠ target → target < repo.nextCore →
      repo.measurementToCore measurement = some source →
      repo.mergeSecondCoreIntoFirstCore target source = (.error e, repo') → repo' = repo := by
    intro target source measurement hne htarget hm hthrows
    unfold mergeSecondCoreIntoFirstCore at hthrows
    cases hsource : repo.coreHash source with
    | none =>
        simp only [hsource] at hthrows
        rcases moveMeasurements_isOk hwf hne hm with ⟨moved, hmoved⟩
        simp [hmoved] at hthrows
    | some hash =>
        simp only [hsource] at hthrows
        split_ifs at hthrows with hdiffer
        · simp only [Prod.mk.injEq] at hthrows
          exact hthrows.2.symm
        · have hset := setCoreHashField_wellFormed hwf htarget hash
          rcases moveMeasurements_isOk hset hne hm with ⟨moved, hmoved⟩
          simp [hmoved] at hthrows
  unfold setHaveEqualCores at hcall
  cases ha : repo.measurementToCore a with
  | none => cases hb : repo.measurementToCore b <;> simp [ha, hb] at hcall
  | some coreA =>
      cases hb : repo.measurementToCore b with
      | none => simp [ha, hb] at hcall
      | some coreB =>
          simp only [ha, hb] at hcall
          split_ifs at hcall with hsame hsize
          · simp at hcall
          · exact hmerge (Ne.symm hsame) (hwf.core_lt ha) hb hcall
          · exact hmerge hsame (hwf.core_lt hb) ha hcall

omit [DecidableEq CoreHash] in
/-- Looking up the core of a measurement creates it for an unknown measurement
and changes nothing otherwise. -/
theorem coreForMeasurement_spec {repo : MeasurementHashRepository MeasurementHash CoreHash}
    (hwf : repo.WellFormed) (m : MeasurementHash) :
    let core := (repo.coreForMeasurement m).1
    let repo' := (repo.coreForMeasurement m).2
    repo'.WellFormed ∧ repo'.coreHash = repo.coreHash ∧
      repo'.coreHashToCore = repo.coreHashToCore ∧ repo'.measurementToCore m = some core ∧
      ((repo.measurementToCore m = some core ∧ repo' = repo) ∨
        (repo.measurementToCore m = none ∧ core = repo.nextCore ∧
          repo'.measurementToCore =
            Function.update repo.measurementToCore m (some repo.nextCore))) := by
  unfold coreForMeasurement
  cases hm : repo.measurementToCore m with
  | some core => exact ⟨hwf, rfl, rfl, hm, Or.inl ⟨rfl, rfl⟩⟩
  | none =>
      refine ⟨?_, rfl, rfl, by simp, Or.inr ⟨rfl, rfl, rfl⟩⟩
      exact associate_wellFormed (newCore_wellFormed hwf) (Nat.lt_succ_self _) (Or.inl hm)

/-- The two ways in which {lit}`setCoreHash` returns, in terms of the repository
in which the measurement has a core. -/
inductive CoreHashSet (repo repo' : MeasurementHashRepository MeasurementHash CoreHash)
    (core : CoreRef) (hash : CoreHash) : Prop where
  | newHash (hnone : repo.coreHashToCore hash = none)
      (hmtc : repo'.measurementToCore = repo.measurementToCore)
      (hhash : repo'.coreHash = Function.update repo.coreHash core (some hash))
      (hto : repo'.coreHashToCore = Function.update repo.coreHashToCore hash (some core))
  | merged {coreForHash : CoreRef} (hsome : repo.coreHashToCore hash = some coreForHash)
      (hne : core ≠ coreForHash)
      (hmtc : repo'.measurementToCore = redirect repo.measurementToCore core coreForHash)
      (hhash : repo'.coreHash = repo.coreHash)
      (hto : repo'.coreHashToCore = repo.coreHashToCore)

/-- What setting a core hash has done if it does not throw. -/
theorem setCoreHash_ok
    {repo repo' : MeasurementHashRepository MeasurementHash CoreHash} {m : MeasurementHash}
    {hash : CoreHash} (hwf : repo.WellFormed)
    (hcall : repo.setCoreHash m hash = (.ok (), repo')) :
    repo'.WellFormed ∧
      CoreHashSet (repo.coreForMeasurement m).2 repo' (repo.coreForMeasurement m).1 hash := by
  rcases coreForMeasurement_spec hwf m with ⟨hwfKnown, _, _, hm, _⟩
  unfold setCoreHash at hcall
  generalize repo.coreForMeasurement m = result at *
  rcases result with ⟨core, known⟩
  cases hforHash : known.coreHashToCore hash with
  | none =>
      simp only [hforHash, Prod.mk.injEq, true_and] at hcall
      subst hcall
      have hlt := hwfKnown.core_lt hm
      have hset := setCoreHashField_wellFormed hwfKnown hlt hash
      refine ⟨?_, .newHash hforHash rfl rfl rfl⟩
      refine ⟨hset.mem_iff, hset.ne_nil, hset.unused, hset.unused_hash, ?_⟩
      intro h c hc
      by_cases hh : h = hash
      · subst hh
        obtain rfl : core = c := by simpa using hc
        exact hlt
      · exact hset.hash_used h c (by simpa [hh] using hc)
  | some coreForHash =>
      simp only [hforHash] at hcall
      rcases moveMeasurements_ok hwfKnown (hwfKnown.hash_used hash _ hforHash) hcall with
        ⟨hne, hwf', hmtc, hhash, hto⟩
      exact ⟨hwf', .merged hforHash hne hmtc hhash hto⟩

end WellFormed

/-! ## The classes of measurements -/

/-- Measurements the repository has seen, and the ones a call adds to them. -/
def SameOrNew (repo : MeasurementHashRepository MeasurementHash CoreHash)
    (a b x y : MeasurementHash) : Prop :=
  SameClass repo.measurementToCore x y ∨ (x = y ∧ (x = a ∨ x = b))

section Classes

variable {repo repo' : MeasurementHashRepository MeasurementHash CoreHash}

/-- Measurements that have cores bring no new class. -/
theorem sameOrNew_self {a b : MeasurementHash} {core : CoreRef}
    (ha : repo.measurementToCore a = some core) {core' : CoreRef}
    (hb : repo.measurementToCore b = some core') (x y : MeasurementHash) :
    SameOrNew repo a b x y ↔ SameClass repo.measurementToCore x y := by
  constructor
  · rintro (h | ⟨rfl, rfl | rfl⟩)
    · exact h
    · exact ⟨core, ha, ha⟩
    · exact ⟨core', hb, hb⟩
  · exact Or.inl

/-- The order of the two measurements does not matter. -/
theorem sameOrNew_swap (a b x y : MeasurementHash) :
    SameOrNew repo a b x y ↔ SameOrNew repo b a x y := by
  simp only [SameOrNew, or_comm]

/-- A single measurement that is new is a class of its own. -/
theorem sameOrNew_one (a x y : MeasurementHash) :
    SameClass repo.measurementToCore x y ∨ (x = a ∧ y = a) ↔ SameOrNew repo a a x y := by
  constructor
  · rintro (h | ⟨rfl, rfl⟩)
    · exact Or.inl h
    · exact Or.inr ⟨rfl, Or.inl rfl⟩
  · rintro (h | ⟨rfl, rfl | rfl⟩)
    · exact Or.inl h
    · exact Or.inr ⟨rfl, rfl⟩
    · exact Or.inr ⟨rfl, rfl⟩

/-- A second measurement that is known adds nothing. -/
theorem sameOrNew_known {a b : MeasurementHash} {core : CoreRef}
    (hb : repo.measurementToCore b = some core) (x y : MeasurementHash) :
    SameOrNew repo a a x y ↔ SameOrNew repo a b x y := by
  constructor
  · rintro (h | ⟨rfl, rfl | rfl⟩)
    · exact Or.inl h
    · exact Or.inr ⟨rfl, Or.inl rfl⟩
    · exact Or.inr ⟨rfl, Or.inl rfl⟩
  · rintro (h | ⟨rfl, rfl | rfl⟩)
    · exact Or.inl h
    · exact Or.inr ⟨rfl, Or.inl rfl⟩
    · exact Or.inl ⟨core, hb, hb⟩

/-- Cores are equal exactly for measurements of one class. -/
theorem areCoresEqual_eq_true_iff (a b : MeasurementHash) :
    repo.areCoresEqual a b = true ↔ SameClass repo.measurementToCore a b := by
  unfold areCoresEqual SameClass
  cases ha : repo.measurementToCore a with
  | none => simp
  | some coreA =>
      cases hb : repo.measurementToCore b with
      | none => simp
      | some coreB =>
          constructor
          · intro heq
            exact ⟨coreA, rfl, congrArg some (beq_iff_eq.mp heq).symm⟩
          · rintro ⟨core, hA, hB⟩
            exact beq_iff_eq.mpr (Option.some.inj (hA.trans hB.symm))

/-- The core hash of a measurement is the one of its core. -/
theorem getCoreHash_eq_some_iff (a : MeasurementHash) (hash : CoreHash) :
    repo.getCoreHash a = some hash ↔
      ∃ core, repo.measurementToCore a = some core ∧ repo.coreHash core = some hash := by
  unfold getCoreHash
  cases repo.measurementToCore a <;> simp

variable [DecidableEq MeasurementHash]

/-- Whichever way {lit}`setHaveEqualCores` returns, it joins the classes of its
two arguments, which count as seen from then on. -/
theorem EqualCoresSet.sameClass_iff {a b : MeasurementHash} (hwf : repo.WellFormed)
    (hset : EqualCoresSet repo repo' a b) (x y : MeasurementHash) :
    SameClass repo'.measurementToCore x y ↔ Joined (SameOrNew repo a b) a b x y := by
  cases hset with
  | alreadyEqual ha hb hsame =>
      rw [hsame, joined_congr (sameOrNew_self ha hb)]
      exact (joined_of_rel (fun _ _ h => h.symm) (fun _ _ _ h h' => h.trans h')
        ⟨_, ha, hb⟩ x y).symm
  | bothNew ha hb hmtc _ =>
      rw [hmtc]
      by_cases hab : a = b
      · subst hab
        rw [Function.update_idem, sameClass_update_fresh ha hwf.nextCore_unused]
        have hnew : ∀ u v, SameOrNew repo a a u v ↔
            SameClass repo.measurementToCore u v ∨ (u = a ∧ v = a) := by
          intro u v
          simp only [SameOrNew, or_self]
          constructor
          · rintro (h | ⟨rfl, rfl⟩)
            · exact Or.inl h
            · exact Or.inr ⟨rfl, rfl⟩
          · rintro (h | ⟨rfl, rfl⟩)
            · exact Or.inl h
            · exact Or.inr ⟨rfl, rfl⟩
        rw [← hnew]
        have hself : ∀ u, ¬SameClass repo.measurementToCore u a := by
          rintro u ⟨c, _, hc⟩
          simp [ha] at hc
        have hself' : ∀ u, ¬SameClass repo.measurementToCore a u := fun u h => hself u h.symm
        simp only [ClassMap.Joined, hnew, hself, hself', false_or]
        tauto
      · have hb' : Function.update repo.measurementToCore a (some repo.nextCore) b = none := by
          simpa [Ne.symm hab] using hb
        have ha' : Function.update repo.measurementToCore a (some repo.nextCore) a =
            some repo.nextCore := by simp
        rw [sameClass_update_join hb' ha', joined_swap]
        refine joined_congr (fun u v => ?_) a b x y
        rw [sameClass_update_fresh ha hwf.nextCore_unused]
        unfold SameOrNew
        constructor
        · rintro ((h | ⟨rfl, rfl⟩) | ⟨rfl, rfl⟩)
          · exact Or.inl h
          · exact Or.inr ⟨rfl, Or.inl rfl⟩
          · exact Or.inr ⟨rfl, Or.inr rfl⟩
        · rintro (h | ⟨rfl, rfl | rfl⟩)
          · exact Or.inl (Or.inl h)
          · exact Or.inl (Or.inr ⟨rfl, rfl⟩)
          · exact Or.inr ⟨rfl, rfl⟩
  | @oneNew u v core hpair hu hv hmtc _ =>
      have hnew : ∀ x y, SameClass repo.measurementToCore x y ∨ (x = u ∧ y = u) ↔
          SameOrNew repo u v x y := by
        intro x y
        exact (sameOrNew_one u x y).trans (sameOrNew_known hv x y)
      rw [hmtc, sameClass_update_join hu hv, joined_congr hnew]
      rcases hpair with ⟨rfl, rfl⟩ | ⟨rfl, rfl⟩
      · rfl
      · rw [joined_swap]
        exact joined_congr (fun _ _ => sameOrNew_swap _ _ _ _) _ _ x y
  | @merged u v target source hpair hu hv _ hmtc _ =>
      rw [hmtc, sameClass_redirect hv hu]
      rcases hpair with ⟨rfl, rfl⟩ | ⟨rfl, rfl⟩
      · rw [joined_swap, joined_congr (sameOrNew_self hu hv)]
      · rw [joined_congr (sameOrNew_self hv hu)]

/-- Looking up the core of a measurement makes it a class of its own if unknown. -/
theorem coreForMeasurement_sameClass_iff (hwf : repo.WellFormed) (m x y : MeasurementHash) :
    SameClass (repo.coreForMeasurement m).2.measurementToCore x y ↔ SameOrNew repo m m x y := by
  rcases coreForMeasurement_spec hwf m with ⟨_, _, _, _, ⟨hm, hsame⟩ | ⟨hm, _, hmtc⟩⟩
  · rw [hsame]
    exact (sameOrNew_self hm hm x y).symm
  · rw [hmtc, sameClass_update_fresh hm hwf.nextCore_unused]
    exact sameOrNew_one m x y

end Classes

end MeasurementHashRepository
end Roofline
