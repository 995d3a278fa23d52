import Roofline.Controller.MeasurementAppController
import Roofline.CoreHash.RejectedHashes

/-!
# Every measurement runs on its own executable

The controller skips building the core when its records say that the executable
in place is the right one.  This file states what these records have to mean
and which state lets a request go wrong.

Main results:

- Theorem {lit}`Consistent.setCoreHash`: a core hash that is not known can be recorded.
- Theorem {lit}`buildMeasuringCore_spec`: a build that returns leaves the
  executable of its measurement in place, unless it meets a stale executable.
- Theorem {lit}`runs_use_own_executable`: over every sequence of requests in
  which no request meets a stale executable, every run of the measuring core uses
  the executable its own measurement compiles to.
- Theorem {lit}`runs_use_other_executable`: a failed compilation followed by a
  repeated request runs a measurement on the executable of another one.
-/

namespace Roofline
namespace MeasurementAppController

open Programs Runs ClassMap MeasurementHashRepository

variable {Measurement MeasurementHash CoreHash Files Executable RunOutput : Type}

/-! ## Executables of measurement hashes -/

/-- The executable that compiling the files generated for the measurement yields. -/
def ownExecutable (services : Services Measurement MeasurementHash CoreHash Files Executable)
    (measurement : Measurement) : Executable :=
  services.compiled (services.generatedFiles measurement)

/-- A measurement with this hash has this executable. -/
def Yields (services : Services Measurement MeasurementHash CoreHash Files Executable)
    (hash : MeasurementHash) (executable : Executable) : Prop :=
  ∃ measurement, services.getMeasurementHash measurement = hash ∧
    ownExecutable services measurement = executable

/-- Equal hashes mean equal things: measurements with equal hashes have the same
generated files, and executables with equal core hashes are equal. -/
structure CollisionFree
    (services : Services Measurement MeasurementHash CoreHash Files Executable) : Prop where
  generatedFiles : ∀ m m', services.getMeasurementHash m = services.getMeasurementHash m' →
    services.generatedFiles m = services.generatedFiles m'
  executable : ∀ e e', services.hashFile e = services.hashFile e' → e = e'

/-- Measurements with these hashes have the same executable. -/
def SameExecutable (services : Services Measurement MeasurementHash CoreHash Files Executable)
    (a b : MeasurementHash) : Prop :=
  ∃ executable, Yields services a executable ∧ Yields services b executable

section Executables

variable {services : Services Measurement MeasurementHash CoreHash Files Executable}

/-- A measurement yields its own executable. -/
theorem yields_own (measurement : Measurement) :
    Yields services (services.getMeasurementHash measurement)
      (ownExecutable services measurement) :=
  ⟨measurement, rfl, rfl⟩

/-- A measurement hash has at most one executable. -/
theorem Yields.unique (hfree : CollisionFree services) {hash : MeasurementHash}
    {e e' : Executable} (h : Yields services hash e) (h' : Yields services hash e') : e = e' := by
  rcases h with ⟨m, hm, rfl⟩
  rcases h' with ⟨m', hm', rfl⟩
  have hfiles := hfree.generatedFiles m m' (hm.trans hm'.symm)
  rw [ownExecutable, ownExecutable, hfiles]

/-- The relation is symmetric. -/
theorem SameExecutable.symm {a b : MeasurementHash} (h : SameExecutable services a b) :
    SameExecutable services b a := by
  rcases h with ⟨e, ha, hb⟩
  exact ⟨e, hb, ha⟩

/-- What one of the hashes yields the other one yields. -/
theorem SameExecutable.yields (hfree : CollisionFree services) {a b : MeasurementHash}
    {e : Executable} (h : SameExecutable services a b) (ha : Yields services a e) :
    Yields services b e := by
  rcases h with ⟨e', ha', hb⟩
  rw [ha.unique hfree ha']
  exact hb

/-- The relation is transitive. -/
theorem SameExecutable.trans (hfree : CollisionFree services) {a b c : MeasurementHash}
    (hab : SameExecutable services a b) (hbc : SameExecutable services b c) :
    SameExecutable services a c := by
  rcases hab with ⟨e, ha, hb⟩
  exact ⟨e, ha, hbc.yields hfree hb⟩

/-- Joining two hashes with the same executable keeps classes of equal executables. -/
theorem sameExecutable_of_joined (hfree : CollisionFree services) {a b x y : MeasurementHash}
    {S : MeasurementHash → MeasurementHash → Prop}
    (hS : ∀ x y, S x y → SameExecutable services x y) (hab : SameExecutable services a b)
    (h : Joined S a b x y) : SameExecutable services x y := by
  rcases h with h | ⟨hxa, hby⟩ | ⟨hxb, hay⟩
  · exact hS x y h
  · exact (hS x a hxa).trans hfree (hab.trans hfree (hS b y hby))
  · exact (hS x b hxb).trans hfree (hab.symm.trans hfree (hS a y hay))

end Executables

/-! ## Repositories the controller leaves -/

/-- The core that is found for a core hash has it. -/
structure Consistent (repo : MeasurementHashRepository MeasurementHash CoreHash) : Prop where
  wellFormed : repo.WellFormed
  found : ∀ {hash core}, repo.coreHashToCore hash = some core → repo.coreHash core = some hash

section Consistency

variable {repo repo' : MeasurementHashRepository MeasurementHash CoreHash}

/-- An empty repository is consistent. -/
theorem empty_consistent :
    Consistent (empty : MeasurementHashRepository MeasurementHash CoreHash) where
  wellFormed := empty_wellFormed
  found h := by simp [empty] at h

/-- A core without a hash may get one. -/
theorem Consistent.coreHashSet [DecidableEq CoreHash] (h : Consistent repo) {core : CoreRef}
    {hash : CoreHash}
    (hnull : repo.coreHash core = none) (hwf' : repo'.WellFormed)
    (hset : CoreHashSet repo repo' core hash) : Consistent repo' := by
  refine ⟨hwf', ?_⟩
  intro other c hc
  cases hset with
  | newHash _ _ hhash hto =>
      rw [hto] at hc
      rw [hhash]
      by_cases hother : other = hash
      · subst hother
        obtain rfl : core = c := by simpa using hc
        simp
      · have hfound := h.found (by simpa [hother] using hc : repo.coreHashToCore other = some c)
        have hne : c ≠ core := by
          rintro rfl
          rw [hnull] at hfound
          cases hfound
        rwa [Function.update_of_ne hne]
  | merged _ _ _ hhash hto =>
      rw [hto] at hc
      rw [hhash]
      exact h.found hc

variable [DecidableEq MeasurementHash]

/-- A core hash that is known stays known and the same. -/
theorem hash_kept_of_equalCoresSet {a b : MeasurementHash}
    (hset : EqualCoresSet repo repo' a b) {core : CoreRef} {hash : CoreHash}
    (hhash : repo.coreHash core = some hash) : repo'.coreHash core = some hash := by
  cases hset with
  | alreadyEqual _ _ hsame => rwa [hsame]
  | bothNew _ _ _ hsame => rwa [hsame]
  | oneNew _ _ _ _ hsame => rwa [hsame]
  | @merged u v target source _ _ _ _ _ hmerged =>
      rcases hmerged with ⟨_, hsame⟩ | ⟨hashB, _, htarget, hsame⟩
      · rwa [hsame]
      · rw [hsame]
        by_cases hct : core = target
        · rw [hct] at hhash ⊢
          rcases htarget with hnone | hsome
          · simp [hnone] at hhash
          · rw [hhash] at hsome
            simpa using hsome.symm
        · simpa [hct] using hhash

/-- Looking up a core keeps the repository consistent. -/
theorem Consistent.coreForMeasurement (h : Consistent repo) (m : MeasurementHash) :
    Consistent (repo.coreForMeasurement m).2 := by
  rcases coreForMeasurement_spec h.wellFormed m with ⟨hwf, hhash, hto, -, -⟩
  refine ⟨hwf, ?_⟩
  intro hash core hcore
  rw [hto] at hcore
  rw [hhash]
  exact h.found hcore

/-- The core of a measurement without a core hash has none. -/
theorem coreHash_coreForMeasurement (hwf : repo.WellFormed) {m : MeasurementHash}
    (hunknown : repo.getCoreHash m = none) :
    (repo.coreForMeasurement m).2.coreHash (repo.coreForMeasurement m).1 = none := by
  rcases coreForMeasurement_spec hwf m with ⟨-, hhash, -, -, ⟨hold, -⟩ | ⟨-, hnew, -⟩⟩
  · unfold MeasurementHashRepository.getCoreHash at hunknown
    rw [hold] at hunknown
    rw [hhash]
    exact hunknown
  · rw [hhash, hnew]
    exact hwf.unused_hash _ (Nat.le_refl _)

variable [DecidableEq CoreHash]

/-- Reporting equal cores keeps it consistent. -/
theorem Consistent.setHaveEqualCores (h : Consistent repo) (a b : MeasurementHash) :
    Consistent (repo.setHaveEqualCores a b).2 := by
  rcases hcall : repo.setHaveEqualCores a b with ⟨e | ⟨⟨⟩⟩, repo'⟩
  · obtain rfl := setHaveEqualCores_error h.wellFormed hcall
    exact h
  · rcases setHaveEqualCores_ok h.wellFormed hcall with ⟨hwf', hto, hset⟩
    refine ⟨hwf', ?_⟩
    intro hash core hcore
    rw [hto] at hcore
    exact hash_kept_of_equalCoresSet hset (h.found hcore)

/-- A core hash that is not known can be recorded. -/
theorem Consistent.setCoreHash (h : Consistent repo) {m : MeasurementHash}
    (hunknown : repo.getCoreHash m = none) (hash : CoreHash) :
    ∃ repo', repo.setCoreHash m hash = (.ok (), repo') ∧ Consistent repo' ∧
      repo'.getCoreHash m = some hash := by
  have hnull := coreHash_coreForMeasurement h.wellFormed hunknown
  have hne : ∀ core, repo.measurementToCore m = some core →
      repo.coreHashToCore hash ≠ some core := by
    intro core hm hto
    have hhash := (getCoreHash_eq_some_iff m hash).mpr ⟨core, hm, h.found hto⟩
    rw [hunknown] at hhash
    cases hhash
  rcases setCoreHash_isOk h.wellFormed hne with ⟨repo', hcall⟩
  rcases setCoreHash_ok h.wellFormed hcall with ⟨hwf', hset⟩
  have hconsistent := (h.coreForMeasurement m).coreHashSet hnull hwf' hset
  rcases setCoreHash_finds h.wellFormed hcall with ⟨-, core, hm, hto, -⟩
  refine ⟨repo', hcall, hconsistent, ?_⟩
  exact (getCoreHash_eq_some_iff m hash).mpr ⟨core, hm, hconsistent.found hto⟩

end Consistency

/-! ## What the repository knows -/

/-- What the repository has been told is true of the executables. -/
structure CoresYield (services : Services Measurement MeasurementHash CoreHash Files Executable)
    (repo : MeasurementHashRepository MeasurementHash CoreHash) : Prop where
  wellFormed : repo.WellFormed
  classes : ∀ x y, SameClass repo.measurementToCore x y → SameExecutable services x y
  hashed : ∀ {x core hash}, repo.measurementToCore x = some core →
    repo.coreHash core = some hash → ∃ e, Yields services x e ∧ services.hashFile e = hash
  found : ∀ {hash core}, repo.coreHashToCore hash = some core → repo.coreHash core = some hash

section Repository

variable {services : Services Measurement MeasurementHash CoreHash Files Executable}
variable {repo repo' : MeasurementHashRepository MeasurementHash CoreHash}

/-- An empty repository says nothing about executables. -/
theorem empty_coresYield :
    CoresYield services (empty : MeasurementHashRepository MeasurementHash CoreHash) where
  wellFormed := empty_wellFormed
  classes x y h := by
    rcases h with ⟨core, hx, _⟩
    simp [empty] at hx
  hashed h := by simp [empty] at h
  found h := by simp [empty] at h

/-- What is said about executables includes consistency. -/
theorem CoresYield.consistent (hcores : CoresYield services repo) : Consistent repo :=
  ⟨hcores.wellFormed, hcores.found⟩

/-- Hashes the repository has seen or that are named by a call keep their executable. -/
theorem CoresYield.sameOrNew (hcores : CoresYield services repo) (hfree : CollisionFree services)
    {a b x y : MeasurementHash} (hab : SameExecutable services a b)
    (h : SameOrNew repo a b x y) : SameExecutable services x y := by
  rcases h with h | ⟨rfl, rfl | rfl⟩
  · exact hcores.classes x y h
  · exact hab.trans hfree hab.symm
  · exact hab.symm.trans hfree hab

/-- A core without a hash gets the hash of the executable of one of its measurements. -/
theorem CoresYield.coreHashSet [DecidableEq CoreHash] (hcores : CoresYield services repo)
    (hfree : CollisionFree services) {m : MeasurementHash} {e : Executable}
    (hm : Yields services m e) {core : CoreRef} (hcore : repo.measurementToCore m = some core)
    (hnull : repo.coreHash core = none) (hwf' : repo'.WellFormed)
    (hset : CoreHashSet repo repo' core (services.hashFile e)) : CoresYield services repo' := by
  have hclass : ∀ x, repo.measurementToCore x = some core → Yields services x e :=
    fun x hx => (hcores.classes m x ⟨core, hcore, hx⟩).yields hfree hm
  have hconsistent := hcores.consistent.coreHashSet hnull hwf' hset
  cases hset with
  | newHash _ hmtc hhash _ =>
      refine ⟨hwf', by rw [hmtc]; exact hcores.classes, ?_, hconsistent.found⟩
      intro x c hash hx hxhash
      rw [hmtc] at hx
      rw [hhash] at hxhash
      by_cases hc : c = core
      · have hash_eq : services.hashFile e = hash := by simpa [hc] using hxhash
        exact ⟨e, hclass x (hc ▸ hx), hash_eq⟩
      · exact hcores.hashed hx (by simpa [hc] using hxhash)
  | @merged coreForHash hforHash _ hmtc hhash _ =>
      have hforHash' := hcores.found hforHash
      -- everybody who now has the core of the hash has the executable of the hash
      have htarget : ∀ x, repo'.measurementToCore x = some coreForHash →
          Yields services x e := by
        intro x hx
        rw [hmtc] at hx
        by_cases hxc : repo.measurementToCore x = some core
        · exact hclass x hxc
        · have hx' : repo.measurementToCore x = some coreForHash := by
            simpa [redirect, hxc] using hx
          rcases hcores.hashed hx' hforHash' with ⟨e', hxe, he⟩
          rwa [hfree.executable e' e he] at hxe
      have hother : ∀ {x c}, c ≠ coreForHash → repo'.measurementToCore x = some c →
          repo.measurementToCore x = some c := by
        intro x c hc hx
        rw [hmtc] at hx
        exact ((redirect_eq_some_iff hc).mp hx).1
      refine ⟨hwf', ?_, ?_, hconsistent.found⟩
      · rintro x y ⟨c, hx, hy⟩
        by_cases hc : c = coreForHash
        · rw [hc] at hx hy
          exact ⟨e, htarget x hx, htarget y hy⟩
        · exact hcores.classes x y ⟨c, hother hc hx, hother hc hy⟩
      · intro x c hash hx hxhash
        rw [hhash] at hxhash
        by_cases hc : c = coreForHash
        · rw [hc] at hx hxhash
          rw [hforHash'] at hxhash
          exact ⟨e, htarget x hx, Option.some.inj hxhash⟩
        · exact hcores.hashed (hother hc hx) hxhash

variable [DecidableEq MeasurementHash]

/-- A core hash that is known after {lit}`setHaveEqualCores` was known before, of some
measurement that is now in the same class. -/
theorem hashKnown_of_equalCoresSet (hwf : repo.WellFormed) {a b x : MeasurementHash}
    (hset : EqualCoresSet repo repo' a b) {core : CoreRef} {hash : CoreHash}
    (hx : repo'.measurementToCore x = some core) (hhash : repo'.coreHash core = some hash) :
    ∃ y core₀, SameClass repo'.measurementToCore y x ∧ repo.measurementToCore y = some core₀ ∧
      repo.coreHash core₀ = some hash := by
  cases hset with
  | alreadyEqual ha hb hsame =>
      rw [hsame] at hx hhash ⊢
      exact ⟨x, core, ⟨core, hx, hx⟩, hx, hhash⟩
  | bothNew ha hb hmtc hsame =>
      rw [hsame] at hhash
      have hne : core ≠ repo.nextCore := by
        intro heq
        rw [heq, hwf.unused_hash _ (Nat.le_refl _)] at hhash
        simp at hhash
      have hold : repo.measurementToCore x = some core := by
        rw [hmtc] at hx
        by_cases hxb : x = b
        · simp [hxb, Ne.symm hne] at hx
        · by_cases hxa : x = a
          · subst hxa
            simp [hxb, Ne.symm hne] at hx
          · simpa [hxa, hxb] using hx
      exact ⟨x, core, ⟨core, hx, hx⟩, hold, hhash⟩
  | @oneNew u v core₀ hpair hu hv hmtc hsame =>
      rw [hsame] at hhash
      have hvu : v ≠ u := fun h => by simp [h, hu] at hv
      by_cases hxu : x = u
      · have hcore : core₀ = core := by simpa [hmtc, hxu] using hx
        rw [hcore] at hv
        exact ⟨v, core, ⟨core, by simp [hmtc, hvu, hv], hx⟩, hv, hhash⟩
      · have hold : repo.measurementToCore x = some core := by simpa [hmtc, hxu] using hx
        exact ⟨x, core, ⟨core, hx, hx⟩, hold, hhash⟩
  | @merged u v target source hpair hu hv hne hmtc hmerged =>
      have htarget : repo'.measurementToCore u = some target := by
        rw [hmtc]
        exact redirect_eq_target (.inr hu)
      have hsource : repo'.measurementToCore v = some target := by
        rw [hmtc]
        exact redirect_eq_target (.inl hv)
      by_cases hct : core = target
      · rw [hct] at hx hhash
        rcases hmerged with ⟨_, hsame⟩ | ⟨hashB, hB, _, hsame⟩
        · rw [hsame] at hhash
          exact ⟨u, target, ⟨target, htarget, hx⟩, hu, hhash⟩
        · have hB' : hashB = hash := by simpa [hsame] using hhash
          rw [hB'] at hB
          exact ⟨v, source, ⟨target, hsource, hx⟩, hv, hB⟩
      · have hold : repo.measurementToCore x = some core := by
          rw [hmtc] at hx
          exact ((redirect_eq_some_iff hct).mp hx).1
        have hhash' : repo.coreHash core = some hash := by
          rcases hmerged with ⟨_, hsame⟩ | ⟨hashB, _, _, hsame⟩
          · rwa [hsame] at hhash
          · simpa [hsame, hct] using hhash
        exact ⟨x, core, ⟨core, hx, hx⟩, hold, hhash'⟩

/-- The core that a measurement without a core hash gets has no hash that could be wrong. -/
theorem CoresYield.coreForMeasurement (hcores : CoresYield services repo)
    (hfree : CollisionFree services) {m : MeasurementHash} {e : Executable}
    (hm : Yields services m e) (hunknown : repo.getCoreHash m = none) :
    CoresYield services (repo.coreForMeasurement m).2 := by
  have hmm : SameExecutable services m m := ⟨e, hm, hm⟩
  have hnull := coreHash_coreForMeasurement hcores.wellFormed hunknown
  rcases coreForMeasurement_spec hcores.wellFormed m with ⟨hwf, hhash, _, hcore, hcase⟩
  refine ⟨hwf, ?_, ?_, (hcores.consistent.coreForMeasurement m).found⟩
  · intro x y hxy
    rw [coreForMeasurement_sameClass_iff hcores.wellFormed] at hxy
    exact hcores.sameOrNew hfree hmm hxy
  · intro x core hash hx hxhash
    rcases hcase with ⟨_, hsame⟩ | ⟨_, hnew, hmtc⟩
    · rw [hsame] at hx
      rw [hhash] at hxhash
      exact hcores.hashed hx hxhash
    · by_cases hxm : x = m
      · rw [hxm, hcore] at hx
        rw [← Option.some.inj hx, hnull] at hxhash
        simp at hxhash
      · rw [hmtc] at hx
        rw [hhash] at hxhash
        exact hcores.hashed (by simpa [hxm] using hx) hxhash

variable [DecidableEq CoreHash]

/-- Reporting two measurements with the same executable as equal keeps the
repository true, whether the call returns or throws. -/
theorem CoresYield.setHaveEqualCores (hcores : CoresYield services repo)
    (hfree : CollisionFree services) {a b : MeasurementHash}
    (hab : SameExecutable services a b) :
    CoresYield services (repo.setHaveEqualCores a b).2 := by
  have hconsistent := hcores.consistent.setHaveEqualCores a b
  rcases hcall : repo.setHaveEqualCores a b with ⟨e | ⟨⟨⟩⟩, repo'⟩
  · rw [setHaveEqualCores_error hcores.wellFormed hcall]
    exact hcores
  · rw [hcall] at hconsistent
    rcases setHaveEqualCores_ok hcores.wellFormed hcall with ⟨hwf', -, hset⟩
    have hclasses : ∀ x y, SameClass repo'.measurementToCore x y →
        SameExecutable services x y := by
      intro x y hxy
      rw [hset.sameClass_iff hcores.wellFormed] at hxy
      exact sameExecutable_of_joined hfree (fun _ _ => hcores.sameOrNew hfree hab) hab hxy
    refine ⟨hwf', hclasses, ?_, hconsistent.found⟩
    intro x core hash hx hhash
    rcases hashKnown_of_equalCoresSet hcores.wellFormed hset hx hhash with
      ⟨y, core₀, hyx, hy, hhash₀⟩
    rcases hcores.hashed hy hhash₀ with ⟨e, hye, he⟩
    exact ⟨e, (hclasses y x hyx).yields hfree hye, he⟩

/-- Recording the core hash of a measurement that has none keeps the repository true,
and does not throw. -/
theorem CoresYield.setCoreHash (hcores : CoresYield services repo)
    (hfree : CollisionFree services) {m : MeasurementHash} {e : Executable}
    (hm : Yields services m e) (hunknown : repo.getCoreHash m = none) :
    ∃ repo', repo.setCoreHash m (services.hashFile e) = (.ok (), repo') ∧
      CoresYield services repo' := by
  have hnull := coreHash_coreForMeasurement hcores.wellFormed hunknown
  have hknown := hcores.coreForMeasurement hfree hm hunknown
  rcases coreForMeasurement_spec hcores.wellFormed m with ⟨_, _, _, hcore, _⟩
  rcases hcores.consistent.setCoreHash hunknown (services.hashFile e) with ⟨repo', hok, -, -⟩
  rcases setCoreHash_ok hcores.wellFormed hok with ⟨hwf', hset⟩
  exact ⟨repo', hok, hknown.coreHashSet hfree hm hcore hnull hwf' hset⟩

end Repository

/-! ## The records of the controller -/

/-- The records of the controller are true, and so was every run so far. -/
structure Sound (services : Services Measurement MeasurementHash CoreHash Files Executable)
    (w : World Measurement MeasurementHash CoreHash Files Executable RunOutput) : Prop where
  cores : CoresYield services w.measurementHashRepository
  compiled : ∀ hash, w.currentlyCompiledMeasurementHash = some hash →
    ∃ e, w.executable = some e ∧ Yields services hash e
  runs : ∀ run ∈ w.runs, run.executable = ownExecutable services run.command.measurement

/-- The files of the measurement are on disk already, something was compiled before, and
yet the executable is not the one these files compile to. -/
def StaleExecutable (services : Services Measurement MeasurementHash CoreHash Files Executable)
    (w : World Measurement MeasurementHash CoreHash Files Executable RunOutput)
    (measurement : Measurement) : Prop :=
  w.currentlyCompiledMeasurementHash ≠ none ∧
    w.files = services.generatedFiles measurement ∧
    w.executable ≠ some (ownExecutable services measurement)

section Specifications

variable {services : Services Measurement MeasurementHash CoreHash Files Executable}

/-- The world is sound and a build for the measurement would not be misled. -/
def Buildable (services : Services Measurement MeasurementHash CoreHash Files Executable)
    (measurement : Measurement)
    (w : World Measurement MeasurementHash CoreHash Files Executable RunOutput) : Prop :=
  Sound services w ∧ ¬StaleExecutable services w measurement

/-- The world is sound and the executable of the measurement is in place. -/
def Built (services : Services Measurement MeasurementHash CoreHash Files Executable)
    (measurement : Measurement)
    (w : World Measurement MeasurementHash CoreHash Files Executable RunOutput) : Prop :=
  Sound services w ∧ w.executable = some (ownExecutable services measurement)

/-- What is built need not be built. -/
theorem Built.buildable {measurement : Measurement}
    {w : World Measurement MeasurementHash CoreHash Files Executable RunOutput}
    (h : Built services measurement w) : Buildable services measurement w :=
  ⟨h.1, fun hstale => hstale.2.2 h.2⟩

/-- When the records say that the right core is compiled, it is. -/
theorem Sound.rightCoreCompiled [DecidableEq MeasurementHash] (hfree : CollisionFree services)
    {measurement : Measurement}
    {w : World Measurement MeasurementHash CoreHash Files Executable RunOutput}
    (hsound : Sound services w)
    (hright : rightCoreCompiled w (services.getMeasurementHash measurement) = true) :
    Built services measurement w := by
  refine ⟨hsound, ?_⟩
  unfold MeasurementAppController.rightCoreCompiled at hright
  cases hcurrent : w.currentlyCompiledMeasurementHash with
  | none => simp [hcurrent] at hright
  | some current =>
      rcases hsound.compiled current hcurrent with ⟨e, hexecutable, hcompiled⟩
      rw [hcurrent] at hright
      have hyields : Yields services (services.getMeasurementHash measurement) e := by
        rcases Bool.or_eq_true_iff.mp hright with heq | hequal
        · rwa [beq_iff_eq.mp heq] at hcompiled
        · have hclass := (areCoresEqual_eq_true_iff _ _).mp hequal
          exact (hsound.cores.classes _ _ hclass).yields hfree hcompiled
      rw [hexecutable, hyields.unique hfree (yields_own measurement)]

/-- Files on disk and outcomes still to come are no part of the records. -/
theorem Sound.of_records {w w' : World Measurement MeasurementHash CoreHash Files Executable
      RunOutput} (hsound : Sound services w)
    (hrepository : w'.measurementHashRepository = w.measurementHashRepository)
    (hcurrent : w'.currentlyCompiledMeasurementHash = w.currentlyCompiledMeasurementHash)
    (hexecutable : w'.executable = w.executable) (hruns : w'.runs = w.runs) :
    Sound services w' := by
  constructor
  case cores =>
    rw [hrepository]
    exact hsound.cores
  case compiled =>
    rw [hcurrent, hexecutable]
    exact hsound.compiled
  case runs =>
    rw [hruns]
    exact hsound.runs

/-- The controller records a measurement as compiled. -/
def recordCompiled (hash : MeasurementHash)
    (w : World Measurement MeasurementHash CoreHash Files Executable RunOutput) :
    World Measurement MeasurementHash CoreHash Files Executable RunOutput :=
  { w with currentlyCompiledMeasurementHash := some hash }

/-- Once the executable of the measurement is in place it may be recorded as compiled. -/
theorem built_recordCompiled {measurement : Measurement}
    {w : World Measurement MeasurementHash CoreHash Files Executable RunOutput}
    (hcores : CoresYield services w.measurementHashRepository)
    (hruns : ∀ run ∈ w.runs, run.executable = ownExecutable services run.command.measurement)
    (hexecutable : w.executable = some (ownExecutable services measurement)) :
    Built services measurement
      (recordCompiled (services.getMeasurementHash measurement) w) := by
  refine ⟨⟨hcores, ?_, hruns⟩, hexecutable⟩
  intro hash hhash
  rw [← Option.some.inj hhash]
  exact ⟨_, hexecutable, yields_own measurement⟩

/-- Compiling the files of the measurement and recording it. -/
theorem compile_spec (measurement : Measurement) :
    Ensures
      (fun w : World Measurement MeasurementHash CoreHash Files Executable RunOutput =>
        Sound services w ∧ w.files = services.generatedFiles measurement)
      (do
        compilePreparedMeasuringCore services
        modify (recordCompiled (services.getMeasurementHash measurement)))
      (fun _ => Built services measurement) (fun _ => Sound services) := by
  rintro w ⟨hsound, hfiles⟩
  rw [outcome_bind, compilePreparedMeasuringCore, outcome_primitive]
  cases w.outcomes 0 with
  | throws e left => exact hsound.of_records rfl rfl rfl rfl
  | completes _ =>
      apply built_recordCompiled
      · exact hsound.cores
      · exact hsound.runs
      · rw [ownExecutable, ← hfiles]

variable [DecidableEq MeasurementHash] [DecidableEq CoreHash]

/-- Recording that nothing changed since another measurement was compiled. -/
theorem setHaveEqualCores_spec (hfree : CollisionFree services) (measurement : Measurement)
    (current : MeasurementHash) :
    Ensures
      (fun w : World Measurement MeasurementHash CoreHash Files Executable RunOutput =>
        Built services measurement w ∧ w.currentlyCompiledMeasurementHash = some current)
      (do
        onRepository fun repo =>
          repo.setHaveEqualCores current (services.getMeasurementHash measurement)
        modify (recordCompiled (services.getMeasurementHash measurement)))
      (fun _ => Built services measurement) (fun _ => Sound services) := by
  rintro w ⟨⟨hsound, hexecutable⟩, hcurrent⟩
  rcases hsound.compiled current hcurrent with ⟨e, he, hyields⟩
  have hsame : SameExecutable services current (services.getMeasurementHash measurement) := by
    rw [hexecutable] at he
    rw [← Option.some.inj he] at hyields
    exact ⟨_, hyields, yields_own measurement⟩
  have hcores := hsound.cores.setHaveEqualCores hfree hsame
  rw [outcome_bind, onRepository, outcome_primitive]
  rcases hcall : w.measurementHashRepository.setHaveEqualCores current
    (services.getMeasurementHash measurement) with ⟨e' | _, repo⟩
  · rw [hcall] at hcores
    exact ⟨hcores, hsound.compiled, hsound.runs⟩
  · rw [hcall] at hcores
    exact built_recordCompiled hcores hsound.runs hexecutable

/-- Hashing the executable in place and recording its core hash. -/
theorem recordCoreHash_spec (hfree : CollisionFree services) (measurement : Measurement) :
    Ensures
      (fun w : World Measurement MeasurementHash CoreHash Files Executable RunOutput =>
        Built services measurement w ∧
          w.measurementHashRepository.getCoreHash
            (services.getMeasurementHash measurement) = none)
      (do
        let coreHash ← hashCurrentlyCompiledMeasuringCore services
        onRepository fun repo =>
          repo.setCoreHash (services.getMeasurementHash measurement) coreHash
        return coreHash)
      (fun _ => Built services measurement) (fun _ => Sound services) := by
  rintro w ⟨⟨hsound, hexecutable⟩, hunknown⟩
  rw [outcome_bind, hashCurrentlyCompiledMeasuringCore, outcome_primitive, hexecutable]
  cases w.outcomes 0 with
  | throws e left => exact hsound.of_records rfl rfl rfl rfl
  | completes _ =>
      rcases hsound.cores.setCoreHash hfree (yields_own measurement) hunknown with
        ⟨repo, hcall, hcores⟩
      dsimp only
      rw [outcome_bind, onRepository, outcome_primitive]
      have hcall' : w.afterOutcome.measurementHashRepository.setCoreHash
          (services.getMeasurementHash measurement)
          (services.hashFile (ownExecutable services measurement)) = (.ok (), repo) := hcall
      rw [hcall']
      exact ⟨⟨hcores, hsound.compiled, hsound.runs⟩, hexecutable⟩

variable [DecidableEq Files]

/-- A build leaves the executable of the measurement in place, or throws. -/
theorem buildMeasuringCore_spec (hfree : CollisionFree services) (measurement : Measurement) :
    Ensures (Buildable services measurement)
      (buildMeasuringCore services measurement (services.getMeasurementHash measurement) :
        Method Measurement MeasurementHash CoreHash Files Executable RunOutput Unit)
      (fun _ => Built services measurement) (fun _ => Sound services) := by
  rintro w ⟨hsound, hfresh⟩
  unfold buildMeasuringCore
  rw [outcome_bind, outcome_get]
  by_cases hright : rightCoreCompiled w (services.getMeasurementHash measurement) = true
  · simp only [hright, if_true]
    exact hsound.rightCoreCompiled hfree hright
  · simp only [hright, Bool.false_eq_true, if_false]
    rw [outcome_bind, prepareMeasuringCoreBuilding, outcome_primitive]
    cases w.outcomes 0 with
    | throws e left => exact hsound.of_records rfl rfl rfl rfl
    | completes _ =>
        have hprepared : Sound services
            { w.afterOutcome with files := services.generatedFiles measurement } :=
          hsound.of_records rfl rfl rfl rfl
        cases hcurrent : w.currentlyCompiledMeasurementHash with
        | none => exact compile_spec measurement _ ⟨hprepared, rfl⟩
        | some current =>
            dsimp only
            by_cases hchanged : w.files ≠ services.generatedFiles measurement
            · rw [if_pos (decide_eq_true hchanged)]
              exact compile_spec measurement _ ⟨hprepared, rfl⟩
            · -- nothing changed, and the executable is not stale
              have hexecutable : w.executable = some (ownExecutable services measurement) := by
                by_contra hstale
                exact hfresh ⟨by simp [hcurrent], not_ne_iff.mp hchanged, hstale⟩
              rw [if_neg (mt of_decide_eq_true hchanged)]
              exact setHaveEqualCores_spec hfree measurement current _
                ⟨⟨hprepared, hexecutable⟩, hcurrent⟩

/-- Finding out a core hash keeps the records true. -/
theorem getCoreHash_spec (hfree : CollisionFree services) (measurement : Measurement) :
    Ensures (Buildable services measurement)
      (getCoreHash services measurement (services.getMeasurementHash measurement) :
        Method Measurement MeasurementHash CoreHash Files Executable RunOutput CoreHash)
      (fun _ => Buildable services measurement) (fun _ => Sound services) := by
  intro w hw
  unfold getCoreHash
  rw [outcome_bind, outcome_get]
  dsimp only
  cases w.measurementHashRepository.getCoreHash (services.getMeasurementHash measurement) with
  | some coreHash => exact hw
  | none =>
      refine Ensures.bind (buildMeasuringCore_spec hfree measurement) ?_ w hw
      intro _ built hbuilt
      rw [outcome_bind, outcome_get]
      dsimp only
      cases hknown : built.measurementHashRepository.getCoreHash
        (services.getMeasurementHash measurement) with
      | some coreHash => exact hbuilt.buildable
      | none =>
          exact (recordCoreHash_spec hfree measurement).weaken (fun _ h => h)
            (fun _ _ h => h.buildable) (fun _ _ h => h) built ⟨hbuilt, hknown⟩

/-- Performing a measurement keeps the records true. -/
theorem performMeasurement_spec (hfree : CollisionFree services) (measurement : Measurement)
    (runCount : Int) :
    Ensures (Buildable services measurement)
      (performMeasurement services ⟨measurement, runCount⟩
        (services.getMeasurementHash measurement) :
        Method Measurement MeasurementHash CoreHash Files Executable RunOutput
          (MeasurementResult Measurement CoreHash RunOutput))
      (fun _ => Buildable services measurement) (fun _ => Sound services) := by
  apply Ensures.bind (buildMeasuringCore_spec hfree measurement)
  rintro _ w ⟨hsound, hexecutable⟩
  have hruns : ∀ run ∈ w.runs ++ [⟨⟨measurement, runCount⟩, ownExecutable services measurement⟩],
      run.executable = ownExecutable services run.command.measurement := by
    intro run hrun
    rcases List.mem_append.mp hrun with hold | hnew
    · exact hsound.runs run hold
    · rw [List.mem_singleton.mp hnew]
  have hstarted : Built services measurement
      { w.afterOutcome with runs :=
          w.runs ++ [⟨⟨measurement, runCount⟩, ownExecutable services measurement⟩] } :=
    ⟨⟨hsound.cores, hsound.compiled, hruns⟩, hexecutable⟩
  rw [runMeasuringCore, outcome_primitive, hexecutable]
  cases w.outcomes 0 with
  | throws e left => exact hstarted.1
  | completes outputs =>
      exact Built.buildable ⟨hstarted.1.of_records rfl rfl rfl rfl, hstarted.2⟩

/-- Looking into the cache keeps the records true. -/
theorem cachedRunOutputs_spec (hfree : CollisionFree services) (configuration : Configuration)
    (measurement : Measurement) :
    Ensures (Buildable services measurement)
      (cachedRunOutputs services configuration measurement
        (services.getMeasurementHash measurement) :
        Method Measurement MeasurementHash CoreHash Files Executable RunOutput
          (List RunOutput))
      (fun _ => Buildable services measurement) (fun _ => Sound services) := by
  intro w hw
  unfold cachedRunOutputs
  rw [outcome_bind, outcome_get]
  dsimp only
  refine Ensures.ite (fun _ => ?_) (fun _ => Ensures.pure fun _ h => h) w hw
  apply Ensures.bind (Q := fun _ => Buildable services measurement)
  · intro w hw
    rw [getMeasurementResult, outcome_primitive]
    cases w.outcomes 0 with
    | throws e left => exact ⟨hw.1.of_records rfl rfl rfl rfl, hw.2⟩
    | completes _ => exact ⟨hw.1.of_records rfl rfl rfl rfl, hw.2⟩
  · intro loadedResult
    cases loadedResult with
    | none => exact Ensures.pure fun _ h => h
    | some loadedResult =>
        refine Ensures.ite (fun _ => ?_) (fun _ => Ensures.pure fun _ h => h)
        apply Ensures.bind (getCoreHash_spec hfree measurement)
        intro coreHash
        exact Ensures.ite (fun _ => Ensures.pure fun _ h => h) (fun _ => Ensures.pure fun _ h => h)

/-- Running for the missing outputs keeps the records true. -/
theorem missingRunOutputs_spec (hfree : CollisionFree services) (measurement : Measurement)
    (numberOfRuns : Int) (runOutputs : List RunOutput) :
    Ensures (Buildable services measurement)
      (missingRunOutputs services measurement (services.getMeasurementHash measurement)
        numberOfRuns runOutputs :
        Method Measurement MeasurementHash CoreHash Files Executable RunOutput
          (List RunOutput))
      (fun _ => Sound services) (fun _ => Sound services) := by
  refine Ensures.ite (fun _ => ?_) (fun _ => Ensures.pure fun _ h => h.1)
  apply Ensures.bind (performMeasurement_spec hfree measurement _)
  intro newResult
  apply Ensures.bind (getCoreHash_spec hfree measurement)
  intro coreHash
  apply Ensures.bind (Q := fun _ => Sound services)
  · intro w hw
    rw [store, outcome_primitive]
    cases w.outcomes 0 with
    | throws e left => exact hw.1.of_records rfl rfl rfl rfl
    | completes _ => exact hw.1.of_records rfl rfl rfl rfl
  · intro _
    exact Ensures.pure fun _ h => h

/-- A request that does not meet a stale executable keeps the records true, and so is
every run it makes. -/
theorem measure_spec (hfree : CollisionFree services) (configuration : Configuration)
    (measurement : Measurement) (numberOfRuns : Int) :
    Ensures (Buildable services (services.prepareMeasurement measurement))
      (measure services configuration measurement numberOfRuns :
        Method Measurement MeasurementHash CoreHash Files Executable RunOutput
          (MeasurementResult Measurement CoreHash RunOutput))
      (fun _ => Sound services) (fun _ => Sound services) := by
  apply Ensures.bind (Q := fun _ => Sound services)
  · apply Ensures.tryCatch (S := fun _ => Sound services)
    · apply Ensures.bind (cachedRunOutputs_spec hfree configuration _)
      intro cached
      exact missingRunOutputs_spec hfree _ numberOfRuns cached
    · intro e
      exact Ensures.ite (fun _ => Ensures.throw fun _ h => h) (fun _ => Ensures.throw fun _ h => h)
  · intro runOutputs
    exact Ensures.ite (fun _ => Ensures.bind (Ensures.throw fun _ h => h) fun _ =>
      Ensures.pure fun _ h => h) (fun _ => Ensures.pure fun _ h => h)

end Specifications

/-! ## Sequences of requests -/

section Requests

variable {services : Services Measurement MeasurementHash CoreHash Files Executable}

/-- The controller at process start: whatever an earlier process left on disk. -/
def start (files : Files) (executable : Option Executable)
    (results : MeasurementHash → Option (MeasurementResult Measurement CoreHash RunOutput))
    (outcomes : Nat → Outcome Files RunOutput) :
    World Measurement MeasurementHash CoreHash Files Executable RunOutput where
  measurementHashRepository := empty
  currentlyCompiledMeasurementHash := none
  files := files
  executable := executable
  results := results
  outcomes := outcomes
  runs := []

/-- At process start the records are empty. -/
theorem start_sound (files : Files) (executable : Option Executable)
    (results : MeasurementHash → Option (MeasurementResult Measurement CoreHash RunOutput))
    (outcomes : Nat → Outcome Files RunOutput) :
    Sound services (start files executable results outcomes) where
  cores := empty_coresYield
  compiled hash h := by simp [start] at h
  runs run h := by simp [start] at h

variable [DecidableEq MeasurementHash] [DecidableEq CoreHash] [DecidableEq Files]

/-- The request has to build the core and meets a stale executable. -/
def MeetsStaleExecutable
    (services : Services Measurement MeasurementHash CoreHash Files Executable)
    (w : World Measurement MeasurementHash CoreHash Files Executable RunOutput)
    (request : Request Measurement Files RunOutput) : Prop :=
  NeedsCore services w request ∧
    StaleExecutable services w (services.prepareMeasurement request.measurement)

/-- One request that does not meet a stale executable keeps the records true. -/
theorem Sound.respond (hfree : CollisionFree services)
    {w : World Measurement MeasurementHash CoreHash Files Executable RunOutput}
    (hsound : Sound services w) {request : Request Measurement Files RunOutput}
    (hfresh : ¬MeetsStaleExecutable services w request) :
    Sound services (respond services w request).2 := by
  by_cases hneeds : NeedsCore services w request
  · have hbuildable : Buildable services (services.prepareMeasurement request.measurement)
        { w with outcomes := request.outcomes } :=
      ⟨hsound.of_records rfl rfl rfl rfl, fun hstale => hfresh ⟨hneeds, hstale⟩⟩
    have hout := measure_spec hfree request.configuration request.measurement
      request.numberOfRuns _ hbuildable
    unfold MeasurementAppController.respond
    generalize outcome _ _ = ended at hout ⊢
    rcases ended with ⟨e | result, w'⟩
    · exact hout
    · exact hout
  · rcases measure_unbuilt hneeds with ⟨outcomes, hsame⟩
    rw [hsame]
    exact hsound.of_records rfl rfl rfl rfl

/-- In every state of a run in which no request meets a stale executable, every
execution of the measuring core so far used the executable that compiling the
files generated for its own measurement yields. -/
theorem runs_use_own_executable (hfree : CollisionFree services) {files : Files}
    {executable : Option Executable}
    {results : MeasurementHash → Option (MeasurementResult Measurement CoreHash RunOutput)}
    {outcomes : Nat → Outcome Files RunOutput}
    {requests : List (Request Measurement Files RunOutput)}
    (hfresh : StepsMeet (step services) (start files executable results outcomes)
      (fun _ w request => ¬MeetsStaleExecutable services w request) requests) :
    Visits (step services) (start files executable results outcomes) requests fun _ w =>
      ∀ run ∈ w.runs, run.executable = ownExecutable services run.command.measurement := by
  have hsound : Visits (step services) (start files executable results outcomes) requests
      fun _ w => Sound services w := by
    refine Run.always (P := fun _ w => Sound services w)
      (start_sound files executable results outcomes) ?_ hfresh
    intro _ w request w' _ hw hrequest hstep
    rw [← Except.ok.inj hstep]
    exact hw.respond hfree hrequest
  intro before after w hsplit hrun
  exact (hsound before after w hsplit hrun).runs

end Requests

/-! ## A failed compilation -/

/-- Measurements, hashes, files and executables are numbers, and all of them agree. -/
def numberServices : Services Nat Nat Nat Nat Nat where
  prepareMeasurement m := m
  getMeasurementHash m := m
  generatedFiles m := m
  compiled files := files
  hashFile executable := executable

/-- The services of the example have no collisions. -/
theorem numberServices_collisionFree : CollisionFree numberServices :=
  ⟨fun _ _ h => h, fun _ _ h => h⟩

/-- A request for one run whose external step {lit}`n` throws if {lit}`fails n`. -/
def requestOne (measurement : Nat) (fails : Nat → Bool) : Request Nat Nat Unit where
  configuration := ⟨false, true⟩
  measurement := measurement
  numberOfRuns := 1
  outcomes n := if fails n then .throws .executeException 0 else .completes [()]

/-- Nothing on disk but files that belong to no measurement. -/
abbrev numberStart : World Nat Nat Nat Nat Nat Unit :=
  start 0 none (fun _ => none) (fun _ => .completes [])

/-- Two requests that succeed. -/
theorem runs_use_own_executable_twice :
    Visits (step numberServices) numberStart
      [requestOne 1 fun _ => false, requestOne 2 fun _ => false] fun _ w =>
        ∀ run ∈ w.runs, run.executable = ownExecutable numberServices run.command.measurement := by
  apply runs_use_own_executable numberServices_collisionFree
  intro before request after w hsplit hrun
  rcases before with _ | ⟨first, _ | ⟨second, rest⟩⟩
  · have hstart : w = numberStart := hrun.deterministic .start
    rintro ⟨_, hcurrent, _⟩
    exact hcurrent (by rw [hstart]; rfl)
  · rcases List.cons.inj hsplit with ⟨hfirst, hrest⟩
    have hrequest : requestOne 2 (fun _ => false) = request := (List.cons.inj hrest).1
    have hone : w = (respond numberServices numberStart (requestOne 1 fun _ => false)).2 := by
      rw [← hfirst] at hrun
      exact hrun.deterministic (run_iff_exec.mpr rfl)
    rintro ⟨_, _, hfiles, _⟩
    rw [hone, ← hrequest] at hfiles
    exact absurd hfiles (by decide)
  · simp at hsplit

/-- The compilation for measurement 2 fails after its files were written; the
next request for it finds them unchanged and runs it on the executable of 1. -/
theorem runs_use_other_executable :
    ¬∀ (requests : List (Request Nat Nat Unit)) (w : World Nat Nat Nat Nat Nat Unit),
      Run (step numberServices) numberStart requests w →
        ∀ run ∈ w.runs,
          run.executable = ownExecutable numberServices run.command.measurement := by
  intro hall
  have hexec : ∃ w, exec (step numberServices) numberStart
      [requestOne 1 fun _ => false, requestOne 2 fun n => n == 1, requestOne 2 fun _ => false] =
        .ok w ∧ ⟨⟨2, 1⟩, 1⟩ ∈ w.runs := by
    refine ⟨_, rfl, ?_⟩
    decide
  rcases hexec with ⟨w, hexec, hrun⟩
  have hown := hall _ w (run_iff_exec.mpr hexec) _ hrun
  exact absurd hown (by decide)

end MeasurementAppController
end Roofline
