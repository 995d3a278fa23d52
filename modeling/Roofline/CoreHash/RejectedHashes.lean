import Roofline.CoreHash.MeasurementHashRepository

/-!
# Setting core hashes

What {lit}`setCoreHash` does when the measurement already has a core or a core hash.
Its merging loop lacks the tests that {lit}`setHaveEqualCores` makes: that the two cores are
different ones, and that their core hashes do not contradict each other.

Main results:

- Theorem {lit}`afterCalls_wellFormed`: the repository stays well formed even if calls throw.
- Theorem {lit}`setHaveEqualCores_rejects`: merging classes with different core hashes is
  rejected.
- Theorem {lit}`setCoreHash_finds`: the core that a measurement has after a call that returns.
- Theorem {lit}`setCoreHash_again`: a core hash cannot be set twice.
- Theorem {lit}`keepsCoreHashes_iff`: when {lit}`setCoreHash` keeps the core hashes in order.
-/

namespace Roofline
namespace MeasurementHashRepository

open ClassMap

variable {MeasurementHash CoreHash : Type}
variable [DecidableEq MeasurementHash] [DecidableEq CoreHash]

/-! ## Calls that may throw -/

/-- The repository after a sequence of calls, whether they throw or not. -/
def afterCalls (calls : List (Call MeasurementHash CoreHash)) :
    MeasurementHashRepository MeasurementHash CoreHash :=
  calls.foldl (fun repo call => (repo.invoke call).2) empty

section WellFormed

variable {repo repo' : MeasurementHashRepository MeasurementHash CoreHash}

omit [DecidableEq CoreHash] in
/-- When the moving loop throws, it was to move a core to itself. -/
theorem moveMeasurements_error {target source : CoreRef} {e : Throwable} (hwf : repo.WellFormed)
    (hmove : repo.moveMeasurements target source = (.error e, repo')) :
    repo' = repo ∨
      ∃ m, repo.measurementToCore m = some target ∧ repo' = repo.associate target m := by
  unfold moveMeasurements at hmove
  cases hsource : repo.coreToMeasurement source with
  | none =>
      rw [hsource] at hmove
      exact Or.inl (Prod.mk.inj hmove).2.symm
  | some measurements =>
      rw [hsource] at hmove
      by_cases hsame : source = target
      · subst hsame
        cases measurements with
        | nil => simp at hmove
        | cons m rest =>
            simp only [if_true, Prod.mk.injEq] at hmove
            refine Or.inr ⟨m, (hwf.mem_iff source m).mp ?_, hmove.2.symm⟩
            simp [hsource]
      · simp [hsame] at hmove

/-- Setting a core hash keeps the maps inverse, even if it throws. -/
theorem setCoreHash_wellFormed (hwf : repo.WellFormed) (m : MeasurementHash) (hash : CoreHash) :
    (repo.setCoreHash m hash).2.WellFormed := by
  rcases hcall : repo.setCoreHash m hash with ⟨e | ⟨⟨⟩⟩, repo'⟩
  · rcases coreForMeasurement_spec hwf m with ⟨hwfKnown, -, -, -, -⟩
    unfold setCoreHash at hcall
    generalize repo.coreForMeasurement m = result at *
    rcases result with ⟨core, known⟩
    cases hforHash : known.coreHashToCore hash with
    | none => simp [hforHash] at hcall
    | some coreForHash =>
        simp only [hforHash] at hcall
        rcases moveMeasurements_error hwfKnown hcall with rfl | ⟨n, hn, rfl⟩
        · exact hwfKnown
        · exact associate_wellFormed hwfKnown (hwfKnown.core_lt hn) (Or.inr hn)
  · exact (setCoreHash_ok hwf hcall).1

/-- So does every call. -/
theorem invoke_wellFormed (hwf : repo.WellFormed) (call : Call MeasurementHash CoreHash) :
    (repo.invoke call).2.WellFormed := by
  cases call with
  | setHaveEqualCores a b =>
      change (repo.setHaveEqualCores a b).2.WellFormed
      rcases hcall : repo.setHaveEqualCores a b with ⟨e | ⟨⟨⟩⟩, repo'⟩
      · obtain rfl := setHaveEqualCores_error hwf hcall
        exact hwf
      · exact (setHaveEqualCores_ok hwf hcall).1
  | setCoreHash m hash => exact setCoreHash_wellFormed hwf m hash

/-- The repository stays well formed even if calls throw. -/
theorem afterCalls_wellFormed (calls : List (Call MeasurementHash CoreHash)) :
    (afterCalls calls).WellFormed := by
  induction calls using List.reverseRecOn with
  | nil => exact empty_wellFormed
  | append_singleton calls call ih =>
      rw [afterCalls, List.foldl_append]
      exact invoke_wellFormed ih call

/-! ## Contradicting core hashes -/

/-- Two known cores with different core hashes are not merged. -/
theorem mergeSecondCoreIntoFirstCore_rejects {coreA coreB : CoreRef} {hashA hashB : CoreHash}
    (hA : repo.coreHash coreA = some hashA) (hB : repo.coreHash coreB = some hashB)
    (hne : hashA ≠ hashB) :
    repo.mergeSecondCoreIntoFirstCore coreA coreB =
      (.error (.error "measurements set to equal, but core hashes differ"), repo) := by
  unfold mergeSecondCoreIntoFirstCore
  simp [hA, hB, hne]

/-- Merging classes with different core hashes is rejected. -/
theorem setHaveEqualCores_rejects {a b : MeasurementHash} {hashA hashB : CoreHash}
    (ha : repo.getCoreHash a = some hashA) (hb : repo.getCoreHash b = some hashB)
    (hne : hashA ≠ hashB) : ∃ e, repo.setHaveEqualCores a b = (.error e, repo) := by
  rcases (getCoreHash_eq_some_iff a hashA).mp ha with ⟨coreA, hcoreA, hhashA⟩
  rcases (getCoreHash_eq_some_iff b hashB).mp hb with ⟨coreB, hcoreB, hhashB⟩
  have hcores : coreA ≠ coreB := by
    rintro rfl
    exact hne (Option.some.inj (hhashA.symm.trans hhashB))
  unfold setHaveEqualCores
  simp only [hcoreA, hcoreB, if_neg hcores]
  split_ifs
  · exact ⟨_, mergeSecondCoreIntoFirstCore_rejects hhashA hhashB hne⟩
  · exact ⟨_, mergeSecondCoreIntoFirstCore_rejects hhashB hhashA (Ne.symm hne)⟩

/-! ## Setting a core hash again -/

/-- A core cannot be moved to itself: the loop adds to the collection it iterates over. -/
theorem setCoreHash_same (hwf : repo.WellFormed) {m : MeasurementHash} {hash : CoreHash}
    {core : CoreRef} (hm : repo.measurementToCore m = some core)
    (hto : repo.coreHashToCore hash = some core) :
    ∃ n, repo.setCoreHash m hash =
      (.error .concurrentModificationException, repo.associate core n) := by
  have hmem := (hwf.mem_iff core m).mpr hm
  unfold setCoreHash coreForMeasurement
  simp only [hm, hto, moveMeasurements]
  cases hcore : repo.coreToMeasurement core with
  | none => simp [hcore] at hmem
  | some measurements =>
      cases measurements with
      | nil => simp [hcore] at hmem
      | cons n rest => exact ⟨n, by simp⟩

/-- A call that returns leaves the measurement with the core found for the hash, which has
that core hash unless it was found before with another one. -/
theorem setCoreHash_finds (hwf : repo.WellFormed) {m : MeasurementHash} {hash : CoreHash}
    (hcall : repo.setCoreHash m hash = (.ok (), repo')) :
    repo'.WellFormed ∧ ∃ core, repo'.measurementToCore m = some core ∧
      repo'.coreHashToCore hash = some core ∧
      repo'.coreHash core =
        match repo.coreHashToCore hash with
        | none => some hash
        | some coreForHash => repo.coreHash coreForHash := by
  rcases coreForMeasurement_spec hwf m with ⟨-, hcoreHash, hcoreTo, hm, -⟩
  rcases setCoreHash_ok hwf hcall with ⟨hwf', hset⟩
  refine ⟨hwf', ?_⟩
  cases hset with
  | newHash hnone hmtc hhash hto =>
      rw [hcoreTo] at hnone
      refine ⟨_, by rw [hmtc, hm], by rw [hto, Function.update_self], ?_⟩
      rw [hnone, hhash, Function.update_self]
  | @merged coreForHash hsome hne hmtc hhash hto =>
      refine ⟨coreForHash, by rw [hmtc]; simp [redirect, hm], by rw [hto, hsome], ?_⟩
      rw [hcoreTo] at hsome
      rw [hsome, hhash, hcoreHash]

/-- Measurements with equal cores keep equal cores. -/
theorem sameClass_setCoreHash (hwf : repo.WellFormed) {m : MeasurementHash} {hash : CoreHash}
    (hcall : repo.setCoreHash m hash = (.ok (), repo')) {x y : MeasurementHash}
    (hclass : SameClass repo.measurementToCore x y) : SameClass repo'.measurementToCore x y := by
  have hknown : SameClass (repo.coreForMeasurement m).2.measurementToCore x y :=
    (coreForMeasurement_sameClass_iff hwf m x y).mpr (Or.inl hclass)
  cases (setCoreHash_ok hwf hcall).2 with
  | newHash _ hmtc _ _ =>
      rw [hmtc]
      exact hknown
  | merged _ _ hmtc _ _ =>
      rw [hmtc]
      exact hknown.redirect _ _

/-- A core hash cannot be set twice. -/
theorem setCoreHash_again (hwf : repo.WellFormed) {m : MeasurementHash} {hash : CoreHash}
    (hcall : repo.setCoreHash m hash = (.ok (), repo')) :
    ∃ left, repo'.setCoreHash m hash = (.error .concurrentModificationException, left) := by
  rcases setCoreHash_finds hwf hcall with ⟨hwf', core, hcore, hto, -⟩
  rcases setCoreHash_same hwf' hcore hto with ⟨n, hthrows⟩
  exact ⟨_, hthrows⟩

/-- The call throws only if the core of the measurement is the one found for the hash. -/
theorem setCoreHash_isOk (hwf : repo.WellFormed) {m : MeasurementHash} {hash : CoreHash}
    (hfound : ∀ core, repo.measurementToCore m = some core →
      repo.coreHashToCore hash ≠ some core) :
    ∃ repo', repo.setCoreHash m hash = (.ok (), repo') := by
  rcases coreForMeasurement_spec hwf m with ⟨hwfKnown, -, hto, hm, hcases⟩
  have hne : ∀ coreForHash, repo.coreHashToCore hash = some coreForHash →
      (repo.coreForMeasurement m).1 ≠ coreForHash := by
    rintro coreForHash hforHash rfl
    rcases hcases with ⟨hknown, -⟩ | ⟨-, hnew, -⟩
    · exact hfound _ hknown hforHash
    · exact Nat.lt_irrefl _ (hnew ▸ hwf.hash_used hash _ hforHash)
  unfold setCoreHash
  simp only
  rw [hto]
  cases hforHash : repo.coreHashToCore hash with
  | none => exact ⟨_, rfl⟩
  | some coreForHash => exact moveMeasurements_isOk hwfKnown (hne _ hforHash) hm

end WellFormed

/-! ## What is expected of the method -/

/-- A core hash that was set is the core hash of the whole class, setting it again does
nothing, and another one for a class that has a core hash is rejected. -/
structure KeepsCoreHashes (repo : MeasurementHashRepository MeasurementHash CoreHash)
    (m : MeasurementHash) (hash : CoreHash) : Prop where
  sets : ∀ repo', repo.setCoreHash m hash = (.ok (), repo') →
    ∀ n, repo'.areCoresEqual m n = true → repo'.getCoreHash n = some hash
  again : ∀ repo', repo.setCoreHash m hash = (.ok (), repo') →
    repo'.setCoreHash m hash = (.ok (), repo')
  rejects : ∀ other, repo.getCoreHash m = some other → other ≠ hash →
    ∃ e, repo.setCoreHash m hash = (.error e, repo)

/-- The measurement has the core found for the hash, and no other core hash. -/
def HasCoreForHash (repo : MeasurementHashRepository MeasurementHash CoreHash)
    (m : MeasurementHash) (hash : CoreHash) : Prop :=
  (∃ core, repo.measurementToCore m = some core ∧ repo.coreHashToCore hash = some core) ∧
    ∀ other, repo.getCoreHash m = some other → other = hash

omit [DecidableEq CoreHash] in
/-- A well-formed repository is not the same once a measurement was added to a collection. -/
theorem associate_ne (repo : MeasurementHashRepository MeasurementHash CoreHash) (core : CoreRef)
    (m : MeasurementHash) : repo.associate core m ≠ repo := by
  intro heq
  have hlength := congrArg (fun r => ((r.coreToMeasurement core).getD []).length) heq
  simp [associate, putMeasurement] at hlength

/-- Merging classes with different core hashes is always rejected by
{lit}`setHaveEqualCores`.  For {lit}`setCoreHash` the core hashes are kept in order exactly
when the call is the repetition of an earlier one, which throws. -/
theorem keepsCoreHashes_iff (calls : List (Call MeasurementHash CoreHash)) :
    (∀ a b hashA hashB, (afterCalls calls).getCoreHash a = some hashA →
      (afterCalls calls).getCoreHash b = some hashB → hashA ≠ hashB →
      ∃ e, (afterCalls calls).setHaveEqualCores a b = (.error e, afterCalls calls)) ∧
    ∀ (m : MeasurementHash) (hash : CoreHash),
      KeepsCoreHashes (afterCalls calls) m hash ↔ HasCoreForHash (afterCalls calls) m hash := by
  have hwf := afterCalls_wellFormed calls
  generalize afterCalls calls = repo at *
  constructor
  · intro a b hashA hashB ha hb hne
    exact setHaveEqualCores_rejects ha hb hne
  · intro m hash
    constructor
    · intro hkeeps
      have hfound : ∃ core, repo.measurementToCore m = some core ∧
          repo.coreHashToCore hash = some core := by
        by_contra hnone
        rcases setCoreHash_isOk hwf (fun core hm hto => hnone ⟨core, hm, hto⟩) with
          ⟨repo', hcall⟩
        rcases setCoreHash_again hwf hcall with ⟨left, hthrows⟩
        rw [hkeeps.again repo' hcall] at hthrows
        cases hthrows
      refine ⟨hfound, ?_⟩
      rcases hfound with ⟨core, hm, hto⟩
      intro other hother
      by_contra hne
      rcases hkeeps.rejects other hother hne with ⟨e, hrejected⟩
      rcases setCoreHash_same hwf hm hto with ⟨n, hthrows⟩
      rw [hthrows] at hrejected
      exact associate_ne repo core n (Prod.mk.inj hrejected).2
    · rintro ⟨⟨core, hm, hto⟩, hsame⟩
      rcases setCoreHash_same hwf hm hto with ⟨n, hthrows⟩
      constructor
      case sets =>
        intro repo' hcall
        rw [hthrows] at hcall
        cases hcall
      case again =>
        intro repo' hcall
        rw [hthrows] at hcall
        cases hcall
      case rejects =>
        intro other hother hne
        exact absurd (hsame other hother) hne

/-- A core hash that is set a second time is kept. -/
theorem keepsCoreHashes_repeated :
    KeepsCoreHashes (afterCalls [.setCoreHash 1 7] : MeasurementHashRepository Nat Nat) 1 7 := by
  rw [(keepsCoreHashes_iff [.setCoreHash 1 7]).2 1 7]
  refine ⟨⟨0, rfl, rfl⟩, ?_⟩
  intro other hother
  exact (Option.some.inj hother).symm

/-- On the empty repository the first call returns and its repetition throws. -/
theorem not_keepsCoreHashes :
    ¬KeepsCoreHashes (afterCalls [] : MeasurementHashRepository Nat Nat) 1 7 := by
  intro hkeeps
  have hfirst : ∃ repo', (afterCalls [] : MeasurementHashRepository Nat Nat).setCoreHash 1 7 =
      (.ok (), repo') := ⟨_, rfl⟩
  rcases hfirst with ⟨repo', hcall⟩
  rcases setCoreHash_again empty_wellFormed hcall with ⟨left, hthrows⟩
  rw [hkeeps.again repo' hcall] at hthrows
  cases hthrows

end MeasurementHashRepository
end Roofline
