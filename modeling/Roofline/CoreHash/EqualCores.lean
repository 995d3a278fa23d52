import Roofline.CoreHash.MeasurementHashRepository

/-!
# Which cores a sequence of calls has made equal

The purpose of {lit}`MeasurementHashRepository` is to answer whether two
measurements need the same core, given the equalities and core hashes it was
told.  This file states that purpose as an equivalence generated by the calls and
compares the three maps of the repository with it.

Main results:

- Theorem {lit}`areCoresEqual_tracks_calls_iff`: the answers agree with the calls in
  every state of a run exactly when no call sets a core hash whose core was merged
  away, for a measurement that was not already known to have that core.
- Theorem {lit}`areCoresEqual_not_tracks_calls`: four calls after which the answer
  is wrong.
-/

namespace Roofline
namespace MeasurementHashRepository

open ClassMap Runs

variable {MeasurementHash CoreHash : Type}

/-! ## What the calls say -/

/-- The measurement is an argument of the call. -/
def Call.Mentions (m : MeasurementHash) : Call MeasurementHash CoreHash → Prop
  | .setHaveEqualCores a b => m = a ∨ m = b
  | .setCoreHash a _ => m = a

/-- The measurement occurred in some call. -/
def Occurred (calls : List (Call MeasurementHash CoreHash)) (m : MeasurementHash) : Prop :=
  ∃ call ∈ calls, call.Mentions m

/-- A call gave the measurement this core hash. -/
def WasGiven (calls : List (Call MeasurementHash CoreHash)) (m : MeasurementHash)
    (hash : CoreHash) : Prop :=
  Call.setCoreHash m hash ∈ calls

/-- The calls say directly that the two measurements have equal cores. -/
def StatedEqual (calls : List (Call MeasurementHash CoreHash)) (a b : MeasurementHash) :
    Prop :=
  Call.setHaveEqualCores a b ∈ calls ∨ ∃ hash, WasGiven calls a hash ∧ WasGiven calls b hash

/-- The reflexive, symmetric and transitive closure of the stated equalities. -/
def Connected (calls : List (Call MeasurementHash CoreHash)) :
    MeasurementHash → MeasurementHash → Prop :=
  Relation.EqvGen (StatedEqual calls)

/-- The repository answers as the calls demand, and equal known core hashes are
reported as equal cores. -/
def AnswersMatch (calls : List (Call MeasurementHash CoreHash))
    (repo : MeasurementHashRepository MeasurementHash CoreHash) : Prop :=
  (∀ a b, repo.areCoresEqual a b = true ↔
    Occurred calls a ∧ Occurred calls b ∧ Connected calls a b) ∧
  ∀ a b hash, repo.getCoreHash a = some hash → repo.getCoreHash b = some hash →
    repo.areCoresEqual a b = true

/-- A core was once found for the hash, and a merge has emptied it since. -/
def MergedAway (repo : MeasurementHashRepository MeasurementHash CoreHash)
    (hash : CoreHash) : Prop :=
  ∃ core, repo.coreHashToCore hash = some core ∧ repo.coreToMeasurement core = none

/-- The next call does not set a core hash whose core was merged away, unless its
measurement is connected already to those which were given that hash. -/
def AvoidsMergedCore (before : List (Call MeasurementHash CoreHash))
    (repo : MeasurementHashRepository MeasurementHash CoreHash) :
    Call MeasurementHash CoreHash → Prop
  | .setHaveEqualCores _ _ => True
  | .setCoreHash m hash =>
      MergedAway repo hash → ∀ n, WasGiven before n hash → Connected before n m

/-! ## How one call extends the closure -/

section Closure

variable {calls : List (Call MeasurementHash CoreHash)}

/-- What has occurred after one more call. -/
theorem occurred_append_singleton (call : Call MeasurementHash CoreHash)
    (m : MeasurementHash) :
    Occurred (calls ++ [call]) m ↔ Occurred calls m ∨ call.Mentions m := by
  simp only [Occurred, List.mem_append, List.mem_singleton]
  constructor
  · rintro ⟨c, hc | rfl, hm⟩
    · exact Or.inl ⟨c, hc, hm⟩
    · exact Or.inr hm
  · rintro (⟨c, hc, hm⟩ | hm)
    · exact ⟨c, Or.inl hc, hm⟩
    · exact ⟨call, Or.inr rfl, hm⟩

/-- Reporting equal cores gives no core hash. -/
theorem wasGiven_append_setHaveEqualCores (a b m : MeasurementHash) (hash : CoreHash) :
    WasGiven (calls ++ [.setHaveEqualCores a b]) m hash ↔ WasGiven calls m hash := by
  simp [WasGiven]

/-- Which core hashes were given after one more was set. -/
theorem wasGiven_append_setCoreHash (a m : MeasurementHash) (h hash : CoreHash) :
    WasGiven (calls ++ [.setCoreHash a h]) m hash ↔
      WasGiven calls m hash ∨ (m = a ∧ hash = h) := by
  simp [WasGiven]

/-- A measurement that was given a core hash has occurred. -/
theorem WasGiven.occurred {m : MeasurementHash} {hash : CoreHash}
    (hgiven : WasGiven calls m hash) : Occurred calls m :=
  ⟨_, hgiven, rfl⟩

/-- Different connected measurements both occurred. -/
theorem Connected.eq_or_occurred {x y : MeasurementHash} (h : Connected calls x y) :
    x = y ∨ (Occurred calls x ∧ Occurred calls y) := by
  induction h with
  | rel x y hr =>
      rcases hr with hcall | ⟨hash, hx, hy⟩
      · exact Or.inr ⟨⟨_, hcall, Or.inl rfl⟩, ⟨_, hcall, Or.inr rfl⟩⟩
      · exact Or.inr ⟨hx.occurred, hy.occurred⟩
  | refl x => exact Or.inl rfl
  | symm x y _ ih =>
      rcases ih with rfl | ⟨hx, hy⟩
      · exact Or.inl rfl
      · exact Or.inr ⟨hy, hx⟩
  | trans x y z _ _ ihxy ihyz =>
      rcases ihxy with rfl | ⟨hx, hy⟩
      · exact ihyz
      · rcases ihyz with rfl | ⟨_, hz⟩
        · exact Or.inr ⟨hx, hy⟩
        · exact Or.inr ⟨hx, hz⟩

/-- Reporting equal cores joins the classes of the two measurements. -/
theorem connected_append_setHaveEqualCores (a b x y : MeasurementHash) :
    Connected (calls ++ [.setHaveEqualCores a b]) x y ↔ Joined (Connected calls) a b x y := by
  have hrel : StatedEqual (calls ++ [.setHaveEqualCores a b]) =
      Adjoin (StatedEqual calls) a b := by
    funext x y
    simp only [StatedEqual, Adjoin, wasGiven_append_setHaveEqualCores, List.mem_append,
      List.mem_singleton, Call.setHaveEqualCores.injEq, eq_iff_iff]
    exact or_right_comm
  rw [Connected, hrel]
  exact eqvGen_adjoin _ a b x y

/-- The first time a core hash is given it connects nobody. -/
theorem connected_append_setCoreHash_first {m : MeasurementHash} {hash : CoreHash}
    (hfirst : ∀ n, ¬WasGiven calls n hash) (x y : MeasurementHash) :
    Connected (calls ++ [.setCoreHash m hash]) x y ↔ Connected calls x y := by
  constructor
  · apply eqvGen_le
    rintro x y (hcall | ⟨h, hx, hy⟩)
    · refine .rel _ _ (Or.inl ?_)
      simpa using hcall
    · rw [wasGiven_append_setCoreHash] at hx hy
      rcases hx with hx | ⟨rfl, rfl⟩
      · rcases hy with hy | ⟨rfl, rfl⟩
        · exact .rel _ _ (Or.inr ⟨h, hx, hy⟩)
        · exact absurd hx (hfirst x)
      · rcases hy with hy | ⟨rfl, -⟩
        · exact absurd hy (hfirst y)
        · exact .refl _
  · apply eqvGen_le
    rintro x y (hcall | ⟨h, hx, hy⟩)
    · exact .rel _ _ (Or.inl (by simp [hcall]))
    · exact .rel _ _ (Or.inr ⟨h, by simp [WasGiven, show _ ∈ calls from hx],
        by simp [WasGiven, show _ ∈ calls from hy]⟩)

/-- Giving a core hash again connects the measurement to those that had it. -/
theorem connected_append_setCoreHash_again {m n : MeasurementHash} {hash : CoreHash}
    (hgiven : WasGiven calls n hash) (x y : MeasurementHash) :
    Connected (calls ++ [.setCoreHash m hash]) x y ↔ Joined (Connected calls) m n x y := by
  refine Iff.trans ?_ (eqvGen_adjoin (StatedEqual calls) m n x y)
  have hedge : Relation.EqvGen (Adjoin (StatedEqual calls) m n) m n :=
    .rel _ _ (Or.inr ⟨rfl, rfl⟩)
  have hpeer : ∀ z, WasGiven calls z hash →
      Relation.EqvGen (Adjoin (StatedEqual calls) m n) z m := by
    intro z hz
    have hzn : StatedEqual calls z n := Or.inr ⟨hash, hz, hgiven⟩
    have hold : Relation.EqvGen (Adjoin (StatedEqual calls) m n) z n := .rel _ _ (Or.inl hzn)
    exact hold.trans _ _ _ hedge.symm
  constructor
  · apply eqvGen_le
    rintro x y (hcall | ⟨h, hx, hy⟩)
    · refine .rel _ _ (Or.inl (Or.inl ?_))
      simpa using hcall
    · rw [wasGiven_append_setCoreHash] at hx hy
      rcases hx with hx | ⟨rfl, rfl⟩
      · rcases hy with hy | ⟨rfl, rfl⟩
        · exact .rel _ _ (Or.inl (Or.inr ⟨h, hx, hy⟩))
        · exact hpeer x hx
      · rcases hy with hy | ⟨rfl, -⟩
        · exact (hpeer y hy).symm
        · exact .refl _
  · apply eqvGen_le
    rintro x y ((hcall | ⟨h, hx, hy⟩) | ⟨rfl, rfl⟩)
    · exact .rel _ _ (Or.inl (by simp [hcall]))
    · exact .rel _ _ (Or.inr ⟨h, by simp [WasGiven, show _ ∈ calls from hx],
        by simp [WasGiven, show _ ∈ calls from hy]⟩)
    · exact .rel _ _ (Or.inr ⟨hash, by simp [WasGiven],
        by simp [WasGiven, show _ ∈ calls from hgiven]⟩)

end Closure

/-! ## The invariant of the core hashes -/

/-- How the core hashes of the repository relate to the hashes that were given.

A core that a merge has emptied may still be found through the hash map.  The
measurements that were given its hashes stay together nevertheless, which is
what {lit}`givers` and {lit}`hashedGiven` say about every core, emptied or not. -/
structure HashesTrack (given : MeasurementHash → CoreHash → Prop)
    (repo : MeasurementHashRepository MeasurementHash CoreHash) : Prop where
  known : ∀ hash, repo.coreHashToCore hash = none ↔ ∀ n, ¬given n hash
  givers : ∀ {hash₁ hash₂ n₁ n₂ core}, repo.coreHashToCore hash₁ = some core →
    repo.coreHashToCore hash₂ = some core → given n₁ hash₁ → given n₂ hash₂ →
    SameClass repo.measurementToCore n₁ n₂
  live : ∀ {hash n x core}, repo.coreHashToCore hash = some core → given n hash →
    repo.measurementToCore x = some core → repo.measurementToCore n = some core
  hashed : ∀ {hash x core}, repo.coreHash core = some hash →
    repo.measurementToCore x = some core →
    ∃ n, given n hash ∧ SameClass repo.measurementToCore n x
  hashedGiven : ∀ {hash hash₀ n core}, repo.coreHash core = some hash₀ →
    repo.coreHashToCore hash = some core → given n hash →
    ∃ n₀, given n₀ hash₀ ∧ SameClass repo.measurementToCore n₀ n

section HashesTrack

variable {given : MeasurementHash → CoreHash → Prop}
variable {repo repo' : MeasurementHashRepository MeasurementHash CoreHash}

/-- A hash that leads to a core was given to somebody. -/
theorem HashesTrack.exists_given (hinv : HashesTrack given repo) {hash : CoreHash}
    {core : CoreRef} (hto : repo.coreHashToCore hash = some core) : ∃ n, given n hash := by
  by_contra hnone
  have hnull := (hinv.known hash).mpr (not_exists.mp hnone)
  simp [hto] at hnull

/-- What was in one class when the hashes were given is still in one. -/
theorem HashesTrack.givers_mono (hinv : HashesTrack given repo)
    (hmono : ∀ {x y}, SameClass repo.measurementToCore x y → SameClass repo'.measurementToCore x y)
    (hto : repo'.coreHashToCore = repo.coreHashToCore) {hash₁ hash₂ : CoreHash}
    {n₁ n₂ : MeasurementHash} {core : CoreRef} (h₁ : repo'.coreHashToCore hash₁ = some core)
    (h₂ : repo'.coreHashToCore hash₂ = some core) (hg₁ : given n₁ hash₁) (hg₂ : given n₂ hash₂) :
    SameClass repo'.measurementToCore n₁ n₂ := by
  rw [hto] at h₁ h₂
  exact hmono (hinv.givers h₁ h₂ hg₁ hg₂)

/-- New measurements, in old cores or in cores no hash leads to, keep the invariant. -/
theorem HashesTrack.extend (hinv : HashesTrack given repo)
    (hkeep : ∀ {x core}, repo.measurementToCore x = some core →
      repo'.measurementToCore x = some core)
    (hnew : ∀ {x core}, repo'.measurementToCore x = some core →
      (∃ y, repo.measurementToCore y = some core) ∨
        (repo.coreHash core = none ∧ ∀ hash, repo.coreHashToCore hash ≠ some core))
    (hhash : repo'.coreHash = repo.coreHash)
    (hto : repo'.coreHashToCore = repo.coreHashToCore) : HashesTrack given repo' := by
  have hmono : ∀ {x y}, SameClass repo.measurementToCore x y →
      SameClass repo'.measurementToCore x y := by
    rintro x y ⟨c, hx, hy⟩
    exact ⟨c, hkeep hx, hkeep hy⟩
  constructor
  case known =>
    simpa only [hto] using hinv.known
  case givers =>
    intro hash₁ hash₂ n₁ n₂ core h₁ h₂ hg₁ hg₂
    exact hinv.givers_mono hmono hto h₁ h₂ hg₁ hg₂
  case live =>
    intro hash n x core hcore hg hx
    rw [hto] at hcore
    rcases hnew hx with ⟨y, hy⟩ | ⟨_, hunused⟩
    · exact hkeep (hinv.live hcore hg hy)
    · exact absurd hcore (hunused hash)
  case hashed =>
    intro hash x core hcore hx
    rw [hhash] at hcore
    rcases hnew hx with ⟨y, hy⟩ | ⟨hnull, _⟩
    · rcases hinv.hashed hcore hy with ⟨n, hg, hn⟩
      refine ⟨n, hg, (hmono hn).trans ⟨core, hkeep hy, hx⟩⟩
    · simp [hnull] at hcore
  case hashedGiven =>
    intro hash hash₀ n core hcore hcoreTo hg
    rw [hhash] at hcore
    rw [hto] at hcoreTo
    rcases hinv.hashedGiven hcore hcoreTo hg with ⟨n₀, hg₀, hn₀⟩
    exact ⟨n₀, hg₀, hmono hn₀⟩

/-- Redirecting measurements to another core separates none. -/
theorem sameClass_of_redirect {source target : CoreRef}
    (hmtc : repo'.measurementToCore = redirect repo.measurementToCore source target)
    {x y : MeasurementHash} (h : SameClass repo.measurementToCore x y) :
    SameClass repo'.measurementToCore x y := by
  rw [hmtc]
  exact h.redirect source target

/-- Merging two cores that both have measurements keeps the invariant. -/
theorem HashesTrack.merge (hinv : HashesTrack given repo) {a b : MeasurementHash}
    {target source : CoreRef} (ha : repo.measurementToCore a = some target)
    (hb : repo.measurementToCore b = some source)
    (hmtc : repo'.measurementToCore = redirect repo.measurementToCore source target)
    (hhash : MergedCoreHash repo repo' target source)
    (hto : repo'.coreHashToCore = repo.coreHashToCore) : HashesTrack given repo' := by
  have hmono : ∀ {x y}, SameClass repo.measurementToCore x y →
      SameClass repo'.measurementToCore x y := sameClass_of_redirect hmtc
  have hab : SameClass repo'.measurementToCore b a := by
    rw [hmtc]
    exact ⟨target, redirect_eq_target (.inl hb), redirect_eq_target (.inr ha)⟩
  -- a core that still has measurements is the target or was not touched
  have hold : ∀ {x core}, repo'.measurementToCore x = some core →
      (core = target ∧ SameClass repo'.measurementToCore a x) ∨
        (core ≠ target ∧ repo.measurementToCore x = some core ∧ core ≠ source) := by
    intro x core hx
    by_cases hct : core = target
    · subst hct
      refine Or.inl ⟨rfl, core, ?_, hx⟩
      rw [hmtc]
      exact redirect_eq_target (.inr ha)
    · rw [hmtc, redirect_eq_some_iff hct] at hx
      exact Or.inr ⟨hct, hx⟩
  constructor
  case known =>
    simpa only [hto] using hinv.known
  case givers =>
    intro hash₁ hash₂ n₁ n₂ core h₁ h₂ hg₁ hg₂
    exact hinv.givers_mono hmono hto h₁ h₂ hg₁ hg₂
  case live =>
    intro hash n x core hcore hg hx
    rw [hto] at hcore
    rw [hmtc]
    rcases hold hx with ⟨rfl, _⟩ | ⟨hct, hx', hcs⟩
    · exact redirect_eq_target (.inr (hinv.live hcore hg ha))
    · exact (redirect_eq_some_iff hct).mpr ⟨hinv.live hcore hg hx', hcs⟩
  case hashed =>
    intro hash x core hcore hx
    rcases hold hx with ⟨rfl, hax⟩ | ⟨hct, hx', _⟩
    · rcases hhash with ⟨_, heq⟩ | ⟨hashB, hB, _, heq⟩
      · rw [heq] at hcore
        rcases hinv.hashed hcore ha with ⟨n, hg, hn⟩
        exact ⟨n, hg, (hmono hn).trans hax⟩
      · obtain rfl : hashB = hash := by simpa [heq] using hcore
        rcases hinv.hashed hB hb with ⟨n, hg, hn⟩
        exact ⟨n, hg, ((hmono hn).trans hab).trans hax⟩
    · have hcore' : repo.coreHash core = some hash := by
        rcases hhash with ⟨_, heq⟩ | ⟨hashB, _, _, heq⟩
        · rwa [heq] at hcore
        · simpa [heq, hct] using hcore
      rcases hinv.hashed hcore' hx' with ⟨n, hg, hn⟩
      exact ⟨n, hg, hmono hn⟩
  case hashedGiven =>
    intro hash hash₀ n core hcore hcoreTo hg
    rw [hto] at hcoreTo
    rcases hhash with ⟨_, heq⟩ | ⟨hashB, hB, _, heq⟩
    · rw [heq] at hcore
      rcases hinv.hashedGiven hcore hcoreTo hg with ⟨n₀, hg₀, hn₀⟩
      exact ⟨n₀, hg₀, hmono hn₀⟩
    · by_cases hct : core = target
      · subst hct
        obtain rfl : hashB = hash₀ := by simpa [heq] using hcore
        rcases hinv.hashed hB hb with ⟨n₀, hg₀, hn₀⟩
        have hn : SameClass repo.measurementToCore a n :=
          ⟨core, ha, hinv.live hcoreTo hg ha⟩
        exact ⟨n₀, hg₀, ((hmono hn₀).trans hab).trans (hmono hn)⟩
      · have hcore' : repo.coreHash core = some hash₀ := by simpa [heq, hct] using hcore
        rcases hinv.hashedGiven hcore' hcoreTo hg with ⟨n₀, hg₀, hn₀⟩
        exact ⟨n₀, hg₀, hmono hn₀⟩

/-- Recording a hash nobody was given before keeps the invariant. -/
theorem HashesTrack.record [DecidableEq CoreHash] (hinv : HashesTrack given repo)
    {m : MeasurementHash} {core : CoreRef} {hash : CoreHash} (hm : repo.measurementToCore m = some core)
    (hnone : repo.coreHashToCore hash = none)
    (hmtc : repo'.measurementToCore = repo.measurementToCore)
    (hhash : repo'.coreHash = Function.update repo.coreHash core (some hash))
    (hto : repo'.coreHashToCore = Function.update repo.coreHashToCore hash (some core)) :
    HashesTrack (fun n h => given n h ∨ (n = m ∧ h = hash)) repo' := by
  have hfirst := (hinv.known hash).mp hnone
  -- whoever was given a hash that now leads to the core has that core
  have hmember : ∀ {h n c}, repo'.coreHashToCore h = some c →
      given n h ∨ (n = m ∧ h = hash) → c = core → repo.measurementToCore n = some core := by
    rintro h n c hc (hg | ⟨rfl, rfl⟩) rfl
    · have hne : h ≠ hash := by
        rintro rfl
        exact hfirst n hg
      exact hinv.live (by simpa [hto, hne] using hc) hg hm
    · exact hm
  -- and every other hash still leads where it led
  have hother : ∀ {h n c}, repo'.coreHashToCore h = some c →
      given n h ∨ (n = m ∧ h = hash) → c ≠ core →
      repo.coreHashToCore h = some c ∧ given n h := by
    intro h n c hc hg hne
    have hh : h ≠ hash := by
      rintro rfl
      exact hne (by simpa [hto] using hc.symm)
    refine ⟨by simpa [hto, hh] using hc, hg.resolve_right fun h' => hh h'.2⟩
  constructor
  case known =>
    intro h
    by_cases hh : h = hash
    · subst hh
      constructor
      · simp [hto]
      · intro hall
        exact absurd (Or.inr ⟨rfl, rfl⟩) (hall m)
    · simp [hto, hh, hinv.known h]
  case givers =>
    intro hash₁ hash₂ n₁ n₂ c h₁ h₂ hg₁ hg₂
    rw [hmtc]
    by_cases hc : c = core
    · exact ⟨core, hmember h₁ hg₁ hc, hmember h₂ hg₂ hc⟩
    · rcases hother h₁ hg₁ hc with ⟨ht₁, hg₁'⟩
      rcases hother h₂ hg₂ hc with ⟨ht₂, hg₂'⟩
      exact hinv.givers ht₁ ht₂ hg₁' hg₂'
  case live =>
    intro h n x c hc hg hx
    rw [hmtc] at hx ⊢
    by_cases hcore : c = core
    · exact hcore ▸ hmember hc hg hcore
    · rcases hother hc hg hcore with ⟨ht, hg'⟩
      exact hinv.live ht hg' hx
  case hashed =>
    intro h x c hc hx
    rw [hmtc] at hx ⊢
    by_cases hcore : c = core
    · subst hcore
      obtain rfl : hash = h := by simpa [hhash] using hc
      exact ⟨m, Or.inr ⟨rfl, rfl⟩, c, hm, hx⟩
    · rcases hinv.hashed (by simpa [hhash, hcore] using hc) hx with ⟨n, hg, hn⟩
      exact ⟨n, Or.inl hg, hn⟩
  case hashedGiven =>
    intro h h₀ n c hc hcTo hg
    rw [hmtc]
    by_cases hcore : c = core
    · subst hcore
      obtain rfl : hash = h₀ := by simpa [hhash] using hc
      exact ⟨m, Or.inr ⟨rfl, rfl⟩, c, hm, hmember hcTo hg rfl⟩
    · rcases hother hcTo hg hcore with ⟨ht, hg'⟩
      rcases hinv.hashedGiven (by simpa [hhash, hcore] using hc) ht hg' with ⟨n₀, hg₀, hn₀⟩
      exact ⟨n₀, Or.inl hg₀, hn₀⟩

/-- Moving a core to the core found for a hash keeps the invariant, if that core
has measurements or all who were given the hash move along. -/
theorem HashesTrack.mergeForHash (hinv : HashesTrack given repo) {m : MeasurementHash}
    {core coreForHash : CoreRef} {hash : CoreHash}
    (hm : repo.measurementToCore m = some core)
    (hsome : repo.coreHashToCore hash = some coreForHash)
    (hmoves : (∃ y, repo.measurementToCore y = some coreForHash) ∨
      ∀ n, given n hash → repo.measurementToCore n = some core)
    (hmtc : repo'.measurementToCore = redirect repo.measurementToCore core coreForHash)
    (hhash : repo'.coreHash = repo.coreHash)
    (hto : repo'.coreHashToCore = repo.coreHashToCore) :
    HashesTrack (fun n h => given n h ∨ (n = m ∧ h = hash)) repo' := by
  have hmono : ∀ {x y}, SameClass repo.measurementToCore x y →
      SameClass repo'.measurementToCore x y := sameClass_of_redirect hmtc
  have hmoved : ∀ {x}, repo.measurementToCore x = some core ∨
      repo.measurementToCore x = some coreForHash →
      repo'.measurementToCore x = some coreForHash := by
    intro x hx
    rw [hmtc]
    exact redirect_eq_target hx
  -- everyone who was given a hash of the target core ends up there
  have hgivers : ∀ {h n}, repo.coreHashToCore h = some coreForHash → given n h →
      repo'.measurementToCore n = some coreForHash := by
    intro h n hc hg
    rcases hmoves with ⟨y, hy⟩ | hall
    · exact hmoved (Or.inr (hinv.live hc hg hy))
    · rcases hinv.exists_given hsome with ⟨n₀, hg₀⟩
      have hsame := hinv.givers hsome hc hg₀ hg
      exact hmoved (Or.inl ((sameClass_iff_of_eq (hall n₀ hg₀)).mp hsame))
  have hmember : ∀ {h n}, repo.coreHashToCore h = some coreForHash →
      given n h ∨ (n = m ∧ h = hash) → repo'.measurementToCore n = some coreForHash := by
    rintro h n hc (hg | ⟨rfl, rfl⟩)
    · exact hgivers hc hg
    · exact hmoved (Or.inl hm)
  have hother : ∀ {h n c}, repo.coreHashToCore h = some c →
      given n h ∨ (n = m ∧ h = hash) → c ≠ coreForHash → given n h := by
    rintro h n c hc (hg | ⟨rfl, rfl⟩) hcne
    · exact hg
    · exact absurd (Option.some.inj (hc.symm.trans hsome)) hcne
  have hrest : ∀ {x c}, repo'.measurementToCore x = some c → c ≠ coreForHash →
      repo.measurementToCore x = some c ∧ c ≠ core := by
    intro x c hx hcne
    rw [hmtc] at hx
    exact (redirect_eq_some_iff hcne).mp hx
  constructor
  case known =>
    intro h
    rw [hto]
    constructor
    · rintro hnone n (hg | ⟨-, rfl⟩)
      · exact (hinv.known h).mp hnone n hg
      · simp [hsome] at hnone
    · intro hall
      exact (hinv.known h).mpr fun n hg => hall n (Or.inl hg)
  case givers =>
    intro hash₁ hash₂ n₁ n₂ c h₁ h₂ hg₁ hg₂
    rw [hto] at h₁ h₂
    by_cases hc : c = coreForHash
    · subst hc
      exact ⟨c, hmember h₁ hg₁, hmember h₂ hg₂⟩
    · exact hmono (hinv.givers h₁ h₂ (hother h₁ hg₁ hc) (hother h₂ hg₂ hc))
  case live =>
    intro h n x c hc hg hx
    rw [hto] at hc
    by_cases hcne : c = coreForHash
    · subst hcne
      exact hmember hc hg
    · rcases hrest hx hcne with ⟨hx', hcc⟩
      rw [hmtc]
      exact (redirect_eq_some_iff hcne).mpr ⟨hinv.live hc (hother hc hg hcne) hx', hcc⟩
  case hashed =>
    intro h x c hc hx
    rw [hhash] at hc
    by_cases hcne : c = coreForHash
    · subst hcne
      rcases hmoves with ⟨y, hy⟩ | hall
      · rcases hinv.hashed hc hy with ⟨n, hg, hn⟩
        exact ⟨n, Or.inl hg, (hmono hn).trans ⟨c, hmoved (Or.inr hy), hx⟩⟩
      · rcases hinv.exists_given hsome with ⟨n₀, hg₀⟩
        rcases hinv.hashedGiven hc hsome hg₀ with ⟨n, hg, hn⟩
        exact ⟨n, Or.inl hg, (hmono hn).trans ⟨c, hmoved (Or.inl (hall n₀ hg₀)), hx⟩⟩
    · rcases hinv.hashed hc (hrest hx hcne).1 with ⟨n, hg, hn⟩
      exact ⟨n, Or.inl hg, hmono hn⟩
  case hashedGiven =>
    intro h h₀ n c hc hcTo hg
    rw [hhash] at hc
    rw [hto] at hcTo
    by_cases hcne : c = coreForHash
    · subst hcne
      rcases hinv.exists_given hsome with ⟨n₁, hg₁⟩
      rcases hinv.hashedGiven hc hsome hg₁ with ⟨n₀, hg₀, hn₀⟩
      exact ⟨n₀, Or.inl hg₀, (hmono hn₀).trans ⟨c, hgivers hsome hg₁, hmember hcTo hg⟩⟩
    · rcases hinv.hashedGiven hc hcTo (hother hcTo hg hcne) with ⟨n₀, hg₀, hn₀⟩
      exact ⟨n₀, Or.inl hg₀, hmono hn₀⟩

end HashesTrack

/-! ## The invariant of a run -/

/-- The repository after a sequence of calls whose hashes never met an emptied core. -/
structure Tracks (calls : List (Call MeasurementHash CoreHash))
    (repo : MeasurementHashRepository MeasurementHash CoreHash) : Prop where
  wellFormed : repo.WellFormed
  same_iff : ∀ x y, SameClass repo.measurementToCore x y ↔
    Occurred calls x ∧ Occurred calls y ∧ Connected calls x y
  hashes : HashesTrack (WasGiven calls) repo

section Tracks

variable {calls : List (Call MeasurementHash CoreHash)}
variable {repo repo' : MeasurementHashRepository MeasurementHash CoreHash}

/-- An empty repository tracks no calls. -/
theorem tracks_empty :
    Tracks [] (empty : MeasurementHashRepository MeasurementHash CoreHash) where
  wellFormed := empty_wellFormed
  same_iff := by simp [SameClass, empty, Occurred]
  hashes := by constructor <;> simp [empty, WasGiven]

/-- A repository that tracks its calls answers as they demand. -/
theorem Tracks.answersMatch (htracks : Tracks calls repo) : AnswersMatch calls repo := by
  refine ⟨fun a b => (areCoresEqual_eq_true_iff a b).trans (htracks.same_iff a b), ?_⟩
  intro a b hash ha hb
  rw [getCoreHash_eq_some_iff] at ha hb
  rcases ha with ⟨coreA, ha, hhashA⟩
  rcases hb with ⟨coreB, hb, hhashB⟩
  rcases htracks.hashes.hashed hhashA ha with ⟨n, hgn, hn⟩
  rcases htracks.hashes.hashed hhashB hb with ⟨n', hgn', hn'⟩
  rw [areCoresEqual_eq_true_iff]
  cases hto : repo.coreHashToCore hash with
  | none => exact absurd hgn ((htracks.hashes.known hash).mp hto n)
  | some core => exact hn.symm.trans ((htracks.hashes.givers hto hto hgn hgn').trans hn')

/-- The measurements seen before or named by the next call, related as before. -/
theorem Tracks.sameOrNew_iff (htracks : Tracks calls repo) (a b x y : MeasurementHash) :
    SameOrNew repo a b x y ↔
      (Occurred calls x ∨ x = a ∨ x = b) ∧ (Occurred calls y ∨ y = a ∨ y = b) ∧
        Connected calls x y := by
  unfold SameOrNew
  rw [htracks.same_iff]
  constructor
  · rintro (⟨hx, hy, hxy⟩ | ⟨rfl, hnew⟩)
    · exact ⟨Or.inl hx, Or.inl hy, hxy⟩
    · exact ⟨Or.inr hnew, Or.inr hnew, .refl _⟩
  · rintro ⟨hx, hy, hxy⟩
    rcases hxy.eq_or_occurred with rfl | ⟨hx', hy'⟩
    · rcases hx with hx | hx
      · exact Or.inl ⟨hx, hx, hxy⟩
      · exact Or.inr ⟨rfl, hx⟩
    · exact Or.inl ⟨hx', hy', hxy⟩

/-- Joining measurements which are then seen joins their connected classes. -/
theorem joined_seen_iff {S C : MeasurementHash → MeasurementHash → Prop}
    {seen : MeasurementHash → Prop} (hS : ∀ x y, S x y ↔ seen x ∧ seen y ∧ C x y)
    {a b : MeasurementHash} (ha : seen a) (hb : seen b) (x y : MeasurementHash) :
    Joined S a b x y ↔ seen x ∧ seen y ∧ Joined C a b x y := by
  unfold ClassMap.Joined
  simp only [hS, ha, hb, true_and]
  tauto

variable [DecidableEq MeasurementHash]

/-- The repository in which the measurement of {lit}`setCoreHash` has a core. -/
theorem Tracks.coreForMeasurement_hashes (htracks : Tracks calls repo) (m : MeasurementHash) :
    HashesTrack (WasGiven calls) (repo.coreForMeasurement m).2 := by
  rcases coreForMeasurement_spec htracks.wellFormed m with
    ⟨_, hhash, hto, _, ⟨_, hsame⟩ | ⟨hm, _, hmtc⟩⟩
  · exact hsame.symm ▸ htracks.hashes
  · refine htracks.hashes.extend ?_ ?_ hhash hto
    · intro x core hx
      have hxm : x ≠ m := fun h => by simp [h ▸ hm] at hx
      simpa [hmtc, hxm] using hx
    · intro x core hx
      by_cases hxm : x = m
      · obtain rfl : repo.nextCore = core := by simpa [hmtc, hxm] using hx
        refine Or.inr ⟨htracks.wellFormed.unused_hash _ (Nat.le_refl _), ?_⟩
        intro hash hc
        exact Nat.lt_irrefl _ (htracks.wellFormed.hash_used hash _ hc)
      · exact Or.inl ⟨x, by simpa [hmtc, hxm] using hx⟩

/-- A core nobody has, found through a hash, was emptied by a merge. -/
theorem Tracks.mergedAway_of_not_live (htracks : Tracks calls repo) {m : MeasurementHash}
    {hash : CoreHash} {coreForHash : CoreRef}
    (hto : (repo.coreForMeasurement m).2.coreHashToCore hash = some coreForHash)
    (hlive : ¬∃ y, (repo.coreForMeasurement m).2.measurementToCore y = some coreForHash) :
    MergedAway repo hash := by
  rcases coreForMeasurement_spec htracks.wellFormed m with
    ⟨_, _, htoEq, _, ⟨_, hsame⟩ | ⟨hm, _, hmtc⟩⟩
  · rw [hsame] at hto hlive
    refine ⟨coreForHash, hto, ?_⟩
    exact (htracks.wellFormed.coreToMeasurement_eq_none_iff _).mpr (not_exists.mp hlive)
  · refine ⟨coreForHash, htoEq ▸ hto, ?_⟩
    refine (htracks.wellFormed.coreToMeasurement_eq_none_iff _).mpr fun y hy => hlive ⟨y, ?_⟩
    have hym : y ≠ m := fun h => by simp [h ▸ hm] at hy
    simpa [hmtc, hym] using hy

variable [DecidableEq CoreHash]

/-- Reporting equal cores keeps the invariant. -/
theorem Tracks.setHaveEqualCores (htracks : Tracks calls repo) {a b : MeasurementHash}
    (hcall : repo.setHaveEqualCores a b = (.ok (), repo')) :
    Tracks (calls ++ [.setHaveEqualCores a b]) repo' := by
  rcases setHaveEqualCores_ok htracks.wellFormed hcall with ⟨hwf', hto, hset⟩
  refine ⟨hwf', ?_, ?_⟩
  · intro x y
    rw [hset.sameClass_iff htracks.wellFormed,
      joined_seen_iff (htracks.sameOrNew_iff a b) (Or.inr (Or.inl rfl)) (Or.inr (Or.inr rfl)),
      occurred_append_singleton, occurred_append_singleton,
      connected_append_setHaveEqualCores]
    rfl
  · have hgiven : WasGiven (calls ++ [.setHaveEqualCores a b]) = WasGiven calls := by
      funext m hash
      exact propext (wasGiven_append_setHaveEqualCores a b m hash)
    rw [hgiven]
    cases hset with
    | alreadyEqual ha hb hsame => exact hsame ▸ htracks.hashes
    | bothNew ha hb hmtc hhash =>
        refine htracks.hashes.extend ?_ ?_ hhash hto
        · intro x core hx
          have hxa : x ≠ a := fun h => by simp [h ▸ ha] at hx
          have hxb : x ≠ b := fun h => by simp [h ▸ hb] at hx
          simpa [hmtc, hxa, hxb] using hx
        · intro x core hx
          by_cases hold : repo.measurementToCore x = some core
          · exact Or.inl ⟨x, hold⟩
          · have hcore : core = repo.nextCore := by
              rw [hmtc] at hx
              by_cases hxb : x = b
              · simpa [hxb, eq_comm] using hx
              · by_cases hxa : x = a
                · subst hxa
                  simpa [hxb, eq_comm] using hx
                · exact absurd (by simpa [hxa, hxb] using hx) hold
            subst hcore
            refine Or.inr ⟨htracks.wellFormed.unused_hash _ (Nat.le_refl _), ?_⟩
            intro hash hc
            exact Nat.lt_irrefl _ (htracks.wellFormed.hash_used hash _ hc)
    | @oneNew u v core hpair hu hv hmtc hhash =>
        refine htracks.hashes.extend ?_ ?_ hhash hto
        · intro x c hx
          have hxu : x ≠ u := fun h => by simp [h ▸ hu] at hx
          simpa [hmtc, hxu] using hx
        · intro x c hx
          apply Or.inl
          by_cases hxu : x = u
          · obtain rfl : core = c := by simpa [hmtc, hxu] using hx
            exact ⟨v, hv⟩
          · exact ⟨x, by simpa [hmtc, hxu] using hx⟩
    | merged _ hu hv _ hmtc hhash => exact htracks.hashes.merge hu hv hmtc hhash hto

/-- Setting a core hash that was not merged away keeps it. -/
theorem Tracks.setCoreHash (htracks : Tracks calls repo) {m : MeasurementHash}
    {hash : CoreHash}
    (havoids : AvoidsMergedCore calls repo (.setCoreHash m hash))
    (hcall : repo.setCoreHash m hash = (.ok (), repo')) :
    Tracks (calls ++ [.setCoreHash m hash]) repo' := by
  rcases setCoreHash_ok htracks.wellFormed hcall with ⟨hwf', hset⟩
  have hinv := htracks.coreForMeasurement_hashes m
  have hsame := coreForMeasurement_sameClass_iff htracks.wellFormed m
  rcases coreForMeasurement_spec htracks.wellFormed m with ⟨_, _, _, hm, _⟩
  have hseen : ∀ x, Occurred (calls ++ [.setCoreHash m hash]) x ↔
      Occurred calls x ∨ x = m ∨ x = m := by
    intro x
    rw [occurred_append_singleton, or_self]
    rfl
  have hgiven : WasGiven (calls ++ [.setCoreHash m hash]) =
      fun n h => WasGiven calls n h ∨ (n = m ∧ h = hash) := by
    funext n h
    exact propext (wasGiven_append_setCoreHash m n hash h)
  have hknown : ∀ x y, SameClass (repo.coreForMeasurement m).2.measurementToCore x y ↔
      Occurred (calls ++ [.setCoreHash m hash]) x ∧
        Occurred (calls ++ [.setCoreHash m hash]) y ∧ Connected calls x y := by
    intro x y
    rw [hsame, htracks.sameOrNew_iff, hseen, hseen]
  cases hset with
  | newHash hnone hmtc hhash hto =>
      refine ⟨hwf', ?_, hgiven ▸ hinv.record hm hnone hmtc hhash hto⟩
      intro x y
      rw [hmtc, hknown, connected_append_setCoreHash_first ((hinv.known hash).mp hnone)]
  | @merged coreForHash hsome _ hmtc hhash hto =>
      rcases hinv.exists_given hsome with ⟨n, hn⟩
      by_cases hlive : ∃ y, (repo.coreForMeasurement m).2.measurementToCore y = some coreForHash
      · refine ⟨hwf', ?_, hgiven ▸ hinv.mergeForHash hm hsome (Or.inl hlive) hmtc hhash hto⟩
        rcases hlive with ⟨y₀, hy₀⟩
        intro x y
        have hnOccurred : Occurred (calls ++ [.setCoreHash m hash]) n :=
          (hseen n).mpr (Or.inl hn.occurred)
        have hmOccurred : Occurred (calls ++ [.setCoreHash m hash]) m :=
          (hseen m).mpr (Or.inr (Or.inl rfl))
        rw [hmtc, sameClass_redirect hm (hinv.live hsome hn hy₀),
          joined_seen_iff hknown hmOccurred hnOccurred, connected_append_setCoreHash_again hn]
      · have hmerged := htracks.mergedAway_of_not_live hsome hlive
        have hall : ∀ z, WasGiven calls z hash →
            (repo.coreForMeasurement m).2.measurementToCore z =
              some (repo.coreForMeasurement m).1 := by
          intro z hz
          have hzm : SameClass (repo.coreForMeasurement m).2.measurementToCore m z :=
            (hknown m z).mpr ⟨(hseen m).mpr (Or.inr (Or.inl rfl)),
              (hseen z).mpr (Or.inl hz.occurred), (havoids hmerged z hz).symm⟩
          exact (sameClass_iff_of_eq hm).mp hzm
        refine ⟨hwf', ?_, hgiven ▸ hinv.mergeForHash hm hsome (Or.inr hall) hmtc hhash hto⟩
        intro x y
        have hjoined : Joined (Connected calls) m n x y ↔ Connected calls x y :=
          joined_of_rel (fun _ _ h => h.symm) (fun _ _ _ h h' => h.trans _ _ _ h')
            (havoids hmerged n hn).symm x y
        rw [hmtc, sameClass_redirect_unused (not_exists.mp hlive), hknown,
          connected_append_setCoreHash_again hn, hjoined]

/-- Every call that avoids merged cores keeps it. -/
theorem Tracks.step (htracks : Tracks calls repo) {call : Call MeasurementHash CoreHash}
    (havoids : AvoidsMergedCore calls repo call) (hstep : repo.step call = .ok repo') :
    Tracks (calls ++ [call]) repo' := by
  rw [step_eq_ok_iff] at hstep
  cases call with
  | setHaveEqualCores a b => exact htracks.setHaveEqualCores hstep
  | setCoreHash m hash => exact htracks.setCoreHash havoids hstep

/-- A call that meets an emptied core separates its measurement from those that
were given the same hash. -/
theorem Tracks.not_answersMatch (htracks : Tracks calls repo)
    {call : Call MeasurementHash CoreHash} (hmeets : ¬AvoidsMergedCore calls repo call)
    (hstep : repo.step call = .ok repo') : ¬AnswersMatch (calls ++ [call]) repo' := by
  rw [step_eq_ok_iff] at hstep
  cases call with
  | setHaveEqualCores a b => exact absurd trivial hmeets
  | setCoreHash m hash =>
      simp only [AvoidsMergedCore, Classical.not_imp, not_forall] at hmeets
      rcases hmeets with ⟨⟨coreForHash, hto, hempty⟩, n, hn, hapart⟩
      rintro ⟨hanswers, _⟩
      have hconnected : Connected (calls ++ [.setCoreHash m hash]) n m :=
        .rel _ _ (Or.inr ⟨hash, by simp [WasGiven, show _ ∈ calls from hn], by simp [WasGiven]⟩)
      have hequal := (hanswers n m).mpr
        ⟨(occurred_append_singleton _ n).mpr (Or.inl hn.occurred),
          (occurred_append_singleton _ m).mpr (Or.inr rfl), hconnected⟩
      rw [areCoresEqual_eq_true_iff] at hequal
      rcases setCoreHash_ok htracks.wellFormed hstep with ⟨_, hset⟩
      rcases coreForMeasurement_spec htracks.wellFormed m with ⟨_, _, htoEq, hm, _⟩
      have hunused : ∀ y, repo.measurementToCore y ≠ some coreForHash :=
        (htracks.wellFormed.coreToMeasurement_eq_none_iff _).mp hempty
      cases hset with
      | newHash hnone => simp [htoEq, hto] at hnone
      | @merged found hsome hne hmtc =>
          obtain rfl : coreForHash = found := by
            rw [htoEq, hto] at hsome
            exact Option.some.inj hsome
          rw [hmtc] at hequal
          have hm' : redirect (repo.coreForMeasurement m).2.measurementToCore
              (repo.coreForMeasurement m).1 coreForHash m = some coreForHash :=
            redirect_eq_target (.inl hm)
          have hn' := (sameClass_iff_of_eq hm').mp hequal.symm
          by_cases hcore : (repo.coreForMeasurement m).2.measurementToCore n =
              some (repo.coreForMeasurement m).1
          · have hsame := (coreForMeasurement_sameClass_iff htracks.wellFormed m n m).mp
              ⟨_, hcore, hm⟩
            exact hapart ((htracks.sameOrNew_iff m m n m).mp hsame).2.2
          · have hself : SameClass (repo.coreForMeasurement m).2.measurementToCore n n :=
              ⟨coreForHash, by simpa [redirect, hcore] using hn',
                by simpa [redirect, hcore] using hn'⟩
            rcases (coreForMeasurement_sameClass_iff htracks.wellFormed m n n).mp hself with
              hold | ⟨-, rfl | rfl⟩
            · rcases hold with ⟨c, hc, -⟩
              have hc' : (repo.coreForMeasurement m).2.measurementToCore n = some c := by
                rcases coreForMeasurement_spec htracks.wellFormed m with
                  ⟨_, _, _, _, ⟨_, hsame⟩ | ⟨hnew, _, hmtc'⟩⟩
                · rw [hsame]
                  exact hc
                · have hnm : n ≠ m := fun h => by simp [h ▸ hnew] at hc
                  simpa [hmtc', hnm] using hc
              have hcne : c ≠ (repo.coreForMeasurement m).1 := fun h => hcore (h ▸ hc')
              have hcc : c = coreForHash := by
                simpa [redirect, hc', hcne] using hn'
              exact hunused n (hcc ▸ hc)
            · exact hapart (.refl _)
            · exact hapart (.refl _)

/-- The answers of the repository agree with its calls in every state of a run
exactly when no call of the run meets an emptied core. -/
theorem areCoresEqual_tracks_calls_iff {calls : List (Call MeasurementHash CoreHash)}
    {repo : MeasurementHashRepository MeasurementHash CoreHash}
    (hrun : Run step empty calls repo) :
    Visits step empty calls AnswersMatch ↔ StepsMeet step empty AvoidsMergedCore calls :=
  hrun.visits_iff_stepsMeet tracks_empty
    (fun _ _ _ _ _ htracks havoids hstep => htracks.step havoids hstep)
    (fun _ _ htracks => htracks.answersMatch)
    (fun _ _ _ _ htracks hmeets hstep => htracks.not_answersMatch hmeets hstep)

/-- In a run that gives one core hash to two measurements the answers agree with
the calls. -/
theorem areCoresEqual_tracks_two_calls :
    Visits step (empty : MeasurementHashRepository Nat Nat)
      [.setCoreHash 1 7, .setCoreHash 2 7] AnswersMatch := by
  have hexec : exec step (empty : MeasurementHashRepository Nat Nat)
      [.setCoreHash 1 7, .setCoreHash 2 7] =
        .ok ((empty.setCoreHash 1 7).2.setCoreHash 2 7).2 := rfl
  apply (areCoresEqual_tracks_calls_iff (run_iff_exec.mpr hexec)).mpr
  intro before call after repo hsplit hrun
  rcases before with _ | ⟨first, _ | ⟨second, rest⟩⟩
  · obtain ⟨rfl, rfl⟩ : call = .setCoreHash 1 7 ∧ after = [.setCoreHash 2 7] := by
      simpa [eq_comm] using hsplit
    have hstart : repo = empty := hrun.deterministic .start
    rintro ⟨core, hto, -⟩
    simp [hstart, empty] at hto
  · obtain ⟨rfl, rfl, rfl⟩ : first = .setCoreHash 1 7 ∧ call = .setCoreHash 2 7 ∧ after = [] := by
      simpa [eq_comm] using hsplit
    have hfirst : repo = (empty.setCoreHash 1 7).2 :=
      hrun.deterministic (run_iff_exec.mpr rfl)
    rintro ⟨core, hto, hempty⟩
    obtain rfl : 0 = core := by
      rw [hfirst] at hto
      exact Option.some.inj hto
    rw [hfirst] at hempty
    exact absurd hempty (by decide)
  · simp at hsplit

/-- Core 0 gets hash 7, is merged into the core of 2 and 3 and thereby emptied; the
hash map still leads to it when 4 is given hash 7. -/
theorem areCoresEqual_not_tracks_calls :
    ¬∀ (calls : List (Call Nat Nat)) (repo : MeasurementHashRepository Nat Nat),
      Run step empty calls repo → AnswersMatch calls repo := by
  intro hall
  have hexec : exec step (empty : MeasurementHashRepository Nat Nat)
      [.setCoreHash 1 7, .setHaveEqualCores 2 3, .setHaveEqualCores 1 2, .setCoreHash 4 7] =
        .ok ((((empty.setCoreHash 1 7).2.setHaveEqualCores 2 3).2.setHaveEqualCores 1
          2).2.setCoreHash 4 7).2 := rfl
  have hequal := (hall _ _ (run_iff_exec.mpr hexec)).2 4 1 7 rfl rfl
  exact absurd hequal (by decide)

end Tracks

end MeasurementHashRepository
end Roofline
