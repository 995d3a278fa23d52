import Mathlib.Data.Nat.Basic
import Roofline.Library.Runs
import Roofline.Optimization.OptimizationService

/-!
# Cached optima

The optimum of a search is stored under the hash of its parameters and returned to later calls
with the same hash.  The parameters do not include the setting {lit}`optimize.fast`, so that a
call may be answered by the other search.  Axes are stored by their unique ids, which are looked
up among the static fields, so that an optimum with another axis can never be read.

Main results:

- Theorem {lit}`CacheSound.optimize`: each stored optimum is the result of the search recorded
  with it.
- Theorem {lit}`optimize_unknownAxis`: calls that find an optimum with an axis that is no static
  field throw.
- Theorem {lit}`answers_as_empty`: calls that find neither such an optimum nor one of the other
  search are answered as with an empty cache.
- Theorem {lit}`not_answers_as_empty`: a fast search answers a later call for the full one.
-/

namespace Roofline
namespace Optimization

open Runs

variable {Value Quantity Hash : Type}

/-! ## Axes in files -/

/-- {lit}`AxisReflectionHelper.getAxis`: the axis with the unique id among those that are static
fields. -/
def getAxis (axes : List Axis) (uid : String) : Option Axis :=
  axes.find? fun axis => axis.uid == uid

/-- {lit}`AxisConverter.marshal`. -/
def marshal (axis : Axis) : String :=
  axis.uid

/-- {lit}`AxisConverter.unmarshal`. -/
def unmarshal (axes : List Axis) (uid : String) : Except Throwable Axis :=
  match getAxis axes uid with
  | some axis => .ok axis
  | none => .error (.error ("could not find axis with uid " ++ uid))

/-- A static field is read as it was written. -/
theorem unmarshal_marshal {axes : List Axis} {axis : Axis} (haxis : axis ∈ axes) :
    unmarshal axes (marshal axis) = .ok axis := by
  have hfound : getAxis axes (marshal axis) = some axis := by
    cases hfind : getAxis axes (marshal axis) with
    | none => simpa [marshal] using List.find?_eq_none.mp hfind axis haxis
    | some found =>
        rcases axis with ⟨uid⟩
        rcases found with ⟨foundUid⟩
        have hsame := List.find?_some hfind
        obtain rfl : foundUid = uid := by simpa [marshal] using hsame
        rfl
  rw [unmarshal, hfound]

/-- An axis that is no static field cannot be read. -/
theorem unmarshal_unknown {axes : List Axis} {axis : Axis} (haxis : axis ∉ axes) :
    unmarshal axes (marshal axis) =
      .error (.error ("could not find axis with uid " ++ axis.uid)) := by
  have hnone : getAxis axes (marshal axis) = none := by
    rw [getAxis, List.find?_eq_none]
    rintro ⟨uid⟩ hother hsame
    obtain rfl : uid = axis.uid := beq_iff_eq.mp hsame
    exact haxis hother
  rw [unmarshal, hnone, marshal]

/-- What the cache relies on: the axes that are static fields, and the serializer, which is given
the converter for axes. -/
structure Storage (Value Xml : Type) where
  axes : List Axis
  toXML : (Axis → String) → Option (Coordinate Value) → Xml
  fromXML : (String → Except Throwable Axis) → Xml → Except Throwable (Option (Coordinate Value))

section Serializer

variable {Xml : Type} (storage : Storage Value Xml)

/-- The serializer reads what it has written, if the converter reads the axes it has written. -/
structure Storage.RoundTrips : Prop where
  null : ∀ write read, storage.fromXML read (storage.toXML write none) = .ok none
  coordinate : ∀ write read (optimum : Coordinate Value),
    (∀ axis, optimum.contains axis = true → read (write axis) = .ok axis) →
    storage.fromXML read (storage.toXML write (some optimum)) = .ok (some optimum)

/-- The serializer throws what the converter throws for one of the axes. -/
def Storage.Rejects : Prop :=
  ∀ write read (optimum : Coordinate Value) axis e, optimum.contains axis = true →
    read (write axis) = .error e →
    ∃ e', storage.fromXML read (storage.toXML write (some optimum)) = .error e'

end Serializer

/-! ## The cache -/

/-- The optima, or nulls, whose files exist.  {lit}`searchedFast` is not part of the program: it
records which search has computed the optimum last. -/
structure Cache (Value Hash : Type) where
  optima : Hash → Option (Option (Coordinate Value))
  searchedFast : Hash → Bool

namespace Cache

/-- No file exists. -/
def empty : Cache Value Hash where
  optima _ := none
  searchedFast _ := false

/-- {lit}`getOptimum`: reads the file.  A stored null is found as null again, as if nothing had
been stored. -/
def getOptimum {Xml : Type} (storage : Storage Value Xml) (cache : Cache Value Hash)
    (hash : Hash) : Except Throwable (Option (Coordinate Value)) :=
  match cache.optima hash with
  | none => .ok none
  | some optimum =>
      storage.fromXML (unmarshal storage.axes) (storage.toXML marshal optimum)

/-- {lit}`storeOptimum`: writes the file. -/
def storeOptimum [DecidableEq Hash] (cache : Cache Value Hash)
    (optimum : Option (Coordinate Value)) (hash : Hash) (fast : Bool) : Cache Value Hash where
  optima := Function.update cache.optima hash (some optimum)
  searchedFast := Function.update cache.searchedFast hash fast

section Store

variable [DecidableEq Hash] (cache : Cache Value Hash) (optimum : Option (Coordinate Value))
variable (fast : Bool) {hash other : Hash}

/-- An optimum that was stored is there. -/
@[simp] theorem optima_storeOptimum_same :
    (cache.storeOptimum optimum hash fast).optima hash = some optimum := by
  simp [storeOptimum]

/-- So is the record of its search. -/
@[simp] theorem searchedFast_storeOptimum_same :
    (cache.storeOptimum optimum hash fast).searchedFast hash = fast := by
  simp [storeOptimum]

/-- The files of other hashes are left. -/
theorem optima_storeOptimum_of_ne (h : other ≠ hash) :
    (cache.storeOptimum optimum hash fast).optima other = cache.optima other := by
  simp [storeOptimum, h]

/-- The records of other hashes are left. -/
theorem searchedFast_storeOptimum_of_ne (h : other ≠ hash) :
    (cache.storeOptimum optimum hash fast).searchedFast other = cache.searchedFast other := by
  simp [storeOptimum, h]

end Store

section Get

variable {Xml : Type} {storage : Storage Value Xml} {cache : Cache Value Hash} {hash : Hash}

/-- Nothing is found if no optimum is stored. -/
theorem getOptimum_missing (hroundTrips : storage.RoundTrips)
    (hnone : ∀ optimum, cache.optima hash ≠ some (some optimum)) :
    cache.getOptimum storage hash = .ok none := by
  unfold getOptimum
  cases hfile : cache.optima hash with
  | none => rfl
  | some stored =>
      cases stored with
      | none => exact hroundTrips.null _ _
      | some optimum => exact absurd hfile (hnone optimum)

/-- An optimum whose axes are static fields is found as it was stored. -/
theorem getOptimum_known (hroundTrips : storage.RoundTrips) {optimum : Coordinate Value}
    (hstored : cache.optima hash = some (some optimum))
    (hknown : ∀ axis, optimum.contains axis = true → axis ∈ storage.axes) :
    cache.getOptimum storage hash = .ok (some optimum) := by
  unfold getOptimum
  rw [hstored]
  exact hroundTrips.coordinate _ _ _ fun axis haxis => unmarshal_marshal (hknown axis haxis)

/-- An optimum with an axis that is no static field cannot be read. -/
theorem getOptimum_unknown (hrejects : storage.Rejects) {optimum : Coordinate Value}
    (hstored : cache.optima hash = some (some optimum)) {axis : Axis}
    (haxis : optimum.contains axis = true) (hunknown : axis ∉ storage.axes) :
    ∃ e, cache.getOptimum storage hash = .error e := by
  unfold getOptimum
  rw [hstored]
  exact hrejects _ _ _ axis _ haxis (unmarshal_unknown hunknown)

end Get

end Cache

/-! ## Calls -/

/-- A call of {lit}`optimize`, with the kernel as it is at the call and the configuration. -/
structure Call (Value : Type) where
  parameters : OptimizationParameters Value
  reoptimize : Bool
  fast : Bool

section Calls

variable [DecidableEq Value] [Preorder Quantity] [DecidableLT Quantity] [DecidableEq Hash]
variable {Xml : Type} (services : Services Value Quantity Hash) (storage : Storage Value Xml)

/-- The coordinate that is returned, and the cache that is left. -/
def optimize (cache : Cache Value Hash) (call : Call Value) :
    Except Throwable (Option (Coordinate Value)) × Cache Value Hash :=
  let hash := services.hash call.parameters
  let found := if call.reoptimize then .ok none else cache.getOptimum storage hash
  match found with
  | .error e => (.error e, cache)
  | .ok (some optimum) => (.ok (some optimum), cache)
  | .ok none =>
      match computeOptimum services call.parameters call.fast with
      | .ok optimum => (.ok optimum, cache.storeOptimum optimum hash call.fast)
      | .error e => (.error e, cache)

/-- An exception reaches the caller, who can make further calls. -/
def step (cache : Cache Value Hash) (call : Call Value) : Except Throwable (Cache Value Hash) :=
  .ok (optimize services storage cache call).2

/-- An optimum is stored for the call, and it is looked for. -/
def Finds (cache : Cache Value Hash) (call : Call Value) (optimum : Coordinate Value) : Prop :=
  call.reoptimize = false ∧ cache.optima (services.hash call.parameters) = some (some optimum)

/-- The call finds an optimum that was computed with the other setting of
{lit}`optimize.fast`. -/
def FindsOtherSearch (cache : Cache Value Hash) (call : Call Value) : Prop :=
  ∃ optimum, Finds services cache call optimum ∧
    cache.searchedFast (services.hash call.parameters) ≠ call.fast

/-- The call finds an optimum with an axis that is no static field. -/
def FindsUnknownAxis (cache : Cache Value Hash) (call : Call Value) : Prop :=
  ∃ optimum, Finds services cache call optimum ∧
    ∃ axis, optimum.contains axis = true ∧ axis ∉ storage.axes

/-- The answer of an empty cache, which is an optimum if the search is not fast. -/
def AnswersAsEmpty (cache : Cache Value Hash) (call : Call Value) : Prop :=
  (optimize services storage cache call).1 = (optimize services storage Cache.empty call).1 ∧
    (call.fast = false → ∀ best, (optimize services storage cache call).1 = .ok best →
      IsOptimum services call.parameters best)

/-- Each stored optimum is the result of the search that is recorded with it. -/
def CacheSound (cache : Cache Value Hash) : Prop :=
  ∀ parameters optimum, cache.optima (services.hash parameters) = some optimum →
    computeOptimum services parameters (cache.searchedFast (services.hash parameters)) =
      .ok optimum

variable {services storage} {cache : Cache Value Hash} {call : Call Value}

/-- An optimum whose axes are static fields is returned as it was stored. -/
theorem optimize_hit (hroundTrips : storage.RoundTrips) {optimum : Coordinate Value}
    (hfinds : Finds services cache call optimum)
    (hknown : ∀ axis, optimum.contains axis = true → axis ∈ storage.axes) :
    optimize services storage cache call = (.ok (some optimum), cache) := by
  simp [optimize, hfinds.1, Cache.getOptimum_known hroundTrips hfinds.2 hknown]

/-- A call that finds an optimum with an axis that is no static field throws, and so does each
repetition. -/
theorem optimize_unknownAxis (hrejects : storage.Rejects)
    (hfinds : FindsUnknownAxis services storage cache call) :
    ∃ e, optimize services storage cache call = (.error e, cache) := by
  rcases hfinds with ⟨optimum, ⟨hreoptimize, hstored⟩, axis, haxis, hunknown⟩
  rcases Cache.getOptimum_unknown hrejects hstored haxis hunknown with ⟨e, hthrows⟩
  exact ⟨e, by simp [optimize, hreoptimize, hthrows]⟩

/-- What is not found is computed and stored. -/
theorem optimize_miss (hroundTrips : storage.RoundTrips)
    (hmiss : ∀ optimum, ¬Finds services cache call optimum) :
    optimize services storage cache call =
      match computeOptimum services call.parameters call.fast with
      | .ok optimum => (.ok optimum,
          cache.storeOptimum optimum (services.hash call.parameters) call.fast)
      | .error e => (.error e, cache) := by
  have hnone : (if call.reoptimize then .ok none
      else cache.getOptimum storage (services.hash call.parameters)) = .ok none := by
    cases hreoptimize : call.reoptimize with
    | true => rfl
    | false =>
        exact Cache.getOptimum_missing hroundTrips fun optimum hstored =>
          hmiss optimum ⟨hreoptimize, hstored⟩
  simp only [optimize, hnone]

/-- Whatever is not found is computed. -/
theorem optimize_miss_result (hroundTrips : storage.RoundTrips)
    (hmiss : ∀ optimum, ¬Finds services cache call optimum) :
    (optimize services storage cache call).1 =
      computeOptimum services call.parameters call.fast := by
  rw [optimize_miss hroundTrips hmiss]
  cases computeOptimum services call.parameters call.fast <;> rfl

omit [DecidableEq Value] [Preorder Quantity] [DecidableLT Quantity] [DecidableEq Hash] in
/-- Nothing is found in an empty cache. -/
theorem not_finds_empty (call : Call Value) (optimum : Coordinate Value) :
    ¬Finds services (Cache.empty : Cache Value Hash) call optimum := by
  rintro ⟨-, hstored⟩
  cases hstored

/-- An empty cache answers with the result of the search. -/
theorem optimize_empty (hroundTrips : storage.RoundTrips) (call : Call Value) :
    (optimize services storage Cache.empty call).1 =
      computeOptimum services call.parameters call.fast :=
  optimize_miss_result hroundTrips (not_finds_empty call)

/-! ## Runs -/

omit [DecidableEq Hash] in
/-- Nothing is wrong in an empty cache. -/
theorem cacheSound_empty (services : Services Value Quantity Hash) :
    CacheSound services (Cache.empty : Cache Value Hash) := by
  intro parameters optimum hfound
  cases hfound

/-- A computed optimum is recorded with its search; nothing else changes. -/
theorem CacheSound.storeOptimum (hinjective : Function.Injective services.hash)
    (hsound : CacheSound services cache) {parameters : OptimizationParameters Value}
    {optimum : Option (Coordinate Value)} {fast : Bool}
    (hcomputed : computeOptimum services parameters fast = .ok optimum) :
    CacheSound services (cache.storeOptimum optimum (services.hash parameters) fast) := by
  intro other found hfound
  by_cases hhash : services.hash other = services.hash parameters
  · rcases hinjective hhash with rfl
    rw [Cache.optima_storeOptimum_same] at hfound
    rw [Cache.searchedFast_storeOptimum_same, ← Option.some.inj hfound]
    exact hcomputed
  · rw [Cache.optima_storeOptimum_of_ne _ _ _ hhash] at hfound
    rw [Cache.searchedFast_storeOptimum_of_ne _ _ _ hhash]
    exact hsound other found hfound

/-- A call leaves what is stored sound. -/
theorem CacheSound.optimize (hinjective : Function.Injective services.hash)
    (hsound : CacheSound services cache) (call : Call Value) :
    CacheSound services (optimize services storage cache call).2 := by
  unfold Optimization.optimize
  dsimp only
  split
  case h_1 => exact hsound
  case h_2 => exact hsound
  case h_3 =>
    cases hcomputed : computeOptimum services call.parameters call.fast with
    | error e => exact hsound
    | ok optimum => exact hsound.storeOptimum hinjective hcomputed

/-- A sound cache answers as an empty one, unless it holds the result of the other search or
cannot read it. -/
theorem CacheSound.answersAsEmpty (hroundTrips : storage.RoundTrips)
    (hsound : CacheSound services cache) (hsearch : ¬FindsOtherSearch services cache call)
    (hknown : ¬FindsUnknownAxis services storage cache call) :
    AnswersAsEmpty services storage cache call := by
  have hanswer : (Optimization.optimize services storage cache call).1 =
      computeOptimum services call.parameters call.fast := by
    by_cases hfinds : ∃ optimum, Finds services cache call optimum
    · rcases hfinds with ⟨optimum, hfinds⟩
      have hsame : cache.searchedFast (services.hash call.parameters) = call.fast := by
        by_contra hother
        exact hsearch ⟨optimum, hfinds, hother⟩
      have haxes : ∀ axis, optimum.contains axis = true → axis ∈ storage.axes := by
        intro axis haxis
        by_contra hunknown
        exact hknown ⟨optimum, hfinds, axis, haxis, hunknown⟩
      rw [optimize_hit hroundTrips hfinds haxes, ← hsame]
      exact (hsound call.parameters _ hfinds.2).symm
    · exact optimize_miss_result hroundTrips (not_exists.mp hfinds)
  refine ⟨hanswer.trans (optimize_empty hroundTrips call).symm, fun hfull best hbest => ?_⟩
  rw [hanswer, hfull] at hbest
  exact isOptimum_of_optimizeFull hbest

omit [DecidableEq Hash] in
/-- An optimum is a point of the space, whichever search has computed it. -/
theorem mem_getAllPoints_of_computeOptimum {parameters : OptimizationParameters Value}
    {fast : Bool} {optimum : Coordinate Value}
    (hcomputed : computeOptimum services parameters fast = .ok (some optimum)) :
    optimum ∈ parameters.optimizationSpace.getAllPoints := by
  cases fast with
  | false => exact (isOptimum_of_optimizeFull hcomputed).1
  | true => exact (noneBetter_of_optimizeFast hcomputed).1

omit [DecidableEq Hash] in
/-- An optimum has no axis that its space does not have. -/
theorem mem_axes_of_computeOptimum {parameters : OptimizationParameters Value}
    {fast : Bool} {optimum : Coordinate Value}
    (hcomputed : computeOptimum services parameters fast = .ok (some optimum)) {axis : Axis}
    (haxis : optimum.contains axis = true) :
    axis ∈ parameters.optimizationSpace.axisValueSets.map Prod.fst := by
  by_contra hother
  have hnot := not_contains_of_mem_pointsOf (mem_getAllPoints_of_computeOptimum hcomputed) hother
  rw [haxis] at hnot
  cases hnot

/-- In every run in which no call finds an optimum of the other search or one that cannot be
read, the calls that do not reoptimize are answered as with an empty cache. -/
theorem answers_as_empty (hinjective : Function.Injective services.hash)
    (hroundTrips : storage.RoundTrips) {calls : List (Call Value)}
    (hfinds : StepsMeet (step services storage) Cache.empty
      (fun _ cache call => ¬FindsOtherSearch services cache call ∧
        ¬FindsUnknownAxis services storage cache call) calls) :
    StepsMeet (step services storage) Cache.empty
      (fun _ cache call => call.reoptimize = false → AnswersAsEmpty services storage cache call)
      calls := by
  have hsound : Visits (step services storage) Cache.empty calls
      fun _ cache => CacheSound services cache := by
    refine Run.always (P := fun _ cache => CacheSound services cache)
      (cacheSound_empty services) ?_ hfinds
    intro _ cache call cache' _ hcache _ hstep
    rw [← Except.ok.inj hstep]
    exact hcache.optimize hinjective call
  intro before call after cache hsplit hrun _
  have hcache := hsound before (call :: after) cache hsplit hrun
  rcases hfinds before call after cache hsplit hrun with ⟨hsearch, hknown⟩
  exact hcache.answersAsEmpty hroundTrips hsearch hknown

end Calls

/-! ## A hill that the fast search does not climb -/

/-- {lit}`Axes.bufferSizeAxis`. -/
def sizeAxis : Axis := ⟨"11d6a840-ff93-4095-9f25-26b668f282f9"⟩

/-- A kernel is fast for size 5 only. -/
def peakServices : Services Nat Nat (OptimizationParameters Nat) where
  getName _ := "bufferSize"
  ownSettings _ := [(sizeAxis, "bufferSize")]
  measure kernel _ := .ok (if kernel.settings "bufferSize" = some 5 then 1 else 0)
  hash parameters := parameters

/-- The axis of the size is a static field, and coordinates are written with its unique id; those
of the example have no other axis. -/
def peakStorage : Storage Nat (Option (Coordinate Nat × String)) where
  axes := [sizeAxis]
  toXML write optimum := optimum.map fun optimum => (optimum, write sizeAxis)
  fromXML read xml :=
    match xml with
    | none => .ok none
    | some (optimum, uid) =>
        if optimum.contains sizeAxis then do
          let _ ← read uid
          return some optimum
        else
          return some optimum

/-- What is written for the example can be read. -/
theorem peakStorage_roundTrips : peakStorage.RoundTrips where
  null _ _ := rfl
  coordinate write read optimum haxes := by
    by_cases hsize : optimum.contains sizeAxis = true
    · simp [peakStorage, hsize, haxes sizeAxis hsize]
    · simp [peakStorage, hsize]
      rfl

/-- The sizes 0 to 8 are tried. -/
def peakParameters : OptimizationParameters Nat where
  kernel := ⟨"TriadKernel", fun _ => none⟩
  optimizationSpace := ⟨[(sizeAxis, List.range 9)], by simp⟩
  measurementPoint := Coordinate.empty
  comparison := .moreThan

/-- A call with the setting of {lit}`optimize.fast`. -/
def peakCall (fast : Bool) : Call Nat :=
  ⟨peakParameters, false, fast⟩

/-- The fast search stops at size 3. -/
theorem computeOptimum_peak (fast : Bool) :
    ∃ optimum, computeOptimum peakServices peakParameters fast = .ok (some optimum) ∧
      optimum sizeAxis = some (if fast then 3 else 5) := by
  have hsize : (computeOptimum peakServices peakParameters fast).toOption.bind
      (·.bind (· sizeAxis)) = some (if fast then 3 else 5) := by
    cases fast <;> decide +kernel
  rcases hresult : computeOptimum peakServices peakParameters fast with e | best
  · simp [hresult, Except.toOption] at hsize
  · rw [hresult] at hsize
    obtain ⟨optimum, hbest, hoptimum⟩ := Option.bind_eq_some_iff.mp
      (show best.bind (· sizeAxis) = _ from hsize)
    subst hbest
    exact ⟨optimum, rfl, hoptimum⟩

/-- The optima of the example have no axis but the size. -/
theorem peak_axes {fast : Bool} {optimum : Coordinate Nat}
    (hcomputed : computeOptimum peakServices peakParameters fast = .ok (some optimum))
    (axis : Axis) (haxis : optimum.contains axis = true) : axis ∈ peakStorage.axes :=
  mem_axes_of_computeOptimum hcomputed haxis

open Classical in
/-- The second search is answered from the cache, with its own optimum. -/
theorem answers_as_empty_full :
    StepsMeet (step peakServices peakStorage) Cache.empty
      (fun _ cache call => call.reoptimize = false →
        AnswersAsEmpty peakServices peakStorage cache call)
      [peakCall false, peakCall false] := by
  have hempty : ∀ optimum, ¬Finds peakServices Cache.empty (peakCall false) optimum :=
    not_finds_empty (peakCall false)
  rcases computeOptimum_peak false with ⟨optimum, hfull, -⟩
  have hleft : (optimize peakServices peakStorage Cache.empty (peakCall false)).2 =
      Cache.empty.storeOptimum (some optimum) peakParameters false := by
    rw [optimize_miss peakStorage_roundTrips hempty]
    simp only [peakCall, hfull]
    rfl
  refine answers_as_empty (fun _ _ h => h) peakStorage_roundTrips
    (stepsMeet_cons rfl ⟨?_, ?_⟩ (stepsMeet_cons rfl ⟨?_, ?_⟩ (stepsMeet_nil _)))
  · rintro ⟨optimum, hfinds, -⟩
    exact hempty optimum hfinds
  · rintro ⟨optimum, hfinds, -⟩
    exact hempty optimum hfinds
  · rintro ⟨found, -, hother⟩
    apply hother
    rw [hleft]
    exact Cache.searchedFast_storeOptimum_same _ _ _
  · rintro ⟨found, ⟨-, hstored⟩, axis, haxis, hunknown⟩
    rw [hleft] at hstored
    obtain rfl : optimum = found := Option.some.inj (Option.some.inj
      ((Cache.optima_storeOptimum_same _ _ _).symm.trans hstored))
    exact hunknown (peak_axes hfull axis haxis)

open Classical in
/-- The fast search does not reach size 5; its result answers the call for the full search. -/
theorem not_answers_as_empty :
    ¬∀ calls : List (Call Nat), StepsMeet (step peakServices peakStorage) Cache.empty
      (fun _ cache call => call.reoptimize = false →
        AnswersAsEmpty peakServices peakStorage cache call) calls := by
  intro hall
  rcases computeOptimum_peak true with ⟨fastOptimum, hfast, hthree⟩
  rcases computeOptimum_peak false with ⟨fullOptimum, hfull, hfive⟩
  let cache : Cache Nat (OptimizationParameters Nat) :=
    Cache.empty.storeOptimum (some fastOptimum) peakParameters true
  have hstep : step peakServices peakStorage Cache.empty (peakCall true) = .ok cache := by
    rw [step, optimize_miss peakStorage_roundTrips (not_finds_empty _)]
    simp only [peakCall, hfast]
    rfl
  have hrun : Run (step peakServices peakStorage) Cache.empty [peakCall true] cache :=
    .next .start hstep
  have hsame := (hall [peakCall true, peakCall false] [peakCall true] (peakCall false) [] cache
    rfl hrun rfl).1
  have hfinds : Finds peakServices cache (peakCall false) fastOptimum :=
    ⟨rfl, Cache.optima_storeOptimum_same _ _ _⟩
  rw [optimize_hit peakStorage_roundTrips hfinds (peak_axes hfast),
    optimize_empty peakStorage_roundTrips, peakCall, hfull] at hsame
  obtain rfl : fastOptimum = fullOptimum := Option.some.inj (Except.ok.inj hsame)
  rw [hthree] at hfive
  exact absurd hfive (by decide)

end Optimization
end Roofline
