import Mathlib.Logic.Function.Basic
import Roofline.Library.Integers
import Roofline.Library.Loops

/-!
# Reading and writing a block of memory

The kernel goes through a buffer of floats once, in several streams at the same time and with the
inner loop unrolled; with SSE it accesses four floats at once.  A third variant reads the buffer at
random indices.

Main results:

- Theorem {lit}`AccessesAt.loop`: a loop accesses what its body accesses, one index after the
  other.
- Theorem {lit}`flatMap_streams_perm`: the streams go through the whole buffer.
- Theorem {lit}`run_touches`: the whole buffer is accessed once, which are the bytes of the data
  size, and the random indices are in the buffer.
-/

namespace Roofline
namespace Kernels
namespace MemoryKernel

open Loops Integers

/-! ## The kernel -/

/-- {lit}`RMT_MEMORY_DLP`, {lit}`RMT_MEMORY_UNROLL` and the field {lit}`bufferSize`. -/
structure Parameters where
  dlp : Nat
  unroll : Nat
  bufferSize : Nat

/-- {lit}`MemoryOperation` -/
inductive MemoryOperation
  | read
  | write
  | randomRead

/-- What an operation that goes wrong does. -/
inductive Fault
  | thrown (message : String)
  | outside
  | unaligned

/-- The buffer with the bits of its floats, the result, and the indices that have been accessed.
The buffer starts at the beginning of a page. -/
structure Kernel where
  buffer : List (BitVec 32)
  result : BitVec 8
  accessed : List Nat

/-- The conversion of a float to a character, sums and differences of two floats. -/
structure FloatOperations where
  toChar : BitVec 32 → BitVec 8
  add : BitVec 32 → BitVec 32 → BitVec 32
  sub : BitVec 32 → BitVec 32 → BitVec 32

/-- The floats that {lit}`initialize` allocates. -/
def Parameters.floats (parameters : Parameters) : Nat :=
  parameters.dlp * parameters.unroll * parameters.bufferSize

namespace Kernel

variable {κ : Type}

/-- Reads elements of the buffer, which have to lie inside of it. -/
def load (kernel : Kernel) (idx width : Nat) : Except Fault (List (BitVec 32) × Kernel) :=
  if idx + width ≤ kernel.buffer.length then
    .ok ((kernel.buffer.drop idx).take width,
      { kernel with accessed := kernel.accessed ++ List.range' idx width })
  else .error .outside

/-- Writes elements of the buffer, which have to lie inside of it. -/
def store (kernel : Kernel) (idx : Nat) (values : List (BitVec 32)) : Except Fault Kernel :=
  if idx + values.length ≤ kernel.buffer.length then
    .ok { kernel with
      buffer := kernel.buffer.take idx ++ values ++ kernel.buffer.drop (idx + values.length)
      accessed := kernel.accessed ++ List.range' idx values.length }
  else .error .outside

/-- {lit}`_mm_load_ps`. -/
def loadPs (kernel : Kernel) (idx : Nat) : Except Fault (List (BitVec 32) × Kernel) :=
  if idx % 4 = 0 then kernel.load idx 4 else .error .unaligned

/-- {lit}`_mm_store_ps` and {lit}`_mm_stream_ps`. -/
def storePs (kernel : Kernel) (idx : Nat) (values : List (BitVec 32)) : Except Fault Kernel :=
  if idx % 4 = 0 then kernel.store idx values else .error .unaligned

end Kernel

/-- The bytes of four floats. -/
def bytes (lanes : List (BitVec 32)) : List (BitVec 8) :=
  lanes.flatMap fun lane : BitVec 32 =>
    (List.range 4).map fun i => BitVec.setWidth 8 (lane >>> (8 * i))

section Model

variable (parameters : Parameters) (float : FloatOperations)

/-- The bits of the random number are those of a float between one and two. -/
def fastRand (randState : BitVec 32) : BitVec 32 × BitVec 32 :=
  let randState := randState * 1103515245 + 12345
  (float.sub (0x3f800000 ||| randState >>> 10) 0x3f800000, randState)

/-- One round of the loop of {lit}`initialize`. -/
def storeRand (idx : Nat) (s : BitVec 32 × Kernel) : Except Fault (BitVec 32 × Kernel) := do
  let (value, randState) := fastRand float s.1
  let kernel ← s.2.store idx [value]
  return (randState, kernel)

/-- {lit}`initialize`, after the allocation of the buffer. -/
def initializeBuffer (randState : BitVec 32) (kernel : Kernel) :
    Except Fault (BitVec 32 × Kernel) :=
  loop 0 parameters.dlp 1 (fun p =>
    loop 0 (parameters.bufferSize * parameters.unroll) 1 fun i =>
      storeRand float (p * parameters.bufferSize * parameters.unroll + i)) (randState, kernel)

/-- The registers, one for each stream, and the kernel. -/
abbrev Streams (α : Type) := (Nat → α) × Kernel

/-- The floats are combined with what the register of the stream holds. -/
def xorPs (p idx : Nat) (s : Streams (List (BitVec 32))) :
    Except Fault (Streams (List (BitVec 32))) := do
  let (tmp, kernel) ← s.2.loadPs idx
  return (Function.update s.1 p (List.zipWith (· ^^^ ·) (s.1 p) tmp), kernel)

/-- Reads an element and combines it with the character of its stream. -/
def xorChar (p idx : Nat) (s : Streams (BitVec 8)) : Except Fault (Streams (BitVec 8)) := do
  let (values, kernel) ← s.2.load idx 1
  return (Function.update s.1 p (s.1 p ^^^ float.toChar (values.headD 0)), kernel)

/-- The loops that read four elements at a time, and the result. -/
def readSse (kernel : Kernel) : Except Fault Kernel := do
  let start : Streams (List (BitVec 32)) := (fun _ => List.replicate 4 0, kernel)
  let (ch, kernel) ←
    loop 0 (parameters.bufferSize * parameters.unroll) (4 * parameters.unroll) (fun i =>
      loop 0 parameters.unroll 1 fun j =>
        loop 0 parameters.dlp 1 fun p =>
          xorPs p (p * parameters.bufferSize * parameters.unroll + i + j * 4)) start
  return { kernel with
    result := (List.range parameters.dlp).foldl
      (fun result p => (bytes (ch p)).foldl (· ^^^ ·) result) 0 }

/-- The loops that read single elements, and the result. -/
def readScalar (kernel : Kernel) : Except Fault Kernel := do
  let start : Streams (BitVec 8) := (fun _ => 0, kernel)
  let (ch, kernel) ←
    loop 0 parameters.bufferSize 1 (fun i =>
      loop 0 parameters.unroll 1 fun j =>
        loop 0 parameters.dlp 1 fun p =>
          xorChar float p
            (p * parameters.bufferSize * parameters.unroll + i * parameters.unroll + j)) start
  return { kernel with
    result := (List.range parameters.dlp).foldl (fun result p => result ^^^ ch p) kernel.result }

/-- Writing with SSE, with streaming operations or without. -/
def writeSse (kernel : Kernel) : Except Fault Kernel :=
  let tmp : List (BitVec 32) := [0x40800000, 0x40400000, 0x40000000, 0x3f800000]
  loop 0 parameters.bufferSize 4 (fun i =>
    loop 0 parameters.unroll 1 fun j =>
      loop 0 parameters.dlp 1 fun p kernel =>
        kernel.storePs (p * parameters.bufferSize * parameters.unroll + i * parameters.unroll +
          j * 4) tmp)
    kernel

/-- The loops that write single elements. -/
def writeScalar (kernel : Kernel) : Except Fault Kernel :=
  loop 0 parameters.bufferSize 1 (fun i =>
    loop 0 parameters.unroll 1 fun j =>
      loop 0 parameters.dlp 1 fun p kernel =>
        kernel.store (p * parameters.bufferSize * parameters.unroll + i * parameters.unroll + j)
          [0])
    kernel

/-- The variables of the random read: {lit}`idx` has as many bits as a long. -/
structure Walk (longBits : Nat) where
  idx : BitVec longBits
  rand : BitVec 32
  tempRes : BitVec 32

/-- The index and the random number that follow when this value has been read. -/
def Walk.next {longBits : Nat} (walk : Walk longBits) (tmp : BitVec 32) : Walk longBits :=
  let modulo := parameters.bufferSize * parameters.dlp * parameters.unroll
  let rand := walk.rand * 1103515245 + 12345
  let idx := walk.idx ^^^ tmp.signExtend longBits ^^^ rand.signExtend longBits
  { idx := BitVec.ofNat longBits (idx.toNat % modulo)
    rand := rand
    tempRes := float.add walk.tempRes tmp }

/-- One round of the loop that reads at random places. -/
def randomStep {longBits : Nat} (s : Walk longBits × Kernel) :
    Except Fault (Walk longBits × Kernel) := do
  let (values, kernel) ← s.2.load s.1.idx.toNat 1
  return (s.1.next parameters float (values.headD 0), kernel)

/-- The loop that reads at random places, and the result. -/
def randomRead (longBits : Nat) (kernel : Kernel) : Except Fault Kernel := do
  let start : Walk longBits × Kernel := ({ idx := 0, rand := 13, tempRes := 0 }, kernel)
  let (walk, kernel) ←
    loop 0 parameters.bufferSize 1 (fun _ => randomStep parameters float) start
  return { kernel with result := float.toChar walk.tempRes }

/-- {lit}`run`, compiled with SSE or without. -/
def run (sse : Bool) (longBits : Nat) (operation : MemoryOperation) (kernel : Kernel) :
    Except Fault Kernel :=
  if sse = true ∧ parameters.bufferSize % 4 * 4 ≠ 0 then
    .error (.thrown "Buffer size is not a multiple of 4*sizeof(float)")
  else
    match operation with
    | .read => if sse then readSse parameters kernel else readScalar parameters float kernel
    | .write => if sse then writeSse parameters kernel else writeScalar parameters kernel
    | .randomRead => randomRead parameters float longBits kernel

/-- {lit}`getDataSize`, with the multiplication of long integers. -/
def getDataSize : Signed 64 :=
  Signed.wrap 64 (parameters.bufferSize * parameters.unroll * parameters.dlp * 4)

end Model

/-! ## What a step accesses -/

section Accesses

variable {σ : Type} {kernelOf : σ → Kernel} {n : Nat}

/-- In a buffer of this length the step accesses these indices, and goes right. -/
def AccessesAt (kernelOf : σ → Kernel) (n : Nat) (step : σ → Except Fault σ)
    (indices : List Nat) : Prop :=
  ∀ s, (kernelOf s).buffer.length = n → ∃ s', step s = .ok s' ∧
    (kernelOf s').buffer.length = n ∧ (kernelOf s').accessed = (kernelOf s).accessed ++ indices

/-- A sequence of steps accesses what its steps access. -/
theorem AccessesAt.foldlM {ι : Type} {l : List ι} {body : ι → σ → Except Fault σ}
    {f : ι → List Nat} (h : ∀ i ∈ l, AccessesAt kernelOf n (body i) (f i)) :
    AccessesAt kernelOf n (fun s => l.foldlM (fun s i => body i s) s) (l.flatMap f) := by
  induction l with
  | nil =>
      intro s hs
      exact ⟨s, rfl, hs, by simp⟩
  | cons i l ih =>
      rw [List.forall_mem_cons] at h
      intro s hs
      rcases h.1 s hs with ⟨s', hstep, hs', haccessed⟩
      rcases ih h.2 s' hs' with ⟨s'', hrest, hs'', haccessed'⟩
      refine ⟨s'', ?_, hs'', ?_⟩
      · simp only [List.foldlM_cons, hstep]
        exact hrest
      · rw [haccessed', haccessed, List.flatMap_cons, List.append_assoc]

/-- A loop accesses what its body accesses, one index after the other. -/
theorem AccessesAt.loop {start stop step : Nat} {body : Nat → σ → Except Fault σ}
    {f : Nat → List Nat}
    (h : ∀ i ∈ counters start stop step, AccessesAt kernelOf n (body i) (f i)) :
    AccessesAt kernelOf n (loop start stop step body) ((counters start stop step).flatMap f) :=
  AccessesAt.foldlM h

/-- Elements inside of the buffer are read. -/
theorem load_of_le {kernel : Kernel} {idx width : Nat}
    (h : idx + width ≤ kernel.buffer.length) :
    kernel.load idx width = .ok ((kernel.buffer.drop idx).take width,
      { kernel with accessed := kernel.accessed ++ List.range' idx width }) := by
  rw [Kernel.load, if_pos h]

/-- Writing accesses the elements that are written. -/
theorem accessesAt_store {idx : Nat} {values : List (BitVec 32)} (h : idx + values.length ≤ n) :
    AccessesAt id n (fun kernel => kernel.store idx values) (List.range' idx values.length) := by
  intro kernel hlength
  have hfits : idx + values.length ≤ kernel.buffer.length := by rwa [← hlength] at h
  have hstored : kernel.store idx values = .ok { kernel with
      buffer := kernel.buffer.take idx ++ values ++ kernel.buffer.drop (idx + values.length)
      accessed := kernel.accessed ++ List.range' idx values.length } := by
    rw [Kernel.store, if_pos hfits]
  refine ⟨_, hstored, ?_, rfl⟩
  rw [← hlength]
  simp only [id, List.length_append, List.length_take, List.length_drop]
  omega

/-- A round of {lit}`initialize` accesses one element. -/
theorem accessesAt_storeRand (float : FloatOperations) {idx : Nat} (h : idx + 1 ≤ n) :
    AccessesAt Prod.snd n (storeRand float idx) [idx] := by
  rintro ⟨randState, kernel⟩ hlength
  have hvalue : AccessesAt id n (fun kernel => kernel.store idx [(fastRand float randState).1])
      [idx] := accessesAt_store h
  rcases hvalue kernel hlength with ⟨kernel', hstored, hlength', haccessed⟩
  simp only at hstored
  simp only [storeRand, hstored]
  exact ⟨_, rfl, hlength', haccessed⟩

/-- An aligned write accesses four elements. -/
theorem accessesAt_storePs {idx : Nat} {values : List (BitVec 32)} (haligned : idx % 4 = 0)
    (h : idx + values.length ≤ n) :
    AccessesAt id n (fun kernel => kernel.storePs idx values)
      (List.range' idx values.length) := by
  simp only [Kernel.storePs, if_pos haligned]
  exact accessesAt_store h

/-- An aligned read accesses four elements. -/
theorem accessesAt_xorPs {p idx : Nat} (haligned : idx % 4 = 0) (h : idx + 4 ≤ n) :
    AccessesAt Prod.snd n (xorPs p idx) (List.range' idx 4) := by
  rintro ⟨ch, kernel⟩ hlength
  have hload : kernel.loadPs idx = .ok ((kernel.buffer.drop idx).take 4,
      { kernel with accessed := kernel.accessed ++ List.range' idx 4 }) := by
    rw [Kernel.loadPs, if_pos haligned]
    exact load_of_le (by simpa [hlength] using h)
  simp only [xorPs, hload]
  exact ⟨_, rfl, hlength, rfl⟩

/-- Reading a single element accesses it. -/
theorem accessesAt_xorChar (float : FloatOperations) {p idx : Nat} (h : idx + 1 ≤ n) :
    AccessesAt Prod.snd n (xorChar float p idx) (List.range' idx 1) := by
  rintro ⟨ch, kernel⟩ hlength
  have hfits : idx + 1 ≤ kernel.buffer.length := by rwa [← hlength] at h
  have hload := load_of_le hfits
  simp only [xorChar, hload]
  exact ⟨_, rfl, hlength, rfl⟩

end Accesses

/-! ## The streams -/

section Streams

variable {dlp q unroll width : Nat}

/-- The first index of a block of a stream, in the order in which they are in the buffer. -/
def streamIndex (q unroll width p m j : Nat) : Nat :=
  ((p * q + m) * unroll + j) * width

/-- The indices in the order of the loops. -/
def streamOrder (dlp q unroll width : Nat) : List Nat :=
  (List.range q).flatMap fun m =>
    (List.range unroll).flatMap fun j =>
      (List.range dlp).flatMap fun p => List.range' (streamIndex q unroll width p m j) width

/-- The streams lie inside of the buffer. -/
theorem streamIndex_add_le {p m j : Nat} (hp : p < dlp) (hm : m < q) (hj : j < unroll) :
    streamIndex q unroll width p m j + width ≤ dlp * q * unroll * width := by
  have hblock : (p * q + m) * unroll + j < dlp * q * unroll := index_lt (index_lt hp hm) hj
  calc
    streamIndex q unroll width p m j + width
      = ((p * q + m) * unroll + j + 1) * width := by rw [streamIndex, Nat.add_mul _ 1, Nat.one_mul]
    _ ≤ dlp * q * unroll * width := Nat.mul_le_mul_right width hblock

/-- The streams go through the whole buffer. -/
theorem streamOrder_perm (dlp q unroll width : Nat) :
    (streamOrder dlp q unroll width).Perm (List.range (dlp * q * unroll * width)) := by
  have hrows : List.range (dlp * q * unroll * width) =
      (List.range dlp).flatMap fun p => (List.range q).flatMap fun m =>
        (List.range unroll).flatMap fun j =>
          List.range' (streamIndex q unroll width p m j) width := by
    rw [← flatMap_chunks, ← flatMap_indices, ← flatMap_indices]
    simp only [List.flatMap_assoc, List.flatMap_map]
    rfl
  rw [hrows]
  refine List.Perm.trans ?_ (flatMap_interchange_perm (List.range q) (List.range dlp) _)
  apply List.Perm.flatMap_left
  intro m _
  exact flatMap_interchange_perm (List.range unroll) (List.range dlp) _

variable {σ : Type} {kernelOf : σ → Kernel} {n : Nat}

/-- The loops over the streams, where the body accesses one block. -/
theorem accessesAt_streams {stop step : Nat} {body : Nat → Nat → Nat → σ → Except Fault σ}
    (hcounters : counters 0 stop step = (List.range q).map (· * step))
    (hbody : ∀ m j p, m < q → j < unroll → p < dlp →
      AccessesAt kernelOf n (body (m * step) j p)
        (List.range' (streamIndex q unroll width p m j) width)) :
    AccessesAt kernelOf n
      (loop 0 stop step fun i => loop 0 unroll 1 fun j => loop 0 dlp 1 fun p => body i j p)
      (streamOrder dlp q unroll width) := by
  have hnest : AccessesAt kernelOf n
      (fun s => (List.range q).foldlM (fun s m =>
        (List.range unroll).foldlM (fun s j =>
          (List.range dlp).foldlM (fun s p => body (m * step) j p s) s) s) s)
      (streamOrder dlp q unroll width) := by
    apply AccessesAt.foldlM
    intro m hm
    apply AccessesAt.foldlM
    intro j hj
    apply AccessesAt.foldlM
    intro p hp
    exact hbody m j p (List.mem_range.mp hm) (List.mem_range.mp hj) (List.mem_range.mp hp)
  intro s hs
  rcases hnest s hs with ⟨s', hrun, hs'⟩
  refine ⟨s', ?_, hs'⟩
  rw [← hrun]
  simp only [loop, hcounters, counters_zero_one, List.foldlM_map]

end Streams

/-- The buffer that is allocated is filled once, and keeps its length. -/
theorem initializeBuffer_fills {parameters : Parameters} (float : FloatOperations)
    (randState : BitVec 32) {kernel : Kernel} (hbuffer : kernel.buffer.length = parameters.floats) :
    ∃ s, initializeBuffer parameters float randState kernel = .ok s ∧
      s.2.buffer.length = parameters.floats ∧
      s.2.accessed = kernel.accessed ++ List.range parameters.floats := by
  have hfloats : parameters.floats =
      parameters.dlp * (parameters.bufferSize * parameters.unroll) := by
    rw [Parameters.floats]
    ring
  have hindices : ((counters 0 parameters.dlp 1).flatMap fun p =>
      (counters 0 (parameters.bufferSize * parameters.unroll) 1).flatMap fun i =>
        [p * (parameters.bufferSize * parameters.unroll) + i]) =
      List.range parameters.floats := by
    simp only [counters_zero_one, ← List.map_eq_flatMap]
    rw [flatMap_indices, hfloats]
  have hloops : AccessesAt Prod.snd parameters.floats
      (loop 0 parameters.dlp 1 fun p =>
        loop 0 (parameters.bufferSize * parameters.unroll) 1 fun i =>
          storeRand float (p * parameters.bufferSize * parameters.unroll + i))
      (List.range parameters.floats) := by
    rw [← hindices]
    apply AccessesAt.loop
    intro p hp
    apply AccessesAt.loop
    intro i hi
    rw [counters_zero_one, List.mem_range] at hp hi
    rw [Nat.mul_assoc]
    apply accessesAt_storeRand
    rw [hfloats]
    exact index_lt hp hi
  exact hloops (randState, kernel) hbuffer

/-! ## The random indices -/

section RandomRead

variable (parameters : Parameters) (float : FloatOperations) {longBits : Nat}

/-- The next index is in the buffer. -/
theorem next_idx_lt (walk : Walk longBits) (tmp : BitVec 32) (hpos : 0 < parameters.floats) :
    (walk.next parameters float tmp).idx.toNat < parameters.floats := by
  have hmodulo : parameters.bufferSize * parameters.dlp * parameters.unroll =
      parameters.floats := by
    rw [Parameters.floats]
    ring
  simp only [Walk.next, hmodulo, BitVec.toNat_ofNat]
  exact Nat.lt_of_le_of_lt (Nat.mod_le _ _) (Nat.mod_lt _ hpos)

variable {parameters float}

/-- Any number of reads, from an index in the buffer. -/
theorem foldlM_randomStep {l : List Nat} {s : Walk longBits × Kernel}
    (hpos : 0 < parameters.floats) (hlength : s.2.buffer.length = parameters.floats)
    (hidx : s.1.idx.toNat < parameters.floats)
    (haccessed : ∀ idx ∈ s.2.accessed, idx < parameters.floats) :
    ∃ s', l.foldlM (fun s _ => randomStep parameters float s) s = .ok s' ∧
      ∀ idx ∈ s'.2.accessed, idx < parameters.floats := by
  induction l generalizing s with
  | nil => exact ⟨s, rfl, haccessed⟩
  | cons i l ih =>
      have hfits : s.1.idx.toNat + 1 ≤ s.2.buffer.length := by rwa [hlength]
      simp only [List.foldlM_cons, randomStep, load_of_le hfits]
      apply ih
      · exact hlength
      · exact next_idx_lt parameters float _ _ hpos
      · intro idx hmem
        rcases List.mem_append.mp hmem with hmem | hmem
        · exact haccessed idx hmem
        · obtain rfl : idx = s.1.idx.toNat := by simpa using hmem
          exact hidx

end RandomRead

/-! ## The variants -/

section Variants

variable {parameters : Parameters} {float : FloatOperations} {kernel : Kernel}

/-- The operation goes right, and has accessed these indices. -/
def Accesses (accessed : List Nat) (result : Except Fault Kernel) : Prop :=
  ∃ kernel', result = .ok kernel' ∧ kernel'.accessed = accessed

/-- The floats, where a stream has this number of blocks. -/
theorem floats_eq {q width : Nat} (hsize : parameters.bufferSize = q * width) :
    parameters.floats = parameters.dlp * q * parameters.unroll * width := by
  rw [Parameters.floats, hsize]
  ring

/-- Reading four elements at a time accesses the streams in order. -/
theorem readSse_accesses (hunroll : 0 < parameters.unroll) {q : Nat}
    (hsize : parameters.bufferSize = q * 4) (hbuffer : kernel.buffer.length = parameters.floats) :
    Accesses (kernel.accessed ++ streamOrder parameters.dlp q parameters.unroll 4)
      (readSse parameters kernel) := by
  have hcounters : counters 0 (parameters.bufferSize * parameters.unroll)
      (4 * parameters.unroll) = (List.range q).map (· * (4 * parameters.unroll)) := by
    rw [hsize, Nat.mul_assoc]
    exact counters_zero_mul (Nat.mul_pos (by omega) hunroll) q
  have hloops : AccessesAt Prod.snd parameters.floats
      (loop 0 (parameters.bufferSize * parameters.unroll) (4 * parameters.unroll) fun i =>
        loop 0 parameters.unroll 1 fun j => loop 0 parameters.dlp 1 fun p =>
          xorPs p (p * parameters.bufferSize * parameters.unroll + i + j * 4))
      (streamOrder parameters.dlp q parameters.unroll 4) := by
    apply accessesAt_streams hcounters
    intro m j p hm hj hp
    have hindex : p * parameters.bufferSize * parameters.unroll + m * (4 * parameters.unroll) +
        j * 4 = streamIndex q parameters.unroll 4 p m j := by
      rw [hsize, streamIndex]
      ring
    rw [hindex]
    apply accessesAt_xorPs (Nat.mul_mod_left _ _)
    rw [floats_eq hsize]
    exact streamIndex_add_le hp hm hj
  rcases hloops (fun _ => List.replicate 4 0, kernel) hbuffer with ⟨s, hrun, -, haccessed⟩
  simp only [Accesses, readSse, hrun]
  exact ⟨_, rfl, haccessed⟩

/-- The counter of the outer loop goes over the multiples of the width. -/
theorem counters_bufferSize {q width : Nat} (hwidth : 0 < width)
    (hsize : parameters.bufferSize = q * width) :
    counters 0 parameters.bufferSize width = (List.range q).map (· * width) := by
  rw [hsize]
  exact counters_zero_mul hwidth q

/-- Writing four elements at a time accesses the streams in order. -/
theorem writeSse_accesses {q : Nat} (hsize : parameters.bufferSize = q * 4)
    (hbuffer : kernel.buffer.length = parameters.floats) :
    Accesses (kernel.accessed ++ streamOrder parameters.dlp q parameters.unroll 4)
      (writeSse parameters kernel) := by
  have hloops : AccessesAt id parameters.floats (writeSse parameters)
      (streamOrder parameters.dlp q parameters.unroll 4) := by
    apply accessesAt_streams (counters_bufferSize (by omega) hsize)
    intro m j p hm hj hp
    have hindex : p * parameters.bufferSize * parameters.unroll + m * 4 * parameters.unroll +
        j * 4 = streamIndex q parameters.unroll 4 p m j := by
      rw [hsize, streamIndex]
      ring
    rw [hindex]
    apply accessesAt_storePs (Nat.mul_mod_left _ _)
    rw [floats_eq hsize]
    exact streamIndex_add_le hp hm hj
  rcases hloops kernel hbuffer with ⟨kernel', hrun, -, haccessed⟩
  exact ⟨kernel', hrun, haccessed⟩

/-- In a scalar variant each float is a block. -/
theorem scalarIndex (m j p : Nat) :
    p * parameters.bufferSize * parameters.unroll + m * 1 * parameters.unroll + j =
      streamIndex parameters.bufferSize parameters.unroll 1 p m j := by
  rw [streamIndex]
  ring

/-- Reading single elements accesses the streams in order. -/
theorem readScalar_accesses (float : FloatOperations)
    (hbuffer : kernel.buffer.length = parameters.floats) :
    Accesses
      (kernel.accessed ++ streamOrder parameters.dlp parameters.bufferSize parameters.unroll 1)
      (readScalar parameters float kernel) := by
  have hsize : parameters.bufferSize = parameters.bufferSize * 1 := (Nat.mul_one _).symm
  have hloops : AccessesAt Prod.snd parameters.floats
      (loop 0 parameters.bufferSize 1 fun i => loop 0 parameters.unroll 1 fun j =>
        loop 0 parameters.dlp 1 fun p => xorChar float p
          (p * parameters.bufferSize * parameters.unroll + i * parameters.unroll + j))
      (streamOrder parameters.dlp parameters.bufferSize parameters.unroll 1) := by
    apply accessesAt_streams (counters_bufferSize Nat.one_pos hsize)
    intro m j p hm hj hp
    rw [scalarIndex]
    apply accessesAt_xorChar
    rw [floats_eq hsize]
    exact streamIndex_add_le hp hm hj
  rcases hloops (fun _ => 0, kernel) hbuffer with ⟨s, hrun, -, haccessed⟩
  simp only [Accesses, readScalar, hrun]
  exact ⟨_, rfl, haccessed⟩

/-- Writing single elements accesses the streams in order. -/
theorem writeScalar_accesses (hbuffer : kernel.buffer.length = parameters.floats) :
    Accesses
      (kernel.accessed ++ streamOrder parameters.dlp parameters.bufferSize parameters.unroll 1)
      (writeScalar parameters kernel) := by
  have hsize : parameters.bufferSize = parameters.bufferSize * 1 := (Nat.mul_one _).symm
  have hloops : AccessesAt id parameters.floats (writeScalar parameters)
      (streamOrder parameters.dlp parameters.bufferSize parameters.unroll 1) := by
    apply accessesAt_streams (counters_bufferSize Nat.one_pos hsize)
    intro m j p hm hj hp
    rw [scalarIndex]
    apply accessesAt_store
    rw [floats_eq hsize]
    exact streamIndex_add_le hp hm hj
  rcases hloops kernel hbuffer with ⟨kernel', hrun, -, haccessed⟩
  exact ⟨kernel', hrun, haccessed⟩

/-- Reading at random places stays inside of the buffer. -/
theorem randomRead_accesses (hpos : 0 < parameters.dlp * parameters.unroll) (longBits : Nat)
    (hbuffer : kernel.buffer.length = parameters.floats) (haccessed : kernel.accessed = []) :
    ∃ kernel', randomRead parameters float longBits kernel = .ok kernel' ∧
      ∀ idx ∈ kernel'.accessed, idx < parameters.floats := by
  have hloop : ∃ s', loop 0 parameters.bufferSize 1 (fun _ => randomStep parameters float)
      (({ idx := 0, rand := 13, tempRes := 0 } : Walk longBits), kernel) = .ok s' ∧
        ∀ idx ∈ s'.2.accessed, idx < parameters.floats := by
    by_cases hempty : parameters.bufferSize = 0
    · rw [loop, hempty, counters_zero_one]
      exact ⟨_, rfl, by simp [haccessed]⟩
    · have hfloats : 0 < parameters.floats := Nat.mul_pos hpos (Nat.pos_of_ne_zero hempty)
      apply foldlM_randomStep hfloats hbuffer
      · simpa using hfloats
      · simp [haccessed]
  rcases hloop with ⟨s, hrun, hinside⟩
  simp only [randomRead, hrun]
  exact ⟨_, rfl, hinside⟩

/-- What an operation is to access: the whole buffer once, which are as many bytes as the data
size says, or any indices in the buffer. -/
def Touches (parameters : Parameters) (operation : MemoryOperation) (accessed : List Nat) : Prop :=
  match operation with
  | .randomRead => ∀ idx ∈ accessed, idx < parameters.floats
  | _ => accessed.Perm (List.range parameters.floats) ∧
      Signed.wrap 64 (4 * accessed.length) = getDataSize parameters ∧
      (4 * accessed.length < 2 ^ 63 → (getDataSize parameters).val = 4 * accessed.length)

/-- The data size is that of the buffer, wrapped to 64 bits. -/
theorem getDataSize_eq (parameters : Parameters) :
    getDataSize parameters = Signed.wrap 64 (4 * parameters.floats) := by
  rw [getDataSize, Parameters.floats]
  congr 1
  push_cast
  ring

/-- Accessing each element once touches the buffer as it has to. -/
theorem touches_of_perm {accessed : List Nat} (hperm : accessed.Perm (List.range parameters.floats))
    {operation : MemoryOperation} (hoperation : operation ≠ .randomRead) :
    Touches parameters operation accessed := by
  have hlength : accessed.length = parameters.floats := by
    rw [hperm.length_eq, List.length_range]
  have hwhole : accessed.Perm (List.range parameters.floats) ∧
      Signed.wrap 64 (4 * accessed.length) = getDataSize parameters ∧
      (4 * accessed.length < 2 ^ 63 → (getDataSize parameters).val = 4 * accessed.length) := by
    rw [hlength, getDataSize_eq]
    refine ⟨hperm, rfl, fun hfits => ?_⟩
    have hval := Signed.wrap_val (show 0 < 64 by decide)
      ⟨4 * parameters.floats, by omega, by omega⟩
    exact congrArg Subtype.val hval
  cases operation with
  | read => exact hwhole
  | write => exact hwhole
  | randomRead => exact absurd rfl hoperation

/-- The blocks of the streams are the whole buffer. -/
theorem Accesses.touches {q width : Nat} {result : Except Fault Kernel}
    (h : Accesses (kernel.accessed ++ streamOrder parameters.dlp q parameters.unroll width) result)
    (haccessed : kernel.accessed = []) (hsize : parameters.bufferSize = q * width)
    {operation : MemoryOperation} (hoperation : operation ≠ .randomRead) :
    ∃ kernel', result = .ok kernel' ∧ Touches parameters operation kernel'.accessed := by
  rcases h with ⟨kernel', hresult, hends⟩
  have hperm := streamOrder_perm parameters.dlp q parameters.unroll width
  rw [← floats_eq hsize] at hperm
  refine ⟨kernel', hresult, ?_⟩
  rw [hends, haccessed]
  exact touches_of_perm hperm hoperation

/-- The whole buffer is accessed once, and the random indices are in it. -/
theorem run_touches (hdlp : 1 ≤ parameters.dlp) (hunroll : 1 ≤ parameters.unroll) {sse : Bool}
    (hsize : sse = true → 4 ∣ parameters.bufferSize) (longBits : Nat)
    (operation : MemoryOperation) (hbuffer : kernel.buffer.length = parameters.floats)
    (haccessed : kernel.accessed = []) :
    ∃ kernel', run parameters float sse longBits operation kernel = .ok kernel' ∧
      Touches parameters operation kernel'.accessed := by
  have hchecked : ¬(sse = true ∧ parameters.bufferSize % 4 * 4 ≠ 0) := by
    rintro ⟨hsse, hmod⟩
    rw [Nat.mod_eq_zero_of_dvd (hsize hsse)] at hmod
    exact hmod rfl
  have hone : parameters.bufferSize = parameters.bufferSize * 1 := (Nat.mul_one _).symm
  unfold run
  rw [if_neg hchecked]
  cases operation with
  | read =>
      cases sse with
      | true =>
          obtain ⟨q, hq⟩ := hsize rfl
          rw [Nat.mul_comm] at hq
          exact (readSse_accesses hunroll hq hbuffer).touches haccessed hq (by simp)
      | false => exact (readScalar_accesses float hbuffer).touches haccessed hone (by simp)
  | write =>
      cases sse with
      | true =>
          obtain ⟨q, hq⟩ := hsize rfl
          rw [Nat.mul_comm] at hq
          exact (writeSse_accesses hq hbuffer).touches haccessed hq (by simp)
      | false => exact (writeScalar_accesses hbuffer).touches haccessed hone (by simp)
  | randomRead =>
      exact randomRead_accesses (Nat.mul_pos hdlp hunroll) longBits hbuffer haccessed

/-- Two streams of four floats each, which are unrolled twice. -/
theorem run_touches_sse :
    ∃ kernel', run ⟨2, 2, 4⟩ ⟨fun _ => 0, fun _ _ => 0, fun _ _ => 0⟩ true 64 .read
        ⟨List.replicate 16 0, 0, []⟩ = .ok kernel' ∧
      Touches ⟨2, 2, 4⟩ .read kernel'.accessed :=
  run_touches (by decide) (by decide) (fun _ => by decide) 64 .read rfl rfl

end Variants

end MemoryKernel
end Kernels
end Roofline
