import Mathlib.Data.Nat.Find
import Roofline.Library.WhileLoops

/-!
# Reading a file from the disk

The kernel lets a file grow to a size, and reads all of it in each iteration.  A call of the
operating system may move fewer bytes than it is asked for, so that both are loops around the
calls, and reading goes on for ever at the end of a file that is too short.

Main results:

- Theorem {lit}`run_stops_iff`: when the kernel stops.
- Theorem {lit}`kernel_reads`: the contents of the file, however many bytes each call moves, and
  what is read of it.
-/

namespace Roofline
namespace Kernels
namespace DiskIoKernel

open WhileLoops

/-! ## Files -/

/-- A byte of the file. -/
abbrev Byte :=
  BitVec 8

/-- How many bytes each call may move, for the number of calls before it.  A call that does not
fail moves at least one byte, unless it is at the end of the file. -/
structure Device where
  moved : Nat → Option { n : Nat // 0 < n }

/-- The file with its position, the number of calls, the state of the random numbers, and all
bytes that have been read. -/
structure State where
  content : List Byte
  position : Nat
  calls : Nat
  seed : BitVec 48
  received : List Byte

/-- The file is opened for appending. -/
def write (device : Device) (bytes : List Byte) (s : State) : Option (Nat × State) :=
  (device.moved s.calls).map fun n =>
    let ret := min n.val bytes.length
    (ret, { s with content := s.content ++ bytes.take ret, calls := s.calls + 1 })

/-- {lit}`read`: at most as much as is asked for, and as is left in the file; none if it fails. -/
def read (device : Device) (size : Nat) (s : State) : Option (Nat × State) :=
  (device.moved s.calls).map fun n =>
    let ret := min (min n.val size) (s.content.length - s.position)
    (ret, { s with
      position := s.position + ret
      calls := s.calls + 1
      received := s.received ++ (s.content.drop s.position).take ret })

/-! ## Random numbers -/

/-- {lit}`srand48`. -/
def srand48 (seed : BitVec 32) : BitVec 48 :=
  seed ++ 0x330E#16

/-- The state after a number has been drawn. -/
def nextSeed (seed : BitVec 48) : BitVec 48 :=
  0x5DEECE66D#48 * seed + 0xB#48

/-- The number of {lit}`lrand48`, which has 31 bits. -/
def lrand48 (seed : BitVec 48) : BitVec 64 :=
  (nextSeed seed >>> 17).setWidth 64

/-- The bytes of a {lit}`long int` in memory. -/
def bytesOf (value : BitVec 64) : List Byte :=
  (List.range 8).map fun i => (value >>> (8 * i)).setWidth 8

/-- The bytes of random numbers, and the state after them. -/
def fillBuffer : Nat → BitVec 48 → List Byte × BitVec 48
  | 0, seed => ([], seed)
  | n + 1, seed =>
      let rest := fillBuffer n (nextSeed seed)
      (bytesOf (lrand48 seed) ++ rest.1, rest.2)

/-! ## The kernel -/

/-- The size of the blocks that are written. -/
def writeSize : Nat :=
  1024 * 4

/-- The size of the buffer for reading. -/
def bufferSize : Nat :=
  1024 * 512

/-- The inner loop of {lit}`initialize`: the length of the file before the block, the block, and
how much of it has been written. -/
structure Block where
  length : Nat
  bytes : List Byte
  written : Nat
  state : State

variable (device : Device)

/-- The process exits if a call fails. -/
def writeRound (block : Block) : Block ⊕ ((Nat × State) ⊕ Except State State) :=
  if block.written < writeSize then
    match write device (block.bytes.drop block.written) block.state with
    | none => .inr (.inr (.error block.state))
    | some (ret, state) => .inl { block with written := block.written + ret, state }
  else
    .inr (.inl (block.length + writeSize, block.state))

/-- The outer loop of {lit}`initialize`. -/
def extendRound (fileSize : Int) : Nat × State → Block ⊕ Except State State
  | (length, s) =>
      if length < fileSize then
        let buffer := fillBuffer (writeSize / 8) s.seed
        .inl ⟨length, buffer.1, 0, { s with seed := buffer.2 }⟩
      else
        .inr (.ok s)

/-- What {lit}`initialize` starts with. -/
def openFile (s : State) : (Nat × State) ⊕ Block :=
  .inl (s.content.length, { s with position := s.content.length, seed := srand48 0 })

/-- The rounds of {lit}`initialize`. -/
def initializeFile (fileSize : Int) :
    (Nat × State) ⊕ Block → ((Nat × State) ⊕ Block) ⊕ Except State State :=
  nested (extendRound fileSize) (writeRound device)

/-- The loop of {lit}`readFileOnce`, with the number of iterations of {lit}`run`. -/
structure Pass where
  iterations : Nat
  position : Nat
  state : State

/-- One round of the loop of {lit}`readFileOnce`. -/
def readRound (fileSize : Int) (pass : Pass) : Pass ⊕ ((Nat × State) ⊕ Except State State) :=
  if pass.position < fileSize then
    match read device bufferSize pass.state with
    | none => .inr (.inr (.error pass.state))
    | some (ret, state) => .inl { pass with position := pass.position + ret, state }
  else
    .inr (.inl (pass.iterations, pass.state))

/-- The condition of the loop of {lit}`run`; {lit}`keepRunning` is asked for before each
iteration. -/
def Continues (iterations : Int) (keepRunning : Nat → Bool) (count : Nat) : Prop :=
  (iterations = -1 ∧ keepRunning count = true) ∨ (iterations > 0 ∧ count < iterations)

/-- Whether another iteration is made can be decided. -/
instance (iterations : Int) (keepRunning : Nat → Bool) (count : Nat) :
    Decidable (Continues iterations keepRunning count) :=
  inferInstanceAs (Decidable (_ ∨ _))

/-- One round of the loop of {lit}`run`. -/
def runRound (iterations : Int) (keepRunning : Nat → Bool) :
    Nat × State → Pass ⊕ Except State State
  | (count, s) =>
      if Continues iterations keepRunning count then
        .inl ⟨count + 1, 0, { s with position := 0 }⟩
      else
        .inr (.ok s)

/-- The rounds of {lit}`run`. -/
def run (fileSize iterations : Int) (keepRunning : Nat → Bool) :
    (Nat × State) ⊕ Pass → ((Nat × State) ⊕ Pass) ⊕ Except State State :=
  nested (runRound iterations keepRunning) (readRound device fileSize)

/-! ## The file -/

section File

/-- Each random number fills eight bytes. -/
theorem length_fillBuffer (n : Nat) (seed : BitVec 48) : (fillBuffer n seed).1.length = 8 * n := by
  induction n generalizing seed with
  | zero => rfl
  | succ n ih =>
      rw [fillBuffer, List.length_append, ih, bytesOf, List.length_map, List.length_range]
      omega

/-- Numbers that are drawn in two parts. -/
theorem fillBuffer_add (m n : Nat) (seed : BitVec 48) :
    fillBuffer (m + n) seed =
      ((fillBuffer m seed).1 ++ (fillBuffer n (fillBuffer m seed).2).1,
        (fillBuffer n (fillBuffer m seed).2).2) := by
  induction m generalizing seed with
  | zero => rw [Nat.zero_add]; rfl
  | succ m ih =>
      rw [Nat.succ_add_eq_add_succ, Nat.add_succ, fillBuffer, ih, fillBuffer, List.append_assoc]

/-- A block is written as a whole, in whatever parts, or a call fails. -/
theorem writeRound_ends (device : Device) {bytes : List Byte} (hbytes : bytes.length = writeSize)
    (length : Nat) (s : State) :
    ∃ left, Ends (writeRound device) ⟨length, bytes, 0, s⟩ left ∧
      match left with
      | .inl (after, s') => after = length + writeSize ∧ s'.content = s.content ++ bytes ∧
          s'.seed = s.seed ∧ s'.received = s.received
      | .inr (.error s') => (∃ i, device.moved i = none) ∧
          ∃ k < writeSize, s'.content = s.content ++ bytes.take k
      | .inr (.ok _) => False := by
  apply exists_ends_of_measure
    (fun block => block.length = length ∧ block.bytes = bytes ∧ block.written ≤ writeSize ∧
      block.state.content = s.content ++ bytes.take block.written ∧ block.state.seed = s.seed ∧
        block.state.received = s.received)
    _ fun block => writeSize - block.written
  · rintro ⟨length, bytes, written, state⟩ ⟨rfl, rfl, hwritten, hcontent, hseed, hreceived⟩
    dsimp only at hwritten hcontent hseed hreceived
    unfold writeRound
    dsimp only
    by_cases hless : written < writeSize
    · rw [if_pos hless]
      cases hmoved : device.moved state.calls with
      | none =>
          refine .inr ⟨.inr (.error state), ?_, ⟨state.calls, hmoved⟩, written, hless, hcontent⟩
          rw [write, hmoved]
          rfl
      | some n =>
          have hpositive := n.property
          have hrest : (bytes.drop written).length = writeSize - written := by
            rw [List.length_drop, hbytes]
          refine .inl ⟨⟨length, bytes, written + min n.val (bytes.drop written).length,
            { state with
              content := state.content ++
                (bytes.drop written).take (min n.val (bytes.drop written).length)
              calls := state.calls + 1 }⟩, ?_, ⟨rfl, rfl, ?_, ?_, hseed, hreceived⟩, ?_⟩
          · rw [write, hmoved]
            rfl
          · dsimp only
            omega
          · rw [hcontent, List.append_assoc, List.take_add]
          · dsimp only
            omega
    · rw [if_neg hless]
      obtain rfl : written = writeSize := by omega
      refine .inr ⟨_, rfl, rfl, ?_, hseed, hreceived⟩
      rw [hcontent, ← hbytes, List.take_length]
  · exact ⟨rfl, rfl, Nat.zero_le _, by simp, rfl, rfl⟩

/-- The blocks that a file lacks. -/
def missingBlocks (length : Nat) (fileSize : Int) : Nat :=
  ((fileSize - length).toNat + (writeSize - 1)) / writeSize

/-- The bytes of blocks. -/
def randomBytes (blocks : Nat) : List Byte :=
  (fillBuffer (writeSize / 8 * blocks) (srand48 0)).1

/-- The blocks have the size that is written. -/
theorem length_randomBytes (blocks : Nat) : (randomBytes blocks).length = writeSize * blocks := by
  rw [randomBytes, length_fillBuffer, ← Nat.mul_assoc]
  rfl

/-- A further block continues the random numbers. -/
theorem randomBytes_succ (blocks : Nat) :
    randomBytes (blocks + 1) = randomBytes blocks ++
      (fillBuffer (writeSize / 8) (fillBuffer (writeSize / 8 * blocks) (srand48 0)).2).1 := by
  rw [randomBytes, Nat.mul_succ, fillBuffer_add]
  rfl

/-- The first blocks do not depend on how many follow. -/
theorem randomBytes_prefix {m n : Nat} (h : m ≤ n) : randomBytes m <+: randomBytes n := by
  obtain ⟨d, rfl⟩ := Nat.exists_eq_add_of_le h
  refine ⟨(fillBuffer (writeSize / 8 * d) (fillBuffer (writeSize / 8 * m) (srand48 0)).2).1, ?_⟩
  rw [randomBytes, randomBytes, Nat.mul_add, fillBuffer_add]

/-- A part of a block, as a part of all blocks. -/
theorem take_randomBytes {i blocks k : Nat} (hi : i < blocks) (hk : k < writeSize) :
    (randomBytes blocks).take (writeSize * i + k) = randomBytes i ++
      (fillBuffer (writeSize / 8) (fillBuffer (writeSize / 8 * i) (srand48 0)).2).1.take k := by
  rcases randomBytes_prefix (Nat.succ_le_of_lt hi) with ⟨rest, hrest⟩
  have hle : writeSize * i + k ≤ (randomBytes (i + 1)).length := by
    rw [length_randomBytes, Nat.mul_succ]
    omega
  rw [← hrest, List.take_append_of_le_length hle, randomBytes_succ, ← length_randomBytes,
    List.take_length_add_append]

/-- The state after a number of blocks. -/
structure Extended (s : State) (blocks length : Nat) (s' : State) : Prop where
  length_eq : length = s.content.length + writeSize * blocks
  content : s'.content = s.content ++ randomBytes blocks
  seed : s'.seed = (fillBuffer (writeSize / 8 * blocks) (srand48 0)).2
  received : s'.received = s.received

/-- The file gets the missing blocks, with random numbers that depend neither on how many bytes the
calls move nor on what is in the file; if a call fails, it gets a part of them. -/
theorem initializeFile_file (device : Device) (fileSize : Int) (s : State) :
    ∃ result, Ends (initializeFile device fileSize) (openFile s) result ∧
      match result with
      | .ok s' => s'.content = s.content ++ randomBytes (missingBlocks s.content.length fileSize) ∧
          fileSize ≤ s'.content.length ∧
            (s'.content = s.content ∨ s'.content.length < fileSize + writeSize)
      | .error s' => (∃ i, device.moved i = none) ∧
          ∃ k < writeSize * missingBlocks s.content.length fileSize,
            s'.content = s.content ++
              (randomBytes (missingBlocks s.content.length fileSize)).take k := by
  have hblocks : ∀ i, i < missingBlocks s.content.length fileSize ↔
      (s.content.length + writeSize * i : Nat) < fileSize := by
    intro i
    unfold missingBlocks writeSize
    omega
  refine exists_ends_nested (n := missingBlocks s.content.length fileSize)
    (fun blocks (length, s') => Extended s blocks length s') _ ?_ ?_ ?_
  · rintro i hi ⟨length, s'⟩ h
    dsimp only at h
    have hless : (length : Int) < fileSize := by
      rw [h.length_eq]
      exact (hblocks i).mp hi
    have hbytes : (fillBuffer (writeSize / 8) s'.seed).1.length = writeSize := length_fillBuffer _ _
    rcases writeRound_ends device hbytes length
      { s' with seed := (fillBuffer (writeSize / 8) s'.seed).2 } with ⟨left, hends, hleft⟩
    refine ⟨_, if_pos hless, left, hends, ?_⟩
    match left, hleft with
    | .inl (after, s''), ⟨hafter, hcontent, hseed, hreceived⟩ =>
        refine ⟨?_, ?_, ?_, hreceived.trans h.received⟩
        · rw [hafter, h.length_eq, Nat.mul_succ, Nat.add_assoc]
        · rw [hcontent, h.content, h.seed, randomBytes_succ, List.append_assoc]
        · rw [hseed, h.seed, Nat.mul_succ, fillBuffer_add]
    | .inr (.error s''), ⟨hfails, k, hk, hcontent⟩ =>
        refine ⟨hfails, writeSize * i + k, ?_, ?_⟩
        · calc
            writeSize * i + k < writeSize * (i + 1) := by
              rw [Nat.mul_succ]
              omega
            _ ≤ writeSize * missingBlocks s.content.length fileSize := Nat.mul_le_mul_left _ hi
        · rw [hcontent, h.content, h.seed, take_randomBytes hi hk, List.append_assoc]
  · rintro ⟨length, s'⟩ h
    dsimp only at h
    have hlength : s'.content.length = length := by
      rw [h.content, List.length_append, length_randomBytes, h.length_eq]
    have hless : ¬(length : Int) < fileSize := by
      rw [h.length_eq]
      exact fun hless => absurd ((hblocks _).mpr hless) (Nat.lt_irrefl _)
    refine ⟨.ok s', if_neg hless, h.content, by omega, ?_⟩
    by_cases hnone : missingBlocks s.content.length fileSize = 0
    · exact .inl (by rw [h.content, hnone]; simp [randomBytes, fillBuffer])
    · right
      have hlast := (hblocks (missingBlocks s.content.length fileSize - 1)).mp (by omega)
      rw [hlength, h.length_eq]
      unfold writeSize at hlast ⊢
      omega
  · exact ⟨by simp, by simp [randomBytes, fillBuffer], rfl, rfl⟩

end File

/-! ## Reading -/

section Reading

variable {device : Device} {fileSize iterations : Int} {keepRunning : Nat → Bool}

/-- What has been read by some passes, given the positions at which they have ended. -/
structure HasRead (fileSize : Int) (s : State) (passes : List Nat) (s' : State) : Prop where
  content : s'.content = s.content
  size_le : ∀ position ∈ passes, fileSize ≤ position
  le_length : ∀ position ∈ passes, position ≤ s.content.length
  lt : ∀ position ∈ passes, position = 0 ∨ (position : Int) < fileSize + bufferSize
  received : s'.received = s.received ++ passes.flatMap fun position => s.content.take position

/-- What holds in the middle of a pass. -/
structure Reading (fileSize : Int) (s : State) (count : Nat) (pass : Pass) : Prop where
  iterations : pass.iterations = count
  position : pass.state.position = pass.position
  content : pass.state.content = s.content
  le_length : pass.position ≤ s.content.length
  lt : pass.position = 0 ∨ (pass.position : Int) < fileSize + bufferSize
  received : pass.state.received = s.received ++ s.content.take pass.position

/-- A call reads at least one byte before the end of the file. -/
theorem exists_read {size : Nat} (hsize : 0 < size) (hmoved : ∀ i, device.moved i ≠ none)
    (s : State) :
    ∃ ret, ret ≤ size ∧ ret ≤ s.content.length - s.position ∧
      (s.position < s.content.length → 0 < ret) ∧
        read device size s = some (ret, { s with
          position := s.position + ret
          calls := s.calls + 1
          received := s.received ++ (s.content.drop s.position).take ret }) := by
  rcases Option.ne_none_iff_exists'.mp (hmoved s.calls) with ⟨n, hn⟩
  have hpositive := n.property
  refine ⟨min (min n.val size) (s.content.length - s.position), by omega, by omega, by omega, ?_⟩
  rw [read, hn]
  rfl

/-- A call reads the bytes that come next. -/
theorem Reading.round {s : State} {count : Nat} {pass : Pass}
    (hmoved : ∀ i, device.moved i ≠ none) (h : Reading fileSize s count pass)
    (hless : (pass.position : Int) < fileSize) :
    ∃ next, readRound device fileSize pass = .inl next ∧ Reading fileSize s count next ∧
      (pass.position < s.content.length → pass.position < next.position) := by
  have hbuffer : 0 < bufferSize := by decide
  rcases exists_read hbuffer hmoved pass.state with ⟨ret, hsize, hremaining, hpositive, hread⟩
  rw [h.content, h.position] at hremaining hpositive
  have hle := h.le_length
  refine ⟨⟨pass.iterations, pass.position + ret, { pass.state with
    position := pass.state.position + ret
    calls := pass.state.calls + 1
    received := pass.state.received ++ (pass.state.content.drop pass.state.position).take ret }⟩,
    ?_, ⟨h.iterations, ?_, h.content, ?_, ?_, ?_⟩, ?_⟩
  · rw [readRound, if_pos hless, hread]
  · rw [h.position]
  · dsimp only
    omega
  · right
    dsimp only
    omega
  · dsimp only
    rw [h.received, h.content, h.position, List.append_assoc, List.take_add]
  · intro hmore
    have hforward := hpositive hmore
    dsimp only
    omega

/-- A file that is long enough is read from its start to its size, or a bit more. -/
theorem readRound_ends (hmoved : ∀ i, device.moved i ≠ none) {s : State}
    (hlength : fileSize ≤ s.content.length) (hposition : s.position = 0) (count : Nat) :
    ∃ left, Ends (readRound device fileSize) ⟨count, 0, s⟩ left ∧
      ∃ position s', left = .inl (count, s') ∧ HasRead fileSize s [position] s' := by
  apply exists_ends_of_measure (Reading fileSize s count) _ fun pass =>
    s.content.length - pass.position
  · intro pass h
    by_cases hless : (pass.position : Int) < fileSize
    · rcases h.round hmoved hless with ⟨next, hround, hnext, hmore⟩
      have hforward := hmore (by omega)
      have hle := hnext.le_length
      exact .inl ⟨next, hround, hnext, by omega⟩
    · refine .inr ⟨.inl (pass.iterations, pass.state), by rw [readRound, if_neg hless],
        pass.position, pass.state, by rw [h.iterations], h.content, ?_, ?_, ?_, ?_⟩
      · simpa using hless
      · simpa using h.le_length
      · simpa using h.lt
      · simpa using h.received
  · exact ⟨rfl, hposition, rfl, Nat.zero_le _, .inl rfl, by simp⟩

/-- At the end of a file that is too short, nothing is read any more. -/
theorem not_ends_readRound (hmoved : ∀ i, device.moved i ≠ none) {s : State}
    (hlength : s.content.length < fileSize) (hposition : s.position = 0) (count : Nat)
    (left : (Nat × State) ⊕ Except State State) :
    ¬Ends (readRound device fileSize) ⟨count, 0, s⟩ left := by
  apply not_ends_of_invariant (Reading fileSize s count)
  · intro pass h
    have hle := h.le_length
    rcases h.round hmoved (by omega) with ⟨next, hround, hnext, _⟩
    exact ⟨next, hround, hnext⟩
  · exact ⟨rfl, hposition, rfl, Nat.zero_le _, .inl rfl, by simp⟩

/-- The number of iterations: as many as are asked for, or until the kernel is stopped, which is
noticed between iterations only. -/
def Iterations (iterations : Int) (keepRunning : Nat → Bool) (n : Nat) : Prop :=
  (iterations > 0 ∧ (n : Int) = iterations) ∨
    (iterations = -1 ∧ keepRunning n = false ∧ ∀ i < n, keepRunning i = true) ∨
      (iterations ≤ 0 ∧ iterations ≠ -1 ∧ n = 0)

/-- The kernel goes on until it has made its iterations, and then stops. -/
theorem Iterations.continues {n : Nat} (h : Iterations iterations keepRunning n) :
    (∀ i < n, Continues iterations keepRunning i) ∧ ¬Continues iterations keepRunning n := by
  unfold Continues
  rcases h with ⟨hpositive, heq⟩ | ⟨rfl, hstopped, hrunning⟩ | ⟨hnone, hne, rfl⟩
  · exact ⟨fun i hi => .inr ⟨hpositive, by omega⟩, by omega⟩
  · exact ⟨fun i hi => .inl ⟨rfl, hrunning i hi⟩, by simp [hstopped]⟩
  · exact ⟨fun i hi => absurd hi (Nat.not_lt_zero i), by omega⟩

/-- Without a number of iterations the loop goes on for ever. -/
theorem continues_of_not_iterations (h : ∀ n, ¬Iterations iterations keepRunning n) (count : Nat) :
    Continues iterations keepRunning count := by
  by_cases hpositive : iterations > 0
  · exact absurd (.inl ⟨hpositive, by omega⟩) (h iterations.toNat)
  · by_cases hinfinite : iterations = -1
    · refine .inl ⟨hinfinite, ?_⟩
      by_contra hstopped
      have hexists : ∃ i, keepRunning i = false := ⟨count, by simpa using hstopped⟩
      refine h (Nat.find hexists) (.inr (.inl ⟨hinfinite, Nat.find_spec hexists, fun i hi => ?_⟩))
      simpa using Nat.find_min hexists hi
    · exact absurd (.inr (.inr ⟨by omega, hinfinite, rfl⟩)) (h 0)

/-- What has been read in two parts has been read as a whole. -/
theorem HasRead.append {s s' s'' : State} {passes more : List Nat}
    (h : HasRead fileSize s passes s') (h' : HasRead fileSize s' more s'') :
    HasRead fileSize s (passes ++ more) s'' where
  content := h'.content.trans h.content
  size_le := List.forall_mem_append.mpr ⟨h.size_le, h'.size_le⟩
  le_length := List.forall_mem_append.mpr ⟨h.le_length, h.content ▸ h'.le_length⟩
  lt := List.forall_mem_append.mpr ⟨h.lt, h'.lt⟩
  received := by
    rw [h'.received, h.received, List.flatMap_append, List.append_assoc, h.content]

/-- The iterations are made, and each of them reads the file once. -/
theorem run_ends (hmoved : ∀ i, device.moved i ≠ none) {n : Nat}
    (hn : Iterations iterations keepRunning n) {s : State}
    (hlength : n = 0 ∨ fileSize ≤ s.content.length) :
    ∃ result, Ends (run device fileSize iterations keepRunning) (.inl (0, s)) result ∧
      ∃ passes s', result = .ok s' ∧ passes.length = n ∧ HasRead fileSize s passes s' := by
  refine exists_ends_nested (n := n)
    (fun i (count, s') => count = i ∧ ∃ passes, passes.length = i ∧ HasRead fileSize s passes s')
    _ ?_ ?_ ?_
  · rintro i hi ⟨count, s'⟩ ⟨rfl, passes, hpasses, hread⟩
    have hlong : fileSize ≤ s'.content.length := by
      rw [hread.content]
      exact hlength.resolve_left (by omega)
    rcases readRound_ends (s := { s' with position := 0 }) hmoved hlong rfl (count + 1) with
      ⟨left, hends, position, s'', rfl, hpass⟩
    refine ⟨_, if_pos (hn.continues.1 count hi), _, hends, rfl, passes ++ [position], ?_, ?_⟩
    · rw [List.length_append, hpasses, List.length_singleton]
    · exact hread.append ⟨hpass.content, hpass.size_le, hpass.le_length, hpass.lt, hpass.received⟩
  · rintro ⟨count, s'⟩ ⟨rfl, passes, hpasses, hread⟩
    exact ⟨.ok s', if_neg hn.continues.2, passes, s', rfl, hpasses, hread⟩
  · exact ⟨rfl, [], rfl, rfl, by simp, by simp, by simp, by simp⟩

/-- If the kernel stops, then it has made a number of iterations, and in each of them it has read
the file once. -/
theorem run_reads (hmoved : ∀ i, device.moved i ≠ none) (fileSize iterations : Int)
    (keepRunning : Nat → Bool) (s : State) (result : Except State State)
    (hends : Ends (run device fileSize iterations keepRunning) (.inl (0, s)) result) :
      ∃ n, Iterations iterations keepRunning n ∧ (n = 0 ∨ fileSize ≤ s.content.length) ∧
        ∃ passes s', result = .ok s' ∧ passes.length = n ∧ HasRead fileSize s passes s' := by
  have hstuck : s.content.length < fileSize → Continues iterations keepRunning 0 → False := by
    intro hshort hcontinues
    have hround : runRound iterations keepRunning (0, s) = .inl ⟨1, 0, { s with position := 0 }⟩ :=
      if_pos hcontinues
    exact not_ends_nested_inner (not_ends_readRound (s := { s with position := 0 }) hmoved hshort rfl
      1) result ((ends_nested_outer hround).mp hends)
  by_cases hexists : ∃ n, Iterations iterations keepRunning n
  · rcases hexists with ⟨n, hn⟩
    have hlength : n = 0 ∨ fileSize ≤ s.content.length := by
      by_contra hnot
      rw [not_or, Int.not_le] at hnot
      exact hstuck hnot.2 (hn.continues.1 0 (Nat.pos_of_ne_zero hnot.1))
    rcases run_ends hmoved hn hlength with ⟨other, hother, hread⟩
    refine ⟨n, hn, hlength, ?_⟩
    rw [hends.unique hother]
    exact hread
  · have hcontinues := continues_of_not_iterations (not_exists.mp hexists)
    by_cases hlength : fileSize ≤ s.content.length
    · refine absurd hends (not_ends_nested (fun (_, s') => fileSize ≤ s'.content.length) ?_ hlength
        result)
      rintro ⟨count, s'⟩ hlong
      rcases readRound_ends (s := { s' with position := 0 }) hmoved hlong rfl (count + 1) with
        ⟨left, hends, position, s'', rfl, hpass⟩
      refine ⟨_, if_pos (hcontinues count), _, hends, ?_⟩
      change fileSize ≤ s''.content.length
      rw [hpass.content]
      exact hlong
    · exact absurd (hcontinues 0) fun h => hstuck (by omega) h

/-- The kernel stops exactly if it makes a number of iterations, and the file is long enough for
them.  If it is not, the first iteration reads for ever. -/
theorem run_stops_iff (hmoved : ∀ i, device.moved i ≠ none) (fileSize iterations : Int)
    (keepRunning : Nat → Bool) (s : State) :
    ((∃ result, Ends (run device fileSize iterations keepRunning) (.inl (0, s)) result) ↔
      ∃ n, Iterations iterations keepRunning n ∧ (n = 0 ∨ fileSize ≤ s.content.length)) ∧
    (s.content.length < fileSize → Continues iterations keepRunning 0 →
      ∃ pass, runRound iterations keepRunning (0, s) = .inl pass ∧
        ∀ left, ¬Ends (readRound device fileSize) pass left) := by
  refine ⟨⟨?_, ?_⟩, fun hshort hcontinues => ?_⟩
  · rintro ⟨result, hends⟩
    rcases run_reads hmoved fileSize iterations keepRunning s result hends with ⟨n, hn, hlength, _⟩
    exact ⟨n, hn, hlength⟩
  · rintro ⟨n, hn, hlength⟩
    rcases run_ends hmoved hn hlength with ⟨result, hends, _⟩
    exact ⟨result, hends⟩
  · exact ⟨⟨1, 0, { s with position := 0 }⟩, if_pos hcontinues,
      not_ends_readRound (s := { s with position := 0 }) hmoved hshort rfl 1⟩

/-- Two bytes are read at a time, and the kernel is to make five iterations: with a file of four
bytes it stops, with one of three bytes it does not finish the first iteration. -/
theorem run_stops_iff_three :
    (∃ result, Ends (run ⟨fun _ => some ⟨2, by decide⟩⟩ 4 (-1) (· < 5))
      (.inl (0, ⟨[1, 2, 3, 4], 4, 0, 0, []⟩)) result) ∧
    (¬∃ result, Ends (run ⟨fun _ => some ⟨2, by decide⟩⟩ 4 (-1) (· < 5))
      (.inl (0, ⟨[1, 2, 3], 3, 0, 0, []⟩)) result) ∧
    ∃ pass, runRound (-1) (· < 5) (0, ⟨[1, 2, 3], 3, 0, 0, []⟩) = .inl pass ∧
      ∀ left, ¬Ends (readRound ⟨fun _ => some ⟨2, by decide⟩⟩ 4) pass left := by
  have hmoved : ∀ i, (⟨fun _ => some ⟨2, by decide⟩⟩ : Device).moved i ≠ none := by
    intro i hnone
    cases hnone
  have hlong := run_stops_iff hmoved 4 (-1) (· < 5) ⟨[1, 2, 3, 4], 4, 0, 0, []⟩
  have hshort := run_stops_iff hmoved 4 (-1) (· < 5) ⟨[1, 2, 3], 3, 0, 0, []⟩
  refine ⟨hlong.1.mpr ⟨5, .inr (.inl ⟨rfl, by decide, by decide⟩), .inr (by decide)⟩, ?_,
    hshort.2 (by decide) (.inl ⟨rfl, by decide⟩)⟩
  intro hstops
  rcases hshort.1.mp hstops with ⟨n, hn, rfl | hlength⟩
  · rcases hn with ⟨hpositive, _⟩ | ⟨_, hstopped, _⟩ | ⟨_, hne, _⟩
    · exact absurd hpositive (by decide)
    · exact absurd hstopped (by decide)
    · exact hne rfl
  · exact absurd hlength (by decide)

/-- However many bytes each call moves, the file gets the missing blocks of random numbers, and
after that the kernel stops exactly if it makes a number of iterations, each of which reads the
file once. -/
theorem kernel_reads (device : Device) (fileSize iterations : Int) (keepRunning : Nat → Bool)
    (s : State) :
    ∃ result, Ends (initializeFile device fileSize) (openFile s) result ∧
      match result with
      | .error s' => (∃ i, device.moved i = none) ∧
          ∃ k < writeSize * missingBlocks s.content.length fileSize,
            s'.content = s.content ++
              (randomBytes (missingBlocks s.content.length fileSize)).take k
      | .ok s' => s'.content = s.content ++ randomBytes (missingBlocks s.content.length fileSize) ∧
          (s'.content = s.content ∨ s'.content.length < fileSize + writeSize) ∧
            ((∀ i, device.moved i ≠ none) →
              ((∃ result, Ends (run device fileSize iterations keepRunning) (.inl (0, s')) result) ↔
                ∃ n, Iterations iterations keepRunning n) ∧
              ∀ result, Ends (run device fileSize iterations keepRunning) (.inl (0, s')) result →
                ∃ n passes s'', Iterations iterations keepRunning n ∧ result = .ok s'' ∧
                  passes.length = n ∧ HasRead fileSize s' passes s'') := by
  rcases initializeFile_file device fileSize s with ⟨result, hends, h⟩
  refine ⟨result, hends, ?_⟩
  match result, h with
  | .error s', h => exact h
  | .ok s', ⟨hcontent, hsize, hlength⟩ =>
      refine ⟨hcontent, hlength, fun hmoved => ⟨⟨?_, ?_⟩, ?_⟩⟩
      · rintro ⟨result, hends⟩
        rcases run_reads hmoved fileSize iterations keepRunning s' result hends with ⟨n, hn, _⟩
        exact ⟨n, hn⟩
      · rintro ⟨n, hn⟩
        rcases run_ends hmoved hn (.inr hsize) with ⟨result, hends, _⟩
        exact ⟨result, hends⟩
      · intro result hends
        rcases run_reads hmoved fileSize iterations keepRunning s' result hends with
          ⟨n, hn, _, passes, s'', hresult, hpasses, hread⟩
        exact ⟨n, passes, s'', hn, hresult, hpasses, hread⟩

/-- An empty file gets two blocks, 3000 bytes or less at a time, and is read twice. -/
theorem kernel_reads_empty :
    ∃ s', Ends (initializeFile ⟨fun _ => some ⟨3000, by decide⟩⟩ 5000) (openFile ⟨[], 0, 0, 0, []⟩)
        (.ok s') ∧ s'.content = randomBytes 2 ∧
      ∃ passes s'', Ends (run ⟨fun _ => some ⟨3000, by decide⟩⟩ 5000 2 fun _ => true) (.inl (0, s'))
        (.ok s'') ∧ passes.length = 2 ∧ HasRead 5000 s' passes s'' := by
  have hmoved : ∀ i, (⟨fun _ => some ⟨3000, by decide⟩⟩ : Device).moved i ≠ none :=
    fun _ h => by cases h
  rcases kernel_reads ⟨fun _ => some ⟨3000, by decide⟩⟩ 5000 2 (fun _ => true) ⟨[], 0, 0, 0, []⟩ with
    ⟨result, hends, h⟩
  cases result with
  | error s' =>
      rcases h.1 with ⟨i, hi⟩
      exact absurd hi (hmoved i)
  | ok s' =>
      rcases h with ⟨hcontent, _, hreads⟩
      rcases hreads hmoved with ⟨hstops, hresult⟩
      rcases hstops.mpr ⟨2, .inl ⟨by decide, rfl⟩⟩ with ⟨result, hrun⟩
      rcases hresult result hrun with ⟨n, passes, s'', hn, rfl, hpasses, hread⟩
      have htwo : n = 2 := by
        rcases hn with ⟨_, heq⟩ | ⟨hinfinite, _⟩ | ⟨hnone, _⟩
        · omega
        · exact absurd hinfinite (by decide)
        · exact absurd hnone (by decide)
      exact ⟨s', hends, hcontent, passes, s'', hrun, hpasses.trans htwo, hread⟩

end Reading

end DiskIoKernel
end Kernels
end Roofline
