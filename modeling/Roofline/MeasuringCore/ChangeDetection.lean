import Mathlib.Data.List.OfFn
import Roofline.MeasuringCore.UpdatingFileOutputStream

/-!
# What the stream leaves in the file, and whether it tells a change

The stream of {lit}`Roofline.MeasuringCore.UpdatingFileOutputStream` is written to by
{lit}`write(int)` and by the inherited {lit}`write(byte[], int, int)`, in any chunks.  The model
here also keeps the modes in which the file was opened.

The stream compares the {lit}`int` that it is given with what {lit}`read` returns.  A byte from
128 on comes sign-extended and never equals the byte in the file, and the byte 255 comes as -1
and equals the end of the file.

Main results:

- Theorem {lit}`update_erased`: without the modes, this is the stream for bytes.
- Theorem {lit}`content_close_iff`: the file holds the written bytes at the end, unless the old
  content was followed by -1.
- Theorem {lit}`detectsChange_iff`: the stream tells a change exactly, unless the old content is
  written again and is not ASCII, or is ASCII and is extended by bytes 255 only.
-/

namespace Roofline
namespace MeasuringCore

/-- The low eight bits of an {lit}`int`. -/
def lowByte (b : Int) : UInt8 :=
  UInt8.ofNat (b % 256).toNat

/-- The mode in which a random access file is opened. -/
inductive Mode
  | r
  | rw
  deriving DecidableEq

/-- The stream, with the modes in which it has opened its file. -/
structure OpenedStream extends UpdatingFileOutputStream where
  opened : List Mode

namespace OpenedStream

/-- The constructor; a missing file is created. -/
def create (file : Option Bytes) : OpenedStream :=
  match file with
  | some content => ⟨⟨content, 0, false⟩, [Mode.r]⟩
  | none => ⟨⟨[], 0, true⟩, [Mode.rw]⟩

/-- {lit}`raf.write`: the low eight bits are written. -/
def rafWrite (stream : OpenedStream) (b : Int) : OpenedStream :=
  ⟨stream.toUpdatingFileOutputStream.rafWrite (lowByte b), stream.opened⟩

/-- {lit}`raf.read`. -/
def rafRead (stream : OpenedStream) : Int × OpenedStream :=
  (stream.toUpdatingFileOutputStream.rafRead.1,
    ⟨stream.toUpdatingFileOutputStream.rafRead.2, stream.opened⟩)

/-- {lit}`switchToOutput`, which opens the file for writing. -/
def switchToOutput (stream : OpenedStream) (decreasePosition : Bool) : OpenedStream :=
  ⟨stream.toUpdatingFileOutputStream.switchToOutput decreasePosition, stream.opened ++ [Mode.rw]⟩

/-- {lit}`write(int)` -/
def write (stream : OpenedStream) (b : Int) : OpenedStream :=
  if stream.writing then
    stream.rafWrite b
  else
    let (ch, stream) := stream.rafRead
    if b ≠ ch then
      (stream.switchToOutput (ch ≠ -1)).rafWrite b
    else
      stream

/-- {lit}`close` -/
def close (stream : OpenedStream) : OpenedStream :=
  if stream.writing then
    { stream with content := stream.content.take stream.position }
  else if stream.content.length ≠ stream.position then
    stream.switchToOutput false
  else
    stream

/-- {lit}`isWriting` -/
def isWriting (stream : OpenedStream) : Bool :=
  stream.writing

end OpenedStream

/-! ## Chunks -/

/-- The arguments of the inherited {lit}`write(byte[], int, int)`, within the bounds that it
checks. -/
structure ByteChunk where
  buffer : Bytes
  off : Nat
  len : Nat
  inBounds : off + len ≤ buffer.length

/-- The bytes from {lit}`off` on. -/
def ByteChunk.bytes (chunk : ByteChunk) : Bytes :=
  List.ofFn fun i : Fin chunk.len =>
    chunk.buffer.get ⟨chunk.off + i, by have hbounds := chunk.inBounds; omega⟩

/-- All bytes at once. -/
def ByteChunk.ofBytes (bytes : Bytes) : ByteChunk :=
  ⟨bytes, 0, bytes.length, by omega⟩

/-- A chunk of all bytes of an array. -/
@[simp] theorem ByteChunk.bytes_ofBytes (bytes : Bytes) :
    (ByteChunk.ofBytes bytes).bytes = bytes := by
  simp [ByteChunk.bytes, ByteChunk.ofBytes]

/-- A call that writes to the stream. -/
inductive Chunk
  | int (b : Int)
  | bytes (chunk : ByteChunk)

/-- The arguments of the calls of {lit}`write(int)` that a chunk makes. -/
def Chunk.arguments : Chunk → List Int
  | .int b => [b]
  | .bytes chunk => chunk.bytes.map signExtended

namespace OpenedStream

/-- The inherited loop: each byte is passed on, sign-extended. -/
def writeBytes (stream : OpenedStream) (chunk : ByteChunk) : OpenedStream :=
  chunk.bytes.foldl (fun stream b => stream.write (signExtended b)) stream

/-- A call of one of the two methods. -/
def writeChunk (stream : OpenedStream) : Chunk → OpenedStream
  | .int b => stream.write b
  | .bytes chunk => stream.writeBytes chunk

/-- The stream after these calls, closed. -/
def writeAndClose (file : Option Bytes) (chunks : List Chunk) : OpenedStream :=
  (chunks.foldl writeChunk (create file)).close

/-- Either writes its arguments one after the other. -/
theorem writeChunk_eq_foldl (stream : OpenedStream) (chunk : Chunk) :
    stream.writeChunk chunk = chunk.arguments.foldl write stream := by
  cases chunk with
  | int b => rfl
  | bytes chunk => rw [Chunk.arguments, List.foldl_map]; rfl

/-- Only the arguments count, not the chunks. -/
theorem foldl_writeChunk (chunks : List Chunk) (stream : OpenedStream) :
    chunks.foldl writeChunk stream = (chunks.flatMap Chunk.arguments).foldl write stream := by
  induction chunks generalizing stream with
  | nil => rfl
  | cons chunk chunks ih =>
      rw [List.foldl_cons, ih, writeChunk_eq_foldl, List.flatMap_cons, List.foldl_append]

end OpenedStream

/-! ## Bytes and their arguments -/

section LowByte

/-- The low byte of a byte is the byte. -/
theorem lowByte_toNat (b : UInt8) : lowByte b.toNat = b := by
  have hlt := b.toNat_lt
  have hmod : ((b.toNat : Int) % 256).toNat = b.toNat := by omega
  rw [lowByte, hmod, UInt8.ofNat_toNat]

/-- So is the low byte of its sign extension. -/
@[simp] theorem lowByte_signExtended (b : UInt8) : lowByte (signExtended b) = b := by
  have hlt := b.toNat_lt
  have hmod : (signExtended b % 256).toNat = b.toNat := by
    unfold signExtended
    split <;> omega
  rw [lowByte, hmod, UInt8.ofNat_toNat]

/-- Only the last byte is extended to minus one. -/
theorem signExtended_eq_neg_one_iff {b : UInt8} : signExtended b = -1 ↔ b = 255 := by
  constructor
  · intro h
    rw [← lowByte_signExtended b, h]
    decide
  · rintro rfl
    decide

/-- A sign extension is a byte that was read exactly for equal bytes below 128. -/
theorem signExtended_eq_toNat_iff {b ch : UInt8} :
    signExtended b = ch.toNat ↔ b = ch ∧ b.toNat < 128 := by
  constructor
  · intro h
    have hsame : b = ch := by
      rw [← lowByte_signExtended b, h, lowByte_toNat]
    refine ⟨hsame, ?_⟩
    subst hsame
    by_contra hascii
    rw [signExtended, if_neg hascii] at h
    omega
  · rintro ⟨rfl, hascii⟩
    exact signExtended_ascii hascii

end LowByte

namespace OpenedStream

/-! ## Without the modes -/

section Erasing

/-- Without the log of modes, the streams are created alike. -/
theorem erased_create (file : Option Bytes) :
    (create file).toUpdatingFileOutputStream = UpdatingFileOutputStream.create file := by
  cases file <;> rfl

/-- They write alike. -/
theorem erased_write (stream : OpenedStream) (b : UInt8) :
    (stream.write (signExtended b)).toUpdatingFileOutputStream =
      stream.toUpdatingFileOutputStream.write b := by
  by_cases hwriting : stream.writing = true
  · simp [write, UpdatingFileOutputStream.write, rafWrite, hwriting]
  · by_cases hsame : signExtended b = stream.toUpdatingFileOutputStream.rafRead.1
    · simp [write, UpdatingFileOutputStream.write, rafRead, hwriting, hsame]
    · by_cases hend : stream.toUpdatingFileOutputStream.rafRead.1 = -1
      · rw [hend] at hsame
        simp [write, UpdatingFileOutputStream.write, rafRead, rafWrite, switchToOutput, hwriting,
          hsame, hend]
      · simp [write, UpdatingFileOutputStream.write, rafRead, rafWrite, switchToOutput, hwriting,
          hsame, hend]

/-- They write many bytes alike. -/
theorem erased_foldl_write (bytes : Bytes) (stream : OpenedStream) :
    ((bytes.map signExtended).foldl write stream).toUpdatingFileOutputStream =
      bytes.foldl UpdatingFileOutputStream.write stream.toUpdatingFileOutputStream := by
  induction bytes generalizing stream with
  | nil => rfl
  | cons b bytes ih => rw [List.map_cons, List.foldl_cons, ih, erased_write, List.foldl_cons]

/-- They are closed alike. -/
theorem erased_close (stream : OpenedStream) :
    stream.close.toUpdatingFileOutputStream = stream.toUpdatingFileOutputStream.close := by
  unfold close UpdatingFileOutputStream.close switchToOutput
  split
  · rfl
  · split <;> rfl

/-- Without the modes, this is the stream for bytes. -/
theorem update_erased (file : Option Bytes) (chunks : List ByteChunk) :
    (writeAndClose file (chunks.map Chunk.bytes)).toUpdatingFileOutputStream =
      update file (chunks.flatMap ByteChunk.bytes) := by
  have harguments : (chunks.map Chunk.bytes).flatMap Chunk.arguments =
      (chunks.flatMap ByteChunk.bytes).map signExtended := by
    rw [List.flatMap_map, List.map_flatMap]
    rfl
  rw [writeAndClose, erased_close, foldl_writeChunk, harguments, erased_foldl_write,
    erased_create, update]

end Erasing

/-! ## Reading along and writing -/

section Runs

/-- The stream that has read along {lit}`front` and has {lit}`back` before it. -/
def reading (front back : Bytes) (opened : List Mode) : OpenedStream :=
  ⟨⟨front ++ back, front.length, false⟩, opened⟩

/-- The stream that has written {lit}`content`. -/
def atEnd (content : Bytes) (opened : List Mode) : OpenedStream :=
  ⟨⟨content, content.length, true⟩, opened⟩

variable {front back : Bytes} {opened : List Mode} {b : Int}

/-- At the end of a file that is written, a byte is appended. -/
theorem write_atEnd (content : Bytes) (opened : List Mode) (b : Int) :
    (atEnd content opened).write b = atEnd (content ++ [lowByte b]) opened := by
  simp [write, rafWrite, UpdatingFileOutputStream.rafWrite, atEnd]

/-- Once it is writing, the stream appends. -/
theorem foldl_write_atEnd (args : List Int) (content : Bytes) (opened : List Mode) :
    args.foldl write (atEnd content opened) = atEnd (content ++ args.map lowByte) opened := by
  induction args generalizing content with
  | nil => simp
  | cons b args ih =>
      rw [List.foldl_cons, write_atEnd, ih, List.map_cons, List.append_assoc,
        List.singleton_append]

/-- Closing there changes nothing. -/
theorem close_atEnd (content : Bytes) (opened : List Mode) :
    (atEnd content opened).close = atEnd content opened := by
  simp [close, atEnd]

/-- The argument is the next byte. -/
theorem write_reading_same (ch : UInt8) :
    (reading front (ch :: back) opened).write ch.toNat = reading (front ++ [ch]) back opened := by
  simp [write, rafRead, UpdatingFileOutputStream.rafRead, reading]

/-- The argument is not the next byte. -/
theorem write_reading_differs {ch : UInt8} (h : b ≠ ch.toNat) :
    (reading front (ch :: back) opened).write b =
      atEnd (front ++ [lowByte b]) (opened ++ [Mode.rw]) := by
  have hch : (ch.toNat : Int) ≠ -1 := by omega
  simp [write, rafRead, UpdatingFileOutputStream.rafRead, switchToOutput,
    UpdatingFileOutputStream.switchToOutput, rafWrite, UpdatingFileOutputStream.rafWrite,
    reading, atEnd, h, hch]

/-- At the end of the file, -1 is taken for what is there. -/
theorem write_end_neg_one :
    (reading front [] opened).write (-1) = reading front [] opened := by
  simp [write, rafRead, UpdatingFileOutputStream.rafRead, reading]

/-- The end of the file is reached. -/
theorem write_end_differs (h : b ≠ -1) :
    (reading front [] opened).write b =
      atEnd (front ++ [lowByte b]) (opened ++ [Mode.rw]) := by
  simp [write, rafRead, UpdatingFileOutputStream.rafRead, switchToOutput,
    UpdatingFileOutputStream.switchToOutput, rafWrite, UpdatingFileOutputStream.rafWrite,
    reading, atEnd, h]

/-- Closing a file that was read to its end changes nothing. -/
theorem close_reading_nil : (reading front [] opened).close = reading front [] opened := by
  simp [close, reading]

/-- Closing a file before its end cuts it off. -/
theorem close_reading_cons (ch : UInt8) :
    (reading front (ch :: back) opened).close = atEnd front (opened ++ [Mode.rw]) := by
  simp [close, reading, atEnd, switchToOutput, UpdatingFileOutputStream.switchToOutput]

/-- What is left unread is cut off. -/
theorem content_close_reading (front back : Bytes) (opened : List Mode) :
    (reading front back opened).close.content = front := by
  cases back with
  | nil => rw [close_reading_nil]; exact List.append_nil front
  | cons ch back => rw [close_reading_cons]; rfl

/-- An existing file is opened for reading. -/
theorem create_some (content : Bytes) :
    create (some content) = reading [] content [Mode.r] :=
  rfl

/-- A new file is opened for writing. -/
theorem create_none : create none = atEnd [] [Mode.rw] :=
  rfl

end Runs

/-! ## The content -/

section Content

/-- From the end of the old content on, the arguments -1 that come first are lost. -/
theorem content_close_end (args : List Int) (front : Bytes) (opened : List Mode) :
    (args.foldl write (reading front [] opened)).close.content =
      front ++ (args.dropWhile (· = -1)).map lowByte := by
  induction args with
  | nil => simpa using content_close_reading front [] opened
  | cons b args ih =>
      rw [List.foldl_cons]
      by_cases hend : b = -1
      · subst hend
        rw [write_end_neg_one, ih, List.dropWhile_cons_of_pos (by simp)]
      · rw [write_end_differs hend, foldl_write_atEnd, close_atEnd,
          List.dropWhile_cons_of_neg (by simpa using hend), List.map_cons, List.append_assoc,
          List.singleton_append]
        rfl

/-- The arguments go on, past the bytes that are there, with -1. -/
def PassesEnd (args : List Int) (content : Bytes) : Prop :=
  ∃ rest, args = content.map (fun b => (b.toNat : Int)) ++ -1 :: rest

/-- Writing nothing does not pass the end. -/
theorem not_passesEnd_nil (content : Bytes) : ¬PassesEnd [] content := by
  rintro ⟨rest, h⟩
  simp at h

/-- At the end of the file, only minus one passes it. -/
theorem passesEnd_end_iff {b : Int} {args : List Int} : PassesEnd (b :: args) [] ↔ b = -1 := by
  simp [PassesEnd]

/-- Before it, the byte has to be the one that is read. -/
theorem passesEnd_cons_iff {b : Int} {args : List Int} {ch : UInt8} {content : Bytes} :
    PassesEnd (b :: args) (ch :: content) ↔ b = ch.toNat ∧ PassesEnd args content := by
  simp [PassesEnd]

/-- The arguments replace what is there, unless they pass the end with -1. -/
theorem content_close_reading_iff (args : List Int) (front back : Bytes) (opened : List Mode) :
    (args.foldl write (reading front back opened)).close.content = front ++ args.map lowByte ↔
      ¬PassesEnd args back := by
  induction args generalizing front back with
  | nil =>
      have hcontent := content_close_reading front back opened
      simpa [not_passesEnd_nil] using hcontent
  | cons b args ih =>
      cases back with
      | nil =>
          rw [content_close_end, passesEnd_end_iff, List.append_cancel_left_eq]
          constructor
          · intro hcontent hend
            have hlength := congrArg List.length hcontent
            have hshorter := (List.dropWhile_suffix (· = -1) (l := args)).length_le
            subst hend
            rw [List.dropWhile_cons_of_pos (by simp), List.length_map, List.length_map,
              List.length_cons] at hlength
            omega
          · intro hend
            rw [List.dropWhile_cons_of_neg (by simpa using hend)]
      | cons ch back =>
          rw [List.foldl_cons, passesEnd_cons_iff]
          by_cases hsame : b = ch.toNat
          · subst hsame
            have hfront : front ++ ((ch.toNat : Int) :: args).map lowByte =
                (front ++ [ch]) ++ args.map lowByte := by
              rw [List.map_cons, lowByte_toNat, List.append_assoc, List.singleton_append]
            rw [write_reading_same, hfront, ih]
            simp
          · rw [write_reading_differs hsame, foldl_write_atEnd, close_atEnd]
            simp [atEnd, hsame]

/-- The file holds the written bytes at the end, unless the old content was followed by -1. -/
theorem content_close_iff (file : Option Bytes) (chunks : List Chunk) :
    (writeAndClose file chunks).content = (chunks.flatMap Chunk.arguments).map lowByte ↔
      ¬∃ content, file = some content ∧ PassesEnd (chunks.flatMap Chunk.arguments) content := by
  rw [writeAndClose, foldl_writeChunk]
  cases file with
  | none =>
      rw [create_none, foldl_write_atEnd, close_atEnd]
      simp [atEnd]
  | some content =>
      have hiff := content_close_reading_iff (chunks.flatMap Chunk.arguments) [] content [Mode.r]
      rw [List.nil_append] at hiff
      rw [create_some, hiff]
      simp

/-- The byte 255 is appended to an ASCII file, and is lost. -/
theorem content_close_lost :
    ¬∀ (file : Option Bytes) (chunks : List Chunk),
      (writeAndClose file chunks).content = (chunks.flatMap Chunk.arguments).map lowByte := by
  intro h
  have hlost := h (some [72]) [Chunk.bytes (ByteChunk.ofBytes [72, 255])]
  revert hlost
  decide

end Content

/-! ## Telling a change -/

section Changes

/-- The stream writes exactly where it has opened the file for it. -/
theorem writing_iff_opened_write {stream : OpenedStream} {b : Int}
    (h : stream.writing = true ↔ Mode.rw ∈ stream.opened) :
    (stream.write b).writing = true ↔ Mode.rw ∈ (stream.write b).opened := by
  unfold write
  split
  · exact h
  · simp only
    split
    · simp [rafWrite, UpdatingFileOutputStream.rafWrite, switchToOutput,
        UpdatingFileOutputStream.switchToOutput]
    · have hread : stream.rafRead.2.writing = stream.writing := by
        unfold rafRead UpdatingFileOutputStream.rafRead
        split <;> rfl
      rw [hread]
      exact h

/-- Writing keeps the log of modes right. -/
theorem writing_iff_opened_foldl_write (args : List Int) {stream : OpenedStream}
    (h : stream.writing = true ↔ Mode.rw ∈ stream.opened) :
    (args.foldl write stream).writing = true ↔ Mode.rw ∈ (args.foldl write stream).opened := by
  induction args generalizing stream with
  | nil => exact h
  | cons b args ih => exact ih (writing_iff_opened_write h)

/-- So does closing. -/
theorem writing_iff_opened_close {stream : OpenedStream}
    (h : stream.writing = true ↔ Mode.rw ∈ stream.opened) :
    stream.close.writing = true ↔ Mode.rw ∈ stream.close.opened := by
  unfold close
  split
  · exact h
  · split
    · simp [switchToOutput, UpdatingFileOutputStream.switchToOutput]
    · exact h

/-- The stream says that it is writing exactly if the file was opened for writing. -/
theorem isWriting_iff_opened (file : Option Bytes) (chunks : List Chunk) :
    (writeAndClose file chunks).isWriting = true ↔
      Mode.rw ∈ (writeAndClose file chunks).opened := by
  rw [writeAndClose, foldl_writeChunk]
  apply writing_iff_opened_close
  apply writing_iff_opened_foldl_write
  cases file <;> simp [create]

/-- The stream tells whether the file is new or its content different, and a file that is not
is never opened for writing. -/
def DetectsChange (file : Option Bytes) (chunks : List ByteChunk) : Prop :=
  ((writeAndClose file (chunks.map Chunk.bytes)).isWriting = true ↔
    file ≠ some (chunks.flatMap ByteChunk.bytes)) ∧
  ((writeAndClose file (chunks.map Chunk.bytes)).isWriting = false →
    Mode.rw ∉ (writeAndClose file (chunks.map Chunk.bytes)).opened)

/-- The arguments are those that are there, followed by -1 only. -/
def ReadsAlong (args : List Int) (content : Bytes) : Prop :=
  ∃ n, args = content.map (fun b => (b.toNat : Int)) ++ List.replicate n (-1)

/-- Nothing is read along an empty file only. -/
theorem readsAlong_nil_iff {content : Bytes} : ReadsAlong [] content ↔ content = [] := by
  constructor
  · rintro ⟨n, h⟩
    simpa using (List.append_eq_nil_iff.mp h.symm).1
  · rintro rfl
    exact ⟨0, rfl⟩

/-- At the end of the file, only minus one is read. -/
theorem readsAlong_end_iff {b : Int} {args : List Int} :
    ReadsAlong (b :: args) [] ↔ b = -1 ∧ ReadsAlong args [] := by
  constructor
  · rintro ⟨n, h⟩
    cases n with
    | zero => cases h
    | succ n =>
        rw [List.map_nil, List.nil_append, List.replicate_succ, List.cons.injEq] at h
        exact ⟨h.1, n, h.2⟩
  · rintro ⟨rfl, n, h⟩
    exact ⟨n + 1, by rw [h]; rfl⟩

/-- Before it, the arguments are the bytes of the file. -/
theorem readsAlong_cons_iff {b : Int} {args : List Int} {ch : UInt8} {content : Bytes} :
    ReadsAlong (b :: args) (ch :: content) ↔ b = ch.toNat ∧ ReadsAlong args content := by
  simp [ReadsAlong]

/-- Nothing is written exactly where the arguments are those that are there, followed by -1
only. -/
theorem quiet_close_iff (args : List Int) (front back : Bytes) (opened : List Mode) :
    (args.foldl write (reading front back opened)).close.writing = false ↔
      ReadsAlong args back := by
  induction args generalizing front back with
  | nil =>
      rw [readsAlong_nil_iff, List.foldl_nil]
      cases back with
      | nil => rw [close_reading_nil]; exact iff_of_true rfl rfl
      | cons ch back => simp [close_reading_cons, atEnd]
  | cons b args ih =>
      rw [List.foldl_cons]
      cases back with
      | nil =>
          rw [readsAlong_end_iff]
          by_cases hend : b = -1
          · subst hend
            rw [write_end_neg_one, ih]
            simp
          · rw [write_end_differs hend, foldl_write_atEnd, close_atEnd]
            simp [atEnd, hend]
      | cons ch back =>
          rw [readsAlong_cons_iff]
          by_cases hsame : b = ch.toNat
          · subst hsame
            rw [write_reading_same, ih]
            simp
          · rw [write_reading_differs hsame, foldl_write_atEnd, close_atEnd]
            simp [atEnd, hsame]

/-- Sign-extended bytes read along an ASCII content only, and past it they are 255. -/
theorem readsAlong_bytes_iff {bytes content : Bytes} :
    ReadsAlong (bytes.map signExtended) content ↔
      IsAscii content ∧ ∃ n, bytes = content ++ List.replicate n 255 := by
  induction bytes generalizing content with
  | nil =>
      rw [List.map_nil, readsAlong_nil_iff]
      constructor
      · rintro rfl
        exact ⟨isAscii_nil, 0, rfl⟩
      · rintro ⟨-, n, h⟩
        exact (List.append_eq_nil_iff.mp h.symm).1
  | cons b bytes ih =>
      rw [List.map_cons]
      cases content with
      | nil =>
          rw [readsAlong_end_iff, ih, signExtended_eq_neg_one_iff]
          constructor
          · rintro ⟨rfl, -, n, h⟩
            exact ⟨isAscii_nil, n + 1, by rw [h]; rfl⟩
          · rintro ⟨-, n, h⟩
            cases n with
            | zero => cases h
            | succ n =>
                rw [List.nil_append, List.replicate_succ, List.cons.injEq] at h
                exact ⟨h.1, isAscii_nil, n, h.2⟩
      | cons ch content =>
          rw [readsAlong_cons_iff, ih, signExtended_eq_toNat_iff, isAscii_cons]
          constructor
          · rintro ⟨⟨rfl, hascii⟩, hcontent, n, rfl⟩
            exact ⟨⟨hascii, hcontent⟩, n, rfl⟩
          · rintro ⟨⟨hascii, hcontent⟩, n, h⟩
            rw [List.cons_append, List.cons.injEq] at h
            rw [h.1]
            exact ⟨⟨rfl, hascii⟩, hcontent, n, h.2⟩

/-- Nothing is written exactly where the old content is ASCII and is written again, followed by
bytes 255 only. -/
theorem update_quiet_iff {content bytes : Bytes} :
    (update (some content) bytes).writing = false ↔
      IsAscii content ∧ ∃ n, bytes = content ++ List.replicate n 255 := by
  have hstream := update_erased (some content) [ByteChunk.ofBytes bytes]
  have harguments : [Chunk.bytes (ByteChunk.ofBytes bytes)].flatMap Chunk.arguments =
      bytes.map signExtended := by
    simp [Chunk.arguments]
  simp only [List.map_singleton, List.flatMap_singleton, ByteChunk.bytes_ofBytes] at hstream
  rw [← hstream, ← readsAlong_bytes_iff, writeAndClose, foldl_writeChunk, harguments, create_some,
    quiet_close_iff]

/-- The stream tells a change exactly, unless the old content is written again and is not ASCII,
or is ASCII and is extended by bytes 255 only. -/
theorem detectsChange_iff (file : Option Bytes) (chunks : List ByteChunk) :
    DetectsChange file chunks ↔
      ¬∃ content, file = some content ∧
        ((chunks.flatMap ByteChunk.bytes = content ∧ ¬IsAscii content) ∨
          (IsAscii content ∧
            ∃ n, chunks.flatMap ByteChunk.bytes = content ++ List.replicate (n + 1) 255)) := by
  have hopened := isWriting_iff_opened file (chunks.map Chunk.bytes)
  have hnever : (writeAndClose file (chunks.map Chunk.bytes)).isWriting = false →
      Mode.rw ∉ (writeAndClose file (chunks.map Chunk.bytes)).opened := by
    intro hquiet hmem
    rw [hopened.mpr hmem] at hquiet
    cases hquiet
  have herased : (writeAndClose file (chunks.map Chunk.bytes)).isWriting =
      (update file (chunks.flatMap ByteChunk.bytes)).writing := by
    rw [← update_erased]
    rfl
  rw [DetectsChange, and_iff_left hnever, herased]
  generalize chunks.flatMap ByteChunk.bytes = bytes
  cases file with
  | none => simp [update_none]
  | some content =>
      have hquiet := @update_quiet_iff content bytes
      have hempty : ∀ n, (content ++ List.replicate (n + 1) 255 : Bytes) ≠ content := by
        intro n h
        have hlength := congrArg List.length h
        simp at hlength
      constructor
      · rintro hiff ⟨_, heq, ⟨hsame, hascii⟩ | ⟨hascii, n, hext⟩⟩
        · cases heq
          have hnot : (update (some content) bytes).writing = false := by
            rw [← Bool.not_eq_true, hiff, hsame]
            exact not_not_intro rfl
          exact hascii (hquiet.mp hnot).1
        · cases heq
          have hwriting := hiff.mpr (fun h => hempty n (by rw [← hext, Option.some.inj h]))
          rw [hquiet.mpr ⟨hascii, n + 1, hext⟩] at hwriting
          cases hwriting
      · intro hnone
        rw [← Bool.not_eq_false, not_iff_not, hquiet, Option.some.injEq]
        constructor
        · rintro ⟨hascii, n, hbytes⟩
          cases n with
          | zero => rw [hbytes, List.replicate_zero, List.append_nil]
          | succ n => exact absurd ⟨content, rfl, Or.inr ⟨hascii, n, hbytes⟩⟩ hnone
        · intro hsame
          refine ⟨?_, 0, by rw [hsame, List.replicate_zero, List.append_nil]⟩
          by_contra hascii
          exact hnone ⟨content, rfl, Or.inl ⟨hsame.symm, hascii⟩⟩

/-- A byte from 128 on is written again, and is told to be a change. -/
theorem change_told_wrongly :
    ¬∀ (file : Option Bytes) (chunks : List ByteChunk), DetectsChange file chunks := by
  intro h
  have htold := (h (some [233]) [ByteChunk.ofBytes [233]]).1
  revert htold
  decide

end Changes

end OpenedStream

end MeasuringCore
end Roofline
