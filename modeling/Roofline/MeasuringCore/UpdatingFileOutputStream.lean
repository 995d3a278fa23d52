import Mathlib.Data.List.Basic
import Mathlib.Tactic.Common

/-!
# A file output stream that only writes changes

The stream reads along in the old file as long as the bytes that are written are those that
were there, and truncates and writes the file from the first difference on.  A byte is compared
as Java passes it, sign-extended, with what {lit}`read` returns, which is never negative for a
byte.

Main results:

- Theorem {lit}`update_ascii`: ASCII bytes replace the content, and the stream tells whether it
  was different.
- Theorem {lit}`update_quiet`: where the stream writes nothing, the content was there already,
  and it was ASCII.
-/

namespace Roofline
namespace MeasuringCore

/-- The content of a file. -/
abbrev Bytes := List UInt8

/-- A byte that is widened to an {lit}`int`. -/
def signExtended (b : UInt8) : Int :=
  if b.toNat < 128 then b.toNat else b.toNat - 256

/-- The stream, with the content and the file pointer of its random access file. -/
structure UpdatingFileOutputStream where
  content : Bytes
  position : Nat
  writing : Bool

namespace UpdatingFileOutputStream

/-- The constructor; a missing file is created. -/
def create (file : Option Bytes) : UpdatingFileOutputStream :=
  match file with
  | some content => ⟨content, 0, false⟩
  | none => ⟨[], 0, true⟩

/-- {lit}`raf.write`. -/
def rafWrite (stream : UpdatingFileOutputStream) (b : UInt8) : UpdatingFileOutputStream :=
  { stream with
    content := stream.content.take stream.position ++ [b] ++
      stream.content.drop (stream.position + 1)
    position := stream.position + 1 }

/-- {lit}`raf.read`: the next byte, or -1 at the end of the file. -/
def rafRead (stream : UpdatingFileOutputStream) : Int × UpdatingFileOutputStream :=
  match stream.content[stream.position]? with
  | some b => (b.toNat, { stream with position := stream.position + 1 })
  | none => (-1, stream)

/-- {lit}`switchToOutput` -/
def switchToOutput (stream : UpdatingFileOutputStream) (decreasePosition : Bool) :
    UpdatingFileOutputStream :=
  let position :=
    if decreasePosition && stream.position > 0 then stream.position - 1 else stream.position
  { content := stream.content.take position
    position := position
    writing := true }

/-- {lit}`write(int)` for a byte, which is sign extended. -/
def write (stream : UpdatingFileOutputStream) (b : UInt8) : UpdatingFileOutputStream :=
  if stream.writing then
    stream.rafWrite b
  else
    let (ch, stream) := stream.rafRead
    if signExtended b ≠ ch then
      (stream.switchToOutput (ch ≠ -1)).rafWrite b
    else
      stream

/-- {lit}`close` -/
def close (stream : UpdatingFileOutputStream) : UpdatingFileOutputStream :=
  if stream.writing then
    { stream with content := stream.content.take stream.position }
  else if stream.content.length ≠ stream.position then
    stream.switchToOutput false
  else
    stream

end UpdatingFileOutputStream

open UpdatingFileOutputStream

/-- The stream after these bytes were written to it and it was closed. -/
def update (file : Option Bytes) (bytes : Bytes) : UpdatingFileOutputStream :=
  (bytes.foldl write (create file)).close

/-! ## ASCII -/

/-- All bytes are below 128. -/
def IsAscii (bytes : Bytes) : Prop :=
  ∀ b ∈ bytes, b.toNat < 128

/-- No bytes at all are ASCII. -/
@[simp] theorem isAscii_nil : IsAscii [] :=
  fun _ hmem => absurd hmem List.not_mem_nil

/-- A first byte and others are ASCII if both are. -/
@[simp] theorem isAscii_cons {b : UInt8} {bytes : Bytes} :
    IsAscii (b :: bytes) ↔ b.toNat < 128 ∧ IsAscii bytes :=
  List.forall_mem_cons

/-- Bytes in two parts are ASCII if both parts are. -/
@[simp] theorem isAscii_append {front back : Bytes} :
    IsAscii (front ++ back) ↔ IsAscii front ∧ IsAscii back :=
  List.forall_mem_append

/-- Bytes below 128 are not changed by the sign extension. -/
theorem signExtended_ascii {b : UInt8} (h : b.toNat < 128) : signExtended b = b.toNat :=
  if_pos h

/-- Bytes of one value are the same. -/
theorem toNat_inj {b b' : UInt8} (h : b.toNat = b'.toNat) : b = b' :=
  UInt8.toNat_inj.mp h

/-! ## Writing -/

section Writing

/-- Once it is writing, the stream appends. -/
theorem foldl_write_writing (bytes content : Bytes) :
    bytes.foldl write ⟨content, content.length, true⟩ =
      ⟨content ++ bytes, (content ++ bytes).length, true⟩ := by
  induction bytes generalizing content with
  | nil => simp
  | cons b bytes ih =>
      have hwrite : write ⟨content, content.length, true⟩ b =
          ⟨content ++ [b], (content ++ [b]).length, true⟩ := by
        simp [write, rafWrite]
      rw [List.foldl_cons, hwrite, ih, List.append_assoc, List.singleton_append]

/-- Closing a file that was written to its end changes nothing. -/
theorem close_writing (content : Bytes) :
    close ⟨content, content.length, true⟩ = ⟨content, content.length, true⟩ := by
  simp [close]

/-- A new file gets the bytes. -/
theorem update_none (bytes : Bytes) : update none bytes = ⟨bytes, bytes.length, true⟩ := by
  have hwritten := foldl_write_writing bytes []
  rw [update, create]
  rw [List.length_nil, List.nil_append] at hwritten
  rw [hwritten, close_writing]

end Writing

/-! ## Reading along -/

section Reading

variable {front back : Bytes}

/-- The next byte is there. -/
theorem write_match {b : UInt8} (h : b.toNat < 128) :
    write ⟨front ++ b :: back, front.length, false⟩ b =
      ⟨front ++ b :: back, (front ++ [b]).length, false⟩ := by
  simp [write, rafRead, signExtended_ascii h]

/-- Another byte is there. -/
theorem write_differs {b ch : UInt8} (h : signExtended b ≠ ch.toNat) :
    write ⟨front ++ ch :: back, front.length, false⟩ b =
      ⟨front ++ [b], (front ++ [b]).length, true⟩ := by
  have hch : (ch.toNat : Int) ≠ -1 := by omega
  simp [write, rafRead, switchToOutput, rafWrite, h, hch]

/-- The end of the file is reached. -/
theorem write_end {b : UInt8} (h : signExtended b ≠ -1) :
    write ⟨front, front.length, false⟩ b = ⟨front ++ [b], (front ++ [b]).length, true⟩ := by
  simp [write, rafRead, switchToOutput, rafWrite, h]

/-- ASCII bytes are read along up to the first difference. -/
theorem foldl_write_ascii {bytes : Bytes} (hascii : IsAscii bytes) (front back : Bytes) :
    bytes.foldl write ⟨front ++ back, front.length, false⟩ =
      if bytes <+: back then ⟨front ++ back, (front ++ bytes).length, false⟩
      else ⟨front ++ bytes, (front ++ bytes).length, true⟩ := by
  induction bytes generalizing front back with
  | nil => simp
  | cons b bytes ih =>
      rw [isAscii_cons] at hascii
      rw [List.foldl_cons]
      have hvalue := signExtended_ascii hascii.1
      cases back with
      | nil =>
          have hend : signExtended b ≠ -1 := by omega
          rw [List.append_nil, write_end hend, foldl_write_writing, if_neg (by simp),
            List.append_assoc, List.singleton_append]
      | cons ch back =>
          by_cases hsame : b = ch
          · subst hsame
            have hfront : front ++ b :: back = (front ++ [b]) ++ back := by simp
            rw [write_match hascii.1, hfront, ih hascii.2, List.append_assoc,
              List.singleton_append]
            simp only [List.prefix_cons_inj, List.append_assoc, List.singleton_append]
          · have hdiffers : signExtended b ≠ ch.toNat := by
              rw [hvalue]
              exact fun heq => hsame (toNat_inj (Int.ofNat.inj heq))
            have hprefix : ¬b :: bytes <+: ch :: back := by
              rw [List.cons_prefix_cons]
              exact fun h => hsame h.1
            rw [write_differs hdiffers, foldl_write_writing, if_neg hprefix, List.append_assoc,
              List.singleton_append]

/-- ASCII bytes replace the content, and the stream tells whether it was different. -/
theorem update_ascii {bytes : Bytes} (hascii : IsAscii bytes) (file : Option Bytes) :
    (update file bytes).content = bytes ∧
      ((update file bytes).writing = true ↔ file ≠ some bytes) := by
  cases file with
  | none => simp [update_none]
  | some content =>
      have hwritten := foldl_write_ascii hascii [] content
      simp only [List.nil_append, List.length_nil] at hwritten
      rw [update, create, hwritten]
      by_cases hprefix : bytes <+: content
      · rw [if_pos hprefix]
        rcases hprefix with ⟨rest, rfl⟩
        cases rest with
        | nil => simp [close]
        | cons b rest => simp [close, switchToOutput]
      · have hne : content ≠ bytes := by
          rintro rfl
          exact hprefix (List.prefix_refl _)
        rw [if_neg hprefix, close_writing]
        simp [hne]

end Reading

/-! ## Writing nothing -/

section Quiet

/-- A stream that writes goes on writing. -/
theorem writing_foldl_write (bytes : Bytes) {stream : UpdatingFileOutputStream}
    (h : stream.writing = true) : (bytes.foldl write stream).writing = true := by
  induction bytes generalizing stream with
  | nil => exact h
  | cons b bytes ih =>
      apply ih
      simp [write, h, rafWrite]

/-- Where nothing was written, the bytes were read along; past the end of the file only the byte
255 is taken for what is there. -/
theorem foldl_write_quiet {bytes front back : Bytes}
    (h : (bytes.foldl write ⟨front ++ back, front.length, false⟩).writing = false) :
    ∃ matched n, bytes = matched ++ List.replicate n 255 ∧ IsAscii matched ∧
      matched <+: back ∧ (n ≠ 0 → matched = back) ∧
      bytes.foldl write ⟨front ++ back, front.length, false⟩ =
        ⟨front ++ back, (front ++ matched).length, false⟩ := by
  induction bytes generalizing front back with
  | nil => exact ⟨[], 0, rfl, isAscii_nil, List.nil_prefix, absurd rfl, by simp⟩
  | cons b bytes ih =>
      rw [List.foldl_cons] at h ⊢
      cases back with
      | nil =>
          rw [List.append_nil] at h ⊢
          by_cases hend : signExtended b = -1
          · have hb : b = 255 := by
              apply toNat_inj
              unfold signExtended at hend
              split at hend
              · omega
              · have hlt := b.toNat_lt
                change b.toNat = 255
                omega
            have hsame : write ⟨front, front.length, false⟩ b =
                ⟨front ++ [], front.length, false⟩ := by
              simp [write, rafRead, hend]
            rw [hsame] at h ⊢
            rcases ih h with ⟨matched, n, hbytes, hascii, hprefix, -, hrun⟩
            obtain rfl : matched = [] := List.prefix_nil.mp hprefix
            refine ⟨[], n + 1, ?_, isAscii_nil, List.prefix_refl _, fun _ => rfl, ?_⟩
            · rw [hbytes, hb, List.replicate_succ]
              rfl
            · rw [hrun, List.append_nil]
          · rw [write_end hend, writing_foldl_write bytes rfl] at h
            cases h
      | cons ch back =>
          by_cases hsame : signExtended b = ch.toNat
          · have hascii : b.toNat < 128 := by
              unfold signExtended at hsame
              split at hsame
              · assumption
              · have hlt := b.toNat_lt
                omega
            rw [signExtended_ascii hascii] at hsame
            obtain rfl : b = ch := toNat_inj (Int.ofNat.inj hsame)
            have hfront : front ++ b :: back = (front ++ [b]) ++ back := by simp
            rw [write_match hascii, hfront] at h ⊢
            rcases ih h with ⟨matched, n, hbytes, hmatched, hprefix, hall, hrun⟩
            refine ⟨b :: matched, n, ?_, isAscii_cons.mpr ⟨hascii, hmatched⟩, ?_, ?_, ?_⟩
            · rw [hbytes, List.cons_append]
            · exact List.cons_prefix_cons.mpr ⟨rfl, hprefix⟩
            · intro hn
              rw [hall hn]
            · rw [hrun]
              simp only [List.append_assoc, List.singleton_append]
          · rw [write_differs hsame, writing_foldl_write bytes rfl] at h
            cases h

/-- Where the stream writes nothing, the content was there already, and it was ASCII. -/
theorem update_quiet {file : Option Bytes} {bytes : Bytes} (hlast : bytes.getLast? ≠ some 255)
    (h : (update file bytes).writing = false) : IsAscii bytes ∧ file = some bytes := by
  cases file with
  | none =>
      rw [update_none] at h
      cases h
  | some content =>
      have hreading : (bytes.foldl write (create (some content))).writing = false := by
        rw [update] at h
        by_contra hwriting
        rw [Bool.not_eq_false] at hwriting
        simp [close, hwriting] at h
      rcases @foldl_write_quiet bytes [] content hreading with
        ⟨matched, n, hbytes, hascii, hprefix, -, hrun⟩
      have hn : n = 0 := by
        by_contra hne
        obtain ⟨k, rfl⟩ := Nat.exists_eq_succ_of_ne_zero hne
        rw [hbytes, List.replicate_succ', ← List.append_assoc, List.getLast?_concat] at hlast
        exact hlast rfl
      subst hn
      rw [List.replicate_zero, List.append_nil] at hbytes
      subst hbytes
      refine ⟨hascii, ?_⟩
      have hstream : (create (some content)) = ⟨[] ++ content, ([] : Bytes).length, false⟩ := rfl
      rw [update, hstream, hrun] at h
      by_contra hne
      rcases hprefix with ⟨rest, rfl⟩
      have hrest : rest ≠ [] := by
        rintro rfl
        exact hne (by rw [List.append_nil])
      simp [close, switchToOutput, hrest] at h

end Quiet

end MeasuringCore
end Roofline
