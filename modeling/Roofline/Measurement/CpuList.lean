import Roofline.Java.Strings
import Roofline.Java.Throwable
import Roofline.Library.WhileLoops

/-!
# Lists of CPU numbers

The kernel lists the online CPUs as single numbers and ranges, separated by commas.  The numbers
of a range are parsed; a single number is looked up among the system properties.

Main results:

- Theorem {lit}`ends_rangeRound`: the numbers of a range are added.
- Theorem {lit}`not_ends_rangeRound`: a range up to the largest number never ends.
- Theorem {lit}`parseCpuList_iff`: a list is parsed in all processes exactly if it consists of
  ranges that end before the largest number.
-/

namespace Roofline
namespace CpuList

open Integers WhileLoops

/-! ## The method -/

/-- What the running process is parsed in: its system properties, and the numbers that texts with
digits outside of ASCII stand for. -/
structure Process where
  getProperty : List Char → Option (List Char)
  numeral : List Char → Option Int
  digit : Char → Option Nat

variable (process : Process)

/-- {lit}`Character.digit`. -/
def digitOf (radix : Nat) (c : Char) : Option Nat :=
  let value :=
    if c.isDigit then some (c.toNat - '0'.toNat)
    else if 'a' ≤ c ∧ c ≤ 'z' then some (c.toNat - 'a'.toNat + 10)
    else if 'A' ≤ c ∧ c ≤ 'Z' then some (c.toNat - 'A'.toNat + 10)
    else process.digit c
  value.filter (· < radix)

/-- The number that the digits stand for. -/
def parseRadix (radix : Nat) (digits : List Char) : Option Nat :=
  if digits = [] then none
  else digits.foldlM (fun n c => (digitOf process radix c).map (n * radix + ·)) 0

/-- The digits of the number behind its sign, with the radix that its first characters give. -/
def decodeUnsigned : List Char → Option Nat
  | '0' :: 'x' :: digits => parseRadix process 16 digits
  | '0' :: 'X' :: digits => parseRadix process 16 digits
  | '#' :: digits => parseRadix process 16 digits
  | '0' :: c :: digits => parseRadix process 8 (c :: digits)
  | digits => parseRadix process 10 digits

/-- {lit}`Integer.decode`. -/
def decode : List Char → Option (Signed 32)
  | '-' :: s => (decodeUnsigned process s).bind fun n => Signed.ofInt? 32 (-n)
  | '+' :: s => (decodeUnsigned process s).bind fun n => Signed.ofInt? 32 n
  | s => (decodeUnsigned process s).bind fun n => Signed.ofInt? 32 n

/-- {lit}`Integer.getInteger`, which does not parse its argument but gives the value of the
system property with this name. -/
def getInteger (name : List Char) : Option (Signed 32) :=
  if name = [] then none else (process.getProperty name).bind (decode process)

/-- {lit}`Integer.parseInt` -/
def parseInt (s : List Char) : Except Throwable (Signed 32) :=
  match Strings.parseSigned 32 process.numeral s with
  | none => .error .numberFormatException
  | some i => .ok i

/-- The element of an array. -/
def partAt (parts : List (List Char)) (i : Nat) : Except Throwable (List Char) :=
  match parts[i]? with
  | none => .error .indexOutOfBoundsException
  | some part => .ok part

/-- The ends of a range. -/
def startStop (part : List Char) : Except Throwable (Signed 32 × Signed 32) := do
  let parts := Strings.split '-' part
  let start ← parseInt process (← partAt parts 0)
  let stop ← parseInt process (← partAt parts 1)
  return (start, stop)

/-- A round of the loop over a range, whose counter may wrap around. -/
def rangeRound (stop : Signed 32) (s : Signed 32 × List (Option (Signed 32))) :
    (Signed 32 × List (Option (Signed 32))) ⊕ List (Option (Signed 32)) :=
  if s.1.val ≤ stop.val then .inl (Signed.wrap 32 (s.1.val + 1), s.2 ++ [some s.1])
  else .inr s.2

/-- The body of the loop over the parts.  The numbers are added to the result, in which
{lit}`none` stands for null; without enough {lit}`fuel` the loop over a range does not end. -/
def parsePart (fuel : Nat) (part : List Char) (result : List (Option (Signed 32))) :
    Option (Except Throwable (List (Option (Signed 32)))) :=
  if '-' ∈ part then
    match startStop process part with
    | .error exception => some (.error exception)
    | .ok (start, stop) => (loop (rangeRound stop) fuel (start, result)).map .ok
  else some (.ok (result ++ [getInteger process part]))

/-- The loop over the parts; none if a range does not end. -/
def parseParts (fuel : Nat) : List (List Char) → List (Option (Signed 32)) →
    Option (Except Throwable (List (Option (Signed 32))))
  | [], result => some (.ok result)
  | part :: parts, result =>
      match parsePart process fuel part result with
      | some (.ok added) => parseParts fuel parts added
      | failed => failed

/-- {lit}`parseCpuList` -/
def parseCpuList (fuel : Nat) (list : List Char) :
    Option (Except Throwable (List (Option (Signed 32)))) :=
  parseParts process fuel (Strings.split ',' list) []

/-! ## Lists of the kernel -/

/-- A single number or a range. -/
inductive Entry where
  | single (n : Nat)
  | range (first last : Nat) (h : first ≤ last)

/-- An entry as it is printed. -/
def Entry.text : Entry → List Char
  | .single n => Nat.toDigits 10 n
  | .range first last _ => Nat.toDigits 10 first ++ '-' :: Nat.toDigits 10 last

/-- The numbers that an entry describes. -/
def Entry.numbers : Entry → List Nat
  | .single n => [n]
  | .range first last _ => List.range' first (last + 1 - first)

/-- A list of CPUs as the kernel writes it. -/
structure KernelList where
  entries : List Entry
  nonempty : entries ≠ []

/-- The list as it is printed. -/
def KernelList.text (list : KernelList) : List Char :=
  [','].intercalate (list.entries.map Entry.text)

/-- The CPUs of the list. -/
def KernelList.numbers (list : KernelList) : List Nat :=
  list.entries.flatMap Entry.numbers

/-- The numbers in a result. -/
def values (result : List (Option (Signed 32))) : List (Option Int) :=
  result.map fun cpu => cpu.map fun i : Signed 32 => i.val

/-- The list is parsed: the numbers that it describes are returned, none of them null. -/
def Parses (list : KernelList) : Prop :=
  ∃ fuel result, parseCpuList process fuel list.text = some (.ok result) ∧
    values result = list.numbers.map fun n : Nat => some (n : Int)

/-! ## The loop over a range -/

/-- Nothing is removed from the result. -/
theorem mem_of_ends {stop : Signed 32} {s : Signed 32 × List (Option (Signed 32))}
    {result : List (Option (Signed 32))} (h : Ends (rangeRound stop) s result)
    {cpu : Option (Signed 32)} (hcpu : cpu ∈ s.2) : cpu ∈ result := by
  induction h with
  | leave hround =>
      simp only [rangeRound] at hround
      split at hround
      · cases hround
      · cases hround
        exact hcpu
  | next hround _ ih =>
      simp only [rangeRound] at hround
      split at hround
      · cases hround
        exact ih (List.mem_append_left _ hcpu)
      · cases hround

/-- The numbers of a range are added. -/
theorem ends_rangeRound {stop i : Signed 32} (hstop : stop.val < 2 ^ 31 - 1) (hi : 0 ≤ i.val)
    {n : Nat} (hn : i.val + n = stop.val + 1) (added : List (Option (Signed 32))) :
    ∃ result, Ends (rangeRound stop) (i, added) result ∧
      values result = values added ++
        (List.range' i.val.toNat n).map fun m : Nat => some (m : Int) := by
  induction n generalizing i added with
  | zero =>
      have hround : rangeRound stop (i, added) = .inr added := by
        have hgt : ¬i.val ≤ stop.val := by omega
        simp [rangeRound, hgt]
      exact ⟨added, .leave hround, by simp⟩
  | succ n ih =>
      have hle : i.val ≤ stop.val := by omega
      have hnext : (Signed.wrap 32 (i.val + 1)).val = i.val + 1 :=
        Signed.wrap_of_mem (by omega) (by omega) (by decide)
      have hround : rangeRound stop (i, added) =
          .inl (Signed.wrap 32 (i.val + 1), added ++ [some i]) := by
        simp [rangeRound, hle]
      obtain ⟨result, hends, hresult⟩ := ih (i := Signed.wrap 32 (i.val + 1)) (by omega)
        (by omega) (added ++ [some i])
      have hnat : (i.val + 1).toNat = i.val.toNat + 1 := by omega
      have hval : ((i.val.toNat : Nat) : Int) = i.val := by omega
      refine ⟨result, .next hround hends, ?_⟩
      rw [hresult, hnext, hnat, List.range'_succ]
      simp [values, hval]

/-- The counter is never larger than the largest number. -/
theorem not_ends_rangeRound {stop : Signed 32} (hstop : stop.val = 2 ^ 31 - 1)
    (s : Signed 32 × List (Option (Signed 32))) (result : List (Option (Signed 32))) :
    ¬Ends (rangeRound stop) s result := by
  apply not_ends_of_invariant (fun _ => True)
  · intro t _
    have hle : t.1.val ≤ stop.val := by
      have hhigh := t.1.property.2
      omega
    exact ⟨(Signed.wrap 32 (t.1.val + 1), t.2 ++ [some t.1]), by rw [rangeRound, if_pos hle],
      trivial⟩
  · trivial

/-! ## The parts -/

section Parts

variable {process : Process}

/-- An entry is not printed as nothing. -/
theorem text_ne_nil (entry : Entry) : entry.text ≠ [] := by
  cases entry with
  | single n => exact Nat.toDigits_ne_nil
  | range first last h => simp [Entry.text]

/-- Other characters are not among the digits. -/
theorem not_mem_toDigits {c : Char} (hc : c.isDigit = false) (n : Nat) :
    c ∉ Nat.toDigits 10 n := by
  intro hmem
  have hdigit := Decimals.isDigit_of_mem_toDigits hmem
  rw [hc] at hdigit
  cases hdigit

/-- An entry has no comma. -/
theorem comma_not_mem_text (entry : Entry) : ',' ∉ entry.text := by
  cases entry with
  | single n => exact not_mem_toDigits rfl n
  | range first last h =>
      simp only [Entry.text, List.mem_append, List.mem_cons, not_or]
      exact ⟨not_mem_toDigits rfl first, by decide, not_mem_toDigits rfl last⟩

/-- The parts of the text of a list are the texts of its entries. -/
theorem split_text (list : KernelList) :
    Strings.split ',' list.text = list.entries.map Entry.text := by
  apply Strings.split_intercalate
  · simpa using list.nonempty
  · simp only [List.mem_map]
    rintro _ ⟨entry, -, rfl⟩
    exact ⟨comma_not_mem_text entry, text_ne_nil entry⟩

variable (process) in
/-- Digits are parsed as the number, if it is in the range of the type. -/
theorem parseInt_toDigits {n : Nat} {i : Signed 32} :
    parseInt process (Nat.toDigits 10 n) = .ok i ↔ i.val = n := by
  rw [parseInt, Strings.parseSigned_toDigits]
  by_cases h : (n : Int) < 2 ^ 31
  · have hrange : -2 ^ (32 - 1) ≤ (n : Int) ∧ (n : Int) < 2 ^ (32 - 1) := by omega
    rw [Signed.ofInt?, dif_pos hrange]
    constructor
    · intro heq
      cases heq
      rfl
    · intro heq
      exact congrArg Except.ok (Subtype.ext heq.symm)
  · have hrange : ¬(-2 ^ (32 - 1) ≤ (n : Int) ∧ (n : Int) < 2 ^ (32 - 1)) := by omega
    rw [Signed.ofInt?, dif_neg hrange]
    constructor
    · intro heq
      cases heq
    · intro heq
      have hhigh := i.property.2
      omega

/-- The bounds of a range are parsed as its numbers. -/
theorem startStop_range {first last : Nat} {start stop : Signed 32} :
    startStop process (Nat.toDigits 10 first ++ '-' :: Nat.toDigits 10 last) =
        .ok (start, stop) ↔
      start.val = first ∧ stop.val = last := by
  have hsplit : Strings.split '-' (Nat.toDigits 10 first ++ '-' :: Nat.toDigits 10 last) =
      [Nat.toDigits 10 first, Nat.toDigits 10 last] := by
    rw [Strings.split_append_cons (not_mem_toDigits rfl first) Nat.toDigits_ne_nil,
      List.splitOn_eq_singleton (not_mem_toDigits rfl last), List.rdropWhile_singleton, if_neg]
    simp
  rw [← parseInt_toDigits process, ← parseInt_toDigits process]
  simp only [startStop, hsplit]
  cases hfirst : parseInt process (Nat.toDigits 10 first) with
  | error exception => simp [partAt, hfirst, bind, Except.bind]
  | ok i =>
      cases hlast : parseInt process (Nat.toDigits 10 last) with
      | error exception => simp [partAt, hfirst, hlast, bind, Except.bind]
      | ok j => simp [partAt, hfirst, hlast, bind, Except.bind, pure, Except.pure]

/-! ## Parts one after the other -/

/-- More fuel gives the same result for a part. -/
theorem parsePart_mono {fuel more : Nat} {part : List Char}
    {result added : List (Option (Signed 32))}
    (h : parsePart process fuel part result = some (.ok added)) (hle : fuel ≤ more) :
    parsePart process more part result = some (.ok added) := by
  unfold parsePart at h ⊢
  split at h
  next hrange =>
    rw [if_pos hrange]
    split at h
    next => cases h
    next =>
      obtain ⟨final, hloop, hfinal⟩ := Option.map_eq_some_iff.mp h
      rw [loop_mono hloop hle, Option.map_some, hfinal]
  next hsingle => rw [if_neg hsingle, h]

/-- More fuel gives the same result for all parts. -/
theorem parseParts_mono {fuel more : Nat} {parts : List (List Char)}
    {result final : List (Option (Signed 32))}
    (h : parseParts process fuel parts result = some (.ok final)) (hle : fuel ≤ more) :
    parseParts process more parts result = some (.ok final) := by
  induction parts generalizing result with
  | nil => exact h
  | cons part parts ih =>
      rw [parseParts] at h ⊢
      split at h
      next added hpart =>
        rw [parsePart_mono hpart hle]
        exact ih h
      next hfailed => exact absurd h (hfailed final)

/-- The part is added to the result. -/
def PartGives (process : Process) (part : List Char)
    (result added : List (Option (Signed 32))) : Prop :=
  ∃ fuel, parsePart process fuel part result = some (.ok added)

/-- The parts are added to the result. -/
def PartsGive (process : Process) (parts : List (List Char))
    (result final : List (Option (Signed 32))) : Prop :=
  ∃ fuel, parseParts process fuel parts result = some (.ok final)

/-- Parts are added one after the other. -/
theorem partsGive_cons {part : List Char} {parts : List (List Char)}
    {result final : List (Option (Signed 32))} :
    PartsGive process (part :: parts) result final ↔
      ∃ added, PartGives process part result added ∧ PartsGive process parts added final := by
  constructor
  · rintro ⟨fuel, h⟩
    rw [parseParts] at h
    split at h
    next added hpart => exact ⟨added, ⟨fuel, hpart⟩, ⟨fuel, h⟩⟩
    next hfailed => exact absurd h (hfailed final)
  · rintro ⟨added, ⟨fuel, hpart⟩, ⟨more, hparts⟩⟩
    refine ⟨max fuel more, ?_⟩
    rw [parseParts, parsePart_mono hpart (Nat.le_max_left ..)]
    exact parseParts_mono hparts (Nat.le_max_right ..)

/-- A single number adds the system property of that name. -/
theorem partGives_single {n : Nat} {result added : List (Option (Signed 32))} :
    PartGives process (Entry.single n).text result added ↔
      added = result ++ [getInteger process (Nat.toDigits 10 n)] := by
  have hpart : ∀ fuel, parsePart process fuel (Entry.single n).text result =
      some (.ok (result ++ [getInteger process (Nat.toDigits 10 n)])) := by
    intro fuel
    have hmem : '-' ∉ (Entry.single n).text := not_mem_toDigits rfl n
    rw [parsePart, if_neg hmem, Entry.text]
  simp [PartGives, hpart, eq_comm]

/-- A range adds what its loop adds, if its bounds are in the range of the type. -/
theorem partGives_range {first last : Nat} {h : first ≤ last}
    {result added : List (Option (Signed 32))} :
    PartGives process (Entry.range first last h).text result added ↔
      ∃ start stop : Signed 32, start.val = first ∧ stop.val = last ∧
        Ends (rangeRound stop) (start, result) added := by
  have hmem : '-' ∈ (Entry.range first last h).text := by simp [Entry.text]
  constructor
  · rintro ⟨fuel, hpart⟩
    rw [parsePart, if_pos hmem] at hpart
    split at hpart
    next => cases hpart
    next start stop hends =>
      obtain ⟨hstart, hstop⟩ := startStop_range.mp hends
      obtain ⟨final, hloop, hfinal⟩ := Option.map_eq_some_iff.mp hpart
      cases hfinal
      exact ⟨start, stop, hstart, hstop, ends_iff_loop.mpr ⟨fuel, hloop⟩⟩
  · rintro ⟨start, stop, hstart, hstop, hends⟩
    obtain ⟨fuel, hloop⟩ := ends_iff_loop.mp hends
    refine ⟨fuel, ?_⟩
    rw [parsePart, if_pos hmem, Entry.text, startStop_range.mpr ⟨hstart, hstop⟩]
    simp only [hloop, Option.map_some]

/-- Nothing is removed from the result. -/
theorem mem_of_partGives {entry : Entry} {result added : List (Option (Signed 32))}
    (h : PartGives process entry.text result added) {cpu : Option (Signed 32)}
    (hcpu : cpu ∈ result) : cpu ∈ added := by
  cases entry with
  | single n =>
      rw [partGives_single.mp h]
      exact List.mem_append_left _ hcpu
  | range first last hle =>
      obtain ⟨start, stop, -, -, hends⟩ := partGives_range.mp h
      exact mem_of_ends hends hcpu

/-- What has been added stays. -/
theorem mem_of_partsGive {entries : List Entry} {result final : List (Option (Signed 32))}
    (h : PartsGive process (entries.map Entry.text) result final) {cpu : Option (Signed 32)}
    (hcpu : cpu ∈ result) : cpu ∈ final := by
  induction entries generalizing result with
  | nil =>
      obtain ⟨fuel, hfinal⟩ := h
      cases hfinal
      exact hcpu
  | cons entry entries ih =>
      obtain ⟨added, hpart, hparts⟩ := partsGive_cons.mp h
      exact ih hparts (mem_of_partGives hpart hcpu)

/-! ## Whole lists -/

/-- A range whose last number is not the largest one. -/
def Entry.IsBoundedRange : Entry → Prop
  | .single _ => False
  | .range _ last _ => (last : Int) < 2 ^ 31 - 1

/-- Without system properties a single number gives null. -/
theorem isBoundedRange_of_partsGive {entries : List Entry}
    (hprocess : ∀ name, process.getProperty name = none)
    {result final : List (Option (Signed 32))}
    (h : PartsGive process (entries.map Entry.text) result final) (hfinal : none ∉ final) :
    ∀ entry ∈ entries, entry.IsBoundedRange := by
  induction entries generalizing result with
  | nil => simp
  | cons entry entries ih =>
      obtain ⟨added, hpart, hparts⟩ := partsGive_cons.mp h
      rw [List.forall_mem_cons]
      refine ⟨?_, ih hparts⟩
      cases entry with
      | single n =>
          have hnull : getInteger process (Nat.toDigits 10 n) = none := by
            simp [getInteger, hprocess]
          rw [partGives_single, hnull] at hpart
          exact absurd (mem_of_partsGive hparts (by simp [hpart])) hfinal
      | range first last hle =>
          obtain ⟨start, stop, -, hstop, hends⟩ := partGives_range.mp hpart
          have hhigh := stop.property.2
          have hne : stop.val ≠ 2 ^ 31 - 1 := fun heq => not_ends_rangeRound heq _ _ hends
          change (last : Int) < 2 ^ 31 - 1
          omega

/-- A bounded range adds its numbers. -/
theorem partGives_of_isBoundedRange {entry : Entry} (h : entry.IsBoundedRange)
    (result : List (Option (Signed 32))) :
    ∃ added, PartGives process entry.text result added ∧
      values added = values result ++ entry.numbers.map fun n : Nat => some (n : Int) := by
  cases entry with
  | single n => cases h
  | range first last hle =>
      change (last : Int) < 2 ^ 31 - 1 at h
      have hfirst : -2 ^ (32 - 1) ≤ (first : Int) ∧ (first : Int) < 2 ^ (32 - 1) := by omega
      have hlast : -2 ^ (32 - 1) ≤ (last : Int) ∧ (last : Int) < 2 ^ (32 - 1) := by omega
      let start : Signed 32 := ⟨first, hfirst⟩
      let stop : Signed 32 := ⟨last, hlast⟩
      have hlength : start.val + ((last + 1 - first : Nat) : Int) = stop.val + 1 := by
        change (first : Int) + ((last + 1 - first : Nat) : Int) = last + 1
        omega
      obtain ⟨added, hadded, hvalues⟩ :=
        ends_rangeRound (show stop.val < 2 ^ 31 - 1 from h) (Int.natCast_nonneg first) hlength
          result
      exact ⟨added, partGives_range.mpr ⟨start, stop, rfl, rfl, hadded⟩, hvalues⟩

variable (process) in
/-- A list of ranges adds all numbers. -/
theorem partsGive_of_isBoundedRange {entries : List Entry}
    (h : ∀ entry ∈ entries, entry.IsBoundedRange) (result : List (Option (Signed 32))) :
    ∃ final, PartsGive process (entries.map Entry.text) result final ∧
      values final =
        values result ++ (entries.flatMap Entry.numbers).map fun n : Nat => some (n : Int) := by
  induction entries generalizing result with
  | nil => exact ⟨result, ⟨0, rfl⟩, by simp⟩
  | cons entry entries ih =>
      rw [List.forall_mem_cons] at h
      obtain ⟨added, hpart, hadded⟩ := partGives_of_isBoundedRange h.1 result
      obtain ⟨final, hparts, hfinal⟩ := ih h.2 added
      refine ⟨final, partsGive_cons.mpr ⟨added, hpart, hparts⟩, ?_⟩
      rw [hfinal, hadded, List.flatMap_cons, List.map_append, List.append_assoc]

end Parts

/-- A list is parsed in all processes exactly if it consists of ranges that end before the largest
number. -/
theorem parseCpuList_iff (list : KernelList) :
    (∀ process, Parses process list) ↔ ∀ entry ∈ list.entries, entry.IsBoundedRange := by
  constructor
  · intro h
    obtain ⟨fuel, result, hresult, hvalues⟩ :=
      h ⟨fun _ => none, fun _ => none, fun _ => none⟩
    rw [parseCpuList, split_text] at hresult
    apply isBoundedRange_of_partsGive (fun _ => rfl) ⟨fuel, hresult⟩
    intro hnull
    have hmem : none ∈ values result := List.mem_map.mpr ⟨none, hnull, rfl⟩
    rw [hvalues] at hmem
    simp at hmem
  · intro h process
    obtain ⟨final, ⟨fuel, hfinal⟩, hvalues⟩ := partsGive_of_isBoundedRange process h []
    refine ⟨fuel, final, ?_, hvalues⟩
    rw [parseCpuList, split_text, hfinal]

/-- The list of a machine with one CPU is not parsed. -/
theorem single_cpu_not_parsed :
    ¬∀ process, Parses process ⟨[.single 0], by simp⟩ := by
  intro h
  obtain ⟨fuel, result, hresult, hvalues⟩ := h ⟨fun _ => none, fun _ => none, fun _ => none⟩
  cases hresult
  cases hvalues

end CpuList
end Roofline
