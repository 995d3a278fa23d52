import Roofline.Library.Programs
import Roofline.SharedEntities.Escaping

/-!
# The loops of the escaping

Both loops go through the string with an index, and the loop that reverts the escaping steps over
the character behind a backslash.  What they accept and return does not depend on the language.

Main results:

- Theorems {lit}`escape_eq_loop` and {lit}`unescape_eq_loop`: the functions are their loops.
- Theorem {lit}`unescape_eq_ok_iff`: which texts are accepted.
- Theorem {lit}`escape_of_readAs`: an accepted text without newlines is the escaped string.
- Theorem {lit}`escaping_both_languages`: the round trips in both languages.
-/

namespace Roofline
namespace SharedEntities

open Programs

/-! ## Loops over the index -/

/-- The loop of {lit}`escapeString`; the string is not longer than the range of the index. -/
def escapeLoop (s result : Text) (i : Nat) : Text :=
  if h : i < s.length then
    if s[i] = '\n' then escapeLoop s (result ++ ['\\', 'n']) (i + 1)
    else if s[i] = '\\' then escapeLoop s (result ++ ['\\', '\\']) (i + 1)
    else escapeLoop s (result ++ [s[i]]) (i + 1)
  else result
termination_by s.length - i

/-- The loop of {lit}`deEscapeString`. -/
def deEscapeLoop (invalidString : String) (invalidSequence : Char → String) (s result : Text)
    (i : Nat) : Except String Text :=
  if h : i < s.length then
    if s[i] = '\\' then
      -- the index goes on once more within the round
      if hend : i + 1 < s.length then
        if s[i + 1] = '\\' then
          deEscapeLoop invalidString invalidSequence s (result ++ ['\\']) (i + 1 + 1)
        else if s[i + 1] = 'n' then
          deEscapeLoop invalidString invalidSequence s (result ++ ['\n']) (i + 1 + 1)
        else .error (invalidSequence s[i + 1])
      else .error invalidString
    else deEscapeLoop invalidString invalidSequence s (result ++ [s[i]]) (i + 1)
  else .ok result
termination_by s.length - i

/-- An unknown character behind a backslash is rejected. -/
theorem unescape_unknown {ch : Char} (hbackslash : ch ≠ '\\') (hn : ch ≠ 'n')
    {invalidString : String} {invalidSequence : Char → String} {s : Text} :
    unescape invalidString invalidSequence ('\\' :: ch :: s) = .error (invalidSequence ch) := by
  rw [unescape]
  · exact hbackslash
  · exact hn

/-- The loop escapes what is left of the string. -/
theorem escapeLoop_eq (s result : Text) (i : Nat) :
    escapeLoop s result i = result ++ escape (s.drop i) := by
  induction result, i using escapeLoop.induct s with
  | case1 result i h hnewline ih =>
      rw [escapeLoop, dif_pos h, if_pos hnewline, ih, List.drop_eq_getElem_cons h, hnewline, escape]
      simp
  | case2 result i h hnewline hbackslash ih =>
      rw [escapeLoop, dif_pos h, if_neg hnewline, if_pos hbackslash, ih,
        List.drop_eq_getElem_cons h, hbackslash, escape]
      simp
  | case3 result i h hnewline hbackslash ih =>
      rw [escapeLoop, dif_pos h, if_neg hnewline, if_neg hbackslash, ih,
        List.drop_eq_getElem_cons h, escape_cons hnewline hbackslash]
      simp
  | case4 result i h =>
      rw [escapeLoop, dif_neg h, List.drop_eq_nil_of_le (by omega), escape, List.append_nil]

/-- A character is put behind the result or before the rest. -/
theorem map_append_cons (result : Text) (ch : Char) (rest : Except String Text) :
    (result ++ ·) <$> (return ch :: (← rest) : Except String Text) =
      ((result ++ [ch]) ++ ·) <$> rest := by
  cases rest with
  | error message => rfl
  | ok rest =>
      change Except.ok (result ++ ch :: rest) = Except.ok (result ++ [ch] ++ rest)
      simp

/-- The loop reverts the escaping of what is left of the text, or fails there. -/
theorem deEscapeLoop_eq (invalidString : String) (invalidSequence : Char → String)
    (s result : Text) (i : Nat) :
    deEscapeLoop invalidString invalidSequence s result i =
      (result ++ ·) <$> unescape invalidString invalidSequence (s.drop i) := by
  induction result, i using deEscapeLoop.induct s with
  | case1 result i h hbackslash hend hsecond ih =>
      rw [deEscapeLoop, dif_pos h, if_pos hbackslash, dif_pos hend, if_pos hsecond, ih,
        List.drop_eq_getElem_cons h, List.drop_eq_getElem_cons hend, hbackslash, hsecond, unescape,
        map_append_cons]
  | case2 result i h hbackslash hend hother hsecond ih =>
      rw [deEscapeLoop, dif_pos h, if_pos hbackslash, dif_pos hend, if_neg hother, if_pos hsecond,
        ih, List.drop_eq_getElem_cons h, List.drop_eq_getElem_cons hend, hbackslash, hsecond,
        unescape, map_append_cons]
  | case3 result i h hbackslash hend hother hsecond =>
      rw [deEscapeLoop, dif_pos h, if_pos hbackslash, dif_pos hend, if_neg hother, if_neg hsecond,
        List.drop_eq_getElem_cons h, List.drop_eq_getElem_cons hend, hbackslash,
        unescape_unknown hother hsecond]
      rfl
  | case4 result i h hbackslash hend =>
      rw [deEscapeLoop, dif_pos h, if_pos hbackslash, dif_neg hend, List.drop_eq_getElem_cons h,
        List.drop_eq_nil_of_le (by omega), hbackslash]
      rfl
  | case5 result i h hbackslash ih =>
      rw [deEscapeLoop, dif_pos h, if_neg hbackslash, ih, List.drop_eq_getElem_cons h,
        unescape_cons hbackslash, map_append_cons]
  | case6 result i h =>
      rw [deEscapeLoop, dif_neg h, List.drop_eq_nil_of_le (by omega)]
      change Except.ok result = Except.ok (result ++ [])
      rw [List.append_nil]

/-- The functions of both languages are their loops from the first character. -/
theorem escape_eq_loop (s : Text) : escape s = escapeLoop s [] 0 := by
  rw [escapeLoop_eq, List.nil_append, List.drop_zero]

/-- The recursive form of unescaping is the loop from the first character. -/
theorem unescape_eq_loop (invalidString : String) (invalidSequence : Char → String) (s : Text) :
    unescape invalidString invalidSequence s =
      deEscapeLoop invalidString invalidSequence s [] 0 := by
  rw [deEscapeLoop_eq, List.drop_zero]
  exact (id_map _).symm

/-! ## Accepted texts -/

/-- A text that is read as a string. -/
inductive ReadAs : Text → Text → Prop where
  | nil : ReadAs [] []
  | backslash {t s : Text} : ReadAs t s → ReadAs ('\\' :: '\\' :: t) ('\\' :: s)
  | newline {t s : Text} : ReadAs t s → ReadAs ('\\' :: 'n' :: t) ('\n' :: s)
  | plain {ch : Char} {t s : Text} : ch ≠ '\\' → ReadAs t s → ReadAs (ch :: t) (ch :: s)

/-- Which texts are accepted, and as what. -/
theorem unescape_eq_ok_iff (invalidString : String) (invalidSequence : Char → String) {t s : Text} :
    unescape invalidString invalidSequence t = .ok s ↔ ReadAs t s := by
  constructor
  · intro h
    induction t using unescape.induct generalizing s with
    | case1 =>
        obtain rfl := Except.ok.inj h
        exact .nil
    | case2 => cases h
    | case3 t ih =>
        rw [unescape] at h
        rcases bind_eq_ok.mp h with ⟨rest, hrest, heq⟩
        obtain rfl := Except.ok.inj heq
        exact .backslash (ih hrest)
    | case4 t ih =>
        rw [unescape] at h
        rcases bind_eq_ok.mp h with ⟨rest, hrest, heq⟩
        obtain rfl := Except.ok.inj heq
        exact .newline (ih hrest)
    | case5 ch t hbackslash hn =>
        rw [unescape_unknown hbackslash hn] at h
        cases h
    | case6 ch t hend hfirst hsecond hother ih =>
        have hplain : ch ≠ '\\' := by
          rintro rfl
          cases t with
          | nil => exact hend rfl rfl
          | cons next t => exact hother next t rfl rfl
        rw [unescape_cons hplain] at h
        rcases bind_eq_ok.mp h with ⟨rest, hrest, heq⟩
        obtain rfl := Except.ok.inj heq
        exact .plain hplain (ih hrest)
  · intro h
    induction h with
    | nil => rfl
    | backslash _ ih =>
        rw [unescape, ih]
        rfl
    | newline _ ih =>
        rw [unescape, ih]
        rfl
    | plain hplain _ ih =>
        rw [unescape_cons hplain, ih]
        rfl

/-- An accepted text without newlines is the escaped string. -/
theorem escape_of_readAs {t s : Text} (h : ReadAs t s) (hnewline : '\n' ∉ t) : escape s = t := by
  induction h with
  | nil => rfl
  | backslash _ ih =>
      simp only [List.mem_cons, not_or] at hnewline
      rw [escape, ih hnewline.2.2]
  | newline _ ih =>
      simp only [List.mem_cons, not_or] at hnewline
      rw [escape, ih hnewline.2.2]
  | plain hplain _ ih =>
      simp only [List.mem_cons, not_or] at hnewline
      rw [escape_cons (Ne.symm hnewline.1) hplain, ih hnewline.2]

/-! ## Both languages -/

/-- A string that was escaped is read back, an accepted text without newlines is what its string is
escaped to, and the languages agree. -/
theorem escaping_both_languages :
    (∀ s, Java.deEscapeString (Java.escapeString s) = .ok s ∧
      Cpp.deEscapeString (Cpp.escapeString s) = .ok s) ∧
    (∀ t s, '\n' ∉ t →
      (Java.deEscapeString t = .ok s → Java.escapeString s = t) ∧
      (Cpp.deEscapeString t = .ok s → Cpp.escapeString s = t)) ∧
    (∀ s, Java.escapeString s = Cpp.escapeString s) ∧
    ∀ t s, Java.deEscapeString t = .ok s ↔ Cpp.deEscapeString t = .ok s := by
  refine ⟨fun s => ⟨unescape_escape _ _ s, unescape_escape _ _ s⟩, ?_, fun _ => rfl, ?_⟩
  · intro t s hnewline
    exact ⟨fun h => escape_of_readAs ((unescape_eq_ok_iff _ _).mp h) hnewline,
      fun h => escape_of_readAs ((unescape_eq_ok_iff _ _).mp h) hnewline⟩
  · intro t s
    exact (unescape_eq_ok_iff _ _).trans (unescape_eq_ok_iff _ _).symm

/-- A run of escaped backslashes before a character that is not escaped. -/
theorem escaping_both_languages_run :
    Cpp.escapeString ['\\', '\\', 'n'] = ['\\', '\\', '\\', '\\', 'n'] :=
  (escaping_both_languages.2.1 ['\\', '\\', '\\', '\\', 'n'] ['\\', '\\', 'n']
    (by decide)).2 rfl

end SharedEntities
end Roofline
