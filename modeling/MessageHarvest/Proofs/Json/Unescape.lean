import MessageHarvest.Proofs.Json.RoundTrip
import MessageHarvest.Proofs.Text.Encoding
import MessageHarvest.Text.Escape

/-!
# A written string is a literal of its text

What the writer puts between the quotes of a string is the body of a literal, and the literal stands
for the string. The two know different escapes: the decoder gets along with those that the writer
uses, and leaves alone what the writer does not escape.

* `Escape.pieces_writeChar`: a written character is one piece of the body, whatever follows.
* `Escape.unitsOf_pieces`: the pieces of a written text stand for its units.
* **Literals** (`Escape.unescapeChars_writeChars`): a written text is decoded to the text.
-/

namespace MessageHarvest.Escape

open Json

/-! ## Characters -/

/-- A backslash before a character that begins no longer escape and ends no line. -/
theorem pieces_single {c : Char} {rest : List Char} (h : readEscape (c :: rest) = (.single c, 1)) :
    pieces ('\\' :: c :: rest) = .single c :: pieces rest := by
  rw [pieces_backslash, h]
  rfl

/-- A control character below U+0020 is written with four digits. -/
theorem pieces_codePoint {n : Nat} (h : n < 256) (rest : List Char) :
    pieces ('\\' :: 'u' :: '0' :: '0' :: hexDigit (n / 16) :: hexDigit (n % 16) :: rest) =
      .codePoint n :: pieces rest := by
  have hhex := hex4?_hexDigit h
  rw [hex4?, Option.ite_none_right_eq_some] at hhex
  obtain ⟨hall, hvalue⟩ := hhex
  have hread : readEscape ('u' :: '0' :: '0' :: hexDigit (n / 16) :: hexDigit (n % 16) :: rest) =
      (.codePoint (hexValue 0 ['0', '0', hexDigit (n / 16), hexDigit (n % 16)]), 5) :=
    if_pos hall
  rw [pieces_backslash, hread, Option.some.inj hvalue]
  rfl

/-- **A written character** is one piece, which stands for the character. -/
theorem pieces_writeChar (c : Char) (rest : List Char) :
    ∃ p, pieces (writeChar c ++ rest) = p :: pieces rest ∧
      p.units = .ok (Utf16.ofCodePoint c.toNat) := by
  unfold writeChar
  split
  -- the last case is that of the characters without an escape of their own
  case h_8 hslash _ _ _ _ _ =>
    by_cases hcontrol : c.toNat < 0x20
    · rw [if_pos hcontrol]
      refine ⟨.codePoint c.toNat, pieces_codePoint (Nat.lt_trans hcontrol (by decide)) rest, ?_⟩
      exact if_pos (Nat.le_trans (Nat.le_of_lt hcontrol) (by decide))
    · rw [if_neg hcontrol]
      exact ⟨.plain c, pieces_cons_of_ne hslash rest, rfl⟩
  all_goals exact ⟨_, pieces_single rfl, rfl⟩

/-- A character that is not written as it is has a backslash in its written form. -/
theorem writeChar_eq_or_mem (c : Char) : writeChar c = [c] ∨ '\\' ∈ writeChar c := by
  unfold writeChar
  split
  case h_8 =>
    split
    · exact .inr List.mem_cons_self
    · exact .inl rfl
  all_goals exact .inr List.mem_cons_self

/-! ## Texts -/

/-- A written text without a backslash is the text itself. -/
theorem flatMap_writeChar_of_not_mem {cs : List Char} (h : '\\' ∉ cs.flatMap writeChar) :
    cs.flatMap writeChar = cs := by
  induction cs with
  | nil => rfl
  | cons c cs ih =>
    rw [List.flatMap_cons, List.mem_append, not_or] at h
    have hc : writeChar c = [c] := (writeChar_eq_or_mem c).resolve_right h.1
    rw [List.flatMap_cons, hc, ih h.2, List.singleton_append]

/-- Decoding a written text yields the units of the text. -/
theorem unitsOf_pieces (cs : List Char) :
    unitsOf (pieces (cs.flatMap writeChar)) = .ok (Utf16.encode cs) := by
  induction cs with
  | nil => rfl
  | cons c cs ih =>
    obtain ⟨p, hp, hunits⟩ := pieces_writeChar c (cs.flatMap writeChar)
    rw [List.flatMap_cons, hp, unitsOf, hunits, ih]
    rfl

/-- **Literals**: the body that is written for a text is decoded to it. -/
theorem unescapeChars_writeChars (cs : List Char) :
    unescapeChars (cs.flatMap writeChar) = .ok cs := by
  by_cases h : '\\' ∈ cs.flatMap writeChar
  · rw [unescapeChars, if_pos h, unitsOf_pieces]
    show Except.ok (Utf16.decode (Utf16.encode cs)) = .ok cs
    rw [Utf16.decode_encode]
  · rw [unescapeChars, if_neg h, flatMap_writeChar_of_not_mem h]

end MessageHarvest.Escape
