import MessageHarvest.Proofs.Text.Overlarge
import Mathlib.Data.List.Basic
import Mathlib.Data.Nat.Digits.Defs

/-!
# The body of a literal as it is written

A body is read here as a row of segments, which know how they are spelled: characters that stand for
themselves, and backslashes with what they take with them. What a backslash takes is said by a rule:
of all sequences that follow it, the longest one.

* `Sequence.Longest s rest`: of the sequences that `rest` begins with, `s` is the longest one. There
  is one, and it is the one that the decoder reads (`Sequence.exists_longest`,
  `Sequence.readEscape_of_longest`).
* `IsCut segments`: the segments are those into which their text is cut from left to right.
* **Cutting** (`exists_cut_iff_eq`, `IsCut.pieces_eq`): each body is cut in exactly one way, and the
  decoder's pieces are the segments without their spelling.
-/

namespace MessageHarvest.Escape

/-! ## Hexadecimal numbers -/

/-- A hexadecimal digit as it is written. -/
inductive HexDigit where
  | decimal (v : Fin 10)
  | lower (v : Fin 6)
  | upper (v : Fin 6)
  deriving DecidableEq, Repr

namespace HexDigit

/-- The digit as a character. -/
def char : HexDigit → Char
  | decimal v => ['0', '1', '2', '3', '4', '5', '6', '7', '8', '9'].get v
  | lower v => ['a', 'b', 'c', 'd', 'e', 'f'].get v
  | upper v => ['A', 'B', 'C', 'D', 'E', 'F'].get v

/-- What the digit counts. -/
def value : HexDigit → Nat
  | decimal v => v
  | lower v => 10 + v
  | upper v => 10 + v

/-- The character of a digit is read as its value. -/
theorem hexDigit?_char : (d : HexDigit) → hexDigit? d.char = some d.value
  | decimal v => by revert v; decide
  | lower v => by revert v; decide
  | upper v => by revert v; decide

/-- All digits that the decoder takes can be written. -/
theorem exists_char_eq {c : Char} (h : (hexDigit? c).isSome = true) :
    ∃ d : HexDigit, d.char = c := by
  have hall : ∀ n < 103, (hexDigit? (Char.ofNat n)).isSome = true →
      (∃ v, (decimal v).char = Char.ofNat n) ∨ (∃ v, (lower v).char = Char.ofNat n) ∨
        ∃ v, (upper v).char = Char.ofNat n := by
    decide
  have hlt : c.toNat < 103 := by
    refine Nat.lt_of_not_le fun hle => ?_
    have hnot {d : Char} (hd : d.toNat < 103) : ¬ c ≤ d := fun hcd => by
      have : c.toNat ≤ d.toNat := hcd
      omega
    simp [hexDigit?, hnot (d := '9') (by decide), hnot (d := 'f') (by decide),
      hnot (d := 'F') (by decide)] at h
  have hcases := hall c.toNat hlt
  rw [Char.ofNat_toNat] at hcases
  rcases hcases h with ⟨v, hv⟩ | ⟨v, hv⟩ | ⟨v, hv⟩
  · exact ⟨_, hv⟩
  · exact ⟨_, hv⟩
  · exact ⟨_, hv⟩

/-- No two digits are written alike. -/
theorem char_injective : Function.Injective char := by
  rintro (v | v | v) (w | w | w)
  all_goals
    revert v w
    decide

/-- No digit is written as a character that is none. -/
theorem char_ne {c : Char} (hc : hexDigit? c = none) (d : HexDigit) : d.char ≠ c := by
  rintro rfl
  rw [hexDigit?_char] at hc
  cases hc

end HexDigit

/-- The number that digits name, the last one of which counts ones. -/
def number (digits : List HexDigit) : Nat :=
  Nat.ofDigits 16 (digits.reverse.map HexDigit.value)

/-- Characters that are digits are those of some digits. -/
theorem exists_map_char_eq {digits : List Char} (h : allHex digits = true) :
    ∃ ds : List HexDigit, ds.map HexDigit.char = digits := by
  induction digits with
  | nil => exact ⟨[], rfl⟩
  | cons c digits ih =>
      rw [allHex, List.all_cons, Bool.and_eq_true] at h
      obtain ⟨d, rfl⟩ := HexDigit.exists_char_eq h.1
      obtain ⟨ds, rfl⟩ := ih h.2
      exact ⟨d :: ds, rfl⟩

/-- The characters of digits are digits. -/
theorem allHex_map_char (digits : List HexDigit) : allHex (digits.map HexDigit.char) = true := by
  simp [allHex, HexDigit.hexDigit?_char]

/-- The decoder's number of digits is the number that they name. -/
theorem hexValue_map_char (n : Nat) (digits : List HexDigit) :
    hexValue n (digits.map HexDigit.char) = n * 16 ^ digits.length + number digits := by
  induction digits generalizing n with
  | nil => simp [hexValue, number]
  | cons d digits ih =>
      have hnumber : number (d :: digits) =
          number digits + 16 ^ digits.length * d.value := by
        simp [number, Nat.ofDigits_append]
      calc hexValue n ((d :: digits).map HexDigit.char)
          = hexValue (n * 16 + d.value) (digits.map HexDigit.char) := by
            simp [hexValue, HexDigit.hexDigit?_char]
        _ = (n * 16 + d.value) * 16 ^ digits.length + number digits := ih _
        _ = n * 16 ^ (digits.length + 1) + number (d :: digits) := by
            rw [hnumber, Nat.pow_succ]
            ring

/-- The value of written digits is their number. -/
theorem number_eq (digits : List HexDigit) :
    hexValue 0 (digits.map HexDigit.char) = number digits := by
  rw [hexValue_map_char, Nat.zero_mul, Nat.zero_add]

/-! ## What a backslash takes with it, as it is written -/

/-- What follows the backslash of an escape. -/
inductive Sequence where
  /-- `u{…}`, with a digit at least. -/
  | braced (first : HexDigit) (more : List HexDigit)
  /-- `uHHHH` -/
  | unit (a b c d : HexDigit)
  /-- `xHH` -/
  | byte (a b : HexDigit)
  /-- Carriage return and line feed. -/
  | lineEnds
  /-- One character, whichever it is. -/
  | single (c : Char)
  deriving DecidableEq, Repr

namespace Sequence

/-- The characters of a sequence. -/
def text : Sequence → List Char
  | braced first more => 'u' :: '{' :: ((first :: more).map HexDigit.char ++ ['}'])
  | unit a b c d => 'u' :: [a, b, c, d].map HexDigit.char
  | byte a b => 'x' :: [a, b].map HexDigit.char
  | lineEnds => ['\r', '\n']
  | single c => [c]

/-- A sequence is not empty. -/
theorem text_ne_nil (s : Sequence) : s.text ≠ [] := by
  cases s <;> exact List.cons_ne_nil _ _

/-- Of all sequences that a text begins with, this is the longest one. -/
structure Longest (s : Sequence) (rest : List Char) : Prop where
  applies : s.text <+: rest
  longest : ∀ t : Sequence, t.text <+: rest → t.text.length ≤ s.text.length

/-- The piece that the decoder makes of a sequence. -/
def piece : Sequence → Piece
  | braced first more => .codePoint (number (first :: more))
  | unit a b c d => .codePoint (number [a, b, c, d])
  | byte a b => .codePoint (number [a, b])
  | lineEnds => .lineJoin
  | single c => if isLineEnd c then .lineJoin else .single c

/-- Sequences are told apart by their characters. -/
theorem text_injective : Function.Injective text := by
  have hchar {d e : HexDigit} : d.char = e.char ↔ d = e := HexDigit.char_injective.eq_iff
  have hdigits {ds es : List HexDigit} : ds.map HexDigit.char = es.map HexDigit.char ↔ ds = es :=
    (Function.Injective.list_map HexDigit.char_injective).eq_iff
  have hbrace (d : HexDigit) : d.char ≠ '{' := d.char_ne (by decide)
  have hbrace' (d : HexDigit) : '{' ≠ d.char := (hbrace d).symm
  intro s t h
  cases s <;> cases t <;> simp [text, hchar, hdigits, hbrace, hbrace'] at h ⊢
  all_goals exact h

/-- **Longer sequences** are what the decoder reads wherever a text begins with one. -/
theorem readEscape_text_append {s : Sequence} (hs : ∀ c, s ≠ single c) (after : List Char) :
    readEscape (s.text ++ after) = (s.piece, s.text.length) := by
  cases s with
  | braced first more =>
      have hread : readEscape
          ('u' :: '{' :: ((first :: more).map HexDigit.char ++ '}' :: after)) = _ :=
        readEscape_braced (List.cons_ne_nil _ _) (allHex_map_char _)
      rw [number_eq] at hread
      simpa [text, piece] using hread
  | unit a b c d =>
      have hall : allHex [a.char, b.char, c.char, d.char] = true := allHex_map_char [a, b, c, d]
      -- tells the form with four digits from the braced one
      have hbrace : a.char ≠ '{' := a.char_ne (by decide)
      simp [text, readEscape, piece, hall, ← number_eq]
  | byte a b =>
      have hall : allHex [a.char, b.char] = true := allHex_map_char [a, b]
      simp [text, readEscape, piece, hall, ← number_eq]
  | lineEnds => rfl
  | single c => exact absurd rfl (hs c)

/-- Each form of an escape is spelled by a sequence. -/
theorem exists_of_form {taken : List Char} {p : Piece} (h : Form taken p) :
    ∃ s : Sequence, s.text = taken ∧ s.piece = p := by
  cases h with
  | lineEnds => exact ⟨lineEnds, rfl, rfl⟩
  | byte hlen hall =>
      obtain ⟨ds, rfl⟩ := exists_map_char_eq hall
      rw [List.length_map, List.length_eq_two] at hlen
      obtain ⟨a, b, rfl⟩ := hlen
      exact ⟨byte a b, rfl, by rw [number_eq]; rfl⟩
  | unit hlen hall =>
      obtain ⟨ds, rfl⟩ := exists_map_char_eq hall
      obtain ⟨a, b, c, d, rfl⟩ : ∃ a b c d, ds = [a, b, c, d] := by
        match ds, hlen with
        | [a, b, c, d], _ => exact ⟨a, b, c, d, rfl⟩
      exact ⟨unit a b c d, rfl, by rw [number_eq]; rfl⟩
  | braced hne hall =>
      obtain ⟨ds, rfl⟩ := exists_map_char_eq hall
      obtain ⟨first, more, rfl⟩ := List.exists_cons_of_ne_nil fun h => hne (congrArg _ h)
      exact ⟨braced first more, rfl, by rw [number_eq]; rfl⟩
  | @lineEnd c hc => exact ⟨single c, rfl, if_pos hc⟩
  | @single c hc => exact ⟨single c, rfl, if_neg (by simp [hc])⟩

/-- What the decoder reads is the longest sequence. -/
theorem exists_longest {rest : List Char} (hrest : rest ≠ []) :
    ∃ s : Sequence, s.Longest rest ∧ readEscape rest = (s.piece, s.text.length) := by
  obtain ⟨taken, after, heq, hform, hlen⟩ := readEscape_form hrest
  obtain ⟨s, rfl, hpiece⟩ := exists_of_form hform
  have hread : readEscape rest = (s.piece, s.text.length) := Prod.ext hpiece.symm hlen
  refine ⟨s, ⟨⟨after, heq.symm⟩, fun t ⟨after', heq'⟩ => ?_⟩, hread⟩
  by_cases ht : ∃ c, t = single c
  · obtain ⟨c, rfl⟩ := ht
    exact List.length_pos_iff.mpr s.text_ne_nil
  · have hread' := readEscape_text_append (fun c hc => ht ⟨c, hc⟩) after'
    rw [heq', hread] at hread'
    exact Nat.le_of_eq (congrArg Prod.snd hread').symm

/-- There is no more than one longest sequence. -/
theorem Longest.eq {s t : Sequence} {rest : List Char} (hs : s.Longest rest) (ht : t.Longest rest) :
    s = t := by
  have hlen : s.text.length = t.text.length :=
    Nat.le_antisymm (ht.longest s hs.applies) (hs.longest t ht.applies)
  have htake := List.prefix_iff_eq_take.mp hs.applies
  rw [hlen, ← List.prefix_iff_eq_take.mp ht.applies] at htake
  exact text_injective htake

/-- The longest sequence is what is read behind a backslash. -/
theorem readEscape_of_longest {s : Sequence} {rest : List Char} (h : s.Longest rest) :
    readEscape rest = (s.piece, s.text.length) := by
  have hrest : rest ≠ [] := fun hnil => s.text_ne_nil (List.prefix_nil.mp (hnil ▸ h.applies))
  obtain ⟨t, ht, hread⟩ := exists_longest hrest
  rwa [h.eq ht]

/-- A sequence as long as what the decoder reads is the longest one. -/
theorem longest_of_readEscape {s : Sequence} {rest : List Char} (h : s.text <+: rest)
    (hlen : (readEscape rest).2 = s.text.length) : s.Longest rest := by
  have hrest : rest ≠ [] := fun hnil => s.text_ne_nil (List.prefix_nil.mp (hnil ▸ h))
  obtain ⟨t, ht, hread⟩ := exists_longest hrest
  rw [hread] at hlen
  have htake := List.prefix_iff_eq_take.mp h
  rw [← hlen, ← List.prefix_iff_eq_take.mp ht.applies] at htake
  rwa [text_injective htake]

/-- A sequence is the longest one, unless it is a single character that may begin a longer one. -/
theorem longest_append {s : Sequence} {after : List Char} (hbyte : s ≠ single 'x')
    (hunit : s ≠ single 'u') (hreturn : s = single '\r' → after.head? ≠ some '\n') :
    s.Longest (s.text ++ after) := by
  refine longest_of_readEscape (List.prefix_append _ _) ?_
  by_cases hs : ∃ c, s = single c
  · obtain ⟨c, rfl⟩ := hs
    rw [text, List.singleton_append, readEscape.eq_def]
    split
    · rename_i h
      cases h
    · rename_i h
      obtain ⟨rfl, rfl⟩ := List.cons.inj h
      exact absurd rfl (hreturn rfl)
    · exact absurd (congrArg single (List.cons.inj ‹_›).1) hbyte
    · exact absurd (congrArg single (List.cons.inj ‹_›).1) hunit
    · exact absurd (congrArg single (List.cons.inj ‹_›).1) hunit
    · rfl
  · rw [readEscape_text_append fun c hc => hs ⟨c, hc⟩]

/-- The characters that stand in a sequence behind the first one, where that is no carriage
return. -/
def isInner (c : Char) : Bool :=
  (hexDigit? c).isSome || c = '{' || c = '}'

/-- A digit may stand inside a sequence. -/
theorem isInner_char (d : HexDigit) : isInner d.char = true := by
  rw [isInner, d.hexDigit?_char]
  rfl

/-- Behind the first character of a sequence there are digits and braces only, or a line feed behind
a carriage return. -/
theorem isInner_or_of_mem_tail {s : Sequence} {c : Char} (h : c ∈ s.text.tail) :
    isInner c = true ∨ c = '\n' ∧ s = lineEnds := by
  cases s with
  | braced first more =>
      simp only [text, List.tail_cons, List.mem_cons, List.mem_append, List.mem_map,
        List.not_mem_nil, or_false] at h
      rcases h with rfl | ⟨d, -, rfl⟩ | rfl
      · exact .inl (by decide)
      · exact .inl (isInner_char d)
      · exact .inl (by decide)
  | unit | byte =>
      obtain ⟨d, -, rfl⟩ := List.mem_map.mp h
      exact .inl (isInner_char d)
  | lineEnds => exact .inr ⟨List.mem_singleton.mp h, rfl⟩
  | single => cases h

/-- No sequence goes on beyond a character that stands in none behind the first one. -/
theorem text_prefix_append_cons_iff {s : Sequence} {left after : List Char} {c : Char}
    (hleft : left ≠ []) (hc : isInner c = false) (hfeed : c = '\n' → left ≠ ['\r']) :
    s.text <+: left ++ c :: after ↔ s.text <+: left := by
  constructor
  · intro h
    rcases Nat.lt_or_ge left.length s.text.length with hlt | hle
    · have hpre : left ++ [c] <+: s.text :=
        List.prefix_of_prefix_length_le ⟨after, by simp⟩ h
          (by rwa [List.length_append, List.length_singleton])
      obtain ⟨rest, hrest⟩ := hpre
      obtain ⟨d, left, rfl⟩ := List.exists_cons_of_ne_nil hleft
      have hmem : c ∈ s.text.tail := by
        rw [← hrest]
        simp
      rcases isInner_or_of_mem_tail hmem with hinner | ⟨rfl, rfl⟩
      · rw [hc] at hinner
        cases hinner
      · obtain rfl : left = [] := by
          have hlen := congrArg List.length hrest
          rw [text, List.length_append, List.length_append, List.length_cons] at hlen
          exact List.eq_nil_of_length_eq_zero (by simp at hlen; omega)
        exact absurd (congrArg (fun l => [l.headD d]) hrest) (hfeed rfl)
    · exact List.prefix_of_prefix_length_le h (List.prefix_append _ _) hle
  · exact fun h => h.trans (List.prefix_append _ _)

/-- So whether a sequence is the longest one is decided before such a character. -/
theorem longest_append_cons_iff {s : Sequence} {left after : List Char} {c : Char}
    (hleft : left ≠ []) (hc : isInner c = false) (hfeed : c = '\n' → left ≠ ['\r']) :
    s.Longest (left ++ c :: after) ↔ s.Longest left := by
  have hpre (t : Sequence) : t.text <+: left ++ c :: after ↔ t.text <+: left :=
    text_prefix_append_cons_iff hleft hc hfeed
  constructor
  · intro h
    exact ⟨(hpre s).mp h.applies, fun t ht => h.longest t ((hpre t).mpr ht)⟩
  · intro h
    exact ⟨(hpre s).mpr h.applies, fun t ht => h.longest t ((hpre t).mp ht)⟩

end Sequence

/-! ## Segments -/

/-- A stretch of a body: a character outside any escape, or an escape. A backslash that nothing
follows is a character outside any escape. -/
inductive Segment where
  | char (c : Char)
  | escape (s : Sequence)
  deriving DecidableEq, Repr

/-- The characters of a segment. -/
def Segment.text : Segment → List Char
  | char c => [c]
  | escape s => '\\' :: s.text

/-- The body that segments make. -/
def textOf (segments : List Segment) : List Char :=
  segments.flatMap Segment.text

/-- No segments have an empty text. -/
@[simp] theorem textOf_nil : textOf [] = [] := rfl

/-- A character is its own text. -/
theorem textOf_cons_char (c : Char) (segments : List Segment) :
    textOf (.char c :: segments) = c :: textOf segments := rfl

/-- The text of an escape is a backslash and its sequence. -/
theorem textOf_cons_escape (s : Sequence) (segments : List Segment) :
    textOf (.escape s :: segments) = '\\' :: (s.text ++ textOf segments) := rfl

/-- Only no segments have an empty text. -/
theorem textOf_eq_nil_iff {segments : List Segment} : textOf segments = [] ↔ segments = [] := by
  refine ⟨fun h => ?_, fun h => by rw [h, textOf_nil]⟩
  cases segments with
  | nil => rfl
  | cons g segments => cases g <;> cases h

/-- The segments are those into which their text is cut from left to right: a backslash that
anything follows takes the longest sequence that follows it, and all else stands for itself. -/
def IsCut : List Segment → Prop
  | [] => True
  | .char c :: rest => (c = '\\' → rest = []) ∧ IsCut rest
  | .escape s :: rest => s.Longest (s.text ++ textOf rest) ∧ IsCut rest

/-- Each body can be cut. -/
theorem exists_isCut : (body : List Char) → ∃ segments, textOf segments = body ∧ IsCut segments
  | [] => ⟨[], rfl, trivial⟩
  | c :: rest => by
      by_cases hc : c = '\\' ∧ rest ≠ []
      · obtain ⟨rfl, hrest⟩ := hc
        obtain ⟨s, hs, -⟩ := Sequence.exists_longest hrest
        obtain ⟨after, hafter⟩ := hs.applies
        have hlt : after.length < rest.length + 1 := by
          rw [← hafter, List.length_append]
          omega
        obtain ⟨segments, rfl, hcut⟩ := exists_isCut after
        refine ⟨.escape s :: segments, by rw [textOf_cons_escape, hafter], ?_, hcut⟩
        rwa [hafter]
      · obtain ⟨segments, rfl, hcut⟩ := exists_isCut rest
        refine ⟨.char c :: segments, rfl, fun hslash => ?_, hcut⟩
        exact Decidable.byContradiction fun hne => hc ⟨hslash, mt textOf_eq_nil_iff.mp hne⟩
termination_by body => body.length

/-- There is one way only to cut a body. -/
theorem IsCut.eq {segments segments' : List Segment} (h : IsCut segments) (h' : IsCut segments')
    (heq : textOf segments = textOf segments') : segments = segments' := by
  induction segments generalizing segments' with
  | nil => exact (textOf_eq_nil_iff.mp heq.symm).symm
  | cons g segments ih =>
      cases segments' with
      | nil => exact absurd (textOf_eq_nil_iff.mp heq) (List.cons_ne_nil _ _)
      | cons g' segments' =>
          -- a backslash is a character only if nothing follows, an escape only if something does
          have hchar {s : Sequence} {after : List Segment} {c : Char} {rest : List Segment}
              (hc : c = '\\' → rest = []) :
              '\\' :: (s.text ++ textOf after) ≠ c :: textOf rest := by
            intro hcons
            obtain ⟨hslash, htext⟩ := List.cons.inj hcons
            rw [hc hslash.symm, textOf_nil] at htext
            exact s.text_ne_nil (List.append_eq_nil_iff.mp htext).1
          cases g with
          | char c =>
              cases g' with
              | char c' =>
                  obtain ⟨rfl, htext⟩ := List.cons.inj heq
                  rw [ih h.2 h'.2 htext]
              | escape s => exact absurd heq.symm (hchar h.1)
          | escape s =>
              cases g' with
              | char c => exact absurd heq (hchar h'.1)
              | escape t =>
                  have htext : s.text ++ textOf segments = t.text ++ textOf segments' :=
                    (List.cons.inj heq).2
                  obtain rfl : s = t := h.1.eq (htext ▸ h'.1)
                  rw [ih h.2 h'.2 (List.append_cancel_left htext)]

/-- **Cutting**: each body is cut in exactly one way. -/
theorem exists_cut_iff_eq (body : List Char) :
    ∃ segments, ∀ segments', textOf segments' = body ∧ IsCut segments' ↔ segments' = segments := by
  obtain ⟨segments, rfl, h⟩ := exists_isCut body
  refine ⟨segments, fun segments' => ⟨fun h' => h'.2.eq h h'.1, ?_⟩⟩
  rintro rfl
  exact ⟨rfl, h⟩

/-- The piece that the decoder makes of a segment. -/
def Segment.piece : Segment → Piece
  | char c => .plain c
  | escape s => s.piece

/-- **Pieces** are what the decoder makes of the segments. -/
theorem IsCut.pieces_eq {segments : List Segment} (h : IsCut segments) :
    pieces (textOf segments) = segments.map Segment.piece := by
  induction segments with
  | nil => rfl
  | cons g segments ih =>
      cases g with
      | char c =>
          rw [textOf_cons_char, List.map_cons, ← ih h.2]
          by_cases hslash : c = '\\'
          · rw [h.1 hslash, hslash]
            rfl
          · exact pieces_cons_of_ne hslash _
      | escape s =>
          rw [textOf_cons_escape, pieces_backslash, Sequence.readEscape_of_longest h.1,
            List.drop_left, ih h.2]
          rfl

/-! ## Where a cut may be taken apart -/

/-- The text of segments in a row is that of the one part and then that of the other. -/
theorem textOf_append (left right : List Segment) :
    textOf (left ++ right) = textOf left ++ textOf right :=
  List.flatMap_append

/-- A cut may be taken apart, and put together, before a character that stands in no sequence behind
the first one. -/
theorem isCut_append_iff {left : List Segment} (right : List Segment) {c : Char} {rest : List Char}
    (hright : textOf right = c :: rest) (hc : Sequence.isInner c = false) (hfeed : c ≠ '\n') :
    IsCut (left ++ right) ↔ IsCut left ∧ .char '\\' ∉ left ∧ IsCut right := by
  induction left with
  | nil => simp [IsCut]
  | cons g left ih =>
      cases g with
      | char d =>
          have hne : left ++ right ≠ [] := by
            intro hnil
            rw [(List.append_eq_nil_iff.mp hnil).2] at hright
            cases hright
          simp only [List.cons_append, IsCut, ih, List.mem_cons, not_or, Segment.char.injEq]
          constructor
          · rintro ⟨hd, hleft, hnot, hcut⟩
            have hslash : d ≠ '\\' := fun h => hne (hd h)
            exact ⟨⟨fun h => absurd h hslash, hleft⟩, ⟨Ne.symm hslash, hnot⟩, hcut⟩
          · rintro ⟨⟨-, hleft⟩, ⟨hslash, hnot⟩, hcut⟩
            exact ⟨fun h => absurd h.symm hslash, hleft, hnot, hcut⟩
      | escape s =>
          have hlongest : s.Longest (s.text ++ textOf (left ++ right)) ↔
              s.Longest (s.text ++ textOf left) := by
            rw [textOf_append, hright, ← List.append_assoc]
            exact Sequence.longest_append_cons_iff (by simp [s.text_ne_nil]) hc
              fun h => absurd h hfeed
          simp only [List.cons_append, IsCut, ih, hlongest, List.mem_cons, not_or, reduceCtorEq,
            not_false_eq_true, true_and, and_assoc]

end MessageHarvest.Escape
