import MessageHarvest.Proofs.Text.Meaning

/-!
# The outcome of decoding

When and how the decoder fails on a body, and what it makes of a body on which it does not fail.

* An incomplete escape is decoded as if it had no backslash (`IsCut.unescapeChars_incomplete`), and
  a backslash at the end is decoded as itself (`IsCut.unescapeChars_backslash`).
* `hasOverlarge_closed_iff`, `hasOverlarge_open_iff`: what a braced number adds to the failures of
  what stands before and behind it. It is none if its backslash is the second one of a pair or its
  closing brace is missing.
* **Outcomes** (`unescape_outcome`): a body is cut in one way only. The decoder fails exactly if one
  of the segments names a number above U+10FFFF, in the way that the first of them decides, and
  gives what the units of the segments stand for if there is none.
-/

namespace MessageHarvest.Escape

/-! ## Incomplete escapes -/

/-- A piece may be replaced by one with the same units. -/
theorem unitsOf_append_cons_congr {p q : Piece} (h : p.units = q.units)
    (before after : List Piece) :
    unitsOf (before ++ p :: after) = unitsOf (before ++ q :: after) := by
  rw [unitsOf_append, unitsOf_append, unitsOf, unitsOf, h]

/-- **Incomplete escapes** lose their backslash, and nothing else. -/
theorem IsCut.unescapeChars_incomplete {before after : List Segment} {c : Char}
    (hc : c = 'x' ∨ c = 'u') (h : IsCut (before ++ .escape (.single c) :: after)) :
    unescapeChars (textOf (before ++ .escape (.single c) :: after)) =
      unescapeChars (textOf (before ++ .char c :: after)) := by
  obtain ⟨hbefore, hslash, hescape⟩ :=
    (isCut_append_iff (.escape (.single c) :: after) rfl (by decide) (by decide)).mp h
  have hinner : Sequence.isInner c = false := by
    rcases hc with rfl | rfl <;> decide
  have hne : c ≠ '\\' ∧ c ≠ '\n' := by
    rcases hc with rfl | rfl <;> decide
  have hcut : IsCut (before ++ .char c :: after) :=
    (isCut_append_iff (.char c :: after) rfl hinner hne.2).mpr
      ⟨hbefore, hslash, fun heq => absurd heq hne.1, hescape.2⟩
  have hunits : (Segment.escape (.single c)).piece.units = (Segment.char c).piece.units := by
    rcases hc with rfl | rfl <;> rfl
  rw [unescapeChars_eq_map, unescapeChars_eq_map, h.pieces_eq, hcut.pieces_eq, List.map_append,
    List.map_append, List.map_cons, List.map_cons, unitsOf_append_cons_congr hunits]

/-- **A backslash at the end** stays. -/
theorem IsCut.unescapeChars_backslash {before : List Segment} (h : IsCut (before ++ [.char '\\'])) :
    unescapeChars (textOf (before ++ [.char '\\'])) =
      (unescapeChars (textOf before)).map (· ++ ['\\']) := by
  obtain ⟨hbefore, -, -⟩ := (isCut_append_iff [.char '\\'] rfl (by decide) (by decide)).mp h
  have hdecode (units : List UInt16) :
      Utf16.decode (units ++ [0x5C]) = Utf16.decode units ++ ['\\'] :=
    Utf16.decode_append fun v hv => Option.some.inj hv ▸ rfl
  rw [unescapeChars_eq_map, unescapeChars_eq_map, h.pieces_eq, hbefore.pieces_eq, List.map_append,
    unitsOf_append]
  cases unitsOf (before.map Segment.piece) with
  | error e => rfl
  | ok units => exact congrArg Except.ok (hdecode units)

/-! ## Braced numbers -/

/-- Decoding fails exactly if some escape names a number above U+10FFFF. -/
theorem exists_unescapeChars_eq_ok_iff {body : List Char} :
    (∃ text, unescapeChars body = .ok text) ↔ ¬ HasOverlarge body := by
  rw [← fault?_eq_none_iff, fault?_unescapeChars, Option.map_eq_none_iff,
    Option.eq_none_iff_forall_ne_some, hasOverlarge_iff, not_exists]
  exact forall_congr' fun n => not_congr (overlarge?_eq_some_iff body)

/-- Backslashes before a text without any do not count among those at its end. -/
theorem trailing_append_of_not_mem {left : List Char} (h : '\\' ∉ left) (right : List Char) :
    trailing (left ++ right) = trailing right := by
  induction left with
  | nil => rfl
  | cons c left ih =>
      rw [List.mem_cons, not_or] at h
      rw [List.cons_append, trailing_cons_of_ne (Ne.symm h.1), ih h.2]

/-- A text before a backslash ends before it if it holds none. -/
theorem prefix_of_append_eq {left after before tail : List Char} (hleft : '\\' ∉ left)
    (h : left ++ after = before ++ '\\' :: tail) : left <+: before := by
  rcases List.append_eq_append_iff.mp h with ⟨mid, rfl, -⟩ | ⟨mid, rfl, hmid⟩
  · exact List.prefix_append _ _
  · cases mid with
    | nil => exact ⟨[], by rw [List.append_nil, List.append_nil]⟩
    | cons c mid =>
        obtain rfl : '\\' = c := (List.cons.inj hmid).1
        simp at hleft

/-- The overlarge escapes of a body in which a number in braces begins: those before and those
behind its digits, and the one that begins there, if one does. -/
theorem hasOverlarge_append_iff {left digits right : List Char} (hall : allHex digits = true) :
    HasOverlarge (left ++ '\\' :: 'u' :: '{' :: (digits ++ right)) ↔
      HasOverlarge left ∨ HasOverlarge right ∨ trailing left % 2 = 0 ∧
        ∃ ds after, ds ≠ [] ∧ allHex ds = true ∧ 0x10FFFF < hexValue 0 ds ∧
          digits ++ right = ds ++ '}' :: after := by
  have hdigits {ds : List Char} (hds : allHex ds = true) : '\\' ∉ ds :=
    not_mem_of_allHex (by decide) hds
  have htrailing (before : List Char) :
      trailing (left ++ '\\' :: 'u' :: '{' :: (digits ++ before)) = trailing before := by
    rw [List.append_cons, List.append_cons, trailing_append_cons_of_ne (by decide),
      trailing_append_of_not_mem (hdigits hall)]
  constructor
  · rintro ⟨before, n, ⟨hpar, ds, after, hne, hds, rfl, heq⟩, hn⟩
    rcases List.append_eq_append_iff.mp heq with ⟨mid, rfl, hmid⟩ | ⟨mid, rfl, hmid⟩
    · cases mid with
      | nil =>
          rw [List.append_nil] at hpar
          refine .inr (.inr ⟨hpar, ds, after, hne, hds, hn, ?_⟩)
          simpa using hmid
      | cons c mid =>
          -- the escape begins behind the digits
          obtain ⟨rfl, htail⟩ : '\\' = c ∧ 'u' :: '{' :: (digits ++ right) =
              mid ++ '\\' :: 'u' :: '{' :: (ds ++ '}' :: after) := List.cons.inj hmid
          have hnot : '\\' ∉ 'u' :: '{' :: digits := by simpa using hdigits hall
          obtain ⟨before, rfl⟩ := prefix_of_append_eq hnot htail
          refine .inr (.inl ⟨before, _, ⟨?_, ds, after, hne, hds, rfl, ?_⟩, hn⟩)
          · rw [← htrailing]
            exact hpar
          · simpa using htail
    · cases mid with
      | nil =>
          refine .inr (.inr ⟨by simpa using hpar, ds, after, hne, hds, hn, ?_⟩)
          simpa using hmid.symm
      | cons c mid =>
          -- the escape ends before the backslash
          obtain ⟨rfl, htail⟩ : '\\' = c ∧ 'u' :: '{' :: (ds ++ '}' :: after) =
              mid ++ '\\' :: 'u' :: '{' :: (digits ++ right) := List.cons.inj hmid
          have hnot : '\\' ∉ 'u' :: '{' :: (ds ++ ['}']) := by simpa using hdigits hds
          have hspan : 'u' :: '{' :: (ds ++ ['}']) ++ after =
              mid ++ '\\' :: 'u' :: '{' :: (digits ++ right) := by
            simpa using htail
          obtain ⟨rest, rfl⟩ := prefix_of_append_eq hnot hspan
          exact .inl ⟨before, _, ⟨hpar, ds, rest, hne, hds, rfl, by simp⟩, hn⟩
  · rintro (⟨before, n, ⟨hpar, ds, after, hne, hds, hval, rfl⟩, hn⟩ |
      ⟨before, n, ⟨hpar, ds, after, hne, hds, hval, rfl⟩, hn⟩ |
      ⟨hpar, ds, after, hne, hds, hn, heq⟩)
    · exact ⟨before, n, ⟨hpar, ds, after ++ '\\' :: 'u' :: '{' :: (digits ++ right), hne, hds, hval,
        by simp⟩, hn⟩
    · refine ⟨left ++ '\\' :: 'u' :: '{' :: (digits ++ before), n, ⟨?_, ds, after, hne, hds, hval,
        by simp⟩, hn⟩
      rwa [htrailing]
    · exact ⟨left, _, ⟨hpar, ds, after, hne, hds, rfl, by rw [heq]⟩, hn⟩

/-- **A number in braces** adds an overlarge escape if it is too large and its backslash is not the
second one of a pair. -/
theorem hasOverlarge_closed_iff {left digits right : List Char} (hall : allHex digits = true) :
    HasOverlarge (left ++ '\\' :: 'u' :: '{' :: (digits ++ '}' :: right)) ↔
      HasOverlarge left ∨ HasOverlarge right ∨
        trailing left % 2 = 0 ∧ 0x10FFFF < hexValue 0 digits := by
  have hright : HasOverlarge ('}' :: right) ↔ HasOverlarge right := by
    have hbrace : '}' ≠ '\\' := by decide
    simp only [hasOverlarge_iff, ← overlarge?_eq_some_iff, overlarge?_cons_of_ne hbrace]
  rw [hasOverlarge_append_iff hall, hright]
  refine or_congr_right (or_congr_right (and_congr_right fun _ => ?_))
  constructor
  · rintro ⟨ds, after, -, hds, hn, heq⟩
    have htake := congrArg (List.takeWhile fun d => (hexDigit? d).isSome) heq
    rw [takeWhile_hex hall, takeWhile_hex hds] at htake
    rwa [htake]
  · intro hn
    refine ⟨digits, right, ?_, hall, hn, rfl⟩
    rintro rfl
    cases hn

/-- **Without its closing brace** a number adds none. -/
theorem hasOverlarge_open_iff {left digits right : List Char} (hall : allHex digits = true)
    (hright : ∀ c ∈ right.head?, hexDigit? c = none ∧ c ≠ '}') :
    HasOverlarge (left ++ '\\' :: 'u' :: '{' :: (digits ++ right)) ↔
      HasOverlarge left ∨ HasOverlarge right := by
  rw [hasOverlarge_append_iff hall]
  refine or_congr_right (or_iff_left ?_)
  rintro ⟨-, ds, after, -, hds, -, heq⟩
  have htake := congrArg (List.takeWhile fun d => (hexDigit? d).isSome) heq
  have hstop : right.takeWhile (fun d => (hexDigit? d).isSome) = [] := by
    cases right with
    | nil => rfl
    | cons c right => exact List.takeWhile_cons_of_neg (by simp [(hright c rfl).1])
  rw [List.takeWhile_append_of_pos (fun d hd => List.all_eq_true.mp hall d hd), hstop,
    List.append_nil, takeWhile_hex hds] at htake
  subst htake
  obtain rfl := List.append_cancel_left heq
  exact (hright '}' rfl).2 rfl

/-! ## Outcomes -/

/-- Decoding the body gives a text. -/
def Decodes (body : List Char) : Prop :=
  ∃ text, unescape (String.ofList body) = .ok text

/-- A body is decoded iff it has no escape above U+10FFFF. -/
theorem decodes_iff {body : List Char} : Decodes body ↔ ¬ HasOverlarge body := by
  rw [← exists_unescapeChars_eq_ok_iff, Decodes, unescape, String.toList_ofList]
  cases unescapeChars body with
  | error e => simp [Except.map]
  | ok text => simp [Except.map]

/-- What decoding a text comes to, said of the segments of the text. -/
structure Outcome (raw : String) (segments : List Segment) : Prop where
  /-- The text is cut into these segments and into no others. -/
  cut : ∀ segments', textOf segments' = raw.toList ∧ IsCut segments' ↔ segments' = segments
  /-- It fails as the first segment says that names a number above U+10FFFF. -/
  fails : ∀ e, unescape raw = .error e ↔ ∃ before first more after,
    segments = before ++ .escape (.braced first more) :: after ∧
    (∀ g ∈ before, ¬ g.Overlarge) ∧ 0x10FFFF < number (first :: more) ∧
    e = if 0x7FFFFFFF < number (first :: more) then .tooLarge else .outOfRange
  /-- If there is no such segment, it gives what the units of the segments stand for. -/
  gives : (∀ g ∈ segments, ¬ g.Overlarge) → ∃ text, unescape raw = .ok (String.ofList text) ∧
    Utf16.StandsFor (segments.flatMap Segment.units) text
  /-- An incomplete escape loses its backslash only. -/
  incomplete : ∀ before c after, c = 'x' ∨ c = 'u' →
    segments = before ++ .escape (.single c) :: after →
    unescape raw = unescape (String.ofList (textOf before ++ c :: textOf after))
  /-- A backslash that nothing follows stays. -/
  backslash : ∀ before, segments = before ++ [.char '\\'] →
    unescape raw = (unescape (String.ofList (textOf before))).map (· ++ "\\")

/-- A text is decoded as its segments are. -/
theorem unescape_eq_of_textOf_eq {raw : String} {segments : List Segment}
    (h : textOf segments = raw.toList) :
    unescape raw = (unescapeChars (textOf segments)).map String.ofList := by
  rw [unescape, h]

/-- Each text has such segments. -/
theorem exists_outcome (raw : String) : ∃ segments, Outcome raw segments := by
  obtain ⟨segments, hcut⟩ := exists_cut_iff_eq raw.toList
  obtain ⟨htext, h⟩ := (hcut segments).mpr rfl
  have hunescape := unescape_eq_of_textOf_eq htext
  refine ⟨segments, hcut, fun e => ?_, fun hall => ?_, ?_, ?_⟩
  · have herror : unescape raw = .error e ↔ unescapeChars (textOf segments) = .error e := by
      rw [hunescape]
      cases unescapeChars (textOf segments) <;> simp [Except.map]
    have hfailure (n : Nat) :
        failure n = e ↔ e = if 0x7FFFFFFF < n then .tooLarge else .outOfRange := by
      rw [failure, eq_comm]
      rcases Nat.lt_or_ge 0x7FFFFFFF n with hlt | hle
      · rw [if_neg (Nat.not_le.mpr hlt), if_pos hlt]
      · rw [if_pos hle, if_neg (Nat.not_lt.mpr hle)]
    simp only [herror, h.unescapeChars_eq_error_iff, hfailure]
  · refine ⟨_, ?_, Utf16.standsFor_decode _⟩
    rw [hunescape, h.unescapeChars_eq hall]
    rfl
  · rintro before c after hc rfl
    rw [hunescape, h.unescapeChars_incomplete hc, textOf_append]
    simp [unescape, textOf_cons_char]
  · rintro before rfl
    rw [hunescape, h.unescapeChars_backslash, unescape, String.toList_ofList]
    cases unescapeChars (textOf before) with
    | error e => rfl
    | ok text => simp [Except.map]

/-- **Outcomes**: decoding a text comes to what its segments say. A number in braces makes it fail
only if it is above U+10FFFF, has its closing brace, and its backslash is not the second one of a
pair. -/
theorem unescape_outcome :
    (∀ raw, ∃ segments, Outcome raw segments) ∧
    Error.outOfRange.message? = some "chr() arg not in range(0x110000)" ∧
    (∀ (left : List Char) (digits : List HexDigit) (right : List Char),
      Decodes (left ++ '\\' :: 'u' :: '{' :: (digits.map HexDigit.char ++ '}' :: right)) ↔
        Decodes left ∧ Decodes right ∧ (trailing left % 2 = 0 → number digits ≤ 0x10FFFF)) ∧
    (∀ (left : List Char) (digits : List HexDigit) (right : List Char),
      (∀ c ∈ right.head?, hexDigit? c = none ∧ c ≠ '}') →
      (Decodes (left ++ '\\' :: 'u' :: '{' :: (digits.map HexDigit.char ++ right)) ↔
        Decodes left ∧ Decodes right)) := by
  refine ⟨exists_outcome, rfl, fun left digits right => ?_, fun left digits right hright => ?_⟩
  · simp only [decodes_iff, hasOverlarge_closed_iff (allHex_map_char digits), number_eq, not_or,
      not_and, Nat.not_lt]
  · simp only [decodes_iff, hasOverlarge_open_iff (allHex_map_char digits) hright, not_or]

end MessageHarvest.Escape
