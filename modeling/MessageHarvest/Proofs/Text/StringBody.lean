import MessageHarvest.Proofs.Text.Meaning

/-!
# The body of a string literal

What may stand between the quotes of a string literal, by the rules of ECMAScript without the octal
escapes of old programs, and what it is decoded to.

* `IsStringBody segments`: the segments make the body of a string literal.
* Each of them takes as much as it can, so that the decoder cuts their text into the same segments
  (`IsStringBody.isCut`), and none names a number above U+10FFFF.
* **String literals** (`unescape_eq_of_isStringBody`): the body of a string literal is decoded to
  the one text that the units of its parts stand for.
-/

namespace MessageHarvest.Escape

/-- The segments make the body of a string literal. -/
inductive IsStringBody : List Segment → Prop
  | nil : IsStringBody []
  /-- A character that stands for itself. -/
  | character {c : Char} {rest : List Segment} (hslash : c ≠ '\\') (hreturn : c ≠ '\r')
      (hfeed : c ≠ '\n') (h : IsStringBody rest) : IsStringBody (.char c :: rest)
  /-- A backslash before a character that begins no other form: a quote, a backslash, one of the
  letters that stand for a control character, or one that stands for itself. -/
  | single {c : Char} {rest : List Segment} (hdigit : c.isDigit = false) (hbyte : c ≠ 'x')
      (hunit : c ≠ 'u') (hend : c ∉ lineTerminators) (h : IsStringBody rest) :
      IsStringBody (.escape (.single c) :: rest)
  /-- A zero that no decimal digit follows. -/
  | zero {rest : List Segment} (hnext : ∀ c ∈ (textOf rest).head?, c.isDigit = false)
      (h : IsStringBody rest) : IsStringBody (.escape (.single '0') :: rest)
  | byte {a b : HexDigit} {rest : List Segment} (h : IsStringBody rest) :
      IsStringBody (.escape (.byte a b) :: rest)
  | unit {a b c d : HexDigit} {rest : List Segment} (h : IsStringBody rest) :
      IsStringBody (.escape (.unit a b c d) :: rest)
  | braced {first : HexDigit} {more : List HexDigit} {rest : List Segment}
      (hle : number (first :: more) ≤ 0x10FFFF) (h : IsStringBody rest) :
      IsStringBody (.escape (.braced first more) :: rest)
  /-- A line that goes on after its end, which is one character … -/
  | lineEnd {c : Char} {rest : List Segment} (hend : c ∈ lineTerminators) (h : IsStringBody rest) :
      IsStringBody (.escape (.single c) :: rest)
  /-- … or carriage return and line feed. -/
  | lineEnds {rest : List Segment} (h : IsStringBody rest) :
      IsStringBody (.escape .lineEnds :: rest)

namespace IsStringBody

variable {segments : List Segment}

/-- A line feed stands behind a backslash or a carriage return only. -/
theorem head?_ne (h : IsStringBody segments) : (textOf segments).head? ≠ some '\n' := by
  cases h with
  | nil => exact nofun
  | character _ _ hfeed => exact fun heq => hfeed (Option.some.inj heq)
  | _ => exact fun heq => absurd (Option.some.inj heq) (by decide)

/-- **Parts** of a body are the segments into which it is cut. -/
theorem isCut (h : IsStringBody segments) : IsCut segments := by
  have longest {s : Sequence} {rest : List Segment} (hbyte : s ≠ .single 'x')
      (hunit : s ≠ .single 'u') (h : IsStringBody rest) : s.Longest (s.text ++ textOf rest) :=
    Sequence.longest_append hbyte hunit fun _ => h.head?_ne
  have single_ne {c d : Char} (hcd : c ≠ d) : Sequence.single c ≠ .single d :=
    fun heq => hcd (Sequence.single.inj heq)
  induction h with
  | nil => trivial
  | character hslash _ _ _ ih => exact ⟨fun heq => absurd heq hslash, ih⟩
  | single _ hbyte hunit _ h ih => exact ⟨longest (single_ne hbyte) (single_ne hunit) h, ih⟩
  | zero _ h ih => exact ⟨longest (by decide) (by decide) h, ih⟩
  | byte h ih => exact ⟨longest nofun nofun h, ih⟩
  | unit h ih => exact ⟨longest nofun nofun h, ih⟩
  | braced _ h ih => exact ⟨longest nofun nofun h, ih⟩
  | lineEnd hend h ih =>
      have hne {d : Char} (hd : d ∉ lineTerminators) : Sequence.single _ ≠ .single d :=
        single_ne fun heq => hd (heq ▸ hend)
      exact ⟨longest (hne (by decide)) (hne (by decide)) h, ih⟩
  | lineEnds h ih => exact ⟨longest nofun nofun h, ih⟩

/-- No segment of the body of a string names a number above U+10FFFF. -/
theorem not_overlarge (h : IsStringBody segments) : ∀ g ∈ segments, ¬ g.Overlarge := by
  induction h with
  | nil => exact nofun
  | braced hle _ ih =>
      refine List.forall_mem_cons.mpr ⟨?_, ih⟩
      rintro ⟨first, more, heq, hlt⟩
      cases heq
      omega
  | _ =>
      refine List.forall_mem_cons.mpr ⟨?_, ‹_›⟩
      rintro ⟨first, more, heq, -⟩
      cases heq

end IsStringBody

/-- **String literals**: the body of a string literal is decoded to the one text that its units
stand for. -/
theorem unescape_eq_of_isStringBody {raw : String} {segments : List Segment}
    (hraw : raw.toList = textOf segments) (h : IsStringBody segments) :
    ∃ text, unescape raw = .ok (String.ofList text) ∧
      ∀ text', Utf16.StandsFor (segments.flatMap Segment.units) text' ↔ text' = text := by
  refine ⟨Utf16.decode (segments.flatMap Segment.units), ?_, fun _ => Utf16.standsFor_iff⟩
  rw [unescape, hraw, h.isCut.unescapeChars_eq h.not_overlarge]
  rfl

/-- A pair of surrogates, spelled in two ways and on two lines, and other escapes before a surrogate
that stands alone. -/
def splitPair : List Segment :=
  [.escape (.braced (.decimal 0) [.upper 3, .decimal 8, .decimal 3, .lower 3]), .escape .lineEnds,
    .escape (.unit (.upper 3) (.upper 4) (.decimal 0) (.decimal 0)), .char '\u2028',
    .escape (.single '0'), .escape (.byte (.decimal 3) (.decimal 1)), .escape (.single '\\'),
    .escape (.single '\r'), .escape (.single 'q'),
    .escape (.unit (.upper 3) (.decimal 8) (.decimal 0) (.decimal 0))]

/-- `unescape_eq_of_isStringBody` there. -/
theorem unescape_splitPair :
    "\\u\x7b0D83d\x7d\\\r\n\\uDE00\u2028\\0\\x31\\\\\\\r\\q\\uD800".toList = textOf splitPair ∧
    IsStringBody splitPair ∧
    unescape "\\u\x7b0D83d\x7d\\\r\n\\uDE00\u2028\\0\\x31\\\\\\\r\\q\\uD800" =
      .ok "😀\u2028\x001\\q\uFFFD" := by
  have hraw : "\\u\x7b0D83d\x7d\\\r\n\\uDE00\u2028\\0\\x31\\\\\\\r\\q\\uD800".toList =
      textOf splitPair := by
    decide +kernel
  have hbody : IsStringBody splitPair :=
    .braced (by decide) <| .lineEnds <| .unit <|
      .character (by decide) (by decide) (by decide) <|
      .zero (fun _ hc => Option.some.inj hc ▸ rfl) <| .byte <|
      .single (by decide) (by decide) (by decide) (by decide) <| .lineEnd (by decide) <|
      .single (by decide) (by decide) (by decide) (by decide) <| .unit .nil
  obtain ⟨text, hvalue, htext⟩ := unescape_eq_of_isStringBody hraw hbody
  have hdecode := (htext _).mp (Utf16.standsFor_decode _)
  refine ⟨hraw, hbody, hvalue.trans ?_⟩
  rw [← hdecode]
  decide +kernel

end MessageHarvest.Escape
