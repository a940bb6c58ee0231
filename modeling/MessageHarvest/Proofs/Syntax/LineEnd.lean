import MessageHarvest.Proofs.Syntax.Literal
import MessageHarvest.Proofs.Text.Meaning

/-!
# Line ends in literals

The lines of a program may end in line feeds or in carriage return and line feed. Its literals stand
for the same either way, and a line end that is written as an escape is not taken for one.

* `withCrLf text`: the text with carriage return and line feed for each line feed.
* In a string the line feed that a backslash takes with it becomes the other line end that a
  backslash takes, and no other escape changes (`IsCut.map_withCrLf`); hence the pieces are the same
  (`IsCut.pieces_withCrLf`). A template is decoded after the replacement has been undone
  (`Node.singleLineEnds_withCrLf`).
* `TemplatePart`: what the body of a template is made of, if carriage returns stand in it only
  before line feeds. It is read as the segments that are left once its line ends are line feeds
  (`TemplatePart.isCut_map_segment`, `Node.singleLineEnds_bodyOf`).
* **Line ends** (`Node.literal_lineEnds`): templates and strings before and after the replacement,
  and what a template with both kinds of line ends stands for.
-/

namespace MessageHarvest

namespace Escape

/-! ## Longer line ends -/

/-- The text with carriage return and line feed for each line feed. -/
def withCrLf (text : List Char) : List Char :=
  text.flatMap fun c => if c = '\n' then ['\r', '\n'] else [c]

/-- Line ends are rewritten text by text. -/
theorem withCrLf_append (left right : List Char) :
    withCrLf (left ++ right) = withCrLf left ++ withCrLf right :=
  List.flatMap_append

/-- Any other character stays. -/
theorem withCrLf_cons_of_ne {c : Char} (hc : c ≠ '\n') (rest : List Char) :
    withCrLf (c :: rest) = c :: withCrLf rest := by
  rw [withCrLf, List.flatMap_cons, if_neg hc]
  rfl

/-- A text without line feeds stays. -/
theorem withCrLf_of_not_mem {text : List Char} (h : '\n' ∉ text) : withCrLf text = text := by
  induction text with
  | nil => rfl
  | cons c text ih =>
      rw [List.mem_cons, not_or] at h
      rw [withCrLf_cons_of_ne (Ne.symm h.1), ih h.2]

/-- A sequence that takes a line end consists of it. -/
theorem Sequence.eq_or_of_mem_text {s : Sequence} {c : Char} (hc : c = '\n' ∨ c = '\r')
    (h : c ∈ s.text) : s = .single c ∨ s = .lineEnds := by
  have hdigit (d : HexDigit) : c ≠ d.char :=
    (d.char_ne (by rcases hc with rfl | rfl <;> decide)).symm
  have hletter : c ≠ 'u' ∧ c ≠ 'x' ∧ c ≠ '{' ∧ c ≠ '}' := by
    rcases hc with rfl | rfl <;> decide
  cases s with
  | braced | unit | byte => simp [text, hdigit, Ne.symm (hdigit _), hletter] at h
  | lineEnds => exact .inr rfl
  | single d => exact .inl (congrArg single (List.mem_singleton.mp h).symm)

/-- Where a sequence is the longest one, it still is once the line feeds behind it have become
longer line ends, since that is decided before the first of them. -/
theorem Sequence.Longest.append_withCrLf {s : Sequence} {rest : List Char}
    (h : s.Longest (s.text ++ rest)) (hreturn : '\r' ∉ s.text ++ rest) :
    s.Longest (s.text ++ withCrLf rest) := by
  by_cases hmem : '\n' ∈ rest
  · obtain ⟨line, after, rfl, hline⟩ := List.eq_append_cons_of_mem hmem
    rw [← List.append_assoc] at h hreturn
    have hne : s.text ++ line ≠ [] := by simp [s.text_ne_nil]
    have hfirst : s.text ++ line ≠ ['\r'] := fun heq => hreturn (by simp [heq])
    have hdecided : s.Longest (s.text ++ line) :=
      (longest_append_cons_iff hne rfl fun _ => hfirst).mp h
    have hstill : s.Longest ((s.text ++ line) ++ '\r' :: '\n' :: withCrLf after) :=
      (longest_append_cons_iff hne rfl fun heq => absurd heq (by decide)).mpr hdecided
    rw [withCrLf_append, withCrLf_of_not_mem hline, ← List.append_assoc]
    exact hstill
  · rwa [withCrLf_of_not_mem hmem]

/-! ## Line ends behind a backslash -/

/-- The segment that takes a longer line end if this one takes a line feed. -/
def Segment.withCrLf (g : Segment) : Segment :=
  if g = .escape (.single '\n') then .escape .lineEnds else g

/-- A segment stands for the same, whatever its line ends. -/
theorem Segment.piece_withCrLf (g : Segment) : g.withCrLf.piece = g.piece := by
  rw [withCrLf]
  split
  · subst g
    rfl
  · rfl

/-- The text of a segment is rewritten, unless the segment is a line feed itself. -/
theorem Segment.text_withCrLf {g : Segment} (hreturn : '\r' ∉ g.text) (hfeed : g ≠ .char '\n') :
    g.withCrLf.text = Escape.withCrLf g.text := by
  rw [withCrLf]
  split
  · subst g
    rfl
  · refine (withCrLf_of_not_mem fun hmem => ?_).symm
    cases g with
    | char c => exact hfeed (congrArg char (List.mem_singleton.mp hmem).symm)
    | escape s =>
        have hs : '\n' ∈ s.text := (List.mem_cons.mp hmem).resolve_left (by decide)
        rcases Sequence.eq_or_of_mem_text (.inl rfl) hs with rfl | rfl
        · contradiction
        · exact hreturn (by decide)

/-- So is the text of segments without such line feeds. -/
theorem textOf_map_withCrLf {segments : List Segment} (hreturn : '\r' ∉ textOf segments)
    (hfeed : .char '\n' ∉ segments) :
    textOf (segments.map Segment.withCrLf) = withCrLf (textOf segments) := by
  induction segments with
  | nil => rfl
  | cons g segments ih =>
      rw [List.mem_cons, not_or] at hfeed
      have htext : textOf (g :: segments) = g.text ++ textOf segments := List.flatMap_cons
      rw [htext, List.mem_append, not_or] at hreturn
      rw [htext, withCrLf_append, ← Segment.text_withCrLf hreturn.1 (Ne.symm hfeed.1),
        ← ih hreturn.2 hfeed.2]
      rfl

/-- **Cuts** stay where they are if each line feed is taken by a backslash. -/
theorem IsCut.map_withCrLf {segments : List Segment} (h : IsCut segments)
    (hreturn : '\r' ∉ textOf segments) (hfeed : .char '\n' ∉ segments) :
    IsCut (segments.map Segment.withCrLf) := by
  induction segments with
  | nil => trivial
  | cons g segments ih =>
      rw [List.mem_cons, not_or] at hfeed
      cases g with
      | char c =>
          rw [textOf_cons_char, List.mem_cons, not_or] at hreturn
          exact ⟨fun hslash => by rw [h.1 hslash]; rfl, ih h.2 hreturn.2 hfeed.2⟩
      | escape s =>
          rw [textOf_cons_escape, List.mem_cons, not_or] at hreturn
          have hrest : '\r' ∉ textOf segments := fun hmem =>
            hreturn.2 (List.mem_append_right _ hmem)
          rw [List.map_cons, Segment.withCrLf]
          split
          · exact ⟨Sequence.longest_append nofun nofun nofun, ih h.2 hrest hfeed.2⟩
          · refine ⟨?_, ih h.2 hrest hfeed.2⟩
            rw [textOf_map_withCrLf hrest hfeed.2]
            exact h.1.append_withCrLf hreturn.2

/-- **Pieces** are the same with either kind of line end if each is taken by a backslash. -/
theorem IsCut.pieces_withCrLf {segments : List Segment} (h : IsCut segments)
    (hreturn : '\r' ∉ textOf segments) (hfeed : .char '\n' ∉ segments) :
    pieces (withCrLf (textOf segments)) = pieces (textOf segments) := by
  rw [← textOf_map_withCrLf hreturn hfeed, (h.map_withCrLf hreturn hfeed).pieces_eq, h.pieces_eq,
    List.map_map]
  exact List.map_congr_left fun g _ => g.piece_withCrLf

/-! ## Parts of a template -/

/-- The sequence is not the beginning of a longer one, and a number that it names is that of a code
point. -/
def Sequence.IsComplete : Sequence → Prop
  | braced first more => number (first :: more) ≤ 0x10FFFF
  | single c => c ≠ 'x' ∧ c ≠ 'u' ∧ c ≠ '\r'
  | _ => True

instance : (s : Sequence) → Decidable s.IsComplete
  | .braced first more => inferInstanceAs (Decidable (number (first :: more) ≤ 0x10FFFF))
  | .single c => inferInstanceAs (Decidable (c ≠ 'x' ∧ c ≠ 'u' ∧ c ≠ '\r'))
  | .unit .. | .byte .. | .lineEnds => .isTrue trivial

/-- A part of the body of a template whose carriage returns all stand before line feeds. -/
inductive TemplatePart where
  | char (c : Char) (hreturn : c ≠ '\r') (hslash : c ≠ '\\')
  /-- Carriage return and line feed without a backslash. -/
  | lineEnd
  | escape (s : Sequence) (h : s.IsComplete)

namespace TemplatePart

/-- The characters of a part. -/
def text : TemplatePart → List Char
  | char c _ _ => [c]
  | lineEnd => ['\r', '\n']
  | escape s _ => '\\' :: s.text

/-- The code point that a part stands for. A line end is one line feed, and nothing after a
backslash. -/
def codePoint? : TemplatePart → Option Nat
  | char c _ _ => some c.toNat
  | lineEnd => some '\n'.toNat
  | escape s _ => s.codePoint?

/-- The body that parts make. -/
def bodyOf (parts : List TemplatePart) : List Char :=
  parts.flatMap text

/-- The text that parts stand for, as their code points come one after the other. -/
def Value (parts : List TemplatePart) (text : List Char) : Prop :=
  Utf16.StandsFor ((parts.filterMap codePoint?).flatMap Utf16.ofCodePoint) text

/-- **A character** that a part stands for is kept as it is at its place, whichever parts stand next
to it. -/
theorem value_append_cons_iff {before after : List TemplatePart} {part : TemplatePart} {c : Char}
    {text : List Char} (h : part.codePoint? = some c.toNat) :
    Value (before ++ part :: after) text ↔
      ∃ left right, Value before left ∧ Value after right ∧ text = left ++ c :: right := by
  rw [Value, List.filterMap_append, List.filterMap_cons_some h, List.flatMap_append,
    List.flatMap_cons, Utf16.standsFor_append_ofCodePoint_iff]
  rfl

/-- The segment that is left of a part once its line end is a line feed. -/
def segment : TemplatePart → Segment
  | char c _ _ => .char c
  | lineEnd => .char '\n'
  | escape s _ => if s = .lineEnds then .escape (.single '\n') else .escape s

/-- A part of a template has the units of its character, if it stands for one. -/
theorem units_segment (part : TemplatePart) :
    part.segment.units = (part.codePoint?.map Utf16.ofCodePoint).getD [] := by
  cases part with
  | char | lineEnd => rfl
  | escape s h =>
      rw [segment]
      split
      · subst s
        rfl
      · rfl

/-- The units of parts are those of their characters, one after the other. -/
theorem flatMap_units_segment (parts : List TemplatePart) :
    (parts.map segment).flatMap Segment.units =
      (parts.filterMap codePoint?).flatMap Utf16.ofCodePoint := by
  induction parts with
  | nil => rfl
  | cons part parts ih =>
      rw [List.map_cons, List.flatMap_cons, units_segment, ih]
      cases hpart : part.codePoint? with
      | none => rw [List.filterMap_cons_none hpart]; rfl
      | some n => rw [List.filterMap_cons_some hpart, List.flatMap_cons]; rfl

/-- No part of a template names a number above U+10FFFF. -/
theorem not_overlarge_segment (part : TemplatePart) : ¬ part.segment.Overlarge := by
  rintro ⟨first, more, heq, hlt⟩
  cases part with
  | char | lineEnd => cases heq
  | escape s h =>
      rw [segment] at heq
      split at heq
      · cases heq
      · cases heq
        exact Nat.not_lt.mpr h hlt

/-- **Segments**: no part takes characters of the next one. -/
theorem isCut_map_segment (parts : List TemplatePart) : IsCut (parts.map segment) := by
  induction parts with
  | nil => trivial
  | cons part parts ih =>
      rw [List.map_cons]
      cases part with
      | char c _ hslash => exact ⟨fun heq => absurd heq hslash, ih⟩
      | lineEnd => exact ⟨fun heq => absurd heq (by decide), ih⟩
      | escape s h =>
          rw [segment]
          split
          · exact ⟨Sequence.longest_append (by decide) (by decide) fun heq =>
              absurd heq (by decide), ih⟩
          · refine ⟨Sequence.longest_append ?_ ?_ ?_, ih⟩
            · rintro rfl
              exact h.1 rfl
            · rintro rfl
              exact h.2.1 rfl
            · rintro rfl
              exact absurd rfl h.2.2

end TemplatePart

end Escape

namespace Node

open Escape

/-- **Templates**: longer line ends are undone before anything else happens. -/
theorem singleLineEnds_withCrLf {text : List Char} (h : '\r' ∉ text) :
    singleLineEnds (withCrLf text) = text := by
  induction text with
  | nil => rfl
  | cons c text ih =>
      rw [List.mem_cons, not_or] at h
      by_cases hc : c = '\n'
      · subst hc
        exact congrArg ('\n' :: ·) (ih h.2)
      · rw [withCrLf_cons_of_ne hc, singleLineEnds_cons fun heq => absurd heq.symm h.1, ih h.2]

/-- The body that parts make is read as their segments. -/
theorem singleLineEnds_bodyOf (parts : List TemplatePart) :
    singleLineEnds (TemplatePart.bodyOf parts) = textOf (parts.map TemplatePart.segment) := by
  induction parts with
  | nil => rfl
  | cons part parts ih =>
      have hbody : TemplatePart.bodyOf (part :: parts) =
          part.text ++ TemplatePart.bodyOf parts := List.flatMap_cons
      rw [hbody, List.map_cons]
      cases part with
      | char c hreturn _ =>
          exact (singleLineEnds_cons fun heq => absurd heq hreturn).trans (congrArg (c :: ·) ih)
      | lineEnd => exact congrArg ('\n' :: ·) ih
      | escape s h =>
          rw [TemplatePart.text, TemplatePart.segment, List.cons_append,
            singleLineEnds_cons fun heq => absurd heq (by decide)]
          split
          · subst s
            exact congrArg ('\\' :: '\n' :: ·) ih
          · rename_i hs
            have hreturn : '\r' ∉ s.text := fun hmem => by
              rcases Sequence.eq_or_of_mem_text (.inr rfl) hmem with rfl | rfl
              · exact h.2.2 rfl
              · exact hs rfl
            rw [singleLineEnds_append_of_not_mem hreturn, ih, textOf_cons_escape]

/-- A plain template is decoded with single line ends. -/
theorem staticValue?_of_isPlainTemplate {src : Source} {n : Node} (h : n.isPlainTemplate = true) :
    n.staticValue? src =
      (unescapeChars (singleLineEnds (n.body src))).map (some <| String.ofList ·) := by
  have hkind : n.kind = Kind.templateString := by
    rw [isPlainTemplate, Bool.and_eq_true, decide_eq_true_eq] at h
    exact h.1
  have hstring : n.kind ≠ Kind.string := by
    rw [hkind]
    decide
  rw [staticValue?, if_neg hstring, if_pos h]
  rfl

/-- **Line ends**: replacing line feeds by carriage return and line feed changes neither what a
template stands for nor, if a backslash takes each of them, what a string stands for. A template in
which both kinds of line ends and any escapes stand is read part by part; what an escape stands for
is kept as it is, a line end as well. -/
theorem literal_lineEnds :
    (∀ (src src' : Source) (n n' : Node), n.isPlainTemplate = true → n'.isPlainTemplate = true →
      '\r' ∉ n.body src → n'.body src' = withCrLf (n.body src) →
      n'.staticValue? src' = n.staticValue? src) ∧
    (∀ (src src' : Source) (n n' : Node) (segments : List Segment),
      n.kind = Kind.string → n'.kind = Kind.string →
      '\r' ∉ n.body src → n'.body src' = withCrLf (n.body src) →
      n.body src = textOf segments → IsCut segments → .char '\n' ∉ segments →
      n'.stringValue? src' = n.stringValue? src) ∧
    (∀ (src : Source) (n : Node) (parts : List TemplatePart), n.isPlainTemplate = true →
      n.body src = TemplatePart.bodyOf parts →
      ∃ text, n.staticValue? src = .ok (some (String.ofList text)) ∧
        ∀ text', TemplatePart.Value parts text' ↔ text' = text) ∧
    (∀ (before after : List TemplatePart) (part : TemplatePart) (c : Char) (text : List Char),
      part.codePoint? = some c.toNat →
      (TemplatePart.Value (before ++ part :: after) text ↔
        ∃ left right, TemplatePart.Value before left ∧ TemplatePart.Value after right ∧
          text = left ++ c :: right)) := by
  refine ⟨fun src src' n n' hn hn' hreturn hbody => ?_,
    fun src src' n n' segments hn hn' hreturn hbody htext hcut hfeed => ?_,
    fun src n parts hn hbody => ?_, fun _ _ _ _ _ => TemplatePart.value_append_cons_iff⟩
  · have hsame : singleLineEnds (n'.body src') = singleLineEnds (n.body src) := by
      rw [hbody, singleLineEnds_withCrLf hreturn, singleLineEnds_of_not_mem hreturn]
    rw [staticValue?_of_isPlainTemplate hn', staticValue?_of_isPlainTemplate hn, hsame]
  · have hdecoded : unescapeChars (n'.body src') = unescapeChars (n.body src) := by
      rw [unescapeChars_eq_map, unescapeChars_eq_map, hbody, htext,
        hcut.pieces_withCrLf (htext ▸ hreturn) hfeed]
    rw [stringValue?, stringValue?, if_pos hn', if_pos hn]
    exact congrArg (fun x => (x.map String.ofList).map some) hdecoded
  · refine ⟨_, ?_, fun _ => Utf16.standsFor_iff⟩
    rw [staticValue?_of_isPlainTemplate hn, hbody, singleLineEnds_bodyOf,
      (TemplatePart.isCut_map_segment parts).unescapeChars_eq, TemplatePart.flatMap_units_segment]
    · rfl
    · rintro g hg
      obtain ⟨part, -, rfl⟩ := List.mem_map.mp hg
      exact part.not_overlarge_segment

/-- A literal that is the whole of a program. -/
def wholeLiteral (kind : String) (src : Source) : Node :=
  ⟨kind, true, none, some ⟨0, src.size⟩, []⟩

/-- `literal_lineEnds` for a template and a string with longer line ends, and for a template with
escaped line ends next to one of each kind. -/
theorem literal_mixedLineEnds :
    (wholeLiteral Kind.templateString "`a\\\\\\\r\nb\r\n`".toUTF8).staticValue?
      "`a\\\\\\\r\nb\r\n`".toUTF8 = .ok (some "a\\b\n") ∧
    (wholeLiteral Kind.string "'a\\\r\nb'".toUTF8).stringValue? "'a\\\r\nb'".toUTF8 =
      .ok (some "ab") ∧
    (wholeLiteral Kind.templateString "`\\r\\n\r\n\\\r\n\\x0D\n`".toUTF8).staticValue?
      "`\\r\\n\r\n\\\r\n\\x0D\n`".toUTF8 = .ok (some "\r\n\n\r\n") := by
  obtain ⟨htemplate, hstring, hparts, -⟩ := literal_lineEnds
  refine ⟨?_, ?_, ?_⟩
  · refine (htemplate "`a\\\\\\\nb\n`".toUTF8 _
      (wholeLiteral Kind.templateString "`a\\\\\\\nb\n`".toUTF8) _ ?_ ?_ ?_ ?_).trans ?_
    all_goals decide +kernel
  · have hcut : IsCut [.char 'a', .escape (.single '\n'), .char 'b'] :=
      ⟨by decide, Sequence.longest_append (by decide) (by decide) (by decide), by decide, trivial⟩
    refine (hstring "'a\\\nb'".toUTF8 _ (wholeLiteral Kind.string "'a\\\nb'".toUTF8) _
      [.char 'a', .escape (.single '\n'), .char 'b'] rfl rfl ?_ ?_ ?_ hcut ?_).trans ?_
    all_goals decide +kernel
  · obtain ⟨text, hvalue, htext⟩ := hparts "`\\r\\n\r\n\\\r\n\\x0D\n`".toUTF8
      (wholeLiteral Kind.templateString "`\\r\\n\r\n\\\r\n\\x0D\n`".toUTF8)
      [.escape (.single 'r') (by decide), .escape (.single 'n') (by decide), .lineEnd,
        .escape .lineEnds (by decide), .escape (.byte (.decimal 0) (.upper 3)) (by decide),
        .char '\n' (by decide) (by decide)] rfl (by decide +kernel)
    have hdecode := (htext _).mp (Utf16.standsFor_decode _)
    rw [hvalue, ← hdecode]
    decide +kernel

end Node

end MessageHarvest
