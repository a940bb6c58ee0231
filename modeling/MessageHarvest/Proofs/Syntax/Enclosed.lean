import MessageHarvest.Proofs.Text.Replacement
import MessageHarvest.Syntax.Literal

/-!
# What stands between quotes

The first and the last character of a literal are cut off after all its bytes have been decoded.
Where both are decoded from one ASCII byte each, this is as good as decoding what stands between
them, whatever bytes these are: the end of a character that they break off before the closing
quote does not reach into it, and neither quote is lost.

* `Node.chars_of_enclosed`: decoding goes quote, body, quote.
* **Quotes** (`Node.literal_betweenQuotes`): a string literal stands for what its body stands for,
  verbatim or with its escapes decoded, and for the text itself if the body is one in UTF-8.
-/

namespace MessageHarvest.Node

variable {src : Source} {n : Node} {q : UInt8} {body : List UInt8}

/-- Without its first and its last character a text is what stands between. -/
theorem unquoted_cons_append_singleton (c d : Char) (text : List Char) :
    unquoted (c :: (text ++ [d])) = text :=
  List.dropLast_concat

/-- A byte below 0x80 on either side is a character of its own, whatever stands between. -/
theorem chars_of_enclosed (hq : q < 0x80) (hbytes : n.bytes src = q :: (body ++ [q])) :
    n.chars src = Char.ofNat q.toNat :: (Utf8.decode body ++ [Char.ofNat q.toNat]) := by
  rw [chars, hbytes, Utf8.decode_cons_ascii hq, Utf8.decode_append_ascii hq, Utf8.decode_nil]

/-- Between the quotes are the decoded bytes between them. -/
theorem unquoted_chars_of_enclosed (hq : q < 0x80) (hbytes : n.bytes src = q :: (body ++ [q])) :
    unquoted (n.chars src) = Utf8.decode body := by
  rw [chars_of_enclosed hq hbytes, unquoted_cons_append_singleton]

/-- Verbatim, a string is the decoded bytes between its quotes. -/
theorem verbatimValue?_of_enclosed (hkind : n.kind = Kind.string) (hq : q < 0x80)
    (hbytes : n.bytes src = q :: (body ++ [q])) :
    n.verbatimValue? src = some (String.ofList (Utf8.decode body)) := by
  rw [verbatimValue?, if_pos hkind, unquoted_chars_of_enclosed hq hbytes]

/-- Decoded, it is what these characters stand for. -/
theorem stringValue?_of_enclosed (hkind : n.kind = Kind.string) (hq : q < 0x80)
    (hbytes : n.bytes src = q :: (body ++ [q])) :
    n.stringValue? src = (Escape.unescape (String.ofList (Utf8.decode body))).map some := by
  rw [stringValue?, if_pos hkind, decodedBody, unquoted_chars_of_enclosed hq hbytes,
    Escape.unescape, String.toList_ofList]

/-- **Quotes** are cut off exactly. What bytes stand for is what the body of a string literal
stands for, verbatim and before its escapes are decoded, and in particular the text of which the
body is the UTF-8 form. -/
theorem literal_betweenQuotes (hkind : n.kind = Kind.string) (hq : q < 0x80)
    (hbytes : n.bytes src = q :: (body ++ [q])) :
    (∃ text, (∀ text', Utf8.StandsFor body text' ↔ text' = text) ∧
      n.chars src = Char.ofNat q.toNat :: (text ++ [Char.ofNat q.toNat]) ∧
      n.verbatimValue? src = some (String.ofList text) ∧
      n.stringValue? src = (Escape.unescape (String.ofList text)).map some) ∧
    ∀ t : String, body = t.toUTF8.data.toList →
      n.verbatimValue? src = some t ∧ n.stringValue? src = (Escape.unescape t).map some := by
  have hverbatim := verbatimValue?_of_enclosed hkind hq hbytes
  have hstring := stringValue?_of_enclosed hkind hq hbytes
  refine ⟨⟨Utf8.decode body, fun _ => Utf8.standsFor_iff, chars_of_enclosed hq hbytes, hverbatim,
    hstring⟩, ?_⟩
  rintro t rfl
  rw [Utf8.decode_toUTF8, String.ofList_toList] at hverbatim hstring
  exact ⟨hverbatim, hstring⟩

/-- A string literal in a range. -/
def literalAt (range : Span) : Node :=
  ⟨Kind.string, true, none, some range, []⟩

/-- Two literals, `a\n` with two bytes of a character of three behind it, and `é\t`. -/
def brokenAndWhole : Source :=
  ⟨#[0x22, 0x61, 0x5C, 0x6E, 0xE2, 0x82, 0x22, 0x27, 0xC3, 0xA9, 0x5C, 0x74, 0x27]⟩

/-- `literal_betweenQuotes` for both of them. -/
theorem literal_brokenAndWhole :
    (literalAt ⟨0, 7⟩).bytes brokenAndWhole =
      0x22 :: ([0x61, 0x5C, 0x6E, 0xE2, 0x82] ++ [0x22]) ∧
    (literalAt ⟨7, 13⟩).bytes brokenAndWhole = 0x27 :: ("é\\t".toUTF8.data.toList ++ [0x27]) ∧
    (literalAt ⟨0, 7⟩).verbatimValue? brokenAndWhole = some "a\\n\uFFFD" ∧
    (literalAt ⟨0, 7⟩).stringValue? brokenAndWhole = .ok (some "a\n\uFFFD") ∧
    (literalAt ⟨7, 13⟩).verbatimValue? brokenAndWhole = some "é\\t" ∧
    (literalAt ⟨7, 13⟩).stringValue? brokenAndWhole = .ok (some "é\t") := by
  have hbroken : (literalAt ⟨0, 7⟩).bytes brokenAndWhole =
      0x22 :: ([0x61, 0x5C, 0x6E, 0xE2, 0x82] ++ [0x22]) := by
    decide +kernel
  have hwhole : (literalAt ⟨7, 13⟩).bytes brokenAndWhole =
      0x27 :: ("é\\t".toUTF8.data.toList ++ [0x27]) := by
    decide +kernel
  obtain ⟨⟨text, htext, -, hverbatim, hstring⟩, -⟩ :=
    literal_betweenQuotes rfl (by decide) hbroken
  obtain rfl := (htext _).mp (Utf8.standsFor_decode _)
  obtain ⟨hverbatim', hstring'⟩ := (literal_betweenQuotes rfl (by decide) hwhole).2 "é\\t" rfl
  rw [hverbatim, hstring, hverbatim', hstring']
  exact ⟨hbroken, hwhole, rfl, rfl, rfl, rfl⟩

end MessageHarvest.Node
