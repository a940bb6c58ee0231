import MessageHarvest.Text.Utf8

/-!
# UTF-16 units

A text as a list of 16-bit units, in which a high surrogate directly before a low one is one
character and any other surrogate stands for nothing and becomes U+FFFD.
-/

namespace MessageHarvest.Utf16

/-- The first half of a pair. -/
def isHigh (u : UInt16) : Bool := 0xD800 ≤ u && u ≤ 0xDBFF

/-- The second half of a pair. -/
def isLow (u : UInt16) : Bool := 0xDC00 ≤ u && u ≤ 0xDFFF

/-- The character that a pair of surrogates stands for. -/
def pair (high low : UInt16) : Char :=
  Char.ofNat (0x10000 + (high.toNat - 0xD800) * 0x400 + (low.toNat - 0xDC00))

/-- The units of a code point up to U+10FFFF; a surrogate code point is a unit of its own. -/
def ofCodePoint (n : Nat) : List UInt16 :=
  if n < 0x10000 then [n.toUInt16]
  else [(0xD800 + (n - 0x10000) / 0x400).toUInt16, (0xDC00 + (n - 0x10000) % 0x400).toUInt16]

/-- The units of a text. -/
def encode (text : List Char) : List UInt16 :=
  text.flatMap fun c => ofCodePoint c.toNat

/-- The text of a list of units. -/
def decode : List UInt16 → List Char
  | [] => []
  | [u] => if isHigh u || isLow u then [Utf8.replacement] else [Char.ofNat u.toNat]
  | u :: v :: rest =>
    if isHigh u then
      if isLow v then pair u v :: decode rest
      else Utf8.replacement :: decode (v :: rest)
    else if isLow u then Utf8.replacement :: decode (v :: rest)
    else Char.ofNat u.toNat :: decode (v :: rest)

/-- No units stand for the empty text. -/
@[simp] theorem decode_nil : decode [] = [] := rfl

/-- The empty text has no units. -/
@[simp] theorem encode_nil : encode [] = [] := rfl

/-- A text is written character by character. -/
@[simp] theorem encode_cons (c : Char) (text : List Char) :
    encode (c :: text) = ofCodePoint c.toNat ++ encode text := rfl

/-- The units of two texts in a row are those of the one and then those of the other. -/
@[simp] theorem encode_append (left right : List Char) :
    encode (left ++ right) = encode left ++ encode right := by
  simp [encode]

end MessageHarvest.Utf16
