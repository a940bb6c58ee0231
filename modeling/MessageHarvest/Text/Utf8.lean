/-!
# UTF-8 with replacement

`decode` reads any bytes as text. Bytes that begin no character, or only the beginning of one,
become U+FFFD, once for each longest such beginning. It is written as a machine that takes one
byte at a time, so that what it does after a byte depends on `Pending` alone; in particular an
ASCII byte always ends whatever was pending.
-/

namespace MessageHarvest.Utf8

/-- The character that stands for undecodable bytes. -/
def replacement : Char := '\uFFFD'

/-- The part of a character that has been read: its bits so far, how many bytes are missing after
the next one, and the range in which the next one must lie. -/
structure Pending where
  bits : Nat
  more : Nat
  low : UInt8
  high : UInt8
  deriving DecidableEq, Repr

/-- What a byte at the beginning of a character stands for: a character of its own, the first byte
of a longer one, or nothing. The narrowed ranges exclude overlong forms, surrogates and numbers
above U+10FFFF. -/
def begin (b : UInt8) : List Char × Option Pending :=
  if b < 0x80 then ([Char.ofNat b.toNat], none)
  else if b < 0xC2 then ([replacement], none)
  else if b < 0xE0 then ([], some ⟨b.toNat - 0xC0, 0, 0x80, 0xBF⟩)
  else if b < 0xF0 then
    ([], some ⟨b.toNat - 0xE0, 1, if b = 0xE0 then 0xA0 else 0x80, if b = 0xED then 0x9F else 0xBF⟩)
  else if b < 0xF5 then
    ([], some ⟨b.toNat - 0xF0, 2, if b = 0xF0 then 0x90 else 0x80, if b = 0xF4 then 0x8F else 0xBF⟩)
  else ([replacement], none)

/-- One byte: it continues what is pending, or replaces it and begins anew. -/
def step : Option Pending → UInt8 → List Char × Option Pending
  | none, b => begin b
  | some p, b =>
    if p.low ≤ b ∧ b ≤ p.high then
      let bits := p.bits * 64 + (b.toNat - 0x80)
      match p.more with
      | 0 => ([Char.ofNat bits], none)
      | more + 1 => ([], some ⟨bits, more, 0x80, 0xBF⟩)
    else
      let (out, next) := begin b
      (replacement :: out, next)

/-- The text of the bytes that follow what is pending. -/
def decodeFrom : Option Pending → List UInt8 → List Char
  | none, [] => []
  | some _, [] => [replacement]
  | p, b :: rest => (step p b).1 ++ decodeFrom (step p b).2 rest

/-- The text of a list of bytes. -/
def decode (bytes : List UInt8) : List Char :=
  decodeFrom none bytes

/-- No bytes stand for the empty text. -/
@[simp] theorem decode_nil : decode [] = [] := rfl

/-- The first byte decides in which state the rest is read. -/
theorem decode_cons (b : UInt8) (rest : List UInt8) :
    decode (b :: rest) = (begin b).1 ++ decodeFrom (begin b).2 rest := rfl

end MessageHarvest.Utf8
