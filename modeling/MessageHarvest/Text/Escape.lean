import MessageHarvest.Text.Utf16

/-!
# Escapes in the body of a literal

The body of a string or template literal is a row of `Piece`s: characters that stand for
themselves, and escapes, each begun by a backslash. `pieces` cuts a body into them from left to
right, `Piece.units` says what each one stands for, and `unescape` joins the units into text.
The only failure is a `\u{…}` that names no code point.
-/

namespace MessageHarvest.Escape

/-- Why the body of a literal stands for no text. -/
inductive Error where
  /-- A code point above U+10FFFF. -/
  | outOfRange
  /-- A code point that does not even fit 31 bits. -/
  | tooLarge
  deriving DecidableEq, Repr

/-- How the failure is worded, where the wording is fixed. -/
def Error.message? : Error → Option String
  | outOfRange => some "chr() arg not in range(0x110000)"
  | tooLarge => none

/-- A piece of a literal's body. -/
inductive Piece where
  /-- A character outside any escape; also a backslash that nothing follows. -/
  | plain (c : Char)
  /-- A backslash before hexadecimal digits: `\u{…}`, `\uHHHH` or `\xHH`. -/
  | codePoint (n : Nat)
  /-- A backslash before a line end, which joins two lines. -/
  | lineJoin
  /-- A backslash before any other character. -/
  | single (c : Char)
  deriving DecidableEq, Repr

/-! ## Hexadecimal digits -/

/-- The value of an ASCII hexadecimal digit. -/
def hexDigit? (c : Char) : Option Nat :=
  if '0' ≤ c ∧ c ≤ '9' then some (c.toNat - 48)
  else if 'a' ≤ c ∧ c ≤ 'f' then some (c.toNat - 87)
  else if 'A' ≤ c ∧ c ≤ 'F' then some (c.toNat - 55)
  else none

/-- The value of the digits `ds` written after a number `n`. -/
def hexValue (n : Nat) (ds : List Char) : Nat :=
  ds.foldl (fun n d => n * 16 + (hexDigit? d).getD 0) n

/-- Whether all characters are hexadecimal digits. -/
def allHex (ds : List Char) : Bool :=
  ds.all fun d => (hexDigit? d).isSome

/-! ## Cutting a body into pieces -/

/-- The characters that end a line. -/
def isLineEnd (c : Char) : Bool :=
  c = '\n' || c = '\r' || c = '\u2028' || c = '\u2029'

/-- The escape that the characters after a backslash begin with, and how many of them it takes:
the longest form that is complete, else the next character alone. -/
def readEscape : List Char → Piece × Nat
  | [] => (.plain '\\', 0)
  | '\r' :: '\n' :: _ => (.lineJoin, 2)
  | 'x' :: a :: b :: _ =>
    if allHex [a, b] then (.codePoint (hexValue 0 [a, b]), 3) else (.single 'x', 1)
  | 'u' :: '{' :: rest =>
    let digits := rest.takeWhile fun d => (hexDigit? d).isSome
    if !digits.isEmpty && (rest.drop digits.length).head? == some '}' then
      (.codePoint (hexValue 0 digits), digits.length + 3)
    else (.single 'u', 1)
  | 'u' :: a :: b :: c :: d :: _ =>
    if allHex [a, b, c, d] then (.codePoint (hexValue 0 [a, b, c, d]), 5) else (.single 'u', 1)
  | c :: _ => (if isLineEnd c then .lineJoin else .single c, 1)

/-- The pieces of a body after its first `skip` characters, which a piece before has taken. -/
def piecesFrom : Nat → List Char → List Piece
  | _, [] => []
  | skip + 1, _ :: rest => piecesFrom skip rest
  | 0, c :: rest =>
    if c = '\\' then (readEscape rest).1 :: piecesFrom (readEscape rest).2 rest
    else .plain c :: piecesFrom 0 rest

/-- The pieces of a body, from left to right. -/
def pieces (body : List Char) : List Piece :=
  piecesFrom 0 body

/-- To skip characters of a text is to cut what is left without them. -/
theorem piecesFrom_eq_pieces_drop (skip : Nat) (body : List Char) :
    piecesFrom skip body = pieces (body.drop skip) := by
  induction body generalizing skip with
  | nil => cases skip <;> rfl
  | cons c rest ih =>
    cases skip with
    | zero => rfl
    | succ skip => simpa [piecesFrom] using ih skip

/-- An empty text has no pieces. -/
@[simp] theorem pieces_nil : pieces [] = [] := rfl

/-- A character that is no backslash is a piece of its own. -/
theorem pieces_cons_of_ne {c : Char} (h : c ≠ '\\') (rest : List Char) :
    pieces (c :: rest) = .plain c :: pieces rest := by
  simp [pieces, piecesFrom, h]

/-- A backslash takes with it what its escape reads; cutting goes on behind that. -/
theorem pieces_backslash (rest : List Char) :
    pieces ('\\' :: rest) = (readEscape rest).1 :: pieces (rest.drop (readEscape rest).2) := by
  rw [pieces, piecesFrom, if_pos rfl, piecesFrom_eq_pieces_drop]

/-! ## What a piece stands for -/

/-- What a backslash makes of the character after it. -/
def singleValue : Char → Char
  | 'n' => '\n'
  | 't' => '\t'
  | 'r' => '\r'
  | 'b' => '\x08'
  | 'f' => '\x0c'
  | 'v' => '\x0b'
  | '0' => '\x00'
  | c => c

/-- The UTF-16 units that a piece stands for. -/
def Piece.units : Piece → Except Error (List UInt16)
  | .plain c => .ok (Utf16.ofCodePoint c.toNat)
  | .codePoint n =>
    if n ≤ 0x10FFFF then .ok (Utf16.ofCodePoint n)
    else .error (if n ≤ 0x7FFFFFFF then .outOfRange else .tooLarge)
  | .lineJoin => .ok []
  | .single c => .ok (Utf16.ofCodePoint (singleValue c).toNat)

/-- The units of a row of pieces; of several failures the first one counts. -/
def unitsOf : List Piece → Except Error (List UInt16)
  | [] => .ok []
  | p :: rest => do return (← p.units) ++ (← unitsOf rest)

/-- The text that the body of a literal stands for. -/
def unescapeChars (body : List Char) : Except Error (List Char) :=
  if '\\' ∈ body then (unitsOf (pieces body)).map Utf16.decode else .ok body

/-- The text that the body of a literal stands for. -/
def unescape (body : String) : Except Error String :=
  (unescapeChars body.toList).map String.ofList

end MessageHarvest.Escape
