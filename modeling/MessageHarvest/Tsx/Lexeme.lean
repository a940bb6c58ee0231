import MessageHarvest.Syntax.Node

/-!
# Lexemes

Where the lexical parts of a TSX program end. Each function looks at the bytes from an offset on
and answers with the offset behind what it has recognised: characters, blanks and comments, words,
numbers, and the inner parts of strings, templates, regular expressions and JSX text.
-/

namespace MessageHarvest.Tsx

/-! ## Bytes and characters -/

/-- The byte at an offset; zero behind the end. -/
def byteAt (src : Source) (pos : Nat) : UInt8 :=
  if h : pos < src.size then src[pos] else 0

/-- The byte of an ASCII character. -/
def ascii (c : Char) : UInt8 := c.toNat.toUInt8

/-- Whether the byte at an offset is a given ASCII character. -/
def isAt (src : Source) (pos : Nat) (c : Char) : Bool :=
  byteAt src pos == ascii c

/-- Whether the bytes at an offset are those of a text. -/
def textAt (src : Source) (pos : Nat) (text : String) : Bool :=
  src.extract pos (pos + text.utf8ByteSize) == text.toUTF8

/-- The end of the longest run of bytes that satisfy `p`. -/
def skipWhile (src : Source) (p : UInt8 → Bool) (pos : Nat) : Nat :=
  if h : pos < src.size then
    if p src[pos] then skipWhile src p (pos + 1) else pos
  else pos
termination_by src.size - pos

/-- The bytes of a character, if those at an offset are one. -/
def charAt? (src : Source) (pos : Nat) : Option (Char × Nat) :=
  let width :=
    let b := byteAt src pos
    if b < 0x80 then 1 else if b < 0xE0 then 2 else if b < 0xF0 then 3 else 4
  if pos < src.size then
    match Utf8.decode (src.extract pos (pos + width)).data.toList with
    | [c] => if c = Utf8.replacement && width ≠ 3 then none else some (c, pos + width)
    | _ => none
  else none

/-- How many bytes the character or the undecodable byte at an offset takes. -/
def widthAt (src : Source) (pos : Nat) : Nat :=
  match charAt? src pos with
  | some (_, stop) => stop - pos
  | none => 1

/-! ## Blanks and comments -/

/-- Blanks beyond ASCII: the space separators, the two line separators, word joiner, zero width
space and byte order mark. -/
def isWideBlank (c : Char) : Bool :=
  c = '\u00A0' || c = '\u1680' || ('\u2000' ≤ c && c ≤ '\u200B') || c = '\u2028' || c = '\u2029' ||
    c = '\u202F' || c = '\u205F' || c = '\u2060' || c = '\u3000' || c = '\uFEFF'

/-- The blanks of ASCII: the space and the characters from tab to carriage return. -/
def isAsciiBlank (b : UInt8) : Bool :=
  b = 0x20 || (0x09 ≤ b && b ≤ 0x0D)

/-- The end of the blank at an offset, if there is one. -/
def blank? (src : Source) (pos : Nat) : Option Nat :=
  let b := byteAt src pos
  if b < 0x80 then
    if isAsciiBlank b then some (pos + 1) else none
  else
    match charAt? src pos with
    | some (c, stop) => if isWideBlank c then some stop else none
    | none => none

/-- Whether the character at an offset ends a line for the insertion of semicolons. -/
def isLineEndAt (src : Source) (pos : Nat) : Bool :=
  isAt src pos '\n' || textAt src pos "\u2028" || textAt src pos "\u2029"

/-- Whether the byte at an offset begins a character that ends a line comment. -/
def endsLineComment (src : Source) (pos : Nat) : Bool :=
  let b := byteAt src pos
  b = ascii '\n' || b = ascii '\r' ||
    (b = 0xE2 && (textAt src pos "\u2028" || textAt src pos "\u2029"))

/-- The end of the line comment whose text begins at an offset. -/
def lineCommentEnd (src : Source) (pos : Nat) : Nat :=
  if h : pos < src.size then
    if endsLineComment src pos then pos else lineCommentEnd src (pos + 1)
  else pos
termination_by src.size - pos

/-- The end of the block comment whose text begins at an offset, if it is closed. -/
def blockCommentEnd? (src : Source) (pos : Nat) : Option Nat :=
  if h : pos < src.size then
    if isAt src pos '*' && isAt src (pos + 1) '/' then some (pos + 2)
    else blockCommentEnd? src (pos + 1)
  else none
termination_by src.size - pos

/-- The end of the comment at an offset, if there is one. -/
def comment? (src : Source) (pos : Nat) : Option Nat :=
  if isAt src pos '/' then
    if isAt src (pos + 1) '/' then some (lineCommentEnd src (pos + 2))
    else if isAt src (pos + 1) '*' then blockCommentEnd? src (pos + 2)
    else none
  else none

/-- Whether a line ends between two offsets. -/
def hasLineEnd (src : Source) (pos stop : Nat) : Bool :=
  if pos < stop then isLineEndAt src pos || hasLineEnd src (pos + 1) stop else false
termination_by stop - pos

/-- What lies between two tokens: where the next one begins, whether a line ends before it, and
the comments in between, the last one first. -/
structure Gap where
  next : Nat
  lineEnd : Bool
  comments : List Span

/-- Skips blanks and comments from an offset on. -/
def gapFrom (src : Source) (pos : Nat) (lineEnd : Bool) (comments : List Span) : Gap :=
  match blank? src pos with
  | some stop =>
    if pos < stop ∧ stop ≤ src.size then
      gapFrom src stop (lineEnd || isLineEndAt src pos) comments
    else ⟨pos, lineEnd, comments⟩
  | none =>
    match comment? src pos with
    | some stop =>
      if pos < stop ∧ stop ≤ src.size then
        gapFrom src stop (lineEnd || hasLineEnd src pos stop) (⟨pos, stop⟩ :: comments)
      else ⟨pos, lineEnd, comments⟩
    | none => ⟨pos, lineEnd, comments⟩
termination_by src.size - pos

/-! ## Words -/

/-- The ASCII characters that can stand in a word: all but blanks, control characters and the
punctuation of the language. -/
def isAsciiWordByte (b : UInt8) : Bool :=
  (0x30 ≤ b && b ≤ 0x39) || (0x41 ≤ b && b ≤ 0x5A) || (0x61 ≤ b && b ≤ 0x7A) ||
    b = ascii '$' || b = ascii '_' || b = 0x7F

/-- Whether a byte is an ASCII decimal digit. -/
def isDigitByte (b : UInt8) : Bool := 0x30 ≤ b && b ≤ 0x39

/-- Whether a byte is an ASCII hexadecimal digit. -/
def isHexByte (b : UInt8) : Bool :=
  isDigitByte b || (0x61 ≤ b && b ≤ 0x66) || (0x41 ≤ b && b ≤ 0x46)

/-- The end of `uHHHH` or `u{…}` at an offset. -/
def codePointEscape? (src : Source) (pos : Nat) : Option Nat :=
  if isAt src pos 'u' then
    if isAt src (pos + 1) '{' then
      let stop := skipWhile src isHexByte (pos + 2)
      if pos + 2 < stop && isAt src stop '}' then some (stop + 1) else none
    else if (List.range 4).all fun i => isHexByte (byteAt src (pos + 1 + i)) then some (pos + 5)
    else none
  else none

/-- The end of the character at an offset, if it can stand in a word. -/
def wordChar? (src : Source) (pos : Nat) : Option Nat :=
  let b := byteAt src pos
  if b < 0x80 then
    if isAsciiWordByte b then some (pos + 1)
    else if b = ascii '\\' then codePointEscape? src (pos + 1)
    else none
  else
    match charAt? src pos with
    | some (c, stop) => if isWideBlank c then none else some stop
    | none => none

/-- The end of the run of word characters from an offset on. -/
def wordEnd (src : Source) (pos : Nat) : Nat :=
  match wordChar? src pos with
  | some stop => if pos < stop ∧ stop ≤ src.size then wordEnd src stop else pos
  | none => pos
termination_by src.size - pos

/-- The end of the word at an offset, if there is one; it does not begin with a digit. -/
def word? (src : Source) (pos : Nat) : Option Nat :=
  if isDigitByte (byteAt src pos) then none
  else
    let stop := wordEnd src pos
    if pos < stop then some stop else none

/-- The end of the name at an offset in a JSX tag, where hyphens may follow. -/
def jsxName? (src : Source) (pos : Nat) : Option Nat :=
  match word? src pos with
  | none => none
  | some stop =>
    let plain := skipWhile src isAsciiWordByte pos
    if plain = stop ∧ isAt src stop '-' then
      some (skipWhile src (fun b => isAsciiWordByte b || b == ascii '-') stop)
    else some stop

/-- The text between two offsets. -/
def slice (src : Source) (pos stop : Nat) : String :=
  String.ofList (Utf8.decode (src.extract pos stop).data.toList)

/-! ## Numbers -/

/-- The end of a run of digits in which single underscores may separate digits; the first byte
must be a digit. -/
def digitRun (src : Source) (isDigit : UInt8 → Bool) (pos : Nat) : Nat :=
  if h : pos < src.size then
    if isDigit src[pos] then
      if isAt src (pos + 1) '_' && isDigit (byteAt src (pos + 2)) then
        digitRun src isDigit (pos + 2)
      else digitRun src isDigit (pos + 1)
    else pos
  else pos
termination_by src.size - pos

/-- The end of the exponent at an offset, or the offset itself. -/
def exponentEnd (src : Source) (pos : Nat) : Nat :=
  if isAt src pos 'e' || isAt src pos 'E' then
    let digits := if isAt src (pos + 1) '+' || isAt src (pos + 1) '-' then pos + 2 else pos + 1
    let stop := digitRun src isDigitByte digits
    if digits < stop then stop else pos
  else pos

/-- The digits that a letter after a zero announces. -/
def radixDigits? (b : UInt8) : Option (UInt8 → Bool) :=
  if b = ascii 'x' || b = ascii 'X' then some isHexByte
  else if b = ascii 'o' || b = ascii 'O' then some fun d => 0x30 ≤ d && d ≤ 0x37
  else if b = ascii 'b' || b = ascii 'B' then some fun d => 0x30 ≤ d && d ≤ 0x31
  else none

/-- The end of a number's big-integer mark, if it has one. -/
def bigEnd (src : Source) (pos : Nat) : Nat :=
  if isAt src pos 'n' then pos + 1 else pos

/-- The end of the number at an offset, if there is one. -/
def number? (src : Source) (pos : Nat) : Option Nat :=
  let digits := digitRun src isDigitByte pos
  if isAt src pos '.' then
    let stop := digitRun src isDigitByte (pos + 1)
    if pos + 1 < stop then some (exponentEnd src stop) else none
  else if digits = pos then none
  else
    match if isAt src pos '0' then radixDigits? (byteAt src (pos + 1)) else none with
    | some isDigit =>
      let stop := digitRun src isDigit (pos + 2)
      if pos + 2 < stop then some (bigEnd src stop) else some digits
    | none =>
      if isAt src digits 'n' then some (digits + 1)
      else if isAt src digits '.' then
        some (exponentEnd src (digitRun src isDigitByte (digits + 1)))
      else some (exponentEnd src digits)

/-! ## Inside strings, templates and regular expressions -/

/-- The end of a run of bytes of a string without its quote, backslashes and line ends. -/
def stringRun (src : Source) (quote : Char) (pos : Nat) : Nat :=
  skipWhile src (fun b => b != ascii quote && b != ascii '\\' && b != ascii '\r' && b != ascii '\n')
    pos

/-- The end of the escape whose backslash is at an offset. -/
def escape? (src : Source) (pos : Nat) : Option Nat :=
  let b := byteAt src (pos + 1)
  if src.size ≤ pos + 1 then none
  else if b = ascii 'x' then
    if isHexByte (byteAt src (pos + 2)) && isHexByte (byteAt src (pos + 3)) then some (pos + 4)
    else none
  else if b = ascii 'u' then codePointEscape? src (pos + 1)
  else if 0x30 ≤ b && b ≤ 0x37 then
    let stop := skipWhile src (fun d => 0x30 ≤ d && d ≤ 0x37) (pos + 1)
    some (min stop (pos + 4))
  else
    let stop := pos + 1 + widthAt src (pos + 1)
    if (b = ascii '\r' || b = ascii '?') && isLineEndAt src stop then
      some (stop + widthAt src stop)
    else some stop

/-- The end of the text of a template up to an escape, a substitution or its end. -/
def templateRun (src : Source) (pos : Nat) : Nat :=
  if h : pos < src.size then
    let b := src[pos]
    if b = 0x60 || b = ascii '\\' then pos
    else if b = ascii '$' && isAt src (pos + 1) '{' then pos
    else templateRun src (pos + 1)
  else pos
termination_by src.size - pos

/-- The end of a bracketed class in a regular expression, whose text begins at an offset. -/
def regexClassEnd? (src : Source) (pos : Nat) : Option Nat :=
  if h : pos < src.size then
    let b := src[pos]
    if b = ascii ']' then some (pos + 1)
    else if b = ascii '\n' then none
    else if b = ascii '\\' then
      if isAt src (pos + 1) '\n' then none else regexClassEnd? src (pos + 2)
    else regexClassEnd? src (pos + 1)
  else none
termination_by src.size - pos

/-- The end of the pattern of a regular expression, at its closing slash. -/
def regexEnd? (src : Source) (pos : Nat) : Option Nat :=
  if h : pos < src.size then
    let b := src[pos]
    if b = ascii '/' then some pos
    else if b = ascii '\n' then none
    else if b = ascii '\\' then
      if isAt src (pos + 1) '\n' then none else regexEnd? src (pos + 2)
    else if b = ascii '[' then
      match regexClassEnd? src (pos + 1) with
      | some stop => if pos < stop ∧ stop ≤ src.size then regexEnd? src stop else none
      | none => none
    else regexEnd? src (pos + 1)
  else none
termination_by src.size - pos

/-! ## Inside JSX -/

/-- The end of the character reference at an offset: an ampersand, a name or a number, and a
semicolon. -/
def characterReference? (src : Source) (pos : Nat) : Option Nat :=
  let finish (first stop limit : Nat) : Option Nat :=
    if first < stop && stop ≤ first + limit && isAt src stop ';' then some (stop + 1) else none
  if isAt src pos '&' then
    if isAt src (pos + 1) '#' then
      if isAt src (pos + 2) 'x' || isAt src (pos + 2) 'X' then
        finish (pos + 3) (skipWhile src isHexByte (pos + 3)) 6
      else finish (pos + 2) (skipWhile src isDigitByte (pos + 2)) 5
    else
      finish (pos + 1)
        (skipWhile src (fun b => (0x41 ≤ b && b ≤ 0x5A) || (0x61 ≤ b && b ≤ 0x7A)) (pos + 1)) 30
  else none

/-- Whether the byte behind an ampersand lets it stand for itself in a JSX string. -/
def endsAmpersand (b : UInt8) : Bool :=
  !(b = ascii '#' || (0x41 ≤ b && b ≤ 0x5A) || (0x61 ≤ b && b ≤ 0x7A))

/-- The end of a run of bytes of a JSX string up to its quote or a character reference. An
ampersand that no letter and no number sign follows stands for itself together with the byte
behind it, even if that is the quote. -/
def jsxStringRun (src : Source) (quote : Char) (pos : Nat) : Nat :=
  if h : pos < src.size then
    let b := src[pos]
    if b = ascii quote then pos
    else if b = ascii '&' then
      if pos + 1 < src.size && endsAmpersand (byteAt src (pos + 1)) then
        jsxStringRun src quote (pos + 2)
      else pos
    else jsxStringRun src quote (pos + 1)
  else pos
termination_by src.size - pos

/-- The end of a run of JSX text. -/
def jsxTextRun (src : Source) (pos : Nat) : Nat :=
  skipWhile src (fun b => b != ascii '<' && b != ascii '>' && b != ascii '{' && b != ascii '}' &&
    b != ascii '&') pos

/-- Whether a run of JSX text is more than line ends and the blanks that follow them. -/
def hasJsxText (src : Source) (pos stop : Nat) (afterLineEnd : Bool) : Bool :=
  if pos < stop then
    if isAt src pos '\n' then hasJsxText src (pos + 1) stop true
    else if afterLineEnd && isAsciiBlank (byteAt src pos) then hasJsxText src (pos + 1) stop true
    else true
  else false
termination_by stop - pos

end MessageHarvest.Tsx
