import MessageHarvest.Json.Value
import MessageHarvest.Text.Utf16
import MessageHarvest.Text.Escape

/-!
# Reading JSON

`read?` accepts the standard's grammar and, beside it, `NaN`, `Infinity` and `-Infinity`. Arrays
and objects that are not empty may be nested down to a given depth. A surrogate must be escaped
together with its other half.
-/

namespace MessageHarvest.Json

/-- A reader takes a value, or something else, off the front of a text. -/
abbrev Reader (α : Type) := List Char → Option (α × List Char)

/-! ## Blanks and words -/

/-- The characters that may stand between tokens. -/
def isBlank (c : Char) : Bool :=
  c = ' ' || c = '\n' || c = '\r' || c = '\t'

/-- A text without the blanks in front. -/
def skipBlank (cs : List Char) : List Char :=
  cs.dropWhile isBlank

/-- Takes a word that stands for a value. -/
def readWord (word : List Char) (v : Json) : Reader Json := fun cs =>
  if word.isPrefixOf cs then some (v, cs.drop word.length) else none

/-! ## Strings -/

/-- The number that four hexadecimal digits stand for. -/
def hex4? (a b c d : Char) : Option Nat :=
  if Escape.allHex [a, b, c, d] then some (Escape.hexValue 0 [a, b, c, d]) else none

/-- The character that a backslash and a letter stand for. -/
def simpleEscape? : Char → Option Char
  | '"' => some '"'
  | '\\' => some '\\'
  | '/' => some '/'
  | 'b' => some '\x08'
  | 'f' => some '\x0c'
  | 'n' => some '\n'
  | 'r' => some '\r'
  | 't' => some '\t'
  | _ => none

/-- Reads a string after its opening quote; `done` holds what has been read, the last character
first. -/
def readChars (done : List Char) : Reader String
  | [] => none
  | '"' :: rest => some (String.ofList done.reverse, rest)
  | '\\' :: 'u' :: a :: b :: c :: d :: rest =>
    match hex4? a b c d with
    | none => none
    | some n =>
      if 0xD800 ≤ n ∧ n ≤ 0xDBFF then
        match rest with
        | '\\' :: 'u' :: e :: f :: g :: h :: rest =>
          match hex4? e f g h with
          | none => none
          | some m =>
            if 0xDC00 ≤ m ∧ m ≤ 0xDFFF then
              readChars (Utf16.pair n.toUInt16 m.toUInt16 :: done) rest
            else none
        | _ => none
      else if 0xDC00 ≤ n ∧ n ≤ 0xDFFF then none
      else readChars (Char.ofNat n :: done) rest
  | '\\' :: c :: rest =>
    match simpleEscape? c with
    | none => none
    | some x => readChars (x :: done) rest
  | c :: rest => if c.toNat < 0x20 then none else readChars (c :: done) rest

/-- Reads a string. -/
def readString : Reader String
  | '"' :: rest => readChars [] rest
  | _ => none

/-! ## Numbers -/

/-- Splits off the decimal digits in front. -/
def spanDigits (cs : List Char) : List Char × List Char :=
  (cs.takeWhile Char.isDigit, cs.dropWhile Char.isDigit)

/-- The fraction in front of a text, empty if there is none. -/
def readFraction : Reader (List Char)
  | '.' :: rest =>
    let (ds, rest) := spanDigits rest
    if ds.isEmpty then none else some ('.' :: ds, rest)
  | cs => some ([], cs)

/-- The exponent in front of a text, empty if there is none. -/
def readExponent (cs : List Char) : Option (List Char × List Char) :=
  match cs with
  | [] => some ([], [])
  | e :: rest =>
    if e = 'e' ∨ e = 'E' then
      let sign := rest.take 1 |>.filter fun c => c = '+' || c = '-'
      let (ds, rest) := spanDigits (rest.drop sign.length)
      if ds.isEmpty then none else some (e :: sign ++ ds, rest)
    else some ([], e :: rest)

/-- Reads a number: an integer has no zero in front of other digits, and neither fraction nor
exponent. -/
def readNumber (cs : List Char) : Option (Json × List Char) := do
  let negative := cs.head? == some '-'
  let (ds, rest) := spanDigits (if negative then cs.tail else cs)
  guard (!ds.isEmpty && (ds.length = 1 || ds.head? != some '0'))
  let (fraction, rest) ← readFraction rest
  let (exponent, rest) ← readExponent rest
  if fraction.isEmpty && exponent.isEmpty then
    let n := Nat.ofDigitChars 10 ds 0
    return (.integer (if negative then -(n : Int) else n), rest)
  else
    let sign := if negative then ['-'] else []
    return (.real (String.ofList (sign ++ ds ++ fraction ++ exponent)), rest)

/-! ## Values -/

/-- Reads the items of an array after its bracket, at least one; `done` holds the items before,
the last one first. -/
def readItems (item : Reader Json) : Nat → List Json → Reader (List Json)
  | 0, _, _ => none
  | fuel + 1, done, cs => do
    let (v, rest) ← item (skipBlank cs)
    match skipBlank rest with
    | ',' :: rest => readItems item fuel (v :: done) rest
    | ']' :: rest => return ((v :: done).reverse, rest)
    | _ => none

/-- Reads the members of an object after its brace, at least one; `done` holds the members before,
the last one first. -/
def readMembers (item : Reader Json) :
    Nat → List (String × Json) → Reader (List (String × Json))
  | 0, _, _ => none
  | fuel + 1, done, cs => do
    let (key, rest) ← readString (skipBlank cs)
    match skipBlank rest with
    | ':' :: rest => do
      let (v, rest) ← item (skipBlank rest)
      match skipBlank rest with
      | ',' :: rest => readMembers item fuel ((key, v) :: done) rest
      | '}' :: rest => return (((key, v) :: done).reverse, rest)
      | _ => none
    | _ => none

/-- Reads a value; `item` reads what stands in its arrays and objects. -/
def readWith (item : Reader Json) (cs : List Char) : Option (Json × List Char) :=
  match cs with
  | [] => none
  | '"' :: rest => (readChars [] rest).map fun (s, rest) => (.string s, rest)
  | '[' :: rest =>
    match skipBlank rest with
    | ']' :: rest => some (.array [], rest)
    | _ => (readItems item (rest.length + 1) [] rest).map fun (vs, rest) => (.array vs, rest)
  | '{' :: rest =>
    match skipBlank rest with
    | '}' :: rest => some (.object [], rest)
    | _ => (readMembers item (rest.length + 1) [] rest).map fun (ms, rest) => (.object ms, rest)
  | 'n' :: _ => readWord "null".toList .null cs
  | 't' :: _ => readWord "true".toList (.bool true) cs
  | 'f' :: _ => readWord "false".toList (.bool false) cs
  | 'N' :: _ => readWord "NaN".toList (.real "NaN") cs
  | 'I' :: _ => readWord "Infinity".toList (.real "Infinity") cs
  | '-' :: 'I' :: _ => readWord "-Infinity".toList (.real "-Infinity") cs
  | _ => readNumber cs

/-- Reads a value in which arrays and objects are nested no deeper than `depth`. -/
def readValue : Nat → Reader Json
  | 0 => readWith fun _ => none
  | depth + 1 => readWith (readValue depth)

/-- The value that a whole text stands for, if it is nested no deeper than `depth`. -/
def readNested? (depth : Nat) (text : String) : Option Json := do
  let (v, rest) ← readValue depth (skipBlank text.toList)
  guard (skipBlank rest).isEmpty
  return v

/-- The depth to which documents may be nested. -/
def standardDepth : Nat := 200

/-- The value that a whole text stands for. -/
def read? (text : String) : Option Json :=
  readNested? standardDepth text

end MessageHarvest.Json
