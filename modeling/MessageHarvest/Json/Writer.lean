import MessageHarvest.Json.Value

/-!
# Writing JSON

Values are written over several lines, two blanks deeper in each array or object; an empty one is
written as two brackets. In a string only quotes, backslashes and control characters below U+0020
are escaped.
-/

namespace MessageHarvest.Json

/-! ## Strings -/

/-- The lower-case hexadecimal digit of a number below 16. -/
def hexDigit (n : Nat) : Char := Nat.digitChar n

/-- A character as it stands between quotes. -/
def writeChar (c : Char) : List Char :=
  match c with
  | '"' => ['\\', '"']
  | '\\' => ['\\', '\\']
  | '\n' => ['\\', 'n']
  | '\r' => ['\\', 'r']
  | '\t' => ['\\', 't']
  | '\x08' => ['\\', 'b']
  | '\x0c' => ['\\', 'f']
  | c =>
    if c.toNat < 0x20 then ['\\', 'u', '0', '0', hexDigit (c.toNat / 16), hexDigit (c.toNat % 16)]
    else [c]

/-- A string between quotes. -/
def writeString (s : String) : List Char :=
  '"' :: s.toList.flatMap writeChar ++ ['"']

/-- An integer in decimal. -/
def writeInteger : Int → List Char
  | .ofNat n => Nat.toDigits 10 n
  | .negSucc n => '-' :: Nat.toDigits 10 (n + 1)

/-! ## Values -/

/-- A line end, and the blanks before what stands on the next line. -/
def newLine (margin : Nat) : List Char :=
  '\n' :: List.replicate margin ' '

mutual

/-- A value whose first line begins at `margin`. -/
def writeValue (margin : Nat) : Json → List Char
  | null => ['n', 'u', 'l', 'l']
  | bool true => ['t', 'r', 'u', 'e']
  | bool false => ['f', 'a', 'l', 's', 'e']
  | integer n => writeInteger n
  | real spelling => spelling.toList
  | string s => writeString s
  | array [] => ['[', ']']
  | array (v :: rest) =>
    '[' :: newLine (margin + 2) ++ writeValue (margin + 2) v ++ writeItems (margin + 2) rest ++
      newLine margin ++ [']']
  | object [] => ['{', '}']
  | object ((key, v) :: rest) =>
    '{' :: newLine (margin + 2) ++ writeString key ++ ':' :: ' ' :: writeValue (margin + 2) v ++
      writeMembers (margin + 2) rest ++ newLine margin ++ ['}']

/-- The items of an array after the first. -/
def writeItems (margin : Nat) : List Json → List Char
  | [] => []
  | v :: rest => ',' :: newLine margin ++ writeValue margin v ++ writeItems margin rest

/-- The members of an object after the first. -/
def writeMembers (margin : Nat) : List (String × Json) → List Char
  | [] => []
  | (key, v) :: rest =>
    ',' :: newLine margin ++ writeString key ++ ':' :: ' ' :: writeValue margin v ++
      writeMembers margin rest

end

/-- A value as a text. -/
def write (v : Json) : String :=
  String.ofList (writeValue 0 v)

end MessageHarvest.Json
