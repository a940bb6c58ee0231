import MessageHarvest.Markup.Token

/-!
# Texts as markup

`escape` turns a text into markup that is meant to show it: each tag in it gets one backslash more
than twice as many as stand before it. A single backslash at the end is doubled.
-/

namespace MessageHarvest.Markup

/-- A token as markup for what it looks like. -/
def Token.escape : Token → List Char
  | char c => [c]
  | bracket n => backslashes n ++ ['[']
  | tag n body => backslashes (2 * n + 1) ++ '[' :: body ++ [']']

/-- The text ends in exactly one backslash. -/
def endsInOneBackslash (cs : List Char) : Bool :=
  match cs.reverse with
  | '\\' :: '\\' :: _ => false
  | '\\' :: _ => true
  | _ => false

/-- A text as markup. -/
def escapeChars (cs : List Char) : List Char :=
  let escaped := (tokens cs).flatMap Token.escape
  if endsInOneBackslash escaped then escaped ++ ['\\'] else escaped

/-- A text as markup. -/
def escape (s : String) : String :=
  String.ofList (escapeChars s.toList)

end MessageHarvest.Markup
