import MessageHarvest.Syntax.Node
import MessageHarvest.Text.Escape

/-!
# Literals

What string-like nodes stand for. A literal in an expression is decoded, in a JSX attribute it is
taken verbatim, and in a template every line end counts as one line feed.
-/

namespace MessageHarvest.Node

/-- What lies between the first and the last character. -/
def unquoted (text : List Char) : List Char :=
  text.tail.dropLast

/-- A text in which carriage return and line feed together are one line feed. -/
def singleLineEnds : List Char → List Char
  | [] => []
  | '\r' :: '\n' :: rest => '\n' :: singleLineEnds rest
  | c :: rest => c :: singleLineEnds rest

/-- A template literal without substitutions. -/
def isPlainTemplate (n : Node) : Bool :=
  n.kind = Kind.templateString && !n.namedChildren.any (·.kind = Kind.templateSubstitution)

/-- The decoded text between the quotes. -/
def decodedBody (src : Source) (n : Node) : Except Escape.Error String :=
  (Escape.unescapeChars (unquoted (n.chars src))).map String.ofList

/-- The text that a string literal stands for. -/
def stringValue? (src : Source) (n : Node) : Except Escape.Error (Option String) :=
  if n.kind = Kind.string then (n.decodedBody src).map some else .ok none

/-- The text that a string literal or a plain template stands for. -/
def staticValue? (src : Source) (n : Node) : Except Escape.Error (Option String) :=
  if n.kind = Kind.string then n.stringValue? src
  else if n.isPlainTemplate then
    (Escape.unescapeChars (singleLineEnds (unquoted (n.chars src)))).map (some <| String.ofList ·)
  else .ok none

/-- The verbatim text of a string in a JSX attribute. -/
def verbatimValue? (src : Source) (n : Node) : Option String :=
  if n.kind = Kind.string then some (String.ofList (unquoted (n.chars src))) else none

/-- The kinds of property key that name a property without being evaluated. -/
def staticKeyKinds : List String :=
  [Kind.propertyIdentifier, Kind.identifier, Kind.string, Kind.number]

/-- The name that a property key stands for, unless it is computed. -/
def keyName? (src : Source) (n : Node) : Except Escape.Error (Option String) :=
  if staticKeyKinds.contains n.kind then
    if n.kind = Kind.string then n.stringValue? src else .ok (some (n.text src))
  else .ok none

end MessageHarvest.Node
