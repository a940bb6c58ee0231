import MessageHarvest.Text.Utf8

/-!
# Syntax trees

A `Node` has a kind, may be named or a mere token, may fill a field of its parent, and covers a
range of the source's bytes. Nothing is assumed of how a tree relates to its source: a node's
text is whatever the source holds in its range.
-/

namespace MessageHarvest

/-- The bytes of a program. -/
abbrev Source := ByteArray

/-- A range of byte offsets, its end excluded. -/
structure Span where
  start : Nat
  stop : Nat
  deriving DecidableEq, Repr, Inhabited

/-- A node of a syntax tree. -/
structure Node where
  kind : String
  named : Bool
  field : Option String
  /-- Absent for a node that has no text of its own. -/
  span : Option Span
  children : List Node
  deriving Repr, Inhabited

namespace Node

/-! ## Kinds of node that carry meaning here -/

namespace Kind

abbrev comment := "comment"
abbrev identifier := "identifier"
abbrev propertyIdentifier := "property_identifier"
abbrev number := "number"
abbrev string := "string"
abbrev templateString := "template_string"
abbrev templateSubstitution := "template_substitution"
abbrev variableDeclarator := "variable_declarator"
abbrev callExpression := "call_expression"
abbrev object := "object"
abbrev pair := "pair"
abbrev jsxOpeningElement := "jsx_opening_element"
abbrev jsxSelfClosingElement := "jsx_self_closing_element"
abbrev jsxAttribute := "jsx_attribute"
abbrev jsxExpression := "jsx_expression"

end Kind

/-! ## Children -/

/-- The children that are named. -/
def namedChildren (n : Node) : List Node :=
  n.children.filter (·.named)

/-- The named children that are no comments. -/
def significantChildren (n : Node) : List Node :=
  n.namedChildren.filter (·.kind ≠ Kind.comment)

/-- The first child that fills a field. -/
def childByField? (n : Node) (field : String) : Option Node :=
  n.children.find? (·.field = some field)

/-! ## Text -/

/-- The bytes that a node covers. -/
def bytes (src : Source) (n : Node) : List UInt8 :=
  match n.span with
  | none => []
  | some s => (src.extract s.start s.stop).data.toList

/-- The characters that a node covers. -/
def chars (src : Source) (n : Node) : List Char :=
  Utf8.decode (n.bytes src)

/-- The text that a node covers. -/
def text (src : Source) (n : Node) : String :=
  String.ofList (n.chars src)

end Node

/-- A source with its syntax tree, if it has one. -/
structure Document where
  source : Source
  root : Option Node

end MessageHarvest
