import MessageHarvest.Message.Draft
import MessageHarvest.Syntax.Literal

/-!
# Reading the fields of a message

Two constructs carry fields: the pairs of an object literal and the attributes of a JSX tag. Only
literals are read; whatever else stands in a field is passed over. Keys and values are decoded
before it is known whether the field matters, so that an undecodable one fails the reading.
-/

namespace MessageHarvest.Node

/-! ## Object literals -/

/-- Puts a child of an object literal into a draft. With `templates` a plain template counts as
a value too. -/
def readPair (src : Source) (templates : Bool) (d : Draft) (child : Node) :
    Except Escape.Error Draft :=
  if child.kind = Kind.pair then
    match child.childByField? "key", child.childByField? "value" with
    | some key, some value => do
      match ← key.keyName? src with
      | none => return d
      | some name =>
        match ← if templates then value.staticValue? src else value.stringValue? src with
        | none => return d
        | some text => return d.put name text
    | _, _ => return d
  else return d

/-- The fields that the pairs of an object literal set. -/
def readObject (src : Source) (templates : Bool) (object : Node) : Except Escape.Error Draft :=
  object.significantChildren.foldlM (readPair src templates) .empty

/-- The object literals that are values of the pairs of an object literal. -/
def nestedObjects (object : Node) : List Node :=
  object.significantChildren.filterMap fun child =>
    if child.kind = Kind.pair then
      (child.childByField? "value").filter (·.kind = Kind.object)
    else none

/-! ## JSX attributes -/

/-- The text of an attribute's value: verbatim for a string, decoded for a literal in braces. -/
def attributeText? (src : Source) (value : Node) : Except Escape.Error (Option String) :=
  if value.kind = Kind.string then return value.verbatimValue? src
  else if value.kind = Kind.jsxExpression then
    match value.significantChildren with
    | [] => return none
    | inner :: _ => inner.staticValue? src
  else return none

/-- Puts a child of a JSX tag into a draft. -/
def readAttribute (src : Source) (d : Draft) (child : Node) : Except Escape.Error Draft :=
  if child.kind = Kind.jsxAttribute then
    match child.significantChildren with
    | name :: value :: _ => do
      match ← value.attributeText? src with
      | none => return d
      | some text => return d.put (name.text src) text
    | _ => return d
  else return d

/-- The fields that the attributes of a JSX tag set. -/
def readTag (src : Source) (tag : Node) : Except Escape.Error Draft :=
  tag.significantChildren.foldlM (readAttribute src) .empty

end MessageHarvest.Node
