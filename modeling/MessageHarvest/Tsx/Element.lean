import MessageHarvest.Tsx.Expression

/-!
# JSX

Tags, their attributes and what stands between an opening and a closing tag. The names of the two
tags are not compared.
-/

namespace MessageHarvest.Tsx

/-- A name in a tag, as a leaf of a kind. -/
def jsxName (kind : String) : Phrase := token kind true jsxName?

/-- A name behind the name of its namespace. -/
def namespacedName (kind : String) : Phrase :=
  node "jsx_namespace_name" (seq [jsxName kind, mark ":", jsxName kind])

/-- The name of an element. -/
def elementName : Phrase :=
  oneOf [
    namespacedName Node.Kind.identifier,
    first (jsxName Node.Kind.identifier) fun left =>
      extend "member_expression" (inField "object" left)
        (seq [mark ".", field "property" (anyWord Node.Kind.propertyIdentifier)])]

/-- An expression in braces; there may be none. -/
def jsxExpression (g : Grammar) : Phrase :=
  startingWith ['\x7b'] <| node Node.Kind.jsxExpression <|
    between "\x7b" "\x7d" (option (oneOf [spread g, g.expressions]))

/-- An attribute with its value, or a spread of many. -/
def jsxAttribute (g : Grammar) : Phrase :=
  field "attribute" <| oneOf [
    jsxExpression g,
    node Node.Kind.jsxAttribute <| seq [
      oneOf [namespacedName Node.Kind.identifier, jsxName Node.Kind.propertyIdentifier],
      option (seq [mark "=", oneOf [jsxString, jsxExpression g, g .element]])]]

/-- A tag up to its end. -/
def tagStart (g : Grammar) : Phrase :=
  seq [
    mark "<",
    option (seq [
      field "name" elementName, option (typeArguments g), many (jsxAttribute g)])]

/-- Text between tags. -/
def jsxText : Phrase :=
  joined "jsx_text" true fun src pos =>
    let stop := jsxTextRun src pos
    if hasJsxText src pos stop false then some stop else none

/-- What may stand between an opening and a closing tag. -/
def jsxChild (g : Grammar) : Phrase :=
  oneOf [
    jsxText,
    startingWith ['&'] (token "html_character_reference" true characterReference?),
    jsxExpression g,
    seq [startingWith ['<'] (notAhead (mark "</")), g .element]]

/-- The closing tag. -/
def closingTag : Phrase :=
  node "jsx_closing_element" (seq [mark "</", option (field "name" elementName), mark ">"])

/-- A tag that closes itself, or an opening tag with all up to its closing tag. -/
def element (g : Grammar) : Phrase := fun src c =>
  if !isAt src c.next '<' then none
  else
    match tagStart g src c with
    | none => none
    | some (parts, c) =>
      if 1 < parts.length && isAt src c.next '/' then
        extend Node.Kind.jsxSelfClosingElement parts (mark "/>") src c
      else
        match extend Node.Kind.jsxOpeningElement parts (mark ">") src c with
        | none => none
        | some (opening, c) =>
          extend "jsx_element" (inField "open_tag" opening)
            (seq [many (jsxChild g), field "close_tag" closingTag]) src c

end MessageHarvest.Tsx
