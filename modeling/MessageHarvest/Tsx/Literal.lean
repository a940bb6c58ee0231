import MessageHarvest.Tsx.Grammar

/-!
# Literals and property names

Strings, templates, numbers and regular expressions, and the names that properties have.
-/

namespace MessageHarvest.Tsx

/-! ## Strings -/

/-- A leaf between two offsets. -/
def leaf (kind : String) (named : Bool) (start stop : Nat) : Node :=
  ⟨kind, named, none, some ⟨start, stop⟩, []⟩

/-- The part of a string at an offset: its node's kind and its end. -/
abbrev StringPart := Source → Nat → Option (String × Nat)

/-- In an expression: a run of text, or an escape. -/
def plainPart (quote : Char) : StringPart := fun src pos =>
  let stop := stringRun src quote pos
  if pos < stop then some ("string_fragment", stop)
  else if isAt src pos '\\' then (escape? src pos).map fun stop => ("escape_sequence", stop)
  else none

/-- In a JSX attribute: a run of text, or a character reference. -/
def jsxPart (quote : Char) : StringPart := fun src pos =>
  let stop := jsxStringRun src quote pos
  if pos < stop then some ("string_fragment", stop)
  else (characterReference? src pos).map fun stop => ("html_character_reference", stop)

/-- The parts of a string from an offset on, and where they end. -/
def stringParts (part : StringPart) (src : Source) (pos : Nat) : List Node × Nat :=
  match part src pos with
  | none => ([], pos)
  | some (kind, stop) =>
    if pos < stop ∧ stop ≤ src.size then
      let (rest, last) := stringParts part src stop
      (leaf kind true pos stop :: rest, last)
    else ([], pos)
termination_by src.size - pos

/-- A string whose parts and quotes are given. -/
def quoted (part : Char → StringPart) (quote : Char) : Phrase := fun src c =>
  if isAt src c.next quote then
    let text := String.singleton quote
    let (parts, last) := stringParts (part quote) src (c.next + 1)
    if isAt src last quote then
      let children := leaf text false c.next (c.next + 1) :: parts ++ [leaf text false last (last + 1)]
      some ([⟨Node.Kind.string, true, none, some ⟨c.next, last + 1⟩, children⟩],
        c.advance src (last + 1))
    else none
  else none

/-- A string in an expression. -/
def stringLiteral : Phrase := oneOf [quoted plainPart '\'', quoted plainPart '"']

/-- A string as the value of a JSX attribute. -/
def jsxString : Phrase := oneOf [quoted jsxPart '\'', quoted jsxPart '"']

/-! ## Templates -/

/-- The quote of a template. -/
def backQuote : String := "\x60"

/-- The text of a template up to something else. -/
def templateText : Phrase :=
  joined "string_fragment" true fun src pos =>
    let stop := templateRun src pos
    if pos < stop then some stop else none

/-- An escape in a template. -/
def templateEscape : Phrase :=
  joined "escape_sequence" true fun src pos =>
    if isAt src pos '\\' then escape? src pos else none

/-- A template whose substitutions hold `inner`; `whole` and `part` are the kinds of its nodes. -/
def templateOf (whole part : String) (inner : Phrase) : Phrase :=
  node whole <| seq [
    mark backQuote,
    many <| oneOf [templateText, templateEscape,
      fun src c =>
        -- the substitution begins directly behind the text
        let c := { c with next := c.stop, gap := [] }
        node part (seq [joinedMark "$\x7b", inner, mark "\x7d"]) src c],
    joinedMark backQuote]

/-- A template in an expression. -/
def templateLiteral (g : Grammar) : Phrase :=
  templateOf Node.Kind.templateString Node.Kind.templateSubstitution g.expressions

/-! ## Numbers and regular expressions -/

/-- A number. -/
def numberLiteral : Phrase := token Node.Kind.number true number?

/-- A regular expression. -/
def regex : Phrase :=
  node "regex" <| seq [
    mark "/",
    field "pattern" <| joined "regex_pattern" true fun src pos =>
      match regexEnd? src pos with
      | some stop => if pos < stop then some stop else none
      | none => none,
    joinedMark "/",
    option <| field "flags" <| joined "regex_flags" true fun src pos =>
      let stop := skipWhile src (fun b => 0x61 ≤ b && b ≤ 0x7A) pos
      if pos < stop then some stop else none]

/-! ## Names of properties -/

/-- A name that only its class can use. -/
def privateName : Phrase :=
  token "private_property_identifier" true fun src pos =>
    if isAt src pos '#' then word? src (pos + 1) else none

/-- The name of a property behind a dot. -/
def memberName : Phrase := oneOf [privateName, anyWord Node.Kind.propertyIdentifier]

/-- The name of a property in an object or a class. -/
def propertyName (g : Grammar) : Phrase :=
  oneOf [
    anyWord Node.Kind.propertyIdentifier,
    stringLiteral,
    numberLiteral,
    startingWith ['['] <| node "computed_property_name" (between "[" "]" g.expression),
    privateName]

end MessageHarvest.Tsx
