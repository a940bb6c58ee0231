import MessageHarvest.Tsx.Literal

/-!
# Patterns and parameters

What stands on the left of an assignment, in a declaration or between the parentheses of a
function, with the types that may be written beside it.
-/

namespace MessageHarvest.Tsx

/-! ## Types beside names -/

/-- The type of a name, behind a colon. -/
def ascription (g : Grammar) : Phrase :=
  node "type_annotation" (seq [mark ":", g .type])

/-- What a result says of an argument: that it is of a type. -/
def typePredicate (g : Grammar) : Phrase :=
  node "type_predicate" <| seq [
    field "name" (oneOf [node "this" (keyword "this"), nameAs Node.Kind.identifier]),
    keyword "is", field "type" (g .type)]

/-- What a function asserts of an argument. -/
def assertion (g : Grammar) : Phrase :=
  node "asserts" <| seq [
    keyword "asserts",
    oneOf [typePredicate g, node "this" (keyword "this"), nameAs Node.Kind.identifier]]

/-- The type of a function's result, behind a colon. -/
def resultAscription (g : Grammar) : Phrase :=
  startingWith [':'] <| oneOf [
    node "asserts_annotation" (seq [mark ":", assertion g]),
    node "type_predicate_annotation" (seq [mark ":", typePredicate g]),
    ascription g]

/-- A parameter of a generic declaration. -/
def typeParameter (g : Grammar) : Phrase :=
  node "type_parameter" <| seq [
    many (seq [oneOf [keyword "const", keyword "in", keyword "out"], ahead (anyWord "")]),
    field "name" (anyWord "type_identifier"),
    option (field "constraint" (node "constraint" (seq [keyword "extends", g .type]))),
    option (field "value" (node "default_type" (seq [markNot "=" ['=', '>'], g .type])))]

/-- The parameters of a generic declaration. -/
def typeParameters (g : Grammar) : Phrase :=
  startingWith ['<'] <|
    field "type_parameters" (node "type_parameters" (between "<" ">" (commas1 (typeParameter g))))

/-- The types given to something generic. -/
def typeArguments (g : Grammar) : Phrase :=
  startingWith ['<'] <| field "type_arguments" <|
    node "type_arguments" (seq [markNot "<" ['<', '='], commas1 (g .type), mark ">"])

/-! ## Patterns -/

/-- The value that a pattern has where there is none. -/
def initial (g : Grammar) : Phrase := seq [markNot "=" ['=', '>'], field "right" g.expression]

/-- A pattern, with an initial value or without. -/
def patternWithDefault (g : Grammar) (assigned : Bool) : Phrase :=
  first (g (.pattern assigned)) fun left =>
    extend "assignment_pattern" (inField "left" left) (initial g)

/-- A pattern for all that is left. -/
def restPattern (g : Grammar) (assigned : Bool) : Phrase :=
  node "rest_pattern" (seq [mark "...", g (.pattern assigned)])

/-- What stands in a destructuring pattern for a property of its own name. -/
def shorthandPattern (g : Grammar) : Phrase :=
  first (nameAs "shorthand_property_identifier_pattern") fun left =>
    extend "object_assignment_pattern" (inField "left" left) (initial g)

/-- A pattern that takes an object apart. -/
def objectPattern (g : Grammar) (assigned : Bool) : Phrase :=
  node "object_pattern" <| between "\x7b" "\x7d" <| commas <| oneOf [
    startingWith ['.'] (restPattern g assigned),
    node "pair_pattern" <| seq [
      field "key" (propertyName g), mark ":", field "value" (patternWithDefault g assigned)],
    shorthandPattern g]

/-- A pattern that takes an array apart. -/
def arrayPattern (g : Grammar) (assigned : Bool) : Phrase :=
  node "array_pattern" <| between "[" "]" <| commas <|
    oneOf [startingWith ['.'] (restPattern g assigned), patternWithDefault g assigned]

/-- A pattern that takes something apart. -/
def destructuring (g : Grammar) (assigned : Bool) : Phrase :=
  oneOf [
    startingWith ['\x7b'] (objectPattern g assigned),
    startingWith ['['] (arrayPattern g assigned)]

/-! ## Parameters -/

/-- What is put before a class, a member or a parameter to change it. -/
def decorator (g : Grammar) : Phrase :=
  startingWith ['@'] <| node "decorator" <| seq [
    mark "@",
    oneOf [
      node "parenthesized_expression" (between "(" ")" g.expression),
      first (nameAs Node.Kind.identifier) fun left => oneOf [
        extend "member_expression" (inField "object" left)
          (seq [mark ".", field "property" memberName]),
        extend Node.Kind.callExpression (inField "function" left) <| seq [
          option (typeArguments g),
          field "arguments" (node "arguments" (between "(" ")" (commas (oneOf [
            startingWith ['.'] (node "spread_element" (seq [mark "...", g.expression])),
            g.expression]))))]]]]

/-- A word that changes what follows it, and is no name itself. -/
def modifier (words : List String) : Phrase :=
  seq [
    oneOf (words.map keyword),
    given fun src c =>
      (wordChar? src c.next).isSome || ['[', '\x7b', '*', '#', '\'', '"', '.'].any (isAt src c.next)]

/-- The words that say who may use a member. -/
def accessModifiers : List String := ["public", "private", "protected"]

/-- One parameter of a function. -/
def parameter (g : Grammar) : Phrase := fun src c =>
  let body := seq [
    many (decorator g),
    option (node "accessibility_modifier" (modifier accessModifiers)),
    option (node "override_modifier" (modifier ["override"])),
    option (modifier ["readonly"]),
    field "pattern" (oneOf [
      startingWith ['.'] (restPattern g false),
      node "this" (keyword "this"),
      g (.pattern false)])]
  let value := option (seq [markNot "=" ['=', '>'], field "value" g.expression])
  oneOf [
    node "optional_parameter"
      (seq [body, mark "?", option (field "type" (ascription g)), value]),
    node "required_parameter" (seq [body, option (field "type" (ascription g)), value])] src c

/-- The parameters of a function. -/
def parameters (g : Grammar) : Phrase :=
  startingWith ['('] <|
    field "parameters" (node "formal_parameters" (between "(" ")" (commas (parameter g))))

/-- What is known of a function from outside: its type parameters, its parameters and the type of
its result. -/
def signature (g : Grammar) : Phrase :=
  seq [option (typeParameters g), parameters g, option (field "return_type" (resultAscription g))]

end MessageHarvest.Tsx
