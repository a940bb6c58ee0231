import MessageHarvest.Tsx.Binding

/-!
# Types

The types that stand behind colons, between angle brackets and in declarations of types.
-/

namespace MessageHarvest.Tsx

/-! ## Members of object types -/

/-- The end of a member of an object type. -/
def memberEnd : Phrase :=
  oneOf [mark ";", mark ",", given fun src c => c.lineEnd || isAt src c.next '\x7d']

/-- A sign before a word or a mark, which says whether a mapped type adds or removes it. -/
def signed (p : Phrase) : Phrase :=
  oneOf [seq [mark "-", p], seq [mark "+", p], p]

/-- A member for all keys of a type: `[key: T]: U` or `[K in T as V]: U`. -/
def indexSignature (g : Grammar) : Phrase :=
  node "index_signature" <| seq [
    option (signed (modifier ["readonly"])),
    mark "[",
    oneOf [
      seq [field "name" (nameAs Node.Kind.identifier), mark ":", field "index_type" (g .type)],
      node "mapped_type_clause" <| seq [
        field "name" (nameAs "type_identifier"), keyword "in", field "type" (g .type),
        option (seq [keyword "as", field "alias" (g .type)])]],
    mark "]",
    option (signed (mark "?")),
    option (field "type" (ascription g))]

/-- A member that is a function. -/
def methodSignature (g : Grammar) : Phrase :=
  node "method_signature" <| seq [
    many (modifier ["static", "readonly", "async", "get", "set"]), option (mark "*"),
    field "name" (propertyName g), option (mark "?"),
    signature g]

/-- A member that is a value. -/
def propertySignature (g : Grammar) : Phrase :=
  node "property_signature" <| seq [
    option (node "accessibility_modifier" (modifier accessModifiers)),
    many (modifier ["static", "readonly"]),
    field "name" (propertyName g), option (mark "?"),
    option (field "type" (ascription g))]

/-- A member of an object type. -/
def typeMember (g : Grammar) : Phrase :=
  oneOf [
    startingWith ['(', '<'] (node "call_signature" (signature g)),
    node "construct_signature" (seq [
      keyword "new", option (typeParameters g), parameters g,
      option (field "type" (ascription g))]),
    indexSignature g,
    methodSignature g,
    propertySignature g]

/-- Members in braces, as a node of a kind. -/
def members (kind : String) (g : Grammar) : Phrase :=
  node kind <| between "\x7b" "\x7d" <| many <|
    oneOf [seq [typeMember g, memberEnd], mark ";", mark ","]

/-! ## Names and simple types -/

/-- The types that have a word of their own. -/
def predefined : List String :=
  ["any", "number", "boolean", "string", "symbol", "object", "void", "unknown", "never", "bigint"]

/-- The name of a type, perhaps inside a namespace, with the types given to it. -/
def namedType (g : Grammar) : Phrase := fun src c =>
  if predefined.contains (wordAhead src c) then
    node "predefined_type" (oneOf (predefined.map keyword)) src c
  else
    let base := first (anyWord "type_identifier") fun left =>
      extend "nested_type_identifier" (inField "module" left)
        (seq [mark ".", field "name" (anyWord "type_identifier")])
    let generic := first base fun left =>
      match left with
      | [n] =>
        if n.kind = "generic_type" then never
        else extend "generic_type" (inField "name" left) (typeArguments g)
      | _ => never
    generic src c

/-- Something imported in place, as a type. -/
def importedType (g : Grammar) : Phrase :=
  first
    (node Node.Kind.callExpression <| seq [
      field "function" (node "import" (keyword "import")),
      field "arguments" (node "arguments" (between "(" ")" (commas g.expression)))])
    fun left => oneOf [
      extend "member_expression" (inField "object" left) (seq [mark ".", field "property" memberName]),
      extend "generic_type" (inField "name" left) (typeArguments g)]

/-- The type of a value: `typeof x.y`. -/
def typeQuery (g : Grammar) : Phrase :=
  node "type_query" <| seq [
    keyword "typeof",
    oneOf [
      importedType g,
      first (oneOf [node "this" (keyword "this"), nameAs Node.Kind.identifier]) fun left => oneOf [
        extend "member_expression" (inField "object" left)
          (seq [oneOf [mark ".", mark "?."], field "property" memberName]),
        extend "subscript_expression" (inField "object" left)
          (seq [sameLine, mark "[", oneOf [numberLiteral, stringLiteral], mark "]"]),
        extend "instantiation_expression" left (typeArguments g)]]]

/-- A literal as a type. -/
def literalType (g : Grammar) : Phrase :=
  oneOf [
    node "literal_type" <| oneOf [
      stringLiteral, numberLiteral,
      node "unary_expression" (seq [oneOf [mark "-", mark "+"], numberLiteral]),
      node "true" (keyword "true"), node "false" (keyword "false"),
      node "null" (keyword "null"), node "undefined" (keyword "undefined")],
    templateOf "template_literal_type" "template_type" (g .type)]

/-! ## Composite types -/

/-- A place of a tuple type. -/
def tuplePlace (g : Grammar) : Phrase :=
  oneOf [
    seq [
      ahead (seq [option (mark "..."), anyWord "", option (mark "?"), mark ":"]),
      oneOf [
        node "optional_parameter" (seq [
          field "name" (anyWord Node.Kind.identifier), mark "?", field "type" (ascription g)]),
        node "required_parameter" (seq [
          field "name" (oneOf [
            node "rest_pattern" (seq [mark "...", anyWord Node.Kind.identifier]),
            anyWord Node.Kind.identifier]),
          field "type" (ascription g)])]],
    startingWith ['.'] (node "rest_type" (seq [mark "...", g .type])),
    first (g .type) fun left => extend "optional_type" left (mark "?")]

/-- The type of a function. -/
def functionType (g : Grammar) : Phrase :=
  startingWith ['(', '<'] <| node "function_type" <| seq [
    option (typeParameters g), parameters g, mark "=>",
    field "return_type" (oneOf [assertion g, typePredicate g, g .type])]

/-- The type of a class, as something to be called with `new`. -/
def constructorType (g : Grammar) : Phrase :=
  node "constructor_type" <| seq [
    option (keyword "abstract"), keyword "new", option (typeParameters g), parameters g,
    mark "=>", field "type" (g .type)]

/-- A type that no operator joins to what is around it. -/
def primaryType (g : Grammar) : Phrase :=
  oneOf [
    startingWith ['('] (node "parenthesized_type" (between "(" ")" (g .type))),
    startingWith ['\x7b'] (members "object_type" g),
    startingWith ['['] (node "tuple_type" (between "[" "]" (commas (tuplePlace g)))),
    startingWith ['*'] (node "existential_type" (mark "*")),
    literalType g,
    node "this_type" (keyword "this"),
    typeQuery g,
    importedType g,
    namedType g]

/-- A type with brackets behind it. -/
def suffixedType (g : Grammar) : Phrase :=
  first (primaryType g) fun left => seq [
    sameLine,
    oneOf [
      extend "array_type" left (seq [mark "[", mark "]"]),
      extend "lookup_type" left (between "[" "]" (g .type))]]

/-- A type with up to `n` words before it. -/
def prefixedUpTo (g : Grammar) : Nat → Phrase
  | 0 => suffixedType g
  | n + 1 => oneOf [
      node "index_type_query" (seq [keyword "keyof", prefixedUpTo g n]),
      node "readonly_type" (seq [keyword "readonly", prefixedUpTo g n]),
      suffixedType g]

/-- A type with words before it. -/
def prefixedType (g : Grammar) : Phrase :=
  oneOf [
    node "predefined_type" (seq [keyword "unique", keyword "symbol"]),
    node "infer_type" (seq [
      keyword "infer", anyWord "type_identifier", option (seq [keyword "extends", g .type])]),
    prefixedUpTo g 4]

/-- An operand of a union or an intersection. -/
def typeOperand (g : Grammar) : Phrase :=
  oneOf [functionType g, constructorType g, prefixedType g]

/-- Types that must all hold. -/
def intersectionType (g : Grammar) : Phrase :=
  let more : Phrase := seq [markNot "&" ['&', '='], typeOperand g]
  first (oneOf [startingWith ['&'] (node "intersection_type" more), typeOperand g]) fun left =>
    extend "intersection_type" left more

/-- Types of which one must hold. -/
def unionType (g : Grammar) : Phrase :=
  let more : Phrase := seq [markNot "|" ['|', '='], intersectionType g]
  first (oneOf [startingWith ['|'] (node "union_type" more), intersectionType g]) fun left =>
    extend "union_type" left more

/-- Any type. -/
def typeSyntax (g : Grammar) : Phrase :=
  first (unionType g) fun left =>
    extend "conditional_type" (inField "left" left) <| seq [
      keyword "extends", field "right" (unionType g),
      mark "?", field "consequence" (g .type), mark ":", field "alternative" (g .type)]

end MessageHarvest.Tsx
