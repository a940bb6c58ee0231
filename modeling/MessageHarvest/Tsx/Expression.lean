import MessageHarvest.Tsx.TypeSyntax

/-!
# Expressions

Operands, what may be put behind and before them, and the operators between them. An arrow
function counts as an operand; so does an object or array that turns out to be assigned to, and
is then a pattern.
-/

namespace MessageHarvest.Tsx

/-! ## Objects, arrays and arguments -/

/-- All items of something, spread out. -/
def spread (g : Grammar) : Phrase :=
  startingWith ['.'] (node "spread_element" (seq [mark "...", g.expression]))

/-- The arguments of a call. -/
def arguments (g : Grammar) : Phrase :=
  field "arguments" <| node "arguments" <| between "(" ")" <|
    commas (oneOf [spread g, g.expression])

/-- An array. -/
def array (g : Grammar) : Phrase :=
  node "array" (between "[" "]" (commas (oneOf [spread g, g.expression])))

/-- A member of an object or a class that is a function with a body. -/
def method (g : Grammar) : Phrase :=
  node "method_definition" <| seq [
    option (node "accessibility_modifier" (modifier accessModifiers)),
    many (oneOf [
      modifier ["static", "readonly", "async", "get", "set"],
      node "override_modifier" (modifier ["override"])]),
    option (mark "*"),
    field "name" (propertyName g), option (mark "?"),
    signature g, field "body" (g .block)]

/-- A member of an object. -/
def objectMember (g : Grammar) : Phrase :=
  oneOf [
    spread g,
    node Node.Kind.pair (seq [
      field "key" (propertyName g), mark ":", field "value" g.expression]),
    method g,
    nameAs "shorthand_property_identifier"]

/-- An object. -/
def object (g : Grammar) : Phrase :=
  node Node.Kind.object (between "\x7b" "\x7d" (commas (objectMember g)))

/-- The kinds of node that can be assigned to. -/
def assignable : List String :=
  [Node.Kind.identifier, "member_expression", "subscript_expression", "object_pattern",
    "array_pattern", "parenthesized_expression", "non_null_expression", "undefined"]

/-- The sign of a plain assignment. -/
def assignmentMark : Phrase := markNot "=" ['=', '>']

/-- An object or an array, or a pattern of the same look if it is assigned to. -/
def composite (g : Grammar) (literal : Phrase) : Phrase := fun src c =>
  match seq [literal, notAhead assignmentMark] src c with
  | some r => some r
  | none => seq [destructuring g true, ahead assignmentMark] src c

/-! ## Functions and classes -/

/-- The body of an arrow function: statements in braces, or an expression. Braces that are both an
object and a labelled statement are an object. -/
def arrowBody (g : Grammar) (at_ : Context) : Phrase := field "body" fun src c =>
  if isAt src c.next '\x7b' then
    match g .block src c with
    | none => g (.expression at_) src c
    | some (nodes, stop) =>
      if nodes.any fun n => n.children.any (·.kind = "labeled_statement") then
        match object g src c with
        | some (alternative, stop') =>
          if stop'.stop = stop.stop then some (alternative, stop') else some (nodes, stop)
        | none => some (nodes, stop)
      else some (nodes, stop)
  else g (.expression at_) src c

/-- An arrow function. -/
def arrowFunction (g : Grammar) (at_ : Context) : Phrase :=
  let head : Phrase := oneOf [
    field "parameter" (seq [name, ahead (mark "=>")]),
    if at_.plainArrows then seq [parameters g, ahead (mark "=>")]
    else seq [signature g, ahead (mark "=>")]]
  node "arrow_function" <| seq [
    oneOf [seq [keyword "async", sameLine, head], head], mark "=>", arrowBody g at_]

/-- A function as an expression. -/
def functionExpression (g : Grammar) : Phrase :=
  let tail : Phrase := seq [option (field "name" (nameAs Node.Kind.identifier)), signature g,
    field "body" (g .block)]
  let async : Phrase := option (seq [keyword "async", sameLine])
  oneOf [
    node "generator_function" (seq [async, keyword "function", mark "*", tail]),
    node "function_expression" (seq [async, keyword "function", tail])]

/-- A block that a class runs once. -/
def staticBlock (g : Grammar) : Phrase :=
  node "class_static_block" (seq [keyword "static", field "body" (g .block)])

/-- A member of a class that holds a value. -/
def classField (g : Grammar) : Phrase :=
  node "public_field_definition" <| seq [
    many (oneOf [
      modifier ["declare", "static", "readonly", "abstract", "accessor"],
      node "accessibility_modifier" (modifier accessModifiers),
      node "override_modifier" (modifier ["override"])]),
    field "name" (propertyName g), option (oneOf [mark "?", markNot "!" ['=']]),
    option (field "type" (ascription g)),
    option (seq [assignmentMark, field "value" g.expression]),
    statementEnd]

/-- A member of a class. -/
def classMember (g : Grammar) : Phrase :=
  oneOf [
    mark ";",
    decorator g,
    staticBlock g,
    seq [method g, option (mark ";")],
    seq [
      node "index_signature" (seq [many (modifier ["static"]), indexSignature g]), statementEnd],
    seq [
      node "abstract_method_signature" (seq [
        many (oneOf [modifier ["abstract", "static", "async", "get", "set", "override"],
          node "accessibility_modifier" (modifier accessModifiers)]),
        option (mark "*"), field "name" (propertyName g), option (mark "?"), signature g]),
      statementEnd],
    classField g]

/-- The members of a class in braces. -/
def classBody (g : Grammar) : Phrase :=
  field "body" (node "class_body" (between "\x7b" "\x7d" (many (classMember g))))

/-- What a class is derived from and promises. -/
def heritage (g : Grammar) : Phrase :=
  node "class_heritage" <| seq [
    option (node "extends_clause" (seq [
      keyword "extends",
      separated (mark ",") (seq [field "value" (g (.operand .free)), option (typeArguments g)])])),
    option (node "implements_clause" (seq [keyword "implements", separated (mark ",") (g .type)]))]

/-- What follows the word `class`; `named` recognises its name. -/
def classTail (g : Grammar) (named : Phrase) : Phrase :=
  seq [
    field "name" named, option (typeParameters g),
    option (seq [ahead (oneOf [keyword "extends", keyword "implements"]), heritage g]),
    classBody g]

/-- The name of a class. -/
def className : Phrase :=
  seq [notAhead (oneOf [keyword "implements", keyword "extends"]), nameAs "type_identifier"]

/-- A class as an expression. -/
def classExpression (g : Grammar) : Phrase :=
  node "class" (seq [many (decorator g), keyword "class", classTail g (option className)])

/-! ## Operands -/

/-- The word behind `import` or `new` that gives them a meaning of their own. -/
def metaProperty : Phrase :=
  node "meta_property" <| oneOf [
    seq [keyword "new", mark ".", keyword "target"],
    seq [keyword "import", mark ".", keyword "meta"]]

/-- A namespace with a body of its own. -/
def internalModule (g : Grammar) : Phrase :=
  node "internal_module" <| seq [
    keyword "namespace", sameLine,
    field "name" (first (nameAs Node.Kind.identifier) fun left =>
      extend "nested_identifier" (inField "object" left)
        (seq [mark ".", field "property" memberName])),
    field "body" (g .block)]

/-- An operand that begins with a word. -/
def wordOperand (g : Grammar) (at_ : Context) : Phrase := fun src c =>
  let leafOf (word : String) : Phrase := token word true (fixedEnd? word)
  match wordAhead src c with
  | "this" => leafOf "this" src c
  | "super" => leafOf "super" src c
  | "true" => leafOf "true" src c
  | "false" => leafOf "false" src c
  | "null" => leafOf "null" src c
  | "undefined" => oneOf [arrowFunction g at_, leafOf "undefined"] src c
  | "function" => functionExpression g src c
  | "class" => classExpression g src c
  | "async" => oneOf [functionExpression g, arrowFunction g at_, name] src c
  | "new" => oneOf [metaProperty, g .constructed] src c
  | "import" => oneOf [metaProperty, leafOf "import"] src c
  | "namespace" => oneOf [internalModule g, arrowFunction g at_, name] src c
  | _ => oneOf [arrowFunction g at_, name] src c

/-- An operand without anything before or behind it. -/
def primary (g : Grammar) (at_ : Context) : Phrase := fun src c =>
  let b := byteAt src c.next
  let is (ch : Char) : Bool := b == ascii ch
  if is '(' then
    oneOf [arrowFunction g at_,
      node "parenthesized_expression" (between "(" ")" (seq [g.expressions,
        option (field "type" (ascription g))]))] src c
  else if is '\x7b' then composite g (object g) src c
  else if is '[' then composite g (array g) src c
  else if is '\'' || is '"' then stringLiteral src c
  else if is '/' then regex src c
  else if is '<' then oneOf [arrowFunction g at_, g .element] src c
  else if is '#' then privateName src c
  else if is '@' then classExpression g src c
  else if b == 0x60 then templateLiteral g src c
  else if isDigitByte b || is '.' then numberLiteral src c
  else wordOperand g at_ src c

/-! ## Behind an operand -/

/-- The mark that reaches into a value only if it is there. -/
def optionalMark : Phrase :=
  token "?." false fun src pos =>
    match fixedEnd? "?." src pos with
    | some stop => if isDigitByte (byteAt src stop) then none else some stop
    | none => none

/-- The mark that reaches into a value only if it is there, as a node. -/
def optionalChain : Phrase := field "optional_chain" (node "optional_chain" optionalMark)

/-- A dot that is not the first of three. -/
def dot : Phrase := markNot "." ['.']

/-- A property of what has been recognised. -/
def memberOf (g : Grammar) (left : List Node) : Phrase :=
  oneOf [
    startingWith ['.', '?'] (extend "member_expression" (inField "object" left)
      (seq [oneOf [dot, optionalChain], field "property" memberName])),
    startingWith ['[', '?'] (extend "subscript_expression" (inField "object" left)
      (seq [option optionalChain, mark "[", field "index" g.expressions, mark "]"]))]

/-- The characters before which types in angle brackets may end an expression. -/
def afterTypes : Phrase :=
  given fun src c =>
    src.size ≤ c.next || c.lineEnd ||
      [')', ']', ',', ';', ':', '.', '?', '=', '\x7d', '|', '&', '{'].any (isAt src c.next)

/-- A call of what has been recognised, or a template that it reads. -/
def callOf (g : Grammar) (left : List Node) : Phrase :=
  oneOf [
    startingWith ['(', '<'] (extend Node.Kind.callExpression (inField "function" left)
      (seq [option (typeArguments g), arguments g])),
    extend Node.Kind.callExpression (inField "function" left)
      (seq [option (typeArguments g), field "arguments" (templateLiteral g)]),
    startingWith ['?'] (extend Node.Kind.callExpression (inField "function" left)
      (seq [optionalMark, option (typeArguments g), arguments g]))]

/-- Whatever may be put behind an operand. -/
def suffix (g : Grammar) (left : List Node) : Phrase :=
  oneOf [
    memberOf g left,
    callOf g left,
    startingWith ['!'] (seq [sameLine, extend "non_null_expression" left (markNot "!" ['='])]),
    startingWith ['<'] (extend "instantiation_expression" left (seq [typeArguments g, afterTypes]))]

/-- What a phrase makes of nodes, or the nodes themselves. -/
def perhaps (nodes : List Node) (p : Phrase) : Phrase :=
  oneOf [p, fun _ c => some (nodes, c)]

/-- An operand with all that is behind it. -/
def suffixed (g : Grammar) (at_ : Context) : Phrase := fun src c =>
  match first (primary g at_) (suffix g) src c with
  | none => none
  | some (nodes, c) =>
    perhaps nodes (seq [sameLine, extend "update_expression" (inField "argument" nodes)
      (field "operator" (oneOf [mark "++", mark "--"]))]) src c

/-- What `new` makes an object of, with its arguments. -/
def construction (g : Grammar) : Phrase :=
  node "new_expression" <| seq [
    keyword "new",
    field "constructor" (oneOf [
      seq [ahead (keyword "new"), notAhead metaProperty, g .constructed],
      first (primary g .free) fun left => oneOf [
        memberOf g left,
        seq [given fun _ _ => left.any (·.kind = Node.Kind.templateString), never]]]),
    option (seq [option (typeArguments g), arguments g])]

/-! ## Before an operand -/

/-- The words and marks that stand before an operand. -/
def unaryMark : Phrase := fun src c =>
  match wordAhead src c with
  | "typeof" => keyword "typeof" src c
  | "void" => keyword "void" src c
  | "delete" => keyword "delete" src c
  | _ => oneOf [mark "!", mark "~", markNot "+" ['+'], markNot "-" ['-']] src c

/-- An operand with all that is before and behind it. -/
def operand (g : Grammar) (at_ : Context) : Phrase :=
  oneOf [
    node "unary_expression" (seq [
      field "operator" unaryMark, field "argument" (g (.operand at_))]),
    startingWith ['+', '-'] (node "update_expression" (seq [
      field "operator" (oneOf [mark "++", mark "--"]), field "argument" (g (.operand at_))])),
    node "await_expression" (seq [keyword "await", g (.operand at_)]),
    suffixed g at_]

/-! ## Between operands -/

/-- An operator between two operands. -/
structure Operator where
  text : String
  /-- How strongly it binds. -/
  strength : Nat
  /-- A character that must not follow, as the operator would be another one. -/
  unlike : List Char

/-- The operators that are marks, the longer ones first. -/
def operators : List Operator := [
  ⟨">>>", 9, ['=']⟩, ⟨"===", 7, []⟩, ⟨"!==", 7, []⟩,
  ⟨"**", 12, ['=']⟩, ⟨"<<", 9, ['=']⟩, ⟨">>", 9, ['=', '>']⟩, ⟨"&&", 3, ['=']⟩, ⟨"||", 2, ['=']⟩,
  ⟨"??", 1, ['=']⟩, ⟨"==", 7, ['=']⟩, ⟨"!=", 7, ['=']⟩, ⟨"<=", 8, []⟩, ⟨">=", 8, []⟩,
  ⟨"+", 10, ['=', '+']⟩, ⟨"-", 10, ['=', '-']⟩, ⟨"*", 11, ['=', '*']⟩, ⟨"/", 11, ['=']⟩,
  ⟨"%", 11, ['=']⟩, ⟨"&", 6, ['=', '&']⟩, ⟨"^", 5, ['=']⟩, ⟨"|", 4, ['=', '|']⟩,
  ⟨"<", 8, ['=', '<']⟩, ⟨">", 8, ['=', '>']⟩]

/-- The operator at a place. -/
def operatorAhead? (at_ : Context) (src : Source) (c : Cursor) : Option Operator :=
  if (wordChar? src c.next).isSome then
    match wordAhead src c with
    | "in" => if at_.noIn then none else some ⟨"in", 8, []⟩
    | "instanceof" => some ⟨"instanceof", 8, []⟩
    | _ => none
  else
    operators.find? fun o =>
      match fixedEnd? o.text src c.next with
      | some stop => !o.unlike.any (isAt src stop)
      | none => false

/-- A type that a value is said to have. -/
def typeClaim (g : Grammar) (left : List Node) : Phrase := fun src c =>
  match wordAhead src c with
  | "as" => extend "as_expression" left (seq [keyword "as", oneOf [keyword "const", g .type]]) src c
  | "satisfies" => extend "satisfies_expression" left (seq [keyword "satisfies", g .type]) src c
  | _ => none

/-- What an operator, or a type that is claimed, makes of the operand before it. -/
def operation (g : Grammar) (floor : Nat) (at_ : Context) : Phrase :=
  first (operand g at_) fun left src c =>
    match operatorAhead? at_ src c with
    | some o =>
      if o.strength < floor then none
      else
        let next := if o.text = "**" then o.strength else o.strength + 1
        extend "binary_expression" (inField "left" left) (seq [
          field "operator" (mark o.text), field "right" (g (.operation next at_))]) src c
    | none => if 8 < floor then none else typeClaim g left src c

/-- The mark between a condition and its consequence. -/
def conditionMark : Phrase :=
  token "?" false fun src pos =>
    if isAt src pos '?' && !isAt src (pos + 1) '?' &&
        !(isAt src (pos + 1) '.' && !isDigitByte (byteAt src (pos + 2))) then some (pos + 1)
    else none

/-- What a question mark makes of the condition before it. -/
def choice (g : Grammar) (at_ : Context) (condition : List Node) : Phrase :=
  let after (consequence : Context) : Phrase :=
    extend "ternary_expression" (inField "condition" condition) <| seq [
      conditionMark, field "consequence" (g (.expression consequence)), mark ":",
      field "alternative" (g (.expression at_))]
  startingWith ['?'] (oneOf [after .free, after ⟨false, true⟩])

/-- The marks of assignments that compute. -/
def computingMarks : List String :=
  [">>>=", "**=", "<<=", ">>=", "&&=", "||=", "??=", "+=", "-=", "*=", "/=", "%=", "&=", "^=", "|="]

/-- What the sign of an assignment makes of what is before it. -/
def assignment (g : Grammar) (at_ : Context) (left : List Node) : Phrase :=
  if left.any fun n => assignable.contains n.kind then
    oneOf [
      extend "assignment_expression" (inField "left" left)
        (seq [assignmentMark, field "right" (g (.expression at_))]),
      extend "augmented_assignment_expression" (inField "left" left)
        (seq [field "operator" (oneOf (computingMarks.map mark)),
          field "right" (g (.expression at_))])]
  else never

/-- What a generator hands out. -/
def yielding (g : Grammar) (at_ : Context) : Phrase :=
  node "yield_expression" <| seq [
    keyword "yield",
    oneOf [
      seq [sameLine, mark "*", g (.expression at_)],
      seq [sameLine, g (.expression at_)],
      notAhead (oneOf [assignmentMark, mark "=>", mark ".", mark "("])]]

/-- One expression, without commas. -/
def expression (g : Grammar) (at_ : Context) : Phrase :=
  oneOf [
    yielding g at_,
    fun src c =>
      match operation g 0 at_ src c with
      | none => none
      | some (nodes, c) => perhaps nodes (oneOf [choice g at_ nodes, assignment g at_ nodes]) src c]

/-- One or more expressions with commas between them. -/
def expressions (g : Grammar) (at_ : Context) : Phrase := fun src c =>
  match g (.expression at_) src c with
  | none => none
  | some (left, c) =>
    perhaps left (startingWith [','] (extend "sequence_expression" left
      (many1 (seq [mark ",", g (.expression at_)])))) src c

end MessageHarvest.Tsx
