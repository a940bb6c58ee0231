import MessageHarvest.Tsx.Expression

/-!
# Statements and declarations
-/

namespace MessageHarvest.Tsx

/-! ## Variables -/

/-- One variable with its type and its value. -/
def declarator (g : Grammar) (at_ : Context) : Phrase :=
  node Node.Kind.variableDeclarator <| seq [
    field "name" (oneOf [destructuring g false, name]),
    option (markNot "!" ['=']), option (field "type" (ascription g)),
    option (seq [assignmentMark, field "value" (g (.expression at_))])]

/-- The words that declare variables, with the kinds of such declarations. -/
def variableKinds : List (String × String) :=
  [("const", "lexical_declaration"), ("let", "lexical_declaration"),
    ("var", "variable_declaration")]

/-- Variables that a word declares. -/
def variableDeclarations (g : Grammar) (at_ : Context) (finish : Phrase) : Phrase :=
  oneOf <| variableKinds.map fun (word, kind) =>
    node kind <| seq [
      field "kind" (keyword word), separated (mark ",") (declarator g at_), finish]

/-! ## Functions, classes and types -/

/-- A function with its body, or only its signature. -/
def functionDeclaration (g : Grammar) : Phrase :=
  let head : Phrase := seq [
    option (seq [keyword "async", sameLine]), keyword "function"]
  let tail : Phrase := seq [field "name" (nameAs Node.Kind.identifier), signature g]
  oneOf [
    node "generator_function_declaration"
      (seq [head, mark "*", tail, field "body" (g .block)]),
    node "function_declaration" (seq [head, tail, field "body" (g .block)]),
    node "function_signature" (seq [head, option (mark "*"), tail, statementEnd])]

/-- A class. -/
def classDeclaration (g : Grammar) : Phrase :=
  oneOf [
    node "class_declaration"
      (seq [many (decorator g), keyword "class", classTail g (nameAs "type_identifier")]),
    node "abstract_class_declaration" (seq [
      many (decorator g), keyword "abstract", keyword "class",
      classTail g (nameAs "type_identifier")])]

/-- An interface. -/
def interfaceDeclaration (g : Grammar) : Phrase :=
  node "interface_declaration" <| seq [
    keyword "interface", field "name" (nameAs "type_identifier"), option (typeParameters g),
    option (node "extends_type_clause" (seq [keyword "extends", separated (mark ",") (g .type)])),
    field "body" (members "interface_body" g)]

/-- A type under a name of its own. -/
def typeAlias (g : Grammar) : Phrase :=
  node "type_alias_declaration" <| seq [
    keyword "type", sameLine, field "name" (nameAs "type_identifier"), option (typeParameters g),
    assignmentMark, field "value" (g .type), statementEnd]

/-- An enumeration. -/
def enumDeclaration (g : Grammar) : Phrase :=
  node "enum_declaration" <| seq [
    option (keyword "const"), keyword "enum", field "name" (nameAs Node.Kind.identifier),
    field "body" <| node "enum_body" <| between "\x7b" "\x7d" <| commas <|
      first (field "name" (propertyName g)) fun left =>
        extend "enum_assignment" left (seq [assignmentMark, field "value" g.expression])]

/-- A module, or a namespace. -/
def moduleDeclaration (g : Grammar) : Phrase :=
  oneOf [
    node "module" (seq [
      keyword "module", sameLine,
      field "name" (oneOf [stringLiteral, nameAs Node.Kind.identifier]),
      oneOf [field "body" (g .block), statementEnd]]),
    node "expression_statement" (seq [internalModule g, option (mark ";")])]

/-- Something that is only said to exist. -/
def ambient (g : Grammar) : Phrase :=
  node "ambient_declaration" <| seq [
    keyword "declare", sameLine,
    oneOf [
      seq [keyword "global", g .block],
      seq [keyword "module", mark ".", memberName, mark ":", g .type, statementEnd],
      g .statement]]

/-! ## Imports and exports -/

/-- Where an import or export comes from. -/
def source : Phrase := seq [keyword "from", field "source" stringLiteral]

/-- The properties demanded of an imported file. -/
def importAttribute (g : Grammar) : Phrase :=
  node "import_attribute" (seq [oneOf [keyword "with", keyword "assert"], object g])

/-- A name in another file: a word or a string. -/
def foreignName : Phrase := oneOf [stringLiteral, anyWord Node.Kind.identifier]

/-- One of the names between braces, perhaps with a new name. -/
def specifier (kind : String) : Phrase :=
  let plain : Phrase := seq [
    field "name" foreignName, option (seq [keyword "as", field "alias" foreignName])]
  oneOf [
    seq [node kind plain, ahead (oneOf [mark ",", mark "\x7d"])],
    node kind (seq [oneOf [keyword "type", keyword "typeof"], plain])]

/-- All names of a file, under a name of their own. -/
def wholeNamespace (kind : String) : Phrase :=
  node kind (seq [mark "*", keyword "as", foreignName])

/-- Names between braces. -/
def namedImports : Phrase :=
  node "named_imports" (between "\x7b" "\x7d" (commas (specifier "import_specifier")))

/-- What an import brings in. -/
def importClause : Phrase :=
  let several : Phrase := oneOf [wholeNamespace "namespace_import", namedImports]
  node "import_clause" <| oneOf [
    several,
    seq [nameAs Node.Kind.identifier, option (seq [mark ",", several])]]

/-- An import. -/
def importStatement (g : Grammar) : Phrase :=
  let finish : Phrase := seq [option (importAttribute g), statementEnd]
  oneOf [
    node "import_statement" (seq [keyword "import", importClause, source, finish]),
    node "import_statement" (seq [
      keyword "import", oneOf [keyword "type", keyword "typeof"], importClause, source, finish]),
    node "import_statement" (seq [keyword "import", field "source" stringLiteral, finish]),
    node "import_statement" (seq [
      keyword "import", option (seq [keyword "type", ahead (anyWord "")]),
      node "import_require_clause" (seq [
        nameAs Node.Kind.identifier, mark "=", keyword "require", mark "(",
        field "source" stringLiteral, mark ")"]),
      statementEnd]),
    node "import_alias" (seq [
      keyword "import", nameAs Node.Kind.identifier, mark "=", g .type, statementEnd])]

/-- An export. -/
def exportStatement (g : Grammar) : Phrase :=
  let clause : Phrase :=
    node "export_clause" (between "\x7b" "\x7d" (commas (specifier "export_specifier")))
  let finish : Phrase := seq [option (importAttribute g), statementEnd]
  node "export_statement" <| seq [
    many (decorator g),
    keyword "export",
    oneOf [
      seq [option (keyword "type"), mark "*", source, finish],
      seq [option (keyword "type"), wholeNamespace "namespace_export", source, finish],
      seq [option (keyword "type"), clause, option (seq [source, option (importAttribute g)]),
        statementEnd],
      seq [assignmentMark, g.expression, statementEnd],
      seq [keyword "as", keyword "namespace", nameAs Node.Kind.identifier, statementEnd],
      seq [keyword "default", oneOf [
        field "declaration" (oneOf [
          functionDeclaration g, classDeclaration g, interfaceDeclaration g]),
        seq [field "value" g.expression, statementEnd]]],
      field "declaration" (g .statement)]]

/-! ## Loops and branches -/

/-- A condition between parentheses. -/
def condition (g : Grammar) : Phrase :=
  field "condition" (node "parenthesized_expression" (between "(" ")" g.expressions))

/-- A branch. -/
def ifStatement (g : Grammar) : Phrase :=
  node "if_statement" <| seq [
    keyword "if", condition g, field "consequence" (g .statement),
    option (field "alternative" (node "else_clause" (seq [keyword "else", g .statement])))]

/-- A loop over the items or the keys of something. -/
def forInStatement (g : Grammar) : Phrase :=
  node "for_in_statement" <| seq [
    keyword "for", option (keyword "await"), mark "(",
    oneOf [
      seq [
        field "kind" (oneOf (variableKinds.map fun k => keyword k.1)),
        field "left" (oneOf [destructuring g false, name]),
        option (seq [assignmentMark, field "value" (g (.expression ⟨true, false⟩))]),
        ahead (oneOf [keyword "in", keyword "of"])],
      seq [
        field "left" (oneOf [
          g (.pattern true),
          node "parenthesized_expression" (between "(" ")" g.expressions)]),
        ahead (oneOf [keyword "in", keyword "of"])]],
    field "operator" (oneOf [keyword "in", keyword "of"]),
    field "right" g.expressions, mark ")", field "body" (g .statement)]

/-- A loop with a counter. -/
def forStatement (g : Grammar) : Phrase :=
  let inner : Context := ⟨true, false⟩
  let empty : Phrase := node "empty_statement" (mark ";")
  node "for_statement" <| seq [
    keyword "for", mark "(",
    field "initializer" (oneOf [
      empty, variableDeclarations g inner (mark ";"),
      node "expression_statement" (seq [g (.expressions inner), mark ";"])]),
    field "condition" (oneOf [empty, node "expression_statement" (seq [g.expressions, mark ";"])]),
    option (field "increment" g.expressions), mark ")", field "body" (g .statement)]

/-- A choice between many cases. -/
def switchStatement (g : Grammar) : Phrase :=
  let body : Phrase := seq [mark ":", field "body" (many (g .statement))]
  node "switch_statement" <| seq [
    keyword "switch",
    field "value" (node "parenthesized_expression" (between "(" ")" g.expressions)),
    field "body" <| node "switch_body" <| between "\x7b" "\x7d" <| many <| oneOf [
      node "switch_case" (seq [keyword "case", field "value" g.expressions, body]),
      node "switch_default" (seq [keyword "default", body])]]

/-- A block whose failures are caught. -/
def tryStatement (g : Grammar) : Phrase :=
  node "try_statement" <| seq [
    keyword "try", field "body" (g .block),
    option <| field "handler" <| node "catch_clause" <| seq [
      keyword "catch",
      option (between "(" ")" (seq [
        field "parameter" (g (.pattern false)), option (field "type" (ascription g))])),
      field "body" (g .block)],
    option (field "finalizer"
      (node "finally_clause" (seq [keyword "finally", field "body" (g .block)])))]

/-- A statement that leaves a loop or starts it again. -/
def jump (kind word : String) : Phrase :=
  node kind <| seq [
    keyword word,
    option (field "label" (seq [sameLine, nameAs "statement_identifier"])), statementEnd]

/-- A statement with a label. -/
def labelled (g : Grammar) : Phrase :=
  node "labeled_statement" <| seq [
    field "label" (nameAs "statement_identifier"), mark ":", field "body" (g .statement)]

/-- An expression for its effect. -/
def expressionStatement (g : Grammar) : Phrase :=
  node "expression_statement" (seq [g.expressions, statementEnd])

/-! ## All statements -/

/-- Statements in braces. -/
def block (g : Grammar) : Phrase :=
  node "statement_block" (between "\x7b" "\x7d" (many (g .statement)))

/-- Statements in braces, unless the braces are those of an object. Braces that are both an object
and a labelled statement are an object. -/
def braces (g : Grammar) : Phrase := fun src c =>
  match g .block src c with
  | none => expressionStatement g src c
  | some (nodes, stop) =>
    if nodes.any fun n => n.children.any (·.kind = "labeled_statement") then
      match seq [object g, statementEnd] src c with
      | some _ => expressionStatement g src c
      | none => some (nodes, stop)
    else some (nodes, stop)

/-- A line that only marks the rest of it as a comment for pages. -/
def pageComment : Phrase :=
  token "html_comment" true fun src pos =>
    if textAt src pos "<!--" || textAt src pos "-->" then
      some (skipWhile src (· != ascii '\n') pos)
    else none

/-- A statement that begins with a word of the language, or only looks like it. -/
def wordStatement (g : Grammar) : Phrase := fun src c =>
  let other : Phrase := oneOf [labelled g, expressionStatement g]
  let p : Phrase := match wordAhead src c with
    | "const" => oneOf [variableDeclarations g .free statementEnd, enumDeclaration g]
    | "let" => oneOf [variableDeclarations g .free statementEnd, other]
    | "var" => variableDeclarations g .free statementEnd
    | "function" => functionDeclaration g
    | "async" => oneOf [functionDeclaration g, other]
    | "class" => classDeclaration g
    | "abstract" => oneOf [classDeclaration g, other]
    | "interface" => oneOf [interfaceDeclaration g, other]
    | "type" => oneOf [typeAlias g, other]
    | "enum" => oneOf [enumDeclaration g, other]
    | "module" => oneOf [moduleDeclaration g, other]
    | "namespace" => oneOf [moduleDeclaration g, other]
    | "declare" => oneOf [ambient g, other]
    | "import" => oneOf [importStatement g, other]
    | "export" => exportStatement g
    | "if" => ifStatement g
    | "for" => oneOf [forInStatement g, forStatement g]
    | "while" => node "while_statement"
        (seq [keyword "while", condition g, field "body" (g .statement)])
    | "do" => node "do_statement" (seq [
        keyword "do", field "body" (g .statement), keyword "while", condition g,
        option (mark ";")])
    | "switch" => switchStatement g
    | "try" => tryStatement g
    | "with" => node "with_statement" (seq [
        keyword "with",
        field "object" (node "parenthesized_expression" (between "(" ")" g.expressions)),
        field "body" (g .statement)])
    | "break" => jump "break_statement" "break"
    | "continue" => jump "continue_statement" "continue"
    | "return" => node "return_statement" (seq [
        keyword "return", option (seq [sameLine, g.expressions]), statementEnd])
    | "throw" => node "throw_statement" (seq [keyword "throw", g.expressions, statementEnd])
    | "debugger" => node "debugger_statement" (seq [keyword "debugger", statementEnd])
    | _ => other
  p src c

/-- Any statement. -/
def statement (g : Grammar) : Phrase := fun src c =>
  if isAt src c.next '\x7b' then braces g src c
  else if isAt src c.next ';' then node "empty_statement" (mark ";") src c
  else if isAt src c.next '@' then
    oneOf [classDeclaration g, exportStatement g, expressionStatement g] src c
  else if (wordChar? src c.next).isSome then wordStatement g src c
  else oneOf [pageComment, expressionStatement g] src c

end MessageHarvest.Tsx
