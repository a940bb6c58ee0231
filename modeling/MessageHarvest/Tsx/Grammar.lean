import MessageHarvest.Tsx.Phrase

/-!
# Rules that call each other

A program nests: expressions hold functions, functions hold statements, statements hold
expressions. Each production of the grammar is a plain function of a `Grammar`, which says what
the nested parts are, and names them by `Rule`s. The circle is closed in one place, where the
whole grammar is put together.
-/

namespace MessageHarvest.Tsx

/-- Where an expression stands. -/
structure Context where
  /-- The word `in` is not an operator here, but belongs to the head of a loop. -/
  noIn : Bool
  /-- A colon behind a parenthesis does not announce the type of a function's result here. -/
  plainArrows : Bool
  deriving DecidableEq, Repr

/-- Where nothing special holds. -/
def Context.free : Context := ⟨false, false⟩

/-- The parts of a program that may stand inside others of their own kind. -/
inductive Rule where
  | statement
  /-- Statements in braces. -/
  | block
  /-- One expression, without commas. -/
  | expression (at_ : Context)
  /-- One or more expressions with commas between them. -/
  | expressions (at_ : Context)
  /-- Operands joined by operators that bind at least as strongly as `floor`. -/
  | operation (floor : Nat) (at_ : Context)
  /-- An operand with the operators before it. -/
  | operand (at_ : Context)
  /-- What `new` makes an object of. -/
  | constructed
  /-- A name or a destructuring pattern, in assignments also a property. -/
  | pattern (assigned : Bool)
  | type
  /-- A tag with all that it encloses. -/
  | element

/-- What the rules recognise. -/
abbrev Grammar := Rule → Phrase

/-- One expression, without commas. -/
def Grammar.expression (g : Grammar) : Phrase := g (.expression .free)

/-- One or more expressions with commas between them. -/
def Grammar.expressions (g : Grammar) : Phrase := g (.expressions .free)

/-- Words that cannot be the name of a variable. -/
def reserved : List String :=
  ["break", "case", "catch", "class", "const", "continue", "debugger", "default", "delete", "do",
    "else", "enum", "export", "extends", "false", "finally", "for", "function", "if", "import",
    "in", "instanceof", "new", "null", "return", "super", "switch", "this", "throw", "true", "try",
    "typeof", "var", "void", "while", "with"]

/-- The name of a variable, as a leaf of a kind. -/
def nameAs (kind : String) : Phrase :=
  token kind true fun src pos =>
    match word? src pos with
    | none => none
    | some stop => if reserved.contains (slice src pos stop) then none else some stop

/-- The name of a variable. -/
def name : Phrase := nameAs Node.Kind.identifier

/-- Two marks and what lies between them. -/
def between (left right : String) (p : Phrase) : Phrase := seq [mark left, p, mark right]

end MessageHarvest.Tsx
