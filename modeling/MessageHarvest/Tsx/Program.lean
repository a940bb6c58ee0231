import MessageHarvest.Tsx.Element
import MessageHarvest.Tsx.Statement

/-!
# Programs

The whole grammar, and the tree of a program. How deep rules may call each other is bounded by
the length of the program, since only a few can do so without a token in between. Comments belong
to the innermost node that begins before and ends behind them. A program that is broken somewhere
is recognised up to there: what is behind the last whole statement becomes one leaf, and no
statement is looked for in it. A parser that recovers from errors finds more there, which is why
the commands take the parser as a parameter (`Command.runWith`) and what is proved of them holds
for any.
-/

namespace MessageHarvest.Tsx

/-! ## The grammar -/

/-- Recognises one rule, given the grammar for what is nested in it. -/
def rule (g : Grammar) : Grammar
  | .statement => statement g
  | .block => block g
  | .expression at_ => expression g at_
  | .expressions at_ => expressions g at_
  | .operation floor at_ => operation g floor at_
  | .operand at_ => operand g at_
  | .constructed => construction g
  | .pattern assigned => oneOf [
      destructuring g assigned,
      if assigned then
        first (oneOf [node "this" (keyword "this"), name]) (memberOf g)
      else name]
  | .type => typeSyntax g
  | .element => element g

/-- The grammar for programs whose rules are nested no deeper than `depth`. -/
def grammar : Nat → Grammar
  | 0 => fun _ => never
  | depth + 1 => fun r src c => rule (grammar depth) r src c

/-- How many rules may call each other in a row before a token is recognised. -/
def rulesPerToken : Nat := 16

/-! ## Comments -/

/-- A comment as a node. -/
def commentNode (s : Span) : Node :=
  leaf Node.Kind.comment true s.start s.stop

/-- Whether a node begins before a range and ends behind it. -/
def encloses (n : Node) (s : Span) : Bool :=
  match n.span with
  | some t => t.start < s.start && s.stop < t.stop
  | none => false

/-- Whether a node lies before a range. -/
def liesBefore (n : Node) (s : Span) : Bool :=
  match n.span with
  | some t => t.stop ≤ s.start
  | none => true

mutual

/-- A node with comments put where they belong; all of them lie within it. -/
def withComments : Node → List Span → Node
  | ⟨kind, named, field, span, children⟩, comments =>
    ⟨kind, named, field, span,
      if comments.isEmpty then children else mixComments children comments⟩

/-- Siblings with comments put inside and between them; both are in order. -/
def mixComments : List Node → List Span → List Node
  | [], comments => comments.map commentNode
  | n :: rest, comments =>
    let before := comments.takeWhile fun s => !liesBefore n s && !encloses n s
    let others := comments.drop before.length
    let inside := others.takeWhile (encloses n)
    before.map commentNode ++
      withComments n inside :: mixComments rest (others.drop inside.length)

end

/-! ## Trees of programs -/

/-- The line that names the interpreter of a program. -/
def interpreterLine : Phrase :=
  token "hash_bang_line" true fun src pos =>
    if pos = 0 && textAt src 0 "#!" then some (skipWhile src (· != ascii '\n') 0) else none

/-- Where the first token of a program is looked for: behind a byte order mark. -/
def beginning (src : Source) : Cursor :=
  Cursor.behind src (if textAt src 0 "\uFEFF" then 3 else 0) []

/-- The syntax tree of a program; if it is broken, that of what is whole before the first error,
and one leaf for all the rest. -/
def parse (src : Source) : Node :=
  let g := grammar (rulesPerToken * (src.size + 2))
  let start := beginning src
  match seq [option interpreterLine, many (statement g)] src start with
  | none => ⟨"program", true, none, some ⟨0, src.size⟩, []⟩
  | some (children, c) =>
    let broken := if c.next < src.size then [leaf "ERROR" true c.next src.size] else []
    let comments := (c.gap ++ c.comments).reverse
    ⟨"program", true, none, some ⟨0, src.size⟩, mixComments (children ++ broken) comments⟩

end MessageHarvest.Tsx
