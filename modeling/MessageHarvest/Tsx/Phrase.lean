import MessageHarvest.Tsx.Lexeme

/-!
# Phrases

A `Phrase` recognises part of a program from a `Cursor` on and yields the syntax nodes of what it
has recognised. Grammars are put together from phrases by `seq`, `oneOf` and the like; a choice
takes the first alternative that succeeds, and a failed alternative leaves no trace. Blanks and
comments are skipped behind each token; comments are collected aside, to be put into the finished
tree.
-/

namespace MessageHarvest.Tsx

/-- A place between two tokens. -/
structure Cursor where
  /-- The end of the token before. -/
  stop : Nat
  /-- The beginning of the token behind. -/
  next : Nat
  /-- Whether a line ends in between. -/
  lineEnd : Bool
  /-- The comments in between, the last one first. -/
  gap : List Span
  /-- The comments before the token before, the last one first. -/
  comments : List Span

namespace Cursor

/-- The place behind what ends at `stop`, given all comments before that. -/
def behind (src : Source) (stop : Nat) (comments : List Span) : Cursor :=
  let g := gapFrom src stop false []
  ⟨stop, g.next, g.lineEnd, g.comments, comments⟩

/-- The place behind a token that begins at the next token's beginning and ends at `stop`. -/
def advance (src : Source) (c : Cursor) (stop : Nat) : Cursor :=
  behind src stop (c.gap ++ c.comments)

end Cursor

/-- Recognises part of a program. -/
def Phrase := Source → Cursor → Option (List Node × Cursor)

/-! ## Putting phrases together -/

/-- Recognises nothing and succeeds. -/
def nothing : Phrase := fun _ c => some ([], c)

/-- Succeeds nowhere. -/
def never : Phrase := fun _ _ => none

/-- One phrase after the other. -/
def seq : List Phrase → Phrase
  | [] => nothing
  | p :: rest => fun src c =>
    match p src c with
    | none => none
    | some (nodes, c) =>
      match seq rest src c with
      | none => none
      | some (more, c) => some (nodes ++ more, c)

/-- The first of several phrases that succeeds. -/
def oneOf : List Phrase → Phrase
  | [] => never
  | p :: rest => fun src c =>
    match p src c with
    | some r => some r
    | none => oneOf rest src c

/-- A phrase that may be missing. -/
def option (p : Phrase) : Phrase := oneOf [p, nothing]

/-- Goes on from the nodes recognised so far by `next`, as long as it succeeds and moves on. -/
def chain (next : List Node → Phrase) (src : Source) (nodes : List Node) (c : Cursor) :
    List Node × Cursor :=
  match next nodes src c with
  | none => (nodes, c)
  | some (nodes', c') =>
    if c.stop < c'.stop ∧ c'.stop ≤ src.size then chain next src nodes' c' else (nodes, c)
termination_by src.size - c.stop

/-- A first phrase, then what `next` makes of it and of its own results, as long as it goes on. -/
def first (p : Phrase) (next : List Node → Phrase) : Phrase := fun src c =>
  match p src c with
  | none => none
  | some (nodes, c) => some (chain next src nodes c)

/-- Any number of repetitions; `done` holds the nodes of those before, the last one first. -/
def manyFrom (p : Phrase) (src : Source) (done : List (List Node)) (c : Cursor) :
    List Node × Cursor :=
  match p src c with
  | none => (done.reverse.flatten, c)
  | some (nodes, c') =>
    if c.stop < c'.stop ∧ c'.stop ≤ src.size then manyFrom p src (nodes :: done) c'
    else (done.reverse.flatten, c)
termination_by src.size - c.stop

/-- Any number of repetitions of a phrase. -/
def many (p : Phrase) : Phrase := fun src c => some (manyFrom p src [] c)

/-- One or more repetitions of a phrase. -/
def many1 (p : Phrase) : Phrase := seq [p, many p]

/-- One or more phrases with separators between them. -/
def separated (separator p : Phrase) : Phrase := seq [p, many (seq [separator, p])]

/-! ## Looking ahead -/

/-- Succeeds without moving if `test` holds of the source and the place. -/
def given (test : Source → Cursor → Bool) : Phrase := fun src c =>
  if test src c then some ([], c) else none

/-- A phrase would succeed here. -/
def ahead (p : Phrase) : Phrase := fun src c =>
  match p src c with
  | some _ => some ([], c)
  | none => none

/-- A phrase would fail here. -/
def notAhead (p : Phrase) : Phrase := fun src c =>
  match p src c with
  | some _ => none
  | none => some ([], c)

/-- The next token stands on the same line. -/
def sameLine : Phrase := given fun _ c => !c.lineEnd

/-- A phrase tried only where the next token begins with one of the characters. -/
def startingWith (chars : List Char) (p : Phrase) : Phrase := fun src c =>
  if chars.any (isAt src c.next) then p src c else none

/-! ## Shaping nodes -/

/-- A node of a kind around what a phrase recognises. -/
def node (kind : String) (p : Phrase) : Phrase := fun src c =>
  match p src c with
  | none => none
  | some (children, c') =>
    let start := if c'.stop < c.next then c'.stop else c.next
    some ([⟨kind, true, none, some ⟨start, c'.stop⟩, children⟩], c')

/-- Where a row of nodes begins. -/
def startOf (nodes : List Node) : Nat :=
  match nodes.head?.bind (·.span) with
  | some s => s.start
  | none => 0

/-- Lets nodes fill a field, unless they fill one already. -/
def inField (name : String) (nodes : List Node) : List Node :=
  nodes.map fun n => if n.field.isNone then { n with field := some name } else n

/-- A node of a kind around nodes that have been recognised and what a phrase recognises. -/
def extend (kind : String) (left : List Node) (p : Phrase) : Phrase := fun src c =>
  match p src c with
  | none => none
  | some (more, c') =>
    some ([⟨kind, true, none, some ⟨startOf left, c'.stop⟩, left ++ more⟩], c')

/-- A phrase whose nodes fill a field. -/
def field (name : String) (p : Phrase) : Phrase := fun src c =>
  match p src c with
  | none => none
  | some (nodes, c') => some (inField name nodes, c')

/-! ## Tokens -/

/-- A leaf up to the offset that `stop?` gives for the next token's beginning. -/
def token (kind : String) (named : Bool) (stop? : Source → Nat → Option Nat) : Phrase :=
  fun src c =>
    match stop? src c.next with
    | none => none
    | some stop =>
      some ([⟨kind, named, none, some ⟨c.next, stop⟩, []⟩], c.advance src stop)

/-- A leaf directly behind the token before, up to the offset that `stop?` gives. -/
def joined (kind : String) (named : Bool) (stop? : Source → Nat → Option Nat) : Phrase :=
  fun src c =>
    match stop? src c.stop with
    | none => none
    | some stop =>
      some ([⟨kind, named, none, some ⟨c.stop, stop⟩, []⟩], .behind src stop c.comments)

/-- The end of a fixed text at an offset. -/
def fixedEnd? (text : String) (src : Source) (pos : Nat) : Option Nat :=
  if textAt src pos text then some (pos + text.utf8ByteSize) else none

/-- A punctuation mark. -/
def mark (text : String) : Phrase := token text false (fixedEnd? text)

/-- A punctuation mark that one of the characters must not follow. -/
def markNot (text : String) (chars : List Char) : Phrase :=
  token text false fun src pos =>
    match fixedEnd? text src pos with
    | none => none
    | some stop => if chars.any (isAt src stop) then none else some stop

/-- A punctuation mark directly behind the token before. -/
def joinedMark (text : String) : Phrase := joined text false (fixedEnd? text)

/-- The word at a place, empty if there is none. -/
def wordAhead (src : Source) (c : Cursor) : String :=
  match word? src c.next with
  | some stop => slice src c.next stop
  | none => ""

/-- A word of the language. -/
def keyword (text : String) : Phrase :=
  token text false fun src pos =>
    match fixedEnd? text src pos with
    | some stop => if (wordChar? src stop).isNone then some stop else none
    | none => none

/-- Any word, as a leaf of a kind. -/
def anyWord (kind : String) : Phrase := token kind true word?

/-- The items of a list in which separating commas may be left out, doubled or stand at the
end. -/
def commas (p : Phrase) : Phrase :=
  seq [option p, many (seq [mark ",", option p])]

/-- The items of a list with separating commas, of which the last may stand at the end. -/
def commas1 (p : Phrase) : Phrase :=
  seq [separated (mark ",") p, option (mark ",")]

/-! ## Ends of statements -/

/-- The characters before which a line end does not end a statement. -/
def continuing : List Char :=
  [',', '.', ';', '*', '%', '>', '<', '=', '?', '^', '|', '&', '/', ':']

/-- A statement may end here without a semicolon: at the end of the program, before a closing
brace, or at a line end before something that cannot continue it. -/
def impliedEnd : Phrase := given fun src c =>
  src.size ≤ c.next || isAt src c.next '}' || (c.lineEnd && !continuing.any (isAt src c.next))

/-- The end of a statement. -/
def statementEnd : Phrase := oneOf [mark ";", impliedEnd]

end MessageHarvest.Tsx
