import MessageHarvest.Text.Blank
import MessageHarvest.Text.CellWidth
import MessageHarvest.Text.Split

/-!
# Lines of a given width

A text is laid out in lines of at most so many cells. A line that is too long is broken before a
word; a word that is too long for any line is folded or, where that is not wanted, cut off.
-/

namespace MessageHarvest.Layout

/-! ## Characters -/

/-- So many blanks. -/
def blanks (n : Nat) : List Char := List.replicate n ' '

/-- A text without the control characters that move the cursor of a terminal, but for tabs and
line ends. -/
def printable (cs : List Char) : List Char :=
  cs.filter fun c => !(c.toNat = 7 || c.toNat = 8 || (11 ≤ c.toNat && c.toNat ≤ 13))

/-- The distance between two tab stops. -/
def tabStop : Nat := 8

/-- A text that begins at a cell, with blanks up to the next tab stop for each tab. -/
def expandTabs (cell : Nat) : List Char → List Char
  | [] => []
  | c :: rest =>
    if c = '\t' then
      let gap := tabStop - cell % tabStop
      blanks gap ++ expandTabs (cell + gap) rest
    else c :: expandTabs (cell + CellWidth.width c) rest

/-- The characters at the beginning that fit so many cells. -/
def takeCells : Nat → List Char → List Char
  | _, [] => []
  | n, c :: rest =>
    if CellWidth.width c ≤ n then c :: takeCells (n - CellWidth.width c) rest else []

/-- A text with blanks after it, up to so many cells. -/
def pad (n : Nat) (cs : List Char) : List Char :=
  cs ++ blanks (n - CellWidth.total cs)

/-! ## Breaking a line -/

/-- What becomes of that which fits no line. -/
inductive Overflow where
  /-- It goes on in the next line. -/
  | fold
  /-- It is cut off and the cut is marked. -/
  | ellipsis
  deriving DecidableEq, Repr

/-- The words of a text with the blanks after them, and for the first word also those before it.
`chunk` is what comes before, its last character first, and holds a word if `hasWord` is true. -/
def chunksAfter (chunk : List Char) (hasWord : Bool) : List Char → List (List Char)
  | [] => if hasWord then [chunk.reverse] else []
  | c :: rest =>
    if hasWord && !Text.isBlank c && chunk.head?.any Text.isBlank then
      chunk.reverse :: chunksAfter [c] true rest
    else chunksAfter (c :: chunk) (hasWord || !Text.isBlank c) rest

/-- The pieces of a word that each fit a line; `piece` is the beginning of the first one, its last
character first. -/
def foldAfter (width : Nat) (piece : List Char) : List Char → List (List Char)
  | [] => [piece.reverse]
  | c :: rest =>
    if CellWidth.total piece + CellWidth.width c > width then
      piece.reverse :: foldAfter width [c] rest
    else foldAfter width (c :: piece) rest

/-- The lines into which words are put. `line` is the line before them, of which `cells` cells
are taken; there is none before the first word. -/
def breakBefore (o : Overflow) (width : Nat) (isFirst : Bool) (line : List Char) (cells : Nat) :
    List (List Char) → List (List Char)
  | [] => [line]
  | word :: rest =>
    let need := CellWidth.total (Text.trimEnd word)
    let done := if isFirst then [] else [line]
    if cells + need ≤ width then
      breakBefore o width false (line ++ word) (cells + CellWidth.total word) rest
    else if width < need then
      match o with
      | .fold =>
        let pieces := foldAfter width [] word
        let last := pieces.getLastD []
        done ++ pieces.dropLast ++ breakBefore o width false last (CellWidth.total last) rest
      | .ellipsis => done ++ breakBefore o width false word (CellWidth.total word) rest
    else if cells ≠ 0 ∧ ¬ isFirst then
      line :: breakBefore o width false word (CellWidth.total word) rest
    else breakBefore o width false (line ++ word) cells rest

/-- The lines into which a line is broken. -/
def breakLine (o : Overflow) (width : Nat) (line : List Char) : List (List Char) :=
  match chunksAfter [] false line with
  | [] => [line]
  | words => breakBefore o width true [] 0 words

/-- A line without those blanks at its end that make it longer than `width` characters. -/
def dropExcess (width : Nat) (line : List Char) : List Char :=
  let excess := min (line.length - width) (line.length - (Text.trimEnd line).length)
  line.take (line.length - excess)

/-- A line, cut off if it takes more cells than there are. -/
def limit (o : Overflow) (width : Nat) (line : List Char) : List Char :=
  if CellWidth.total line ≤ width then line
  else
    match o with
    | .fold => pad width (takeCells width line)
    | .ellipsis => pad (width - 1) (takeCells (width - 1) line) ++ ['…']

/-- The lines of a text. -/
def lines (o : Overflow) (width : Nat) (text : List Char) : List (List Char) :=
  (Text.split '\n' (printable text)).flatMap fun line =>
    (breakLine o width (expandTabs 0 line)).map fun part => limit o width (dropExcess width part)

/-- The lines of a text, each ended. -/
def paragraph (width : Nat) (text : List Char) : List Char :=
  (lines .fold width text).flatMap (· ++ ['\n'])

end MessageHarvest.Layout
