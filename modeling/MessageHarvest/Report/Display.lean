import MessageHarvest.Layout.Table
import MessageHarvest.Markup.Escape
import MessageHarvest.Markup.Render
import MessageHarvest.Report.Document

/-!
# Reports for the eye

Messages are shown in a table, paths in a list. Every text goes through markup, which colours the
paths and stresses the ids; where colours are not shown, the tags just vanish.
-/

namespace MessageHarvest.Report

/-- A text between the tags of an effect. -/
def within (effect : String) (markup : String) : String :=
  "[" ++ effect ++ "]" ++ markup ++ "[/" ++ effect ++ "]"

/-- The cells of a message, as markup. -/
def cells (path : String) (m : Message) : List String :=
  [within "cyan" (Markup.escape path), within "bold" (Markup.escape m.id),
    Markup.escape m.defaultMessage, Markup.escape (m.description.getD "")]

/-- The rows for the messages of a file. -/
def rows (r : FileReport) : List (List String) :=
  r.messages.map (cells r.path)

/-- The header of the table of messages. -/
def header : List (List Char) :=
  ["File", "Id", "Default Message", "Description"].map String.toList

/-- What a row of markup shows. -/
def showRow (row : List String) : Except Markup.Error (List (List Char)) :=
  row.mapM fun markup => (Markup.render markup).map String.toList

/-- The messages of files as a table. -/
def messagesTable (reports : List FileReport) : Except Markup.Error String := do
  let rows ← (reports.flatMap rows).mapM showRow
  let title := toString (count reports) ++ " message(s)"
  let table : Layout.Table := ⟨title.toList, header, rows⟩
  return String.ofList (table.render.flatMap (· ++ ['\n']))

/-- What a line of markup shows in lines of at most so many cells. -/
def showLine (width : Nat) (markup : String) : Except Markup.Error String :=
  (Markup.render markup).map fun text => String.ofList (Layout.paragraph width text.toList)

/-- The paths of files as a list. -/
def pathsList (width : Nat) (paths : List String) : Except Markup.Error String := do
  let shown ← paths.mapM fun p => showLine width (within "cyan" (Markup.escape p))
  let total ← showLine width (within "bold" (toString paths.length) ++ " file(s)")
  return String.join shown ++ total

end MessageHarvest.Report
