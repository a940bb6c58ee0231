import MessageHarvest.Command.Scan
import MessageHarvest.Report.Display
import MessageHarvest.Tsx.Program

/-!
# Running a command

A command prints its whole result, or nothing but a complaint. What is not the fault of the user's
paths is left to the caller to tell. `runWith` runs a command with any parser, `run` with the one
for programs in TSX.
-/

namespace MessageHarvest.Command

/-- What a run comes to. -/
structure Outcome where
  exitCode : Nat
  output : String
  complaint : String
  /-- What ended the run, if it is not a complaint already. -/
  failure : Option Failure
  deriving DecidableEq, Repr

namespace Outcome

/-- The run has a result. -/
def success (output : String) : Outcome := ⟨0, output, "", none⟩

/-- The arguments make no sense. -/
def misuse : Outcome := ⟨2, "", "", none⟩

/-- The run was ended by a failure that is left to the caller. -/
def broken (f : Failure) : Outcome := ⟨1, "", "", some f⟩

/-- The run was ended by a complaint, given as markup. -/
def complain (width : Nat) (markup : String) : Outcome :=
  match Report.showLine width markup with
  | .ok shown => ⟨1, "", shown, none⟩
  | .error e => broken (.markup e)

/-- The run was ended by a failure. -/
def ofFailure (width : Nat) : Failure → Outcome
  | .noPath path => complain width (Report.within "red" ("Path not found: " ++ path))
  | .noSettings path => complain width (Report.within "red" ("Config file not found: " ++ path))
  | f => broken f

end Outcome

/-- What is printed on how the program is used. -/
def usage : String :=
  "Usage: intl-extract [-v] extract [-t NAME]... [-c FILE] [-H] PATH...\n" ++
  "       intl-extract [-v] files [-c FILE] [-H] PATH...\n"

/-- The result of a request, for an output of some width. -/
def Request.answer (parse : Source → Node) (fs : FileSystem) (width : Nat) :
    Request → Except Failure String
  | .extract scan tagNames => do
    let reports ← scan.reports parse fs tagNames
    if scan.humanize then (Report.messagesTable reports).mapError .markup
    else return Report.messagesDocument reports
  | .files scan => do
    let files ← scan.files fs
    if scan.humanize then (Report.pathsList width files).mapError .markup
    else return Report.pathsDocument files
  | .help => return usage

/-- Runs the command that the arguments give, with a parser for the files. -/
def runWith (parse : Source → Node) (fs : FileSystem) (width : Nat) (args : List String) :
    Outcome :=
  match Request.read? args with
  | none => .misuse
  | some request =>
    match request.answer parse fs width with
    | .ok output => .success output
    | .error f => .ofFailure width f

/-- Runs the command that the arguments give. -/
def run (fs : FileSystem) (width : Nat) (args : List String) : Outcome :=
  runWith Tsx.parse fs width args

end MessageHarvest.Command
