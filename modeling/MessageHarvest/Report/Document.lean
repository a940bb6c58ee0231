import MessageHarvest.Json.Writer
import MessageHarvest.Record.Message

/-!
# Reports as documents

What was found is reported as a JSON document, followed by a line end.
-/

namespace MessageHarvest

/-- The messages of a file as a value. -/
def FileReport.toJson (r : FileReport) : Json :=
  .object [("file", .string r.path), ("count", .ofNat r.messages.length),
    ("messages", .array (r.messages.map Message.toJson))]

namespace Report

/-- The number of messages in all files. -/
def count (reports : List FileReport) : Nat :=
  reports.foldr (fun r rest => r.messages.length + rest) 0

/-- The messages of files as a value. -/
def ofMessages (reports : List FileReport) : Json :=
  .object [("count", .ofNat (count reports)), ("files", .array (reports.map FileReport.toJson))]

/-- The paths of files as a value. -/
def ofPaths (paths : List String) : Json :=
  .object [("count", .ofNat paths.length), ("files", .array (paths.map .string))]

/-- The messages of files as a document. -/
def messagesDocument (reports : List FileReport) : String :=
  (ofMessages reports).write ++ "\n"

/-- The paths of files as a document. -/
def pathsDocument (paths : List String) : String :=
  (ofPaths paths).write ++ "\n"

end Report

end MessageHarvest
