import MessageHarvest.Message.Draft
import MessageHarvest.Record.Shape

/-!
# Messages as records

A message is written as a record that leaves out a missing description, and read back from one
that may give the default text under either of two names. Once it is there, it stays as it is.
-/

namespace MessageHarvest

open Record

/-- The messages of a file. -/
structure FileReport where
  path : String
  messages : List Message
  deriving DecidableEq, Repr

/-- There is something to report. -/
def FileReport.hasMessages (r : FileReport) : Bool :=
  !r.messages.isEmpty

namespace Message

/-- The message that a value describes. -/
def ofJson : Json → Checked Message :=
  record .message fun members =>
    (Checked.both (required (.only "id") filledText members) <|
      Checked.both (required ⟨"defaultMessage", some "default_message"⟩ filledText members)
        (optional (.only "description") none textOrNull members)).map
      fun (id, defaultMessage, description) =>
        ⟨id.1, defaultMessage.1, description, id.2, defaultMessage.2⟩

/-- A message as a value. -/
def toJson (m : Message) : Json :=
  .object ([("id", .string m.id), ("defaultMessage", .string m.defaultMessage)] ++
    (m.description.map fun d => ("description", .string d)).toList)

/-- An attempt to set a field of a message. The message is frozen, so that the attempt is refused at
that field, whatever its name and the value. -/
def setField (_ : Message) (name : String) (_ : Json) : Checked Message :=
  (Checked.refuse .frozen).under (.key name)

/-- An attempt to set a field has just one fault, which leads to the field. -/
theorem faults_setField (m : Message) (name : String) (v : Json) :
    (m.setField name v).faults = [⟨.frozen, [.key name]⟩] :=
  rfl

end Message

namespace FileReport

/-- The messages of a file that a value describes. -/
def ofJson : Json → Checked FileReport :=
  record .fileReport fun members =>
    (Checked.both (required (.only "file_path") text members)
      (optional (.only "messages") [] (list Message.ofJson) members)).map
      fun (path, messages) => ⟨path, messages⟩

end FileReport

end MessageHarvest
