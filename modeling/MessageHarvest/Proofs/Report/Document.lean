import MessageHarvest.Proofs.Json.RoundTrip
import MessageHarvest.Report.Document
import Mathlib.Data.List.Forall2

/-!
# Documents can be read back

A document is the text of one JSON value, and what it reports can be recovered from it.

* `Message.ofJson_toJson`: a message as a value is accepted as a record, as that message.
* `read?_pathsDocument`: a document of paths is the text of one value.
* **No loss** (`read?_messagesDocument`): so is a document of messages; the value tells how many
  messages there are in all, and of each file, in order, its path, how many messages it has, and
  these messages.
-/

namespace MessageHarvest

open Record

/-! ## Fields -/

/-- A member under the preferred name of a field decides what the field is read as. -/
theorem Record.field_of_lookup {α : Type} {n : FieldName} {check : Json → Checked α}
    {members : List (String × Json)} {v : Json} {a : α}
    (hv : Json.lookup n.preferred members = some v) (ha : check v = .ok a) (absent : Checked α) :
    field n absent check members = .ok a := by
  rw [field, FieldName.find?, hv]
  dsimp only
  rw [ha, Checked.under_ok]

/-- Without a member under the only name of a field, the field is absent. -/
theorem Record.field_of_lookup_none {α : Type} {name : String} {check : Json → Checked α}
    {members : List (String × Json)} (h : Json.lookup name members = none) (absent : Checked α) :
    field (.only name) absent check members = absent := by
  rw [field, FieldName.find?, FieldName.only, h]
  rfl

/-! ## Messages and their files -/

/-- **A message** as a value is read as that message: a missing description stays missing, and an
empty one empty. -/
theorem Message.ofJson_toJson (m : Message) : Message.ofJson m.toJson = .ok m := by
  obtain ⟨id, defaultMessage, description, id_ne, defaultMessage_ne⟩ := m
  generalize hmembers : [("id", Json.string id), ("defaultMessage", Json.string defaultMessage)] ++
    (description.map fun d => ("description", Json.string d)).toList = members
  have hid : required (.only "id") filledText members = .ok ⟨id, id_ne⟩ := by
    have hlookup : Json.lookup "id" members = some (.string id) := by
      rw [← hmembers]
      cases description <;> rfl
    exact field_of_lookup hlookup (dif_pos id_ne) _
  have hdefault : required ⟨"defaultMessage", some "default_message"⟩ filledText members =
      .ok ⟨defaultMessage, defaultMessage_ne⟩ := by
    have hlookup : Json.lookup "defaultMessage" members = some (.string defaultMessage) := by
      rw [← hmembers]
      cases description <;> rfl
    exact field_of_lookup hlookup (dif_pos defaultMessage_ne) _
  have hdescription : optional (.only "description") none textOrNull members = .ok description := by
    cases description with
    | none =>
      have hlookup : Json.lookup "description" members = none := by
        rw [← hmembers]
        rfl
      exact field_of_lookup_none hlookup _
    | some d =>
      have hlookup : Json.lookup "description" members = some (.string d) := by
        rw [← hmembers]
        rfl
      have hcheck : textOrNull (.string d) = .ok (some d) := rfl
      exact field_of_lookup hlookup hcheck _
  rw [toJson, ofJson, record]
  dsimp only
  rw [hmembers, hid, hdefault, hdescription]
  rfl

/-- What a value tells of the messages of a file. -/
structure FileReport.ToldBy (r : FileReport) (v : Json) : Prop where
  path : v.get? "file" = some (.string r.path)
  count : v.get? "count" = some (.ofNat r.messages.length)
  messages : ∃ vs, v.get? "messages" = some (.array vs) ∧
    List.Forall₂ (fun m v => Message.ofJson v = .ok m) r.messages vs

/-- The value of a report tells of that report. -/
theorem FileReport.toldBy_toJson (r : FileReport) : r.ToldBy r.toJson where
  path := rfl
  count := rfl
  messages := by
    refine ⟨r.messages.map Message.toJson, rfl, ?_⟩
    rw [List.forall₂_map_right_iff, List.forall₂_same]
    intro m _
    exact m.ofJson_toJson

namespace Report

/-! ## Their texts -/

/-- The number of all messages is that of the messages in a row. -/
theorem count_eq_length (reports : List FileReport) :
    count reports = (reports.flatMap (·.messages)).length := by
  induction reports with
  | nil => rfl
  | cons r reports ih =>
    rw [List.flatMap_cons, List.length_append, ← ih]
    rfl

/-- The value of a message is made of texts, and one level deep. -/
theorem plain_message (depth : Nat) (m : Message) : Json.Plain (depth + 1) m.toJson := by
  apply Json.Plain.object
  intro p hp
  rcases List.mem_append.mp hp with hp | hp
  · rcases List.mem_pair.mp hp with rfl | rfl
    · exact .string depth m.id
    · exact .string depth m.defaultMessage
  · rw [Option.mem_toList, Option.map_eq_some_iff] at hp
    obtain ⟨d, -, rfl⟩ := hp
    exact .string depth d

/-- The value of a report holds its messages in a list. -/
theorem plain_fileReport (depth : Nat) (r : FileReport) : Json.Plain (depth + 3) r.toJson := by
  have hmessages : Json.Plain (depth + 2) (.array (r.messages.map Message.toJson)) := by
    apply Json.Plain.array
    intro v hv
    obtain ⟨m, -, rfl⟩ := List.mem_map.mp hv
    exact plain_message depth m
  apply Json.Plain.object
  intro p hp
  rcases List.mem_cons.mp hp with rfl | hp
  · exact .string _ r.path
  · rcases List.mem_pair.mp hp with rfl | rfl
    · exact .integer _ _
    · exact hmessages

/-- The value of a document holds its reports in a list. -/
theorem plain_ofMessages (depth : Nat) (reports : List FileReport) :
    Json.Plain (depth + 5) (ofMessages reports) := by
  have hfiles : Json.Plain (depth + 4) (.array (reports.map FileReport.toJson)) := by
    apply Json.Plain.array
    intro v hv
    obtain ⟨r, -, rfl⟩ := List.mem_map.mp hv
    exact plain_fileReport depth r
  apply Json.Plain.object
  intro p hp
  rcases List.mem_pair.mp hp with rfl | rfl
  · exact .integer _ _
  · exact hfiles

/-- So it holds its paths. -/
theorem plain_ofPaths (depth : Nat) (paths : List String) :
    Json.Plain (depth + 2) (ofPaths paths) := by
  have hfiles : Json.Plain (depth + 1) (.array (paths.map .string)) := by
    apply Json.Plain.array
    intro v hv
    obtain ⟨path, -, rfl⟩ := List.mem_map.mp hv
    exact .string depth path
  apply Json.Plain.object
  intro p hp
  rcases List.mem_pair.mp hp with rfl | rfl
  · exact .integer _ _
  · exact hfiles

/-- A value and a line end are a text that is read as that value. -/
theorem read?_document {v : Json} (h : Json.Plain Json.standardDepth v) :
    Json.read? (v.write ++ "\n") = some v := by
  apply Json.readNested?_write h
  intro c hc
  rw [List.mem_singleton.mp hc]
  rfl

/-- **Paths** are read back. -/
theorem read?_pathsDocument (paths : List String) :
    Json.read? (pathsDocument paths) = some (ofPaths paths) :=
  read?_document (plain_ofPaths 198 paths)

/-- **No loss**: a document of messages is the text of one value, which tells the number of all
messages and, file by file and in order, of the messages of each. -/
theorem read?_messagesDocument (reports : List FileReport) :
    ∃ v files, Json.read? (messagesDocument reports) = some v ∧
      v.get? "count" = some (.ofNat (reports.flatMap (·.messages)).length) ∧
      v.get? "files" = some (.array files) ∧
      List.Forall₂ FileReport.ToldBy reports files := by
  refine ⟨ofMessages reports, reports.map FileReport.toJson,
    read?_document (plain_ofMessages 195 reports), ?_, rfl, ?_⟩
  · rw [← count_eq_length]
    rfl
  · rw [List.forall₂_map_right_iff, List.forall₂_same]
    intro r _
    exact r.toldBy_toJson

end Report

end MessageHarvest
