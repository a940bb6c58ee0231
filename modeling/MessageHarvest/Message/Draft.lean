import MessageHarvest.Text.Utf8

/-!
# Messages and drafts of them

A `Message` has an id and a default text, both non-empty, and perhaps a description. A `Draft`
collects the three fields one by one; it becomes a message once the two required ones are there.
-/

namespace MessageHarvest

/-- The fields of a message. -/
inductive Field where
  | id
  | defaultMessage
  | description
  deriving DecidableEq, Repr

namespace Field

/-- The name under which sources write a field. -/
def name : Field → String
  | id => "id"
  | defaultMessage => "defaultMessage"
  | description => "description"

/-- The field of a given name. -/
def ofName? (name : String) : Option Field :=
  if name = "id" then some id
  else if name = "defaultMessage" then some defaultMessage
  else if name = "description" then some description
  else none

/-- The name of a field is the name of that field. -/
@[simp] theorem ofName?_name (f : Field) : ofName? f.name = some f := by
  cases f <;> simp [ofName?, name]

/-- No two fields have one name, and no other name has a field. -/
theorem ofName?_eq_some_iff {name : String} {f : Field} :
    ofName? name = some f ↔ f.name = name := by
  refine ⟨fun h => ?_, fun h => h ▸ ofName?_name f⟩
  simp only [ofName?] at h
  split at h
  · cases h; simp_all [Field.name]
  split at h
  · cases h; simp_all [Field.name]
  split at h
  · cases h; simp_all [Field.name]
  · cases h

end Field

/-- A message found in a source. -/
structure Message where
  id : String
  defaultMessage : String
  description : Option String
  id_ne : id ≠ ""
  defaultMessage_ne : defaultMessage ≠ ""
  deriving DecidableEq, Repr

/-- The fields of a message that have been read so far. -/
structure Draft where
  id : Option String
  defaultMessage : Option String
  description : Option String
  deriving DecidableEq, Repr

namespace Draft

/-- Nothing has been read. -/
def empty : Draft := ⟨none, none, none⟩

/-- The text of a field, if it has been read. -/
def get? (d : Draft) : Field → Option String
  | .id => d.id
  | .defaultMessage => d.defaultMessage
  | .description => d.description

/-- Puts a text into a field, over what was there. -/
def set (d : Draft) (f : Field) (text : String) : Draft :=
  match f with
  | .id => { d with id := some text }
  | .defaultMessage => { d with defaultMessage := some text }
  | .description => { d with description := some text }

/-- Puts a text into the field of a given name; no other name has any effect. -/
def put (d : Draft) (name : String) (text : String) : Draft :=
  match Field.ofName? name with
  | some f => d.set f text
  | none => d

/-- Both required fields are there and not empty. -/
def isComplete (d : Draft) : Bool :=
  (d.id.getD "" ≠ "") && (d.defaultMessage.getD "" ≠ "")

/-- The message that a complete draft holds. -/
def message? (d : Draft) : Option Message :=
  match d.id, d.defaultMessage with
  | some id, some defaultMessage =>
    if h : id ≠ "" ∧ defaultMessage ≠ "" then
      some ⟨id, defaultMessage, d.description, h.1, h.2⟩
    else none
  | _, _ => none

/-- In the empty draft no field has been read. -/
@[simp] theorem get?_empty (f : Field) : empty.get? f = none := by
  cases f <;> rfl

/-- Setting a field changes that field and no other. -/
theorem get?_set (d : Draft) (f g : Field) (text : String) :
    (d.set f text).get? g = if f = g then some text else d.get? g := by
  cases f <;> cases g <;> simp [set, get?]

/-- A draft holds a message iff it is complete. -/
theorem isSome_message? (d : Draft) : d.message?.isSome = d.isComplete := by
  rcases d with ⟨_ | id, _ | text, _⟩ <;> simp [message?, isComplete]
  by_cases h : id = "" <;> by_cases h' : text = "" <;> simp [h, h']

end Draft

end MessageHarvest
