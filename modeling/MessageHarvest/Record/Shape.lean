import MessageHarvest.Json.Reader
import MessageHarvest.Record.Fault

/-!
# The shapes of the parts of a record

A part is a text, a list or another record. A field has one name, or two of which the first is
preferred; members under other names are passed over.
-/

namespace MessageHarvest.Record

/-- A value that is a text. -/
def text : Json → Checked String
  | .string s => .ok s
  | _ => .refuse .notText

/-- A value that is a text and not empty. -/
def filledText : Json → Checked { s : String // s ≠ "" }
  | .string s => if h : s ≠ "" then .ok ⟨s, h⟩ else .refuse .emptyText
  | _ => .refuse .notText

/-- A value that is a text or null. -/
def textOrNull : Json → Checked (Option String)
  | .null => .ok none
  | .string s => .ok (some s)
  | _ => .refuse .notText

/-- The items of a list, numbered from `i`. -/
def items {α : Type} (check : Json → Checked α) (i : Nat) : List Json → Checked (List α)
  | [] => .ok []
  | v :: rest =>
    (Checked.both (Checked.under (.index i) (check v)) (items check (i + 1) rest)).map fun p =>
      p.1 :: p.2

/-- A value that is a list. -/
def list {α : Type} (check : Json → Checked α) : Json → Checked (List α)
  | .array vs => items check 0 vs
  | _ => .refuse .notList

/-- The names of a field: the preferred one, and perhaps one that stands in for it. -/
structure FieldName where
  preferred : String
  substitute : Option String
  deriving DecidableEq, Repr

namespace FieldName

/-- A field with one name. -/
def only (name : String) : FieldName := ⟨name, none⟩

/-- The member that a field has, with the name under which it stands. -/
def find? (n : FieldName) (members : List (String × Json)) : Option (String × Json) :=
  match Json.lookup n.preferred members with
  | some v => some (n.preferred, v)
  | none => n.substitute.bind fun name => (Json.lookup name members).map fun v => (name, v)

end FieldName

/-- A field that may be left out for a default. -/
def field {α : Type} (n : FieldName) (absent : Checked α) (check : Json → Checked α)
    (members : List (String × Json)) : Checked α :=
  match n.find? members with
  | some (name, v) => Checked.under (.key name) (check v)
  | none => absent

/-- A field that must be there. -/
def required {α : Type} (n : FieldName) (check : Json → Checked α)
    (members : List (String × Json)) : Checked α :=
  field n (.error [⟨.missing, [.key n.preferred]⟩]) check members

/-- A field that has a default. -/
def optional {α : Type} (n : FieldName) (default : α) (check : Json → Checked α)
    (members : List (String × Json)) : Checked α :=
  field n (.ok default) check members

/-- A value that is a record of a given kind, with its members. -/
def record {α : Type} (kind : Kind) (check : List (String × Json) → Checked α) : Json → Checked α
  | .object members => check members
  | _ => .refuse (.notRecord kind)

/-! ## Records in texts -/

/-- Why a text does not hold a record: it is no JSON, or its value has faults. -/
inductive Refusal where
  | notJson
  | faults (fs : List Fault)
  deriving DecidableEq, Repr

/-- The record that a JSON text holds. -/
def read {α : Type} (check : Json → Checked α) (source : String) : Except Refusal α :=
  match Json.read? source with
  | none => .error .notJson
  | some v => (check v).mapError .faults

end MessageHarvest.Record
