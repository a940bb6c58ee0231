/-!
# Faults of a record

A value that does not have the shape of a record is refused with all its faults, each with the
way from the value to the place of the fault. Parts are checked independently of each other: the
faults of a whole are those of its parts, one part after the other. How a fault is worded depends on
whether the value was given as it is or as a text.
-/

namespace MessageHarvest.Record

/-- A step from a value to a part of it. -/
inductive Step where
  | key (name : String)
  | index (i : Nat)
  deriving DecidableEq, Repr

/-- The records that a value may be expected to be. -/
inductive Kind where
  | message
  | fileReport
  | options
  | settings
  deriving DecidableEq, Repr

/-- The name of a record in the wording of a fault. -/
def Kind.name : Kind → String
  | message => "MessageDescriptor"
  | fileReport => "FileMessages"
  | options => "ExtractorConfig"
  | settings => "ProjectConfig"

/-- What is wrong with a part of a value, or with an attempt to set it. -/
inductive Cause where
  | missing
  | notText
  | emptyText
  | notList
  | notRecord (kind : Kind)
  /-- The part cannot be set. -/
  | frozen
  deriving DecidableEq, Repr

/-- How a value was given. -/
inductive Form where
  | value
  | text
  deriving DecidableEq, Repr

namespace Cause

/-- The sort of a fault. -/
def sort : Cause → String
  | missing => "missing"
  | notText => "string_type"
  | emptyText => "string_too_short"
  | notList => "list_type"
  | notRecord _ => "model_type"
  | frozen => "frozen_instance"

/-- What is said of a fault. -/
def message (form : Form) : Cause → String
  | missing => "Field required"
  | notText => "Input should be a valid string"
  | emptyText => "String should have at least 1 character"
  | notList =>
    match form with
    | .value => "Input should be a valid list"
    | .text => "Input should be a valid array"
  | notRecord kind =>
    match form with
    | .value => "Input should be a valid dictionary or instance of " ++ kind.name
    | .text => "Input should be an object"
  | frozen => "Instance is frozen"

end Cause

/-- A cause, and the way to the part that it is about. -/
structure Fault where
  cause : Cause
  path : List Step
  deriving DecidableEq, Repr

/-- The fault as it is seen from one step above. -/
def Fault.under (s : Step) (f : Fault) : Fault :=
  { f with path := s :: f.path }

/-- What a value was read as, or its faults. -/
abbrev Checked (α : Type) := Except (List Fault) α

namespace Checked

/-- A value that has a fault of its own. -/
def refuse {α : Type} (c : Cause) : Checked α :=
  .error [⟨c, []⟩]

/-- The faults of what was checked, none if it was accepted. -/
def faults {α : Type} : Checked α → List Fault
  | .ok _ => []
  | .error fs => fs

/-- What was checked as a part, seen from one step above. -/
def under {α : Type} (s : Step) : Checked α → Checked α
  | .ok a => .ok a
  | .error fs => .error (fs.map (Fault.under s))

/-- Two parts together. -/
def both {α β : Type} : Checked α → Checked β → Checked (α × β)
  | .ok a, .ok b => .ok (a, b)
  | .ok _, .error gs => .error gs
  | .error fs, .ok _ => .error fs
  | .error fs, .error gs => .error (fs ++ gs)

/-- What was accepted is accepted from one step above. -/
@[simp] theorem under_ok {α : Type} (s : Step) (a : α) : under s (.ok a) = .ok a := rfl

/-- Seen from one step above, each fault has one step more in front. -/
@[simp] theorem faults_under {α : Type} (s : Step) (c : Checked α) :
    (c.under s).faults = c.faults.map (Fault.under s) := by
  cases c <;> rfl

/-- The faults of two parts are those of the first and then those of the second. -/
@[simp] theorem faults_both {α β : Type} (a : Checked α) (b : Checked β) :
    (both a b).faults = a.faults ++ b.faults := by
  cases a <;> cases b <;> simp [both, faults]

/-- Two parts are accepted together iff each of them is. -/
theorem both_eq_ok_iff {α β : Type} {a : Checked α} {b : Checked β} {p : α × β} :
    both a b = .ok p ↔ a = .ok p.1 ∧ b = .ok p.2 := by
  cases a <;> cases b <;> simp [both, Prod.ext_iff]

end Checked

end MessageHarvest.Record
