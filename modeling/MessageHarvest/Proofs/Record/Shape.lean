import MessageHarvest.Record.Shape

/-!
# Shapes of values, and what departs from them

A `Shape` says what a value is expected to be. What it means for a value to have a shape, and which
faults it has otherwise, is said by rules, apart from any way to check it.

* `FieldName.Stands`, `FieldName.Absent`: under which name a field stands among the members of an
  object. A substitute name counts only if there is no member under the preferred one.
* `Fits shape v`: the value has the shape, at every depth.
* `Offends shape v cause path`: at the end of the path from the value there is a fault of this
  cause.
* `Precedes shape p q`: the order of places, fields as they are declared and items as they are
  numbered. No place precedes itself (`Precedes.irrefl`).
* **No fault is missed** (`fits_iff`): a value fits iff it offends nowhere.
* **Paths lead to faults** (`Offends.leads`): followed from the value, the path of a fault comes to
  what is at fault; that of a missing field comes to an object without the field.
-/

namespace MessageHarvest

/-! ## Names of fields -/

namespace Record

/-- Among the members the field has the value `v`, under the given name: the preferred one, or the
one that stands in for it while there is no member under the preferred one. -/
inductive FieldName.Stands (n : FieldName) (members : List (String × Json)) :
    String → Json → Prop
  | preferred {v : Json} (h : Json.lookup n.preferred members = some v) :
      n.Stands members n.preferred v
  | substitute {name : String} {v : Json} (absent : Json.lookup n.preferred members = none)
      (other : n.substitute = some name) (h : Json.lookup name members = some v) :
      n.Stands members name v

/-- The names that a field may stand under. -/
def FieldName.all (n : FieldName) : List String :=
  n.preferred :: n.substitute.toList

/-- There is no member under any name of the field. -/
def FieldName.Absent (n : FieldName) (members : List (String × Json)) : Prop :=
  ∀ name ∈ n.all, Json.lookup name members = none

/-- The member that is found for a field is the one that stands for it. -/
theorem FieldName.find?_eq_some_iff {n : FieldName} {members : List (String × Json)}
    {name : String} {v : Json} :
    n.find? members = some (name, v) ↔ n.Stands members name v := by
  unfold FieldName.find?
  cases hpreferred : Json.lookup n.preferred members with
  | some w =>
    constructor
    · intro h
      cases h
      exact .preferred hpreferred
    · rintro (h | ⟨habsent, -⟩)
      · rw [hpreferred] at h
        cases h
        rfl
      · rw [hpreferred] at habsent
        cases habsent
  | none =>
    simp only [Option.bind_eq_some_iff, Option.map_eq_some_iff, Prod.mk.injEq]
    constructor
    · rintro ⟨other, hother, w, hw, rfl, rfl⟩
      exact .substitute hpreferred hother hw
    · rintro (h | ⟨-, hother, hv⟩)
      · rw [hpreferred] at h
        cases h
      · exact ⟨name, hother, v, hv, rfl, rfl⟩

/-- No member is found iff the field is absent. -/
theorem FieldName.find?_eq_none_iff {n : FieldName} {members : List (String × Json)} :
    n.find? members = none ↔ n.Absent members := by
  unfold FieldName.find? FieldName.Absent FieldName.all
  cases hpreferred : Json.lookup n.preferred members with
  | some w => simp [hpreferred]
  | none => cases n.substitute <;> simp [hpreferred]

/-- A member stands for a field under one of its names only. -/
theorem FieldName.Stands.mem_all {n : FieldName} {members : List (String × Json)} {name : String}
    {v : Json} (h : n.Stands members name v) : name ∈ n.all := by
  cases h with
  | preferred h => exact List.mem_cons_self
  | substitute _ other _ => exact List.mem_cons_of_mem _ (by simp [other])

/-- A member that stands for a field is among the members. -/
theorem FieldName.Stands.lookup {n : FieldName} {members : List (String × Json)} {name : String}
    {v : Json} (h : n.Stands members name v) : Json.lookup name members = some v := by
  cases h with
  | preferred h => exact h
  | substitute _ _ h => exact h

/-- A field for which a member stands is not absent. -/
theorem FieldName.Stands.not_absent {n : FieldName} {members : List (String × Json)} {name : String}
    {v : Json} (h : n.Stands members name v) : ¬ n.Absent members := by
  rw [← find?_eq_none_iff, find?_eq_some_iff.mpr h]
  exact Option.some_ne_none _

/-- A field stands under one name only, with one value. -/
theorem FieldName.Stands.unique {n : FieldName} {members : List (String × Json)}
    {name name' : String} {v v' : Json} (h : n.Stands members name v)
    (h' : n.Stands members name' v') : name' = name ∧ v' = v := by
  rw [← find?_eq_some_iff] at h h'
  exact Prod.mk.inj (Option.some.inj (h'.symm.trans h))

/-! ## Shapes -/

/-- What is said of a field of a record: its names, whether it must be there, and what its value is
expected to be. -/
structure Slot (σ : Type) where
  name : FieldName
  required : Bool
  shape : σ

/-- What a value is expected to be. -/
inductive Shape where
  | text
  | filledText
  | textOrNull
  | list (item : Shape)
  | record (kind : Kind) (fields : List (Slot Shape))

/-- The value has the shape. Members under other names than those of the fields do not matter. -/
inductive Fits : Shape → Json → Prop
  | text (s : String) : Fits .text (.string s)
  | filledText {s : String} (h : s ≠ "") : Fits .filledText (.string s)
  | null : Fits .textOrNull .null
  | textOrNull (s : String) : Fits .textOrNull (.string s)
  | list {item : Shape} {vs : List Json} (items : ∀ v ∈ vs, Fits item v) :
      Fits (.list item) (.array vs)
  | record {kind : Kind} {fields : List (Slot Shape)} {members : List (String × Json)}
      (present : ∀ slot ∈ fields, ∀ name v, slot.name.Stands members name v → Fits slot.shape v)
      (complete : ∀ slot ∈ fields, slot.required = true → ¬ slot.name.Absent members) :
      Fits (.record kind fields) (.object members)

/-- Something is wrong with the value at the end of the path. -/
inductive Offends : Shape → Json → Cause → List Step → Prop
  | text {v : Json} (h : ∀ s, v ≠ .string s) : Offends .text v .notText []
  | filledText {v : Json} (h : ∀ s, v ≠ .string s) : Offends .filledText v .notText []
  | emptyText : Offends .filledText (.string "") .emptyText []
  | textOrNull {v : Json} (h : ∀ s, v ≠ .string s) (hnull : v ≠ .null) :
      Offends .textOrNull v .notText []
  | list {item : Shape} {v : Json} (h : ∀ vs, v ≠ .array vs) : Offends (.list item) v .notList []
  | item {item : Shape} {vs : List Json} {i : Nat} {v : Json} {cause : Cause} {path : List Step}
      (at_index : vs[i]? = some v) (h : Offends item v cause path) :
      Offends (.list item) (.array vs) cause (.index i :: path)
  | record {kind : Kind} {fields : List (Slot Shape)} {v : Json}
      (h : ∀ members, v ≠ .object members) :
      Offends (.record kind fields) v (.notRecord kind) []
  | missing {kind : Kind} {fields : List (Slot Shape)} {members : List (String × Json)}
      {slot : Slot Shape} (declared : slot ∈ fields) (required : slot.required = true)
      (absent : slot.name.Absent members) :
      Offends (.record kind fields) (.object members) .missing [.key slot.name.preferred]
  | member {kind : Kind} {fields : List (Slot Shape)} {members : List (String × Json)}
      {slot : Slot Shape} {name : String} {v : Json} {cause : Cause} {path : List Step}
      (declared : slot ∈ fields) (stands : slot.name.Stands members name v)
      (h : Offends slot.shape v cause path) :
      Offends (.record kind fields) (.object members) cause (.key name :: path)

/-- The order of places in a value of a shape: the parts of a list by their numbers, those of a
record as its fields are declared, and so on below. -/
inductive Precedes : Shape → List Step → List Step → Prop
  | items {item : Shape} {i j : Nat} {p q : List Step} (h : i < j) :
      Precedes (.list item) (.index i :: p) (.index j :: q)
  | item {item : Shape} {i : Nat} {p q : List Step} (h : Precedes item p q) :
      Precedes (.list item) (.index i :: p) (.index i :: q)
  | members {kind : Kind} {before after : List (Slot Shape)} {slot later : Slot Shape}
      {name name' : String} {p q : List Step} (declared : later ∈ after)
      (hname : name ∈ slot.name.all) (hname' : name' ∈ later.name.all) (hne : name ≠ name') :
      Precedes (.record kind (before ++ slot :: after)) (.key name :: p) (.key name' :: q)
  | member {kind : Kind} {fields : List (Slot Shape)} {slot : Slot Shape} {name : String}
      {p q : List Step} (declared : slot ∈ fields) (hname : name ∈ slot.name.all)
      (h : Precedes slot.shape p q) :
      Precedes (.record kind fields) (.key name :: p) (.key name :: q)

/-- No place precedes itself. -/
theorem Precedes.irrefl {shape : Shape} {p q : List Step} (h : Precedes shape p q) : p ≠ q := by
  induction h with
  | items h =>
    intro heq
    cases heq
    exact Nat.lt_irrefl _ h
  | item _ ih =>
    intro heq
    exact ih (List.cons.inj heq).2
  | members _ _ _ hne =>
    intro heq
    cases heq
    exact hne rfl
  | member _ _ _ ih =>
    intro heq
    exact ih (List.cons.inj heq).2

/-- More fields, before and behind, leave the order of places as it is. -/
theorem Precedes.append {kind : Kind} {fields : List (Slot Shape)} {p q : List Step}
    (h : Precedes (.record kind fields) p q) (left right : List (Slot Shape)) :
    Precedes (.record kind (left ++ fields ++ right)) p q := by
  cases h with
  | @members _ before after slot later name name' p q declared hname hname' hne =>
    have hsplit : left ++ (before ++ slot :: after) ++ right =
        (left ++ before) ++ slot :: (after ++ right) := by
      simp
    rw [hsplit]
    exact .members (List.mem_append_left right declared) hname hname' hne
  | member declared hname h =>
    exact .member (List.mem_append_left _ (List.mem_append_right _ declared)) hname h

/-! ## No fault is missed -/

/-- What holds of every shape of whose parts it holds, holds of every shape. -/
theorem Shape.induction_on_parts {motive : Shape → Prop} (text : motive .text)
    (filledText : motive .filledText) (textOrNull : motive .textOrNull)
    (list : ∀ item, motive item → motive (.list item))
    (record : ∀ kind fields, (∀ slot ∈ fields, motive slot.shape) → motive (.record kind fields)) :
    (shape : Shape) → motive shape
  | .text => text
  | .filledText => filledText
  | .textOrNull => textOrNull
  | .list item => list item (induction_on_parts text filledText textOrNull list record item)
  | .record kind fields => record kind fields fun slot _ =>
      induction_on_parts text filledText textOrNull list record slot.shape
termination_by shape => sizeOf shape
decreasing_by
  · simp
  · have := List.sizeOf_lt_of_mem ‹slot ∈ fields›
    cases slot
    simp at this ⊢
    omega

/-- What offends somewhere does not fit. -/
theorem Offends.not_fits {shape : Shape} {v : Json} {cause : Cause} {path : List Step}
    (h : Offends shape v cause path) : ¬ Fits shape v := by
  intro hfits
  induction h with
  | text h =>
    cases hfits
    exact h _ rfl
  | filledText h =>
    cases hfits
    exact h _ rfl
  | emptyText =>
    cases hfits with
    | filledText h => exact h rfl
  | textOrNull h hnull =>
    cases hfits with
    | null => exact hnull rfl
    | textOrNull s => exact h s rfl
  | list h =>
    cases hfits
    exact h _ rfl
  | item at_index _ ih =>
    cases hfits with
    | list items => exact ih (items _ (List.mem_of_getElem? at_index))
  | record h =>
    cases hfits
    exact h _ rfl
  | missing declared required absent =>
    cases hfits with
    | record _ complete => exact complete _ declared required absent
  | member declared stands _ ih =>
    cases hfits with
    | record present _ => exact ih (present _ declared _ _ stands)

/-- What offends nowhere fits. -/
theorem fits_of_not_offends {shape : Shape} :
    ∀ {v : Json}, (∀ cause path, ¬ Offends shape v cause path) → Fits shape v := by
  induction shape using Shape.induction_on_parts with
  | text =>
    intro v h
    by_cases hs : ∃ s, v = .string s
    · obtain ⟨s, rfl⟩ := hs
      exact .text s
    · exact absurd (.text (not_exists.mp hs)) (h _ _)
  | filledText =>
    intro v h
    by_cases hs : ∃ s, v = .string s
    · obtain ⟨s, rfl⟩ := hs
      apply Fits.filledText
      rintro rfl
      exact h _ _ .emptyText
    · exact absurd (.filledText (not_exists.mp hs)) (h _ _)
  | textOrNull =>
    intro v h
    by_cases hs : ∃ s, v = .string s
    · obtain ⟨s, rfl⟩ := hs
      exact .textOrNull s
    by_cases hnull : v = .null
    · rw [hnull]
      exact .null
    · exact absurd (.textOrNull (not_exists.mp hs) hnull) (h _ _)
  | list item ih =>
    intro v h
    by_cases hvs : ∃ vs, v = .array vs
    · obtain ⟨vs, rfl⟩ := hvs
      apply Fits.list
      intro w hw
      obtain ⟨i, hi⟩ := List.mem_iff_getElem?.mp hw
      apply ih
      intro cause path hoffends
      exact h _ _ (.item hi hoffends)
    · exact absurd (.list (not_exists.mp hvs)) (h _ _)
  | record kind fields ih =>
    intro v h
    by_cases hmembers : ∃ members, v = .object members
    · obtain ⟨members, rfl⟩ := hmembers
      apply Fits.record
      · intro slot hslot name w hstands
        apply ih slot hslot
        intro cause path hoffends
        exact h _ _ (.member hslot hstands hoffends)
      · intro slot hslot hrequired habsent
        exact h _ _ (.missing hslot hrequired habsent)
    · exact absurd (.record (not_exists.mp hmembers)) (h _ _)

/-- **No fault is missed**: a value that does not fit offends somewhere. -/
theorem fits_iff {shape : Shape} {v : Json} :
    Fits shape v ↔ ∀ cause path, ¬ Offends shape v cause path :=
  ⟨fun h _ _ hoffends => hoffends.not_fits h, fits_of_not_offends⟩

/-- What does not fit offends somewhere. -/
theorem exists_offends {shape : Shape} {v : Json} (h : ¬ Fits shape v) :
    ∃ cause path, Offends shape v cause path := by
  apply Classical.byContradiction
  intro hnone
  apply h
  apply fits_of_not_offends
  intro cause path hoffends
  exact hnone ⟨cause, path, hoffends⟩

/-! ## Following a path -/

/-- What a path comes to from a value. -/
def follow? : Json → List Step → Option Json
  | v, [] => some v
  | .object members, .key name :: path => (Json.lookup name members).bind (follow? · path)
  | .array vs, .index i :: path => (vs[i]?).bind (follow? · path)
  | _, _ => none

/-- The cause is a true complaint about the value itself. That a part is missing, or may not be set,
is no complaint about a value. -/
def Cause.Blames (v : Json) : Cause → Prop
  | .missing => False
  | .notText => ∀ s, v ≠ .string s
  | .emptyText => v = .string ""
  | .notList => ∀ vs, v ≠ .array vs
  | .notRecord _ => ∀ members, v ≠ .object members
  | .frozen => False

/-- Followed from the value, the path comes to what the cause complains of. If this is that a field
is missing, the path comes to an object without a member of this name. -/
def LeadsTo (v : Json) (cause : Cause) (path : List Step) : Prop :=
  (∃ w, follow? v path = some w ∧ cause.Blames w) ∨
    cause = .missing ∧ ∃ above name members, path = above ++ [.key name] ∧
      follow? v above = some (.object members) ∧ Json.lookup name members = none

/-- A path that leads to a fault from a part leads to it from the whole, with one step more. -/
theorem LeadsTo.cons {v w : Json} {cause : Cause} {path : List Step} {step : Step}
    (hstep : ∀ rest, follow? v (step :: rest) = follow? w rest) (h : LeadsTo w cause path) :
    LeadsTo v cause (step :: path) := by
  rcases h with ⟨x, hx, hblames⟩ | ⟨hmissing, above, name, members, rfl, habove, hlookup⟩
  · exact .inl ⟨x, (hstep path).trans hx, hblames⟩
  · exact .inr ⟨hmissing, step :: above, name, members, rfl, (hstep above).trans habove, hlookup⟩

/-- **Paths lead to faults.** -/
theorem Offends.leads {shape : Shape} {v : Json} {cause : Cause} {path : List Step}
    (h : Offends shape v cause path) : LeadsTo v cause path := by
  induction h with
  | text h => exact .inl ⟨_, rfl, h⟩
  | filledText h => exact .inl ⟨_, rfl, h⟩
  | emptyText => exact .inl ⟨_, rfl, rfl⟩
  | textOrNull h _ => exact .inl ⟨_, rfl, h⟩
  | list h => exact .inl ⟨_, rfl, h⟩
  | record h => exact .inl ⟨_, rfl, h⟩
  | item at_index _ ih =>
    apply ih.cons
    intro rest
    simp [follow?, at_index]
  | @missing _ _ members slot _ _ absent =>
    exact .inr ⟨rfl, [], _, members, rfl, rfl, absent _ List.mem_cons_self⟩
  | member _ stands _ ih =>
    apply ih.cons
    intro rest
    simp [follow?, stands.lookup]

end Record

end MessageHarvest
