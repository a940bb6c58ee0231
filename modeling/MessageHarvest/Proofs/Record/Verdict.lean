import MessageHarvest.Proofs.Record.Shape

/-!
# Checks against shapes

A check follows a shape if it accepts what fits, and refuses everything else with one fault for each
offending place, in their order. A check that is put together from checks of the parts follows the
shape that is put together from theirs.

* `Judged good bad before c`: the outcome `c` of a check accepts if `good` holds, and its faults are
  those in `bad`, ordered by `before`. Outcomes of two parts are judged together (`Judged.both`).
* `Verdict shape v c`: the outcome of a check is the right one for the value.
* `verdict_text`, `verdict_filledText`, `verdict_textOrNull`, `verdict_list`, `verdict_record`: the
  checks of each shape.
* `judged_field`, `FieldsJudged.cons`: those of the fields of a record.
-/

namespace MessageHarvest.Record

variable {α β : Type}

/-! ## Outcomes -/

/-- The outcome of a check accepts if `good` holds; its faults are those in `bad`, and they come in
the order `before`. -/
structure Judged (good : Prop) (bad : Fault → Prop) (before : List Step → List Step → Prop)
    (c : Checked α) : Prop where
  accepted : (∃ a, c = .ok a) ↔ good
  reported : ∀ f, f ∈ c.faults ↔ bad f
  ordered : c.faults.Pairwise fun f g => before f.path g.path

/-- The outcome of a check is the right one for the value. -/
structure Verdict (shape : Shape) (v : Json) (c : Checked α) : Prop where
  /-- It is accepted iff it has the shape. -/
  accepted : (∃ a, c = .ok a) ↔ Fits shape v
  /-- It is refused iff there are faults. -/
  refused : c.faults ≠ [] ↔ ¬ Fits shape v
  /-- The faults are those places where it offends, each with its cause. -/
  reported : ∀ cause path, ⟨cause, path⟩ ∈ c.faults ↔ Offends shape v cause path
  /-- No place is reported twice. -/
  once : (c.faults.map (·.path)).Nodup
  /-- They come in order. -/
  ordered : c.faults.Pairwise fun f g => Precedes shape f.path g.path
  /-- Their paths lead to them. -/
  leads : ∀ f ∈ c.faults, LeadsTo v f.cause f.path
  /-- What is wrong under the preferred name of a field is a fault, whatever stands under the name
  that may stand in for it. -/
  preferred : ∀ {kind fields members slot w}, shape = .record kind fields → v = .object members →
    slot ∈ fields → Json.lookup slot.name.preferred members = some w → ¬ Fits slot.shape w →
    ∃ cause path, ⟨cause, .key slot.name.preferred :: path⟩ ∈ c.faults

namespace Judged

variable {good good' : Prop} {bad bad' : Fault → Prop} {before : List Step → List Step → Prop}
  {c : Checked α} {d : Checked β}

/-- To accept is right where all is good and nothing bad. -/
theorem of_ok (a : α) (hgood : good) (hbad : ∀ f, ¬ bad f) :
    Judged good bad before (.ok a : Checked α) where
  accepted := ⟨fun _ => hgood, fun _ => ⟨a, rfl⟩⟩
  reported f := ⟨fun h => absurd h List.not_mem_nil, fun h => absurd h (hbad f)⟩
  ordered := .nil

/-- A single fault. -/
theorem of_error {f : Fault} (hgood : ¬ good) (hbad : ∀ g, bad g ↔ g = f) :
    Judged good bad before (.error [f] : Checked α) where
  accepted := ⟨nofun, fun h => absurd h hgood⟩
  reported g := List.mem_singleton.trans (hbad g).symm
  ordered := List.pairwise_singleton _ _

/-- A judgement does not depend on how good and bad are put. -/
theorem congr (h : Judged good bad before c) (hgood : good ↔ good') (hbad : ∀ f, bad f ↔ bad' f) :
    Judged good' bad' before c where
  accepted := h.accepted.trans hgood
  reported f := (h.reported f).trans (hbad f)
  ordered := h.ordered

/-- A judgement keeps its order under a weaker one. -/
theorem mono {before' : List Step → List Step → Prop} (h : Judged good bad before c)
    (hbefore : ∀ p q, before p q → before' p q) : Judged good bad before' c where
  accepted := h.accepted
  reported := h.reported
  ordered := h.ordered.imp (hbefore _ _)

/-- What is made of an accepted value does not matter. -/
theorem map (g : α → β) (h : Judged good bad before c) :
    Judged good bad before (c.map g : Checked β) := by
  have hfaults : Checked.faults (c.map g) = c.faults := by cases c <;> rfl
  refine ⟨?_, ?_, ?_⟩
  · rw [← h.accepted]
    cases c <;> simp [Except.map]
  · rw [hfaults]
    exact h.reported
  · rw [hfaults]
    exact h.ordered

/-- The outcome for a part, seen from one step above. -/
theorem under {before' : List Step → List Step → Prop} (s : Step) (h : Judged good bad before c)
    (hbefore : ∀ p q, before p q → before' (s :: p) (s :: q)) :
    Judged good (fun f => ∃ cause path, bad ⟨cause, path⟩ ∧ f = ⟨cause, s :: path⟩) before'
      (c.under s) := by
  refine ⟨?_, ?_, ?_⟩
  · rw [← h.accepted]
    cases c <;> simp [Checked.under]
  · intro f
    rw [Checked.faults_under, List.mem_map]
    constructor
    · rintro ⟨⟨cause, path⟩, hmem, rfl⟩
      exact ⟨cause, path, (h.reported _).mp hmem, rfl⟩
    · rintro ⟨cause, path, hbad, rfl⟩
      exact ⟨⟨cause, path⟩, (h.reported _).mpr hbad, rfl⟩
  · rw [Checked.faults_under, List.pairwise_map]
    exact h.ordered.imp (hbefore _ _)

/-- **Two parts together**: both must be accepted, and the faults of the first one come first. -/
theorem both (h : Judged good bad before c) (h' : Judged good' bad' before d)
    (hbefore : ∀ f g, bad f → bad' g → before f.path g.path) :
    Judged (good ∧ good') (fun f => bad f ∨ bad' f) before (Checked.both c d) := by
  refine ⟨?_, ?_, ?_⟩
  · rw [← h.accepted, ← h'.accepted]
    simp only [Checked.both_eq_ok_iff, Prod.exists, exists_and_left, exists_and_right]
  · intro f
    rw [Checked.faults_both, List.mem_append, h.reported, h'.reported]
  · rw [Checked.faults_both, List.pairwise_append]
    refine ⟨h.ordered, h'.ordered, ?_⟩
    intro f hf g hg
    exact hbefore f g ((h.reported f).mp hf) ((h'.reported g).mp hg)

end Judged

/-- Judged by the rules of a shape. -/
theorem Judged.verdict {shape : Shape} {v : Json} {c : Checked α}
    (h : Judged (Fits shape v) (fun f => Offends shape v f.cause f.path) (Precedes shape) c) :
    Verdict shape v c where
  accepted := h.accepted
  refused := by
    apply not_congr
    rw [fits_iff, List.eq_nil_iff_forall_not_mem]
    constructor
    · intro hnone cause path hoffends
      exact hnone ⟨cause, path⟩ ((h.reported _).mpr hoffends)
    · intro hnone f hf
      exact hnone _ _ ((h.reported f).mp hf)
  reported cause path := h.reported ⟨cause, path⟩
  once := by
    rw [List.nodup_iff_pairwise_ne, List.pairwise_map]
    exact h.ordered.imp fun hprecedes => hprecedes.irrefl
  ordered := h.ordered
  leads f hf := ((h.reported f).mp hf).leads
  preferred := by
    rintro kind fields members slot w rfl rfl hslot hlookup hw
    obtain ⟨cause, path, hoffends⟩ := exists_offends hw
    exact ⟨cause, path, (h.reported _).mpr (.member hslot (.preferred hlookup) hoffends)⟩

/-- A verdict judges by what fits and what offends. -/
theorem Verdict.judged {shape : Shape} {v : Json} {c : Checked α} (h : Verdict shape v c) :
    Judged (Fits shape v) (fun f => Offends shape v f.cause f.path) (Precedes shape) c where
  accepted := h.accepted
  reported f := h.reported f.cause f.path
  ordered := h.ordered

/-! ## Values without parts -/

/-- To accept is right where the value fits. -/
theorem verdict_ok {shape : Shape} {v : Json} (a : α) (h : Fits shape v) :
    Verdict shape v (.ok a : Checked α) := by
  apply Judged.verdict
  apply Judged.of_ok a h
  intro f hf
  exact hf.not_fits h

/-- A value that is no such thing at all is refused for that alone. -/
theorem verdict_refuse {shape : Shape} {v : Json} {cause : Cause} (h : Offends shape v cause [])
    (honly : ∀ cause' path, Offends shape v cause' path → cause' = cause ∧ path = []) :
    Verdict shape v (.refuse cause : Checked α) := by
  apply Judged.verdict
  apply Judged.of_error h.not_fits
  rintro ⟨cause', path⟩
  constructor
  · intro hf
    obtain ⟨rfl, rfl⟩ := honly cause' path hf
    rfl
  · rintro ⟨⟩
    exact h

/-- The check of texts says what their shape asks for. -/
theorem verdict_text (v : Json) : Verdict .text v (text v) := by
  unfold text
  split
  · exact verdict_ok _ (.text _)
  · rename_i hno
    apply verdict_refuse (.text hno)
    intro cause path hoffends
    cases hoffends
    exact ⟨rfl, rfl⟩

/-- So does that of filled texts. -/
theorem verdict_filledText (v : Json) : Verdict .filledText v (filledText v) := by
  unfold filledText
  split
  · rename_i s
    split
    · exact verdict_ok _ (.filledText ‹_›)
    · obtain rfl : s = "" := Decidable.not_not.mp ‹_›
      apply verdict_refuse .emptyText
      intro cause path hoffends
      cases hoffends with
      | filledText hno => exact absurd rfl (hno _)
      | emptyText => exact ⟨rfl, rfl⟩
  · rename_i hno
    apply verdict_refuse (.filledText hno)
    intro cause path hoffends
    cases hoffends with
    | filledText _ => exact ⟨rfl, rfl⟩
    | emptyText => exact absurd rfl (hno _)

/-- So does that of texts that may be missing. -/
theorem verdict_textOrNull (v : Json) : Verdict .textOrNull v (textOrNull v) := by
  unfold textOrNull
  split
  · exact verdict_ok _ .null
  · exact verdict_ok _ (.textOrNull _)
  · rename_i hnull hno
    apply verdict_refuse (.textOrNull hno hnull)
    intro cause path hoffends
    cases hoffends
    exact ⟨rfl, rfl⟩

/-! ## Lists -/

/-- The items of a list, one after the other. -/
theorem judged_items {item : Shape} {check : Json → Checked α}
    (h : ∀ v, Verdict item v (check v)) (i : Nat) (vs : List Json) :
    Judged (∀ v ∈ vs, Fits item v)
      (fun f => ∃ j v cause path, vs[j]? = some v ∧ Offends item v cause path ∧
        f = ⟨cause, .index (i + j) :: path⟩)
      (Precedes (.list item)) (items check i vs) := by
  induction vs generalizing i with
  | nil =>
    apply Judged.of_ok
    · simp
    · simp
  | cons v vs ih =>
    have hitem : ∀ p q, Precedes item p q → Precedes (.list item) (.index i :: p) (.index i :: q) :=
      fun p q hpq => .item hpq
    have hboth := ((h v).judged.under (.index i) hitem).both (ih (i + 1)) (by
      rintro f g ⟨cause, path, -, rfl⟩ ⟨j, w, cause', path', -, -, rfl⟩
      exact .items (by omega))
    refine (hboth.map _).congr ?_ ?_
    · simp
    · intro f
      constructor
      · rintro (⟨cause, path, hoffends, rfl⟩ | ⟨j, w, cause, path, hj, hoffends, rfl⟩)
        · exact ⟨0, v, cause, path, rfl, hoffends, rfl⟩
        · refine ⟨j + 1, w, cause, path, hj, hoffends, ?_⟩
          rw [Nat.add_assoc, Nat.add_comm 1 j]
      · rintro ⟨j, w, cause, path, hj, hoffends, rfl⟩
        cases j with
        | zero =>
          cases hj
          exact .inl ⟨cause, path, hoffends, rfl⟩
        | succ j =>
          refine .inr ⟨j, w, cause, path, hj, hoffends, ?_⟩
          rw [Nat.add_assoc, Nat.add_comm 1 j]

/-- So does that of lists, if the check of their items does. -/
theorem verdict_list {item : Shape} {check : Json → Checked α}
    (h : ∀ v, Verdict item v (check v)) (v : Json) : Verdict (.list item) v (list check v) := by
  unfold list
  split
  · rename_i vs
    apply Judged.verdict
    apply (judged_items h 0 vs).congr
    · constructor
      · exact .list
      · intro hfits
        cases hfits
        assumption
    · rintro ⟨cause, path⟩
      simp only [Nat.zero_add, Fault.mk.injEq]
      constructor
      · rintro ⟨j, w, _, _, hj, hoffends, rfl, rfl⟩
        exact .item hj hoffends
      · intro hf
        cases hf with
        | list hno => exact absurd rfl (hno _)
        | item hi hoffends => exact ⟨_, _, _, _, hi, hoffends, rfl, rfl⟩
  · rename_i hno
    apply verdict_refuse (.list hno)
    intro cause path hoffends
    cases hoffends with
    | list _ => exact ⟨rfl, rfl⟩
    | item _ _ => exact absurd rfl (hno _)

/-! ## Records -/

/-- The field is all right: what it holds has its shape, and it is there if it must be. -/
def Slot.Fine (slot : Slot Shape) (members : List (String × Json)) : Prop :=
  (∀ name v, slot.name.Stands members name v → Fits slot.shape v) ∧
    (slot.required = true → ¬ slot.name.Absent members)

/-- The fault is one of the field: it is missing, or its value offends. -/
inductive Slot.Faulty (slot : Slot Shape) (members : List (String × Json)) : Fault → Prop
  | missing (required : slot.required = true) (absent : slot.name.Absent members) :
      slot.Faulty members ⟨.missing, [.key slot.name.preferred]⟩
  | member {name : String} {v : Json} {cause : Cause} {path : List Step}
      (stands : slot.name.Stands members name v) (h : Offends slot.shape v cause path) :
      slot.Faulty members ⟨cause, .key name :: path⟩

/-- The path of such a fault begins with a name of the field. -/
theorem Slot.Faulty.exists_path {slot : Slot Shape} {members : List (String × Json)} {f : Fault}
    (h : slot.Faulty members f) : ∃ name ∈ slot.name.all, ∃ path, f.path = .key name :: path := by
  cases h with
  | missing _ _ => exact ⟨_, List.mem_cons_self, [], rfl⟩
  | member stands _ => exact ⟨_, stands.mem_all, _, rfl⟩

/-- The outcome of a check is the right one for these fields. -/
def FieldsJudged (fields : List (Slot Shape)) (members : List (String × Json)) (c : Checked α) :
    Prop :=
  Judged (∀ slot ∈ fields, slot.Fine members) (fun f => ∃ slot ∈ fields, slot.Faulty members f)
    (∀ kind, Precedes (.record kind fields) · ·) c

section

variable {slot : Slot Shape} {members : List (String × Json)}

/-- A field that is there is judged by its value. -/
theorem judged_member {name : String} {v : Json} {c : Checked α}
    (hstands : slot.name.Stands members name v) (h : Verdict slot.shape v c) :
    FieldsJudged [slot] members (Checked.under (.key name) c) := by
  have hmember : ∀ p q, Precedes slot.shape p q →
      ∀ kind, Precedes (.record kind [slot]) (.key name :: p) (.key name :: q) :=
    fun p q hpq kind => .member List.mem_cons_self hstands.mem_all hpq
  have hunder : Judged _ _ (fun p q => ∀ kind, Precedes (.record kind [slot]) p q) _ :=
    h.judged.under (.key name) hmember
  apply hunder.congr
  · rw [List.forall_mem_singleton]
    constructor
    · intro hfits
      refine ⟨?_, fun _ => hstands.not_absent⟩
      intro name' w hw
      obtain ⟨rfl, rfl⟩ := hstands.unique hw
      exact hfits
    · rintro ⟨hshape, -⟩
      exact hshape name v hstands
  · intro f
    simp only [List.mem_singleton, exists_eq_left]
    constructor
    · rintro ⟨cause, path, hoffends, rfl⟩
      exact .member hstands hoffends
    · rintro (⟨-, habsent⟩ | ⟨hw, hoffends⟩)
      · exact absurd habsent hstands.not_absent
      · obtain ⟨rfl, rfl⟩ := hstands.unique hw
        exact ⟨_, _, hoffends, rfl⟩

/-- A required field that is absent is missing, and that is all. -/
theorem judged_missing (hrequired : slot.required = true) (habsent : slot.name.Absent members) :
    FieldsJudged [slot] members
      (.error [⟨.missing, [.key slot.name.preferred]⟩] : Checked α) := by
  apply Judged.of_error
  · rw [List.forall_mem_singleton]
    rintro ⟨-, hpresent⟩
    exact hpresent hrequired habsent
  · intro f
    simp only [List.mem_singleton, exists_eq_left]
    constructor
    · rintro (_ | ⟨hv, -⟩)
      · rfl
      · exact absurd habsent hv.not_absent
    · rintro rfl
      exact .missing hrequired habsent

/-- Any other field may be absent. -/
theorem judged_default (hrequired : slot.required = false) (habsent : slot.name.Absent members)
    (a : α) : FieldsJudged [slot] members (.ok a : Checked α) := by
  apply Judged.of_ok
  · rw [List.forall_mem_singleton]
    refine ⟨fun name v hv => absurd habsent hv.not_absent, ?_⟩
    intro h
    rw [hrequired] at h
    cases h
  · intro f
    simp only [List.mem_singleton, exists_eq_left]
    rintro (⟨h, -⟩ | ⟨hv, -⟩)
    · rw [hrequired] at h
      cases h
    · exact absurd habsent hv.not_absent

end

/-- The check of a single field. If it is absent, it is missing or has a default. -/
theorem judged_field {slot : Slot Shape} {check : Json → Checked α} {absent : Checked α}
    (h : ∀ v, Verdict slot.shape v (check v))
    (hrequired : slot.required = true → absent = .error [⟨.missing, [.key slot.name.preferred]⟩])
    (hoptional : slot.required = false → ∃ a, absent = .ok a) (members : List (String × Json)) :
    FieldsJudged [slot] members (field slot.name absent check members) := by
  unfold field
  cases hfind : slot.name.find? members with
  | some found => exact judged_member (FieldName.find?_eq_some_iff.mp hfind) (h found.2)
  | none =>
    have habsent := FieldName.find?_eq_none_iff.mp hfind
    cases hslot : slot.required with
    | true =>
      rw [hrequired hslot]
      exact judged_missing hslot habsent
    | false =>
      obtain ⟨a, ha⟩ := hoptional hslot
      rw [ha]
      exact judged_default hslot habsent a

/-- **A field more**, declared before the others and under names of its own. -/
theorem FieldsJudged.cons {slot : Slot Shape} {fields : List (Slot Shape)}
    {members : List (String × Json)} {c : Checked α} {d : Checked β}
    (hc : FieldsJudged [slot] members c) (hd : FieldsJudged fields members d)
    (hnames : ∀ later ∈ fields, ∀ name ∈ slot.name.all, name ∉ later.name.all) :
    FieldsJudged (slot :: fields) members (Checked.both c d) := by
  have hfirst : Judged _ _ (fun p q => ∀ kind, Precedes (.record kind (slot :: fields)) p q) c :=
    hc.mono fun p q h kind => (h kind).append [] fields
  have hrest : Judged _ _ (fun p q => ∀ kind, Precedes (.record kind (slot :: fields)) p q) d :=
    hd.mono fun p q h kind => by simpa using (h kind).append [slot] []
  apply (hfirst.both hrest ?_).congr
  · rw [List.forall_mem_singleton, List.forall_mem_cons]
  · intro f
    simp
  · rintro f g ⟨_, hslot, hf⟩ ⟨later, hlater, hg⟩ kind
    rw [List.mem_singleton.mp hslot] at hf
    obtain ⟨name, hname, p, hp⟩ := hf.exists_path
    obtain ⟨name', hname', q, hq⟩ := hg.exists_path
    have hne : name ≠ name' := by
      rintro rfl
      exact hnames later hlater name hname hname'
    have hprecedes : Precedes (.record kind ([] ++ slot :: fields)) (.key name :: p)
        (.key name' :: q) := .members hlater hname hname' hne
    rw [hp, hq]
    exact hprecedes

/-- The check of a record, from those of its fields. -/
theorem verdict_record {kind : Kind} {fields : List (Slot Shape)}
    {check : List (String × Json) → Checked α}
    (h : ∀ members, FieldsJudged fields members (check members)) (v : Json) :
    Verdict (.record kind fields) v (record kind check v) := by
  unfold record
  split
  · rename_i members
    apply Judged.verdict
    apply ((h members).mono fun p q hpq => hpq kind).congr
    · constructor
      · intro hfine
        apply Fits.record
        · intro slot hslot
          exact (hfine slot hslot).1
        · intro slot hslot
          exact (hfine slot hslot).2
      · intro hfits
        cases hfits with
        | record present complete =>
          intro slot hslot
          exact ⟨present slot hslot, complete slot hslot⟩
    · rintro ⟨cause, path⟩
      constructor
      · rintro ⟨slot, hslot, hf⟩
        cases hf with
        | missing required absent => exact .missing hslot required absent
        | member stands hoffends => exact .member hslot stands hoffends
      · intro hf
        cases hf with
        | record hno => exact absurd rfl (hno _)
        | missing declared required absent => exact ⟨_, declared, .missing required absent⟩
        | member declared stands hoffends => exact ⟨_, declared, .member stands hoffends⟩
  · rename_i hno
    apply verdict_refuse (.record hno)
    intro cause path hoffends
    cases hoffends with
    | record _ => exact ⟨rfl, rfl⟩
    | missing _ _ _ => exact absurd rfl (hno _)
    | member _ _ _ => exact absurd rfl (hno _)

end MessageHarvest.Record
