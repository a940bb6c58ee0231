import MessageHarvest.Proofs.Message.Draft
import MessageHarvest.Proofs.Message.Multiplicity
import MessageHarvest.Proofs.Record.Declared
import MessageHarvest.Proofs.Report.Document
import Mathlib.Data.List.Induction

/-!
# Drafts and records agree on what a message is

Whether a draft is a message is decided in two ways: by looking at its two required fields, and by
checking the fields that were put as a record.

* `membersOf`: the members of an object after a row of puts. A put sets its key anew, and puts under
  names that are none of a field's are left out.
* `Draft.checked?`: the message that is made by checking the texts of a complete draft.
* `lookup_membersOf`: what stands under a name is the last put under it.
* `Node.exists_puts_of_extract`: every message of an extraction comes from a row of puts.
* **Drafts and records agree** (`Draft.message?_validated`): after any row of puts the check of the
  members accepts iff the draft is complete, and then as the message of the draft.
-/

namespace MessageHarvest

open Record

/-! ## Puts as members of an object -/

/-- The members after a key is set: in place if it is there, else at the end. -/
def assign (key : String) (v : Json) : List (String × Json) → List (String × Json)
  | [] => [(key, v)]
  | (k, w) :: rest => if k = key then (key, v) :: rest else (k, w) :: assign key v rest

/-- The members after a put. -/
def putMember (members : List (String × Json)) (p : String × String) : List (String × Json) :=
  if p.1 ∈ fieldNames then assign p.1 (.string p.2) members else members

/-- The members after a row of puts. -/
def membersOf (puts : List (String × String)) : List (String × Json) :=
  puts.foldl putMember []

/-- The last text is put into what the others have made. -/
theorem membersOf_concat (puts : List (String × String)) (p : String × String) :
    membersOf (puts ++ [p]) = putMember (membersOf puts) p := by
  rw [membersOf, List.foldl_concat]
  rfl

/-- A later member of a name counts more than the first one. -/
theorem Json.lookup_cons (name key : String) (v : Json) (members : List (String × Json)) :
    Json.lookup name ((key, v) :: members) =
      (Json.lookup name members).or (if key = name then some v else none) :=
  map_find?_reverse_cons name (key, v) members

/-- A name without a member is none of the names. -/
theorem Json.lookup_eq_none_iff {name : String} {members : List (String × Json)} :
    Json.lookup name members = none ↔ name ∉ members.map (·.1) := by
  simp only [lookup, Option.map_eq_none_iff, List.find?_eq_none, List.mem_reverse, List.mem_map,
    decide_eq_true_eq, not_exists, not_and]

/-- To assign a name adds that name, if it is new. -/
theorem mem_keys_assign {key name : String} {v : Json} {members : List (String × Json)} :
    name ∈ (assign key v members).map (·.1) ↔ name = key ∨ name ∈ members.map (·.1) := by
  induction members with
  | nil => simp [assign]
  | cons p members ih =>
    obtain ⟨k, w⟩ := p
    unfold assign
    by_cases hk : k = key
    · simp [hk]
    · simp only [if_neg hk, List.map_cons, List.mem_cons, ih, or_left_comm]

/-- Distinct keys stay distinct. -/
theorem nodup_keys_assign {key : String} {v : Json} {members : List (String × Json)}
    (h : (members.map (·.1)).Nodup) : ((assign key v members).map (·.1)).Nodup := by
  induction members with
  | nil => simp [assign]
  | cons p members ih =>
    obtain ⟨k, w⟩ := p
    rw [List.map_cons, List.nodup_cons] at h
    unfold assign
    by_cases hk : k = key
    · subst hk
      simpa using h
    · rw [if_neg hk, List.map_cons, List.nodup_cons, mem_keys_assign, not_or]
      exact ⟨⟨hk, h.1⟩, ih h.2⟩

/-- **A key that is set** has the new value, and no other key changes. -/
theorem lookup_assign {key name : String} {v : Json} {members : List (String × Json)}
    (h : (members.map (·.1)).Nodup) :
    Json.lookup name (assign key v members) =
      if key = name then some v else Json.lookup name members := by
  induction members with
  | nil =>
    rw [assign, Json.lookup_cons]
    rfl
  | cons p members ih =>
    obtain ⟨k, w⟩ := p
    rw [List.map_cons, List.nodup_cons] at h
    unfold assign
    by_cases hk : k = key
    · subst hk
      rw [if_pos rfl, Json.lookup_cons, Json.lookup_cons]
      by_cases hname : k = name
      · subst hname
        simp [Json.lookup_eq_none_iff.mpr h.1]
      · simp [hname]
    · rw [if_neg hk, Json.lookup_cons, Json.lookup_cons, ih h.2]
      by_cases hname : key = name
      · simp [hname]
      · simp [hname]

/-- No name comes twice when a text is put. -/
theorem nodup_keys_putMember {members : List (String × Json)} (h : (members.map (·.1)).Nodup)
    (p : String × String) : ((putMember members p).map (·.1)).Nodup := by
  unfold putMember
  split
  · exact nodup_keys_assign h
  · exact h

/-- A text that is put under the name of a field is looked up there, and all else stays. -/
theorem lookup_putMember {members : List (String × Json)} (h : (members.map (·.1)).Nodup)
    (p : String × String) (name : String) :
    Json.lookup name (putMember members p) =
      if p.1 = name ∧ name ∈ fieldNames then some (.string p.2) else Json.lookup name members := by
  unfold putMember
  by_cases hp : p.1 ∈ fieldNames
  · rw [if_pos hp, lookup_assign h]
    by_cases hname : p.1 = name
    · simp [hname, hname ▸ hp]
    · simp [hname]
  · have hno : ¬ (p.1 = name ∧ name ∈ fieldNames) := by
      rintro ⟨rfl, hmem⟩
      exact hp hmem
    rw [if_neg hp, if_neg hno]

/-- In the object of the texts no name comes twice. -/
theorem nodup_keys_membersOf (puts : List (String × String)) :
    ((membersOf puts).map (·.1)).Nodup := by
  induction puts using List.reverseRecOn with
  | nil => exact List.nodup_nil
  | append_singleton puts p ih =>
    rw [membersOf_concat]
    exact nodup_keys_putMember ih p

/-- **Under the name of a field** there is its last put, and under no other name is there
anything. -/
theorem lookup_membersOf (name : String) (puts : List (String × String)) :
    Json.lookup name (membersOf puts) =
      if name ∈ fieldNames then (lastText? name puts).map .string else none := by
  induction puts using List.reverseRecOn with
  | nil => simp [membersOf, lastText?, Json.lookup]
  | append_singleton puts p ih =>
    rw [membersOf_concat, lookup_putMember (nodup_keys_membersOf puts), ih, lastText?_concat]
    by_cases hname : name ∈ fieldNames <;> by_cases hp : p.1 = name <;> simp [hname, hp]

/-- The members of the object are those of the draft. -/
theorem lookup_membersOf_eq_some_iff {name : String} {v : Json} {puts : List (String × String)} :
    Json.lookup name (membersOf puts) = some v ↔
      ∃ text, v = .string text ∧ (name, text) ∈ (Draft.ofPuts puts).members := by
  simp only [lookup_membersOf, Draft.mem_members_iff, Draft.get?_ofPuts]
  constructor
  · intro h
    split at h
    · obtain ⟨f, rfl⟩ := mem_fieldNames_iff.mp ‹_›
      obtain ⟨text, htext, rfl⟩ := Option.map_eq_some_iff.mp h
      exact ⟨text, rfl, f, rfl, htext⟩
    · cases h
  · rintro ⟨text, rfl, f, rfl, htext⟩
    rw [if_pos (mem_fieldNames_iff.mpr ⟨f, rfl⟩), htext, Option.map_some]

/-! ## The members as a record -/

/-- What is found for a field among the members: the last put under its preferred name. A name that
stands in for it is none of a put's. -/
theorem find?_membersOf {n : FieldName} (hname : n.preferred ∈ fieldNames)
    (hother : ∀ other ∈ n.substitute, other ∉ fieldNames) (puts : List (String × String)) :
    n.find? (membersOf puts) =
      (lastText? n.preferred puts).map fun text => (n.preferred, .string text) := by
  unfold FieldName.find?
  rw [lookup_membersOf, if_pos hname]
  cases hlast : lastText? n.preferred puts with
  | some text => rfl
  | none =>
    cases hsub : n.substitute with
    | none => rfl
    | some other =>
      have hno : other ∉ fieldNames := hother other hsub
      simp [lookup_membersOf, hno]

/-- What is read of a field from the members: the last put under its preferred name, or the
default. -/
theorem fieldIs_membersOf_iff {α : Type} {n : FieldName} (hname : n.preferred ∈ fieldNames)
    (hother : ∀ other ∈ n.substitute, other ∉ fieldNames) {default : Option α}
    {R : Json → α → Prop} {puts : List (String × String)} {a : α} :
    FieldIs n default R (membersOf puts) a ↔
      (lastText? n.preferred puts).elim (default = some a) fun text => R (.string text) a := by
  have hfind := find?_membersOf hname hother puts
  cases hlast : lastText? n.preferred puts with
  | some text =>
    rw [hlast] at hfind
    exact fieldIs_iff_of_stands (FieldName.find?_eq_some_iff.mp hfind)
  | none =>
    rw [hlast] at hfind
    exact fieldIs_iff_of_absent (FieldName.find?_eq_none_iff.mp hfind)

/-- **The members as a record** are the message with the fields of the draft, or no message. -/
theorem ofJson_membersOf_eq_ok_iff {puts : List (String × String)} {m : Message} :
    Message.ofJson (.object (membersOf puts)) = .ok m ↔ (Draft.ofPuts puts).message? = some m := by
  have hid : FieldIs (.only "id") none TellsText (membersOf puts) m.id ↔
      lastText? "id" puts = some m.id := by
    rw [fieldIs_membersOf_iff (by decide) (by simp [FieldName.only])]
    cases h : lastText? "id" puts <;> simp [FieldName.only, h, TellsText]
  have hdefault : FieldIs ⟨"defaultMessage", some "default_message"⟩ none TellsText (membersOf puts)
      m.defaultMessage ↔ lastText? "defaultMessage" puts = some m.defaultMessage := by
    rw [fieldIs_membersOf_iff (by decide) (by decide)]
    cases lastText? "defaultMessage" puts <;> simp [TellsText]
  have hdescription : FieldIs (.only "description") (some none) TellsTextOrNull (membersOf puts)
      m.description ↔ lastText? "description" puts = m.description := by
    rw [fieldIs_membersOf_iff (by decide) (by simp [FieldName.only])]
    cases h : lastText? "description" puts <;> cases m.description <;>
      simp [FieldName.only, h, TellsTextOrNull]
  rw [Message.ofJson_eq_ok_iff, Draft.message?_eq_some_iff]
  simp only [TellsMessage, Draft.get?_ofPuts, Field.name, Json.object.injEq, exists_eq_left', hid,
    hdefault, hdescription]

/-- It is accepted iff the draft is complete. -/
theorem isOk_ofJson_membersOf_iff {puts : List (String × String)} :
    (∃ m, Message.ofJson (.object (membersOf puts)) = .ok m) ↔
      (Draft.ofPuts puts).isComplete = true := by
  simp only [ofJson_membersOf_eq_ok_iff, ← Draft.isSome_message?, Option.isSome_iff_exists]

/-! ## The check of a complete draft -/

namespace Draft

/-- The texts of a draft as what a message is made from, null for a text that is not there. -/
def arguments (d : Draft) : Json :=
  .object [("id", d.id.elim .null .string),
    ("default_message", d.defaultMessage.elim .null .string),
    ("description", d.description.elim .null .string)]

/-- What is made of a draft: nothing while it is incomplete, else what its texts are checked as. -/
def checked? (d : Draft) : Option (Checked Message) :=
  if d.isComplete then some (Message.ofJson d.arguments) else none

/-- The texts of a message are accepted as that message. -/
theorem ofJson_arguments {d : Draft} {m : Message} (h : d.message? = some m) :
    Message.ofJson d.arguments = .ok m := by
  obtain ⟨hid, hdefault, hdescription⟩ := message?_eq_some_iff.mp h
  simp only [get?] at hid hdefault hdescription
  rw [Message.ofJson_eq_ok_iff, arguments, hid, hdefault, hdescription]
  refine ⟨_, rfl, ?_, ?_, ?_⟩
  · exact .present (.preferred rfl) rfl
  · exact .present (.substitute rfl rfl rfl) rfl
  · exact .present (.preferred rfl) rfl

/-- **The check never fails**: a complete draft is accepted, as its message. -/
theorem checked?_eq (d : Draft) : d.checked? = d.message?.map .ok := by
  unfold checked?
  cases h : d.message? with
  | some m =>
    have hcomplete : d.isComplete = true := by rw [← isSome_message?, h, Option.isSome_some]
    rw [if_pos hcomplete, ofJson_arguments h, Option.map_some]
  | none =>
    rw [message?_eq_none_iff.mp h, if_neg Bool.false_ne_true, Option.map_none]

/-- A draft is complete iff its id and its default text are there and not empty. -/
theorem isComplete_iff {d : Draft} :
    d.isComplete = true ↔ ∃ id text, d.get? .id = some id ∧ id ≠ "" ∧
      d.get? .defaultMessage = some text ∧ text ≠ "" := by
  obtain ⟨_ | id, _ | text, description⟩ := d <;> simp [isComplete, get?]

end Draft

/-! ## Extracted messages come from puts -/

namespace Node

variable {src : Source}

/-- A draft that stays as it is had no put. -/
theorem exists_putAll_of_pure {d d' : Draft} (h : (pure d : Except Escape.Error Draft) = .ok d') :
    ∃ puts, d' = d.putAll puts := by
  cases h
  exact ⟨[], rfl⟩

/-- A text that is there is put, else nothing is. -/
theorem exists_putAll_of_put {x : Except Escape.Error (Option String)} {name : String}
    {d d' : Draft} (h : (do
      match ← x with
      | none => return d
      | some text => return d.put name text) = Except.ok d') : ∃ puts, d' = d.putAll puts := by
  obtain ⟨text?, -, h⟩ := exists_of_bind h
  rcases text? with _ | text
  · exact exists_putAll_of_pure h
  · cases h
    exact ⟨[(name, text)], rfl⟩

/-- Reading a pair puts texts into the draft and does nothing else. -/
theorem exists_putAll_of_readPair {templates : Bool} {d d' : Draft} {child : Node}
    (h : readPair src templates d child = .ok d') : ∃ puts, d' = d.putAll puts := by
  unfold readPair at h
  split at h
  · split at h
    · obtain ⟨name?, -, h⟩ := exists_of_bind h
      rcases name? with _ | name
      · exact exists_putAll_of_pure h
      · cases templates <;> exact exists_putAll_of_put h
    · exact exists_putAll_of_pure h
  · exact exists_putAll_of_pure h

/-- So does reading an attribute. -/
theorem exists_putAll_of_readAttribute {d d' : Draft} {child : Node}
    (h : readAttribute src d child = .ok d') : ∃ puts, d' = d.putAll puts := by
  unfold readAttribute at h
  split at h
  · split at h
    · exact exists_putAll_of_put h
    · exact exists_putAll_of_pure h
  · exact exists_putAll_of_pure h

/-- If each step of a fold makes puts, the fold makes them all. -/
theorem exists_putAll_of_foldlM {step : Draft → Node → Except Escape.Error Draft}
    (hstep : ∀ {d d' child}, step d child = .ok d' → ∃ puts, d' = d.putAll puts)
    {children : List Node} {d d' : Draft} (h : children.foldlM step d = .ok d') :
    ∃ puts, d' = d.putAll puts := by
  induction children generalizing d with
  | nil => exact exists_putAll_of_pure h
  | cons child children ih =>
    rw [List.foldlM_cons] at h
    obtain ⟨d₁, hchild, h⟩ := exists_of_bind h
    obtain ⟨puts, rfl⟩ := hstep hchild
    obtain ⟨rest, rfl⟩ := ih h
    exact ⟨puts ++ rest, (Draft.putAll_append d puts rest).symm⟩

/-- A message that is collected from the drafts of some nodes comes from puts. -/
theorem exists_puts_of_mem_gather {read : Node → Except Escape.Error Draft}
    (hread : ∀ {n d}, read n = .ok d → ∃ puts, d = Draft.ofPuts puts) {nodes : List Node}
    {messages : List Message}
    (h : gather (fun n => return (← read n).message?.toList) nodes = .ok messages) {m : Message}
    (hm : m ∈ messages) : ∃ puts, (Draft.ofPuts puts).message? = some m := by
  obtain ⟨n, -, found, hfound, hmem⟩ := exists_of_mem_gather h hm
  obtain ⟨d, hd, hfound⟩ := exists_of_bind hfound
  cases hfound
  obtain ⟨puts, rfl⟩ := hread hd
  exact ⟨puts, Option.mem_toList.mp hmem⟩

/-- A message of a call is found in one of the object literals that the call is given. -/
theorem exists_of_mem_callMessages {callee : String}
    {extract : Node → Except Escape.Error (List Message)} {root : Node} {messages : List Message}
    (h : root.callMessages src callee extract = .ok messages) {m : Message} (hm : m ∈ messages) :
    ∃ object found, extract object = .ok found ∧ m ∈ found := by
  obtain ⟨declarator, -, here, hhere, hm⟩ := exists_of_mem_gather h hm
  obtain ⟨object, -, found, hfound, hm⟩ := exists_of_mem_gather hhere hm
  exact ⟨object, found, hfound, hm⟩

/-- **Every message of an extraction** comes from a row of puts. -/
theorem exists_puts_of_extract {o : Options} {root : Node} {messages : List Message}
    (h : root.extract src o = .ok messages) {m : Message} (hm : m ∈ messages) :
    ∃ puts, (Draft.ofPuts puts).message? = some m := by
  have hobject : ∀ {templates : Bool} {object : Node} {d : Draft},
      object.readObject src templates = .ok d → ∃ puts, d = Draft.ofPuts puts :=
    exists_putAll_of_foldlM exists_putAll_of_readPair
  have htag : ∀ {tag : Node} {d : Draft}, tag.readTag src = .ok d → ∃ puts, d = Draft.ofPuts puts :=
    exists_putAll_of_foldlM exists_putAll_of_readAttribute
  obtain ⟨tags, bulk, single, htags, hbulk, hsingle, rfl⟩ := exists_of_extract h
  rw [List.mem_append, List.mem_append] at hm
  rcases hm with (hm | hm) | hm
  · obtain ⟨name, -, found, hfound, hm⟩ := exists_of_mem_gather htags hm
    exact exists_puts_of_mem_gather htag hfound hm
  · obtain ⟨object, found, hfound, hm⟩ := exists_of_mem_callMessages hbulk hm
    exact exists_puts_of_mem_gather hobject hfound hm
  · obtain ⟨object, found, hfound, hm⟩ := exists_of_mem_callMessages hsingle hm
    obtain ⟨d, hd, hfound⟩ := exists_of_bind hfound
    cases hfound
    obtain ⟨puts, rfl⟩ := hobject hd
    exact ⟨puts, Option.mem_toList.mp hm⟩

end Node

/-! ## Agreement -/

/-- After the puts, the draft and the members agree on what the message is. -/
structure Draft.Validated (puts : List (String × String)) : Prop where
  /-- The members are those fields of the draft that are set, each under a key of its own. -/
  members : ((membersOf puts).map (·.1)).Nodup ∧
    ∀ name v, Json.lookup name (membersOf puts) = some v ↔
      ∃ text, v = .string text ∧ (name, text) ∈ (ofPuts puts).members
  /-- The record is accepted iff the draft is complete. -/
  accepted : (∃ m, Message.ofJson (.object (membersOf puts)) = .ok m) ↔
    (ofPuts puts).isComplete = true
  /-- The draft has the very message that the record is read as. -/
  same : ∀ m, Message.ofJson (.object (membersOf puts)) = .ok m ↔ (ofPuts puts).message? = some m
  /-- If it is incomplete, it has none. -/
  dropped : (ofPuts puts).isComplete = false → (ofPuts puts).message? = none
  /-- The texts of a complete draft are never refused: they are accepted as its message. -/
  checked : (ofPuts puts).checked? = (ofPuts puts).message?.map .ok
  /-- The draft is complete iff the last id and the last default text are there and not empty. -/
  complete : (ofPuts puts).isComplete = true ↔ ∃ id text, lastText? "id" puts = some id ∧ id ≠ "" ∧
    lastText? "defaultMessage" puts = some text ∧ text ≠ ""
  /-- The message has the last texts. A description that was never put is missing, and one that was
  last put empty is empty. -/
  texts : ∀ m, (ofPuts puts).message? = some m → lastText? "id" puts = some m.id ∧
    lastText? "defaultMessage" puts = some m.defaultMessage ∧
    lastText? "description" puts = m.description

/-- Every draft is validated. -/
theorem Draft.validated (puts : List (String × String)) : Draft.Validated puts where
  members := ⟨nodup_keys_membersOf puts, fun _ _ => lookup_membersOf_eq_some_iff⟩
  accepted := isOk_ofJson_membersOf_iff
  same _ := ofJson_membersOf_eq_ok_iff
  dropped h := message?_eq_none_iff.mpr h
  checked := checked?_eq _
  complete := by
    rw [isComplete_iff, get?_ofPuts, get?_ofPuts]
    rfl
  texts m h := by
    have hfields := message?_eq_some_iff.mp h
    rwa [get?_ofPuts, get?_ofPuts, get?_ofPuts] at hfields

/-- **Drafts and records agree**: after any row of puts, under any names, the record of the members
is accepted iff the draft is complete, and then as the message of the draft. Every message of an
extraction is that of such a draft; its required texts are not empty, and as a value it is accepted
again as what it is. -/
theorem Draft.message?_validated :
    (∀ puts, Draft.Validated puts) ∧
      ∀ (d : Document) (o : Options) (messages : List Message), d.extract o = .ok messages →
        ∀ m ∈ messages, (∃ puts, (Draft.ofPuts puts).message? = some m) ∧ m.id ≠ "" ∧
          m.defaultMessage ≠ "" ∧ Message.ofJson m.toJson = .ok m := by
  refine ⟨Draft.validated, ?_⟩
  intro d o messages h m hm
  refine ⟨?_, m.id_ne, m.defaultMessage_ne, m.ofJson_toJson⟩
  unfold Document.extract at h
  split at h
  · cases h
    cases hm
  · exact Node.exists_puts_of_extract h hm

end MessageHarvest
