import MessageHarvest.Proofs.Record.Verdict
import MessageHarvest.Record.Message
import MessageHarvest.Record.Settings
import Mathlib.Data.List.Forall2

/-!
# Records are accepted exactly as they are declared

Each of the four records has a shape, and an accepted value tells what it is read as.

* `Message.shape`, `FileReport.shape`, `Options.shape`, `Settings.shape`: the declared shapes.
* `FieldIs`: what is read of a field, the value under one of its names or the default.
* `TellsMessage`, `TellsFileReport`, `TellsOptions`, `TellsSettings`: what an accepted value says.
* `Message.verdict_ofJson` and its like: the checks of the records follow their shapes.
* `Message.ofJson_eq_ok_iff` and its like: what they accept is read as what it says.
* **Records are accepted as declared** (`Record.ofJson_declared`): both, for all four records.
-/

namespace MessageHarvest

open Record

/-! ## The declared shapes -/

/-- A message has an id and a default text, both not empty, and perhaps a description. -/
def Message.shape : Shape :=
  .record .message [⟨.only "id", true, .filledText⟩,
    ⟨⟨"defaultMessage", some "default_message"⟩, true, .filledText⟩,
    ⟨.only "description", false, .textOrNull⟩]

/-- The messages of a file come with its path. -/
def FileReport.shape : Shape :=
  .record .fileReport [⟨.only "file_path", true, .text⟩,
    ⟨.only "messages", false, .list Message.shape⟩]

/-- The options are the names of more tags. -/
def Options.shape : Shape :=
  .record .options [⟨⟨"additionalTagNames", some "additional_tag_names"⟩, false, .list .text⟩]

/-- The settings are the options and what says in which files to look. -/
def Settings.shape : Shape :=
  .record .settings [⟨.only "extractor", false, Options.shape⟩,
    ⟨.only "extensions", false, .list .text⟩, ⟨.only "exclude_patterns", false, .list .text⟩]

namespace Record

/-- A required field is missing if it is absent. -/
theorem judged_required {α : Type} {n : FieldName} {shape : Shape} {check : Json → Checked α}
    (h : ∀ v, Verdict shape v (check v)) (members : List (String × Json)) :
    FieldsJudged [⟨n, true, shape⟩] members (required n check members) :=
  judged_field h (fun _ => rfl) (fun hno => by cases hno) members

/-- Any other field has its default then. -/
theorem judged_optional {α : Type} {n : FieldName} {shape : Shape} {check : Json → Checked α}
    (h : ∀ v, Verdict shape v (check v)) (default : α) (members : List (String × Json)) :
    FieldsJudged [⟨n, false, shape⟩] members (optional n default check members) :=
  judged_field h (fun hno => by cases hno) (fun _ => ⟨default, rfl⟩) members

end Record

/-- The check of messages says what the shape of a message asks for. -/
theorem Message.verdict_ofJson (v : Json) : Verdict Message.shape v (Message.ofJson v) := by
  apply verdict_record
  intro members
  have hid := judged_required (n := .only "id") verdict_filledText members
  have hdefault := judged_required (n := ⟨"defaultMessage", some "default_message"⟩)
    verdict_filledText members
  have hdescription := judged_optional (n := .only "description") verdict_textOrNull none members
  apply Judged.map
  apply hid.cons (hdefault.cons hdescription ?_)
  · decide
  · decide

/-- So does that of the messages of a file. -/
theorem FileReport.verdict_ofJson (v : Json) :
    Verdict FileReport.shape v (FileReport.ofJson v) := by
  apply verdict_record
  intro members
  have hpath := judged_required (n := .only "file_path") verdict_text members
  have hmessages := judged_optional (n := .only "messages") (verdict_list Message.verdict_ofJson) []
    members
  apply Judged.map
  apply hpath.cons hmessages
  decide

/-- So does that of options. -/
theorem Options.verdict_ofJson (v : Json) : Verdict Options.shape v (Options.ofJson v) := by
  apply verdict_record
  intro members
  apply Judged.map
  exact judged_optional (verdict_list verdict_text) [] members

/-- So does that of settings. -/
theorem Settings.verdict_ofJson (v : Json) : Verdict Settings.shape v (Settings.ofJson v) := by
  apply verdict_record
  intro members
  have hoptions := judged_optional (n := .only "extractor") Options.verdict_ofJson .standard members
  have hextensions := judged_optional (n := .only "extensions") (verdict_list verdict_text)
    Selection.standardExtensions members
  have hexcluded := judged_optional (n := .only "exclude_patterns") (verdict_list verdict_text)
    Selection.standardExcluded members
  apply Judged.map
  apply hoptions.cons (hextensions.cons hexcluded ?_)
  · decide
  · decide

/-! ## What an accepted value says -/

namespace Record

variable {α : Type}

/-- What is read of a field: by `R` from its value, or else the default if it is absent. -/
inductive FieldIs (n : FieldName) (default : Option α) (R : Json → α → Prop)
    (members : List (String × Json)) (a : α) : Prop
  | present {name : String} {v : Json} (stands : n.Stands members name v) (h : R v a)
  | absent (absent : n.Absent members) (h : default = some a)

/-- The value is the text. -/
def TellsText (v : Json) (s : String) : Prop := v = .string s

/-- The value is the text, or null if there is none. -/
def TellsTextOrNull (v : Json) (s? : Option String) : Prop := v = s?.elim .null .string

/-- The value is a list, and its items are read one by one. -/
def TellsList (R : Json → α → Prop) (v : Json) (as : List α) : Prop :=
  ∃ vs, v = .array vs ∧ List.Forall₂ R vs as

end Record

/-- The value is an object that says what the message is. -/
def TellsMessage (v : Json) (m : Message) : Prop :=
  ∃ members, v = .object members ∧ FieldIs (.only "id") none TellsText members m.id ∧
    FieldIs ⟨"defaultMessage", some "default_message"⟩ none TellsText members m.defaultMessage ∧
    FieldIs (.only "description") (some none) TellsTextOrNull members m.description

/-- The value is an object that says what was found in the file. -/
def TellsFileReport (v : Json) (r : FileReport) : Prop :=
  ∃ members, v = .object members ∧ FieldIs (.only "file_path") none TellsText members r.path ∧
    FieldIs (.only "messages") (some []) (TellsList TellsMessage) members r.messages

/-- The value is an object that says what the options are. -/
def TellsOptions (v : Json) (o : Options) : Prop :=
  ∃ members, v = .object members ∧
    FieldIs ⟨"additionalTagNames", some "additional_tag_names"⟩ (some []) (TellsList TellsText)
      members o.additionalTags

/-- The value is an object that says what the settings are. -/
def TellsSettings (v : Json) (s : Settings) : Prop :=
  ∃ members, v = .object members ∧
    FieldIs (.only "extractor") (some .standard) TellsOptions members s.options ∧
    FieldIs (.only "extensions") (some Selection.standardExtensions) (TellsList TellsText) members
      s.selection.extensions ∧
    FieldIs (.only "exclude_patterns") (some Selection.standardExcluded) (TellsList TellsText)
      members s.selection.excluded

namespace Record

variable {β : Type}

/-- An image was accepted iff it is that of something accepted. -/
theorem map_eq_ok_iff {c : Checked α} {g : α → β} {b : β} :
    (c.map g : Checked β) = .ok b ↔ ∃ a, c = .ok a ∧ g a = b := by
  cases c <;> simp [Except.map]

/-- What is accepted does not depend on where it stands. -/
theorem under_eq_ok_iff {step : Step} {c : Checked α} {a : α} :
    Checked.under step c = .ok a ↔ c = .ok a := by
  cases c <;> simp [Checked.under]

/-- A text is read off the values that tell one. -/
theorem text_eq_ok_iff {v : Json} {s : String} : text v = .ok s ↔ TellsText v s := by
  unfold text TellsText
  split
  · simp
  · rename_i hno
    constructor
    · nofun
    · intro h
      exact absurd h (hno s)

/-- A filled text is read off the values that tell one that is not empty. -/
theorem filledText_eq_ok_iff {v : Json} {s : { s : String // s ≠ "" }} :
    filledText v = .ok s ↔ TellsText v s.1 := by
  obtain ⟨s, hs⟩ := s
  unfold filledText TellsText
  split
  · rename_i w
    by_cases hw : w = ""
    · subst hw
      simp [Checked.refuse, Ne.symm hs]
    · simp [hw]
  · rename_i hno
    constructor
    · nofun
    · intro h
      exact absurd h (hno s)

/-- A text or nothing is read off the values that tell either. -/
theorem textOrNull_eq_ok_iff {v : Json} {s? : Option String} :
    textOrNull v = .ok s? ↔ TellsTextOrNull v s? := by
  unfold textOrNull TellsTextOrNull
  split
  · cases s? <;> simp
  · cases s? <;> simp
  · rename_i hnull hno
    constructor
    · nofun
    · intro h
      cases s? with
      | none => exact absurd h hnull
      | some s => exact absurd h (hno s)

section

variable {check : Json → Checked α} {R : Json → α → Prop}

/-- Items are read one by one. -/
theorem items_eq_ok_iff (h : ∀ {v a}, check v = .ok a ↔ R v a) {i : Nat} {vs : List Json}
    {as : List α} : items check i vs = .ok as ↔ List.Forall₂ R vs as := by
  induction vs generalizing i as with
  | nil =>
    rw [items, List.forall₂_nil_left_iff]
    simp [eq_comm]
  | cons v vs ih =>
    rw [items, map_eq_ok_iff]
    simp only [Checked.both_eq_ok_iff, under_eq_ok_iff, h, ih, Prod.exists]
    constructor
    · rintro ⟨a, as, ⟨hv, hvs⟩, rfl⟩
      exact .cons hv hvs
    · rintro (_ | ⟨hv, hvs⟩)
      exact ⟨_, _, ⟨hv, hvs⟩, rfl⟩

/-- A list is read off the arrays whose members tell its items. -/
theorem list_eq_ok_iff (h : ∀ {v a}, check v = .ok a ↔ R v a) {v : Json} {as : List α} :
    list check v = .ok as ↔ TellsList R v as := by
  unfold list TellsList
  split
  · simp [items_eq_ok_iff h]
  · rename_i hno
    constructor
    · nofun
    · rintro ⟨vs, rfl, -⟩
      exact absurd rfl (hno vs)

/-- A field that is there is read from its value. -/
theorem fieldIs_iff_of_stands {n : FieldName} {default : Option α} {members : List (String × Json)}
    {a : α} {name : String} {v : Json} (h : n.Stands members name v) :
    FieldIs n default R members a ↔ R v a := by
  constructor
  · rintro (⟨hstands, hv⟩ | ⟨habsent, -⟩)
    · obtain ⟨rfl, rfl⟩ := h.unique hstands
      exact hv
    · exact absurd habsent h.not_absent
  · intro hv
    exact .present h hv

/-- A field that is absent has its default. -/
theorem fieldIs_iff_of_absent {n : FieldName} {default : Option α} {members : List (String × Json)}
    {a : α} (h : n.Absent members) : FieldIs n default R members a ↔ default = some a := by
  constructor
  · rintro (⟨hstands, -⟩ | ⟨-, ha⟩)
    · exact absurd h hstands.not_absent
    · exact ha
  · intro ha
    exact .absent h ha

/-- A field is read off the member that stands for it, or has its default. -/
theorem field_eq_ok_iff (h : ∀ {v a}, check v = .ok a ↔ R v a) {n : FieldName}
    {absent : Checked α} {default : Option α} (habsent : ∀ a, absent = .ok a ↔ default = some a)
    {members : List (String × Json)} {a : α} :
    field n absent check members = .ok a ↔ FieldIs n default R members a := by
  unfold field
  cases hfind : n.find? members with
  | some found =>
    rw [fieldIs_iff_of_stands (FieldName.find?_eq_some_iff.mp hfind)]
    simp only [under_eq_ok_iff, h]
  | none =>
    rw [fieldIs_iff_of_absent (FieldName.find?_eq_none_iff.mp hfind)]
    exact habsent a

/-- A required field has no default. -/
theorem required_eq_ok_iff (h : ∀ {v a}, check v = .ok a ↔ R v a) {n : FieldName}
    {members : List (String × Json)} {a : α} :
    required n check members = .ok a ↔ FieldIs n none R members a :=
  field_eq_ok_iff h (by simp)

/-- An optional field has one. -/
theorem optional_eq_ok_iff (h : ∀ {v a}, check v = .ok a ↔ R v a) {n : FieldName} {default : α}
    {members : List (String × Json)} {a : α} :
    optional n default check members = .ok a ↔ FieldIs n (some default) R members a :=
  field_eq_ok_iff h (by simp)

/-- A record is read off the members of an object. -/
theorem record_eq_ok_iff {kind : Kind} {check : List (String × Json) → Checked α} {v : Json}
    {a : α} :
    record kind check v = .ok a ↔ ∃ members, v = .object members ∧ check members = .ok a := by
  unfold record
  split
  · simp
  · rename_i hno
    constructor
    · nofun
    · rintro ⟨members, rfl, -⟩
      exact absurd rfl (hno members)

/-- What is read of a required field may be read with a proof. -/
theorem fieldIs_subtype_iff {n : FieldName} {p : α → Prop} {members : List (String × Json)}
    {a : { a : α // p a }} :
    FieldIs n none (fun v (a : { a : α // p a }) => R v a.1) members a ↔
      FieldIs n none R members a.1 := by
  constructor
  · rintro (⟨hstands, h⟩ | ⟨-, h⟩)
    · exact .present hstands h
    · cases h
  · rintro (⟨hstands, h⟩ | ⟨-, h⟩)
    · exact .present hstands h
    · cases h

end

end Record

/-- Which values tell which message. -/
theorem Message.ofJson_eq_ok_iff {v : Json} {m : Message} :
    Message.ofJson v = .ok m ↔ TellsMessage v m := by
  unfold Message.ofJson TellsMessage
  simp only [record_eq_ok_iff, map_eq_ok_iff, Checked.both_eq_ok_iff,
    required_eq_ok_iff filledText_eq_ok_iff, fieldIs_subtype_iff,
    optional_eq_ok_iff textOrNull_eq_ok_iff]
  apply exists_congr
  intro members
  apply and_congr_right
  intro _
  constructor
  · rintro ⟨a, h, rfl⟩
    exact h
  · intro h
    exact ⟨⟨⟨m.id, m.id_ne⟩, ⟨m.defaultMessage, m.defaultMessage_ne⟩, m.description⟩, h, rfl⟩

/-- Which values tell of which messages of a file. -/
theorem FileReport.ofJson_eq_ok_iff {v : Json} {r : FileReport} :
    FileReport.ofJson v = .ok r ↔ TellsFileReport v r := by
  unfold FileReport.ofJson TellsFileReport
  simp only [record_eq_ok_iff, map_eq_ok_iff, Checked.both_eq_ok_iff,
    required_eq_ok_iff text_eq_ok_iff,
    optional_eq_ok_iff (list_eq_ok_iff Message.ofJson_eq_ok_iff)]
  apply exists_congr
  intro members
  apply and_congr_right
  intro _
  constructor
  · rintro ⟨a, h, rfl⟩
    exact h
  · intro h
    exact ⟨⟨r.path, r.messages⟩, h, rfl⟩

/-- Which values tell which options. -/
theorem Options.ofJson_eq_ok_iff {v : Json} {o : Options} :
    Options.ofJson v = .ok o ↔ TellsOptions v o := by
  unfold Options.ofJson TellsOptions
  simp only [record_eq_ok_iff, map_eq_ok_iff, optional_eq_ok_iff (list_eq_ok_iff text_eq_ok_iff)]
  apply exists_congr
  intro members
  apply and_congr_right
  intro _
  constructor
  · rintro ⟨tags, h, rfl⟩
    exact h
  · intro h
    exact ⟨o.additionalTags, h, rfl⟩

/-- Which values tell which settings. -/
theorem Settings.ofJson_eq_ok_iff {v : Json} {s : Settings} :
    Settings.ofJson v = .ok s ↔ TellsSettings v s := by
  unfold Settings.ofJson TellsSettings
  simp only [record_eq_ok_iff, map_eq_ok_iff, Checked.both_eq_ok_iff,
    optional_eq_ok_iff Options.ofJson_eq_ok_iff,
    optional_eq_ok_iff (list_eq_ok_iff text_eq_ok_iff)]
  apply exists_congr
  intro members
  apply and_congr_right
  intro _
  constructor
  · rintro ⟨a, h, rfl⟩
    exact h
  · intro h
    exact ⟨⟨s.options, s.selection.extensions, s.selection.excluded⟩, h, rfl⟩

/-- **Records are accepted exactly as they are declared**: whatever the value is, the check of each
record accepts it iff it has the declared shape, and else reports each offending place once, in
order and with the way to it; and what is accepted is read as what the value says, with the defaults
for what it leaves out. -/
theorem Record.ofJson_declared (v : Json) :
    (Verdict Message.shape v (Message.ofJson v) ∧
      ∀ m, Message.ofJson v = .ok m ↔ TellsMessage v m) ∧
    (Verdict FileReport.shape v (FileReport.ofJson v) ∧
      ∀ r, FileReport.ofJson v = .ok r ↔ TellsFileReport v r) ∧
    (Verdict Options.shape v (Options.ofJson v) ∧
      ∀ o, Options.ofJson v = .ok o ↔ TellsOptions v o) ∧
    (Verdict Settings.shape v (Settings.ofJson v) ∧
      ∀ s, Settings.ofJson v = .ok s ↔ TellsSettings v s) := by
  refine ⟨⟨Message.verdict_ofJson v, ?_⟩, ⟨FileReport.verdict_ofJson v, ?_⟩,
    ⟨Options.verdict_ofJson v, ?_⟩, ⟨Settings.verdict_ofJson v, ?_⟩⟩
  · intro m
    exact Message.ofJson_eq_ok_iff
  · intro r
    exact FileReport.ofJson_eq_ok_iff
  · intro o
    exact Options.ofJson_eq_ok_iff
  · intro s
    exact Settings.ofJson_eq_ok_iff

/-- Two messages with faults of several sorts. -/
example : (FileReport.ofJson (.object [("messages", .array [.object [("id", .string "")],
      .object [("id", .string "a"), ("default_message", .string "b")],
      .object [("defaultMessage", .null), ("default_message", .string "b"),
        ("id", .string "c")]])])).faults =
    [⟨.missing, [.key "file_path"]⟩, ⟨.emptyText, [.key "messages", .index 0, .key "id"]⟩,
      ⟨.missing, [.key "messages", .index 0, .key "defaultMessage"]⟩,
      ⟨.notText, [.key "messages", .index 2, .key "defaultMessage"]⟩] := by
  decide

end MessageHarvest
