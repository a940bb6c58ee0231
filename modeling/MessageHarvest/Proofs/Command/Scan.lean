import MessageHarvest.Command.Scan
import Mathlib.Data.List.Forall2

/-!
# What a scan reads

The three parts of a scan, one after the other, said by what they read: the file with the settings,
the walks from the paths, and the files that the walks have found.

* `InForce fs config s`: the settings `s` are those of a scan with this option.
* `settings_eq_ok_iff`, `filesBelow_eq_ok_iff`, `reportsOf_eq_ok_iff`: when a part has a result, and
  which one.
* `extractFile_of_read`, `extractFile_of_read_error`: what is found in a single file.
-/

namespace MessageHarvest

/-- The path leads to a file whose bytes are a text. -/
def FileSystem.HoldsText (fs : FileSystem) (path text : String) : Prop :=
  ∃ content, fs.read path = .ok content ∧ String.fromUTF8? content = some text

namespace Command

/-! ## Results -/

section Results

variable {α β ε ε' : Type}

/-- Two steps have a result iff the first has one, with which the second has that result. -/
theorem bind_eq_ok_iff {x : Except ε α} {g : α → Except ε β} {b : β} :
    x >>= g = .ok b ↔ ∃ a, x = .ok a ∧ g a = .ok b := by
  cases x with
  | error e =>
    constructor
    · intro h
      cases h
    · rintro ⟨a, h, -⟩
      cases h
  | ok a =>
    constructor
    · intro h
      exact ⟨a, rfl, h⟩
    · rintro ⟨a, h, hg⟩
      cases h
      exact hg

/-- A result does not depend on how errors are named. -/
theorem mapError_eq_ok_iff {x : Except ε α} {f : ε → ε'} {a : α} :
    x.mapError f = .ok a ↔ x = .ok a := by
  cases x with
  | error e => simp [Except.mapError]
  | ok a => simp [Except.mapError]

end Results

variable {fs : FileSystem}

/-! ## Settings -/

/-- The text at the path describes the settings. -/
def Describes (fs : FileSystem) (path : String) (s : Settings) : Prop :=
  ∃ text, fs.HoldsText path text ∧ Record.read Settings.ofJson text = .ok s

/-- The settings that a scan has: those in the file that is named, if the name is not empty; else
those in the standard file, if it is there; else the standard ones. -/
inductive InForce (fs : FileSystem) : Option String → Settings → Prop
  | named {path : String} {s : Settings} (hpath : path ≠ "")
      (h : Describes fs (Path.normal path) s) : InForce fs (some path) s
  | standardFile {config : Option String} {s : Settings} (hconfig : config.getD "" = "")
      (h : Describes fs standardSettings s) : InForce fs config s
  | standard {config : Option String} (hconfig : config.getD "" = "")
      (habsent : fs.hasEntry standardSettings = false)
      (hlookup : fs.resolve standardSettings ≠ .error .nameTooLong) : InForce fs config .standard

/-- The settings that are read are those that the text at the path describes. -/
theorem readSettings_eq_ok_iff {path : String} {s : Settings} :
    readSettings fs path = .ok s ↔ Describes fs path s := by
  unfold readSettings Describes FileSystem.HoldsText
  rw [bind_eq_ok_iff]
  constructor
  · rintro ⟨content, hread, h⟩
    rw [mapError_eq_ok_iff] at hread
    cases htext : String.fromUTF8? content with
    | none =>
      rw [htext] at h
      cases h
    | some text =>
      rw [htext] at h
      exact ⟨text, ⟨content, hread, htext⟩, mapError_eq_ok_iff.mp h⟩
  · rintro ⟨text, ⟨content, hread, htext⟩, hs⟩
    refine ⟨content, mapError_eq_ok_iff.mpr hread, ?_⟩
    rw [htext]
    exact mapError_eq_ok_iff.mpr hs

/-- What describes settings is there. -/
theorem Describes.hasSettings {path : String} {s : Settings} (h : Describes fs path s) :
    hasSettings fs path = .ok true := by
  obtain ⟨text, ⟨content, hread, -⟩, -⟩ := h
  obtain ⟨e, he, -⟩ := bind_eq_ok_iff.mp hread
  rw [Command.hasSettings, he]

/-- Settings are not there if nothing is at their path, unless its name is too long to tell. -/
theorem hasSettings_eq_false_iff {path : String} :
    hasSettings fs path = .ok false ↔
      fs.hasEntry path = false ∧ fs.resolve path ≠ .error .nameTooLong := by
  rw [hasSettings, FileSystem.hasEntry]
  cases fs.resolve path with
  | ok e => simp
  | error err => cases err <;> simp

/-- An empty name is none. -/
theorem filter_eq_none_iff {config : Option String} :
    config.filter (· ≠ "") = none ↔ config.getD "" = "" := by
  cases config <;> simp [Option.filter]

/-- **The settings** of a scan are those in force, if there are any. -/
theorem settings_eq_ok_iff {config : Option String} {s : Settings} :
    settings fs config = .ok s ↔ InForce fs config s := by
  unfold settings
  cases hconfig : config.filter (· ≠ "") with
  | some path =>
    obtain ⟨rfl, hpath⟩ := Option.filter_eq_some_iff.mp hconfig
    have hpath : path ≠ "" := of_decide_eq_true hpath
    dsimp only
    rw [bind_eq_ok_iff]
    constructor
    · rintro ⟨there, -, h⟩
      cases there with
      | false => cases h
      | true => exact .named hpath (readSettings_eq_ok_iff.mp h)
    · intro h
      cases h with
      | named _ h => exact ⟨true, h.hasSettings, readSettings_eq_ok_iff.mpr h⟩
      | standardFile hempty => exact absurd hempty hpath
      | standard hempty => exact absurd hempty hpath
  | none =>
    have hempty := filter_eq_none_iff.mp hconfig
    dsimp only
    rw [bind_eq_ok_iff]
    constructor
    · rintro ⟨there, hthere, h⟩
      cases there with
      | false =>
        cases h
        obtain ⟨habsent, hlookup⟩ := hasSettings_eq_false_iff.mp hthere
        exact .standard hempty habsent hlookup
      | true => exact .standardFile hempty (readSettings_eq_ok_iff.mp h)
    · intro h
      cases h with
      | named hpath => exact absurd hempty hpath
      | standardFile _ h => exact ⟨true, h.hasSettings, readSettings_eq_ok_iff.mpr h⟩
      | standard _ habsent hlookup =>
        exact ⟨false, hasSettings_eq_false_iff.mpr ⟨habsent, hlookup⟩, rfl⟩

/-- A standard file that cannot even be looked for ends the scan. -/
theorem settings_eq_error (h : fs.resolve standardSettings = .error .nameTooLong)
    {config : Option String} (hconfig : config.getD "" = "") :
    settings fs config = .error (.unreadableSettings .nameTooLong) := by
  have hlookup : hasSettings fs standardSettings = .error (.unreadableSettings .nameTooLong) := by
    rw [hasSettings, h]
  rw [settings, filter_eq_none_iff.mpr hconfig]
  dsimp only
  rw [hlookup]
  rfl

/-! ## Paths -/

/-- From where something is, there is a walk. -/
theorem exists_walk {path : String} (h : fs.hasEntry path = true) (s : Selection) :
    ∃ found, fs.walk s path = .ok found := by
  unfold FileSystem.hasEntry at h
  rw [FileSystem.walk]
  cases hresolve : fs.resolve path with
  | error err =>
    rw [hresolve] at h
    cases h
  | ok e => cases e <;> exact ⟨_, rfl⟩

/-- **The files below paths** are those of their walks, one after the other; each path has to lead
to something. -/
theorem filesBelow_eq_ok_iff {s : Selection} {paths files : List String} :
    filesBelow fs s paths = .ok files ↔
      (∀ p ∈ paths, fs.hasEntry p = true) ∧
        ∃ walks, List.Forall₂ (fun p found => fs.walk s p = .ok found) paths walks ∧
          files = walks.flatten := by
  induction paths generalizing files with
  | nil =>
    rw [filesBelow]
    constructor
    · intro h
      cases h
      exact ⟨fun p hp => absurd hp List.not_mem_nil, [], .nil, rfl⟩
    · rintro ⟨-, walks, hwalks, rfl⟩
      cases hwalks
      rfl
  | cons path rest ih =>
    rw [filesBelow, List.forall_mem_cons]
    by_cases hpath : fs.hasEntry path = true
    · rw [if_pos hpath, bind_eq_ok_iff]
      constructor
      · rintro ⟨found, hfound, h⟩
        obtain ⟨files, hfiles, h⟩ := bind_eq_ok_iff.mp h
        cases h
        obtain ⟨hrest, walks, hwalks, rfl⟩ := ih.mp hfiles
        exact ⟨⟨hpath, hrest⟩, found :: walks, .cons (mapError_eq_ok_iff.mp hfound) hwalks, rfl⟩
      · rintro ⟨⟨-, hrest⟩, walks, hwalks, rfl⟩
        cases hwalks with
        | cons hfound hwalks =>
          exact ⟨_, mapError_eq_ok_iff.mpr hfound, bind_eq_ok_iff.mpr
            ⟨_, ih.mpr ⟨hrest, _, hwalks, rfl⟩, rfl⟩⟩
    · rw [if_neg hpath]
      constructor
      · intro h
        cases h
      · rintro ⟨⟨h, -⟩, -⟩
        exact absurd h hpath

/-- There are files below paths, or none, iff each path leads to something. -/
theorem exists_filesBelow_iff {s : Selection} {paths : List String} :
    (∃ files, filesBelow fs s paths = .ok files) ↔ ∀ p ∈ paths, fs.hasEntry p = true := by
  constructor
  · rintro ⟨files, hfiles⟩
    exact (filesBelow_eq_ok_iff.mp hfiles).1
  · intro h
    obtain ⟨walks, hwalks⟩ : ∃ walks,
        List.Forall₂ (fun p found => fs.walk s p = .ok found) paths walks := by
      induction paths with
      | nil => exact ⟨[], .nil⟩
      | cons path rest ih =>
        obtain ⟨hpath, hrest⟩ := List.forall_mem_cons.mp h
        obtain ⟨found, hfound⟩ := exists_walk hpath s
        obtain ⟨walks, hwalks⟩ := ih hrest
        exact ⟨found :: walks, .cons hfound hwalks⟩
    exact ⟨walks.flatten, filesBelow_eq_ok_iff.mpr ⟨h, walks, hwalks, rfl⟩⟩

/-- A file that was listed was found on the walk from one of the paths. -/
theorem mem_flatten_walks_iff {s : Selection} {paths : List String} {walks : List (List String)}
    (h : List.Forall₂ (fun p found => fs.walk s p = .ok found) paths walks) {file : String} :
    file ∈ walks.flatten ↔ ∃ p ∈ paths, ∃ found, fs.walk s p = .ok found ∧ file ∈ found := by
  induction h with
  | nil => simp
  | cons hfound _ ih =>
    rw [List.flatten_cons, List.mem_append, ih, List.exists_mem_cons_iff, hfound]
    simp

/-! ## Files -/

variable {x : Extractor}

/-- What is found in a file that can be read is what is found in its bytes. -/
theorem extractFile_of_read {path : String} {source : Source} (h : fs.read path = .ok source) :
    extractFile x fs path =
      ((x.extractSource source).mapError .undecodable).map fun messages =>
        some ⟨path, messages⟩ := by
  rw [extractFile, FileSystem.readSource?, h]
  dsimp only [Except.mapError, bind, Except.bind]
  cases x.extractSource source <;> rfl

/-- A file that cannot be read is passed. -/
theorem extractFile_of_read_error {path : String} {err : FileSystem.Error}
    (h : fs.read path = .error err) (herr : err ≠ .zeroCharacter) :
    extractFile x fs path = .ok none := by
  rw [extractFile, FileSystem.readSource?, h]
  cases err with
  | zeroCharacter => exact absurd rfl herr
  | _ => rfl

/-- **The reports on files** are those on each of them that can be read and has messages. -/
theorem reportsOf_eq_ok_iff {files : List String} {reports : List FileReport} :
    reportsOf x fs files = .ok reports ↔
      ∃ found, List.Forall₂ (fun file r? => extractFile x fs file = .ok r?) files found ∧
        reports = found.filterMap (Option.filter FileReport.hasMessages) := by
  have hcons : ∀ (r? : Option FileReport) (found : List (Option FileReport)),
      (r? :: found).filterMap (Option.filter FileReport.hasMessages) =
        (r?.filter FileReport.hasMessages).toList ++
          found.filterMap (Option.filter FileReport.hasMessages) := by
    intro r? found
    rw [List.filterMap_cons]
    cases r?.filter FileReport.hasMessages <;> rfl
  induction files generalizing reports with
  | nil =>
    rw [reportsOf]
    constructor
    · intro h
      cases h
      exact ⟨[], .nil, rfl⟩
    · rintro ⟨found, hfound, rfl⟩
      cases hfound
      rfl
  | cons file rest ih =>
    rw [reportsOf, bind_eq_ok_iff]
    constructor
    · rintro ⟨r?, hr, h⟩
      obtain ⟨reports, hreports, h⟩ := bind_eq_ok_iff.mp h
      cases h
      obtain ⟨found, hfound, rfl⟩ := ih.mp hreports
      exact ⟨r? :: found, .cons hr hfound, (hcons r? found).symm⟩
    · rintro ⟨found, hfound, rfl⟩
      cases hfound with
      | cons hr hfound =>
        refine ⟨_, hr, bind_eq_ok_iff.mpr ⟨_, ih.mpr ⟨_, hfound, rfl⟩, ?_⟩⟩
        rw [hcons]
        rfl

end Command

end MessageHarvest
