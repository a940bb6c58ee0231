import MessageHarvest.Command.Run
import MessageHarvest.Proofs.Command.Scan
import MessageHarvest.Proofs.Files.Walk
import MessageHarvest.Proofs.Message.Failure
import MessageHarvest.Proofs.Report.Display

/-!
# When a command succeeds

A command prints its whole result or nothing.

* `Decodes x source`: no literal that an extractor decodes has an escape above U+10FFFF.
* `Request.Feasible`: what a request needs: settings that are in force, paths that lead to something
  and, for the messages, files that can be decoded if they can be read at all.
* **When a command succeeds** (`run_exitCode_eq_zero_iff`): iff its request is feasible. Else
  nothing is printed. That the result is to be shown for the eye makes no difference.

All of this holds for any parser of the files.
-/

namespace MessageHarvest.Command

open Escape

variable {parse : Source → Node} {x : Extractor} {fs : FileSystem} {width : Nat}

/-! ## Files that can be decoded -/

/-- No literal that an extractor decodes has an escape that names a number above U+10FFFF. -/
def Decodes (x : Extractor) (source : Source) : Prop :=
  ∀ literal ∈ (x.parse source).decodedLiterals source x.options,
    ¬ HasOverlarge (literal.body source)

/-- There are messages to return, or none, iff the bytes can be decoded. -/
theorem exists_extractSource_iff {source : Source} :
    (∃ messages, x.extractSource source = .ok messages) ↔ Decodes x source := by
  change (∃ messages, (x.parse source).extract source x.options = .ok messages) ↔ _
  rw [← fault?_eq_none_iff, Node.fault?_extract, List.findSome?_eq_none_iff]
  exact forall₂_congr fun literal _ => Node.failure?_eq_none_iff

/-- What is found in a file that can be read is a result iff the file can be decoded; one that
cannot be read is passed. -/
theorem exists_extractFile_iff {path : String} (h : '\x00' ∉ path.toList) :
    (∃ r?, extractFile x fs path = .ok r?) ↔
      ∀ source, fs.read path = .ok source → Decodes x source := by
  rw [← FileSystem.read_eq_zeroCharacter_iff fs] at h
  cases hread : fs.read path with
  | error err =>
    have herr : err ≠ .zeroCharacter := by
      rintro rfl
      exact h hread
    refine ⟨fun _ source hsource => ?_, fun _ => ⟨none, extractFile_of_read_error hread herr⟩⟩
    cases hsource
  | ok source =>
    simp only [Except.ok.injEq, forall_eq', ← exists_extractSource_iff]
    rw [extractFile_of_read hread]
    cases x.extractSource source <;> simp [Except.mapError, Except.map]

/-- There are reports on files iff there is a result for each of them. -/
theorem exists_reportsOf_iff {files : List String} :
    (∃ reports, reportsOf x fs files = .ok reports) ↔
      ∀ file ∈ files, ∃ r?, extractFile x fs file = .ok r? := by
  induction files with
  | nil => exact ⟨fun _ file hfile => absurd hfile List.not_mem_nil, fun _ => ⟨[], rfl⟩⟩
  | cons file rest ih =>
    rw [List.forall_mem_cons, ← ih, reportsOf]
    constructor
    · rintro ⟨reports, h⟩
      obtain ⟨r?, hr, h⟩ := bind_eq_ok_iff.mp h
      obtain ⟨reports, hreports, -⟩ := bind_eq_ok_iff.mp h
      exact ⟨⟨r?, hr⟩, reports, hreports⟩
    · rintro ⟨⟨r?, hr⟩, reports, hreports⟩
      exact ⟨_, bind_eq_ok_iff.mpr ⟨r?, hr, bind_eq_ok_iff.mpr ⟨reports, hreports, rfl⟩⟩⟩

/-! ## Feasible requests -/

/-- What a request needs. The files that matter are those that the walks from the paths list. -/
def Request.Feasible (parse : Source → Node) (fs : FileSystem) : Request → Prop
  | .extract scan tagNames =>
    ∃ s, InForce fs scan.config s ∧ (∀ p ∈ scan.paths, fs.hasEntry p = true) ∧
      ∀ p ∈ scan.paths, ∀ found, fs.walk s.selection p = .ok found →
        ∀ file ∈ found, ∀ source, fs.read file = .ok source →
          Decodes ⟨parse, ⟨s.options.additionalTags ++ tagNames⟩⟩ source
  | .files scan => ∃ s, InForce fs scan.config s ∧ ∀ p ∈ scan.paths, fs.hasEntry p = true
  | .help => True

/-- A scan lists files, or none, iff it has settings and its paths lead to something. -/
theorem exists_files_iff {scan : Scan} :
    (∃ files, scan.files fs = .ok files) ↔
      ∃ s, InForce fs scan.config s ∧ ∀ p ∈ scan.paths, fs.hasEntry p = true := by
  constructor
  · rintro ⟨files, h⟩
    obtain ⟨s, hs, hfiles⟩ := bind_eq_ok_iff.mp h
    exact ⟨s, settings_eq_ok_iff.mp hs, exists_filesBelow_iff.mp ⟨files, hfiles⟩⟩
  · rintro ⟨s, hs, hpaths⟩
    obtain ⟨files, hfiles⟩ := exists_filesBelow_iff.mpr hpaths
    exact ⟨files, bind_eq_ok_iff.mpr ⟨s, settings_eq_ok_iff.mpr hs, hfiles⟩⟩

/-- A scan finds messages, or none, iff the files below its paths can be decoded. -/
theorem exists_reports_iff (h : fs.Proper) {scan : Scan} {tagNames : List String} :
    (∃ reports, scan.reports parse fs tagNames = .ok reports) ↔
      (Request.extract scan tagNames).Feasible parse fs := by
  constructor
  · rintro ⟨reports, hreports⟩
    obtain ⟨s, hs, hreports⟩ := bind_eq_ok_iff.mp hreports
    obtain ⟨files, hfiles, hreports⟩ := bind_eq_ok_iff.mp hreports
    obtain ⟨hpaths, walks, hwalks, rfl⟩ := filesBelow_eq_ok_iff.mp hfiles
    refine ⟨s, settings_eq_ok_iff.mp hs, hpaths, ?_⟩
    intro p hp found hfound file hfile
    have hmem : file ∈ walks.flatten :=
      (mem_flatten_walks_iff hwalks).mpr ⟨p, hp, found, hfound, hfile⟩
    have hzero := FileSystem.not_zero_mem_of_walk h hfound hfile
    exact (exists_extractFile_iff hzero).mp (exists_reportsOf_iff.mp ⟨reports, hreports⟩ file hmem)
  · rintro ⟨s, hs, hpaths, hdecodes⟩
    obtain ⟨files, hfiles⟩ := exists_filesBelow_iff.mpr hpaths
    obtain ⟨-, walks, hwalks, rfl⟩ := filesBelow_eq_ok_iff.mp hfiles
    obtain ⟨reports, hreports⟩ : ∃ reports,
        reportsOf ⟨parse, ⟨s.options.additionalTags ++ tagNames⟩⟩ fs walks.flatten =
          .ok reports := by
      rw [exists_reportsOf_iff]
      intro file hfile
      obtain ⟨p, hp, found, hfound, hfile⟩ := (mem_flatten_walks_iff hwalks).mp hfile
      have hzero := FileSystem.not_zero_mem_of_walk h hfound hfile
      exact (exists_extractFile_iff hzero).mpr (hdecodes p hp found hfound file hfile)
    exact ⟨reports, bind_eq_ok_iff.mpr ⟨s, settings_eq_ok_iff.mpr hs,
      bind_eq_ok_iff.mpr ⟨_, hfiles, hreports⟩⟩⟩

/-! ## Answers -/

/-- What was found is answered with, if it can always be shown. -/
theorem exists_answer_of_total {α : Type} (found : Except Failure α) (humanize : Bool)
    {shown : α → Except Markup.Error String} (h : ∀ a, ∃ output, shown a = .ok output)
    (written : α → String) :
    (∃ output, (do
      let a ← found
      if humanize then (shown a).mapError .markup else return written a) = .ok output) ↔
      ∃ a, found = .ok a := by
  constructor
  · rintro ⟨output, houtput⟩
    obtain ⟨a, ha, -⟩ := bind_eq_ok_iff.mp houtput
    exact ⟨a, ha⟩
  · rintro ⟨a, rfl⟩
    cases humanize with
    | false => exact ⟨written a, rfl⟩
    | true =>
      obtain ⟨output, houtput⟩ := h a
      exact ⟨output, mapError_eq_ok_iff.mpr houtput⟩

/-- **A request is answered** iff it is feasible. What was found can always be shown. -/
theorem exists_answer_iff (h : fs.Proper) (width : Nat) (request : Request) :
    (∃ output, request.answer parse fs width = .ok output) ↔ request.Feasible parse fs := by
  cases request with
  | help => exact ⟨fun _ => trivial, fun _ => ⟨usage, rfl⟩⟩
  | extract scan tagNames =>
    rw [← exists_reports_iff h]
    exact exists_answer_of_total _ scan.humanize Report.exists_messagesTable _
  | files scan =>
    have hfiles := exists_answer_of_total (scan.files fs) scan.humanize
      (Report.exists_pathsList width) Report.pathsDocument
    exact hfiles.trans exists_files_iff

/-- The scan that a request is for. -/
def Request.scan? : Request → Option Scan
  | .extract scan _ => some scan
  | .files scan => some scan
  | .help => none

/-- Without settings a request has no answer. -/
theorem answer_of_settings_error {request : Request} {scan : Scan} {f : Failure}
    (hscan : request.scan? = some scan) (h : settings fs scan.config = .error f) :
    request.answer parse fs width = .error f := by
  cases request with
  | help => cases hscan
  | extract _ tagNames =>
    cases hscan
    rw [Request.answer, Scan.reports, h]
    rfl
  | files _ =>
    cases hscan
    rw [Request.answer, Scan.files, h]
    rfl

/-! ## Outcomes -/

/-- A failure prints nothing, however it is complained about. -/
theorem ofFailure_eq (width : Nat) (f : Failure) :
    (Outcome.ofFailure width f).exitCode = 1 ∧ (Outcome.ofFailure width f).output = "" := by
  have hcomplain : ∀ markup, (Outcome.complain width markup).exitCode = 1 ∧
      (Outcome.complain width markup).output = "" := by
    intro markup
    rw [Outcome.complain]
    cases Report.showLine width markup <;> exact ⟨rfl, rfl⟩
  cases f with
  | noPath path => exact hcomplain _
  | noSettings path => exact hcomplain _
  | _ => exact ⟨rfl, rfl⟩

/-- An answer is the output of a successful run. -/
theorem run_of_answer {args : List String} {request : Request} {output : String}
    (hrequest : Request.read? args = some request)
    (h : request.answer parse fs width = .ok output) :
    runWith parse fs width args = .success output := by
  rw [runWith, hrequest]
  dsimp only
  rw [h]

/-- Where there is no answer, the run tells of the failure. -/
theorem run_of_answer_error {args : List String} {request : Request} {f : Failure}
    (hrequest : Request.read? args = some request)
    (h : request.answer parse fs width = .error f) :
    runWith parse fs width args = .ofFailure width f := by
  rw [runWith, hrequest]
  dsimp only
  rw [h]

/-- Only what has an answer succeeds, with the answer. -/
theorem exists_answer_of_exitCode {args : List String} {request : Request}
    (hrequest : Request.read? args = some request)
    (hzero : (runWith parse fs width args).exitCode = 0) :
    ∃ output, request.answer parse fs width = .ok output ∧
      (runWith parse fs width args).output = output := by
  cases hanswer : request.answer parse fs width with
  | ok output => exact ⟨output, rfl, by rw [run_of_answer hrequest hanswer]; rfl⟩
  | error f =>
    rw [run_of_answer_error hrequest hanswer, (ofFailure_eq width f).1] at hzero
    cases hzero

/-- **When a command succeeds**, whatever the parser: iff its request is feasible; else nothing is
printed. Neither a table of messages nor a list of paths can fail to be shown. -/
theorem run_exitCode_eq_zero_iff (parse : Source → Node) {fs : FileSystem} (h : fs.Proper)
    (width : Nat) {args : List String} {request : Request}
    (hrequest : Request.read? args = some request) :
    ((runWith parse fs width args).exitCode = 0 ↔ request.Feasible parse fs) ∧
      ((runWith parse fs width args).exitCode ≠ 0 → (runWith parse fs width args).output = "") ∧
      (∀ reports, ∃ shown, Report.messagesTable reports = .ok shown) ∧
      ∀ paths, ∃ shown, Report.pathsList width paths = .ok shown := by
  refine ⟨?_, ?_, Report.exists_messagesTable, Report.exists_pathsList width⟩
  · rw [← exists_answer_iff h width]
    cases hanswer : request.answer parse fs width with
    | ok output =>
      rw [run_of_answer hrequest hanswer]
      exact ⟨fun _ => ⟨output, rfl⟩, fun _ => rfl⟩
    | error f =>
      rw [run_of_answer_error hrequest hanswer, (ofFailure_eq width f).1]
      simp
  · intro hfailed
    cases hanswer : request.answer parse fs width with
    | ok output =>
      rw [run_of_answer hrequest hanswer] at hfailed
      exact absurd rfl hfailed
    | error f =>
      rw [run_of_answer_error hrequest hanswer]
      exact (ofFailure_eq width f).2

/-- A directory with settings, a file with messages that look like markup, one that may not be read,
and one with a literal that stands for no text. -/
def mixedSources : FileSystem := ⟨[
  ("intl_extract_config.json", .file (some "\x7b\"extensions\": [\".tsx\"]\x7d".toUTF8)),
  ("shown.tsx", .file (some "<FormattedMessage id='[/b]' defaultMessage='[/]' />".toUTF8)),
  ("locked.tsx", .file none),
  ("broken.tsx", .file (some "<FormattedMessage id=\x7b'\\u\x7b110000\x7d'\x7d />".toUTF8))], []⟩

/-- Its names are proper. -/
theorem mixedSources_proper : mixedSources.Proper :=
  .of_flat (by decide) (by decide) (by decide)

/-- `run_exitCode_eq_zero_iff` there: the file that may not be read does no harm, the one that
cannot be decoded does. -/
theorem run_mixedSources :
    mixedSources.Proper ∧
      Request.read? ["extract", "-H", "shown.tsx", "locked.tsx"] =
        some (.extract ⟨["shown.tsx", "locked.tsx"], none, true⟩ []) ∧
      (Request.extract ⟨["shown.tsx", "locked.tsx"], none, true⟩ []).Feasible Tsx.parse
        mixedSources ∧
      Request.read? ["extract", "shown.tsx", "broken.tsx"] =
        some (.extract ⟨["shown.tsx", "broken.tsx"], none, false⟩ []) ∧
      ¬ (Request.extract ⟨["shown.tsx", "broken.tsx"], none, false⟩ []).Feasible Tsx.parse
        mixedSources ∧
      (run mixedSources 80 ["extract", "shown.tsx", "broken.tsx"]).output = "" := by
  have hshown : Request.read? ["extract", "-H", "shown.tsx", "locked.tsx"] =
      some (.extract ⟨["shown.tsx", "locked.tsx"], none, true⟩ []) := by
    decide +kernel
  have hbroken : Request.read? ["extract", "shown.tsx", "broken.tsx"] =
      some (.extract ⟨["shown.tsx", "broken.tsx"], none, false⟩ []) := by
    decide +kernel
  have hzero : (run mixedSources 80 ["extract", "-H", "shown.tsx", "locked.tsx"]).exitCode = 0 := by
    decide +kernel
  have hone : (run mixedSources 80 ["extract", "shown.tsx", "broken.tsx"]).exitCode ≠ 0 := by
    decide +kernel
  have hfeasible := (run_exitCode_eq_zero_iff Tsx.parse mixedSources_proper 80 hshown).1.mp hzero
  obtain ⟨hiff, houtput, -⟩ :=
    run_exitCode_eq_zero_iff Tsx.parse mixedSources_proper 80 hbroken
  exact ⟨mixedSources_proper, hshown, hfeasible, hbroken, fun h => hone (hiff.mpr h), houtput hone⟩

/-- A name of 258 bytes. -/
def longName : String := String.ofList (List.replicate 86 '語')

/-- A directory where the standard settings are a link to a name that is too long. -/
def endlessSettings : FileSystem :=
  ⟨[("a.ts", .file (some .empty)), ("intl_extract_config.json", .link longName)], []⟩

/-- The characters of that name. -/
theorem toList_longName : longName.toList = List.replicate 86 '語' :=
  String.toList_ofList

/-- It may stand in a directory, but for its length. -/
theorem isName_longName : Path.IsName longName where
  ne_empty := by decide +kernel
  no_slash := by
    rw [toList_longName, List.mem_replicate]
    decide
  no_zero := by
    rw [toList_longName, List.mem_replicate]
    decide

/-- The look-up of the standard settings fails because of that name. -/
theorem resolve_endlessSettings :
    endlessSettings.resolve standardSettings = .error .nameTooLong :=
  FileSystem.resolve_of_long_target rfl (by decide) (by decide) (by decide) rfl isName_longName
    (by decide +kernel)

/-- No settings are there and the path leads to a file, but the command fails: that the name is too
long is not the same as that nothing is there. -/
theorem run_endlessSettings :
    endlessSettings.hasEntry standardSettings = false ∧ endlessSettings.hasEntry "a.ts" = true ∧
      Request.read? ["files", "a.ts"] = some (.files ⟨["a.ts"], none, false⟩) ∧
      (run endlessSettings 80 ["files", "a.ts"]).exitCode = 1 := by
  have hread : Request.read? ["files", "a.ts"] = some (.files ⟨["a.ts"], none, false⟩) := by
    decide +kernel
  have hanswer : (Request.files ⟨["a.ts"], none, false⟩).answer Tsx.parse endlessSettings 80 =
      .error (.unreadableSettings .nameTooLong) :=
    answer_of_settings_error rfl (settings_eq_error resolve_endlessSettings rfl)
  refine ⟨?_, by decide +kernel, hread, ?_⟩
  · rw [FileSystem.hasEntry, resolve_endlessSettings]
  · rw [run, run_of_answer_error hread hanswer]
    exact (ofFailure_eq 80 _).1

end MessageHarvest.Command
