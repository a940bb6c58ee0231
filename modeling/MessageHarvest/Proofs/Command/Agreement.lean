import MessageHarvest.Proofs.Command.Success
import MessageHarvest.Proofs.Report.Document

/-!
# The two commands agree

Where the command that extracts succeeds, so does the one that lists files, for the same scan, and
the two documents tell of the same files.

* `answer_files`, `answer_extract`: what each command prints, if it is not to be shown for the eye.
* **Agreement** (`run_files_of_run_extract`): the files that are listed are those of the walks from
  the paths, one after the other; the files of which messages are reported are those among them that
  can be read and have any, as often and in the same order.
-/

namespace MessageHarvest.Command

open Report

variable {parse : Source → Node} {x : Extractor} {fs : FileSystem} {scan : Scan}
  {tagNames : List String} {width : Nat}

/-! ## Documents -/

/-- The number of all messages is the sum of the numbers file by file. -/
theorem count_eq_sum (reports : List FileReport) :
    count reports = (reports.map (·.messages.length)).sum := by
  rw [count_eq_length, List.length_flatMap]

/-- The document of a scan for files. -/
theorem answer_files {files : List String} (hjson : scan.humanize = false)
    (h : scan.files fs = .ok files) (width : Nat) :
    (Request.files scan).answer parse fs width = .ok (pathsDocument files) := by
  rw [Request.answer, h, hjson]
  rfl

/-- The document of a scan for messages. -/
theorem answer_extract {reports : List FileReport} (hjson : scan.humanize = false)
    (h : scan.reports parse fs tagNames = .ok reports) (width : Nat) :
    (Request.extract scan tagNames).answer parse fs width = .ok (messagesDocument reports) := by
  rw [Request.answer, h, hjson]
  rfl

/-- A document of paths tells how many there are, and which. -/
theorem exists_read?_pathsDocument (paths : List String) :
    ∃ v, Json.read? (pathsDocument paths) = some v ∧
      v.get? "count" = some (.ofNat paths.length) ∧
      v.get? "files" = some (.array (paths.map .string)) :=
  ⟨ofPaths paths, read?_pathsDocument paths, rfl, rfl⟩

/-- A document of messages tells the sum of the numbers of messages, and the messages file by
file. -/
theorem exists_read?_messagesDocument (reports : List FileReport) :
    ∃ v entries, Json.read? (messagesDocument reports) = some v ∧
      v.get? "count" = some (.ofNat (reports.map (·.messages.length)).sum) ∧
      v.get? "files" = some (.array entries) ∧ List.Forall₂ FileReport.ToldBy reports entries := by
  refine ⟨ofMessages reports, reports.map FileReport.toJson,
    read?_document (plain_ofMessages 195 reports), ?_, rfl, ?_⟩
  · rw [← count_eq_sum]
    rfl
  · rw [List.forall₂_map_right_iff, List.forall₂_same]
    intro r _
    exact r.toldBy_toJson

/-! ## Agreement -/

/-- What is found in a file is reported under its path. -/
theorem path_of_extractFile {path : String} {r : FileReport}
    (h : extractFile x fs path = .ok (some r)) : r.path = path := by
  obtain ⟨source?, -, h⟩ := bind_eq_ok_iff.mp h
  cases source? with
  | none => cases h
  | some source =>
    obtain ⟨messages, -, h⟩ := bind_eq_ok_iff.mp h
    cases h
    rfl

/-- **The two commands agree**: if messages are extracted, the files of the same scan are listed.
They are those of the walks from the paths, one after the other. Each of them is read once for each
time it is listed; what is found is reported if it can be read and holds messages. All of this
holds for any parser. -/
theorem run_files_of_run_extract (parse : Source → Node) {fs : FileSystem} {scan : Scan}
    {tagNames args args' : List String} {width : Nat}
    (hargs : Request.read? args = some (.files scan))
    (hargs' : Request.read? args' = some (.extract scan tagNames)) (hjson : scan.humanize = false)
    (hzero : (runWith parse fs width args').exitCode = 0) :
    (runWith parse fs width args).exitCode = 0 ∧
      ∃ s x walks found, InForce fs scan.config s ∧ x.parse = parse ∧
        x.options.tagNames = standardTag :: (s.options.additionalTags ++ tagNames) ∧
        List.Forall₂ (fun p paths => fs.walk s.selection p = .ok paths) scan.paths walks ∧
        List.Forall₂ (fun path r? => extractFile x fs path = .ok r? ∧ ∀ r ∈ r?, r.path = path)
          walks.flatten found ∧
        (∃ v, Json.read? (runWith parse fs width args).output = some v ∧
          v.get? "count" = some (.ofNat walks.flatten.length) ∧
          v.get? "files" = some (.array (walks.flatten.map .string))) ∧
        ∃ v reports entries, Json.read? (runWith parse fs width args').output = some v ∧
          reports = found.filterMap (Option.filter FileReport.hasMessages) ∧
          v.get? "count" = some (.ofNat (reports.map (·.messages.length)).sum) ∧
          v.get? "files" = some (.array entries) ∧
          List.Forall₂ FileReport.ToldBy reports entries := by
  -- what the command that extracts has read
  obtain ⟨output', hanswer', -⟩ := exists_answer_of_exitCode hargs' hzero
  obtain ⟨reports, hreports, -⟩ := bind_eq_ok_iff.mp hanswer'
  obtain ⟨s, hs, hrest⟩ := bind_eq_ok_iff.mp hreports
  obtain ⟨files, hfiles, hrest⟩ := bind_eq_ok_iff.mp hrest
  obtain ⟨-, walks, hwalks, rfl⟩ := filesBelow_eq_ok_iff.mp hfiles
  obtain ⟨found, hfound, hfilter⟩ := reportsOf_eq_ok_iff.mp hrest
  -- the other command reads no more than that
  have hlisted : scan.files fs = .ok walks.flatten := bind_eq_ok_iff.mpr ⟨s, hs, hfiles⟩
  have hrun : runWith parse fs width args = .success (pathsDocument walks.flatten) :=
    run_of_answer hargs (answer_files hjson hlisted width)
  have hrun' : runWith parse fs width args' = .success (messagesDocument reports) :=
    run_of_answer hargs' (answer_extract hjson hreports width)
  have hpaths : List.Forall₂ (fun path r? =>
      extractFile ⟨parse, ⟨s.options.additionalTags ++ tagNames⟩⟩ fs path = .ok r? ∧
        ∀ r ∈ r?, r.path = path) walks.flatten found := by
    refine hfound.imp fun path r? hr => ⟨hr, fun r hmem => ?_⟩
    rw [Option.mem_def.mp hmem] at hr
    exact path_of_extractFile hr
  obtain ⟨v, entries, hread, hcount, hentries, htold⟩ := exists_read?_messagesDocument reports
  rw [hrun, hrun']
  exact ⟨rfl, s, ⟨parse, ⟨s.options.additionalTags ++ tagNames⟩⟩, walks, found,
    settings_eq_ok_iff.mp hs, rfl, rfl, hwalks, hpaths, exists_read?_pathsDocument _, v, reports,
    entries, hread, hfilter, hcount, hentries, htold⟩

/-- A scan of `mixedSources` in which one file comes twice, one is not wanted and one may not be
read. -/
def repeatedScan : Scan :=
  ⟨["shown.tsx", "intl_extract_config.json", "locked.tsx", "shown.tsx"], none, false⟩

/-- What there is to report of the first of them. -/
def shownReport : FileReport :=
  ⟨"shown.tsx", [⟨"[/b]", "[/]", none, by decide, by decide⟩]⟩

/-- `run_files_of_run_extract` there: the file that may not be read is listed, and of the others the
one message is reported twice. -/
theorem run_repeatedScan :
    Request.read? ("files" :: repeatedScan.paths) = some (.files repeatedScan) ∧
      Request.read? ("extract" :: "-t" :: "Msg" :: repeatedScan.paths) =
        some (.extract repeatedScan ["Msg"]) ∧
      repeatedScan.humanize = false ∧
      (run mixedSources 80 ("extract" :: "-t" :: "Msg" :: repeatedScan.paths)).exitCode = 0 ∧
      (∃ v, Json.read? (run mixedSources 80 ("files" :: repeatedScan.paths)).output = some v ∧
        v.get? "count" = some (.ofNat 3) ∧
        v.get? "files" =
          some (.array [.string "shown.tsx", .string "locked.tsx", .string "shown.tsx"])) ∧
      ∃ v entries, Json.read? (run mixedSources 80
          ("extract" :: "-t" :: "Msg" :: repeatedScan.paths)).output = some v ∧
        v.get? "count" = some (.ofNat 2) ∧ v.get? "files" = some (.array entries) ∧
        List.Forall₂ FileReport.ToldBy [shownReport, shownReport] entries := by
  have hfiles : Request.read? ("files" :: repeatedScan.paths) = some (.files repeatedScan) := by
    decide +kernel
  have hextract : Request.read? ("extract" :: "-t" :: "Msg" :: repeatedScan.paths) =
      some (.extract repeatedScan ["Msg"]) := by
    decide +kernel
  have hzero : (run mixedSources 80
      ("extract" :: "-t" :: "Msg" :: repeatedScan.paths)).exitCode = 0 := by
    decide +kernel
  obtain ⟨-, s, ⟨_, o⟩, walks, found, hs, rfl, ho, hwalks, hfound, ⟨v, hread, hcount, hlisted⟩,
    v', reports, entries, hread', hreports, hcount', hentries, htold⟩ :=
    run_files_of_run_extract Tsx.parse hfiles hextract rfl hzero
  -- the settings and the walks are those that the two commands compute
  have hsettings : settings mixedSources none =
      .ok ⟨.standard, ⟨[".tsx"], Selection.standardExcluded⟩⟩ := by
    decide +kernel
  obtain rfl : s = ⟨.standard, ⟨[".tsx"], Selection.standardExcluded⟩⟩ :=
    Except.ok.inj ((settings_eq_ok_iff.mpr hs).symm.trans hsettings)
  have hbelow : filesBelow mixedSources ⟨[".tsx"], Selection.standardExcluded⟩ repeatedScan.paths =
      .ok ["shown.tsx", "locked.tsx", "shown.tsx"] := by
    decide +kernel
  have hflatten : walks.flatten = ["shown.tsx", "locked.tsx", "shown.tsx"] := by
    have hwalked := filesBelow_eq_ok_iff.mpr
      ⟨(filesBelow_eq_ok_iff.mp hbelow).1, walks, hwalks, rfl⟩
    exact (Except.ok.inj (hbelow.symm.trans hwalked)).symm
  -- and so is what is found in each of the files
  obtain rfl : o = ⟨["Msg"]⟩ := congrArg Options.mk (List.cons.inj ho).2
  have hshown : extractFile ⟨Tsx.parse, ⟨["Msg"]⟩⟩ mixedSources "shown.tsx" =
      .ok (some shownReport) := by
    decide +kernel
  have hlocked : extractFile ⟨Tsx.parse, ⟨["Msg"]⟩⟩ mixedSources "locked.tsx" = .ok none := by
    decide +kernel
  have hall : found = [some shownReport, none, some shownReport] := by
    rw [hflatten] at hfound
    obtain _ | ⟨⟨h₁, -⟩, _ | ⟨⟨h₂, -⟩, _ | ⟨⟨h₃, -⟩, _ | _⟩⟩⟩ := hfound
    rw [hshown] at h₁ h₃
    rw [hlocked] at h₂
    rw [← Except.ok.inj h₁, ← Except.ok.inj h₂, ← Except.ok.inj h₃]
  obtain rfl : reports = [shownReport, shownReport] := by
    rw [hreports, hall]
    rfl
  rw [hflatten] at hcount hlisted
  exact ⟨hfiles, hextract, rfl, hzero, ⟨v, hread, hcount, hlisted⟩, v', entries, hread', hcount',
    hentries, htold⟩

end MessageHarvest.Command
