import MessageHarvest.Proofs.Command.Success
import MessageHarvest.Proofs.Layout.Line
import MessageHarvest.Proofs.Report.Verbatim

/-!
# What is missing is complained about

A scan ends at the first path that leads to nothing, and before that at settings that are not there.
The complaint names the path, between tags and not escaped. So it shows the path as it is only if
nothing in the path is taken for markup; a closing tag in it that has nothing to close even keeps
the complaint from being shown.

* `FitsLine` and `KeepsEnd`: which texts have room in a line, and keep the blanks at their end.
* **When a complaint names the path as it is** (`complain_eq_iff`).
* **What a command says of something missing** (`run_missing_iff`), be it a path or the file with
  the settings.
-/

namespace MessageHarvest.Command

open Markup Report

variable {parse : Source → Node} {fs : FileSystem} {width : Nat} {p : String}

/-! ## Complaints -/

/-- The text is a single line that takes at most so many cells. -/
structure FitsLine (width : Nat) (t : String) : Prop where
  line : Layout.IsLine t.toList
  cells : CellWidth.total t.toList ≤ width

instance (width : Nat) (t : String) : Decidable (FitsLine width t) :=
  decidable_of_iff (Layout.IsLine t.toList ∧ CellWidth.total t.toList ≤ width)
    ⟨fun h => ⟨h.1, h.2⟩, fun h => ⟨h.line, h.cells⟩⟩

/-- The text does not end in blanks that are dropped: it has no more characters than a line has
cells, or no blanks at its end. -/
def KeepsEnd (width : Nat) (t : String) : Prop :=
  t.toList.length ≤ width ∨ Text.trimEnd t.toList = t.toList

instance (width : Nat) (t : String) : Decidable (KeepsEnd width t) :=
  inferInstanceAs (Decidable (t.toList.length ≤ width ∨ Text.trimEnd t.toList = t.toList))

/-- Complaints are put between tags with a proper name. -/
theorem isTagName_red : IsTagName "red".toList where
  opens := rfl
  no_slash := by decide
  clear := by simp
  trimmed := by decide

/-- What a line of markup shows as a whole line is what is shown. -/
theorem complain_eq_line_iff {markup shown t : String} (h : render markup = .ok shown) :
    Outcome.complain width markup = ⟨1, "", t ++ "\n", none⟩ ↔
      Layout.paragraph width shown.toList = t.toList ++ ['\n'] := by
  have hline : showLine width markup =
      .ok (String.ofList (Layout.paragraph width shown.toList)) := by
    rw [showLine, h]
    rfl
  rw [Outcome.complain, hline]
  dsimp only
  rw [Outcome.mk.injEq, ← String.toList_inj, ← String.toList_inj, String.toList_ofList,
    String.toList_append]
  simp

/-- What is shown of a text between tags has the text as its line only if it is the text. -/
theorem isPlain_of_paragraph {t shown : String} (hfits : FitsLine width t)
    (hrender : render (within "red" t) = .ok shown)
    (h : Layout.paragraph width shown.toList = t.toList ++ ['\n']) :
    IsPlain t.toList ∧ shown = t := by
  rcases sublist_of_render_within isTagName_red hrender with
    ⟨hsublist, hsame⟩ | ⟨hsublist, hbracket, hback⟩
  · have heq := Layout.eq_of_paragraph_of_sublist hfits.line hfits.cells hsublist h
    exact ⟨hsame (congrArg List.length heq), String.toList_inj.mp heq⟩
  · -- the closing tag was shown, so the line ends in its bracket and not in a backslash
    have hclose : Layout.IsLine (t.toList ++ ('[' :: '/' :: "red".toList ++ [']'])) :=
      Layout.isLine_append.mpr ⟨hfits.line, by decide⟩
    have htrim : Text.trimEnd shown.toList = shown.toList := by
      rw [Layout.trimEnd_eq_self_iff, hbracket]
      intro c hc
      cases hc
      decide
    have heq := Layout.eq_of_paragraph_of_trimEnd (hfits.line.notMem (by decide))
      (hclose.sublist hsublist) htrim h
    rw [← heq, hbracket] at hback
    exact absurd hback (by decide)

/-- **A complaint names a path as it is** iff nothing in the path is taken for markup and no blanks
at its end are dropped. -/
theorem complain_eq_iff {label : String} (hopen : '[' ∉ label.toList) (hslash : '\\' ∉ label.toList)
    (hfits : FitsLine width (label ++ p)) :
    Outcome.complain width (within "red" (label ++ p)) = ⟨1, "", label ++ p ++ "\n", none⟩ ↔
      IsPlain p.toList ∧ KeepsEnd width (label ++ p) := by
  have hplain : IsPlain (label ++ p).toList ↔ IsPlain p.toList := by
    rw [String.toList_append]
    exact isPlain_append_iff hopen hslash
  have hkeeps : Layout.paragraph width (label ++ p).toList = (label ++ p).toList ++ ['\n'] ↔
      KeepsEnd width (label ++ p) :=
    Layout.paragraph_eq_iff hfits.line hfits.cells
  rw [← hplain]
  constructor
  · intro h
    cases hrender : render (within "red" (label ++ p)) with
    | error e =>
      rw [Outcome.complain, showLine, hrender] at h
      cases congrArg Outcome.failure h
    | ok shown =>
      rw [complain_eq_line_iff hrender] at h
      obtain ⟨hshown, heq⟩ := isPlain_of_paragraph hfits hrender h
      rw [heq] at h
      exact ⟨hshown, hkeeps.mp h⟩
  · rintro ⟨hshown, hend⟩
    rw [complain_eq_line_iff ((render_within_eq_ok_iff isTagName_red _).mpr hshown)]
    exact hkeeps.mpr hend

/-! ## What ends a scan -/

/-- Without files a request has no answer. -/
theorem answer_of_filesBelow_error {request : Request} {scan : Scan} {s : Settings} {f : Failure}
    (hscan : request.scan? = some scan) (hs : settings fs scan.config = .ok s)
    (h : filesBelow fs s.selection scan.paths = .error f) :
    request.answer parse fs width = .error f := by
  cases request with
  | help => cases hscan
  | extract _ tagNames =>
    cases hscan
    rw [Request.answer, Scan.reports, hs]
    dsimp only [bind, Except.bind]
    rw [h]
  | files _ =>
    cases hscan
    rw [Request.answer, Scan.files, hs]
    dsimp only [bind, Except.bind]
    rw [h]

/-- **The first path that leads to nothing** ends a scan. -/
theorem filesBelow_eq_noPath {before after : List String} (s : Selection)
    (hbefore : ∀ q ∈ before, fs.hasEntry q = true) (hp : fs.hasEntry p = false) :
    filesBelow fs s (before ++ p :: after) = .error (.noPath p) := by
  induction before with
  | nil =>
    rw [List.nil_append, filesBelow, if_neg (by rw [hp]; exact Bool.false_ne_true)]
    rfl
  | cons q before ih =>
    obtain ⟨hq, hbefore⟩ := List.forall_mem_cons.mp hbefore
    obtain ⟨found, hfound⟩ := exists_walk hq s
    rw [List.cons_append, filesBelow, if_pos hq, hfound, ih hbefore]
    rfl

/-- **Settings that are named and not there** end a scan. -/
theorem settings_eq_noSettings (hp : p ≠ "") (habsent : fs.hasEntry (Path.normal p) = false)
    (hlookup : fs.resolve (Path.normal p) ≠ .error .nameTooLong) :
    settings fs (some p) = .error (.noSettings p) := by
  have hfilter : (some p).filter (· ≠ "") = some p :=
    Option.filter_eq_some_iff.mpr ⟨rfl, decide_eq_true hp⟩
  rw [settings, hfilter]
  dsimp only
  rw [hasSettings_eq_false_iff.mpr ⟨habsent, hlookup⟩]
  rfl

/-- Settings that cannot even be looked for end a scan otherwise. -/
theorem settings_eq_nameTooLong (hp : p ≠ "")
    (hlookup : fs.resolve (Path.normal p) = .error .nameTooLong) :
    settings fs (some p) = .error (.unreadableSettings .nameTooLong) := by
  have hfilter : (some p).filter (· ≠ "") = some p :=
    Option.filter_eq_some_iff.mpr ⟨rfl, decide_eq_true hp⟩
  rw [settings, hfilter]
  dsimp only
  rw [hasSettings, hlookup]
  rfl

/-! ## What a command says -/

/-- **What a command says of something missing**, if it has room in a line. It always fails and
prints nothing else. It names a path that leads to nothing as it is iff nothing in the path is taken
for markup and no blanks at its end are dropped; and likewise the file with the settings, unless its
name is too long to look for it. -/
theorem run_missing_iff {args : List String} {request : Request} {scan : Scan}
    (hrequest : Request.read? args = some request) (hscan : request.scan? = some scan) :
    (∀ s before p after, InForce fs scan.config s → scan.paths = before ++ p :: after →
      (∀ q ∈ before, fs.hasEntry q = true) → fs.hasEntry p = false →
      FitsLine width ("Path not found: " ++ p) →
      (run fs width args).exitCode = 1 ∧ (run fs width args).output = "" ∧
        (run fs width args = ⟨1, "", "Path not found: " ++ p ++ "\n", none⟩ ↔
          IsPlain p.toList ∧ KeepsEnd width ("Path not found: " ++ p))) ∧
    (∀ p, scan.config = some p → p ≠ "" → fs.hasEntry (Path.normal p) = false →
      FitsLine width ("Config file not found: " ++ p) →
      (run fs width args).exitCode = 1 ∧ (run fs width args).output = "" ∧
        (run fs width args = ⟨1, "", "Config file not found: " ++ p ++ "\n", none⟩ ↔
          IsPlain p.toList ∧ KeepsEnd width ("Config file not found: " ++ p) ∧
            fs.resolve (Path.normal p) ≠ .error .nameTooLong)) := by
  constructor
  · intro s before p after hs hpaths hbefore hp hfits
    have hbelow : filesBelow fs s.selection scan.paths = .error (.noPath p) := by
      rw [hpaths]
      exact filesBelow_eq_noPath s.selection hbefore hp
    have hanswer : request.answer Tsx.parse fs width = .error (.noPath p) :=
      answer_of_filesBelow_error hscan (settings_eq_ok_iff.mpr hs) hbelow
    rw [run, run_of_answer_error hrequest hanswer]
    obtain ⟨hcode, houtput⟩ := ofFailure_eq width (.noPath p)
    exact ⟨hcode, houtput, complain_eq_iff (by decide) (by decide) hfits⟩
  · intro p hconfig hne habsent hfits
    by_cases hlookup : fs.resolve (Path.normal p) = .error .nameTooLong
    · have hsettings : settings fs scan.config = .error (.unreadableSettings .nameTooLong) := by
        rw [hconfig]
        exact settings_eq_nameTooLong hne hlookup
      rw [run, run_of_answer_error hrequest (answer_of_settings_error hscan hsettings)]
      refine ⟨rfl, rfl, iff_of_false ?_ fun h => h.2.2 hlookup⟩
      intro h
      cases congrArg Outcome.failure h
    · have hsettings : settings fs scan.config = .error (.noSettings p) := by
        rw [hconfig]
        exact settings_eq_noSettings hne habsent hlookup
      rw [run, run_of_answer_error hrequest (answer_of_settings_error hscan hsettings)]
      obtain ⟨hcode, houtput⟩ := ofFailure_eq width (.noSettings p)
      refine ⟨hcode, houtput, ?_⟩
      rw [← and_assoc, and_iff_left hlookup]
      exact complain_eq_iff (by decide) (by decide) hfits

/-- A directory with a single file. -/
def singleSource : FileSystem := ⟨[("a.ts", .file (some .empty))], []⟩

/-- `run_missing_iff` there, for a path and for a file with settings. -/
theorem run_missing_singleSource :
    run singleSource 80 ["extract", "a.ts", "back[0].ts", "c.ts"] =
        ⟨1, "", "Path not found: back[0].ts\n", none⟩ ∧
      run singleSource 80 ["files", "-c", "lost.json", "a.ts"] =
        ⟨1, "", "Config file not found: lost.json\n", none⟩ := by
  have hextract : Request.read? ["extract", "a.ts", "back[0].ts", "c.ts"] =
      some (.extract ⟨["a.ts", "back[0].ts", "c.ts"], none, false⟩ []) := by
    decide +kernel
  have hsettings : settings singleSource none = .ok .standard := by
    decide +kernel
  have hpath := (run_missing_iff hextract rfl).1 .standard ["a.ts"] "back[0].ts" ["c.ts"]
    (settings_eq_ok_iff.mp hsettings) rfl (by decide +kernel) (by decide +kernel)
    (by decide +kernel : FitsLine 80 _)
  have hfiles : Request.read? ["files", "-c", "lost.json", "a.ts"] =
      some (.files ⟨["a.ts"], some "lost.json", false⟩) := by
    decide +kernel
  have hlost : hasSettings singleSource (Path.normal "lost.json") = .ok false := by
    decide +kernel
  obtain ⟨habsent, hlookup⟩ := hasSettings_eq_false_iff.mp hlost
  have hconfig := (run_missing_iff hfiles rfl).2 "lost.json" rfl (by decide) habsent
    (by decide +kernel : FitsLine 80 _)
  exact ⟨hpath.2.2.mpr (by decide +kernel),
    hconfig.2.2.mpr ⟨by decide +kernel, by decide +kernel, hlookup⟩⟩

/-- A part of a path that looks like a tag is not named. -/
theorem run_bracketedPath :
    singleSource.hasEntry "app/[id]/page.tsx" = false ∧
      FitsLine 80 ("Path not found: " ++ "app/[id]/page.tsx") ∧
      run singleSource 80 ["files", "app/[id]/page.tsx"] =
        ⟨1, "", "Path not found: app//page.tsx\n", none⟩ ∧
      run singleSource 80 ["files", "app/[id]/page.tsx"] ≠
        ⟨1, "", "Path not found: app/[id]/page.tsx\n", none⟩ := by
  decide +kernel

/-- A part that looks like a closing tag ends the run otherwise. -/
example : run singleSource 80 ["files", "a.ts", "[/b]"] = .broken (.markup ⟨"/b".toList⟩) := by
  decide +kernel

end MessageHarvest.Command
