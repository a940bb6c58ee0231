import MessageHarvest.Proofs.Command.Complaint
import MessageHarvest.Proofs.Files.Resolve

/-!
# Listing what was listed

The paths that a scan has listed can be given back to the command. Each of them lists itself, so
that the same is printed again. Only a listed path to which nothing answers ends the second scan: a
link that leads nowhere is listed, but there is nothing at its path. Where nothing was listed there
is nothing to give back: a command without a path makes no sense.

* `Scan.arguments`: arguments for a scan, whatever its paths look like (`read?_arguments`).
* `filesBelow_of_walks`: paths that list just themselves.
* **Listing what was listed** (`relisting`), path by path and for the command.
-/

namespace MessageHarvest.Command

variable {parse : Source → Node} {fs : FileSystem} {s : Selection} {scan : Scan}
  {listed : List String}

/-! ## Arguments for a scan -/

/-- The options of a scan. -/
def Scan.given (scan : Scan) : List Given :=
  scan.config.toList.map (Flag.config, ·) ++ if scan.humanize then [(.humanize, "")] else []

/-- The options of a scan as arguments. -/
def Scan.options (scan : Scan) : List String :=
  scan.config.toList.flatMap (["-c", ·]) ++ if scan.humanize then ["-H"] else []

/-- Arguments that ask for the files of a scan. After the double dash all of them are paths. -/
def Scan.arguments (scan : Scan) : List String :=
  "files" :: (scan.options ++ "--" :: scan.paths)

/-- The same scan from other paths. -/
def Scan.over (scan : Scan) (paths : List String) : Scan :=
  { scan with paths := paths }

/-- The options of a scan are read back, and all that follows them is taken for paths. -/
theorem readAll_options (scan : Scan) (paths : List String) :
    readAll Flag.ofFiles (scan.options ++ "--" :: paths).length (scan.options ++ "--" :: paths) =
      some (scan.given, paths) := by
  obtain ⟨_, config, humanize⟩ := scan
  cases config <;> cases humanize <;> rfl

/-- What the options of a scan ask for is that scan, if there is a path. -/
theorem request?_given (scan : Scan) :
    request? (fun scan _ => .files scan) scan.given scan.paths =
      if scan.paths.isEmpty then none else some (.files scan) := by
  obtain ⟨paths, config, humanize⟩ := scan
  have hhelp : isGiven .help (Scan.given ⟨paths, config, humanize⟩) = false := by
    cases config <;> cases humanize <;> rfl
  have hconfig : (valuesOf .config (Scan.given ⟨paths, config, humanize⟩)).getLast? = config := by
    cases config <;> cases humanize <;> rfl
  have hhumanize : isGiven .humanize (Scan.given ⟨paths, config, humanize⟩) = humanize := by
    cases config <;> cases humanize <;> rfl
  rw [request?, hhelp, hconfig, hhumanize]
  rfl

/-- **Every scan can be asked for** if it has a path, and else no scan. -/
theorem read?_arguments (scan : Scan) :
    Request.read? scan.arguments = if scan.paths.isEmpty then none else some (.files scan) := by
  have hread : Request.read? scan.arguments =
      readCommand Flag.ofFiles (fun scan _ => .files scan) (scan.options ++ "--" :: scan.paths) :=
    rfl
  rw [hread, readCommand, readAll_options]
  exact request?_given scan

/-! ## Paths that list themselves -/

/-- Where each path lists just itself, the files below the paths are the paths. -/
theorem filesBelow_of_walks (hthere : ∀ p ∈ listed, fs.hasEntry p = true)
    (hwalks : ∀ p ∈ listed, fs.walk s p = .ok [p]) : filesBelow fs s listed = .ok listed := by
  refine filesBelow_eq_ok_iff.mpr ⟨hthere, listed.map fun p => [p], ?_, ?_⟩
  · rw [List.forall₂_map_right_iff, List.forall₂_same]
    exact hwalks
  · rw [← List.flatMap_def, List.flatMap_singleton']

/-- Among paths that do not all lead to something there is a first one that leads to nothing. -/
theorem exists_first_missing (h : ¬∀ p ∈ listed, fs.hasEntry p = true) :
    ∃ before p after, listed = before ++ p :: after ∧ (∀ q ∈ before, fs.hasEntry q = true) ∧
      fs.hasEntry p = false := by
  have hsome : (listed.find? fun p => !fs.hasEntry p).isSome = true := by
    rw [List.find?_isSome]
    simpa using h
  obtain ⟨p, hp⟩ := Option.isSome_iff_exists.mp hsome
  obtain ⟨hgone, before, after, hlisted, hbefore⟩ := List.find?_eq_some_iff_append.mp hp
  refine ⟨before, p, after, hlisted, fun q hq => ?_, by simpa using hgone⟩
  simpa using hbefore q hq

/-- Requests for the same files are answered in the same way. -/
theorem answer_files_eq_of_files_eq {scan scan' : Scan}
    (h : scan'.files fs = scan.files fs) (hhumanize : scan'.humanize = scan.humanize)
    (width : Nat) :
    (Request.files scan').answer parse fs width = (Request.files scan).answer parse fs width := by
  rw [Request.answer, Request.answer, h, hhumanize]

/-! ## Listing again -/

/-- **Listing what was listed**. A listed path lists just itself if something is there; else it
lists nothing, and is too long or that of a link. When the paths that a scan has listed are given
back, the same is printed again if something is at each of them; else the first one of which this is
not true is complained about. No paths at all cannot be given back. -/
theorem relisting (parse : Source → Node) {fs : FileSystem} (h : fs.Proper)
    (haccessible : fs.Accessible) :
    (∀ s root paths, fs.walk s root = .ok paths → ∀ p ∈ paths,
      (fs.hasEntry p = true → fs.walk s p = .ok [p]) ∧
        (fs.hasEntry p = false → fs.walk s p = .ok [] ∧
          (FileSystem.pathLimit ≤ p.utf8ByteSize ∨ fs.IsLinkBelow root p))) ∧
    ∀ width args scan listed, Request.read? args = some (.files scan) →
      scan.files fs = .ok listed →
      (listed = [] → runWith parse fs width (scan.over listed).arguments = .misuse) ∧
      (listed ≠ [] → (∀ p ∈ listed, fs.hasEntry p = true) →
        (scan.over listed).files fs = .ok listed ∧
          runWith parse fs width (scan.over listed).arguments = runWith parse fs width args) ∧
      ((¬∀ p ∈ listed, fs.hasEntry p = true) → ∃ before p after, listed = before ++ p :: after ∧
        (∀ q ∈ before, fs.hasEntry q = true) ∧ fs.hasEntry p = false ∧
        runWith parse fs width (scan.over listed).arguments =
          .complain width (Report.within "red" ("Path not found: " ++ p))) := by
  refine ⟨fun s root paths hwalk p hp => FileSystem.walk_of_mem_walk h haccessible hwalk hp, ?_⟩
  intro width args scan listed hargs hlisted
  obtain ⟨s, hs, hbelow⟩ := bind_eq_ok_iff.mp hlisted
  -- the arguments ask for the listed paths, unless there are none of them
  have hread : Request.read? (scan.over listed).arguments =
      if listed.isEmpty then none else some (.files (scan.over listed)) :=
    read?_arguments (scan.over listed)
  have hread' : listed ≠ [] →
      Request.read? (scan.over listed).arguments = some (.files (scan.over listed)) := by
    intro hne
    rw [hread, List.isEmpty_eq_false_iff.mpr hne, if_neg Bool.false_ne_true]
  refine ⟨?_, ?_, ?_⟩
  · rintro rfl
    rw [runWith, hread]
    rfl
  · intro hne hthere
    have hagain : filesBelow fs s.selection listed = .ok listed := by
      refine filesBelow_of_walks hthere fun p hp => ?_
      obtain ⟨-, walks, hwalks, rfl⟩ := filesBelow_eq_ok_iff.mp hbelow
      obtain ⟨root, -, found, hfound, hmem⟩ := (mem_flatten_walks_iff hwalks).mp hp
      exact (FileSystem.walk_of_mem_walk h haccessible hfound hmem).1 (hthere p hp)
    have hfiles : (scan.over listed).files fs = .ok listed :=
      bind_eq_ok_iff.mpr ⟨s, hs, hagain⟩
    have hanswer : (Request.files (scan.over listed)).answer parse fs width =
        (Request.files scan).answer parse fs width :=
      answer_files_eq_of_files_eq (hfiles.trans hlisted.symm) rfl width
    refine ⟨hfiles, ?_⟩
    rw [runWith, runWith, hargs, hread' hne]
    dsimp only
    rw [hanswer]
  · intro hgone
    obtain ⟨before, p, after, rfl, hbefore, hp⟩ := exists_first_missing hgone
    refine ⟨before, p, after, rfl, hbefore, hp, ?_⟩
    have hne : before ++ p :: after ≠ [] := by simp
    exact run_of_answer_error (hread' hne)
      (answer_of_filesBelow_error rfl hs (filesBelow_eq_noPath s.selection hbefore hp))

/-- A directory with a file and a link to it, one with a link that leads nowhere, and an empty
one. -/
def linked : FileSystem := ⟨[
  ("src", .directory [("b.ts", .link "a.ts"), ("a.ts", .file (some .empty))]),
  ("old", .directory [("gone.js", .link "nowhere")]),
  ("new", .directory [])], []⟩

/-- Its names are proper. -/
theorem linked_proper : linked.Proper := by
  have hentries : ∀ m ∈ linked.entries, m.2.Proper := by
    simp only [linked, List.forall_mem_cons]
    exact ⟨.of_flat (by decide) (by decide) (by decide),
      .of_flat (by decide) (by decide) (by decide), .of_flat (by decide) (by decide) (by decide),
      fun m hm => absurd hm List.not_mem_nil⟩
  exact .directory (by decide) (by decide) hentries

/-- Its names are short enough, and no steps of their own. -/
theorem linked_accessible : linked.Accessible := by
  have hentries : ∀ m ∈ linked.entries, m.2.Accessible := by
    simp only [linked, List.forall_mem_cons]
    exact ⟨.of_flat (by decide) (by decide), .of_flat (by decide) (by decide),
      .of_flat (by decide) (by decide), fun m hm => absurd hm List.not_mem_nil⟩
  exact .directory (by decide) hentries

/-- The file and the link to it are listed. -/
theorem walk_linked_src : linked.walk .standard "src" = .ok ["src/a.ts", "src/b.ts"] := by
  have hcollect : linked.collect .standard "src"
      [("b.ts", .link "a.ts"), ("a.ts", .file (some .empty))] = ["src/b.ts", "src/a.ts"] := by
    decide +kernel
  exact FileSystem.walk_of_collect rfl hcollect (by decide) (by decide)

/-- The link that leads nowhere is listed. -/
theorem walk_linked_old : linked.walk .standard "old" = .ok ["old/gone.js"] := by
  have hcollect : linked.collect .standard "old" [("gone.js", .link "nowhere")] =
      ["old/gone.js"] := by
    decide +kernel
  exact FileSystem.walk_of_collect rfl hcollect (by decide) (by decide)

/-- In the empty directory nothing is listed. -/
theorem walk_linked_new : linked.walk .standard "new" = .ok [] :=
  FileSystem.walk_of_collect rfl rfl (by decide) (by decide)

/-- `relisting` there: what was listed below a directory is printed again, the link that leads
nowhere is the first path of three that is missing, and nothing cannot be given back. -/
theorem relisting_linked :
    linked.Proper ∧ linked.Accessible ∧
      linked.walk .standard "src/b.ts" = .ok ["src/b.ts"] ∧
      run linked 80 ["files", "--", "src/a.ts", "src/b.ts"] = run linked 80 ["files", "src"] ∧
      run linked 80 ["files", "--", "src/a.ts", "src/b.ts", "old/gone.js"] =
        ⟨1, "", "Path not found: old/gone.js\n", none⟩ ∧
      run linked 80 ["files", "--"] = .misuse := by
  obtain ⟨hpaths, hcommand⟩ := relisting Tsx.parse linked_proper linked_accessible
  have hthere : ∀ p ∈ ["src/a.ts", "src/b.ts"], linked.hasEntry p = true := by
    decide +kernel
  have hsettings : settings linked none = .ok .standard := by
    decide +kernel
  have hfiles : ∀ roots walks,
      List.Forall₂ (fun root found => linked.walk .standard root = .ok found) roots walks →
      (∀ root ∈ roots, linked.hasEntry root = true) →
      (⟨roots, none, false⟩ : Scan).files linked = .ok walks.flatten := by
    intro roots walks hwalks hroots
    exact bind_eq_ok_iff.mpr ⟨.standard, hsettings,
      filesBelow_eq_ok_iff.mpr ⟨hroots, walks, hwalks, rfl⟩⟩
  obtain ⟨-, hsame, -⟩ := hcommand 80 ["files", "src"] ⟨["src"], none, false⟩
    ["src/a.ts", "src/b.ts"] (by decide +kernel)
    (hfiles ["src"] _ (.cons walk_linked_src .nil) (by decide +kernel))
  obtain ⟨-, -, hgone⟩ := hcommand 80 ["files", "src", "old"] ⟨["src", "old"], none, false⟩
    ["src/a.ts", "src/b.ts", "old/gone.js"] (by decide +kernel)
    (hfiles ["src", "old"] _ (.cons walk_linked_src (.cons walk_linked_old .nil))
      (by decide +kernel))
  obtain ⟨hnothing, -⟩ := hcommand 80 ["files", "new"] ⟨["new"], none, false⟩ []
    (by decide +kernel) (hfiles ["new"] [[]] (.cons walk_linked_new .nil) (by decide +kernel))
  -- only one of the three paths is missing, so that it is the one complained about
  obtain ⟨before, p, after, hlisted, -, hp, hrun⟩ := hgone (by decide +kernel)
  have hmissing : ∀ q ∈ ["src/a.ts", "src/b.ts", "old/gone.js"], linked.hasEntry q = false →
      q = "old/gone.js" := by
    decide +kernel
  obtain rfl : p = "old/gone.js" := by
    refine hmissing p ?_ hp
    rw [hlisted]
    exact List.mem_append_right before List.mem_cons_self
  have hshown : Outcome.complain 80 (Report.within "red" ("Path not found: " ++ "old/gone.js")) =
      ⟨1, "", "Path not found: old/gone.js\n", none⟩ := by
    decide +kernel
  have hmem : "src/b.ts" ∈ ["src/a.ts", "src/b.ts"] := by decide
  exact ⟨linked_proper, linked_accessible,
    (hpaths .standard "src" _ walk_linked_src "src/b.ts" hmem).1 (hthere _ hmem),
    (hsame (by decide) hthere).2, hrun.trans hshown, hnothing rfl⟩

/-- A link that leads nowhere is listed, but nothing is at its path, and it does not list itself. -/
theorem walk_linked_gone :
    ∃ paths, linked.walk .standard "old" = .ok paths ∧ "old/gone.js" ∈ paths ∧
      linked.hasEntry "old/gone.js" = false ∧
      linked.walk .standard "old/gone.js" ≠ .ok ["old/gone.js"] := by
  have hnothing : linked.walk .standard "old/gone.js" = .ok [] := by
    decide +kernel
  refine ⟨["old/gone.js"], walk_linked_old, by decide, by decide +kernel, ?_⟩
  rw [hnothing]
  decide

end MessageHarvest.Command
