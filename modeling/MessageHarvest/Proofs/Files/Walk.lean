import MessageHarvest.Files.Walk
import MessageHarvest.Proofs.Files.Entry
import Mathlib.Data.List.Nodup
import Mathlib.Data.String.Basic

/-!
# What a walk lists

A walk goes through the directories below a path in whatever order they stand there, and puts what
it has found in order at the end. Here its result is said without any order of going: it is the
strictly increasing list of the paths that are to be listed.

* `FileSystem.Listed fs s root top dirs name`: from the entry `top` at the path `root`, the names
  `dirs` lead through directories that are entered to one with a wanted entry `name` that is no
  directory.
* `FileSystem.mem_collect_iff`: these entries are collected, and no others.
* `FileSystem.collect_nodup`: no path is collected twice, since a path tells its names.
* **What a walk lists** (`FileSystem.walk_eq`): a path that leads to a file, if it is wanted; from a
  path that leads to a directory the paths of these entries, in order; else nothing, unless the path
  is no path at all.
-/

namespace MessageHarvest

/-! ## Selected names -/

namespace Selection

variable {s : Selection} {name : String}

/-- A file is wanted iff its suffix is one of the selection, but for upper and lower case. -/
theorem wants_iff : s.wants name = true ↔
    ∃ extension ∈ s.extensions, LowerCase.lower extension = LowerCase.lower (Path.suffix name) := by
  rw [wants, List.contains_iff_mem, List.mem_map]

/-- A directory is entered iff its name is not excluded and begins with no dot. -/
theorem enters_iff : s.enters name = true ↔
    name ∉ s.excluded ∧ name.toList.head? ≠ some '.' := by
  simp [enters]

end Selection

namespace FileSystem

/-- What stands at a path leads to a directory. Only a link is followed for that. -/
def leadsToDirectory (fs : FileSystem) (path : String) : Entry → Bool
  | .file _ => false
  | .directory _ => true
  | .link _ => fs.isDirectory path

/-- From an entry at the path `root` names lead, through directories that are entered, to a wanted
entry that leads to no directory. Links are not followed on the way. -/
structure Listed (fs : FileSystem) (s : Selection) (root : String) (top : Entry)
    (dirs : List String) (name : String) : Prop where
  entry : ∃ e, top.descend (dirs ++ [name]) = some e ∧
    fs.leadsToDirectory (Path.joinAll root (dirs ++ [name])) e = false
  entered : ∀ d ∈ dirs, d ∉ s.excluded ∧ d.toList.head? ≠ some '.'
  wanted : ∃ extension ∈ s.extensions,
    LowerCase.lower extension = LowerCase.lower (Path.suffix name)

variable {fs : FileSystem} {s : Selection} {root name : String}
  {entries : List (String × Entry)} {dirs : List String}

/-! ## One step of the way -/

/-- What is listed in a directory itself. -/
theorem listed_nil_iff :
    Listed fs s root (.directory entries) [] name ↔
      ∃ e, Entry.lookup name entries = some e ∧
        fs.leadsToDirectory (Path.join root name) e = false ∧ s.wants name = true := by
  rw [Selection.wants_iff]
  constructor
  · rintro ⟨⟨e, he, hleads⟩, -, hwanted⟩
    obtain ⟨entries, inner, hentries, hlookup, hinner⟩ := Entry.descend_cons.mp he
    cases hentries
    rw [Entry.descend_nil, Option.some_inj] at hinner
    exact ⟨e, hinner ▸ hlookup, hleads, hwanted⟩
  · rintro ⟨e, hlookup, hleads, hwanted⟩
    have hdescend : (Entry.directory entries).descend [name] = some e :=
      Entry.descend_cons.mpr ⟨entries, e, rfl, hlookup, Entry.descend_nil e⟩
    exact ⟨⟨e, hdescend, hleads⟩, fun d hd => absurd hd List.not_mem_nil, hwanted⟩

/-- What is listed below a directory is listed in, or below, a directory that it holds. -/
theorem listed_cons_iff {d : String} :
    Listed fs s root (.directory entries) (d :: dirs) name ↔
      ∃ inner, Entry.lookup d entries = some (.directory inner) ∧ s.enters d = true ∧
        Listed fs s (Path.join root d) (.directory inner) dirs name := by
  rw [Selection.enters_iff]
  constructor
  · rintro ⟨⟨e, he, hleads⟩, hentered, hwanted⟩
    obtain ⟨entries, next, hentries, hlookup, hnext⟩ := Entry.descend_cons.mp he
    cases hentries
    -- names are left, so that what the first one leads to holds entries
    obtain ⟨inner, rfl⟩ : ∃ inner, next = .directory inner := by
      cases dirs with
      | nil =>
        obtain ⟨inner, -, hinner, -⟩ := Entry.descend_cons.mp hnext
        exact ⟨inner, hinner⟩
      | cons d' dirs =>
        obtain ⟨inner, -, hinner, -⟩ := Entry.descend_cons.mp hnext
        exact ⟨inner, hinner⟩
    exact ⟨inner, hlookup, hentered d List.mem_cons_self, ⟨e, hnext, hleads⟩,
      fun d' hd' => hentered d' (List.mem_cons_of_mem d hd'), hwanted⟩
  · rintro ⟨inner, hlookup, hd, ⟨e, he, hleads⟩, hentered, hwanted⟩
    refine ⟨⟨e, Entry.descend_cons.mpr ⟨entries, _, rfl, hlookup, he⟩, hleads⟩, ?_, hwanted⟩
    intro d' hd'
    rcases List.mem_cons.mp hd' with rfl | hd'
    · exact hd
    · exact hentered d' hd'

/-- The names on the way to a listed file are proper. -/
theorem Listed.isName (h : Listed fs s root (.directory entries) dirs name)
    (hproper : (Entry.directory entries).Proper) : ∀ n ∈ dirs ++ [name], Path.IsName n := by
  obtain ⟨⟨e, he, -⟩, -, -⟩ := h
  exact (hproper.descend he).2

/-! ## What is collected -/

/-- A directory contributes what its entries contribute, one after the other. -/
theorem collect_eq_flatMap (fs : FileSystem) (s : Selection) (root : String)
    (entries : List (String × Entry)) :
    fs.collect s root entries =
      entries.flatMap fun m => fs.collectFrom s (Path.join root m.1) m.1 m.2 := by
  induction entries with
  | nil => rfl
  | cons m entries ih => rw [collect, ih, List.flatMap_cons]

/-- An entry contributes itself, or what is collected below it. -/
theorem mem_collectFrom_iff {path p : String} {e : Entry} :
    p ∈ fs.collectFrom s path name e ↔
      (fs.leadsToDirectory path e = false ∧ s.wants name = true ∧ p = path) ∨
      ∃ inner, e = .directory inner ∧ s.enters name = true ∧ p ∈ fs.collect s path inner := by
  cases e with
  | file content =>
    rw [collectFrom]
    simp [leadsToDirectory]
  | link target =>
    rw [collectFrom]
    simp [leadsToDirectory]
    tauto
  | directory inner =>
    rw [collectFrom]
    simp [leadsToDirectory]

/-- **What is collected** below a directory. -/
theorem mem_collect_iff {p : String} (h : (Entry.directory entries).Proper) :
    p ∈ fs.collect s root entries ↔
      ∃ dirs name, Listed fs s root (.directory entries) dirs name ∧
        p = Path.joinAll root (dirs ++ [name]) := by
  generalize htop : Entry.directory entries = top at h
  induction h generalizing entries root with
  | file content => cases htop
  | link target => cases htop
  | directory distinct names below ih =>
    cases htop
    rw [collect_eq_flatMap]
    simp only [List.mem_flatMap, mem_collectFrom_iff]
    constructor
    · rintro ⟨⟨name, e⟩, hmem, ⟨hleads, hwants, rfl⟩ | ⟨inner, rfl, henters, hp⟩⟩
      · have hlookup := (Entry.lookup_eq_some_iff distinct).mpr hmem
        exact ⟨[], name, listed_nil_iff.mpr ⟨e, hlookup, hleads, hwants⟩, rfl⟩
      · have hlookup := (Entry.lookup_eq_some_iff distinct).mpr hmem
        obtain ⟨dirs, name', hlisted, rfl⟩ := (ih _ hmem rfl).mp hp
        exact ⟨name :: dirs, name', listed_cons_iff.mpr ⟨inner, hlookup, henters, hlisted⟩, rfl⟩
    · rintro ⟨dirs, name, hlisted, rfl⟩
      cases dirs with
      | nil =>
        obtain ⟨e, hlookup, hleads, hwants⟩ := listed_nil_iff.mp hlisted
        exact ⟨(name, e), Entry.mem_of_lookup hlookup, .inl ⟨hleads, hwants, rfl⟩⟩
      | cons d dirs =>
        obtain ⟨inner, hlookup, henters, hlisted⟩ := listed_cons_iff.mp hlisted
        have hmem := Entry.mem_of_lookup hlookup
        exact ⟨(d, .directory inner), hmem,
          .inr ⟨inner, rfl, henters, (ih _ hmem rfl).mpr ⟨dirs, name, hlisted, rfl⟩⟩⟩

/-- A path that is collected below a directory tells through which of the entries it leads. -/
theorem exists_of_mem_collectFrom {p : String} {m : String × Entry} (hname : Path.IsName m.1)
    (hproper : m.2.Proper) (h : p ∈ fs.collectFrom s (Path.join root m.1) m.1 m.2) :
    ∃ names, (∀ n ∈ m.1 :: names, Path.IsName n) ∧ p = Path.joinAll root (m.1 :: names) := by
  obtain ⟨name, e⟩ := m
  rcases mem_collectFrom_iff.mp h with ⟨-, -, rfl⟩ | ⟨inner, rfl, -, hp⟩
  · refine ⟨[], fun n hn => ?_, rfl⟩
    rw [List.mem_singleton.mp hn]
    exact hname
  · obtain ⟨dirs, name', hlisted, rfl⟩ := (mem_collect_iff hproper).mp hp
    refine ⟨dirs ++ [name'], fun n hn => ?_, rfl⟩
    rcases List.mem_cons.mp hn with rfl | hn
    · exact hname
    · exact hlisted.isName hproper n hn

/-- **No path is collected twice**. -/
theorem collect_nodup (h : (Entry.directory entries).Proper) :
    (fs.collect s root entries).Nodup := by
  generalize htop : Entry.directory entries = top at h
  induction h generalizing entries root with
  | file content => cases htop
  | link target => cases htop
  | directory distinct names below ih =>
    cases htop
    rw [collect_eq_flatMap, List.nodup_flatMap]
    constructor
    · rintro ⟨name, e⟩ hmem
      cases e with
      | file content =>
        rw [collectFrom]
        split <;> simp
      | link target =>
        rw [collectFrom]
        split <;> simp
      | directory inner =>
        rw [collectFrom]
        split
        · exact ih _ hmem rfl
        · exact List.nodup_nil
    · refine (List.pairwise_map.mp distinct).imp_of_mem ?_
      intro m m' hm hm' hne p hp hp'
      obtain ⟨ns, hns, rfl⟩ := exists_of_mem_collectFrom (names m hm) (below m hm) hp
      obtain ⟨ns', hns', heq⟩ := exists_of_mem_collectFrom (names m' hm') (below m' hm') hp'
      have hcons := Path.joinAll_inj hns hns' (List.cons_ne_nil _ _) (List.cons_ne_nil _ _) heq
      exact hne (List.cons.inj hcons).1

/-! ## Walks -/

/-- Paths that were put in order are in order. -/
theorem inOrder_ordered (paths : List String) : (inOrder paths).Pairwise (· ≤ ·) := by
  have hsorted := @List.pairwise_mergeSort _ (fun p q : String => decide (p ≤ q))
    (fun p q r hpq hqr => by simpa using le_trans (by simpa using hpq) (by simpa using hqr))
    (fun p q => by simpa using le_total p q) paths
  simpa [inOrder] using hsorted

/-- What is put in order is strictly increasing, if nothing comes twice. -/
theorem inOrder_strict {paths : List String} (h : paths.Nodup) :
    (inOrder paths).Pairwise (· < ·) := by
  have hnodup : (inOrder paths).Nodup := (List.mergeSort_perm paths _).nodup_iff.mpr h
  exact ((inOrder_ordered paths).and hnodup).imp fun hpq => lt_of_le_of_ne hpq.1 hpq.2

/-- Only one order is the right one. -/
theorem inOrder_eq_of_perm {paths ordered : List String} (h : paths.Perm ordered)
    (hordered : ordered.Pairwise (· ≤ ·)) : inOrder paths = ordered :=
  List.Perm.eq_of_pairwise (fun _ _ _ _ => le_antisymm) (inOrder_ordered paths) hordered
    ((List.mergeSort_perm paths _).trans h)

/-- What is collected below a directory, put in order, is what a walk from there lists. -/
theorem walk_of_collect {entries : List (String × Entry)} {found ordered : List String}
    (hresolve : fs.resolve root = .ok (.directory entries))
    (hcollect : fs.collect s root entries = found) (hperm : found.Perm ordered)
    (hordered : ordered.Pairwise (· ≤ ·)) : fs.walk s root = .ok ordered := by
  rw [walk, hresolve]
  dsimp only
  rw [hcollect, inOrder_eq_of_perm hperm hordered]

/-- A walk from a path with a zero character fails. -/
theorem walk_eq_zeroCharacter (h : '\x00' ∈ root.toList) :
    fs.walk s root = .error .zeroCharacter := by
  rw [walk, (resolve_eq_zeroCharacter_iff fs).mpr h]

/-- From a path that leads neither to a file nor to a directory nothing is listed. -/
theorem walk_eq_nil (hfile : fs.isFile root = false) (hdirectory : fs.isDirectory root = false)
    (hzero : '\x00' ∉ root.toList) : fs.walk s root = .ok [] := by
  rw [← resolve_eq_zeroCharacter_iff fs] at hzero
  unfold isFile at hfile
  unfold isDirectory at hdirectory
  rw [walk]
  cases hresolve : fs.resolve root with
  | ok e =>
    rw [hresolve] at hfile hdirectory
    cases e with
    | file content => cases hfile
    | directory entries => cases hdirectory
    | link target => rfl
  | error err =>
    rw [hresolve] at hzero
    cases err with
    | zeroCharacter => exact absurd rfl hzero
    | _ => rfl

/-- The paths that a walk lists hold no zero character. -/
theorem not_zero_mem_of_walk {found : List String} {p : String} (h : fs.Proper)
    (hfound : fs.walk s root = .ok found) (hp : p ∈ found) : '\x00' ∉ p.toList := by
  have hroot : '\x00' ∉ root.toList := by
    intro hzero
    rw [walk_eq_zeroCharacter hzero] at hfound
    cases hfound
  rw [walk] at hfound
  cases hresolve : fs.resolve root with
  | error err =>
    rw [hresolve] at hfound
    cases err <;> cases hfound <;> cases hp
  | ok e =>
    rw [hresolve] at hfound
    cases e with
    | link target =>
      cases hfound
      cases hp
    | file content =>
      cases hfound
      split at hp
      · rw [List.mem_singleton.mp hp]
        exact hroot
      · cases hp
    | directory entries =>
      cases hfound
      have hproper : (Entry.directory entries).Proper := h.resolve hresolve
      rw [inOrder, List.mem_mergeSort, mem_collect_iff hproper] at hp
      obtain ⟨dirs, name, hlisted, rfl⟩ := hp
      exact Path.not_zero_mem_joinAll hroot (hlisted.isName hproper)

/-- **What a walk lists**, of a proper file system. A path that leads to a file is listed by itself,
if its last name is that of a wanted file. From a path that leads to a directory the strictly
increasing list of the paths is given to which wanted entries lead that are to be listed; on the way
to them the names of directories are looked at, but that of the path itself is not. A path that
leads to neither lists nothing, unless it holds a zero character, which no path does. -/
theorem walk_eq {fs : FileSystem} (h : fs.Proper) (s : Selection) (root : String) :
    (∀ content, fs.resolve root = .ok (.file content) →
      ((∃ extension ∈ s.extensions,
          LowerCase.lower extension = LowerCase.lower (Path.suffix (Path.lastName root))) →
        fs.walk s root = .ok [root]) ∧
      ((¬ ∃ extension ∈ s.extensions,
          LowerCase.lower extension = LowerCase.lower (Path.suffix (Path.lastName root))) →
        fs.walk s root = .ok [])) ∧
    (∀ entries, fs.resolve root = .ok (.directory entries) →
      ∃ paths, fs.walk s root = .ok paths ∧ paths.Pairwise (· < ·) ∧
        ∀ p, p ∈ paths ↔ ∃ dirs name, Listed fs s root (.directory entries) dirs name ∧
          p = Path.joinAll root (dirs ++ [name])) ∧
    (fs.isFile root = false → fs.isDirectory root = false →
      ('\x00' ∉ root.toList → fs.walk s root = .ok []) ∧
      ('\x00' ∈ root.toList → fs.walk s root = .error .zeroCharacter)) := by
  refine ⟨?_, ?_, ?_⟩
  · intro content hfile
    rw [walk, hfile, ← Selection.wants_iff]
    exact ⟨fun hwants => by rw [if_pos hwants], fun hwants => by rw [if_neg hwants]⟩
  · intro entries hdirectory
    have hproper : (Entry.directory entries).Proper := h.resolve hdirectory
    refine ⟨inOrder (fs.collect s root entries), ?_, inOrder_strict (collect_nodup hproper), ?_⟩
    · rw [walk, hdirectory]
    · intro p
      rw [inOrder, List.mem_mergeSort, mem_collect_iff hproper]
  · intro hfile hdirectory
    exact ⟨walk_eq_nil hfile hdirectory, walk_eq_zeroCharacter⟩

/-- A directory with names that are not in the order of their paths, hidden and excluded ones, and
links: to itself, to nothing, and to a directory. -/
def mixedEntries : List (String × Entry) := [
  ("a", .directory [("y.ts", .file (some .empty))]),
  ("a-b", .directory [("X.TSX", .file (some .empty)), ("notes.md", .file (some .empty))]),
  (".hidden.ts", .file (some .empty)),
  (".git", .directory [("hook.js", .file (some .empty))]),
  ("dist", .directory [("bundle.js", .file (some .empty))]),
  ("loop.ts", .link "loop.ts"),
  ("gone.js", .link "nowhere"),
  ("up.ts", .link "..")]

/-- A file system with that directory. -/
def mixed : FileSystem := ⟨[("dist", .directory mixedEntries)], []⟩

/-- Its names are proper. -/
theorem mixed_proper : mixed.Proper := by
  have hentries : ∀ m ∈ mixedEntries, m.2.Proper := by
    simp only [mixedEntries, List.forall_mem_cons]
    exact ⟨.of_flat (by decide) (by decide) (by decide),
      .of_flat (by decide) (by decide) (by decide), .file _,
      .of_flat (by decide) (by decide) (by decide),
      .of_flat (by decide) (by decide) (by decide), .link _, .link _, .link _,
      fun m hm => absurd hm List.not_mem_nil⟩
  refine .directory (by decide) (by decide) (List.forall_mem_singleton.mpr ?_)
  exact .directory (by decide) (by decide) hentries

/-- `walk_eq` there. A hyphen comes before a slash, and the excluded name of the path itself does
not matter. -/
theorem walk_mixed :
    mixed.Proper ∧ mixed.resolve "dist" = .ok (.directory mixedEntries) ∧
      mixed.walk .standard "dist" = .ok ["dist/.hidden.ts", "dist/a-b/X.TSX", "dist/a/y.ts",
        "dist/gone.js", "dist/loop.ts"] ∧
      ∀ p, p ∈ ["dist/.hidden.ts", "dist/a-b/X.TSX", "dist/a/y.ts", "dist/gone.js",
          "dist/loop.ts"] ↔
        ∃ dirs name, Listed mixed .standard "dist" (.directory mixedEntries) dirs name ∧
          p = Path.joinAll "dist" (dirs ++ [name]) := by
  have hresolve : mixed.resolve "dist" = .ok (.directory mixedEntries) := rfl
  have hcollect : mixed.collect .standard "dist" mixedEntries = ["dist/a/y.ts", "dist/a-b/X.TSX",
      "dist/.hidden.ts", "dist/loop.ts", "dist/gone.js"] := by
    decide +kernel
  have hwalk : mixed.walk .standard "dist" = .ok ["dist/.hidden.ts", "dist/a-b/X.TSX",
      "dist/a/y.ts", "dist/gone.js", "dist/loop.ts"] :=
    walk_of_collect hresolve hcollect (by decide) (by decide)
  obtain ⟨paths, hpaths, -, hmem⟩ := (walk_eq mixed_proper .standard "dist").2.1 _ hresolve
  rw [hwalk, Except.ok.injEq] at hpaths
  rw [← hpaths] at hmem
  exact ⟨mixed_proper, hresolve, hwalk, hmem⟩

/-- A path with a zero character leads neither to a file nor to a directory, but its walk does not
list nothing: it fails. -/
theorem walk_zeroCharacter_ne_nil :
    mixed.isFile "a\x00b" = false ∧ mixed.isDirectory "a\x00b" = false ∧
      mixed.walk .standard "a\x00b" ≠ .ok [] := by
  decide +kernel

end FileSystem

end MessageHarvest
