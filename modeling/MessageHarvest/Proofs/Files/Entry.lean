import MessageHarvest.Files.Entry
import MessageHarvest.Proofs.Files.Path

/-!
# Proper file systems

In a proper file system the entries of each directory have names of their own, and no name could
be taken for more than one name of a path.

* `Entry.Proper`, `FileSystem.Proper`: that this holds at and below an entry, and everywhere.
* `Entry.lookup_eq_some_iff`: a name leads to just the entry that has it.
* `Entry.Proper.descend`: what lies below a proper entry is proper, and its place consists of names.
* `FileSystem.resolve_eq_zeroCharacter_iff`: a path is refused as no path for one reason only.
* `FileSystem.resolve_of_long_target`: what a link to a name that is too long leads to.
-/

namespace MessageHarvest

namespace Entry

/-- Each directory at or below the entry has entries with different names, which may be names. -/
inductive Proper : Entry → Prop
  | file (content : Option ByteArray) : Proper (.file content)
  | link (target : String) : Proper (.link target)
  | directory {entries : List (String × Entry)} (distinct : (entries.map (·.1)).Nodup)
      (names : ∀ m ∈ entries, Path.IsName m.1) (below : ∀ m ∈ entries, Proper m.2) :
      Proper (.directory entries)

/-- Files and links hold no names, so that they are proper. -/
theorem Proper.of_isDirectory {e : Entry} (h : e.isDirectory = false) : e.Proper := by
  cases e with
  | file content => exact .file content
  | link target => exact .link target
  | directory entries => cases h

/-- A directory that holds no other needs only different names. -/
theorem Proper.of_flat {entries : List (String × Entry)} (distinct : (entries.map (·.1)).Nodup)
    (names : ∀ m ∈ entries, Path.IsName m.1) (flat : ∀ m ∈ entries, m.2.isDirectory = false) :
    (Entry.directory entries).Proper :=
  .directory distinct names fun m hm => .of_isDirectory (flat m hm)

/-! ## Entries of a directory -/

/-- The first entry of a name is the one that counts. -/
theorem lookup_cons (name : String) (m : String × Entry) (entries : List (String × Entry)) :
    lookup name (m :: entries) = if m.1 = name then some m.2 else lookup name entries := by
  rw [lookup, List.find?_cons]
  by_cases h : m.1 = name
  · simp [h]
  · simp [h, lookup]

/-- What a name stands for is among the entries. -/
theorem mem_of_lookup {name : String} {e : Entry} {entries : List (String × Entry)}
    (h : lookup name entries = some e) : (name, e) ∈ entries := by
  induction entries with
  | nil => cases h
  | cons m entries ih =>
    rw [lookup_cons] at h
    split at h
    · next hname =>
      cases h
      rw [← hname]
      exact List.mem_cons_self
    · exact List.mem_cons_of_mem m (ih h)

/-- **A name leads to the entry that has it**, if no two entries have the same name. -/
theorem lookup_eq_some_iff {name : String} {e : Entry} {entries : List (String × Entry)}
    (h : (entries.map (·.1)).Nodup) : lookup name entries = some e ↔ (name, e) ∈ entries := by
  refine ⟨mem_of_lookup, fun hmem => ?_⟩
  induction entries with
  | nil => cases hmem
  | cons m entries ih =>
    rw [List.map_cons, List.nodup_cons] at h
    rw [lookup_cons]
    rcases List.mem_cons.mp hmem with rfl | hmem
    · exact if_pos rfl
    · have hne : m.1 ≠ name := by
        rintro rfl
        exact h.1 (List.mem_map.mpr ⟨_, hmem, rfl⟩)
      rw [if_neg hne]
      exact ih h.2 hmem

/-! ## Entries below an entry -/

/-- No names lead to the entry itself. -/
@[simp] theorem descend_nil (e : Entry) : e.descend [] = some e := by
  cases e <;> rfl

/-- A name leads on only from a directory that holds it. -/
theorem descend_cons {e e' : Entry} {name : String} {names : List String} :
    e.descend (name :: names) = some e' ↔
      ∃ entries inner, e = .directory entries ∧ lookup name entries = some inner ∧
        inner.descend names = some e' := by
  cases e with
  | file content => simp [descend]
  | link target => simp [descend]
  | directory entries =>
    rw [descend]
    cases hinner : lookup name entries with
    | none => simp [hinner]
    | some inner => simp [hinner]

/-- What lies below a proper entry is proper, and the way to it consists of names. -/
theorem Proper.descend {e e' : Entry} {names : List String} (h : e.Proper)
    (hdescend : e.descend names = some e') :
    e'.Proper ∧ ∀ name ∈ names, Path.IsName name := by
  induction names generalizing e with
  | nil =>
    rw [descend_nil, Option.some_inj] at hdescend
    exact ⟨hdescend ▸ h, fun _ hn => absurd hn List.not_mem_nil⟩
  | cons name names ih =>
    obtain ⟨entries, inner, rfl, hlookup, hinner⟩ := descend_cons.mp hdescend
    have hmem := mem_of_lookup hlookup
    cases h with
    | directory _ hnames hbelow =>
      obtain ⟨hproper, hrest⟩ := ih (hbelow _ hmem) hinner
      refine ⟨hproper, fun n hn => ?_⟩
      rcases List.mem_cons.mp hn with rfl | hn
      · exact hnames _ hmem
      · exact hrest n hn

end Entry

namespace FileSystem

/-- All directories are proper. -/
def Proper (fs : FileSystem) : Prop :=
  (Entry.directory fs.entries).Proper

variable {fs : FileSystem} {p : String}

/-- A path leads to the entry at its place, if one is there. -/
theorem resolve_of_place {place : List String} (h : fs.place p = .ok place) :
    fs.resolve p =
      match fs.entryAt? place with
      | some e => .ok e
      | none => .error .notFound := by
  rw [resolve, h]
  rfl

/-- A path without a place leads nowhere, for the same reason. -/
theorem resolve_of_place_error {err : Error} (h : fs.place p = .error err) :
    fs.resolve p = .error err := by
  rw [resolve, h]
  rfl

/-- What a path leads to stands at some place. -/
theorem exists_place_of_resolve {e : Entry} (h : fs.resolve p = .ok e) :
    ∃ place, fs.place p = .ok place ∧ fs.entryAt? place = some e := by
  cases hplace : fs.place p with
  | error err =>
    rw [resolve_of_place_error hplace] at h
    cases h
  | ok place =>
    rw [resolve_of_place hplace] at h
    cases hentry : fs.entryAt? place with
    | none =>
      rw [hentry] at h
      cases h
    | some e' =>
      rw [hentry] at h
      cases h
      exact ⟨place, rfl, hentry⟩

/-- What a path leads to in a proper file system is proper. -/
theorem Proper.resolve {e : Entry} (h : fs.Proper) (he : fs.resolve p = .ok e) : e.Proper := by
  obtain ⟨place, -, hplace⟩ := exists_place_of_resolve he
  exact (Entry.Proper.descend h hplace).1

/-! ## Zero characters -/

/-- Steps do not fail because of a zero character: the path was checked before. -/
theorem advance_ne_zeroCharacter (place steps : List String) :
    fs.advance place steps ≠ .failed .zeroCharacter := by
  induction steps generalizing place with
  | nil => simp [advance]
  | cons name rest ih =>
    rw [advance]
    split
    · simp
    · split
      · exact ih _
      split
      · exact ih _
      split
      · simp
      split
      · split <;> simp
      · simp
      · exact ih _
    · simp

/-- Nor does following links. -/
theorem follow_ne_zeroCharacter (links : Nat) (place todo : List String) :
    fs.follow links place todo ≠ .error .zeroCharacter := by
  induction links generalizing place todo with
  | zero =>
    rw [follow]
    split
    · simp
    · next e he =>
      intro h
      cases h
      exact advance_ne_zeroCharacter _ _ he
    · simp
  | succ links ih =>
    rw [follow]
    split
    · simp
    · next e he =>
      intro h
      cases h
      exact advance_ne_zeroCharacter _ _ he
    · exact ih _ _

/-- A path has no place for that reason iff it holds a zero character. -/
theorem place_eq_zeroCharacter_iff (fs : FileSystem) :
    fs.place p = .error .zeroCharacter ↔ '\x00' ∈ p.toList := by
  have hpermit : permit p = .error .zeroCharacter ↔ '\x00' ∈ p.toList := by
    unfold permit
    by_cases hzero : '\x00' ∈ p.toList
    · simp [hzero]
    · rw [if_neg (by simpa using hzero)]
      split
      · simp [hzero]
      split <;> simp [hzero]
  rw [← hpermit, place]
  cases permit p with
  | error err =>
    constructor
    · intro h
      cases h
      rfl
    · intro h
      cases h
      rfl
  | ok u =>
    constructor
    · intro h
      exact absurd h (follow_ne_zeroCharacter _ _ _)
    · intro h
      cases h

/-- **A path is no path** if it holds a zero character, and for no other reason. -/
theorem resolve_eq_zeroCharacter_iff (fs : FileSystem) :
    fs.resolve p = .error .zeroCharacter ↔ '\x00' ∈ p.toList := by
  rw [← place_eq_zeroCharacter_iff fs]
  cases hplace : fs.place p with
  | error err => rw [resolve_of_place_error hplace]; simp
  | ok place =>
    rw [resolve_of_place hplace]
    cases fs.entryAt? place <;> simp

/-- Nothing is read for that reason iff the path holds a zero character. -/
theorem read_eq_zeroCharacter_iff (fs : FileSystem) :
    fs.read p = .error .zeroCharacter ↔ '\x00' ∈ p.toList := by
  rw [← resolve_eq_zeroCharacter_iff fs, read]
  cases fs.resolve p with
  | error err => simp [bind, Except.bind]
  | ok e =>
    -- what stands at the path may be of the wrong kind, or not be read, but the path is one
    constructor
    · intro h
      cases e with
      | file content =>
        cases content with
        | none => cases h
        | some bytes => cases h
      | directory entries => cases h
      | link target => cases h
    · intro h
      cases h

/-! ## Names that are too long -/

/-- A first step with a name that is too long fails, whatever is in the directory. -/
theorem advance_of_long {name : String} (h : name.utf8ByteSize > nameLimit) (rest : List String) :
    fs.advance [] (name :: rest) = .failed .nameTooLong := by
  have hdot : name ≠ "." := by
    rintro rfl
    exact absurd h (by decide)
  have hdots : name ≠ ".." := by
    rintro rfl
    exact absurd h (by decide)
  have hentry : fs.entryAt? [] = some (.directory fs.entries) := Entry.descend_nil _
  rw [advance, hentry]
  dsimp only
  rw [if_neg hdot, if_neg hdots, if_pos h]

/-- A link in the root directory to a name that is too long leads nowhere, and for that reason. -/
theorem resolve_of_long_target {name target : String} (hhere : fs.here = [])
    (hname : Path.IsName name) (hdot : name ≠ "." ∧ name ≠ "..")
    (hsize : name.utf8ByteSize ≤ nameLimit)
    (hlink : Entry.lookup name fs.entries = some (.link target)) (htarget : Path.IsName target)
    (hlong : target.utf8ByteSize > nameLimit) : fs.resolve name = .error .nameTooLong := by
  have hpermit : permit name = .ok () := by
    have hempty : name.isEmpty = false := by
      rw [Bool.eq_false_iff, ne_eq, String.isEmpty_iff]
      exact hname.ne_empty
    have hlimit : nameLimit < pathLimit := by decide
    rw [permit, if_neg (by simpa using hname.no_zero), hempty, if_neg Bool.false_ne_true,
      if_neg (by omega)]
  have hadvance : fs.advance [] [name] = .atLink [] target [] := by
    have hentry : fs.entryAt? [] = some (.directory fs.entries) := Entry.descend_nil _
    rw [advance, hentry]
    dsimp only
    rw [if_neg hdot.1, if_neg hdot.2, if_neg (by omega), hlink]
  have hstart : ∀ p, Path.start [] p = [] := fun p => ite_self _
  have hplace : fs.place name = .error .nameTooLong := by
    rw [place, hpermit]
    dsimp only [bind, Except.bind]
    rw [hhere, hstart, hname.steps, linkLimit, follow, hadvance]
    dsimp only
    rw [hstart, List.append_nil, htarget.steps, follow, advance_of_long hlong]
  exact resolve_of_place_error hplace

end FileSystem

end MessageHarvest
