import MessageHarvest.Proofs.Files.Walk
import Mathlib.Data.List.Induction

/-!
# Following listed paths

The path of a listed file is the path at which the walk began, extended by names. It is followed in
the same way up to there, with as many links, and then along the directories that the walk went
through. So it leads to what was listed, unless it is too long or what was listed is a link.

* `Path.IsStep`, `FileSystem.Accessible`: names that lead, as a step, to the entry that has them;
  file systems in which all names do.
* `FileSystem.advance_append` and `FileSystem.exists_follow`: more steps go on where the others led.
* `FileSystem.resolve_ne_link`: a path never leads to a link.
* **Listed files are there** (`FileSystem.resolve_joinAll`), and what is there and listed is listed
  again from its own path (`FileSystem.Listed.walk_again`).
-/

namespace MessageHarvest

/-- A name that, as a step, leads to the entry that has it. -/
structure Path.IsStep (name : String) : Prop where
  not_stay : name ≠ "."
  not_back : name ≠ ".."
  short : name.utf8ByteSize ≤ FileSystem.nameLimit

instance (name : String) : Decidable (Path.IsStep name) :=
  decidable_of_iff (name ≠ "." ∧ name ≠ ".." ∧ name.utf8ByteSize ≤ FileSystem.nameLimit)
    ⟨fun h => ⟨h.1, h.2.1, h.2.2⟩, fun h => ⟨h.not_stay, h.not_back, h.short⟩⟩

namespace Entry

/-- Each name at or below the entry leads, as a step, to the entry that has it. -/
inductive Accessible : Entry → Prop
  | file (content : Option ByteArray) : Accessible (.file content)
  | link (target : String) : Accessible (.link target)
  | directory {entries : List (String × Entry)} (names : ∀ m ∈ entries, Path.IsStep m.1)
      (below : ∀ m ∈ entries, Accessible m.2) : Accessible (.directory entries)

/-- A directory that holds no other needs only such names. -/
theorem Accessible.of_flat {entries : List (String × Entry)}
    (names : ∀ m ∈ entries, Path.IsStep m.1) (flat : ∀ m ∈ entries, m.2.isDirectory = false) :
    (Entry.directory entries).Accessible := by
  refine .directory names fun m hm => ?_
  have hflat := flat m hm
  cases he : m.2 with
  | file content => exact .file content
  | link target => exact .link target
  | directory entries =>
    rw [he] at hflat
    cases hflat

/-- What lies below an accessible entry is accessible, and the way to it consists of steps. -/
theorem Accessible.descend {e e' : Entry} {names : List String} (h : e.Accessible)
    (hdescend : e.descend names = some e') :
    e'.Accessible ∧ ∀ name ∈ names, Path.IsStep name := by
  induction names generalizing e with
  | nil =>
    rw [descend_nil, Option.some_inj] at hdescend
    exact ⟨hdescend ▸ h, fun _ hn => absurd hn List.not_mem_nil⟩
  | cons name names ih =>
    obtain ⟨entries, inner, rfl, hlookup, hinner⟩ := descend_cons.mp hdescend
    have hmem := mem_of_lookup hlookup
    cases h with
    | directory hnames hbelow =>
      obtain ⟨haccessible, hrest⟩ := ih (hbelow _ hmem) hinner
      exact ⟨haccessible, List.forall_mem_cons.mpr ⟨hnames _ hmem, hrest⟩⟩

/-- The names of two ways in a row lead where the second leads from the end of the first. -/
theorem descend_append (e : Entry) (names more : List String) :
    e.descend (names ++ more) = (e.descend names).bind (·.descend more) := by
  induction names generalizing e with
  | nil => rw [List.nil_append, descend_nil, Option.bind_some]
  | cons name names ih =>
    cases e with
    | file content => rfl
    | link target => rfl
    | directory entries =>
      rw [List.cons_append, descend, descend]
      cases lookup name entries with
      | none => rfl
      | some inner => exact ih inner

/-- What lies below an entry lies in a directory. -/
theorem descend_concat {e e' : Entry} {names : List String} {name : String} :
    e.descend (names ++ [name]) = some e' ↔
      ∃ entries, e.descend names = some (.directory entries) ∧ lookup name entries = some e' := by
  rw [descend_append, Option.bind_eq_some_iff]
  constructor
  · rintro ⟨middle, hmiddle, h⟩
    obtain ⟨entries, inner, rfl, hlookup, hinner⟩ := descend_cons.mp h
    rw [descend_nil, Option.some_inj] at hinner
    exact ⟨entries, hmiddle, hinner ▸ hlookup⟩
  · rintro ⟨entries, hentries, hlookup⟩
    exact ⟨_, hentries, descend_cons.mpr ⟨entries, e', rfl, hlookup, descend_nil e'⟩⟩

end Entry

namespace FileSystem

/-- All names lead, as a step, to the entry that has them. -/
def Accessible (fs : FileSystem) : Prop :=
  (Entry.directory fs.entries).Accessible

variable {fs : FileSystem} {place : List String} {links : Nat} {p root : String}

/-! ## Places -/

/-- The entry at a longer place is found from the entry at the shorter one. -/
theorem entryAt?_append (fs : FileSystem) (place names : List String) :
    fs.entryAt? (place ++ names) = (fs.entryAt? place).bind (·.descend names) :=
  Entry.descend_append _ place names

/-- The entry at a place in a directory is the one that its last name stands for there. -/
theorem entryAt?_concat {entries : List (String × Entry)}
    (h : fs.entryAt? place = some (.directory entries)) (name : String) :
    fs.entryAt? (place ++ [name]) = Entry.lookup name entries := by
  rw [entryAt?_append, h, Option.bind_some, Entry.descend]
  cases Entry.lookup name entries with
  | none => rfl
  | some inner => exact Entry.descend_nil inner

/-- Where a directory is there is no link. -/
theorem entryAt?_ne_link {entries : List (String × Entry)}
    (h : fs.entryAt? place = some (.directory entries)) (target : String) :
    fs.entryAt? place ≠ some (.link target) := by
  intro hlink
  rw [h] at hlink
  cases hlink

/-- Above a directory there is one. -/
theorem exists_entryAt?_dropLast {entries : List (String × Entry)}
    (h : fs.entryAt? place = some (.directory entries)) :
    ∃ outer, fs.entryAt? place.dropLast = some (.directory outer) := by
  cases place using List.reverseRecOn with
  | nil => exact ⟨entries, h⟩
  | append_singleton place name =>
    obtain ⟨outer, houter, -⟩ := Entry.descend_concat.mp h
    exact ⟨outer, by rw [List.dropLast_concat]; exact houter⟩

/-! ## Steps -/

/-- A step along a name that leads to a directory or a file. -/
theorem advance_name {entries : List (String × Entry)} {e : Entry} {name : String}
    (h : fs.entryAt? place = some (.directory entries)) (hname : Path.IsStep name)
    (hlookup : Entry.lookup name entries = some e) (hlink : ∀ target, e ≠ .link target)
    (rest : List String) :
    fs.advance place (name :: rest) = fs.advance (place ++ [name]) rest := by
  rw [advance, h]
  dsimp only
  rw [if_neg hname.not_stay, if_neg hname.not_back, if_neg (Nat.not_lt.mpr hname.short), hlookup]
  cases e with
  | link target => exact absurd rfl (hlink target)
  | file content => rfl
  | directory entries => rfl

/-- **More steps** go on from where the others have led. -/
theorem advance_append (fs : FileSystem) (place todo more : List String) :
    fs.advance place (todo ++ more) =
      match fs.advance place todo with
      | .arrived place' => fs.advance place' more
      | .failed e => .failed e
      | .atLink place' target rest => .atLink place' target (rest ++ more) := by
  induction todo generalizing place with
  | nil => rfl
  | cons name rest ih =>
    rw [List.cons_append, advance, advance]
    cases hentry : fs.entryAt? place with
    | none => rfl
    | some e =>
      cases e with
      | file content => rfl
      | link target => rfl
      | directory entries =>
        dsimp only
        by_cases hstay : name = "."
        · rw [if_pos hstay, if_pos hstay, ih]
        rw [if_neg hstay, if_neg hstay]
        by_cases hback : name = ".."
        · rw [if_pos hback, if_pos hback, ih]
        rw [if_neg hback, if_neg hback]
        by_cases hlong : name.utf8ByteSize > nameLimit
        · rw [if_pos hlong, if_pos hlong]
        rw [if_neg hlong, if_neg hlong]
        cases hlookup : Entry.lookup name entries with
        | none =>
          -- nothing is there, so only the last step may lead there
          have hnothing : fs.entryAt? (place ++ [name]) = none := by
            rw [entryAt?_concat hentry, hlookup]
          cases rest with
          | cons next rest => rfl
          | nil =>
            cases more with
            | nil => rfl
            | cons next more =>
              change _ = fs.advance (place ++ [name]) (next :: more)
              rw [advance, hnothing]
              rfl
        | some e =>
          cases e with
          | file content => exact ih _
          | directory entries => exact ih _
          | link target => rfl

/-- Where steps get equally far, they lead to the same place. -/
theorem follow_eq_of_advance_eq {place' todo todo' : List String}
    (h : fs.advance place todo = fs.advance place' todo') (links : Nat) :
    fs.follow links place todo = fs.follow links place' todo' := by
  rw [follow.eq_def, follow.eq_def fs links place' todo', h]

/-- **More steps** go on from where the others have led, with the links that are left. -/
theorem exists_follow {todo more target : List String}
    (h : fs.follow links place (todo ++ more) = .ok target) :
    ∃ left place', ∀ more',
      fs.follow links place (todo ++ more') = fs.follow left place' more' := by
  induction links generalizing place todo with
  | zero =>
    cases hadvance : fs.advance place todo with
    | arrived place' =>
      exact ⟨0, place', fun more' => follow_eq_of_advance_eq (by rw [advance_append, hadvance]) 0⟩
    | failed e =>
      rw [follow, advance_append, hadvance] at h
      cases h
    | atLink place' target' rest =>
      rw [follow, advance_append, hadvance] at h
      cases h
  | succ links ih =>
    cases hadvance : fs.advance place todo with
    | arrived place' =>
      exact ⟨links + 1, place', fun more' =>
        follow_eq_of_advance_eq (by rw [advance_append, hadvance]) (links + 1)⟩
    | failed e =>
      rw [follow, advance_append, hadvance] at h
      cases h
    | atLink place' target' rest =>
      have hlink : ∀ more', fs.follow (links + 1) place (todo ++ more') =
          fs.follow links (Path.start place' target') ((Path.steps target' ++ rest) ++ more') := by
        intro more'
        rw [follow, advance_append, hadvance, List.append_assoc]
      rw [hlink] at h
      obtain ⟨left, place'', hleft⟩ := ih h
      exact ⟨left, place'', fun more' => (hlink more').trans (hleft more')⟩

/-- Steps along the names of directories. -/
theorem advance_along {top : Entry} {entries : List (String × Entry)} {dirs : List String}
    (h : fs.entryAt? place = some top) (hdirs : top.descend dirs = some (.directory entries))
    (hsteps : ∀ d ∈ dirs, Path.IsStep d) (rest : List String) :
    fs.advance place (dirs ++ rest) = fs.advance (place ++ dirs) rest := by
  induction dirs generalizing place top with
  | nil => rw [List.append_nil, List.nil_append]
  | cons d dirs ih =>
    obtain ⟨hd, hsteps⟩ := List.forall_mem_cons.mp hsteps
    obtain ⟨outer, inner, rfl, hlookup, hinner⟩ := Entry.descend_cons.mp hdirs
    have hlink : ∀ target, inner ≠ .link target := by
      rintro target rfl
      cases dirs <;> cases hinner
    have hnext : fs.entryAt? (place ++ [d]) = some inner := by
      rw [entryAt?_concat h, hlookup]
    rw [List.cons_append, advance_name h hd hlookup hlink, ih hnext hinner hsteps,
      List.append_assoc, List.singleton_append]

/-! ## Paths -/

/-- Which paths may be followed at all. -/
theorem permit_eq_ok_iff :
    permit p = .ok () ↔ '\x00' ∉ p.toList ∧ p ≠ "" ∧ p.utf8ByteSize < pathLimit := by
  unfold permit
  by_cases hzero : '\x00' ∈ p.toList
  · simp [hzero]
  by_cases hempty : p = ""
  · simp [hempty]
  by_cases hlong : pathLimit ≤ p.utf8ByteSize
  · simp [hzero, hempty, hlong]
  · simp [hzero, hempty, hlong]
    omega

/-- A path that may be followed leads where its steps lead. -/
theorem place_of_permit (h : permit p = .ok ()) :
    fs.place p = fs.follow linkLimit (Path.start fs.here p) (Path.steps p) := by
  rw [FileSystem.place, h]
  rfl

/-- Only a path that may be followed has a place. -/
theorem permit_of_place (h : fs.place p = .ok place) : permit p = .ok () := by
  cases hpermit : permit p with
  | ok u => rfl
  | error e =>
    rw [FileSystem.place, hpermit] at h
    cases h

/-- From where a path leads to a directory more steps go on. That the path may end in a slash makes
no difference. -/
theorem exists_follow_of_place {entries : List (String × Entry)} (h : fs.place root = .ok place)
    (hentry : fs.entryAt? place = some (.directory entries)) :
    ∃ left, ∀ more, fs.follow linkLimit (Path.start fs.here root) (Path.properNames root ++ more) =
      fs.follow left place more := by
  rw [place_of_permit (permit_of_place h), Path.steps_eq] at h
  obtain ⟨left, place', hleft⟩ := exists_follow h
  rw [hleft] at h
  suffices place' = place by
    subst this
    exact ⟨left, hleft⟩
  split at h
  · -- only from a directory one may stay there
    rw [follow.eq_def, advance] at h
    cases hplace' : fs.entryAt? place' with
    | none =>
      rw [hplace'] at h
      cases h
    | some e =>
      rw [hplace'] at h
      cases e with
      | directory entries => exact Except.ok.inj h
      | file content => cases h
      | link target => cases h
  · rw [follow.eq_def] at h
    exact Except.ok.inj h

/-- **A path that is extended by names** leads on from where it led. -/
theorem exists_place_joinAll {entries : List (String × Entry)} {dirs : List String} {name : String}
    (h : fs.place root = .ok place) (hentry : fs.entryAt? place = some (.directory entries))
    (hnames : ∀ n ∈ dirs ++ [name], Path.IsName n)
    (hsize : (Path.joinAll root (dirs ++ [name])).utf8ByteSize < pathLimit) :
    ∃ left, fs.place (Path.joinAll root (dirs ++ [name])) =
      fs.follow left place (dirs ++ [name]) := by
  obtain ⟨left, hleft⟩ := exists_follow_of_place h hentry
  obtain ⟨hzero, hempty, -⟩ := permit_eq_ok_iff.mp (permit_of_place h)
  have hpermit : permit (Path.joinAll root (dirs ++ [name])) = .ok () :=
    permit_eq_ok_iff.mpr ⟨Path.not_zero_mem_joinAll hzero hnames,
      Path.joinAll_ne_empty hnames hempty, hsize⟩
  refine ⟨left, ?_⟩
  rw [place_of_permit hpermit, Path.start_joinAll hnames hempty, Path.steps_joinAll hnames, hleft]

/-! ## What a path leads to -/

/-- Steps lead to no link, if there are any or they begin at none. -/
theorem entryAt?_ne_link_of_advance {todo place' : List String} {target : String}
    (h : fs.advance place todo = .arrived place')
    (hplace : todo = [] → fs.entryAt? place ≠ some (.link target)) :
    fs.entryAt? place' ≠ some (.link target) := by
  fun_induction advance fs place todo with
  | case1 place =>
    cases h
    exact hplace rfl
  | case2 | case5 | case7 | case8 | case10 => cases h
  | case3 place rest entries hentry ih => exact ih h fun _ => entryAt?_ne_link hentry target
  | case4 place rest entries hentry _ ih =>
    obtain ⟨outer, houter⟩ := exists_entryAt?_dropLast hentry
    exact ih h fun _ => entryAt?_ne_link houter target
  | case6 place name rest entries hentry _ _ _ hlookup =>
    cases h
    rw [entryAt?_concat hentry, hlookup]
    intro hnone
    cases hnone
  | case9 place name rest entries hentry _ _ _ e hlink hlookup ih =>
    refine ih h fun _ => ?_
    rw [entryAt?_concat hentry, hlookup]
    intro heq
    exact hlink target (Option.some.inj heq)

/-- Where a link has to be followed there is a directory. -/
theorem exists_entryAt?_of_atLink {todo place' rest : List String} {target : String}
    (h : fs.advance place todo = .atLink place' target rest) :
    ∃ entries, fs.entryAt? place' = some (.directory entries) := by
  fun_induction advance fs place todo with
  | case1 | case2 | case5 | case6 | case7 | case10 => cases h
  | case3 place rest entries hentry ih => exact ih h
  | case4 place rest entries hentry _ ih => exact ih h
  | case8 place name rest entries hentry =>
    cases h
    exact ⟨entries, hentry⟩
  | case9 place name rest entries hentry _ _ _ e hlink hlookup ih => exact ih h

/-- Following never ends at a link, unless it begins there and has no steps. -/
theorem entryAt?_ne_link_of_follow {todo place' : List String} {target : String}
    (h : fs.follow links place todo = .ok place')
    (hplace : todo = [] → fs.entryAt? place ≠ some (.link target)) :
    fs.entryAt? place' ≠ some (.link target) := by
  induction links generalizing place todo with
  | zero =>
    rw [follow] at h
    split at h
    · next hadvance =>
      cases h
      exact entryAt?_ne_link_of_advance hadvance hplace
    · cases h
    · cases h
  | succ links ih =>
    rw [follow] at h
    split at h
    · next hadvance =>
      cases h
      exact entryAt?_ne_link_of_advance hadvance hplace
    · cases h
    · next place'' target' rest hadvance =>
      refine ih h fun _ => ?_
      obtain ⟨entries, hentries⟩ := exists_entryAt?_of_atLink hadvance
      rw [Path.start]
      split
      · exact entryAt?_ne_link (Entry.descend_nil _) target
      · exact entryAt?_ne_link hentries target

/-- **A path never leads to a link**. -/
theorem resolve_ne_link (fs : FileSystem) (p target : String) :
    fs.resolve p ≠ .ok (.link target) := by
  intro h
  obtain ⟨place, hplace, hentry⟩ := exists_place_of_resolve h
  have hpermit := permit_of_place hplace
  have hne := (permit_eq_ok_iff.mp hpermit).2.1
  rw [place_of_permit hpermit] at hplace
  exact entryAt?_ne_link_of_follow hplace (fun hnil => absurd hnil (Path.steps_ne_nil hne)) hentry

/-- Something is at a path iff the path leads to an entry. -/
theorem hasEntry_eq_true_iff : fs.hasEntry p = true ↔ ∃ e, fs.resolve p = .ok e := by
  rw [hasEntry]
  cases fs.resolve p with
  | ok e => simp
  | error err => simp

/-! ## Listed paths -/

section

variable {s : Selection} {entries : List (String × Entry)} {dirs : List String} {name : String}

/-- **A file below a directory** is there at the path that is extended by its names, if the path is
not too long. -/
theorem resolve_joinAll (h : fs.Proper) (haccessible : fs.Accessible)
    (hroot : fs.resolve root = .ok (.directory entries)) {content : Option ByteArray}
    (hfile : (Entry.directory entries).descend (dirs ++ [name]) = some (.file content))
    (hsize : (Path.joinAll root (dirs ++ [name])).utf8ByteSize < pathLimit) :
    fs.resolve (Path.joinAll root (dirs ++ [name])) = .ok (.file content) := by
  obtain ⟨place, hplace, hentry⟩ := exists_place_of_resolve hroot
  obtain ⟨hproper, -⟩ := Entry.Proper.descend h hentry
  obtain ⟨hsteps, -⟩ := Entry.Accessible.descend haccessible hentry
  have hnames := (hproper.descend hfile).2
  obtain ⟨hdirs, hname⟩ := List.forall_mem_append.mp (hsteps.descend hfile).2
  obtain ⟨inner, hinner, hlookup⟩ := Entry.descend_concat.mp hfile
  obtain ⟨left, hleft⟩ := exists_place_joinAll hplace hentry hnames hsize
  have hthere : fs.entryAt? (place ++ dirs) = some (.directory inner) := by
    rw [entryAt?_append, hentry, Option.bind_some, hinner]
  have hlink : ∀ target, Entry.file content ≠ .link target := by
    intro target heq
    cases heq
  have hadvance : fs.advance place (dirs ++ [name]) = .arrived (place ++ dirs ++ [name]) := by
    rw [advance_along hentry hinner hdirs,
      advance_name hthere (hname name List.mem_cons_self) hlookup hlink, advance]
  have harrived : fs.place (Path.joinAll root (dirs ++ [name])) =
      .ok (place ++ dirs ++ [name]) := by
    rw [hleft, follow.eq_def, hadvance]
  rw [resolve_of_place harrived, entryAt?_concat hthere, hlookup]

/-- What is listed is a file or a link. -/
theorem Listed.exists_file_or_link (h : Listed fs s root (.directory entries) dirs name) :
    (∃ content, (Entry.directory entries).descend (dirs ++ [name]) = some (.file content)) ∨
      (∃ target, (Entry.directory entries).descend (dirs ++ [name]) = some (.link target)) ∧
        fs.isDirectory (Path.joinAll root (dirs ++ [name])) = false := by
  obtain ⟨⟨e, he, hleads⟩, -, -⟩ := h
  cases e with
  | file content => exact .inl ⟨content, he⟩
  | link target => exact .inr ⟨⟨target, he⟩, hleads⟩
  | directory inner => cases hleads

/-- **What is listed and there** is listed again from its own path, and nothing else. -/
theorem Listed.walk_again (h : Listed fs s root (.directory entries) dirs name)
    (hproper : fs.Proper) (haccessible : fs.Accessible)
    (hroot : fs.resolve root = .ok (.directory entries))
    (hthere : fs.hasEntry (Path.joinAll root (dirs ++ [name])) = true) :
    fs.walk s (Path.joinAll root (dirs ++ [name])) = .ok [Path.joinAll root (dirs ++ [name])] := by
  obtain ⟨e, he⟩ := hasEntry_eq_true_iff.mp hthere
  obtain ⟨place, hplace, -⟩ := exists_place_of_resolve he
  have hsize := (permit_eq_ok_iff.mp (permit_of_place hplace)).2.2
  obtain ⟨content, hfile⟩ :
      ∃ content, fs.resolve (Path.joinAll root (dirs ++ [name])) = .ok (.file content) := by
    rcases h.exists_file_or_link with ⟨content, hfile⟩ | ⟨-, hdirectory⟩
    · exact ⟨content, resolve_joinAll hproper haccessible hroot hfile hsize⟩
    · cases e with
      | file content => exact ⟨content, he⟩
      | link target => exact absurd he (resolve_ne_link fs _ target)
      | directory inner =>
        rw [isDirectory, he] at hdirectory
        cases hdirectory
  have hname : Path.IsName name :=
    h.isName (hproper.resolve hroot) name (List.mem_append_right dirs List.mem_cons_self)
  have hwants : s.wants name = true := Selection.wants_iff.mpr h.wanted
  rw [walk, hfile]
  dsimp only
  rw [Path.lastName_joinAll hname, if_pos hwants]

/-- **What is listed and not there** is a link, or at a path that is too long. -/
theorem Listed.exists_link (h : Listed fs s root (.directory entries) dirs name)
    (hproper : fs.Proper) (haccessible : fs.Accessible)
    (hroot : fs.resolve root = .ok (.directory entries))
    (hgone : fs.hasEntry (Path.joinAll root (dirs ++ [name])) = false) :
    pathLimit ≤ (Path.joinAll root (dirs ++ [name])).utf8ByteSize ∨
      ∃ target, (Entry.directory entries).descend (dirs ++ [name]) = some (.link target) := by
  rcases h.exists_file_or_link with ⟨content, hfile⟩ | ⟨hlink, -⟩
  · refine .inl (Nat.le_of_not_lt fun hsize => ?_)
    have hthere := hasEntry_eq_true_iff.mpr
      ⟨_, resolve_joinAll hproper haccessible hroot hfile hsize⟩
    rw [hgone] at hthere
    cases hthere
  · exact .inr hlink

/-- The path is that of a link below a directory to which another path leads. -/
def IsLinkBelow (fs : FileSystem) (root p : String) : Prop :=
  ∃ entries names target, fs.resolve root = .ok (.directory entries) ∧
    (Entry.directory entries).descend names = some (.link target) ∧ p = Path.joinAll root names

/-- **A listed path** lists just itself if something is there; else it lists nothing, and is too
long or that of a link. -/
theorem walk_of_mem_walk (h : fs.Proper) (haccessible : fs.Accessible) {paths : List String}
    (hwalk : fs.walk s root = .ok paths) (hp : p ∈ paths) :
    (fs.hasEntry p = true → fs.walk s p = .ok [p]) ∧
      (fs.hasEntry p = false → fs.walk s p = .ok [] ∧
        (pathLimit ≤ p.utf8ByteSize ∨ fs.IsLinkBelow root p)) := by
  have hzero := not_zero_mem_of_walk h hwalk hp
  have hnothing : fs.hasEntry p = false → fs.walk s p = .ok [] := by
    intro hgone
    rw [hasEntry] at hgone
    apply walk_eq_nil _ _ hzero
    · rw [isFile]
      split at hgone
      · cases hgone
      · rfl
    · rw [isDirectory]
      split at hgone
      · cases hgone
      · rfl
  have hlisted := hwalk
  rw [walk] at hlisted
  cases hroot : fs.resolve root with
  | error err =>
    rw [hroot] at hlisted
    cases err <;> cases hlisted <;> cases hp
  | ok e =>
    rw [hroot] at hlisted
    cases e with
    | link target => exact absurd hroot (resolve_ne_link fs root target)
    | file content =>
      cases hlisted
      split at hp
      · next hwants =>
        obtain rfl := List.mem_singleton.mp hp
        rw [if_pos hwants] at hwalk
        refine ⟨fun _ => hwalk, fun hgone => ?_⟩
        rw [hasEntry, hroot] at hgone
        cases hgone
      · cases hp
    | directory entries =>
      cases hlisted
      rw [inOrder, List.mem_mergeSort, mem_collect_iff (h.resolve hroot)] at hp
      obtain ⟨dirs, name, hlisted, rfl⟩ := hp
      refine ⟨hlisted.walk_again h haccessible hroot, fun hgone => ⟨hnothing hgone, ?_⟩⟩
      rcases hlisted.exists_link h haccessible hroot hgone with hlong | hlink
      · exact .inl hlong
      · obtain ⟨target, htarget⟩ := hlink
        exact .inr ⟨entries, dirs ++ [name], target, hroot, htarget, rfl⟩

end

end FileSystem

end MessageHarvest
