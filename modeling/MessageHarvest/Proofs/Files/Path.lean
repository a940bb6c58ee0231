import MessageHarvest.Files.Path

/-!
# Joined paths

A path is extended by names, one after the other. As long as they are names that an entry may have,
the path tells which they are.

* `Path.IsName`: the names of entries. As a path, a name asks for one step (`Path.IsName.steps`).
* `Path.joinAll`: a path, extended by several names.
* **No two lists of names give the same path** (`Path.joinAll_inj`).
-/

namespace MessageHarvest.Path

/-- A name that an entry of a directory may have. -/
structure IsName (name : String) : Prop where
  ne_empty : name ≠ ""
  no_slash : '/' ∉ name.toList
  no_zero : '\x00' ∉ name.toList

/-- What makes a text a name. -/
theorem isName_iff {name : String} :
    IsName name ↔ name ≠ "" ∧ '/' ∉ name.toList ∧ '\x00' ∉ name.toList :=
  ⟨fun h => ⟨h.ne_empty, h.no_slash, h.no_zero⟩, fun h => ⟨h.1, h.2.1, h.2.2⟩⟩

instance (name : String) : Decidable (IsName name) :=
  decidable_of_iff _ isName_iff.symm

/-- A name has characters. -/
theorem IsName.toList_ne_nil {name : String} (h : IsName name) : name.toList ≠ [] := by
  intro hnil
  exact h.ne_empty (String.toList_eq_nil_iff.mp hnil)

/-! ## Names as paths -/

/-- A name asks for one step. -/
theorem IsName.steps {name : String} (h : IsName name) : Path.steps name = [name] := by
  have hlast : name.toList.getLast? ≠ some '/' := by
    intro hslash
    exact h.no_slash (List.mem_of_getLast? hslash)
  have hempty : name.toList.isEmpty = false := List.isEmpty_eq_false_iff.mpr h.toList_ne_nil
  rw [Path.steps, names, Text.split_of_notMem h.no_slash, if_neg hlast, List.append_nil]
  simp [hempty]

/-! ## Joined paths -/

/-- The path of what names lead to from the directory at `root`. -/
def joinAll (root : String) (names : List String) : String :=
  names.foldl join root

/-- No names extend a path to itself. -/
@[simp] theorem joinAll_nil (root : String) : joinAll root [] = root := rfl

/-- The first name extends the path before the others do. -/
@[simp] theorem joinAll_cons (root name : String) (names : List String) :
    joinAll root (name :: names) = joinAll (join root name) names := rfl

/-- What stands before a name in the path that it has in a directory. -/
def lead (directory : String) : List Char :=
  if directory.isEmpty || directory.toList.getLast? == some '/' then directory.toList
  else directory.toList ++ ['/']

/-- Joining puts the name behind the path and, if need be, a slash. -/
theorem toList_join (directory name : String) :
    (join directory name).toList = lead directory ++ name.toList := by
  unfold join lead
  split
  · rw [String.toList_append]
  · rw [String.toList_append, String.toList_append]
    rfl

/-- A path that ends in a name is not empty. -/
theorem join_ne_empty {name : String} (h : IsName name) (directory : String) :
    join directory name ≠ "" := by
  rw [ne_eq, ← String.toList_eq_nil_iff, toList_join, List.append_eq_nil_iff]
  exact fun hnil => h.toList_ne_nil hnil.2

/-- A path that ends in a name ends in no slash. -/
theorem getLast?_join_ne {name : String} (h : IsName name) (directory : String) :
    (join directory name).toList.getLast? ≠ some '/' := by
  rw [toList_join, List.getLast?_append, List.getLast?_eq_some_getLast h.toList_ne_nil,
    Option.some_or]
  intro hslash
  exact h.no_slash (Option.some.inj hslash ▸ List.getLast_mem h.toList_ne_nil)

/-- After a name there has to be a slash. -/
theorem lead_join {name : String} (h : IsName name) (directory : String) :
    lead (join directory name) = lead directory ++ name.toList ++ ['/'] := by
  have hempty : (join directory name).isEmpty = false := by
    rw [Bool.eq_false_iff, ne_eq, String.isEmpty_iff]
    exact join_ne_empty h directory
  rw [lead, hempty, Bool.false_or, if_neg (by simpa using getLast?_join_ne h directory),
    toList_join]

/-- The names stand in the path with slashes between them. -/
theorem toList_joinAll {names : List String} (h : ∀ name ∈ names, IsName name) (hne : names ≠ [])
    (root : String) :
    (joinAll root names).toList = lead root ++ ['/'].intercalate (names.map String.toList) := by
  induction names generalizing root with
  | nil => exact absurd rfl hne
  | cons name names ih =>
    cases names with
    | nil =>
      rw [joinAll_cons, joinAll_nil, toList_join]
      simp
    | cons next names =>
      have hrest : ∀ n ∈ next :: names, IsName n := fun n hn => h n (List.mem_cons_of_mem name hn)
      rw [joinAll_cons, ih hrest (List.cons_ne_nil _ _), lead_join (h name List.mem_cons_self)]
      simp [List.intercalate_cons_cons]

/-! ## Steps of joined paths -/

/-- The names of a path but for the empty ones. -/
def properNames (p : String) : List String :=
  ((names p).filter fun name => !name.isEmpty).map String.ofList

/-- The steps of a path are its names and, behind a slash at its end, a stay. -/
theorem steps_eq (p : String) :
    steps p = properNames p ++ if p.toList.getLast? = some '/' then ["."] else [] := by
  unfold steps properNames
  dsimp only
  rw [List.map_append]
  split <;> rfl

/-- Every path asks for a step, if it is not empty. -/
theorem steps_ne_nil {p : String} (h : p ≠ "") : steps p ≠ [] := by
  intro hnil
  rw [steps_eq, List.append_eq_nil_iff] at hnil
  obtain ⟨hproper, hslash⟩ := hnil
  have hchars : p.toList ≠ [] := fun hempty => h (String.toList_eq_nil_iff.mp hempty)
  have hlast := List.getLast?_eq_some_getLast hchars
  have hne : p.toList.getLast hchars ≠ '/' := by
    intro heq
    rw [if_pos (by rw [hlast, heq])] at hslash
    cases hslash
  obtain ⟨part, hpart, hmem⟩ := Text.exists_mem_split (List.getLast_mem hchars) hne
  have hkept : part ∈ (names p).filter fun name => !name.isEmpty := by
    rw [List.mem_filter]
    refine ⟨hpart, ?_⟩
    cases part with
    | nil => cases hmem
    | cons c cs => rfl
  rw [properNames, List.map_eq_nil_iff] at hproper
  rw [hproper] at hkept
  cases hkept

/-- The last name of a joined path is the one that was joined. What comes before are the names of
the directory, up to empty ones. -/
theorem names_join {name : String} (h : IsName name) (directory : String) :
    ∃ before, names (join directory name) = before ++ [name.toList] ∧
      (before.filter fun n => !n.isEmpty) = (names directory).filter fun n => !n.isEmpty := by
  have hname := Text.split_of_notMem h.no_slash
  unfold names
  rw [toList_join, lead]
  by_cases hempty : directory.toList = []
  · have hdirectory : directory = "" := String.toList_eq_nil_iff.mp hempty
    subst hdirectory
    exact ⟨[], hname, rfl⟩
  by_cases hslash : directory.toList.getLast? = some '/'
  · obtain ⟨outer, houter⟩ := List.getLast?_eq_some_iff.mp hslash
    refine ⟨Text.split '/' outer, ?_, ?_⟩
    · rw [if_pos (by simp [hslash]), houter, List.append_assoc, List.singleton_append,
        Text.split_append, hname]
    · rw [houter, Text.split_append, List.filter_append]
      exact (List.append_nil _).symm
  · refine ⟨Text.split '/' directory.toList, ?_, rfl⟩
    have hne : directory.isEmpty = false := by
      rw [Bool.eq_false_iff, ne_eq, String.isEmpty_iff, ← String.toList_eq_nil_iff]
      exact hempty
    rw [if_neg (by simp [hne, hslash]), List.append_assoc, List.singleton_append,
      Text.split_append, hname]

/-- Joining a name adds just that name. -/
theorem properNames_join {name : String} (h : IsName name) (directory : String) :
    properNames (join directory name) = properNames directory ++ [name] := by
  obtain ⟨before, hnames, hbefore⟩ := names_join h directory
  have hempty : name.toList.isEmpty = false := List.isEmpty_eq_false_iff.mpr h.toList_ne_nil
  rw [properNames, hnames, List.filter_append, hbefore, List.map_append, ← properNames]
  simp [hempty]

/-- The name that was joined is the last one. -/
theorem lastName_join {name : String} (h : IsName name) (directory : String) :
    lastName (join directory name) = name := by
  obtain ⟨before, hnames, -⟩ := names_join h directory
  rw [lastName, hnames, List.getLastD_concat, String.ofList_toList]

/-- A joined path begins where the path did. -/
theorem start_join {directory : String} (hne : directory ≠ "") (name : String)
    (place : List String) : start place (join directory name) = start place directory := by
  have hnil : directory.toList ≠ [] := fun h => hne (String.toList_eq_nil_iff.mp h)
  have hhead : (join directory name).toList.head? = directory.toList.head? := by
    rw [toList_join, lead]
    cases hdirectory : directory.toList with
    | nil => exact absurd hdirectory hnil
    | cons c cs => split <;> rfl
  rw [start, start, isAbsolute, isAbsolute, hhead]

variable {ns : List String} {root : String}

/-- Joining names adds just these names. -/
theorem properNames_joinAll (h : ∀ n ∈ ns, IsName n) (root : String) :
    properNames (joinAll root ns) = properNames root ++ ns := by
  induction ns generalizing root with
  | nil => exact (List.append_nil _).symm
  | cons n ns ih =>
    obtain ⟨hn, hns⟩ := List.forall_mem_cons.mp h
    rw [joinAll_cons, ih hns, properNames_join hn, List.append_assoc, List.singleton_append]

/-- The last name is joined last. -/
theorem joinAll_concat (root : String) (ns : List String) (name : String) :
    joinAll root (ns ++ [name]) = join (joinAll root ns) name :=
  List.foldl_append ..

/-- A path that is not empty stays so when names are joined to it. -/
theorem joinAll_ne_empty (h : ∀ n ∈ ns, IsName n) (hroot : root ≠ "") : joinAll root ns ≠ "" := by
  induction ns generalizing root with
  | nil => exact hroot
  | cons n ns ih =>
    obtain ⟨hn, hns⟩ := List.forall_mem_cons.mp h
    exact ih hns (join_ne_empty hn root)

/-- **The steps of a joined path**: those of its beginning, and the names. -/
theorem steps_joinAll {name : String} (h : ∀ n ∈ ns ++ [name], IsName n) (root : String) :
    steps (joinAll root (ns ++ [name])) = properNames root ++ (ns ++ [name]) := by
  have hname := h name (List.mem_append_right ns List.mem_cons_self)
  rw [steps_eq, properNames_joinAll h, joinAll_concat, if_neg (getLast?_join_ne hname _),
    List.append_nil]

/-- The last name that was joined is the last name of the path. -/
theorem lastName_joinAll {name : String} (h : IsName name) (root : String) (ns : List String) :
    lastName (joinAll root (ns ++ [name])) = name := by
  rw [joinAll_concat, lastName_join h]

/-- A path that was extended begins where the path did. -/
theorem start_joinAll (h : ∀ n ∈ ns, IsName n) (hroot : root ≠ "") (place : List String) :
    start place (joinAll root ns) = start place root := by
  induction ns generalizing root with
  | nil => rfl
  | cons n ns ih =>
    obtain ⟨hn, hns⟩ := List.forall_mem_cons.mp h
    rw [joinAll_cons, ih hns (join_ne_empty hn root), start_join hroot]

/-! ## Different names, different paths -/

/-- **No two lists of names give the same path**. -/
theorem joinAll_inj {names names' : List String} (h : ∀ name ∈ names, IsName name)
    (h' : ∀ name ∈ names', IsName name) (hne : names ≠ []) (hne' : names' ≠ []) {root : String}
    (heq : joinAll root names = joinAll root names') : names = names' := by
  have hsplit : ∀ ns : List String, (∀ n ∈ ns, IsName n) → ns ≠ [] →
      List.splitOn '/' (['/'].intercalate (ns.map String.toList)) = ns.map String.toList := by
    intro ns hns hnil
    apply List.splitOn_intercalate
    · intro part hpart
      obtain ⟨n, hn, rfl⟩ := List.mem_map.mp hpart
      exact (hns n hn).no_slash
    · simpa using hnil
  have hchars := congrArg String.toList heq
  rw [toList_joinAll h hne, toList_joinAll h' hne', List.append_cancel_left_eq] at hchars
  have hmap := congrArg (List.splitOn '/') hchars
  rw [hsplit names h hne, hsplit names' h' hne'] at hmap
  exact (List.map_inj_right fun _ _ => String.toList_inj.mp).mp hmap

/-- Where no name holds a zero character, the path holds none but those of its beginning. -/
theorem not_zero_mem_joinAll {root : String} (hroot : '\x00' ∉ root.toList) {names : List String}
    (h : ∀ name ∈ names, IsName name) : '\x00' ∉ (joinAll root names).toList := by
  induction names generalizing root with
  | nil => exact hroot
  | cons name names ih =>
    have hlead : '\x00' ∉ lead root := by
      rw [lead]
      split
      · exact hroot
      · simpa using hroot
    apply ih _ fun n hn => h n (List.mem_cons_of_mem name hn)
    rw [toList_join, List.mem_append, not_or]
    exact ⟨hlead, (h name List.mem_cons_self).no_zero⟩

end MessageHarvest.Path
