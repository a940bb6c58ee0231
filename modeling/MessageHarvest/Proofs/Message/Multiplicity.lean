import MessageHarvest.Proofs.Message.Candidate
import MessageHarvest.Message.Extraction
import Mathlib.Data.List.Forall2
import Mathlib.Data.List.Nodup

/-!
# How often the message of a tag is found

Tags are looked for once for each name in the list of names, so the messages come block by block:
a tag is found anew in the block of each occurrence of its name.

* `TagReport.Holds src root r`: at the place that the report `r` gives, there is a tag of the plain
  name and with the message that it gives.
* `Node.tagReports` lists the reports that hold (`mem_tagReports_iff`), in document order and at
  most one for each place (`tagReports_sorted`). The search for one name finds those of this name
  (`eq_map_of_tagMessages`).
* `TagBlocks src root names blocks`: the blocks in which the tags of several names are found. A tag
  is in them as often as its name is among the names (`tagBlocks_map`).
* **How often a tag is found** (`Node.extract_eq_ok_blocks`): the messages of an extraction are
  those of the blocks for its list of names, followed by those of the calls.
-/

namespace MessageHarvest

/-- What the search for tags may find: the name of a tag, its place, and its message. -/
structure TagReport where
  name : String
  place : Place
  message : Message
  deriving DecidableEq

/-- There is a tag at the place of the report, opening or self-closing. Its name is a plain
identifier, the one in the report, and its attributes form the message in the report. -/
inductive TagReport.Holds (src : Source) (root : Node) (r : TagReport) : Prop
  | intro {tag identifier : Node} {draft : Draft}
      (tag_at : root.at? r.place = some tag)
      (tag_kind : tag.kind = Node.Kind.jsxOpeningElement ∨
        tag.kind = Node.Kind.jsxSelfClosingElement)
      (name_child : tag.childByField? "name" = some identifier)
      (name_kind : identifier.kind = Node.Kind.identifier)
      (name_text : identifier.text src = r.name)
      (read : tag.readTag src = .ok draft)
      (message : draft.message? = some r.message)

/-- The reports of the tags of several names, block by block. -/
structure TagBlocks (src : Source) (root : Node) (names : List String)
    (blocks : List (List TagReport)) : Prop where
  /-- There is a block for each occurrence of a name, with all tags of this name in document
  order. -/
  block : List.Forall₂ (fun name block => block.Pairwise (·.place < ·.place) ∧
    ∀ r, r ∈ block ↔ r.name = name ∧ r.Holds src root) names blocks
  /-- Only what holds is reported. -/
  holds : ∀ r ∈ blocks.flatten, r.Holds src root
  /-- A tag is reported as often as its name occurs. -/
  count : ∀ r, r.Holds src root → blocks.flatten.count r = names.count r.name
  /-- If no name occurs twice, no tag is reported twice. -/
  nodup : names.Nodup → (blocks.flatten.map (·.place)).Nodup
  /-- No tag of one of the names is lost. -/
  complete : ∀ r, r.Holds src root → r.name ∈ names → r ∈ blocks.flatten

namespace Node

variable {src : Source} {root : Node}

/-! ## Computing the reports -/

/-- The name of a tag, if it is a plain identifier. -/
def tagName? (src : Source) (n : Node) : Option String := do
  guard n.isTag
  let identifier ← n.childByField? "name"
  guard (identifier.kind = Kind.identifier)
  return identifier.text src

/-- The name of a tag is the text of the identifier in its field for the name. -/
theorem tagName?_eq_some_iff {n : Node} {name : String} :
    n.tagName? src = some name ↔
      n.isTag = true ∧ ∃ identifier, n.childByField? "name" = some identifier ∧
        identifier.kind = Kind.identifier ∧ identifier.text src = name := by
  simp only [tagName?, Option.bind_eq_bind, Option.bind_eq_some_iff, Option.guard_eq_some',
    Option.pure_def, Option.some.injEq]
  constructor
  · rintro ⟨-, htag, identifier, hchild, -, hkind, htext⟩
    exact ⟨htag, identifier, hchild, hkind, htext⟩
  · rintro ⟨htag, identifier, hchild, hkind, htext⟩
    exact ⟨(), htag, identifier, hchild, (), hkind, htext⟩

/-- A tag has a name iff that is its name. -/
theorem isTagNamed_iff {n : Node} {name : String} :
    n.isTagNamed src name = true ↔ n.tagName? src = some name := by
  rw [tagName?_eq_some_iff, isTagNamed, Bool.and_eq_true]
  apply and_congr_right
  intro _
  rcases n.childByField? "name" with _ | identifier <;> simp

/-- The message that the attributes of a tag form. -/
def tagMessage? (src : Source) (n : Node) : Option Message :=
  (n.readTag src).toOption.bind Draft.message?

/-- The message of a tag is that of the draft that its attributes fill. -/
theorem tagMessage?_eq_some_iff {n : Node} {m : Message} :
    n.tagMessage? src = some m ↔ ∃ draft, n.readTag src = .ok draft ∧ draft.message? = some m := by
  rw [tagMessage?]
  cases n.readTag src with
  | error e => simp [Except.toOption]
  | ok draft => simp [Except.toOption]

/-- The report of a node at a place. -/
def tagReport? (src : Source) (x : Place × Node) : Option TagReport := do
  let name ← x.2.tagName? src
  let message ← x.2.tagMessage? src
  return ⟨name, x.1, message⟩

/-- The report on a tag tells its name, its place and its message. -/
theorem tagReport?_eq_some_iff {x : Place × Node} {r : TagReport} :
    tagReport? src x = some r ↔
      x.2.tagName? src = some r.name ∧ x.1 = r.place ∧ x.2.tagMessage? src = some r.message := by
  simp only [tagReport?, Option.bind_eq_bind, Option.bind_eq_some_iff, Option.pure_def,
    Option.some.injEq]
  constructor
  · rintro ⟨name, hname, m, hm, rfl⟩
    exact ⟨hname, rfl, hm⟩
  · rintro ⟨hname, hplace, hm⟩
    exact ⟨r.name, hname, r.message, hm, by rw [hplace]⟩

/-- The reports of all tags, in document order. -/
def tagReports (src : Source) (root : Node) : List TagReport :=
  (root.located isTag false).filterMap (tagReport? src)

/-- A report holds iff it is the report of the node at its place. -/
theorem holds_iff {r : TagReport} :
    r.Holds src root ↔
      ∃ tag, root.at? r.place = some tag ∧ tagReport? src (r.place, tag) = some r := by
  simp only [tagReport?_eq_some_iff, tagName?_eq_some_iff, tagMessage?_eq_some_iff, isTag,
    Bool.or_eq_true, decide_eq_true_eq, true_and]
  constructor
  · rintro ⟨htag, hkind, hchild, hplain, htext, hread, hmessage⟩
    exact ⟨_, htag, ⟨hkind, _, hchild, hplain, htext⟩, _, hread, hmessage⟩
  · rintro ⟨tag, htag, ⟨hkind, identifier, hchild, hplain, htext⟩, draft, hread, hmessage⟩
    exact .intro htag hkind hchild hplain htext hread hmessage

/-- **What is computed** are the reports that hold. -/
theorem mem_tagReports_iff {r : TagReport} : r ∈ root.tagReports src ↔ r.Holds src root := by
  rw [holds_iff, tagReports, List.mem_filterMap]
  constructor
  · rintro ⟨⟨q, tag⟩, hmem, hr⟩
    obtain rfl : q = r.place := (tagReport?_eq_some_iff.mp hr).2.1
    exact ⟨tag, (mem_located_iff.mp hmem).1, hr⟩
  · rintro ⟨tag, htag, hr⟩
    have hkind : tag.isTag = true :=
      (tagName?_eq_some_iff.mp (tagReport?_eq_some_iff.mp hr).1).1
    exact ⟨(r.place, tag), mem_located_iff.mpr ⟨htag, hkind, nofun⟩, hr⟩

/-- Two reports that hold of one place are the same. -/
theorem eq_of_holds {r s : TagReport} (hr : r.Holds src root) (hs : s.Holds src root)
    (h : r.place = s.place) : r = s := by
  obtain ⟨tag, htag, hr⟩ := holds_iff.mp hr
  obtain ⟨tag', htag', hs⟩ := holds_iff.mp hs
  rw [h, htag'] at htag
  cases htag
  rw [h, hs] at hr
  exact (Option.some.inj hr).symm

/-- The reports come in document order, at most one for each place. -/
theorem tagReports_sorted : (root.tagReports src).Pairwise (·.place < ·.place) := by
  rw [tagReports, List.pairwise_filterMap]
  apply (located_sorted root false).imp
  intro x y hlt r hr s hs
  rw [← (tagReport?_eq_some_iff.mp hr).2.1, ← (tagReport?_eq_some_iff.mp hs).2.1]
  exact hlt

/-! ## Blocks -/

/-- The reports of the tags of one name. -/
def tagBlock (src : Source) (root : Node) (name : String) : List TagReport :=
  (root.tagReports src).filter (·.name = name)

/-- The block of a name holds the reports on all tags of that name that have a message. -/
theorem mem_tagBlock_iff {name : String} {r : TagReport} :
    r ∈ root.tagBlock src name ↔ r.name = name ∧ r.Holds src root := by
  rw [tagBlock, List.mem_filter, mem_tagReports_iff, decide_eq_true_eq, and_comm]

/-- A block is in document order. -/
theorem tagBlock_sorted (name : String) :
    (root.tagBlock src name).Pairwise (·.place < ·.place) :=
  tagReports_sorted.filter _

/-- **What the search for one name finds**, unless it fails: the messages of its block. -/
theorem eq_map_of_tagMessages {name : String} {messages : List Message}
    (h : root.tagMessages src name = .ok messages) :
    messages = (root.tagBlock src name).map (·.message) := by
  rw [tagMessages, find_eq_map_located, gather_map] at h
  have hlocated : root.located (isTagNamed src name) false =
      (root.located isTag false).filter fun x => x.2.isTagNamed src name := by
    rw [located, located, List.filter_filter]
    apply List.filter_congr
    intro x _
    cases htag : x.2.isTag <;> simp [isTagNamed, htag]
  rw [eq_filterMap_of_gather h, hlocated, List.filterMap_filter, tagBlock, tagReports,
    List.filter_filterMap, List.map_filterMap]
  apply List.filterMap_congr
  intro x _
  have hname : x.2.isTagNamed src name = true ↔ x.2.tagName? src = some name := isTagNamed_iff
  have hmessage : (x.2.readTag src).toOption.bind Draft.message? = x.2.tagMessage? src := rfl
  simp only [hname, hmessage, tagReport?]
  rcases x.2.tagName? src with _ | name'
  · rfl
  · by_cases heq : name' = name <;> rcases x.2.tagMessage? src with _ | m <;> simp [heq]

/-- A report stands as often in the blocks of several names as its own name is among them. -/
theorem count_flatMap_tagBlock {r : TagReport} (hr : r.Holds src root) (names : List String) :
    (names.flatMap (root.tagBlock src)).count r = names.count r.name := by
  induction names with
  | nil => rfl
  | cons name names ih =>
      have hblock : (root.tagBlock src name).count r = if name == r.name then 1 else 0 := by
        have hnodup : (root.tagBlock src name).Nodup := by
          apply (tagBlock_sorted name).imp
          intro x y hlt heq
          rw [heq] at hlt
          exact List.lt_irrefl _ hlt
        by_cases hname : r.name = name
        · rw [if_pos (by simp [hname])]
          exact List.count_eq_one_of_mem hnodup (mem_tagBlock_iff.mpr ⟨hname, hr⟩)
        · rw [if_neg (by simpa using Ne.symm hname)]
          apply List.count_eq_zero_of_not_mem
          intro hmem
          exact hname (mem_tagBlock_iff.mp hmem).1
      rw [List.flatMap_cons, List.count_append, ih, hblock, List.count_cons, Nat.add_comm]

/-- **The blocks** of several names, one after the other. -/
theorem tagBlocks_map (src : Source) (root : Node) (names : List String) :
    TagBlocks src root names (names.map (root.tagBlock src)) := by
  have hflatten : (names.map (root.tagBlock src)).flatten = names.flatMap (root.tagBlock src) :=
    List.flatMap_def.symm
  have hholds : ∀ r ∈ names.flatMap (root.tagBlock src), r.Holds src root := by
    intro r hr
    obtain ⟨name, -, hmem⟩ := List.mem_flatMap.mp hr
    exact (mem_tagBlock_iff.mp hmem).2
  refine ⟨?_, ?_, ?_, ?_, ?_⟩
  · rw [List.forall₂_map_right_iff, List.forall₂_same]
    intro name _
    exact ⟨tagBlock_sorted name, fun r => mem_tagBlock_iff⟩
  · rw [hflatten]
    exact hholds
  · intro r hr
    rw [hflatten, count_flatMap_tagBlock hr]
  · intro hnames
    rw [hflatten]
    have hnodup : (names.flatMap (root.tagBlock src)).Nodup := by
      rw [List.nodup_iff_count_le_one]
      intro r
      by_cases hr : r ∈ names.flatMap (root.tagBlock src)
      · rw [count_flatMap_tagBlock (hholds r hr)]
        exact List.nodup_iff_count_le_one.mp hnames r.name
      · rw [List.count_eq_zero_of_not_mem hr]
        exact Nat.zero_le 1
    apply hnodup.map_on
    intro r hr s hs heq
    exact eq_of_holds (hholds r hr) (hholds s hs) heq
  · intro r hr hname
    rw [hflatten, ← List.count_pos_iff, count_flatMap_tagBlock hr]
    exact List.count_pos_iff.mpr hname

/-! ## Extraction -/

/-- The search for all names, unless it fails, finds the messages of one block after the other. -/
theorem eq_map_of_gather_tagMessages {names : List String} {tags : List Message}
    (h : gather (fun name => root.tagMessages src name) names = .ok tags) :
    tags = (names.flatMap (root.tagBlock src)).map (·.message) := by
  induction names generalizing tags with
  | nil => cases h; rfl
  | cons name names ih =>
      obtain ⟨block, rest, hblock, hrest, rfl⟩ := exists_of_gather_cons h
      rw [List.flatMap_cons, List.map_append, ← eq_map_of_tagMessages hblock, ← ih hrest]

/-- An extraction that does not fail joins what its three passes find. -/
theorem exists_of_extract {o : Options} {messages : List Message}
    (h : root.extract src o = .ok messages) :
    ∃ tags bulk single, gather (fun name => root.tagMessages src name) o.tagNames = .ok tags ∧
      root.bulkMessages src bulkCallee = .ok bulk ∧
      root.singleMessages src singleCallee = .ok single ∧ messages = tags ++ bulk ++ single := by
  obtain ⟨tags, htags, h⟩ := exists_of_bind h
  obtain ⟨bulk, hbulk, h⟩ := exists_of_bind h
  obtain ⟨single, hsingle, h⟩ := exists_of_bind h
  cases h
  exact ⟨tags, bulk, single, htags, hbulk, hsingle, rfl⟩

/-- **How often a tag is found**: the messages of an extraction that does not fail are those of the
tags, block by block, and then those of the bulk calls and those of the single calls. Each tag is
found as often as its name occurs in the list of names. -/
theorem extract_eq_ok_blocks {src : Source} {o : Options} {root : Node} {messages : List Message}
    (h : root.extract src o = .ok messages) :
    ∃ blocks bulk single, TagBlocks src root o.tagNames blocks ∧
      root.bulkMessages src bulkCallee = .ok bulk ∧
      root.singleMessages src singleCallee = .ok single ∧
      messages = blocks.flatten.map (·.message) ++ bulk ++ single := by
  obtain ⟨tags, bulk, single, htags, hbulk, hsingle, rfl⟩ := exists_of_extract h
  refine ⟨o.tagNames.map (root.tagBlock src), bulk, single, tagBlocks_map src root o.tagNames,
    hbulk, hsingle, ?_⟩
  rw [eq_map_of_gather_tagMessages htags, List.flatMap_def]

/-- A tag with one of the same name in an attribute, a standard tag, and a call. -/
def nestedTags : Source :=
  "const p = <Msg id='a' defaultMessage='A' icon=\x7b<Msg id='b' defaultMessage='B' />\x7d>
    <FormattedMessage id='c' defaultMessage='C' /></Msg>;
  const m = formatMessage(\x7b id: 'e', defaultMessage: 'E' \x7d);".toUTF8

/-- `extract_eq_ok_blocks` there, for a list in which one name occurs twice. -/
theorem extract_nestedTags :
    ∃ messages, messages.map (·.id) = ["c", "a", "b", "a", "b", "e"] ∧
      (Tsx.parse nestedTags).extract nestedTags ⟨["Msg", "Msg"]⟩ = .ok messages ∧
      ∃ blocks bulk single,
        TagBlocks nestedTags (Tsx.parse nestedTags) ["FormattedMessage", "Msg", "Msg"] blocks ∧
        (Tsx.parse nestedTags).bulkMessages nestedTags bulkCallee = .ok bulk ∧
        (Tsx.parse nestedTags).singleMessages nestedTags singleCallee = .ok single ∧
        messages = blocks.flatten.map (·.message) ++ bulk ++ single := by
  have hextract : (Tsx.parse nestedTags).extract nestedTags ⟨["Msg", "Msg"]⟩ =
      .ok [⟨"c", "C", none, by decide, by decide⟩, ⟨"a", "A", none, by decide, by decide⟩,
        ⟨"b", "B", none, by decide, by decide⟩, ⟨"a", "A", none, by decide, by decide⟩,
        ⟨"b", "B", none, by decide, by decide⟩, ⟨"e", "E", none, by decide, by decide⟩] := by
    decide +kernel
  exact ⟨_, rfl, hextract, extract_eq_ok_blocks hextract⟩

end Node

end MessageHarvest
