import MessageHarvest.Proofs.Message.Candidate
import MessageHarvest.Proofs.Syntax.Literal
import Mathlib.Data.List.Basic

/-!
# A tree without its undecodable literals

`Node.isolate` takes the literals that cannot be decoded out of a tree. Each of them, where it
stands in a pair or in the braces around a JSX value, becomes a node of a kind without meaning. All
else stays where it is and covers the same text.

* `Node.find_isolate`: a search that is not for literals finds the same nodes as before, isolated.
* `Node.stringValue?_isolate`, `Node.staticValue?_isolate`, `Node.keyName?_isolate`: where a reader
  of literals failed, it now finds nothing to read; else it reads what it read before (`settled`).
-/

namespace MessageHarvest

/-- What has been read, which is nothing where the reading fails. -/
def settled {α : Type} : Except Escape.Error (Option α) → Option α
  | .ok found => found
  | .error _ => none

/-- What does not fail is settled as its result. -/
theorem eq_ok_settled {α : Type} {x : Except Escape.Error (Option α)} (h : fault? x = none) :
    x = .ok (settled x) := by
  obtain ⟨found, rfl⟩ := fault?_eq_none_iff.mp h
  rfl

/-- What fails is settled as nothing. -/
theorem settled_eq_none {α : Type} {x : Except Escape.Error (Option α)} {e : Escape.Error}
    (h : fault? x = some e) : settled x = none := by
  rw [fault?_eq_some_iff.mp h]
  rfl

namespace Node

/-! ## Isolating -/

/-- The kinds of node that carry meaning, those of the literals apart. -/
def structuralKinds : List String :=
  [Kind.comment, Kind.identifier, Kind.propertyIdentifier, Kind.number, Kind.templateSubstitution,
    Kind.variableDeclarator, Kind.callExpression, Kind.object, Kind.pair, Kind.jsxOpeningElement,
    Kind.jsxSelfClosingElement, Kind.jsxAttribute, Kind.jsxExpression]

/-- A kind of node that carries no meaning. -/
structure InertKind where
  kind : String
  not_structural : kind ∉ structuralKinds
  ne_string : kind ≠ Kind.string
  ne_templateString : kind ≠ Kind.templateString

/-- A literal that cannot be decoded. -/
def isUndecodable (src : Source) (n : Node) : Bool :=
  n.isLiteral && (n.failure? src).isSome

/-- A node in which literals are decoded: a pair, or the braces around a JSX value. -/
def isDecoding (n : Node) : Bool :=
  n.kind = Kind.pair || n.kind = Kind.jsxExpression

mutual

/-- A tree in which the undecodable literals are nodes of the kind `k`, wherever they stand in a
node in which literals are decoded. `decoded` says whether the root itself stands in one. -/
def isolate (src : Source) (k : InertKind) (decoded : Bool) : Node → Node
  | n@⟨kind, named, field, span, children⟩ =>
    ⟨if decoded && n.isUndecodable src then k.kind else kind, named, field, span,
      isolateAll src k n.isDecoding children⟩

/-- Several trees, each with its undecodable literals isolated. -/
def isolateAll (src : Source) (k : InertKind) (decoded : Bool) : List Node → List Node
  | [] => []
  | n :: rest => isolate src k decoded n :: isolateAll src k decoded rest

end

variable {src : Source} {k : InertKind} {decoded : Bool}

/-- Siblings are isolated one by one. -/
theorem isolateAll_eq_map (siblings : List Node) :
    isolateAll src k decoded siblings = siblings.map (isolate src k decoded) := by
  induction siblings with
  | nil => rfl
  | cons n siblings ih => rw [isolateAll, ih, List.map_cons]

/-! ## What stays -/

/-- A node stays named, or not. -/
@[simp] theorem named_isolate (n : Node) : (n.isolate src k decoded).named = n.named := by
  cases n; rw [isolate]

/-- It keeps its field. -/
@[simp] theorem field_isolate (n : Node) : (n.isolate src k decoded).field = n.field := by
  cases n; rw [isolate]

/-- It keeps its range. -/
@[simp] theorem span_isolate (n : Node) : (n.isolate src k decoded).span = n.span := by
  cases n; rw [isolate]

/-- Its children are isolated as its kind asks for. -/
theorem children_isolate (n : Node) :
    (n.isolate src k decoded).children = n.children.map (isolate src k n.isDecoding) := by
  cases n; rw [isolate, isolateAll_eq_map]

/-- It changes its kind only if it is decoded and cannot be. -/
theorem kind_isolate (n : Node) :
    (n.isolate src k decoded).kind = if decoded && n.isUndecodable src then k.kind else n.kind := by
  cases n; rw [isolate]

/-- It keeps its characters. -/
@[simp] theorem chars_isolate (n : Node) : (n.isolate src k decoded).chars src = n.chars src := by
  rw [chars, bytes, span_isolate]
  rfl

/-- It keeps its text. -/
@[simp] theorem text_isolate (n : Node) : (n.isolate src k decoded).text src = n.text src := by
  rw [text, chars_isolate]
  rfl

/-- Only strings and templates can be undecodable. -/
theorem isUndecodable_eq_false (src : Source) {n : Node} (h : n.kind ∈ structuralKinds) :
    n.isUndecodable src = false := by
  have hstring : n.kind ≠ Kind.string := fun heq => absurd (heq ▸ h) (by decide)
  have htemplate : n.kind ≠ Kind.templateString := fun heq => absurd (heq ▸ h) (by decide)
  simp [isUndecodable, isLiteral, isPlainTemplate, hstring, htemplate]

/-- The structural kinds stay. -/
theorem kind_isolate_eq_iff {n : Node} {kind : String} (h : kind ∈ structuralKinds) :
    (n.isolate src k decoded).kind = kind ↔ n.kind = kind := by
  rw [kind_isolate]
  split
  · rename_i hundecodable
    constructor
    · rintro rfl
      exact absurd h k.not_structural
    · rintro rfl
      rw [isUndecodable_eq_false src h, Bool.and_false] at hundecodable
      cases hundecodable
  · exact Iff.rfl

/-- A node of a structural kind is isolated alike wherever it stands. -/
theorem isolate_eq_of_structural {n : Node} (h : n.kind ∈ structuralKinds) :
    n.isolate src k decoded = n.isolate src k false := by
  have hdecodable := isUndecodable_eq_false src h
  cases n
  rw [isolate, isolate, hdecodable, Bool.and_false, Bool.false_and]

/-- The same children count. -/
theorem significantChildren_isolate (n : Node) :
    (n.isolate src k decoded).significantChildren =
      n.significantChildren.map (isolate src k n.isDecoding) := by
  rw [significantChildren_eq, significantChildren_eq, children_isolate, List.filter_map]
  congr 1
  refine List.filter_congr fun c _ => ?_
  have hcomment : (c.isolate src k n.isDecoding).kind = Kind.comment ↔ c.kind = Kind.comment :=
    kind_isolate_eq_iff (by decide)
  simp [isSignificant, hcomment]

/-- The same children fill the fields. -/
theorem childByField?_isolate (n : Node) (field : String) :
    (n.isolate src k decoded).childByField? field =
      (n.childByField? field).map (isolate src k n.isDecoding) := by
  rw [childByField?, children_isolate, List.find?_map, childByField?]
  congr 2
  funext c
  simp

/-! ## Searches -/

section searches

variable {p stop : Node → Bool} (hp : ∀ n decoded, p (n.isolate src k decoded) = p n)
  (hstructural : ∀ n, p n = true → n.kind ∈ structuralKinds)

include hp hstructural in
/-- A walk through an isolated tree comes to the same matches, if they are of structural kinds. -/
theorem filter_visited_isolate (hstop : ∀ n decoded, stop (n.isolate src k decoded) = stop n)
    (n : Node) (decoded : Bool) :
    (((n.isolate src k decoded).visited stop).map (·.2)).filter p =
      (((n.visited stop).map (·.2)).filter p).map (isolate src k false) := by
  induction n using induction_on_children generalizing decoded with
  | step n ih =>
      have hbelow : (n.children.flatMap fun c =>
            ((c.isolate src k n.isDecoding).visited stop).map (·.2)).filter p =
          ((n.children.flatMap fun c => (c.visited stop).map (·.2)).filter p).map
            (isolate src k false) := by
        rw [List.filter_flatMap, List.filter_flatMap, List.map_flatMap]
        exact List.flatMap_congr fun c hc => ih c hc _
      rw [map_snd_visited, map_snd_visited, List.filter_cons, List.filter_cons, hp, hstop,
        children_isolate, List.flatMap_map]
      cases hn : p n with
      | true =>
          rw [if_pos rfl, if_pos rfl, List.map_cons, isolate_eq_of_structural (hstructural n hn)]
          split
          · rfl
          · rw [hbelow]
      | false =>
          rw [if_neg Bool.false_ne_true, if_neg Bool.false_ne_true]
          split
          · rfl
          · rw [hbelow]

include hp hstructural in
/-- **A search for nodes of structural kinds** finds the same nodes in an isolated tree. -/
theorem find_isolate (prune : Bool) (n : Node) :
    (n.isolate src k decoded).find p prune = (n.find p prune).map (isolate src k false) := by
  simp only [find, search_eq_filter_flatMap, List.flatMap_singleton]
  exact filter_visited_isolate hp hstructural (fun m decoded => by rw [hp]) n decoded

/-- Nodes of kinds that are never isolated are found as before. -/
theorem findKinds_isolate {kind : String} (h : kind ∈ structuralKinds) (prune : Bool) (n : Node) :
    (n.isolate src k decoded).findKinds [kind] prune =
      (n.findKinds [kind] prune).map (isolate src k false) := by
  rw [findKinds_singleton, findKinds_singleton]
  refine find_isolate (fun m decoded => ?_) (fun m hm => ?_) prune n
  · rw [Bool.eq_iff_iff, isKind_iff, isKind_iff]
    exact kind_isolate_eq_iff h
  · rwa [isKind_iff.mp hm]

end searches

/-! ## Literals -/

/-- An undecodable literal is one, and fails. -/
theorem exists_failure? {n : Node} (h : n.isUndecodable src = true) :
    n.isLiteral = true ∧ ∃ e, n.failure? src = some e := by
  rw [isUndecodable, Bool.and_eq_true] at h
  exact ⟨h.1, Option.isSome_iff_exists.mp h.2⟩

/-- Any other literal does not fail. -/
theorem failure?_eq_none {n : Node} (h : n.isUndecodable src = false)
    (hliteral : n.isLiteral = true) : n.failure? src = none := by
  rw [isUndecodable, hliteral, Bool.true_and] at h
  exact Option.isNone_iff_eq_none.mp (by rw [← Option.not_isSome, h]; rfl)

/-- An isolated literal is of the inert kind, so it is no literal any more. -/
theorem kind_isolate_of_isUndecodable {n : Node} (h : n.isUndecodable src = true) :
    (n.isolate src k true).kind = k.kind := by
  rw [kind_isolate, h]
  rfl

/-- A node that can be decoded keeps its kind. -/
theorem kind_isolate_of_decodable {n : Node} (h : n.isUndecodable src = false) :
    (n.isolate src k decoded).kind = n.kind := by
  rw [kind_isolate, h, Bool.and_false]
  rfl

/-- A literal that cannot be decoded is no template afterwards. -/
theorem isPlainTemplate_isolate_of_isUndecodable {n : Node} (h : n.isUndecodable src = true) :
    (n.isolate src k true).isPlainTemplate = false := by
  rw [isPlainTemplate, kind_isolate_of_isUndecodable h, decide_eq_false k.ne_templateString]
  rfl

/-- One that can be decoded stays a template, or none. -/
theorem isPlainTemplate_isolate_of_decodable {n : Node} (h : n.isUndecodable src = false) :
    (n.isolate src k decoded).isPlainTemplate = n.isPlainTemplate := by
  have hsubstitution : ∀ c : Node, (c.isolate src k n.isDecoding).kind =
      Kind.templateSubstitution ↔ c.kind = Kind.templateSubstitution :=
    fun c => kind_isolate_eq_iff (by decide)
  unfold isPlainTemplate namedChildren
  rw [kind_isolate_of_decodable h, children_isolate]
  simp [List.filter_map, Function.comp_def, hsubstitution]

/-- A string that cannot be decoded has nothing to read once it is isolated. -/
theorem stringValue?_isolate (n : Node) :
    (n.isolate src k true).stringValue? src = .ok (settled (n.stringValue? src)) := by
  have hfault := fault?_stringValue? src n
  cases h : n.isUndecodable src with
  | true =>
      have hlost : settled (n.stringValue? src) = none := by
        by_cases hstring : n.kind = Kind.string
        · obtain ⟨-, e, he⟩ := exists_failure? h
          rw [if_pos hstring, he] at hfault
          exact settled_eq_none hfault
        · rw [stringValue?, if_neg hstring]
          rfl
      rw [hlost, stringValue?, kind_isolate_of_isUndecodable h, if_neg k.ne_string]
  | false =>
      have hkept : (n.isolate src k true).stringValue? src = n.stringValue? src := by
        unfold stringValue? decodedBody
        rw [kind_isolate_of_decodable h, chars_isolate]
      rw [hkept]
      apply eq_ok_settled
      rw [hfault]
      split
      · rename_i hstring
        exact failure?_eq_none h (by simp [isLiteral, hstring])
      · rfl

/-- So has a string or a template. -/
theorem staticValue?_isolate (n : Node) :
    (n.isolate src k true).staticValue? src = .ok (settled (n.staticValue? src)) := by
  have hfault := fault?_staticValue? src n
  cases h : n.isUndecodable src with
  | true =>
      obtain ⟨hliteral, e, he⟩ := exists_failure? h
      rw [if_pos hliteral, he] at hfault
      rw [settled_eq_none hfault, staticValue?, kind_isolate_of_isUndecodable h,
        if_neg k.ne_string, isPlainTemplate_isolate_of_isUndecodable h]
      rfl
  | false =>
      have hkept : (n.isolate src k true).staticValue? src = n.staticValue? src := by
        unfold staticValue? stringValue? decodedBody
        rw [kind_isolate_of_decodable h, isPlainTemplate_isolate_of_decodable h, chars_isolate]
      rw [hkept]
      apply eq_ok_settled
      rw [hfault]
      split
      · rename_i hliteral
        exact failure?_eq_none h hliteral
      · rfl

/-- A property key of an inert kind counts as computed. -/
theorem InertKind.not_static (k : InertKind) : k.kind ∉ staticKeyKinds := by
  intro hmem
  simp only [staticKeyKinds, List.mem_cons, List.not_mem_nil, or_false] at hmem
  rcases hmem with hk | hk | hk | hk
  · exact k.not_structural (hk ▸ by decide)
  · exact k.not_structural (hk ▸ by decide)
  · exact k.ne_string hk
  · exact k.not_structural (hk ▸ by decide)

/-- A key that cannot be decoded counts as computed once it is isolated. -/
theorem keyName?_isolate (n : Node) :
    (n.isolate src k true).keyName? src = .ok (settled (n.keyName? src)) := by
  have hfault := fault?_keyName? src n
  cases h : n.isUndecodable src with
  | true =>
      have hlost : settled (n.keyName? src) = none := by
        obtain ⟨hliteral, e, he⟩ := exists_failure? h
        by_cases hstring : n.kind = Kind.string
        · rw [if_pos hstring, he] at hfault
          exact settled_eq_none hfault
        · have htemplate : n.kind = Kind.templateString := by
            simp only [isLiteral, isPlainTemplate, hstring, decide_false, Bool.false_or,
              Bool.and_eq_true, decide_eq_true_eq] at hliteral
            exact hliteral.1
          rw [keyName?, if_neg (by rw [htemplate]; decide)]
          rfl
      rw [hlost, keyName?, kind_isolate_of_isUndecodable h, if_neg (by simpa using k.not_static)]
  | false =>
      have hkept : (n.isolate src k true).keyName? src = n.keyName? src := by
        unfold keyName? stringValue? decodedBody
        rw [kind_isolate_of_decodable h, chars_isolate, text_isolate]
      rw [hkept]
      apply eq_ok_settled
      rw [hfault]
      split
      · rename_i hstring
        exact failure?_eq_none h (by simp [isLiteral, hstring])
      · rfl

end Node

end MessageHarvest
