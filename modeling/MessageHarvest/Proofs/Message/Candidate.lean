import MessageHarvest.Proofs.Message.Gather
import MessageHarvest.Proofs.Syntax.Place
import MessageHarvest.Tsx.Program
import Mathlib.Data.Option.Basic

/-!
# The candidates of a call

What a pass over the calls of one callee hands to its reader of objects, said of places.

* `CallsWith src callee root d a`: the declarator at `d` is initialized by a call of `callee` whose
  first argument is at `a`. The chain of fields from the one to the other is `Argument`.
* `OutermostObject root a o`: at `o` there is an object literal, at or below `a`, and none lies
  between the two.
* `Candidate src callee root d o`: both, for some argument.
* `Node.handed` computes the candidates with their declarators. It lists exactly the candidates
  (`mem_handed_iff`), by declarator and then by object in document order (`handed_sorted`), and
  `Node.callMessages` reads exactly these (`callMessages_eq_gather_handed`).
* **What the calls of a callee yield** (`callMessages_eq_ok_flatMap`): what the reader finds in the
  candidates, in this order, if it fails on none of them.
-/

namespace MessageHarvest

namespace Node

/-! ## The first child of a sort -/

/-- The child `c` of `n`, which has the index `i`, is the first one that satisfies `p`. -/
structure FirstChild (n : Node) (p : Node → Bool) (i : Nat) (c : Node) : Prop where
  child : n.children[i]? = some c
  holds : p c = true
  first : ∀ j b, j < i → n.children[j]? = some b → p b = false

/-- The first child that satisfies `p`, with its index. -/
def firstChild? (n : Node) (p : Node → Bool) : Option (Nat × Node) :=
  (n.children.findIdx? p).bind fun i => (n.children[i]?).map (i, ·)

/-- What is found is the first child of which the property holds, with its index. -/
theorem firstChild?_eq_some_iff {n c : Node} {p : Node → Bool} {i : Nat} :
    n.firstChild? p = some (i, c) ↔ FirstChild n p i c := by
  simp only [firstChild?, Option.bind_eq_some_iff, Option.map_eq_some_iff, Prod.mk.injEq,
    List.findIdx?_eq_some_iff_getElem]
  constructor
  · rintro ⟨i, ⟨hi, hp, hfirst⟩, c, hc, rfl, rfl⟩
    refine ⟨hc, ?_, fun j b hj hb => ?_⟩
    · rw [List.getElem?_eq_getElem hi] at hc
      cases hc; exact hp
    · rw [List.getElem?_eq_getElem (by omega)] at hb
      cases hb; simpa using hfirst j hj
  · rintro ⟨hc, hp, hfirst⟩
    obtain ⟨hi, rfl⟩ := List.getElem?_eq_some_iff.mp hc
    refine ⟨i, ⟨hi, hp, fun j hj => ?_⟩, _, hc, rfl, rfl⟩
    simpa using hfirst j _ hj (List.getElem?_eq_getElem (by omega))

/-- Without its index it is what the library finds. -/
theorem map_snd_firstChild? (n : Node) (p : Node → Bool) :
    (n.firstChild? p).map (·.2) = n.children.find? p := by
  cases h : n.firstChild? p with
  | none =>
      have hnone : n.children.findIdx? p = none := by
        rw [firstChild?, Option.bind_eq_none_iff] at h
        cases hi : n.children.findIdx? p with
        | none => rfl
        | some i =>
            have hlt := (List.findIdx?_eq_some_iff_getElem.mp hi).1
            simpa [List.getElem?_eq_getElem hlt] using h i hi
      symm
      simpa [List.findIdx?_eq_none_iff] using hnone
  | some x =>
      obtain ⟨hc, hp, hfirst⟩ := firstChild?_eq_some_iff.mp h
      obtain ⟨hi, hx⟩ := List.getElem?_eq_some_iff.mp hc
      refine (List.find?_eq_some_iff_getElem.mpr ⟨hp, x.1, hi, hx, fun j hj => ?_⟩).symm
      simpa using hfirst j _ hj (List.getElem?_eq_getElem (by omega))

/-- The child that fills a field is the first that does. -/
theorem childByField?_eq (n : Node) (field : String) :
    n.childByField? field = (n.firstChild? (·.field = some field)).map (·.2) :=
  (map_snd_firstChild? n _).symm

/-- A child that counts: it is named and no comment. -/
def isSignificant (n : Node) : Bool :=
  n.named && n.kind ≠ Kind.comment

/-- The children that count are picked by a property of their own. -/
theorem significantChildren_eq (n : Node) :
    n.significantChildren = n.children.filter isSignificant := by
  rw [significantChildren, namedChildren, List.filter_filter]
  exact List.filter_congr fun c _ => Bool.and_comm _ _

/-- The first of them is the first child that counts. -/
theorem head?_significantChildren (n : Node) :
    n.significantChildren.head? = (n.firstChild? isSignificant).map (·.2) := by
  rw [significantChildren_eq, List.head?_filter, map_snd_firstChild?]

end Node

/-! ## What a candidate is -/

/-- The first argument of the call of the plain name `callee` that initializes the variable of a
declarator, with its place below the declarator. -/
inductive Argument (src : Source) (callee : String) (declarator : Node) : Place → Node → Prop
  | intro {value function arguments argument : Node} {i f j k : Nat}
      (value_first : declarator.FirstChild (·.field = some "value") i value)
      (value_kind : value.kind = Node.Kind.callExpression)
      (function_first : value.FirstChild (·.field = some "function") f function)
      (function_kind : function.kind = Node.Kind.identifier)
      (function_text : function.text src = callee)
      (arguments_first : value.FirstChild (·.field = some "arguments") j arguments)
      (argument_first : arguments.FirstChild Node.isSignificant k argument) :
      Argument src callee declarator [i, j, k] argument

/-- The argument is at its place below the declarator. -/
theorem Argument.at? {src : Source} {callee : String} {declarator argument : Node} {r : Place}
    (h : Argument src callee declarator r argument) : declarator.at? r = some argument := by
  obtain ⟨hv, -, -, -, -, ha, hk⟩ := h
  simp only [Node.at?_cons, Node.at?_nil, hv.child, ha.child, hk.child, Option.bind_some]

/-- There is a variable declarator at `d`, and the first argument of the call of `callee` that
initializes its variable is at `a`. -/
def CallsWith (src : Source) (callee : String) (root : Node) (d a : Place) : Prop :=
  ∃ declarator r argument, root.at? d = some declarator ∧
    declarator.kind = Node.Kind.variableDeclarator ∧
    Argument src callee declarator r argument ∧ a = d ++ r

/-- There is an object literal at `o`, which is `a` or below it, and none at the places from `a`
on that lie above `o`. -/
structure OutermostObject (root : Node) (a o : Place) : Prop where
  below : a <+: o
  object : ∃ n, root.at? o = some n ∧ n.kind = Node.Kind.object
  outermost : ∀ q n, a <+: q → q <+: o → q ≠ o → root.at? q = some n → n.kind ≠ Node.Kind.object

/-- The object literal at `o` is a candidate for the declarator at `d`: an outermost one in the
first argument of the call of `callee` that initializes the declarator's variable. -/
def Candidate (src : Source) (callee : String) (root : Node) (d o : Place) : Prop :=
  ∃ a, CallsWith src callee root d a ∧ OutermostObject root a o

namespace Node

/-! ## Computing the candidates -/

/-- The first argument of the call of `callee` that initializes the variable of a declarator, with
its place below the declarator. -/
def argument? (src : Source) (callee : String) (declarator : Node) : Option (Place × Node) := do
  let (i, value) ← declarator.firstChild? (·.field = some "value")
  guard (value.kind = Kind.callExpression)
  let (_, function) ← value.firstChild? (·.field = some "function")
  guard (function.kind = Kind.identifier)
  guard (function.text src = callee)
  let (j, arguments) ← value.firstChild? (·.field = some "arguments")
  let (k, argument) ← arguments.firstChild? isSignificant
  return ([i, j, k], argument)

/-- Without its place this is the argument that the pass looks into. -/
theorem map_snd_argument? (src : Source) (callee : String) (declarator : Node) :
    (declarator.argument? src callee).map (·.2) =
      (declarator.initializingCall? src callee).bind firstArgument? := by
  simp only [argument?, initializingCall?, childByField?_eq, guard]
  rcases declarator.firstChild? (·.field = some "value") with _ | ⟨i, value⟩
  · rfl
  by_cases hvalue : value.kind = Kind.callExpression
  · rcases hf : value.firstChild? (·.field = some "function") with _ | ⟨f, function⟩
    · simp [hvalue, hf]
    · by_cases hfunction : function.kind = Kind.identifier <;>
        by_cases htext : function.text src = callee
      · rcases ha : value.firstChild? (·.field = some "arguments") with _ | ⟨j, arguments⟩
        · simp [hvalue, hf, hfunction, htext, firstArgument?, childByField?_eq, ha]
        · rcases hk : arguments.firstChild? isSignificant with _ | ⟨k, argument⟩ <;>
            simp [hvalue, hf, hfunction, htext, firstArgument?, childByField?_eq, ha,
              head?_significantChildren, hk]
      all_goals simp [hvalue, hf, hfunction, htext]
  · simp [hvalue]

/-- What is computed is the argument. -/
theorem argument?_eq_some_iff {src : Source} {callee : String} {declarator argument : Node}
    {r : Place} :
    declarator.argument? src callee = some (r, argument) ↔
      Argument src callee declarator r argument := by
  simp only [argument?, Option.bind_eq_bind, Option.bind_eq_some_iff, Option.guard_eq_some',
    Option.pure_def, Option.some.injEq, Prod.exists, Prod.mk.injEq, firstChild?_eq_some_iff]
  constructor
  · rintro ⟨i, value, hv, -, hvkind, f, function, hf, -, hfkind, -, hftext, j, arguments, ha, k,
      argument, hk, rfl, rfl⟩
    exact .intro hv hvkind hf hfkind hftext ha hk
  · rintro ⟨hv, hvkind, hf, hfkind, hftext, ha, hk⟩
    exact ⟨_, _, hv, (), hvkind, _, _, hf, (), hfkind, (), hftext, _, _, ha, _, _, hk, rfl, rfl⟩

/-- Whether a node is of the given kind. -/
def isKind (kind : String) (n : Node) : Bool :=
  n.kind = kind

/-- A node is of a kind iff that is its kind. -/
theorem isKind_iff {kind : String} {n : Node} : n.isKind kind = true ↔ n.kind = kind := by
  simp [isKind]

/-- To look for one kind is to look for the nodes of that kind. -/
theorem findKinds_singleton (n : Node) (kind : String) (prune : Bool) :
    n.findKinds [kind] prune = n.find (isKind kind) prune := by
  have h : (fun m : Node => [kind].contains m.kind) = isKind kind := by
    funext m
    simp [isKind]
  rw [findKinds, h]

end Node

/-- An object literal that a pass hands to its reader: the declarator for the sake of which it does
so, the place of the object literal, and the object literal itself. -/
structure Handover where
  declarator : Place
  place : Place
  object : Node

/-- By declarator, and then by object, in document order. -/
def Handover.Before (x y : Handover) : Prop :=
  x.declarator < y.declarator ∨ x.declarator = y.declarator ∧ x.place < y.place

namespace Node

/-- What a pass hands over for the sake of the declarator at `d`. -/
def handedFor (src : Source) (callee : String) (d : Place) (declarator : Node) : List Handover :=
  match declarator.argument? src callee with
  | none => []
  | some (r, argument) =>
    (argument.located (isKind Kind.object) true).map fun x => ⟨d, d ++ r ++ x.1, x.2⟩

/-- What a pass over the calls of `callee` hands to its reader, in this order. -/
def handed (src : Source) (callee : String) (root : Node) : List Handover :=
  (root.located (isKind Kind.variableDeclarator) false).flatMap fun x =>
    x.2.handedFor src callee x.1

variable {src : Source} {callee : String} {root : Node}

/-- Without their places these are the candidates that the search yields. -/
theorem map_object_handedFor (d : Place) (declarator : Node) :
    (declarator.handedFor src callee d).map (·.object) = declarator.candidates src callee := by
  rw [handedFor, candidates, ← map_snd_argument?]
  cases declarator.argument? src callee with
  | none => rfl
  | some x => simp [findKinds_singleton, find_eq_map_located, Function.comp_def]

/-- **What a pass does**: it runs its reader on all that is handed over, one after the other. -/
theorem callMessages_eq_gather_handed (extract : Node → Except Escape.Error (List Message)) :
    root.callMessages src callee extract =
      gather (fun x => extract x.object) (root.handed src callee) := by
  rw [callMessages, findKinds_singleton, find_eq_map_located, gather_map, handed, gather_flatMap]
  refine gather_congr fun x _ => ?_
  rw [← map_object_handedFor x.1, gather_map]

/-- Below a node that is at `a`, the outermost object literals are those of the node itself. -/
theorem outermostObject_append_iff {argument : Node} {a q : Place}
    (ha : root.at? a = some argument) :
    OutermostObject root a (a ++ q) ↔
      (∃ n, argument.at? q = some n ∧ n.kind = Kind.object) ∧
        ClearAbove (isKind Kind.object) argument q := by
  have hat : ∀ t, root.at? (a ++ t) = argument.at? t := fun t => by rw [at?_append, ha]; rfl
  constructor
  · rintro ⟨-, hobject, houter⟩
    refine ⟨by simpa only [hat] using hobject, fun t n ht hne hn => ?_⟩
    have := houter (a ++ t) n (List.prefix_append a t) ((List.prefix_append_right_inj a).mpr ht)
      (fun h => hne (List.append_cancel_left h)) (by rw [hat, hn])
    simpa [isKind] using this
  · rintro ⟨hobject, hclear⟩
    refine ⟨List.prefix_append a q, by simpa only [hat] using hobject, ?_⟩
    rintro _ n ⟨t, rfl⟩ ht hne hn
    have := hclear t n ((List.prefix_append_right_inj a).mp ht) (fun h => hne (h ▸ rfl))
      (by rw [← hat, hn])
    simpa [isKind] using this

/-- What a declarator hands over lies in the first argument of the call that initializes it. -/
theorem mem_handedFor_iff {d d' o : Place} {declarator object : Node} :
    ⟨d', o, object⟩ ∈ declarator.handedFor src callee d ↔
      d' = d ∧ ∃ r argument q, Argument src callee declarator r argument ∧
        (q, object) ∈ argument.located (isKind Kind.object) true ∧ o = d ++ r ++ q := by
  simp only [← argument?_eq_some_iff, handedFor]
  cases declarator.argument? src callee with
  | none => simp
  | some x =>
      simp only [List.mem_map, Handover.mk.injEq, Prod.exists, Option.some.injEq]
      constructor
      · rintro ⟨q, m, hm, rfl, rfl, rfl⟩
        exact ⟨rfl, x.1, x.2, q, rfl, hm, rfl⟩
      · rintro ⟨rfl, r, argument, q, rfl, hm, rfl⟩
        exact ⟨q, object, hm, rfl, rfl, rfl⟩

/-- **What is handed over** are exactly the candidates. -/
theorem mem_handed_iff {d o : Place} {object : Node} :
    ⟨d, o, object⟩ ∈ root.handed src callee ↔
      Candidate src callee root d o ∧ root.at? o = some object := by
  simp only [handed, List.mem_flatMap, Prod.exists, mem_handedFor_iff, mem_located_iff, isKind_iff,
    forall_const]
  constructor
  · rintro ⟨_, declarator, ⟨hd, hkind, -⟩, rfl, r, argument, q, harg, ⟨hq, hobj, hclear⟩, rfl⟩
    have hr : root.at? (d ++ r) = some argument := by rw [at?_append, hd]; exact harg.at?
    refine ⟨⟨d ++ r, ⟨declarator, r, argument, hd, hkind, harg, rfl⟩, ?_⟩, ?_⟩
    · exact (outermostObject_append_iff hr).mpr ⟨⟨object, hq, hobj⟩, hclear⟩
    · rw [at?_append, hr]; exact hq
  · rintro ⟨⟨_, ⟨declarator, r, argument, hd, hkind, harg, rfl⟩, houter⟩, ho⟩
    have hr : root.at? (d ++ r) = some argument := by rw [at?_append, hd]; exact harg.at?
    obtain ⟨q, rfl⟩ := houter.below
    obtain ⟨⟨n, hq, hobj⟩, hclear⟩ := (outermostObject_append_iff hr).mp houter
    rw [at?_append, hr] at ho
    obtain rfl : n = object := Option.some.inj (hq.symm.trans ho)
    exact ⟨d, declarator, ⟨hd, hkind, nofun⟩, rfl, r, argument, q, harg, ⟨hq, hobj, hclear⟩, rfl⟩

/-- It is handed over by declarator, and then by object, in document order. -/
theorem handed_sorted : (root.handed src callee).Pairwise Handover.Before := by
  rw [handed, List.pairwise_flatMap]
  constructor
  · intro x _
    rw [handedFor]
    split
    · exact List.Pairwise.nil
    · refine List.pairwise_map.mpr ((located_sorted _ _).imp fun h => .inr ⟨rfl, ?_⟩)
      exact List.append_left_lt h
  · refine (located_sorted root false).imp fun {x y} h v hv w hw => .inl ?_
    rw [(mem_handedFor_iff.mp hv).1, (mem_handedFor_iff.mp hw).1]
    exact h

/-- **What the calls of a callee yield**: if the reader fails on no candidate, the messages of a
pass are what it finds in the candidates, one after the other, by declarator and then by object
literal in document order. -/
theorem callMessages_eq_ok_flatMap (src : Source) (callee : String) (root : Node)
    (extract : Node → Except Escape.Error (List Message)) (found : Node → List Message)
    (hfound : ∀ d o object, Candidate src callee root d o → root.at? o = some object →
      extract object = .ok (found object)) :
    ∃ pairs : List (Place × Place),
      pairs.Pairwise (fun x y => x.1 < y.1 ∨ x.1 = y.1 ∧ x.2 < y.2) ∧
      (∀ d o, (d, o) ∈ pairs ↔ Candidate src callee root d o) ∧
      root.callMessages src callee extract =
        .ok (pairs.flatMap fun x => ((root.at? x.2).map found).getD []) := by
  refine ⟨(root.handed src callee).map fun x => (x.declarator, x.place), ?_, fun d o => ?_, ?_⟩
  · rw [List.pairwise_map]
    exact handed_sorted
  · simp only [List.mem_map, Prod.mk.injEq]
    constructor
    · rintro ⟨⟨d, o, object⟩, hmem, rfl, rfl⟩
      exact (mem_handed_iff.mp hmem).1
    · intro hc
      have ⟨_, _, houter⟩ := hc
      obtain ⟨object, hat, -⟩ := houter.object
      exact ⟨⟨d, o, object⟩, mem_handed_iff.mpr ⟨hc, hat⟩, rfl, rfl⟩
  · rw [callMessages_eq_gather_handed, List.flatMap_map]
    refine gather_eq_ok _ fun x hx => ?_
    obtain ⟨hc, hat⟩ := mem_handed_iff.mp hx
    rw [hfound _ _ _ hc hat, hat]
    rfl

/-- A program whose outer call has one object literal below an assertion and an array, and beside it
a function with a declarator and a call of its own. -/
def nestedDeclarations : Source :=
  "const m = all([\x7b a: \x7b id: 'x', defaultMessage: 'y' \x7d \x7d as const, () => \x7b
    const n = all(\x7b b: \x7b id: 'z', defaultMessage: 'w' \x7d \x7d); \x7d]);".toUTF8

/-- `callMessages_eq_ok_flatMap` there, for the reader of maps. The object literal in the function
is handed over by both calls, so that its message is found twice. -/
theorem callMessages_nestedDeclarations :
    (∀ d o object, Candidate nestedDeclarations "all" (Tsx.parse nestedDeclarations) d o →
      (Tsx.parse nestedDeclarations).at? o = some object →
      mapMessages nestedDeclarations object =
        .ok ((mapMessages nestedDeclarations object).toOption.getD [])) ∧
    (∃ pairs : List (Place × Place),
      pairs.Pairwise (fun x y => x.1 < y.1 ∨ x.1 = y.1 ∧ x.2 < y.2) ∧
      (∀ d o, (d, o) ∈ pairs ↔
        Candidate nestedDeclarations "all" (Tsx.parse nestedDeclarations) d o) ∧
      (pairs.flatMap fun x => (((Tsx.parse nestedDeclarations).at? x.2).map fun object =>
          (mapMessages nestedDeclarations object).toOption.getD []).getD []) =
        [⟨"x", "y", none, by decide, by decide⟩, ⟨"z", "w", none, by decide, by decide⟩,
          ⟨"z", "w", none, by decide, by decide⟩]) ∧
    (Tsx.parse nestedDeclarations).callMessages nestedDeclarations "all"
        (mapMessages nestedDeclarations) =
      .ok [⟨"x", "y", none, by decide, by decide⟩, ⟨"z", "w", none, by decide, by decide⟩,
        ⟨"z", "w", none, by decide, by decide⟩] := by
  have hall : ((Tsx.parse nestedDeclarations).handed nestedDeclarations "all").all
      (fun x => (fault? (mapMessages nestedDeclarations x.object)).isNone) = true ∧
      (Tsx.parse nestedDeclarations).callMessages nestedDeclarations "all"
          (mapMessages nestedDeclarations) =
        .ok [⟨"x", "y", none, by decide, by decide⟩, ⟨"z", "w", none, by decide, by decide⟩,
          ⟨"z", "w", none, by decide, by decide⟩] := by
    decide +kernel
  have hfound : ∀ d o object,
      Candidate nestedDeclarations "all" (Tsx.parse nestedDeclarations) d o →
      (Tsx.parse nestedDeclarations).at? o = some object →
      mapMessages nestedDeclarations object =
        .ok ((mapMessages nestedDeclarations object).toOption.getD []) := by
    intro d o object hc hat
    have hnone := List.all_eq_true.mp hall.1 _ (mem_handed_iff.mpr ⟨hc, hat⟩)
    obtain ⟨ms, hms⟩ := fault?_eq_none_iff.mp (Option.isNone_iff_eq_none.mp hnone)
    rw [hms]
    rfl
  obtain ⟨pairs, hsorted, hmem, hrun⟩ := callMessages_eq_ok_flatMap _ _ _ _ _ hfound
  have hmessages := Except.ok.inj (hrun.symm.trans hall.2)
  exact ⟨hfound, ⟨pairs, hsorted, hmem, hmessages⟩, hall.2⟩

end Node

end MessageHarvest
