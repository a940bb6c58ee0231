import MessageHarvest.Proofs.Message.Multiplicity
import MessageHarvest.Proofs.Syntax.Extent
import Mathlib.Data.List.Pairwise

/-!
# Results come in the order of the source

Searches list their results in document order, which in a tree that is laid out properly is the
order of the ranges of bytes. So the messages of tags and of calls come in the order in which they
are written.

* `Node.located_comesBefore`: the matches of any search start one after the other, and of two of
  them the later one lies below the earlier one or behind its end.
* `Node.find_endsBefore`: with pruning the ranges of the matches lie apart, from left to right.
* `LeftToRight extract objects messages`: the messages are those of some objects whose ranges lie
  apart, from left to right.
* **Results come in source order** (`Node.find_inSourceOrder`): the results of a search for kinds,
  the messages of the tags of a name, and the messages of the calls of a callee.
-/

namespace MessageHarvest

/-- The ranges of the objects lie apart, from left to right, and the messages are what `extract`
finds in them, in this order. -/
structure LeftToRight (extract : Node → Except Escape.Error (List Message)) (objects : List Node)
    (messages : List Message) : Prop where
  apart : objects.Pairwise Node.EndsBefore
  reported : ∃ parts, List.Forall₂ (fun object part => extract object = .ok part) objects parts ∧
    messages = parts.flatten

/-- What is found in a tree comes in the order of the source. -/
structure Node.InSourceOrder (root : Node) : Prop where
  /-- What a search lists are all nodes of the kinds, with pruning those below no other one. Each
  starts no earlier than those before it, and it lies below such a node or behind its end. -/
  found : ∀ kinds prune, ∃ results : List (Place × Node),
    root.findKinds kinds prune = results.map (·.2) ∧
      (∀ q m, (q, m) ∈ results ↔ root.at? q = some m ∧ m.kind ∈ kinds ∧
        (prune = true → ClearAbove (fun a => kinds.contains a.kind) root q)) ∧
      results.Pairwise fun x y => root.ComesBefore x.1 y.1
  starts : ∀ kinds prune, (root.findKinds kinds prune).Pairwise StartsBy
  /-- With pruning they lie apart. -/
  apart : ∀ kinds, (root.findKinds kinds true).Pairwise EndsBefore
  /-- The messages of tags come in the order in which the tags start. -/
  tags : ∀ src name messages, root.tagMessages src name = .ok messages →
    ∃ block : List TagReport, messages = block.map (·.message) ∧
      (∀ r, r ∈ block ↔ r.name = name ∧ r.Holds src root) ∧
      block.Pairwise fun r s => root.ComesBefore r.place s.place
  /-- The messages of calls come by declarator, and those of a call come from its object literals
  from left to right. -/
  calls : ∀ src callee extract messages, root.callMessages src callee extract = .ok messages →
    ∃ parts, List.Forall₂
      (fun declarator part => LeftToRight extract (declarator.candidates src callee) part)
      (root.findKinds [Kind.variableDeclarator] false) parts ∧ messages = parts.flatten

namespace Node

variable {root : Node} {p : Node → Bool}

/-! ## Searches -/

/-- **The matches of a search** come in source order. -/
theorem located_comesBefore (h : root.LaidOut) (p : Node → Bool) (prune : Bool) :
    (root.located p prune).Pairwise fun x y => root.ComesBefore x.1 y.1 := by
  apply (located_sorted root prune).imp_of_mem
  rintro ⟨q, m⟩ ⟨r, n⟩ hx hy hlt
  exact h.comesBefore (mem_located_iff.mp hx).1 (mem_located_iff.mp hy).1 hlt

/-- What a search finds starts in the order of the source. -/
theorem find_startsBy (h : root.LaidOut) (p : Node → Bool) (prune : Bool) :
    (root.find p prune).Pairwise StartsBy := by
  rw [find_eq_map_located, List.pairwise_map]
  apply (located_comesBefore h p prune).imp_of_mem
  rintro ⟨q, m⟩ ⟨r, n⟩ hx hy ⟨hq, hr, hstarts, -⟩
  obtain rfl := Option.some.inj (hq.symm.trans (mem_located_iff.mp hx).1)
  obtain rfl := Option.some.inj (hr.symm.trans (mem_located_iff.mp hy).1)
  exact hstarts

/-- **With pruning** no match lies below another one, so that all ranges lie apart. -/
theorem find_endsBefore (h : root.LaidOut) (p : Node → Bool) :
    (root.find p true).Pairwise EndsBefore := by
  rw [find_eq_map_located, List.pairwise_map]
  apply (located_sorted root true).imp_of_mem
  rintro ⟨q, m⟩ ⟨r, n⟩ hx hy hlt
  obtain ⟨hm, hpm, -⟩ := mem_located_iff.mp hx
  obtain ⟨hn, -, hclear⟩ := mem_located_iff.mp hy
  rcases h.prefix_or_endsBefore hm hn hlt with hbelow | hends
  · have hne : q ≠ r := by
      rintro rfl
      exact List.lt_irrefl _ hlt
    have hno := hclear rfl q m hbelow hne hm
    rw [hpm] at hno
    cases hno
  · exact hends

/-! ## Calls -/

/-- The object literals that a call is given lie apart. -/
theorem candidates_endsBefore {src : Source} {callee : String} {declarator : Node}
    (h : declarator.LaidOut) : (declarator.candidates src callee).Pairwise EndsBefore := by
  rw [candidates, ← map_snd_argument?]
  cases hargument : declarator.argument? src callee with
  | none => exact List.Pairwise.nil
  | some x =>
      have hat := (argument?_eq_some_iff.mp hargument).at?
      exact find_endsBefore (h.of_at? hat) _

/-- What a call yields comes from its object literals, from left to right. -/
theorem leftToRight_of_gather {src : Source} {callee : String} {declarator : Node}
    (h : declarator.LaidOut) {extract : Node → Except Escape.Error (List Message)}
    {messages : List Message}
    (hmessages : gather extract (declarator.candidates src callee) = .ok messages) :
    LeftToRight extract (declarator.candidates src callee) messages :=
  ⟨candidates_endsBefore h, exists_forall₂_of_gather hmessages⟩

/-- What a search finds is laid out as the tree is. -/
theorem laidOut_of_mem_find (h : root.LaidOut) {prune : Bool} {m : Node}
    (hm : m ∈ root.find p prune) : m.LaidOut := by
  rw [find_eq_map_located, List.mem_map] at hm
  obtain ⟨⟨q, m⟩, hmem, rfl⟩ := hm
  exact h.of_at? (mem_located_iff.mp hmem).1

/-- **Results come in source order**, if only the tree is laid out as that of a source is: each node
within its parent, and siblings one after the other. -/
theorem find_inSourceOrder {root : Node} (h : root.LaidOut) : root.InSourceOrder where
  found kinds prune := by
    refine ⟨_, find_eq_map_located _ root prune, ?_, located_comesBefore h _ prune⟩
    intro q m
    rw [mem_located_iff, List.contains_iff_mem]
  starts kinds prune := find_startsBy h _ prune
  apart kinds := find_endsBefore h _
  tags src name messages hmessages := by
    refine ⟨root.tagBlock src name, eq_map_of_tagMessages hmessages, fun r => mem_tagBlock_iff, ?_⟩
    apply (tagBlock_sorted name).imp_of_mem
    intro r s hr hs hlt
    obtain ⟨tag, htag, -⟩ := holds_iff.mp (mem_tagBlock_iff.mp hr).2
    obtain ⟨tag', htag', -⟩ := holds_iff.mp (mem_tagBlock_iff.mp hs).2
    exact h.comesBefore htag htag' hlt
  calls src callee extract messages hmessages := by
    obtain ⟨parts, hparts, rfl⟩ := exists_forall₂_of_gather hmessages
    refine ⟨parts, ?_, rfl⟩
    have hlaid : ∀ declarator ∈ root.findKinds [Kind.variableDeclarator] false,
        declarator.LaidOut := fun _ hmem => laidOut_of_mem_find h hmem
    apply ((List.forall₂_and_left _ _).mpr ⟨hlaid, hparts⟩).imp
    rintro declarator part ⟨hdeclarator, hpart⟩
    exact leftToRight_of_gather hdeclarator hpart

/-- Two object literals in a call, and a tag in an attribute of another one. -/
def nestedAndBeside : Source :=
  "const c = f([\x7ba: \x7bid: 'a', defaultMessage: 'A'\x7d\x7d, \x7b\x7d]),
    t = <T id='b' defaultMessage='B' i=\x7b<T id='c' defaultMessage='C' />\x7d />;".toUTF8

/-- `find_inSourceOrder` there. -/
theorem inSourceOrder_nestedAndBeside :
    ∃ root, Tsx.parse nestedAndBeside = root ∧ root.LaidOut ∧
      (root.findKinds [Kind.object, Kind.pair] true).map (·.kind) = ["object", "object"] ∧
      (root.tagMessages nestedAndBeside "T").map (·.map (·.id)) = .ok ["b", "c"] ∧
      (root.bulkMessages nestedAndBeside "f").map (·.map (·.id)) = .ok ["a"] ∧
      root.InSourceOrder := by
  have hdecided : (Tsx.parse nestedAndBeside).LaidOut ∧
      ((Tsx.parse nestedAndBeside).findKinds [Kind.object, Kind.pair] true).map (·.kind) =
        ["object", "object"] ∧
      ((Tsx.parse nestedAndBeside).tagMessages nestedAndBeside "T").map (·.map (·.id)) =
        .ok ["b", "c"] ∧
      ((Tsx.parse nestedAndBeside).bulkMessages nestedAndBeside "f").map (·.map (·.id)) =
        .ok ["a"] := by
    decide +kernel
  obtain ⟨hlaid, hobjects, htags, hcalls⟩ := hdecided
  exact ⟨_, rfl, hlaid, hobjects, htags, hcalls, find_inSourceOrder hlaid⟩

end Node

end MessageHarvest
