import MessageHarvest.Proofs.Message.Candidate
import MessageHarvest.Message.Extraction
import Mathlib.Data.List.Nodup

/-!
# Object literals that are read twice

Declarators are looked for everywhere, also inside the first argument of another matching call, and
the search for object literals in an argument does not end at inner declarators. So one object
literal can be a candidate for two declarators, and a pass then reads it twice.

* `Overlap src callee root a a'`: of two calls of `callee`, the one has its first argument `a'`
  inside the first argument `a` of the other, no object literal encloses `a'` within `a`, and `a'`
  holds an object literal.
* **Read once, exactly when no two calls overlap** (`handed_once_iff`): a pass reads each object
  literal at most once iff no two calls overlap. Then each entry of a map is read at most once, too.
* `nestedCall_read_twice`: an overlap, whose only message comes out twice.
-/

namespace MessageHarvest

/-- The first argument of a call of `callee` is at `a'`, inside the first argument of another one,
which is at `a`; no object literal at the places from `a` on lies above `a'`, and there is one that
is at `a'` or below it. -/
structure Overlap (src : Source) (callee : String) (root : Node) (a a' : Place) : Prop where
  outer : ∃ d, CallsWith src callee root d a
  inner : ∃ d, CallsWith src callee root d a'
  below : a <+: a'
  ne : a ≠ a'
  clear : ∀ q n, a <+: q → q <+: a' → q ≠ a' → root.at? q = some n → n.kind ≠ Node.Kind.object
  object : ∃ o n, a' <+: o ∧ root.at? o = some n ∧ n.kind = Node.Kind.object

variable {src : Source} {callee : String} {root : Node}

/-! ## Arguments and declarators -/

/-- A declarator has one argument at most. -/
theorem CallsWith.argument_unique {d a a' : Place} (h : CallsWith src callee root d a)
    (h' : CallsWith src callee root d a') : a = a' := by
  obtain ⟨declarator, r, argument, hd, -, harg, rfl⟩ := h
  obtain ⟨declarator', r', argument', hd', -, harg', rfl⟩ := h'
  obtain rfl : declarator = declarator' := Option.some.inj (hd.symm.trans hd')
  rw [← Node.argument?_eq_some_iff] at harg harg'
  have := Option.some.inj (harg.symm.trans harg')
  rw [(Prod.mk.inj this).1]

/-- The argument is three steps below its declarator, so it belongs to no other one. -/
theorem CallsWith.declarator_unique {d d' a : Place} (h : CallsWith src callee root d a)
    (h' : CallsWith src callee root d' a) : d = d' := by
  obtain ⟨-, -, -, -, -, ⟨⟩, rfl⟩ := h
  obtain ⟨-, -, -, -, -, ⟨⟩, heq⟩ := h'
  exact (List.append_inj' heq rfl).1

/-! ## Outermost object literals -/

/-- Where an object literal is at a place or below it, there is an outermost one. -/
theorem exists_outermostObject {a o : Place} (hao : a <+: o)
    (hobject : ∃ n, root.at? o = some n ∧ n.kind = Node.Kind.object) :
    ∃ o', OutermostObject root a o' := by
  by_cases habove : ∃ q n, a <+: q ∧ q <+: o ∧ q ≠ o ∧ root.at? q = some n ∧
      n.kind = Node.Kind.object
  · obtain ⟨q, n, haq, hqo, hne, hn⟩ := habove
    have hlt : q.length < o.length :=
      Nat.lt_of_le_of_ne hqo.length_le fun h => hne (hqo.eq_of_length h)
    exact exists_outermostObject haq ⟨n, hn⟩
  · exact ⟨o, hao, hobject, fun q n haq hqo hne hn hkind => habove ⟨q, n, haq, hqo, hne, hn, hkind⟩⟩
termination_by o.length

/-- An object literal that is outermost in the inner one of two overlapping arguments is outermost
in the outer one. -/
theorem Overlap.outermostObject {a a' o : Place} (h : Overlap src callee root a a')
    (ho : OutermostObject root a' o) : OutermostObject root a o := by
  refine ⟨h.below.trans ho.below, ho.object, fun q n haq hqo hne hn => ?_⟩
  rcases List.prefix_or_prefix_of_prefix hqo ho.below with hqa | haq'
  · by_cases heq : q = a'
    · subst heq
      exact ho.outermost q n List.prefix_rfl hqo hne hn
    · exact h.clear q n haq hqa heq hn
  · exact ho.outermost q n haq' hqo hne hn

/-- Two arguments in which one object literal is outermost are the same, or overlap. -/
theorem overlap_of_outermostObject {d d' a a' o : Place} (hd : CallsWith src callee root d a)
    (hd' : CallsWith src callee root d' a') (ho : OutermostObject root a o)
    (ho' : OutermostObject root a' o) (hle : a <+: a') (hne : a ≠ a') :
    Overlap src callee root a a' where
  outer := ⟨d, hd⟩
  inner := ⟨d', hd'⟩
  below := hle
  ne := hne
  clear q n haq hqa hq hn := by
    refine ho.outermost q n haq (hqa.trans ho'.below) (fun heq => hq ?_) hn
    subst heq
    exact hqa.eq_of_length_le ho'.below.length_le
  object := by
    obtain ⟨n, hn⟩ := ho'.object
    exact ⟨o, n, ho'.below, hn⟩

namespace Node

/-! ## Reading once -/

/-- Two declarators that share a candidate are the same, unless two calls overlap. -/
theorem Candidate.declarator_unique {d d' o : Place} (hno : ¬ ∃ a a', Overlap src callee root a a')
    (h : Candidate src callee root d o) (h' : Candidate src callee root d' o) : d = d' := by
  obtain ⟨a, hd, ho⟩ := h
  obtain ⟨a', hd', ho'⟩ := h'
  by_cases heq : a = a'
  · subst heq
    exact hd.declarator_unique hd'
  · rcases List.prefix_or_prefix_of_prefix ho.below ho'.below with hle | hle
    · exact absurd ⟨a, a', overlap_of_outermostObject hd hd' ho ho' hle heq⟩ hno
    · exact absurd ⟨a', a, overlap_of_outermostObject hd' hd ho' ho hle (Ne.symm heq)⟩ hno

/-- A pass hands over nothing twice for the sake of one declarator. -/
theorem handed_nodup : (root.handed src callee).Nodup := by
  refine handed_sorted.imp fun {x y} h heq => ?_
  subst heq
  rcases h with h | h
  · exact List.lt_irrefl _ h
  · exact List.lt_irrefl _ h.2

/-- **Read once**: no object literal is handed over twice iff no two calls overlap. -/
theorem map_place_handed_nodup_iff :
    ((root.handed src callee).map (·.place)).Nodup ↔ ¬ ∃ a a', Overlap src callee root a a' := by
  constructor
  · rintro hnodup ⟨a, a', h⟩
    obtain ⟨d, hd⟩ := h.outer
    obtain ⟨d', hd'⟩ := h.inner
    obtain ⟨o, n, hle, hobject⟩ := h.object
    obtain ⟨o', ho'⟩ := exists_outermostObject hle ⟨n, hobject⟩
    obtain ⟨object, hat, -⟩ := ho'.object
    have hmem : ⟨d, o', object⟩ ∈ root.handed src callee :=
      mem_handed_iff.mpr ⟨⟨a, hd, h.outermostObject ho'⟩, hat⟩
    have hmem' : ⟨d', o', object⟩ ∈ root.handed src callee :=
      mem_handed_iff.mpr ⟨⟨a', hd', ho'⟩, hat⟩
    obtain rfl : d = d' :=
      (Handover.mk.inj (List.inj_on_of_nodup_map hnodup hmem hmem' rfl)).1
    exact h.ne (hd.argument_unique hd')
  · refine fun hno => handed_nodup.map_on fun ⟨d, o, n⟩ hx ⟨d', o', n'⟩ hy heq => ?_
    obtain rfl : o = o' := heq
    obtain ⟨hc, hat⟩ := mem_handed_iff.mp hx
    obtain ⟨hc', hat'⟩ := mem_handed_iff.mp hy
    rw [Candidate.declarator_unique hno hc hc', Option.some.inj (hat.symm.trans hat')]

/-! ## The entries of maps -/

/-- The object literal that is the value of a pair, with the index that it has there. -/
def nestedObject? (child : Node) : Option (Nat × Node) :=
  if child.isSignificant && child.kind = Kind.pair then
    (child.firstChild? (·.field = some "value")).filter (·.2.kind = Kind.object)
  else none

/-- The object literals that are values of the pairs of an object literal, with their places. -/
def entries (object : Node) : List (Place × Node) :=
  object.children.zipIdx.filterMap fun x => x.1.nestedObject?.map fun y => ([x.2, y.1], y.2)

/-- Without their places these are the entries that the reader of maps reads. -/
theorem map_snd_entries (object : Node) : object.entries.map (·.2) = object.nestedObjects := by
  rw [entries, nestedObjects, significantChildren_eq, List.filterMap_filter, List.map_filterMap]
  conv_rhs => rw [← List.zipIdx_map_fst 0 object.children, List.filterMap_map]
  congr 1
  funext ⟨child, i⟩
  simp only [Function.comp_apply, nestedObject?, childByField?_eq]
  cases child.isSignificant with
  | false => simp
  | true =>
      by_cases hpair : child.kind = Kind.pair
      · rcases child.firstChild? (·.field = some "value") with _ | ⟨j, value⟩
        · simp
        · by_cases hobject : value.kind = Kind.object <;>
            simp [hpair, hobject, Option.filter]
      · simp [hpair]

/-- An entry of a map is two steps below it, at the place that is given. -/
theorem at?_of_mem_entries {object m : Node} {q : Place} (h : (q, m) ∈ object.entries) :
    q.length = 2 ∧ object.at? q = some m := by
  obtain ⟨⟨child, i⟩, hchild, hx⟩ := List.mem_filterMap.mp h
  obtain ⟨⟨j, value⟩, hvalue, heq⟩ := Option.map_eq_some_iff.mp hx
  cases heq
  rw [nestedObject?] at hvalue
  split at hvalue
  · have hfirst := firstChild?_eq_some_iff.mp (Option.filter_eq_some_iff.mp hvalue).1
    have hi : object.children[i]? = some child := by
      simpa using List.mem_zipIdx_iff_getElem?.mp hchild
    refine ⟨rfl, ?_⟩
    simp only [at?_cons, at?_nil, hi, hfirst.child, Option.bind_some]
  · cases hvalue

/-- No two entries of a map are at the same place. -/
theorem map_fst_entries_nodup (object : Node) : (object.entries.map (·.1)).Nodup := by
  have hidx : object.children.zipIdx.Pairwise (·.2 < ·.2) := by
    rw [← List.pairwise_map, List.zipIdx_map_snd]
    exact List.pairwise_lt_range'
  rw [List.Nodup, List.pairwise_map, entries, List.pairwise_filterMap]
  refine hidx.imp fun {x y} hlt v hv w hw heq => ?_
  obtain ⟨_, -, rfl⟩ := Option.map_eq_some_iff.mp hv
  obtain ⟨_, -, rfl⟩ := Option.map_eq_some_iff.mp hw
  have := (List.cons.inj heq).1
  omega

/-- The entries of all maps that are handed over, with their places. -/
def mapEntries (src : Source) (callee : String) (root : Node) : List (Place × Node) :=
  (root.handed src callee).flatMap fun x => x.object.entries.map fun y => (x.place ++ y.1, y.2)

/-- The entries of all maps are at the places that are given. -/
theorem at?_of_mem_mapEntries {x : Place × Node} (h : x ∈ root.mapEntries src callee) :
    root.at? x.1 = some x.2 := by
  obtain ⟨⟨d, o, object⟩, hx, hy⟩ := List.mem_flatMap.mp h
  obtain ⟨⟨q, m⟩, hq, rfl⟩ := List.mem_map.mp hy
  rw [at?_append, (mem_handed_iff.mp hx).2]
  exact (at?_of_mem_entries hq).2

/-- A pass over the maps reads these entries, one after the other. -/
theorem bulkMessages_eq_gather_mapEntries :
    root.bulkMessages src callee =
      gather (fun x => return (← x.2.readObject src true).message?.toList)
        (root.mapEntries src callee) := by
  rw [bulkMessages, callMessages_eq_gather_handed, mapEntries, gather_flatMap]
  refine gather_congr fun x _ => ?_
  rw [mapMessages, ← map_snd_entries, gather_map, gather_map]

/-- Where no object literal is read twice, no entry of a map is. -/
theorem map_fst_mapEntries_nodup (h : ((root.handed src callee).map (·.place)).Nodup) :
    ((root.mapEntries src callee).map (·.1)).Nodup := by
  rw [mapEntries, List.map_flatMap, List.Nodup, List.pairwise_flatMap]
  constructor
  · intro x _
    rw [List.map_map, List.pairwise_map]
    refine (List.pairwise_map.mp (map_fst_entries_nodup x.object)).imp fun hne heq => hne ?_
    exact List.append_cancel_left heq
  · refine (List.pairwise_map.mp h).imp fun {x y} hne v hv w hw heq => hne ?_
    simp only [List.map_map, List.mem_map, Function.comp_apply] at hv hw
    obtain ⟨⟨q, m⟩, hq, rfl⟩ := hv
    obtain ⟨⟨q', m'⟩, hq', rfl⟩ := hw
    have hlen : q.length = q'.length :=
      (at?_of_mem_entries hq).1.trans (at?_of_mem_entries hq').1.symm
    exact (List.append_inj' heq hlen).1

/-- **Read once, exactly when no two calls overlap**: a pass runs its reader on what is handed
over, each of which is the object literal at its place. No place is handed over twice iff no two
calls overlap; then no entry of a map is read twice, either. -/
theorem handed_once_iff (src : Source) (callee : String) (root : Node) :
    (∀ extract, root.callMessages src callee extract =
      gather (fun x => extract x.object) (root.handed src callee)) ∧
    (∀ x ∈ root.handed src callee, root.at? x.place = some x.object) ∧
    (((root.handed src callee).map (·.place)).Nodup ↔ ¬ ∃ a a', Overlap src callee root a a') ∧
    root.bulkMessages src callee =
      gather (fun x => return (← x.2.readObject src true).message?.toList)
        (root.mapEntries src callee) ∧
    (∀ x ∈ root.mapEntries src callee, root.at? x.1 = some x.2) ∧
    (((root.mapEntries src callee).map (·.1)).Nodup ∨ ∃ a a', Overlap src callee root a a') := by
  refine ⟨fun extract => callMessages_eq_gather_handed extract,
    fun x hx => (mem_handed_iff.mp hx).2, map_place_handed_nodup_iff,
    bulkMessages_eq_gather_mapEntries, fun x hx => at?_of_mem_mapEntries hx, ?_⟩
  by_cases h : ∃ a a', Overlap src callee root a a'
  · exact .inr h
  · exact .inl (map_fst_mapEntries_nodup (map_place_handed_nodup_iff.mpr h))

/-- A call inside the function that is the argument of another call, with one message. -/
def nestedCall : Source :=
  "const m = formatMessage(() => \x7b
    const n = formatMessage(\x7b id: 'x', defaultMessage: 'y' \x7d); \x7d);".toUTF8

/-- The object literal is handed over twice, and its message comes out twice. -/
theorem nestedCall_read_twice :
    ¬ (((Tsx.parse nestedCall).handed nestedCall singleCallee).map (·.place)).Nodup ∧
    (Tsx.parse nestedCall).singleMessages nestedCall singleCallee =
      .ok [⟨"x", "y", none, by decide, by decide⟩, ⟨"x", "y", none, by decide, by decide⟩] := by
  decide +kernel

end Node

end MessageHarvest
