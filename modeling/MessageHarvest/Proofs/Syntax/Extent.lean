import MessageHarvest.Proofs.Syntax.Place

/-!
# Places and ranges of bytes

In a tree that is laid out properly each node has its range within that of its parent, and siblings
have theirs one after the other. Then the places of two nodes tell how their ranges lie, at whatever
depths the nodes are.

* `LiesWithin`, `EndsBefore`, `StartsBy`: how the ranges of two nodes lie.
* `Node.LaidOut`: what is asked of a tree, node by node.
* `LaidOut.liesWithin`: a node has its range within that of every node above it.
* `LaidOut.prefix_or_endsBefore`: of two nodes the one that comes later in document order lies below
  the other one, or has its range behind the end of the other's.
* **Document order is the order of ranges** (`LaidOut.comesBefore`): in both cases it starts no
  earlier.
-/

namespace MessageHarvest.Node

/-! ## Ranges of two nodes -/

/-- Both nodes have a range, and the two ranges are related. -/
def RangesRelated (R : Span → Span → Prop) (m n : Node) : Prop :=
  ∃ s ∈ m.span, ∃ t ∈ n.span, R s t

/-- The first node covers no byte outside the range of the second. -/
def LiesWithin : Node → Node → Prop :=
  RangesRelated fun s t => t.start ≤ s.start ∧ s.stop ≤ t.stop

/-- The first node ends where the second one starts, or before. -/
def EndsBefore : Node → Node → Prop :=
  RangesRelated fun s t => s.stop ≤ t.start

/-- The first node starts where the second one starts, or before. -/
def StartsBy : Node → Node → Prop :=
  RangesRelated fun s t => s.start ≤ t.start

instance : DecidableRel LiesWithin := fun m n =>
  inferInstanceAs (Decidable (∃ s ∈ m.span, ∃ t ∈ n.span, t.start ≤ s.start ∧ s.stop ≤ t.stop))

instance : DecidableRel EndsBefore := fun m n =>
  inferInstanceAs (Decidable (∃ s ∈ m.span, ∃ t ∈ n.span, s.stop ≤ t.start))

variable {l m n : Node}

/-- Ranges that are related to one range in between. -/
theorem RangesRelated.comp {R S T : Span → Span → Prop} (h : RangesRelated R l m)
    (h' : RangesRelated S m n) (hT : ∀ s t u, R s t → S t u → T s u) : RangesRelated T l n := by
  obtain ⟨s, hs, t, ht, hR⟩ := h
  obtain ⟨t', ht', u, hu, hS⟩ := h'
  obtain rfl := Option.mem_unique ht ht'
  exact ⟨s, hs, u, hu, hT s t u hR hS⟩

/-- What lies within something lies within all that it lies within. -/
theorem LiesWithin.trans (h : l.LiesWithin m) (h' : m.LiesWithin n) : l.LiesWithin n := by
  apply h.comp h'
  intro s t u hst htu
  omega

/-- What lies within a node starts no earlier. -/
theorem LiesWithin.startsBy (h : m.LiesWithin n) : n.StartsBy m := by
  obtain ⟨s, hs, t, ht, hstart, -⟩ := h
  exact ⟨t, ht, s, hs, hstart⟩

/-- What lies within a node ends before all that the node ends before. -/
theorem LiesWithin.endsBefore (h : l.LiesWithin m) (h' : m.EndsBefore n) : l.EndsBefore n := by
  apply h.comp h'
  intro s t u hst htu
  omega

/-- What ends before a node ends before all that lies within it. -/
theorem EndsBefore.of_liesWithin (h : m.EndsBefore n) (h' : l.LiesWithin n) : m.EndsBefore l := by
  obtain ⟨s, hs, t, ht, hstop⟩ := h
  obtain ⟨u, hu, t', ht', hstart, -⟩ := h'
  obtain rfl := Option.mem_unique ht ht'
  exact ⟨s, hs, u, hu, Nat.le_trans hstop hstart⟩

/-! ## Trees that are laid out properly -/

/-- A node has a range, its children have theirs within it, and one after the other. -/
structure Orderly (n : Node) : Prop where
  range : ∃ s ∈ n.span, s.start ≤ s.stop
  within : ∀ c ∈ n.children, c.LiesWithin n
  apart : n.children.Pairwise EndsBefore

instance : DecidablePred Orderly := fun n =>
  decidable_of_iff ((∃ s ∈ n.span, s.start ≤ s.stop) ∧ (∀ c ∈ n.children, c.LiesWithin n) ∧
    n.children.Pairwise EndsBefore)
    ⟨fun h => ⟨h.1, h.2.1, h.2.2⟩, fun h => ⟨h.range, h.within, h.apart⟩⟩

/-- All nodes of a tree are in order. -/
def LaidOut (root : Node) : Prop :=
  ∀ n ∈ root.preorder, n.Orderly

instance : DecidablePred LaidOut := fun root =>
  inferInstanceAs (Decidable (∀ n ∈ root.preorder, n.Orderly))

/-- The nodes of a tree are those at its places. -/
theorem mem_preorder_iff {root : Node} : m ∈ root.preorder ↔ ∃ q, root.at? q = some m := by
  simp only [preorder_eq_map_snd_visited, List.mem_map, Prod.exists, exists_eq_right,
    mem_visited_iff, ClearAbove, implies_true, and_true]

namespace LaidOut

variable {root : Node} {p q : Place}

/-- A tree that is laid out is orderly. -/
theorem orderly (h : root.LaidOut) : root.Orderly :=
  h root (mem_preorder_iff.mpr ⟨[], rfl⟩)

/-- A part of a tree is laid out as the tree is. -/
theorem of_at? (h : root.LaidOut) (hm : root.at? q = some m) : m.LaidOut := by
  intro n hn
  obtain ⟨r, hr⟩ := mem_preorder_iff.mp hn
  have hat : root.at? (q ++ r) = some n := by rw [at?_append, hm, Option.bind_some, hr]
  exact h n (mem_preorder_iff.mpr ⟨q ++ r, hat⟩)

/-- So are the trees of its children. -/
theorem of_child (h : root.LaidOut) {i : Nat} {c : Node} (hc : root.children[i]? = some c) :
    c.LaidOut := by
  have hat : root.at? [i] = some c := by rw [at?_cons, hc, Option.bind_some, at?_nil]
  exact h.of_at? hat

/-- **Below a node** all ranges lie within its range. -/
theorem liesWithin (h : root.LaidOut) (hm : root.at? q = some m) : m.LiesWithin root := by
  induction q generalizing root with
  | nil =>
      obtain rfl : root = m := Option.some.inj hm
      obtain ⟨s, hs, -⟩ := h.orderly.range
      exact ⟨s, hs, s, hs, Nat.le_refl _, Nat.le_refl _⟩
  | cons i q ih =>
      rw [at?_cons] at hm
      obtain ⟨c, hc, hm⟩ := Option.bind_eq_some_iff.mp hm
      have hchild : c.LiesWithin root := h.orderly.within c (List.mem_of_getElem? hc)
      exact (ih (h.of_child hc) hm).trans hchild

/-- Below two different children the ranges lie apart. -/
theorem endsBefore (h : root.LaidOut) {i j : Nat} (hij : i < j) (hm : root.at? (i :: p) = some m)
    (hn : root.at? (j :: q) = some n) : m.EndsBefore n := by
  rw [at?_cons] at hm hn
  obtain ⟨c, hc, hm⟩ := Option.bind_eq_some_iff.mp hm
  obtain ⟨d, hd, hn⟩ := Option.bind_eq_some_iff.mp hn
  have hapart : c.EndsBefore d := by
    obtain ⟨hi, rfl⟩ := List.getElem?_eq_some_iff.mp hc
    obtain ⟨hj, rfl⟩ := List.getElem?_eq_some_iff.mp hd
    exact List.pairwise_iff_getElem.mp h.orderly.apart i j hi hj hij
  have hm := (h.of_child hc).liesWithin hm
  have hn := (h.of_child hd).liesWithin hn
  exact (hm.endsBefore hapart).of_liesWithin hn

/-- **Of two nodes** the later one lies below the other one or behind its end. -/
theorem prefix_or_endsBefore (h : root.LaidOut) (hm : root.at? p = some m)
    (hn : root.at? q = some n) (hpq : p < q) : p <+: q ∨ m.EndsBefore n := by
  induction p generalizing root q with
  | nil =>
      left
      exact List.nil_prefix
  | cons i p ih =>
      cases q with
      | nil => exact absurd hpq (List.not_lt_nil _)
      | cons j q =>
          rcases List.cons_lt_cons_iff.mp hpq with hij | ⟨rfl, hrest⟩
          · right
            exact h.endsBefore hij hm hn
          · rw [at?_cons] at hm hn
            obtain ⟨c, hc, hm⟩ := Option.bind_eq_some_iff.mp hm
            rw [hc, Option.bind_some] at hn
            exact (ih (h.of_child hc) hm hn hrest).imp_left (List.prefix_cons_inj i).mpr

end LaidOut

/-- There are nodes at both places. The one at `q` starts no earlier than the one at `p`, and it
lies below that one or starts where that one has ended, or behind. -/
inductive ComesBefore (root : Node) (p q : Place) : Prop
  | intro {m n : Node} (at_left : root.at? p = some m) (at_right : root.at? q = some n)
      (starts : m.StartsBy n) (nested : p <+: q ∧ p ≠ q ∨ m.EndsBefore n)

/-- **Document order is the order of ranges.** -/
theorem LaidOut.comesBefore {root : Node} (h : root.LaidOut) {p q : Place}
    (hm : root.at? p = some m) (hn : root.at? q = some n) (hpq : p < q) :
    root.ComesBefore p q := by
  rcases h.prefix_or_endsBefore hm hn hpq with hbelow | hends
  · have hwithin : n.LiesWithin m := by
      obtain ⟨r, rfl⟩ := hbelow
      rw [at?_append, hm, Option.bind_some] at hn
      exact (h.of_at? hm).liesWithin hn
    have hne : p ≠ q := by
      rintro rfl
      exact List.lt_irrefl _ hpq
    exact .intro hm hn hwithin.startsBy (.inl ⟨hbelow, hne⟩)
  · have hstarts : m.StartsBy n := by
      obtain ⟨s, hs, t, ht, hstop⟩ := hends
      obtain ⟨s', hs', hrange⟩ := (h.of_at? hm).orderly.range
      obtain rfl := Option.mem_unique hs hs'
      exact ⟨s, hs, t, ht, Nat.le_trans hrange hstop⟩
    exact .intro hm hn hstarts (.inr hends)

end MessageHarvest.Node
