import MessageHarvest.Syntax.Search

/-!
# Places in a tree, and where a search comes to

A *place* is the row of child indices on the way down from the root, so that two equal nodes of
one tree can be told apart. Places are ordered as lists: a node precedes what lies below it, and
what lies below an earlier child precedes what lies below a later one. This is document order.

* `Node.visited stop` lists the nodes, with their places, of a walk that goes below no node which
  satisfies `stop`. It comes to a place iff no proper ancestor of it satisfies `stop`
  (`mem_visited_iff`), and it comes to the places in document order (`visited_sorted`).
* The stack of `Node.search` is such a walk (`search_eq_filter_flatMap`). Hence a search finds the
  nodes that satisfy `p`, with pruning only those of them that are `ClearAbove`, in document order
  and each place once (`mem_located_iff`, `located_sorted`).
-/

namespace MessageHarvest

/-- The child indices on the way down from the root of a tree to a node. -/
abbrev Place := List Nat

namespace Node

/-! ## Induction -/

/-- A child has fewer nodes than its parent. -/
theorem size_lt_of_mem_children {n c : Node} (h : c ∈ n.children) : c.size < n.size := by
  obtain ⟨left, right, heq⟩ := List.append_of_mem h
  rw [size_eq n, heq, sizeAll_append, sizeAll]
  omega

/-- What holds of every node of whose children it holds, holds of every node. -/
theorem induction_on_children {motive : Node → Prop}
    (step : ∀ n, (∀ c ∈ n.children, motive c) → motive n) (n : Node) : motive n :=
  step n fun c _ => induction_on_children step c
termination_by n.size
decreasing_by exact size_lt_of_mem_children ‹_›

/-! ## The node at a place -/

/-- The node at a place below `n`. -/
def at? : Node → Place → Option Node
  | n, [] => some n
  | n, i :: rest => (n.children[i]?).bind (·.at? rest)

/-- At no steps there is the node itself. -/
@[simp] theorem at?_nil (n : Node) : n.at? [] = some n := rfl

/-- The first step leads to a child, from which the others lead on. -/
theorem at?_cons (n : Node) (i : Nat) (rest : Place) :
    n.at? (i :: rest) = (n.children[i]?).bind (·.at? rest) := rfl

/-- Going down two ways one after the other. -/
theorem at?_append (n : Node) (p q : Place) : n.at? (p ++ q) = (n.at? p).bind (·.at? q) := by
  induction p generalizing n with
  | nil => rfl
  | cons i rest ih =>
      rw [List.cons_append, at?_cons, at?_cons]
      cases n.children[i]? with
      | none => rfl
      | some c => exact ih c

/-- No proper ancestor of the place `q` satisfies `p`. -/
def ClearAbove (p : Node → Bool) (n : Node) (q : Place) : Prop :=
  ∀ r a, r <+: q → r ≠ q → n.at? r = some a → p a = false

/-! ## Walks -/

mutual

/-- The nodes that a walk from `n` comes to, with their places, in document order. The walk goes
below no node that satisfies `stop`. -/
def visited (stop : Node → Bool) : Node → List (Place × Node)
  | n@⟨_, _, _, _, children⟩ => ([], n) :: if stop n then [] else visitedAll stop 0 children

/-- The walks from several siblings one after the other, the first of which is child `i`. -/
def visitedAll (stop : Node → Bool) : Nat → List Node → List (Place × Node)
  | _, [] => []
  | i, n :: rest =>
    (visited stop n).map (fun x => (i :: x.1, x.2)) ++ visitedAll stop (i + 1) rest

end

section walks

variable {stop : Node → Bool}

/-- A node is visited before its children, which are left out where the visit stops. -/
theorem visited_eq (n : Node) :
    n.visited stop = ([], n) :: if stop n then [] else visitedAll stop 0 n.children := by
  cases n; rw [visited]

/-- A place among siblings begins with the index of one of them. -/
theorem mem_visitedAll_iff {i : Nat} {siblings : List Node} {q : Place} {m : Node} :
    (q, m) ∈ visitedAll stop i siblings ↔
      ∃ j c rest, siblings[j]? = some c ∧ q = (i + j) :: rest ∧ (rest, m) ∈ c.visited stop := by
  induction siblings generalizing i with
  | nil => simp [visitedAll]
  | cons n siblings ih =>
      simp only [visitedAll, List.mem_append, List.mem_map, Prod.mk.injEq, ih]
      constructor
      · rintro (⟨⟨rest, m'⟩, hmem, rfl, rfl⟩ | ⟨j, c, rest, hc, rfl, hmem⟩)
        · exact ⟨0, n, rest, rfl, rfl, hmem⟩
        · exact ⟨j + 1, c, rest, by simpa using hc, by rw [Nat.add_right_comm, Nat.add_assoc], hmem⟩
      · rintro ⟨j, c, rest, hc, rfl, hmem⟩
        cases j with
        | zero =>
            obtain rfl : n = c := by simpa using hc
            exact .inl ⟨(rest, m), hmem, rfl, rfl⟩
        | succ j =>
            have hidx : i + (j + 1) = i + 1 + j := by omega
            exact .inr ⟨j, c, rest, by simpa using hc, by rw [hidx], hmem⟩

/-- A walk comes to a node below `n` through one child of `n`, unless it stops at `n`. -/
theorem mem_visited_cons_iff {n m : Node} {i : Nat} {rest : Place} :
    (i :: rest, m) ∈ n.visited stop ↔
      stop n = false ∧ ∃ c, n.children[i]? = some c ∧ (rest, m) ∈ c.visited stop := by
  rw [visited_eq]
  cases stop n with
  | true => simp
  | false =>
      simp only [Bool.false_eq_true, if_false, List.mem_cons, Prod.mk.injEq, reduceCtorEq,
        false_and, false_or, mem_visitedAll_iff, Nat.zero_add, List.cons.injEq, true_and]
      constructor
      · rintro ⟨j, c, rest, hc, ⟨rfl, rfl⟩, hm⟩
        exact ⟨c, hc, hm⟩
      · rintro ⟨c, hc, hm⟩
        exact ⟨i, c, rest, hc, ⟨rfl, rfl⟩, hm⟩

/-- **Where a walk comes to**: to every place none of whose proper ancestors stops it. -/
theorem mem_visited_iff {n m : Node} {q : Place} :
    (q, m) ∈ n.visited stop ↔
      n.at? q = some m ∧ ClearAbove stop n q := by
  induction q generalizing n with
  | nil =>
      rw [visited_eq]
      have hmem : (([] : Place), m) ∉ (if stop n then [] else visitedAll stop 0 n.children) := by
        split
        · exact List.not_mem_nil
        · rw [mem_visitedAll_iff]
          rintro ⟨j, c, rest, -, h, -⟩
          cases h
      simp only [List.mem_cons, hmem, or_false, Prod.mk.injEq, true_and, at?_nil, Option.some.injEq]
      constructor
      · intro h
        exact ⟨h.symm, fun r a hr hne => absurd (List.prefix_nil.mp hr) hne⟩
      · intro h
        exact h.1.symm
  | cons i q ih =>
      rw [mem_visited_cons_iff, at?_cons]
      constructor
      · rintro ⟨hn, c, hc, hm⟩
        rw [ih] at hm
        refine ⟨by rw [hc]; exact hm.1, fun r a hr hne ha => ?_⟩
        rcases List.prefix_cons_iff.mp hr with rfl | ⟨t, rfl, ht⟩
        · cases ha; exact hn
        · rw [at?_cons, hc] at ha
          exact hm.2 t a ht (fun h => hne (h ▸ rfl)) ha
      · rintro ⟨hm, hclear⟩
        obtain ⟨c, hc, hm⟩ := Option.bind_eq_some_iff.mp hm
        have hn : stop n = false := hclear [] n List.nil_prefix (by simp) rfl
        refine ⟨hn, c, hc, ih.mpr ⟨hm, ?_⟩⟩
        intro r a hr hne ha
        have hat : n.at? (i :: r) = some a := by rw [at?_cons, hc]; exact ha
        exact hclear (i :: r) a (List.cons_prefix_cons.mpr ⟨rfl, hr⟩)
          (fun h => hne (List.cons.inj h).2) hat

mutual

/-- A walk comes to the places in document order, so to each at most once. -/
theorem visited_sorted : (n : Node) → (n.visited stop).Pairwise (·.1 < ·.1)
  | ⟨_, _, _, _, children⟩ => by
      rw [visited, List.pairwise_cons]
      split
      · exact ⟨fun _ h => absurd h List.not_mem_nil, List.Pairwise.nil⟩
      · refine ⟨fun ⟨q, m⟩ h => ?_, visitedAll_sorted 0 children⟩
        obtain ⟨j, c, rest, -, rfl, -⟩ := mem_visitedAll_iff.mp h
        exact List.nil_lt_cons _ _

/-- The walks from several siblings come to the places in document order. -/
theorem visitedAll_sorted :
    (i : Nat) → (siblings : List Node) → (visitedAll stop i siblings).Pairwise (·.1 < ·.1)
  | _, [] => List.Pairwise.nil
  | i, n :: siblings => by
      rw [visitedAll, List.pairwise_append, List.pairwise_map]
      refine ⟨(visited_sorted n).imp fun h => List.cons_lt_cons_iff.mpr (.inr ⟨rfl, h⟩),
        visitedAll_sorted (i + 1) siblings, fun x hx ⟨q, m⟩ hy => ?_⟩
      obtain ⟨y, -, rfl⟩ := List.mem_map.mp hx
      obtain ⟨j, c, rest, -, rfl, -⟩ := mem_visitedAll_iff.mp hy
      exact List.cons_lt_cons_iff.mpr (.inl (by omega))

end

end walks

/-! ## Searches -/

section searches

/-- The nodes that the walks from several siblings come to, whatever their indices. -/
theorem map_snd_visitedAll (stop : Node → Bool) (i : Nat) (siblings : List Node) :
    (visitedAll stop i siblings).map (·.2) =
      siblings.flatMap fun n => (n.visited stop).map (·.2) := by
  induction siblings generalizing i with
  | nil => rfl
  | cons n siblings ih => simp [visitedAll, Function.comp_def, ih]

/-- A walk from `n` comes to `n` first, and then to what the walks from its children come to. -/
theorem map_snd_visited (stop : Node → Bool) (n : Node) :
    (n.visited stop).map (·.2) =
      n :: if stop n then [] else n.children.flatMap fun c => (c.visited stop).map (·.2) := by
  rw [visited_eq, List.map_cons, ← map_snd_visitedAll stop 0]
  split <;> rfl

variable (p : Node → Bool)

/-- **The stack of a search is a walk**: what a search finds are the matches among the nodes that
the walks from the members of its stack come to. -/
theorem search_eq_filter_flatMap (prune : Bool) (stack : List Node) :
    search p prune stack =
      (stack.flatMap fun n => (n.visited fun m => prune && p m).map (·.2)).filter p := by
  fun_induction search p prune stack with
  | case1 => rfl
  | case2 n stack hp ih ih' =>
      rw [List.flatMap_cons, List.filter_append, map_snd_visited, List.filter_cons_of_pos hp, hp,
        List.cons_append]
      cases prune with
      | true => simpa using ih
      | false => simpa using ih'
  | case3 n stack hp ih =>
      rw [List.flatMap_cons, List.filter_append, map_snd_visited, List.filter_cons_of_neg hp]
      simpa [hp] using ih

/-- **A search at a node and below it**: it finds the node if it matches, and goes on below it
unless it is pruned there. -/
theorem find_eq_append (n : Node) (prune : Bool) :
    n.find p prune =
      (if p n then [n] else []) ++
        if prune && p n then [] else n.children.flatMap fun c => c.find p prune := by
  simp only [find, search_eq_filter_flatMap, List.flatMap_singleton]
  rw [map_snd_visited, List.filter_cons]
  split <;> split <;> simp [List.filter_flatMap]

mutual

/-- The nodes that a walk which stops nowhere comes to are all nodes. -/
theorem preorder_eq_map_snd_visited :
    (n : Node) → n.preorder = (n.visited fun _ => false).map (·.2)
  | ⟨_, _, _, _, children⟩ => by
      rw [preorder, map_snd_visited, preorderAll_eq_flatMap children]
      rfl

/-- Without stops all nodes are visited in document order. -/
theorem preorderAll_eq_flatMap :
    (siblings : List Node) →
      preorderAll siblings = siblings.flatMap fun n => (n.visited fun _ => false).map (·.2)
  | [] => rfl
  | n :: siblings => by
      rw [preorderAll, List.flatMap_cons, preorder_eq_map_snd_visited n,
        preorderAll_eq_flatMap siblings]

end

/-- Without pruning a search finds every match, in preorder. -/
theorem find_eq_filter_preorder (n : Node) : n.find p false = n.preorder.filter p := by
  rw [find, search_eq_filter_flatMap, List.flatMap_singleton, preorder_eq_map_snd_visited]
  rfl

/-- The matches of a search with their places, in document order. -/
def located (n : Node) (p : Node → Bool) (prune : Bool) : List (Place × Node) :=
  (n.visited fun m => prune && p m).filter fun x => p x.2

/-- What a search finds are the located matches without their places. -/
theorem find_eq_map_located (n : Node) (prune : Bool) :
    n.find p prune = (n.located p prune).map (·.2) := by
  rw [find, search_eq_filter_flatMap, List.flatMap_singleton, located, List.filter_map]
  rfl

variable {p}

/-- **What a search finds**: every match, with pruning only those that lie below no other. -/
theorem mem_located_iff {n m : Node} {prune : Bool} {q : Place} :
    (q, m) ∈ n.located p prune ↔
      n.at? q = some m ∧ p m = true ∧ (prune = true → ClearAbove p n q) := by
  have hstop : ClearAbove (fun m => prune && p m) n q ↔ (prune = true → ClearAbove p n q) := by
    cases prune <;> simp [ClearAbove]
  rw [located, List.mem_filter, mem_visited_iff, hstop, and_right_comm, and_assoc]

/-- A search finds its matches in document order, each place at most once. -/
theorem located_sorted (n : Node) (prune : Bool) :
    (n.located p prune).Pairwise (·.1 < ·.1) :=
  (visited_sorted n).filter _

end searches

end Node

end MessageHarvest
