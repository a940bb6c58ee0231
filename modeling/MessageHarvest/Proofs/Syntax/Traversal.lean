import MessageHarvest.Proofs.Syntax.Place
import Mathlib.Logic.ExistsUnique
import Mathlib.Logic.Function.Iterate

/-!
# The loop of a search

A search works off a stack: a pass of its loop takes the top node, keeps it if it matches, and puts
its children on the stack. Here the loop is run pass by pass.

* A pass changes neither what has been found nor what is still to be found taken together
  (`Progress.found_pass_append`), and it is one of as many passes as the walks from the nodes on the
  stack come to nodes (`Progress.pending_pass`). Hence the loop ends after one pass for each node
  that it comes to, with what `Node.find` lists (`Progress.iterate_pass`).
* `Node.listing` is the pre-order listing with places. A walk that stops somewhere keeps the order
  of what it comes to (`visited_sublist`).
* A match is, or lies below, exactly one outermost match (`existsUnique_outermost`).
* **What a search yields** (`find_eq_map_listing`): without pruning the matches in the listing, with
  pruning those of them that lie below no other match.
-/

namespace MessageHarvest.Node

/-! ## Passes -/

/-- A search between two passes of its loop: the nodes that wait on the stack, the top one first,
and the matches so far. -/
structure Progress where
  stack : List Node
  found : List Node

namespace Progress

variable (p : Node → Bool) (prune : Bool)

/-- One pass of the loop. It takes the top node off the stack and keeps it if it matches. Unless it
is pruned there, its children are put on the stack so that the first one is on top. Once the stack
is empty nothing happens any more. -/
def pass (s : Progress) : Progress :=
  match s.stack with
  | [] => s
  | n :: stack =>
    ⟨if prune && p n then stack else n.children ++ stack, if p n then s.found ++ [n] else s.found⟩

/-- How many nodes the walks from the nodes on the stack come to. -/
def pending (s : Progress) : Nat :=
  (s.stack.flatMap fun n => n.visited fun m => prune && p m).length

/-- **What a pass keeps**: what has been found, followed by what is still to be found. -/
theorem found_pass_append (s : Progress) :
    (s.pass p prune).found ++ search p prune (s.pass p prune).stack =
      s.found ++ search p prune s.stack := by
  obtain ⟨stack, found⟩ := s
  cases stack with
  | nil => rfl
  | cons n stack =>
      rw [pass, search]
      by_cases hn : p n = true
      · cases prune <;> simp [hn]
      · simp [hn]

/-- **What a pass does away with**: one of the nodes to come to. -/
theorem pending_pass (s : Progress) : (s.pass p prune).pending p prune = s.pending p prune - 1 := by
  obtain ⟨stack, found⟩ := s
  cases stack with
  | nil => rfl
  | cons n stack =>
      have hlength (siblings : List Node) :
          (siblings.flatMap fun c => c.visited fun m => prune && p m).length =
            (visitedAll (fun m => prune && p m) 0 siblings).length := by
        have h := congrArg List.length (map_snd_visitedAll (fun m => prune && p m) 0 siblings)
        simpa [List.length_flatMap] using h.symm
      rw [pass, pending, pending, List.flatMap_cons, List.length_append, visited_eq,
        List.length_cons]
      dsimp only
      split
      · simp
      · rw [List.flatMap_append, List.length_append, hlength]
        omega

/-- As long as there is a node on the stack, there is one to come to. -/
theorem pending_eq_zero_iff (s : Progress) : s.pending p prune = 0 ↔ s.stack = [] := by
  obtain ⟨stack, found⟩ := s
  cases stack with
  | nil => exact ⟨fun _ => rfl, fun _ => rfl⟩
  | cons n stack => simp [pending, visited_eq]

/-- What has been found and what is still to be found on the stack stay the same in all. -/
theorem found_iterate_append (passes : Nat) (s : Progress) :
    ((pass p prune)^[passes] s).found ++ search p prune ((pass p prune)^[passes] s).stack =
      s.found ++ search p prune s.stack := by
  induction passes with
  | zero => rfl
  | succ passes ih => rw [Function.iterate_succ_apply', found_pass_append, ih]

/-- Each pass leaves one pass less to be made. -/
theorem pending_iterate (passes : Nat) (s : Progress) :
    ((pass p prune)^[passes] s).pending p prune = s.pending p prune - passes := by
  induction passes with
  | zero => rfl
  | succ passes ih =>
      rw [Function.iterate_succ_apply', pending_pass, ih]
      omega

/-- The loop is over after as many passes as it comes to nodes, and not before. -/
theorem stack_iterate_eq_nil_iff (passes : Nat) (n : Node) :
    ((pass p prune)^[passes] ⟨[n], []⟩).stack = [] ↔
      (n.visited fun m => prune && p m).length ≤ passes := by
  have hpending : pending p prune ⟨[n], []⟩ = (n.visited fun m => prune && p m).length := by
    rw [pending, List.flatMap_singleton]
  rw [← pending_eq_zero_iff p prune, pending_iterate, hpending]
  omega

/-- **What the loop ends with** is what the search lists. -/
theorem iterate_pass {passes : Nat} {n : Node}
    (h : (n.visited fun m => prune && p m).length ≤ passes) :
    (pass p prune)^[passes] ⟨[n], []⟩ = ⟨[], n.find p prune⟩ := by
  have hstack := (stack_iterate_eq_nil_iff p prune passes n).mpr h
  have hfound := found_iterate_append p prune passes ⟨[n], []⟩
  rw [hstack, search, List.append_nil, List.nil_append] at hfound
  generalize (pass p prune)^[passes] ⟨[n], []⟩ = s at hstack hfound
  obtain ⟨stack, found⟩ := s
  exact congrArg₂ Progress.mk hstack hfound

end Progress

/-! ## The listing with places -/

mutual

/-- A walk comes to at most as many nodes as there are. -/
theorem length_visited_le (stop : Node → Bool) : (n : Node) → (n.visited stop).length ≤ n.size
  | ⟨_, _, _, _, children⟩ => by
      have hall := length_visitedAll_le stop 0 children
      rw [visited, size, List.length_cons]
      split
      · exact Nat.le_add_left 1 _
      · omega

/-- No node is visited twice. -/
theorem length_visitedAll_le (stop : Node → Bool) :
    (i : Nat) → (siblings : List Node) → (visitedAll stop i siblings).length ≤ sizeAll siblings
  | _, [] => Nat.le_refl 0
  | i, n :: siblings => by
      have hfirst := length_visited_le stop n
      have hrest := length_visitedAll_le stop (i + 1) siblings
      rw [visitedAll, sizeAll, List.length_append, List.length_map]
      omega

end

mutual

/-- A walk that stops somewhere leaves out some of the nodes, and keeps the order of the others. -/
theorem visited_sublist (stop : Node → Bool) :
    (n : Node) → (n.visited stop).Sublist (n.visited fun _ => false)
  | ⟨_, _, _, _, children⟩ => by
      rw [visited, visited]
      refine List.Sublist.cons_cons _ ?_
      split
      · exact List.nil_sublist _
      · exact visitedAll_sublist stop 0 children

/-- A visit that stops leaves out nodes and changes no order. -/
theorem visitedAll_sublist (stop : Node → Bool) :
    (i : Nat) → (siblings : List Node) →
      (visitedAll stop i siblings).Sublist (visitedAll (fun _ => false) i siblings)
  | _, [] => List.Sublist.refl _
  | i, n :: siblings => by
      rw [visitedAll, visitedAll]
      exact ((visited_sublist stop n).map _).append (visitedAll_sublist stop (i + 1) siblings)

end

/-- The nodes at and below a node with their places, in pre-order. -/
def listing (n : Node) : List (Place × Node) :=
  n.visited fun _ => false

/-! ## Outermost matches -/

/-- A match is, or lies below, a match that lies below no other. -/
theorem exists_outermost {p : Node → Bool} {n m : Node} {q : Place} (hm : n.at? q = some m)
    (hp : p m = true) :
    ∃ r a, r <+: q ∧ n.at? r = some a ∧ p a = true ∧ ClearAbove p n r := by
  induction q generalizing n with
  | nil =>
      refine ⟨[], m, List.nil_prefix, hm, hp, fun r a hr hne _ => ?_⟩
      exact absurd (List.prefix_nil.mp hr) hne
  | cons i q ih =>
      by_cases hn : p n = true
      · exact ⟨[], n, List.nil_prefix, rfl, hn, fun r a hr hne _ =>
          absurd (List.prefix_nil.mp hr) hne⟩
      · rw [at?_cons] at hm
        obtain ⟨c, hc, hm⟩ := Option.bind_eq_some_iff.mp hm
        obtain ⟨r, a, hr, ha, hpa, hclear⟩ := ih hm
        refine ⟨i :: r, a, List.cons_prefix_cons.mpr ⟨rfl, hr⟩, by rw [at?_cons, hc]; exact ha, hpa,
          fun s b hs hne hb => ?_⟩
        rcases List.prefix_cons_iff.mp hs with rfl | ⟨t, rfl, ht⟩
        · obtain rfl : n = b := Option.some.inj hb
          simpa using hn
        · rw [at?_cons, hc] at hb
          exact hclear t b ht (fun h => hne (congrArg (i :: ·) h)) hb

/-- Of two matches that lie below no other, neither lies below the other. -/
theorem eq_of_prefix_of_clearAbove {p : Node → Bool} {n a : Node} {r s : Place}
    (ha : n.at? r = some a) (hp : p a = true) (hclear : ClearAbove p n s) (hrs : r <+: s) :
    r = s := by
  refine Decidable.byContradiction fun hne => ?_
  rw [hclear r a hrs hne ha] at hp
  exact Bool.false_ne_true hp

/-- **Outermost matches**: a match lies at or below exactly one of them. -/
theorem existsUnique_outermost {p : Node → Bool} {n m : Node} {q : Place} (hm : n.at? q = some m)
    (hp : p m = true) : ∃! x : Place × Node, x ∈ n.located p true ∧ x.1 <+: q := by
  obtain ⟨r, a, hr, ha, hpa, hclear⟩ := exists_outermost hm hp
  refine ⟨(r, a), ⟨mem_located_iff.mpr ⟨ha, hpa, fun _ => hclear⟩, hr⟩, ?_⟩
  rintro ⟨s, b⟩ ⟨hmem, hs⟩
  obtain ⟨hb, hpb, hclear'⟩ := mem_located_iff.mp hmem
  have hsr : s = r := by
    rcases List.prefix_or_prefix_of_prefix hs hr with h | h
    · exact eq_of_prefix_of_clearAbove hb hpb hclear h
    · exact (eq_of_prefix_of_clearAbove ha hpa (hclear' rfl) h).symm
  subst hsr
  rw [Option.some.inj (ha.symm.trans hb)]

/-! ## What a search yields -/

/-- **What a search yields**: its loop ends after at most as many passes as the tree has nodes, and
it yields the matches in the pre-order listing, each place once. With pruning these are the matches
below no other match, in the same order; none lies below another one, and every match lies at or
below exactly one of them. -/
theorem find_eq_map_listing (root : Node) (p : Node → Bool) :
    (∀ prune, ∃ passes ≤ root.size,
      (Progress.pass p prune)^[passes] ⟨[root], []⟩ = ⟨[], root.find p prune⟩) ∧
    root.listing.map (·.2) = root.preorder ∧
    root.listing.Pairwise (·.1 < ·.1) ∧
    (∀ q m, (q, m) ∈ root.listing ↔ root.at? q = some m) ∧
    root.find p false = (root.listing.filter fun x => p x.2).map (·.2) ∧
    ∃ outermost : List (Place × Node),
      root.find p true = outermost.map (·.2) ∧
      outermost.Sublist (root.listing.filter fun x => p x.2) ∧
      (∀ q m, (q, m) ∈ outermost ↔
        root.at? q = some m ∧ p m = true ∧
          ∀ r a, r <+: q → r ≠ q → root.at? r = some a → p a = false) ∧
      (∀ x ∈ outermost, ∀ y ∈ outermost, x.1 <+: y.1 → x = y) ∧
      (∀ q m, root.at? q = some m → p m = true → ∃! x, x ∈ outermost ∧ x.1 <+: q) := by
  refine ⟨fun prune => ?_, (preorder_eq_map_snd_visited root).symm, visited_sorted root,
    fun q m => ?_, find_eq_map_located p root false, root.located p true,
    find_eq_map_located p root true, (visited_sublist _ root).filter _, fun q m => ?_, ?_,
    fun q m hm hp => existsUnique_outermost hm hp⟩
  · exact ⟨_, length_visited_le _ root, Progress.iterate_pass p prune (Nat.le_refl _)⟩
  · rw [listing, mem_visited_iff]
    exact and_iff_left fun r a _ _ _ => rfl
  · rw [mem_located_iff]
    simp only [ClearAbove, forall_const]
  · rintro ⟨r, a⟩ hx ⟨s, b⟩ hy hrs
    obtain ⟨ha, hpa, -⟩ := mem_located_iff.mp hx
    obtain ⟨hb, -, hclear⟩ := mem_located_iff.mp hy
    obtain rfl : r = s := eq_of_prefix_of_clearAbove ha hpa (hclear rfl) hrs
    rw [Option.some.inj (ha.symm.trans hb)]

end MessageHarvest.Node
