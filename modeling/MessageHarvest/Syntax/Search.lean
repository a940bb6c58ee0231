import MessageHarvest.Syntax.Node

/-!
# Searching a tree

`preorder` lists a node and all below it, parents first and siblings in order. `Node.find` is the
search itself: it works off a stack of pending nodes, so that the depth of a tree costs nothing.
-/

namespace MessageHarvest.Node

/-! ## Document order -/

mutual

/-- A node followed by all nodes below it. -/
def preorder : Node → List Node
  | n@⟨_, _, _, _, children⟩ => n :: preorderAll children

/-- The listings of several nodes, one after the other. -/
def preorderAll : List Node → List Node
  | [] => []
  | n :: rest => preorder n ++ preorderAll rest

end

/-! ## The search -/

mutual

/-- How many nodes there are at and below a node. -/
def size : Node → Nat
  | ⟨_, _, _, _, children⟩ => sizeAll children + 1

/-- How many nodes several trees have. -/
def sizeAll : List Node → Nat
  | [] => 0
  | n :: rest => size n + sizeAll rest

end

/-- A node counts one more than the trees of its children. -/
theorem size_eq (n : Node) : n.size = sizeAll n.children + 1 := by
  cases n; rw [size]

/-- Trees are counted list by list. -/
theorem sizeAll_append (left right : List Node) :
    sizeAll (left ++ right) = sizeAll left + sizeAll right := by
  induction left with
  | nil => simp [sizeAll]
  | cons n rest ih => simp only [List.cons_append, sizeAll, ih]; omega

/-- The matches among the nodes on a stack and below them. With `prune` the search does not go
below a match. -/
def search (p : Node → Bool) (prune : Bool) : List Node → List Node
  | [] => []
  | n :: stack =>
    if p n then
      n :: if prune then search p prune stack else search p prune (n.children ++ stack)
    else search p prune (n.children ++ stack)
termination_by stack => sizeAll stack
decreasing_by all_goals simp only [sizeAll, sizeAll_append, size_eq]; omega

/-- The nodes at and below a node that satisfy `p`, in document order. -/
def find (n : Node) (p : Node → Bool) (prune : Bool) : List Node :=
  search p prune [n]

/-- The nodes at and below a node that are of one of the given kinds. -/
def findKinds (n : Node) (kinds : List String) (prune : Bool) : List Node :=
  n.find (fun m => kinds.contains m.kind) prune

end MessageHarvest.Node
