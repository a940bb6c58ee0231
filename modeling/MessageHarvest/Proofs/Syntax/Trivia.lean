import MessageHarvest.Proofs.Message.Candidate
import MessageHarvest.Proofs.Syntax.Literal
import Mathlib.Data.List.Forall2

/-!
# Trees that differ in trivia

*Trivia* are comments and tokens: leaves without a field that are comments, or not named. A token
may be of any kind, also of one that is searched for: the keyword `object` is a token of the kind of
the object literals.

* `EqUpToTrivia t t'`: the trees are the same but for trivia, which stand below the root of the one
  tree and not of the other, or the other way round, at any number of places. `Node.bare` leaves out
  all of them (`eqUpToTrivia_bare`).
* `Likeness R`, `SameText R src src'`: what matters of this relation, so that trees may differ in
  more than trivia, and each may belong to a source of its own.
* Of related trees all children that count correspond to each other (`forall₂_significantChildren`),
  and so do the first children that fill a field (`rel_childByField?`). Hence the readers of
  literals read the same (`stringValue?_eq`, `staticValue?_eq`, `keyName?_eq`).
-/

namespace MessageHarvest

/-- A leaf that fills no field and is a comment, or not named. -/
structure Node.IsTrivia (n : Node) : Prop where
  leaf : n.children = []
  no_field : n.field = none
  comment_or_token : n.kind = Node.Kind.comment ∨ n.named = false

/-- Two rows of siblings are related one by one, but for trivia on both sides. -/
inductive Siblings (R : Node → Node → Prop) : List Node → List Node → Prop
  | nil : Siblings R [] []
  | both {c c' : Node} {row row' : List Node} (h : R c c') (rest : Siblings R row row') :
      Siblings R (c :: row) (c' :: row')
  | left {c : Node} {row row' : List Node} (h : c.IsTrivia) (rest : Siblings R row row') :
      Siblings R (c :: row) row'
  | right {c' : Node} {row row' : List Node} (h : c'.IsTrivia) (rest : Siblings R row row') :
      Siblings R row (c' :: row')

/-- Two trees are the same but for trivia below their roots. -/
inductive EqUpToTrivia : Node → Node → Prop
  | intro {kind : String} {named : Bool} {field : Option String} {span : Option Span}
      {children children' : List Node} (h : Siblings EqUpToTrivia children children') :
      EqUpToTrivia ⟨kind, named, field, span, children⟩ ⟨kind, named, field, span, children'⟩

namespace EqUpToTrivia

variable {n n' : Node}

/-- Trees that are equal up to trivia have the same kind. -/
theorem kind_eq (h : EqUpToTrivia n n') : n.kind = n'.kind := by
  cases h; rfl

/-- Both of them are named, or none is. -/
theorem named_eq (h : EqUpToTrivia n n') : n.named = n'.named := by
  cases h; rfl

/-- They fill the same field. -/
theorem field_eq (h : EqUpToTrivia n n') : n.field = n'.field := by
  cases h; rfl

/-- They cover the same range. -/
theorem span_eq (h : EqUpToTrivia n n') : n.span = n'.span := by
  cases h; rfl

/-- Their children are equal up to trivia. -/
theorem siblings (h : EqUpToTrivia n n') : Siblings EqUpToTrivia n.children n'.children := by
  cases h; assumption

end EqUpToTrivia

/-! ## Likenesses -/

/-- Nodes that `R` relates are of the same kind, both named or both not, fill the same field, and
have children that `R` relates but for trivia. -/
class Likeness (R : Node → Node → Prop) : Prop where
  kind_eq {n n' : Node} : R n n' → n.kind = n'.kind
  named_eq {n n' : Node} : R n n' → n.named = n'.named
  field_eq {n n' : Node} : R n n' → n.field = n'.field
  siblings {n n' : Node} : R n n' → Siblings R n.children n'.children

/-- Nodes that `R` relates cover the same text, the one in `src` and the other in `src'`. -/
class SameText (R : Node → Node → Prop) (src : Source) (src' : outParam Source) : Prop where
  chars_eq {n n' : Node} : R n n' → n.chars src = n'.chars src'

instance : Likeness EqUpToTrivia where
  kind_eq := EqUpToTrivia.kind_eq
  named_eq := EqUpToTrivia.named_eq
  field_eq := EqUpToTrivia.field_eq
  siblings := EqUpToTrivia.siblings

instance (src : Source) : SameText EqUpToTrivia src src where
  chars_eq h := by rw [Node.chars, Node.chars, Node.bytes, Node.bytes, h.span_eq]

/-! ## Siblings -/

namespace Siblings

variable {row row' : List Node}

/-- What no trivia satisfy, and related nodes alike, leaves rows that are related one by one. -/
theorem forall₂_filter {R : Node → Node → Prop} {p : Node → Bool}
    (hp : ∀ c c', R c c' → p c = p c') (htrivia : ∀ c, c.IsTrivia → p c = false)
    (h : Siblings R row row') : List.Forall₂ R (row.filter p) (row'.filter p) := by
  induction h with
  | nil => exact .nil
  | both hc _ ih =>
      rw [List.filter_cons, List.filter_cons, ← hp _ _ hc]
      split
      · exact .cons hc ih
      · exact ih
  | left hc _ ih =>
      rw [List.filter_cons_of_neg (by simp [htrivia _ hc])]
      exact ih
  | right hc _ ih =>
      rw [List.filter_cons_of_neg (by simp [htrivia _ hc])]
      exact ih

/-- It is the same to ask the one row or the other for it. -/
theorem any_eq {R : Node → Node → Prop} {p : Node → Bool} (hp : ∀ c c', R c c' → p c = p c')
    (htrivia : ∀ c, c.IsTrivia → p c = false) (h : Siblings R row row') :
    row.any p = row'.any p := by
  induction h with
  | nil => rfl
  | both hc _ ih => rw [List.any_cons, List.any_cons, hp _ _ hc, ih]
  | left hc _ ih => rw [List.any_cons, htrivia _ hc, ih, Bool.false_or]
  | right hc _ ih => rw [List.any_cons, htrivia _ hc, ih, Bool.false_or]

end Siblings

/-! ## Leaving the trivia out -/

namespace Node

instance (n : Node) : Decidable n.IsTrivia :=
  decidable_of_iff
    (n.children.isEmpty = true ∧ n.field = none ∧ (n.kind = Kind.comment ∨ n.named = false))
    ⟨fun h => ⟨List.isEmpty_iff.mp h.1, h.2.1, h.2.2⟩,
      fun h => ⟨List.isEmpty_iff.mpr h.leaf, h.no_field, h.comment_or_token⟩⟩

mutual

/-- A tree without the trivia below its root. -/
def bare : Node → Node
  | ⟨kind, named, field, span, children⟩ => ⟨kind, named, field, span, bareAll children⟩

/-- Those of several trees that are no trivia, without the trivia below their roots. -/
def bareAll : List Node → List Node
  | [] => []
  | n :: rest => if n.IsTrivia then bareAll rest else bare n :: bareAll rest

end

mutual

/-- Leaving out the trivia makes no other difference. -/
theorem eqUpToTrivia_bare : (n : Node) → EqUpToTrivia n n.bare
  | ⟨_, _, _, _, children⟩ => by
      rw [bare]
      exact .intro (siblings_bareAll children)

/-- Siblings are equal, up to trivia, to themselves without it. -/
theorem siblings_bareAll : (row : List Node) → Siblings EqUpToTrivia row (bareAll row)
  | [] => .nil
  | n :: row => by
      rw [bareAll]
      split
      · exact .left ‹_› (siblings_bareAll row)
      · exact .both (eqUpToTrivia_bare n) (siblings_bareAll row)

end

end Node

section rel

variable {α β γ δ : Type} {R : α → β → Prop} {S : γ → δ → Prop}

/-- The heads of lists that are related one by one. -/
theorem rel_head? {l : List α} {l' : List β} (h : List.Forall₂ R l l') :
    Option.Rel R l.head? l'.head? := by
  cases h with
  | nil => exact .none
  | cons h _ => exact .some h

/-- Related ways on from what is related. -/
theorem rel_bind {x : Option α} {y : Option β} {f : α → Option γ} {g : β → Option δ}
    (h : Option.Rel R x y) (hfg : ∀ a b, R a b → Option.Rel S (f a) (g b)) :
    Option.Rel S (x >>= f) (y >>= g) := by
  cases h with
  | some h => exact hfg _ _ h
  | none => exact .none

/-- A condition keeps results related. -/
theorem rel_guard_bind {p : Prop} [Decidable p] {x : Option γ} {y : Option δ}
    (h : Option.Rel S x y) :
    Option.Rel S (do guard p; x) (do guard p; y) := by
  by_cases hp : p
  · simpa [guard, hp] using h
  · simp [guard, hp]

end rel

namespace Node

open Likeness SameText

variable {R : Node → Node → Prop} [Likeness R] {src src' : Source} {n n' : Node}

/-! ## Children -/

/-- A trivial leaf does not count. -/
theorem IsTrivia.not_significant (h : n.IsTrivia) : n.isSignificant = false := by
  rcases h.comment_or_token with hcomment | htoken
  · simp [isSignificant, hcomment]
  · simp [isSignificant, htoken]

/-- It has no children that count. -/
theorem IsTrivia.significantChildren_eq_nil (h : n.IsTrivia) : n.significantChildren = [] := by
  rw [significantChildren_eq, h.leaf]
  rfl

/-- It has no child for a field. -/
theorem IsTrivia.childByField?_eq_none (h : n.IsTrivia) (field : String) :
    n.childByField? field = none := by
  rw [childByField?, h.leaf]
  rfl

/-- Related nodes count, or do not. -/
theorem isSignificant_eq (h : R n n') : n.isSignificant = n'.isSignificant := by
  rw [isSignificant, isSignificant, named_eq h, kind_eq h]

/-- Related nodes are of the same kinds. -/
theorem isKind_eq (h : R n n') (kind : String) : n.isKind kind = n'.isKind kind := by
  rw [isKind, isKind, kind_eq h]

/-- The children that count correspond to each other. -/
theorem forall₂_significantChildren (h : R n n') :
    List.Forall₂ R n.significantChildren n'.significantChildren := by
  rw [significantChildren_eq, significantChildren_eq]
  apply (siblings h).forall₂_filter
  · intro c c' hc
    exact isSignificant_eq hc
  · intro c hc
    exact hc.not_significant

/-- The first children that fill a field correspond to each other. -/
theorem rel_childByField? (h : R n n') (field : String) :
    Option.Rel R (n.childByField? field) (n'.childByField? field) := by
  rw [childByField?, childByField?, ← List.head?_filter, ← List.head?_filter]
  apply rel_head?
  apply (siblings h).forall₂_filter
  · intro c c' hc
    rw [field_eq hc]
  · intro c hc
    simp [hc.no_field]

/-! ## Texts and literals -/

omit [Likeness R] in
/-- Related nodes have the same text. -/
theorem text_eq [SameText R src src'] (h : R n n') : n.text src = n'.text src' := by
  rw [text, text, chars_eq h]

/-- Related nodes are plain templates, or none is. -/
theorem isPlainTemplate_eq (h : R n n') : n.isPlainTemplate = n'.isPlainTemplate := by
  have hany : n.namedChildren.any (·.kind = Kind.templateSubstitution) =
      n'.namedChildren.any (·.kind = Kind.templateSubstitution) := by
    rw [namedChildren, namedChildren, List.any_filter, List.any_filter]
    apply (siblings h).any_eq
    · intro c c' hc
      rw [named_eq hc, kind_eq hc]
    · intro c hc
      rcases hc.comment_or_token with hcomment | htoken
      · have hne : c.kind ≠ Kind.templateSubstitution := by
          rw [hcomment]
          decide
        simp [hne]
      · simp [htoken]
  rw [isPlainTemplate, isPlainTemplate, hany, kind_eq h]

variable [SameText R src src']

/-- Related nodes are the same strings. -/
theorem stringValue?_eq (h : R n n') : n.stringValue? src = n'.stringValue? src' :=
  stringValue?_congr (kind_eq h) (chars_eq h)

/-- Related nodes are the same literals. -/
theorem staticValue?_eq (h : R n n') : n.staticValue? src = n'.staticValue? src' :=
  staticValue?_congr (kind_eq h) (chars_eq h) (isPlainTemplate_eq h)

/-- Related nodes have the same verbatim text. -/
theorem verbatimValue?_eq (h : R n n') : n.verbatimValue? src = n'.verbatimValue? src' := by
  rw [verbatimValue?, verbatimValue?, kind_eq h, chars_eq h]

/-- Related nodes are the same keys. -/
theorem keyName?_eq (h : R n n') : n.keyName? src = n'.keyName? src' := by
  rw [keyName?, keyName?, stringValue?_eq h, text_eq h, kind_eq h]

end Node

end MessageHarvest
