import MessageHarvest.Proofs.Message.Trivia

/-!
# Programs one after the other

The sources of two programs are put one behind the other, and so are the children of their roots,
those of the second program moved behind the text of the first. What is read of a node depends on
nothing but its own bytes, wherever they stand. So each pass over the joined program finds what it
finds in the one program and then what it finds in the other.

* `Node.shift offset`: a tree whose text stands so many bytes further on.
* `Node.InFront`, `Node.Behind`: how a tree looks that belonged to the one source or to the other.
  Both are likenesses that keep the text.
* `Node.pass_of_isJoin`: a pass over the joined program is the two passes in turn, if it reads alike
  what looks alike and finds at the root of a program only what it finds in the children.
* **Joined programs** (`Node.extract_of_isJoin`): this holds of all passes, and an extraction takes
  the messages of both programs pass by pass.
-/

namespace MessageHarvest

open Escape

/-- Two readings in turn; if both fail, the failure is that of the first. -/
def inTurn {β : Type} (x y : Except Error (List β)) : Except Error (List β) :=
  do return (← x) ++ (← y)

/-- Siblings that are related one by one. -/
theorem Siblings.of_forall₂ {R : Node → Node → Prop} {row row' : List Node}
    (h : List.Forall₂ R row row') : Siblings R row row' := by
  induction h with
  | nil => exact .nil
  | cons hc _ ih => exact .both hc ih

namespace Node

/-- The kind of the root of a program. -/
abbrev Kind.program := "program"

/-! ## Trees of joined sources -/

mutual

/-- A tree whose text stands so many bytes further on. -/
def shift (offset : Nat) : Node → Node
  | ⟨kind, named, field, span, children⟩ =>
    ⟨kind, named, field, span.map fun s => ⟨s.start + offset, s.stop + offset⟩,
      shiftAll offset children⟩

/-- Several trees whose texts stand so many bytes further on. -/
def shiftAll (offset : Nat) : List Node → List Node
  | [] => []
  | n :: rest => shift offset n :: shiftAll offset rest

end

/-- Neither the node nor anything below it covers a byte behind an offset. -/
def EndsBy (offset : Nat) (n : Node) : Prop :=
  ∀ m ∈ n.preorder, ∀ s ∈ m.span, s.stop ≤ offset

instance (offset : Nat) (n : Node) : Decidable (n.EndsBy offset) :=
  inferInstanceAs (Decidable (∀ m ∈ n.preorder, ∀ s ∈ m.span, s.stop ≤ offset))

/-- The root of a program whose children are those of two other programs. The text of the second
one has been moved by an offset. -/
structure IsJoin (offset : Nat) (root₁ root₂ root : Node) : Prop where
  kind₁ : root₁.kind = Kind.program
  kind₂ : root₂.kind = Kind.program
  kind : root.kind = Kind.program
  children : root.children = root₁.children ++ root₂.children.map (shift offset)

variable {offset : Nat} {src₁ src₂ : Source}

/-- Siblings are shifted one by one. -/
theorem shiftAll_eq_map (siblings : List Node) :
    shiftAll offset siblings = siblings.map (shift offset) := by
  induction siblings with
  | nil => rfl
  | cons n siblings ih => rw [shiftAll, ih, List.map_cons]

/-- The children of a shifted node are shifted. -/
theorem children_shift (n : Node) : (n.shift offset).children = n.children.map (shift offset) := by
  cases n; rw [shift, shiftAll_eq_map]

/-- Both ends of a range are shifted. -/
theorem span_shift (n : Node) :
    (n.shift offset).span = n.span.map fun s => ⟨s.start + offset, s.stop + offset⟩ := by
  cases n; rw [shift]

/-- A moved tree covers in the joined source what it covered in its own. -/
theorem bytes_shift (src₁ src₂ : Source) (n : Node) :
    (n.shift src₁.size).bytes (src₁ ++ src₂) = n.bytes src₂ := by
  unfold bytes
  rw [span_shift]
  cases n.span with
  | none => rfl
  | some s =>
    dsimp only [Option.map_some]
    rw [Nat.add_comm s.start, Nat.add_comm s.stop, ByteArray.extract_append_size_add]

/-- A node comes first, and then what its children list. -/
theorem preorder_eq_cons (n : Node) : n.preorder = n :: n.children.flatMap preorder := by
  rw [preorder_eq_map_snd_visited, map_snd_visited]
  congr 1
  exact List.flatMap_congr fun c _ => (preorder_eq_map_snd_visited c).symm

/-- What ends by an offset has children that do. -/
theorem EndsBy.of_mem_children {n c : Node} (h : n.EndsBy offset) (hc : c ∈ n.children) :
    c.EndsBy offset := by
  intro m hm
  apply h m
  rw [preorder_eq_cons]
  exact List.mem_cons_of_mem n (List.mem_flatMap.mpr ⟨c, hc, hm⟩)

/-- What lies in a source covers the same if another source is put behind it. -/
theorem EndsBy.bytes_append {n : Node} (h : n.EndsBy src₁.size) (src₂ : Source) :
    n.bytes (src₁ ++ src₂) = n.bytes src₁ := by
  unfold bytes
  cases hspan : n.span with
  | none => rfl
  | some s =>
    have hself : n ∈ n.preorder := by
      rw [preorder_eq_cons]
      exact List.mem_cons_self
    have hstop : s.stop - src₁.size = 0 := Nat.sub_eq_zero_of_le (h n hself s hspan)
    dsimp only
    rw [ByteArray.extract_append, hstop, ByteArray.data_append, ByteArray.data_extract]
    simp

/-! ## Two likenesses -/

/-- The same tree, of which nothing lies behind an offset. -/
structure InFront (offset : Nat) (n n' : Node) : Prop where
  eq : n = n'
  ends : n'.EndsBy offset

/-- The tree `n'`, moved by an offset. -/
structure Behind (offset : Nat) (n n' : Node) : Prop where
  eq : n = n'.shift offset

instance : Likeness (InFront offset) where
  kind_eq h := by rw [h.eq]
  named_eq h := by rw [h.eq]
  field_eq h := by rw [h.eq]
  siblings {n n'} h := by
    rw [h.eq]
    exact .of_forall₂ (List.forall₂_same.mpr fun c hc => ⟨rfl, h.ends.of_mem_children hc⟩)

instance : SameText (InFront src₁.size) (src₁ ++ src₂) src₁ where
  chars_eq {n n'} h := by rw [h.eq, chars, chars, h.ends.bytes_append]

instance : Likeness (Behind offset) where
  kind_eq {n n'} h := by rw [h.eq]; cases n'; rw [shift]
  named_eq {n n'} h := by rw [h.eq]; cases n'; rw [shift]
  field_eq {n n'} h := by rw [h.eq]; cases n'; rw [shift]
  siblings {n n'} h := by
    rw [h.eq, children_shift]
    exact .of_forall₂ (List.forall₂_map_left_iff.mpr (List.forall₂_same.mpr fun c _ => ⟨rfl⟩))

instance : SameText (Behind src₁.size) (src₁ ++ src₂) src₂ where
  chars_eq {n n'} h := by rw [h.eq, chars, chars, bytes_shift]

/-! ## Passes -/

/-- A search whose root is no match gathers what is gathered at the children. -/
theorem gather_find_of_eq_false {β : Type} {f : Node → Except Error (List β)} {p : Node → Bool}
    {n : Node} (h : p n = false) (prune : Bool) :
    gather f (n.find p prune) = gather (fun c => gather f (c.find p prune)) n.children := by
  rw [gather_find, h, Bool.and_false, if_neg Bool.false_ne_true, if_neg Bool.false_ne_true]
  cases gather (fun c => gather f (c.find p prune)) n.children <;> rfl

/-- The root of a program is no tag. -/
theorem tagMessages_eq_gather_children {src : Source} {name : String} {n : Node}
    (h : n.kind = Kind.program) :
    n.tagMessages src name = gather (tagMessages src name) n.children := by
  have hroot : n.isTagNamed src name = false := by
    rw [isTagNamed, isTag, h]
    rfl
  exact gather_find_of_eq_false hroot false

/-- The root of a program is no declarator. -/
theorem callMessages_eq_gather_children {src : Source} {callee : String}
    {extract : Node → Except Error (List Message)} {n : Node} (h : n.kind = Kind.program) :
    n.callMessages src callee extract = gather (callMessages src callee extract) n.children := by
  have hroot : n.isKind Kind.variableDeclarator = false := by
    rw [isKind, h]
    rfl
  unfold callMessages
  simp only [findKinds_singleton]
  exact gather_find_of_eq_false hroot false

/-- **A pass over a joined program** is the two passes in turn, if it reads alike what looks alike
and finds at the root of a program only what it finds in the children. -/
theorem pass_of_isJoin (pass : Source → Node → Except Error (List Message))
    {root₁ root₂ root : Node}
    (hchildren : ∀ src n, n.kind = Kind.program → pass src n = gather (pass src) n.children)
    (hpass : ∀ (R : Node → Node → Prop) (src src' : Source) [Likeness R] [SameText R src src'] c c',
      R c c' → pass src c = pass src' c')
    (h₁ : root₁.EndsBy src₁.size) (h : IsJoin src₁.size root₁ root₂ root) :
    pass (src₁ ++ src₂) root = inTurn (pass src₁ root₁) (pass src₂ root₂) := by
  have hleft : gather (pass (src₁ ++ src₂)) root₁.children = pass src₁ root₁ := by
    rw [hchildren src₁ root₁ h.kind₁]
    apply gather_congr
    intro c hc
    exact hpass (InFront src₁.size) _ _ c c ⟨rfl, h₁.of_mem_children hc⟩
  have hright : gather (pass (src₁ ++ src₂)) (root₂.children.map (shift src₁.size)) =
      pass src₂ root₂ := by
    rw [hchildren src₂ root₂ h.kind₂, gather_map]
    apply gather_congr
    intro c _
    exact hpass (Behind src₁.size) _ _ _ c ⟨rfl⟩
  rw [hchildren _ root h.kind, h.children, gather_append, hleft, hright]
  rfl

section passes

variable {root₁ root₂ root : Node} (h₁ : root₁.EndsBy src₁.size)
  (h : IsJoin src₁.size root₁ root₂ root)

include h₁ h

/-- The messages of the tags of a name are those of the first program and then those of the
second. -/
theorem tagMessages_of_isJoin (name : String) :
    root.tagMessages (src₁ ++ src₂) name =
      inTurn (root₁.tagMessages src₁ name) (root₂.tagMessages src₂ name) := by
  apply pass_of_isJoin (fun src => tagMessages src name) _ _ h₁ h
  · intro src n hn
    exact tagMessages_eq_gather_children hn
  · intro R src src' _ _ c c' hc
    exact tagMessages_eq name hc

/-- So are those of the bulk calls. -/
theorem bulkMessages_of_isJoin (callee : String) :
    root.bulkMessages (src₁ ++ src₂) callee =
      inTurn (root₁.bulkMessages src₁ callee) (root₂.bulkMessages src₂ callee) := by
  apply pass_of_isJoin (fun src => bulkMessages src callee) _ _ h₁ h
  · intro src n hn
    exact callMessages_eq_gather_children hn
  · intro R src src' _ _ c c' hc
    apply callMessages_eq _ _ callee hc
    · intro object object' hobject
      exact mapMessages_eq hobject
    · intro object hobject
      exact hobject.mapMessages_eq_nil

/-- So are those of the single calls. -/
theorem singleMessages_of_isJoin (callee : String) :
    root.singleMessages (src₁ ++ src₂) callee =
      inTurn (root₁.singleMessages src₁ callee) (root₂.singleMessages src₂ callee) := by
  apply pass_of_isJoin (fun src => singleMessages src callee) _ _ h₁ h
  · intro src n hn
    exact callMessages_eq_gather_children hn
  · intro R src src' _ _ c c' hc
    apply callMessages_eq _ _ callee hc
    · intro object object' hobject
      exact singleMessage_eq hobject
    · intro object hobject
      exact hobject.singleMessage_eq_nil

end passes

/-! ## Extraction -/

/-- **Joined programs**: for each tag name and each callee, a pass over the joined program is the
two passes over the single ones in turn, or fails as the first of them that fails. An extraction
takes the messages of both programs tag by tag, then those of both from the bulk calls, and then
those of both from the single calls. -/
theorem extract_of_isJoin {src₁ src₂ : Source} {root₁ root₂ root : Node}
    (h₁ : root₁.EndsBy src₁.size) (h : IsJoin src₁.size root₁ root₂ root) :
    (∀ name, root.tagMessages (src₁ ++ src₂) name =
      inTurn (root₁.tagMessages src₁ name) (root₂.tagMessages src₂ name)) ∧
    (∀ callee, root.bulkMessages (src₁ ++ src₂) callee =
      inTurn (root₁.bulkMessages src₁ callee) (root₂.bulkMessages src₂ callee)) ∧
    (∀ callee, root.singleMessages (src₁ ++ src₂) callee =
      inTurn (root₁.singleMessages src₁ callee) (root₂.singleMessages src₂ callee)) ∧
    ∀ o : Options, root.extract (src₁ ++ src₂) o = do
      let tags ← gather
        (fun name => inTurn (root₁.tagMessages src₁ name) (root₂.tagMessages src₂ name)) o.tagNames
      let bulk ← inTurn (root₁.bulkMessages src₁ bulkCallee) (root₂.bulkMessages src₂ bulkCallee)
      let single ←
        inTurn (root₁.singleMessages src₁ singleCallee) (root₂.singleMessages src₂ singleCallee)
      return tags ++ bulk ++ single := by
  refine ⟨tagMessages_of_isJoin h₁ h, bulkMessages_of_isJoin h₁ h, singleMessages_of_isJoin h₁ h,
    fun o => ?_⟩
  have htags : (fun name => root.tagMessages (src₁ ++ src₂) name) =
      fun name => inTurn (root₁.tagMessages src₁ name) (root₂.tagMessages src₂ name) :=
    funext (tagMessages_of_isJoin h₁ h)
  rw [extract, htags, bulkMessages_of_isJoin h₁ h, singleMessages_of_isJoin h₁ h]

/-- A program with a call, and with letters of two bytes. -/
def firstProgram : Source :=
  "const é = formatMessage(\x7b id: 'a', defaultMessage: 'é' \x7d);".toUTF8

/-- A program with a tag. -/
def secondProgram : Source :=
  "(<FormattedMessage id='b' defaultMessage='B' />);".toUTF8

/-- The two programs, joined. -/
def joinedProgram : Node :=
  ⟨Kind.program, true, none, some ⟨0, (firstProgram ++ secondProgram).size⟩,
    (Tsx.parse firstProgram).children ++
      (Tsx.parse secondProgram).children.map (shift firstProgram.size)⟩

/-- `extract_of_isJoin` there. The tag comes first, though it stands in the second program. -/
theorem extract_joinedProgram :
    (Tsx.parse firstProgram).EndsBy firstProgram.size ∧
    IsJoin firstProgram.size (Tsx.parse firstProgram) (Tsx.parse secondProgram) joinedProgram ∧
    joinedProgram.extract (firstProgram ++ secondProgram) .standard =
      .ok [⟨"b", "B", none, by decide, by decide⟩, ⟨"a", "é", none, by decide, by decide⟩] := by
  have hends : (Tsx.parse firstProgram).EndsBy firstProgram.size := by decide +kernel
  have hjoin : IsJoin firstProgram.size (Tsx.parse firstProgram) (Tsx.parse secondProgram)
      joinedProgram :=
    ⟨by decide +kernel, by decide +kernel, rfl, rfl⟩
  refine ⟨hends, hjoin, ?_⟩
  rw [(extract_of_isJoin hends hjoin).2.2.2]
  decide +kernel

end Node

end MessageHarvest
