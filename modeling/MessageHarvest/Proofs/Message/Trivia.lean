import MessageHarvest.Proofs.Syntax.Trivia
import MessageHarvest.Message.Extraction

/-!
# Trivia do not matter

An extraction reads the children of a node only through its significant children and its fields, and
of what it searches for it asks more than the kind. So trees that differ in trivia have the same
messages, or fail alike.

* `Node.gather_find_eq`: what is gathered over the matches of a search is the same for both trees,
  if trivia yield nothing. A token may well be a match: the keyword `object` counts as an object
  literal that has no pairs.
* `Node.tagMessages_eq`, `Node.callMessages_eq`: so each pass has the same messages for both trees,
  or fails alike. This holds of any trees that are related by a likeness, each over a source of its
  own in which it covers the same text.
* **Trivia do not matter** (`Node.extract_eq_of_eqUpToTrivia`): both trees have the same extraction.
-/

namespace MessageHarvest

open Escape

/-- Siblings that are related but for trivia are gathered alike, if trivia yield nothing. -/
theorem Siblings.gather_eq {β : Type} {R : Node → Node → Prop}
    {f f' : Node → Except Error (List β)} {row row' : List Node} (h : Siblings R row row')
    (hf : ∀ c ∈ row, ∀ c', R c c' → f c = f' c') (htrivia : ∀ c, c.IsTrivia → f c = .ok [])
    (htrivia' : ∀ c, c.IsTrivia → f' c = .ok []) : gather f row = gather f' row' := by
  induction h with
  | nil => rfl
  | both hc _ ih =>
      rw [gather_cons, gather_cons, hf _ List.mem_cons_self _ hc,
        ih fun c hc => hf c (List.mem_cons_of_mem _ hc)]
  | @left c row row' hc _ ih =>
      rw [gather_cons, htrivia _ hc, ih fun c hc => hf c (List.mem_cons_of_mem _ hc)]
      cases gather f' row' <;> rfl
  | @right c row row' hc _ ih =>
      rw [gather_cons, htrivia' _ hc, ih hf]
      cases gather f' row' <;> rfl

namespace Node

open Likeness

variable {R : Node → Node → Prop} {src src' : Source} {n n' : Node}

/-! ## Searches -/

section searches

variable {β : Type} {f f' : Node → Except Error (List β)} {p p' : Node → Bool}

/-- What is gathered over the matches at a node and below it. -/
theorem gather_find (n : Node) (prune : Bool) :
    gather f (n.find p prune) =
      (do return (← (if p n then f n else .ok [])) ++
        (← (if prune && p n then .ok [] else
          gather (fun c => gather f (c.find p prune)) n.children))) := by
  have hhere : gather f (if p n then [n] else []) = if p n then f n else .ok [] := by
    split
    · rw [gather_cons, gather_nil]
      cases f n <;> simp [bind, Except.bind, pure, Except.pure]
    · rfl
  have hbelow : gather f (if prune && p n then [] else
        n.children.flatMap fun c => c.find p prune) =
      if prune && p n then .ok [] else
        gather (fun c => gather f (c.find p prune)) n.children := by
    split
    · rfl
    · rw [gather_flatMap]
  rw [find_eq_append, gather_append, hhere, hbelow]

/-- At trivia and below them nothing is gathered, if trivia yield nothing. -/
theorem IsTrivia.gather_find_eq_nil (h : n.IsTrivia) (hf : f n = .ok []) (prune : Bool) :
    gather f (n.find p prune) = .ok [] := by
  rw [gather_find, hf, h.leaf]
  split <;> split <;> rfl

/-- **A search gathers the same** in both trees, if trivia yield nothing. -/
theorem gather_find_eq [Likeness R] (hp : ∀ c c', R c c' → p c = p' c')
    (hf : ∀ c c', R c c' → f c = f' c') (htrivia : ∀ c, c.IsTrivia → f c = .ok [])
    (htrivia' : ∀ c, c.IsTrivia → f' c = .ok []) (prune : Bool) (n : Node) {n' : Node}
    (h : R n n') : gather f (n.find p prune) = gather f' (n'.find p' prune) := by
  induction n using induction_on_children generalizing n' with
  | step n ih =>
      have hbelow : gather (fun c => gather f (c.find p prune)) n.children =
          gather (fun c => gather f' (c.find p' prune)) n'.children := by
        apply (siblings h).gather_eq
        · intro c hc c' hcc'
          exact ih c hc hcc'
        · intro c hc
          exact hc.gather_find_eq_nil (htrivia c hc) prune
        · intro c hc
          exact hc.gather_find_eq_nil (htrivia' c hc) prune
      rw [gather_find, gather_find, hp n n' h, hf n n' h, hbelow]

end searches

variable [Likeness R] [SameText R src src']

/-! ## Fields -/

/-- Related pairs are read alike. -/
theorem readPair_eq (h : R n n') (templates : Bool) (d : Draft) :
    readPair src templates d n = readPair src' templates d n' := by
  have hkey := rel_childByField? h "key"
  have hvalue := rel_childByField? h "value"
  unfold readPair
  rw [kind_eq h]
  revert hkey hvalue
  generalize n.childByField? "key" = key, n'.childByField? "key" = key',
    n.childByField? "value" = value, n'.childByField? "value" = value'
  rintro (hkey | -) (hvalue | -)
  · simp only [keyName?_eq hkey, staticValue?_eq hvalue, stringValue?_eq hvalue]
  all_goals rfl

/-- Related object literals are read alike. -/
theorem readObject_eq (h : R n n') (templates : Bool) :
    n.readObject src templates = n'.readObject src' templates := by
  apply foldlM_eq_of_forall₂ _ (forall₂_significantChildren h)
  intro d c c' hc
  exact readPair_eq hc templates d

/-- Related values of attributes have one text. -/
theorem attributeText?_eq (h : R n n') :
    n.attributeText? src = n'.attributeText? src' := by
  have hinner := forall₂_significantChildren h
  unfold attributeText?
  rw [kind_eq h, verbatimValue?_eq h]
  revert hinner
  generalize n.significantChildren = inner, n'.significantChildren = inner'
  rintro (- | ⟨hinner, -⟩)
  · rfl
  · simp only [staticValue?_eq hinner]

/-- Related attributes are read alike. -/
theorem readAttribute_eq (h : R n n') (d : Draft) :
    readAttribute src d n = readAttribute src' d n' := by
  have hparts := forall₂_significantChildren h
  unfold readAttribute
  rw [kind_eq h]
  revert hparts
  generalize n.significantChildren = parts, n'.significantChildren = parts'
  rintro (- | ⟨hname, - | ⟨hvalue, -⟩⟩)
  · rfl
  · rfl
  · simp only [text_eq hname, attributeText?_eq hvalue]

/-- Related tags are read alike. -/
theorem readTag_eq (h : R n n') : n.readTag src = n'.readTag src' := by
  apply foldlM_eq_of_forall₂ _ (forall₂_significantChildren h)
  intro d c c' hc
  exact readAttribute_eq hc d

/-! ## Candidates -/

/-- The entries of maps correspond to each other. -/
theorem forall₂_nestedObjects (h : R n n') :
    List.Forall₂ R n.nestedObjects n'.nestedObjects := by
  apply List.rel_filterMap _ (forall₂_significantChildren h)
  intro c c' hc
  have hvalue := rel_childByField? hc "value"
  dsimp only
  rw [kind_eq hc]
  revert hvalue
  generalize c.childByField? "value" = value, c'.childByField? "value" = value'
  rintro (hvalue | -)
  · rw [Option.filter_some, Option.filter_some, kind_eq hvalue]
    split
    · split
      · exact .some hvalue
      · exact .none
    · exact .none
  · split <;> exact .none

/-- Related maps have the same messages. -/
theorem mapMessages_eq (h : R n n') : mapMessages src n = mapMessages src' n' := by
  apply gather_eq_of_forall₂ _ (forall₂_nestedObjects h)
  intro entry entry' hentry
  rw [readObject_eq hentry]

/-- Related objects of single calls have the same message. -/
theorem singleMessage_eq (h : R n n') : singleMessage src n = singleMessage src' n' := by
  rw [singleMessage, singleMessage, readObject_eq h]

/-- A token of the kind of the object literals has no pairs. -/
theorem IsTrivia.mapMessages_eq_nil (h : n.IsTrivia) (src : Source) :
    mapMessages src n = .ok [] := by
  rw [mapMessages, nestedObjects, h.significantChildren_eq_nil]
  rfl

/-- A trivial leaf holds no message. -/
theorem IsTrivia.singleMessage_eq_nil (h : n.IsTrivia) (src : Source) :
    singleMessage src n = .ok [] := by
  rw [singleMessage, readObject, h.significantChildren_eq_nil]
  rfl

/-! ## Passes -/

/-- A declarator is initialized by calls that correspond to each other. -/
theorem rel_initializingCall? (callee : String) (h : R n n') :
    Option.Rel R (n.initializingCall? src callee) (n'.initializingCall? src' callee) := by
  apply rel_bind (rel_childByField? h "value")
  intro value value' hvalue
  rw [kind_eq hvalue]
  apply rel_guard_bind
  apply rel_bind (rel_childByField? hvalue "function")
  intro function function' hfunction
  rw [kind_eq hfunction, text_eq hfunction]
  apply rel_guard_bind
  apply rel_guard_bind
  exact .some hvalue

/-- The first arguments of two calls correspond to each other. -/
theorem rel_firstArgument? (h : R n n') :
    Option.Rel R n.firstArgument? n'.firstArgument? := by
  apply rel_bind (rel_childByField? h "arguments")
  intro arguments arguments' harguments
  exact rel_head? (forall₂_significantChildren harguments)

variable {extract : Source → Node → Except Error (List Message)}

/-- What a reader finds in the candidates for a declarator. -/
theorem gather_candidates_eq (hextract : ∀ c c', R c c' → extract src c = extract src' c')
    (htrivia : ∀ c, c.IsTrivia → ∀ src, extract src c = .ok []) (callee : String) (h : R n n') :
    gather (extract src) (n.candidates src callee) =
      gather (extract src') (n'.candidates src' callee) := by
  have hargument : Option.Rel R ((n.initializingCall? src callee).bind firstArgument?)
      ((n'.initializingCall? src' callee).bind firstArgument?) := by
    apply rel_bind (rel_initializingCall? callee h)
    intro call call' hcall
    exact rel_firstArgument? hcall
  unfold candidates
  revert hargument
  generalize (n.initializingCall? src callee).bind firstArgument? = argument,
    (n'.initializingCall? src' callee).bind firstArgument? = argument'
  rintro (hargument | -)
  · dsimp only
    rw [findKinds_singleton, findKinds_singleton]
    apply gather_find_eq _ hextract _ _ true _ hargument
    · intro c c' hc
      exact isKind_eq hc Kind.object
    · intro c hc
      exact htrivia c hc src
    · intro c hc
      exact htrivia c hc src'
  · rfl

/-- A trivial leaf is no declarator, so that it has no candidates. -/
theorem IsTrivia.candidates_eq_nil (h : n.IsTrivia) (src : Source) (callee : String) :
    n.candidates src callee = [] := by
  rw [candidates, initializingCall?, h.childByField?_eq_none]
  rfl

/-- A pass over the calls of a callee, if its reader finds nothing in trivia. -/
theorem callMessages_eq (hextract : ∀ c c', R c c' → extract src c = extract src' c')
    (htrivia : ∀ c, c.IsTrivia → ∀ src, extract src c = .ok []) (callee : String) (h : R n n') :
    n.callMessages src callee (extract src) = n'.callMessages src' callee (extract src') := by
  rw [callMessages, callMessages, findKinds_singleton, findKinds_singleton]
  apply gather_find_eq _ _ _ _ false n h
  · intro c c' hc
    exact isKind_eq hc Kind.variableDeclarator
  · intro c c' hc
    exact gather_candidates_eq hextract htrivia callee hc
  · intro c hc
    rw [hc.candidates_eq_nil]
    rfl
  · intro c hc
    rw [hc.candidates_eq_nil]
    rfl

/-- Related tags have the same names. -/
theorem isTagNamed_eq (name : String) (h : R n n') :
    n.isTagNamed src name = n'.isTagNamed src' name := by
  have hchild := rel_childByField? h "name"
  unfold isTagNamed isTag
  rw [kind_eq h]
  revert hchild
  generalize n.childByField? "name" = child, n'.childByField? "name" = child'
  rintro (hchild | -)
  · simp only [kind_eq hchild, text_eq hchild]
  · rfl

/-- A trivial leaf has no attributes. -/
theorem IsTrivia.readTag_eq_empty (h : n.IsTrivia) (src : Source) :
    n.readTag src = .ok .empty := by
  rw [readTag, h.significantChildren_eq_nil]
  rfl

/-- The passes over the tags of a name agree on related trees. -/
theorem tagMessages_eq (name : String) (h : R n n') :
    n.tagMessages src name = n'.tagMessages src' name := by
  apply gather_find_eq _ _ _ _ false n h
  · intro c c' hc
    exact isTagNamed_eq name hc
  · intro c c' hc
    rw [readTag_eq hc]
  · intro c hc
    rw [hc.readTag_eq_empty]
    rfl
  · intro c hc
    rw [hc.readTag_eq_empty]
    rfl

/-! ## Extraction -/

/-- **Trivia do not matter**: the extractions from two trees that differ only in comments and tokens
have the same messages in the same order, or fail alike. -/
theorem extract_eq_of_eqUpToTrivia {src : Source} {root root' : Node} (o : Options)
    (h : EqUpToTrivia root root') : root.extract src o = root'.extract src o := by
  have htags : gather (fun name => root.tagMessages src name) o.tagNames =
      gather (fun name => root'.tagMessages src name) o.tagNames := by
    apply gather_congr
    intro name _
    exact tagMessages_eq name h
  have hbulk : root.bulkMessages src bulkCallee = root'.bulkMessages src bulkCallee := by
    apply callMessages_eq _ _ bulkCallee h
    · intro c c' hc
      exact mapMessages_eq hc
    · intro c hc
      exact hc.mapMessages_eq_nil
  have hsingle : root.singleMessages src singleCallee = root'.singleMessages src singleCallee := by
    apply callMessages_eq _ _ singleCallee h
    · intro c c' hc
      exact singleMessage_eq hc
    · intro c hc
      exact hc.singleMessage_eq_nil
  rw [extract, extract, htags, hbulk, hsingle]

/-- A call with comments inside and between its pairs. Its argument begins with the keyword
`object`, the type of a parameter. -/
def commentedCall : Source :=
  "const m = formatMessage(/* one */ (x: object) => (\x7b
    id: /* unique */ 'x', // not shown
    defaultMessage: 'y' \x7d));".toUTF8

/-- `extract_eq_of_eqUpToTrivia` there: all comments and tokens are left out, the keyword too. -/
theorem extract_bare_commentedCall :
    ((Tsx.parse commentedCall).size = 47 ∧ (Tsx.parse commentedCall).bare.size = 24) ∧
    EqUpToTrivia (Tsx.parse commentedCall) (Tsx.parse commentedCall).bare ∧
    (Tsx.parse commentedCall).extract commentedCall .standard =
      (Tsx.parse commentedCall).bare.extract commentedCall .standard := by
  have hbare : EqUpToTrivia (Tsx.parse commentedCall) (Tsx.parse commentedCall).bare :=
    eqUpToTrivia_bare _
  exact ⟨by decide +kernel, hbare, extract_eq_of_eqUpToTrivia .standard hbare⟩

end Node

end MessageHarvest
