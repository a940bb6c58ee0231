import MessageHarvest.Proofs.Message.Failure
import MessageHarvest.Proofs.Syntax.Isolate

/-!
# Skipping what cannot be decoded

An extraction passes over fields that it cannot read; but if a field cannot be decoded, the whole
extraction fails. Passing over such a field, too, is what extraction does on the tree in which the
undecodable literals are isolated (`readPair_isolate`, `readAttribute_isolate`).

* `Recovers x y`: `y` never fails, and where `x` does not fail either, both read the same.
* `Node.recovers_extract`: an extraction from the isolated tree recovers the extraction.
* **Nothing is skipped at the price of failing** (`Node.extract_eq_isolate_iff`): the extraction
  yields what it would yield if undecodable fields were skipped iff it decodes no undecodable
  literal.
* `Node.undecodableDefault_fails`: a program with two messages, one of which is lost because the
  other one is undecodable.
-/

namespace MessageHarvest

open Escape

/-! ## Recovering from failures -/

/-- The reading `y` never fails, and where `x` does not fail it reads the same. -/
structure Recovers {α : Type} (x y : Except Error α) : Prop where
  total : ∃ a, y = .ok a
  same : ∀ a, x = .ok a → y = .ok a

namespace Recovers

variable {α β σ : Type}

/-- A result recovers itself. -/
theorem of_ok (a : α) : Recovers (.ok a) (.ok a) :=
  ⟨⟨a, rfl⟩, fun _ h => h⟩

/-- A default recovers from the failure of a reading. -/
theorem getD (x : Except Error α) (a : α) : Recovers x (.ok (x.toOption.getD a)) where
  total := ⟨_, rfl⟩
  same b h := by rw [h]; rfl

/-- What recovers step by step recovers as a whole. -/
theorem bind {x y : Except Error α} {f g : α → Except Error β} (h : Recovers x y)
    (hfg : ∀ a, Recovers (f a) (g a)) : Recovers (x >>= f) (y >>= g) := by
  obtain ⟨a, ha⟩ := h.total
  subst ha
  refine ⟨(hfg a).total, fun b hb => ?_⟩
  cases x with
  | error e => cases hb
  | ok a' =>
      obtain rfl : a = a' := Except.ok.inj (h.same a' rfl)
      exact (hfg a).same b hb

/-- A fold recovers step by step. -/
theorem foldlM {step step' : σ → α → Except Error σ} (h : ∀ s a, Recovers (step s a) (step' s a))
    (s : σ) (l : List α) : Recovers (l.foldlM step s) (l.foldlM step' s) := by
  induction l generalizing s with
  | nil => exact of_ok s
  | cons a l ih =>
      rw [List.foldlM_cons, List.foldlM_cons]
      exact (h s a).bind ih

/-- A gathering recovers member by member. -/
theorem gather {f g : α → Except Error (List β)} (h : ∀ a, Recovers (f a) (g a)) (l : List α) :
    Recovers (MessageHarvest.gather f l) (MessageHarvest.gather g l) := by
  induction l with
  | nil => exact of_ok []
  | cons a l ih =>
      rw [gather_cons, gather_cons]
      exact (h a).bind fun _ => ih.bind fun _ => of_ok _

end Recovers

namespace Node

variable {src : Source} {k : InertKind} {decoded : Bool}

/-! ## Fields -/

/-- **An isolated child of an object literal is skipped** where its reading failed. -/
theorem readPair_isolate (templates : Bool) (d : Draft) (child : Node) :
    readPair src templates d (child.isolate src k decoded) =
      .ok ((readPair src templates d child).toOption.getD d) := by
  have hkind : (child.isolate src k decoded).kind = Kind.pair ↔ child.kind = Kind.pair :=
    kind_isolate_eq_iff (by decide)
  unfold readPair
  by_cases hpair : child.kind = Kind.pair
  · have hdecoding : child.isDecoding = true := by simp [isDecoding, hpair]
    rw [if_pos (hkind.mpr hpair), if_pos hpair, childByField?_isolate, childByField?_isolate,
      hdecoding]
    rcases child.childByField? "key" with _ | key
    · rfl
    rcases child.childByField? "value" with _ | value
    · rfl
    simp only [Option.map_some, keyName?_isolate, staticValue?_isolate, stringValue?_isolate]
    rcases key.keyName? src with e | _ | name
    · rfl
    · rfl
    cases templates with
    | true => rcases value.staticValue? src with e | _ | text <;> rfl
    | false => rcases value.stringValue? src with e | _ | text <;> rfl
  · rw [if_neg fun h => hpair (hkind.mp h), if_neg hpair]
    rfl

/-- The text of an attribute's value is passed over where its reading failed. -/
theorem attributeText?_isolate (value : Node) :
    (value.isolate src k false).attributeText? src = .ok (settled (value.attributeText? src)) := by
  have hkind : (value.isolate src k false).kind = value.kind := by rw [kind_isolate]; rfl
  unfold attributeText?
  rw [hkind]
  by_cases hstring : value.kind = Kind.string
  · rw [if_pos hstring, if_pos hstring, verbatimValue?, hkind, chars_isolate, verbatimValue?]
    rfl
  · rw [if_neg hstring, if_neg hstring]
    by_cases hbraces : value.kind = Kind.jsxExpression
    · have hdecoding : value.isDecoding = true := by simp [isDecoding, hbraces]
      rw [if_pos hbraces, if_pos hbraces, significantChildren_isolate, hdecoding]
      cases value.significantChildren with
      | nil => rfl
      | cons inner rest => exact staticValue?_isolate inner
    · rw [if_neg hbraces, if_neg hbraces]
      rfl

/-- **An isolated child of a JSX tag is skipped** where its reading failed. -/
theorem readAttribute_isolate (d : Draft) (child : Node) :
    readAttribute src d (child.isolate src k decoded) =
      .ok ((readAttribute src d child).toOption.getD d) := by
  have hkind : (child.isolate src k decoded).kind = Kind.jsxAttribute ↔
      child.kind = Kind.jsxAttribute := kind_isolate_eq_iff (by decide)
  unfold readAttribute
  by_cases hattribute : child.kind = Kind.jsxAttribute
  · have hdecoding : child.isDecoding = false := by
      rw [isDecoding, hattribute]
      decide
    rw [if_pos (hkind.mpr hattribute), if_pos hattribute, significantChildren_isolate, hdecoding]
    rcases child.significantChildren with _ | ⟨name, _ | ⟨value, rest⟩⟩
    · rfl
    · rfl
    simp only [List.map_cons, attributeText?_isolate, text_isolate]
    rcases value.attributeText? src with e | _ | text <;> rfl
  · rw [if_neg fun h => hattribute (hkind.mp h), if_neg hattribute]
    rfl

/-! ## Candidates -/

/-- Reading an object literal recovers. -/
theorem recovers_readObject (templates : Bool) (object : Node) :
    Recovers (object.readObject src templates)
      ((object.isolate src k decoded).readObject src templates) := by
  rw [readObject, readObject, significantChildren_isolate, List.foldlM_map]
  refine .foldlM (fun d child => ?_) _ _
  rw [readPair_isolate]
  exact .getD _ d

/-- Reading a JSX tag recovers. -/
theorem recovers_readTag (tag : Node) :
    Recovers (tag.readTag src) ((tag.isolate src k decoded).readTag src) := by
  rw [readTag, readTag, significantChildren_isolate, List.foldlM_map]
  refine .foldlM (fun d child => ?_) _ _
  rw [readAttribute_isolate]
  exact .getD _ d

/-- The entries of a map are where they were. -/
theorem nestedObjects_isolate (object : Node) :
    (object.isolate src k decoded).nestedObjects =
      object.nestedObjects.map (isolate src k false) := by
  rw [nestedObjects, nestedObjects, significantChildren_isolate, List.filterMap_map,
    List.map_filterMap]
  congr 1
  funext child
  have hpair : (child.isolate src k object.isDecoding).kind = Kind.pair ↔
      child.kind = Kind.pair := kind_isolate_eq_iff (by decide)
  simp only [Function.comp_apply, hpair, childByField?_isolate]
  split
  · rcases child.childByField? "value" with _ | value
    · rfl
    · have hobject : (value.isolate src k child.isDecoding).kind = Kind.object ↔
          value.kind = Kind.object := kind_isolate_eq_iff (by decide)
      simp only [Option.map_some, Option.filter_some, hobject]
      by_cases h : value.kind = Kind.object
      · have hstructural : value.kind ∈ structuralKinds := by rw [h]; decide
        simp only [h, isolate_eq_of_structural hstructural]
        rfl
      · simp only [h]
        rfl
  · rfl

/-- Reading a map recovers. -/
theorem recovers_mapMessages (object : Node) :
    Recovers (mapMessages src object) (mapMessages src (object.isolate src k decoded)) := by
  rw [mapMessages, mapMessages, nestedObjects_isolate, gather_map]
  exact .gather (fun entry => (recovers_readObject true entry).bind fun _ => .of_ok _) _

/-- Reading the object of a single call recovers. -/
theorem recovers_singleMessage (object : Node) :
    Recovers (singleMessage src object) (singleMessage src (object.isolate src k decoded)) :=
  (recovers_readObject false object).bind fun _ => .of_ok _

/-! ## Passes -/

/-- A declarator is initialized by the same call as before. -/
theorem initializingCall?_isolate (callee : String) (declarator : Node) :
    (declarator.isolate src k decoded).initializingCall? src callee =
      (declarator.initializingCall? src callee).map (isolate src k declarator.isDecoding) := by
  simp only [initializingCall?, childByField?_isolate]
  rcases declarator.childByField? "value" with _ | value
  · rfl
  have hcall : (value.isolate src k declarator.isDecoding).kind = Kind.callExpression ↔
      value.kind = Kind.callExpression := kind_isolate_eq_iff (by decide)
  by_cases hvalue : value.kind = Kind.callExpression
  · rcases hfunction : value.childByField? "function" with _ | function
    · simp [hcall, hvalue, childByField?_isolate, hfunction]
    · have hplain : (function.isolate src k value.isDecoding).kind = Kind.identifier ↔
          function.kind = Kind.identifier := kind_isolate_eq_iff (by decide)
      by_cases hidentifier : function.kind = Kind.identifier <;>
        by_cases htext : function.text src = callee <;>
          simp [hcall, hvalue, childByField?_isolate, hfunction, hplain, hidentifier, htext]
  · simp [hcall, hvalue]

/-- The candidates for a declarator are those that there were. -/
theorem candidates_isolate (callee : String) (declarator : Node) :
    (declarator.isolate src k decoded).candidates src callee =
      (declarator.candidates src callee).map (isolate src k false) := by
  rw [candidates, candidates, initializingCall?_isolate]
  rcases declarator.initializingCall? src callee with _ | call
  · rfl
  simp only [Option.map_some, Option.bind_some, firstArgument?, childByField?_isolate]
  rcases call.childByField? "arguments" with _ | arguments
  · rfl
  simp only [Option.map_some, Option.bind_eq_bind, Option.bind_some, significantChildren_isolate,
    List.head?_map]
  rcases arguments.significantChildren.head? with _ | argument
  · rfl
  exact findKinds_isolate (by decide) true argument

/-- A pass recovers if its reader does. -/
theorem recovers_callMessages (callee : String) (root : Node)
    {extract : Node → Except Error (List Message)}
    (h : ∀ object, Recovers (extract object) (extract (object.isolate src k false))) :
    Recovers (root.callMessages src callee extract)
      ((root.isolate src k decoded).callMessages src callee extract) := by
  rw [callMessages, callMessages, findKinds_isolate (by decide), gather_map]
  refine .gather (fun declarator => ?_) _
  rw [candidates_isolate, gather_map]
  exact .gather h _

/-- Isolation leaves tags their names. -/
theorem isTagNamed_isolate (name : String) (n : Node) :
    (n.isolate src k decoded).isTagNamed src name = n.isTagNamed src name := by
  have hopening : (n.isolate src k decoded).kind = Kind.jsxOpeningElement ↔
      n.kind = Kind.jsxOpeningElement := kind_isolate_eq_iff (by decide)
  have hclosing : (n.isolate src k decoded).kind = Kind.jsxSelfClosingElement ↔
      n.kind = Kind.jsxSelfClosingElement := kind_isolate_eq_iff (by decide)
  have htag : (n.isolate src k decoded).isTag = n.isTag := by simp [isTag, hopening, hclosing]
  rw [isTagNamed, htag, childByField?_isolate, isTagNamed]
  rcases n.childByField? "name" with _ | m
  · rfl
  · have hplain : (m.isolate src k n.isDecoding).kind = Kind.identifier ↔
        m.kind = Kind.identifier := kind_isolate_eq_iff (by decide)
    simp [hplain]

/-- Tags are no literals, so that isolation does not touch them. -/
theorem isTagNamed_structural {name : String} {n : Node} (h : n.isTagNamed src name = true) :
    n.kind ∈ structuralKinds := by
  have htag := (Bool.and_eq_true_iff.mp h).1
  rw [isTag, Bool.or_eq_true, decide_eq_true_eq, decide_eq_true_eq] at htag
  rcases htag with htag | htag <;> rw [htag] <;> decide

/-- The pass over the tags of a name recovers. -/
theorem recovers_tagMessages (name : String) (root : Node) :
    Recovers (root.tagMessages src name) ((root.isolate src k decoded).tagMessages src name) := by
  rw [tagMessages, tagMessages, find_isolate (fun n decoded => isTagNamed_isolate name n)
    (fun n => isTagNamed_structural), gather_map]
  exact .gather (fun tag => (recovers_readTag tag).bind fun _ => .of_ok _) _

/-! ## Extraction -/

/-- **The extraction from the isolated tree** never fails and is the extraction where that one does
not fail. -/
theorem recovers_extract (o : Options) (root : Node) :
    Recovers (root.extract src o) ((root.isolate src k decoded).extract src o) := by
  have htags : Recovers (gather (fun name => root.tagMessages src name) o.tagNames)
      (gather (fun name => (root.isolate src k decoded).tagMessages src name) o.tagNames) :=
    .gather (fun name => recovers_tagMessages name root) _
  have hbulk : Recovers (root.bulkMessages src bulkCallee)
      ((root.isolate src k decoded).bulkMessages src bulkCallee) :=
    recovers_callMessages bulkCallee root recovers_mapMessages
  have hsingle : Recovers (root.singleMessages src singleCallee)
      ((root.isolate src k decoded).singleMessages src singleCallee) :=
    recovers_callMessages singleCallee root recovers_singleMessage
  exact htags.bind fun _ => hbulk.bind fun _ => hsingle.bind fun _ => .of_ok _

/-- **Nothing is skipped at the price of failing**: with its undecodable literals isolated a tree
always has its messages; and the extraction has them too, without failing, iff none of the literals
that it decodes has an escape that names a number above U+10FFFF. -/
theorem extract_eq_isolate_iff (src : Source) (k : InertKind) (o : Options) (root : Node) :
    (∃ messages, (root.isolate src k false).extract src o = .ok messages) ∧
    ((∃ messages, root.extract src o = .ok messages ∧
        (root.isolate src k false).extract src o = .ok messages) ↔
      ∀ literal ∈ root.decodedLiterals src o, ¬ HasOverlarge (literal.body src)) := by
  have hrecovers : Recovers (root.extract src o) ((root.isolate src k false).extract src o) :=
    recovers_extract o root
  refine ⟨hrecovers.total, ?_⟩
  have hnone : (∀ literal ∈ root.decodedLiterals src o, ¬ HasOverlarge (literal.body src)) ↔
      ∃ messages, root.extract src o = .ok messages := by
    rw [← fault?_eq_none_iff, fault?_extract, List.findSome?_eq_none_iff]
    simp only [failure?_eq_none_iff]
  rw [hnone]
  constructor
  · rintro ⟨messages, hmessages, -⟩
    exact ⟨messages, hmessages⟩
  · rintro ⟨messages, hmessages⟩
    exact ⟨messages, hmessages, hrecovers.same messages hmessages⟩

/-- A program with two messages, the second of which has a default text that cannot be decoded. -/
def undecodableDefault : Source :=
  "const a = formatMessage(\x7b id: 'ok', defaultMessage: 'fine' \x7d);
const b = formatMessage(\x7b id: 'b', defaultMessage: '\\u\x7b110000\x7d' \x7d);".toUTF8

/-- The kind of sums and other operations on two operands. -/
def operation : InertKind :=
  ⟨"binary_expression", by decide, by decide, by decide⟩

/-- The extraction fails, though the first message could be had. -/
theorem undecodableDefault_fails :
    (Tsx.parse undecodableDefault).extract undecodableDefault .standard = .error .outOfRange ∧
    ((Tsx.parse undecodableDefault).isolate undecodableDefault operation false).extract
        undecodableDefault .standard =
      .ok [⟨"ok", "fine", none, by decide, by decide⟩] := by
  decide +kernel

end Node

end MessageHarvest
