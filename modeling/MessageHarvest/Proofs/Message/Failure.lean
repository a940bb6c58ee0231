import MessageHarvest.Proofs.Message.Candidate
import MessageHarvest.Proofs.Syntax.Literal
import MessageHarvest.Message.Extraction

/-!
# When extraction fails

An extraction decodes literals in a fixed order and fails at the first one that cannot be decoded.
Which literals it decodes depends neither on what they say nor on the names of their fields: keys
and values are decoded before it is known whether the field matters.

* `Node.pairLiterals`, `Node.attributeLiterals`: what is decoded of a single field.
* `Node.innerObjects`: the entries of a map.
* `Node.decodedLiterals src o root`: all that an extraction decodes, in the order of evaluation.
* `Node.fault?_extract`: an extraction fails as the first of these literals that cannot be decoded.
* **When extraction fails** (`Node.extract_eq_error_iff`): iff one of these literals has an escape
  that names a number above U+10FFFF. The failure is that of the first such escape.
-/

namespace MessageHarvest.Node

open Escape

/-! ## What is decoded -/

/-- What is decoded of a child of an object literal. Of a pair with a key and a value these are the
key, if it is a string, and then the value, if it is a literal and the key is not computed.
Templates are decoded only with `templates`. -/
def pairLiterals (templates : Bool) (child : Node) : List Node :=
  if child.kind = Kind.pair then
    match child.childByField? "key", child.childByField? "value" with
    | some key, some value =>
      [key].filter (isKind Kind.string) ++
        if staticKeyKinds.contains key.kind then
          [value].filter (if templates then isLiteral else isKind Kind.string)
        else []
    | _, _ => []
  else []

/-- What is decoded of an object literal. -/
def objectLiterals (templates : Bool) (object : Node) : List Node :=
  object.significantChildren.flatMap (pairLiterals templates)

/-- The entries of a map: of each pair that is a named child of it the value, if that is an object
literal. The value of a pair is the first child that fills the field for it. -/
def innerObjects (map : Node) : List Node :=
  (map.children.filter fun child => child.named && child.isKind Kind.pair).flatMap fun pair =>
    ((pair.children.filter (·.field = some "value")).take 1).filter (isKind Kind.object)

/-- What is decoded of a child of a JSX tag. Of an attribute that has a value in braces this is the
first thing in the braces, if it is a literal. -/
def attributeLiterals (child : Node) : List Node :=
  if child.kind = Kind.jsxAttribute then
    match child.significantChildren with
    | _ :: value :: _ =>
      if value.kind = Kind.jsxExpression then (value.significantChildren.take 1).filter isLiteral
      else []
    | _ => []
  else []

/-- What is decoded of a JSX tag. -/
def tagLiterals (tag : Node) : List Node :=
  tag.significantChildren.flatMap attributeLiterals

/-- What an extraction decodes, in the order of evaluation: tag name by tag name what belongs to the
tags of this name, then what belongs to the entries of maps, then what belongs to the objects given
to single calls. -/
def decodedLiterals (src : Source) (o : Options) (root : Node) : List Node :=
  (o.tagNames.flatMap fun name =>
    (root.preorder.filter (isTagNamed src name)).flatMap tagLiterals) ++
  ((root.handed src bulkCallee).flatMap fun x =>
    x.object.innerObjects.flatMap (objectLiterals true)) ++
  (root.handed src singleCallee).flatMap fun x => x.object.objectLiterals false

variable {src : Source}

/-! ## The entries of maps -/

/-- The first child that fills the field for the value, if it is of a kind. -/
theorem filter_childByField? (pair : Node) (kind : String) :
    ((pair.childByField? "value").filter (·.kind = kind)).toList =
      ((pair.children.filter (·.field = some "value")).take 1).filter (isKind kind) := by
  rw [childByField?, ← List.head?_filter, List.take_one]
  cases (pair.children.filter (·.field = some "value")).head? with
  | none => rfl
  | some value =>
    by_cases hkind : value.kind = kind <;> simp [Option.filter, isKind, hkind]

/-- The reader of maps finds their entries. -/
theorem nestedObjects_eq_innerObjects (map : Node) : map.nestedObjects = map.innerObjects := by
  rw [nestedObjects, innerObjects, significantChildren, namedChildren]
  induction map.children with
  | nil => rfl
  | cons child rest ih =>
    by_cases hnamed : child.named = true
    · by_cases hpair : child.kind = Kind.pair
      · have hcomment : child.kind ≠ Kind.comment := by
          rw [hpair]
          decide
        rw [List.filter_cons_of_pos hnamed, List.filter_cons_of_pos (by simpa using hcomment),
          List.filter_cons_of_pos (by simp [hnamed, isKind, hpair]), List.flatMap_cons, ← ih,
          ← filter_childByField?, List.filterMap_cons, if_pos hpair]
        cases (child.childByField? "value").filter (·.kind = Kind.object) <;> rfl
      · conv_rhs => rw [List.filter_cons_of_neg (by simp [isKind, hpair])]
        rw [List.filter_cons_of_pos hnamed, List.filter_cons, ← ih]
        split
        · rw [List.filterMap_cons, if_neg hpair]
        · rfl
    · rw [List.filter_cons_of_neg hnamed, List.filter_cons_of_neg (by simp [hnamed]), ih]

/-! ## Failures of fields -/

/-- A key has a name iff it is not computed. -/
theorem isSome_keyName? {key : Node} {name? : Option String} (h : key.keyName? src = .ok name?) :
    name?.isSome = staticKeyKinds.contains key.kind := by
  unfold keyName? at h
  by_cases hstatic : staticKeyKinds.contains key.kind = true
  · rw [if_pos hstatic] at h
    rw [hstatic]
    by_cases hstring : key.kind = Kind.string
    · rw [if_pos hstring, stringValue?, if_pos hstring] at h
      cases hbody : key.decodedBody src with
      | error e => rw [hbody] at h; cases h
      | ok text => rw [hbody] at h; cases h; rfl
    · rw [if_neg hstring] at h
      cases h
      rfl
  · rw [if_neg hstatic] at h
    cases h
    exact (Bool.eq_false_iff.mpr hstatic).symm

/-- A child of an object literal fails as the first literal that is decoded of it. -/
theorem fault?_readPair (templates : Bool) (d : Draft) (child : Node) :
    fault? (readPair src templates d child) =
      (child.pairLiterals templates).findSome? (failure? src) := by
  unfold readPair pairLiterals
  by_cases hpair : child.kind = Kind.pair
  · rw [if_pos hpair, if_pos hpair]
    rcases child.childByField? "key" with _ | key
    · rfl
    rcases child.childByField? "value" with _ | value
    · rfl
    dsimp only
    rw [List.findSome?_append, fault?_bind _ _ ((if staticKeyKinds.contains key.kind then
      [value].filter (if templates then isLiteral else isKind Kind.string) else []).findSome?
        (failure? src))]
    · rw [fault?_keyName?]
      by_cases h : key.kind = Kind.string <;> simp [h, isKind]
    · intro name? hname
      rw [← isSome_keyName? hname]
      cases name? with
      | none => rfl
      | some name =>
          -- the value is decoded, whatever the name
          cases templates with
          | true =>
              refine (fault?_bind_of_total _ ?_).trans ?_
              · rintro (_ | text) <;> rfl
              · rw [fault?_staticValue?]
                cases h : value.isLiteral <;> simp [h]
          | false =>
              refine (fault?_bind_of_total _ ?_).trans ?_
              · rintro (_ | text) <;> rfl
              · rw [fault?_stringValue?]
                by_cases h : value.kind = Kind.string <;> simp [h, isKind]
  · rw [if_neg hpair, if_neg hpair]
    rfl

/-- An object literal fails as the first literal that is decoded of it. -/
theorem fault?_readObject (templates : Bool) (object : Node) :
    fault? (object.readObject src templates) =
      (object.objectLiterals templates).findSome? (failure? src) := by
  rw [readObject, objectLiterals, findSome?_flatMap]
  exact fault?_foldlM _ (fault?_readPair templates) _ _

/-- A child of a JSX tag fails as the literal that is decoded of it. -/
theorem fault?_readAttribute (d : Draft) (child : Node) :
    fault? (readAttribute src d child) = child.attributeLiterals.findSome? (failure? src) := by
  unfold readAttribute attributeLiterals
  by_cases hattribute : child.kind = Kind.jsxAttribute
  · rw [if_pos hattribute, if_pos hattribute]
    rcases child.significantChildren with _ | ⟨name, _ | ⟨value, rest⟩⟩
    · rfl
    · rfl
    dsimp only
    refine (fault?_bind_of_total _ ?_).trans ?_
    · rintro (_ | text) <;> rfl
    unfold attributeText?
    by_cases hstring : value.kind = Kind.string
    · rw [if_pos hstring, if_neg (by rw [hstring]; decide)]
      rfl
    · rw [if_neg hstring]
      by_cases hbraces : value.kind = Kind.jsxExpression
      · rw [if_pos hbraces, if_pos hbraces]
        rcases value.significantChildren with _ | ⟨inner, rest⟩
        · rfl
        · dsimp only
          rw [fault?_staticValue?]
          cases h : inner.isLiteral <;> simp [h]
      · rw [if_neg hbraces, if_neg hbraces]
        rfl
  · rw [if_neg hattribute, if_neg hattribute]
    rfl

/-- A JSX tag fails as the first literal that is decoded of it. -/
theorem fault?_readTag (tag : Node) :
    fault? (tag.readTag src) = tag.tagLiterals.findSome? (failure? src) := by
  rw [readTag, tagLiterals, findSome?_flatMap]
  exact fault?_foldlM _ fault?_readAttribute _ _

/-! ## Failures of passes -/

/-- Whether a draft is a message does not make its reading fail. -/
theorem fault?_message (x : Except Error Draft) :
    fault? (return (← x).message?.toList) = fault? x :=
  fault?_bind_of_total x fun _ => rfl

/-- The pass over the tags of a name fails as the first literal that is decoded of one of them. -/
theorem fault?_tagMessages (name : String) (root : Node) :
    fault? (root.tagMessages src name) =
      ((root.preorder.filter (isTagNamed src name)).flatMap tagLiterals).findSome?
        (failure? src) := by
  rw [tagMessages, fault?_gather, find_eq_filter_preorder, findSome?_flatMap]
  simp only [fault?_message, fault?_readTag]

/-- A map fails as the first literal that is decoded of one of its entries. -/
theorem fault?_mapMessages (object : Node) :
    fault? (mapMessages src object) =
      (object.innerObjects.flatMap (objectLiterals true)).findSome? (failure? src) := by
  rw [mapMessages, nestedObjects_eq_innerObjects, fault?_gather, findSome?_flatMap]
  simp only [fault?_message, fault?_readObject]

/-- The object given to a single call fails as the first literal that is decoded of it. -/
theorem fault?_singleMessage (object : Node) :
    fault? (singleMessage src object) = (object.objectLiterals false).findSome? (failure? src) := by
  rw [singleMessage, fault?_message, fault?_readObject]

/-- A pass over the calls of a callee fails as its reader does on the first candidate on which it
fails. -/
theorem fault?_callMessages (callee : String) (root : Node)
    {extract : Node → Except Error (List Message)} (literals : Node → List Node)
    (h : ∀ object, fault? (extract object) = (literals object).findSome? (failure? src)) :
    fault? (root.callMessages src callee extract) =
      ((root.handed src callee).flatMap fun x => literals x.object).findSome? (failure? src) := by
  rw [callMessages_eq_gather_handed, fault?_gather, findSome?_flatMap]
  simp only [h]

/-! ## Failures of an extraction -/

/-- **An extraction fails** as the first literal that is decoded and fails. -/
theorem fault?_extract (o : Options) (root : Node) :
    fault? (root.extract src o) = (root.decodedLiterals src o).findSome? (failure? src) := by
  have htags : fault? (gather (fun name => root.tagMessages src name) o.tagNames) =
      (o.tagNames.flatMap fun name =>
        (root.preorder.filter (isTagNamed src name)).flatMap tagLiterals).findSome?
          (failure? src) := by
    rw [fault?_gather, findSome?_flatMap]
    simp only [fault?_tagMessages]
  have hbulk : fault? (root.bulkMessages src bulkCallee) =
      ((root.handed src bulkCallee).flatMap fun x =>
        x.object.innerObjects.flatMap (objectLiterals true)).findSome? (failure? src) :=
    fault?_callMessages bulkCallee root _ fault?_mapMessages
  have hsingle : fault? (root.singleMessages src singleCallee) =
      ((root.handed src singleCallee).flatMap fun x =>
        x.object.objectLiterals false).findSome? (failure? src) :=
    fault?_callMessages singleCallee root _ fault?_singleMessage
  rw [extract, decodedLiterals, List.findSome?_append, List.findSome?_append, ← htags, ← hbulk,
    ← hsingle, Option.or_assoc]
  exact fault?_bind _ _ _ fun tags _ => fault?_bind _ _ _ fun bulk _ =>
    fault?_bind_of_total _ fun single => rfl

/-- **When extraction fails**: iff a literal that is decoded has an escape that names a number above
U+10FFFF; and it fails as the first such escape of the first such literal. -/
theorem extract_eq_error_iff (src : Source) (o : Options) (root : Node) :
    ((∃ e, root.extract src o = .error e) ↔
      ∃ literal ∈ root.decodedLiterals src o, HasOverlarge (literal.body src)) ∧
    ∀ e, root.extract src o = .error e ↔
      ∃ before literal after n, root.decodedLiterals src o = before ++ literal :: after ∧
        (∀ earlier ∈ before, ¬ HasOverlarge (earlier.body src)) ∧
        FirstOverlarge (literal.body src) n ∧ e = failure n := by
  have hfirst : ∀ e, root.extract src o = .error e ↔
      ∃ before literal after n, root.decodedLiterals src o = before ++ literal :: after ∧
        (∀ earlier ∈ before, ¬ HasOverlarge (earlier.body src)) ∧
        FirstOverlarge (literal.body src) n ∧ e = failure n := by
    intro e
    rw [← fault?_eq_some_iff, fault?_extract, List.findSome?_eq_some_iff]
    constructor
    · rintro ⟨before, literal, after, heq, hliteral, hbefore⟩
      obtain ⟨n, hn, rfl⟩ := failure?_eq_some_iff.mp hliteral
      exact ⟨before, literal, after, n, heq,
        fun earlier hmem => failure?_eq_none_iff.mp (hbefore earlier hmem), hn, rfl⟩
    · rintro ⟨before, literal, after, n, heq, hbefore, hn, rfl⟩
      exact ⟨before, literal, after, heq, failure?_eq_some_iff.mpr ⟨n, hn, rfl⟩,
        fun earlier hmem => failure?_eq_none_iff.mpr (hbefore earlier hmem)⟩
  refine ⟨?_, hfirst⟩
  constructor
  · rintro ⟨e, he⟩
    obtain ⟨before, literal, after, n, heq, -, hn, -⟩ := (hfirst e).mp he
    exact ⟨literal, by simp [heq], hasOverlarge_iff.mpr ⟨n, hn⟩⟩
  · rintro ⟨literal, hmem, hliteral⟩
    cases hextract : root.extract src o with
    | error e => exact ⟨e, rfl⟩
    | ok messages =>
        have hnone : fault? (root.extract src o) = none := by rw [hextract]; rfl
        rw [fault?_extract, List.findSome?_eq_none_iff] at hnone
        exact absurd hliteral (failure?_eq_none_iff.mp (hnone literal hmem))

/-- A single call with an escape above U+10FFFF, a map with one entry, and behind them a tag with an
attribute of which no message is made and whose escape names a larger number. -/
def lateTag : Source :=
  "const m = formatMessage(\x7bid: '\\u\x7b110000\x7d'\x7d),
n = defineMessages(\x7ba: \x7bid: 'x'\x7d\x7d),
t = <FormattedMessage title=\x7b'\\u\x7b80000000\x7d'\x7d/>;".toUTF8

/-- `extract_eq_error_iff` there. The tag comes first in the order of evaluation, so that its
failure is that of the extraction. -/
theorem extract_lateTag :
    ((Tsx.parse lateTag).decodedLiterals lateTag .standard).map (·.text lateTag) =
        ["'\\u\x7b80000000\x7d'", "'x'", "'\\u\x7b110000\x7d'"] ∧
      (∃ literal ∈ (Tsx.parse lateTag).decodedLiterals lateTag .standard,
        HasOverlarge (literal.body lateTag)) ∧
      (Tsx.parse lateTag).extract lateTag .standard = .error .tooLarge := by
  have hread : ((Tsx.parse lateTag).decodedLiterals lateTag .standard).map
      (fun n => (n.text lateTag, n.overlarge? lateTag)) =
        [("'\\u\x7b80000000\x7d'", some 0x80000000), ("'x'", none),
          ("'\\u\x7b110000\x7d'", some 0x110000)] := by
    decide +kernel
  obtain ⟨literal, after, hdecoded, hliteral, -⟩ := List.map_eq_cons_iff.mp hread
  have hfirst : FirstOverlarge (literal.body lateTag) 0x80000000 :=
    (Escape.overlarge?_eq_some_iff _).mp (Prod.mk.inj hliteral).2
  obtain ⟨hiff, herror⟩ := extract_eq_error_iff lateTag .standard (Tsx.parse lateTag)
  have hextract := (herror .tooLarge).mpr ⟨[], literal, after, 0x80000000, hdecoded,
    fun earlier hmem => absurd hmem List.not_mem_nil, hfirst, rfl⟩
  have htexts := congrArg (List.map Prod.fst) hread
  rw [List.map_map] at htexts
  exact ⟨htexts, hiff.mp ⟨.tooLarge, hextract⟩, hextract⟩

end MessageHarvest.Node
