import MessageHarvest.Proofs.Message.Draft
import MessageHarvest.Proofs.Message.Failure

/-!
# The last readable value wins

What the reading of an object literal sets a field to is said by the children alone: it is the text
of the last child that carries the field.

* `Carries src templates child name text`: the child is a pair with a key and a value, the key has
  the static name, and the value is a literal of the text.
* `LastCarried`: of the children of an object literal that carry a name, the last one carries this
  text.
* `Idle`: the child is one of those that carry no field, or nothing that can be read.
* `Node.readObject_eq_ok_putAll`: an object literal is read as a row of puts, one for each child
  that carries something.
* **The last readable value wins** (`Node.readObject_lastValue`): the fields that are set are those
  last carried. Idle children change nothing, wherever they stand.
-/

namespace MessageHarvest

open Escape

/-! ## What a child carries -/

/-- The key has a static name: its own text, or the text that it stands for if it is a string. -/
inductive HasStaticName (src : Source) (key : Node) (name : String) : Prop
  | plain (kind : key.kind = Node.Kind.identifier ∨ key.kind = Node.Kind.propertyIdentifier ∨
      key.kind = Node.Kind.number) (text : key.text src = name)
  | quoted (kind : key.kind = Node.Kind.string)
      (decoded : unescape (String.ofList (key.body src)) = .ok name)

/-- The value is a literal that stands for a text: a string or, with `templates`, a template without
substitutions. -/
inductive IsLiteralOf (src : Source) (templates : Bool) (value : Node) (text : String) : Prop
  | string (kind : value.kind = Node.Kind.string)
      (decoded : unescape (String.ofList (value.body src)) = .ok text)
  | template (accepted : templates = true) (kind : value.kind = Node.Kind.templateString)
      (plain : ∀ c ∈ value.namedChildren, c.kind ≠ Node.Kind.templateSubstitution)
      (decoded : unescape (String.ofList (Node.singleLineEnds (value.body src))) = .ok text)

/-- The child is a pair whose key has the static name and whose value stands for the text. -/
inductive Carries (src : Source) (templates : Bool) (child : Node) (name text : String) : Prop
  | intro {key value : Node}
      (named : child.named = true)
      (kind : child.kind = Node.Kind.pair)
      (key_child : child.childByField? "key" = some key)
      (value_child : child.childByField? "value" = some value)
      (key_name : HasStaticName src key name)
      (value_text : IsLiteralOf src templates value text)

/-- The last child of the object literal that carries the name carries it with this text. -/
def LastCarried (src : Source) (templates : Bool) (object : Node) (name text : String) : Prop :=
  ∃ before child after, object.children = before ++ child :: after ∧
    Carries src templates child name text ∧
    ∀ later ∈ after, ∀ text', ¬ Carries src templates later name text'

/-- The child sets no field, and does not make the reading fail. -/
inductive Idle (src : Source) (templates : Bool) (child : Node) : Prop
  /-- It is no pair but a comment, a spread, a shorthand, a method or a token. -/
  | noPair (kind : child.kind ≠ Node.Kind.pair)
  | noKey (key_child : child.childByField? "key" = none)
  | noValue (value_child : child.childByField? "value" = none)
  | computed {key : Node} (key_child : child.childByField? "key" = some key)
      (key_kind : key.kind ∉ Node.staticKeyKinds)
  | unknown {key : Node} {name : String} (key_child : child.childByField? "key" = some key)
      (key_name : HasStaticName src key name)
      (name_unknown : name ∉ fieldNames)
      (decodable : ∀ literal ∈ child.pairLiterals templates, ¬ HasOverlarge (literal.body src))
  | unreadable {value : Node} (value_child : child.childByField? "value" = some value)
      (no_string : value.kind ≠ Node.Kind.string)
      (no_template : templates = true → value.isPlainTemplate = false)
      (decodable : ∀ literal ∈ child.pairLiterals templates, ¬ HasOverlarge (literal.body src))

namespace Node

variable {src : Source} {templates : Bool}

/-! ## What a child puts into a draft -/

/-- How the value of a pair is read. -/
def pairValue? (src : Source) (templates : Bool) (value : Node) : Except Error (Option String) :=
  if templates then value.staticValue? src else value.stringValue? src

/-- The name and the text that a child puts into a draft. -/
def fieldPut? (src : Source) (templates : Bool) (child : Node) : Option (String × String) := do
  guard (child.named ∧ child.kind = Kind.pair)
  let key ← child.childByField? "key"
  let value ← child.childByField? "value"
  let name ← (key.keyName? src).toOption.join
  let text ← (pairValue? src templates value).toOption.join
  return (name, text)

/-- The decoded body is what the text between the quotes stands for. -/
theorem decodedBody_eq_ok_iff {n : Node} {text : String} :
    n.decodedBody src = .ok text ↔ unescape (String.ofList (n.body src)) = .ok text := by
  rw [decodedBody, unescape, String.toList_ofList, body]

/-- Which nodes have a value as strings, and which value. -/
theorem stringValue?_eq_ok_some_iff {n : Node} {text : String} :
    n.stringValue? src = .ok (some text) ↔
      n.kind = Kind.string ∧ unescape (String.ofList (n.body src)) = .ok text := by
  rw [← decodedBody_eq_ok_iff]
  unfold stringValue?
  by_cases h : n.kind = Kind.string
  · cases n.decodedBody src <;> simp [h, Except.map]
  · simp [h]

/-- Which keys have a name, and which name. -/
theorem keyName?_eq_ok_some_iff {key : Node} {name : String} :
    key.keyName? src = .ok (some name) ↔ HasStaticName src key name := by
  unfold keyName?
  by_cases hstring : key.kind = Kind.string
  · have hstatic : staticKeyKinds.contains key.kind = true := by simp [hstring, staticKeyKinds]
    rw [if_pos hstatic, if_pos hstring, stringValue?_eq_ok_some_iff]
    constructor
    · rintro ⟨hkind, hdecoded⟩
      exact .quoted hkind hdecoded
    · rintro (⟨hkind, -⟩ | ⟨hkind, hdecoded⟩)
      · rw [hstring] at hkind
        exact absurd hkind (by decide)
      · exact ⟨hkind, hdecoded⟩
  · rw [if_neg hstring]
    have hstatic : staticKeyKinds.contains key.kind = true ↔
        key.kind = Kind.identifier ∨ key.kind = Kind.propertyIdentifier ∨
          key.kind = Kind.number := by
      simp [staticKeyKinds, hstring, or_left_comm]
    constructor
    · intro h
      split at h
      · cases h
        exact .plain (hstatic.mp ‹_›) rfl
      · cases h
    · rintro (⟨hkind, rfl⟩ | ⟨hkind, -⟩)
      · rw [if_pos (hstatic.mpr hkind)]
      · exact absurd hkind hstring

/-- A plain template is one without substitutions among its named children. -/
theorem isPlainTemplate_iff {n : Node} :
    n.isPlainTemplate = true ↔ n.kind = Kind.templateString ∧
      ∀ c ∈ n.namedChildren, c.kind ≠ Kind.templateSubstitution := by
  simp [isPlainTemplate]

/-- Which values can be read, and what they are read as. -/
theorem pairValue?_eq_ok_some_iff {value : Node} {text : String} :
    pairValue? src templates value = .ok (some text) ↔ IsLiteralOf src templates value text := by
  unfold pairValue?
  cases templates with
  | false =>
    rw [if_neg Bool.false_ne_true, stringValue?_eq_ok_some_iff]
    constructor
    · rintro ⟨hkind, hdecoded⟩
      exact .string hkind hdecoded
    · rintro (⟨hkind, hdecoded⟩ | ⟨haccepted⟩)
      · exact ⟨hkind, hdecoded⟩
      · cases haccepted
  | true =>
    rw [if_pos rfl]
    unfold staticValue?
    by_cases hstring : value.kind = Kind.string
    · rw [if_pos hstring, stringValue?_eq_ok_some_iff]
      constructor
      · rintro ⟨-, hdecoded⟩
        exact .string hstring hdecoded
      · rintro (⟨-, hdecoded⟩ | ⟨-, htemplate⟩)
        · exact ⟨hstring, hdecoded⟩
        · rw [hstring] at htemplate
          exact absurd htemplate (by decide)
    · rw [if_neg hstring]
      have hdecode : (unescapeChars (singleLineEnds (unquoted (value.chars src)))).map
            (some <| String.ofList ·) = .ok (some text) ↔
          unescape (String.ofList (singleLineEnds (value.body src))) = .ok text := by
        rw [unescape, String.toList_ofList, body]
        cases unescapeChars (singleLineEnds (unquoted (value.chars src))) <;> simp [Except.map]
      constructor
      · intro h
        split at h
        · obtain ⟨hkind, hplain⟩ := isPlainTemplate_iff.mp ‹_›
          exact .template rfl hkind hplain (hdecode.mp h)
        · cases h
      · rintro (⟨hkind, -⟩ | ⟨-, hkind, hplain, hdecoded⟩)
        · exact absurd hkind hstring
        · rw [if_pos (isPlainTemplate_iff.mpr ⟨hkind, hplain⟩)]
          exact hdecode.mpr hdecoded

/-- What a child puts into a draft is what it carries. -/
theorem fieldPut?_eq_some_iff {child : Node} {name text : String} :
    fieldPut? src templates child = some (name, text) ↔ Carries src templates child name text := by
  have hjoin : ∀ {α : Type} {x : Except Error (Option α)} {a : α},
      x.toOption.join = some a ↔ x = .ok (some a) := by
    intro α x a
    rcases x with e | _ | b <;> simp [Except.toOption]
  simp only [fieldPut?, Option.bind_eq_bind, Option.bind_eq_some_iff, Option.guard_eq_some',
    Option.pure_def, Option.some.injEq, Prod.mk.injEq, hjoin, keyName?_eq_ok_some_iff,
    pairValue?_eq_ok_some_iff]
  constructor
  · rintro ⟨-, ⟨hnamed, hkind⟩, key, hkey, value, hvalue, name, hname, text, htext, rfl, rfl⟩
    exact .intro hnamed hkind hkey hvalue hname htext
  · rintro ⟨hnamed, hkind, hkey, hvalue, hname, htext⟩
    exact ⟨(), ⟨hnamed, hkind⟩, _, hkey, _, hvalue, _, hname, _, htext, rfl, rfl⟩

/-! ## Reading children -/

/-- A pair is read by its key and its value. -/
theorem readPair_of_pair {child key value : Node} (hkind : child.kind = Kind.pair)
    (hkey : child.childByField? "key" = some key)
    (hvalue : child.childByField? "value" = some value) (d : Draft) :
    readPair src templates d child = (do
      match ← key.keyName? src with
      | none => return d
      | some name =>
        match ← pairValue? src templates value with
        | none => return d
        | some text => return d.put name text) := by
  rw [readPair, if_pos hkind, hkey, hvalue]
  cases templates <;> rfl

/-- A child of which every literal can be decoded does not make the reading fail. -/
theorem exists_readPair_eq_ok {child : Node}
    (h : ∀ literal ∈ child.pairLiterals templates, ¬ HasOverlarge (literal.body src)) (d : Draft) :
    ∃ d', readPair src templates d child = .ok d' := by
  rw [← fault?_eq_none_iff, fault?_readPair, List.findSome?_eq_none_iff]
  intro literal hliteral
  exact failure?_eq_none_iff.mpr (h literal hliteral)

/-- A child that can be decoded puts what it carries into a draft, whatever else is there. -/
theorem readPair_eq_ok_putAll {child : Node} (hsig : child.isSignificant = true)
    (h : ∀ literal ∈ child.pairLiterals templates, ¬ HasOverlarge (literal.body src)) (d : Draft) :
    readPair src templates d child = .ok (d.putAll (fieldPut? src templates child).toList) := by
  have hnamed : child.named = true := by
    simp only [isSignificant, Bool.and_eq_true] at hsig
    exact hsig.1
  obtain ⟨d', hd'⟩ := exists_readPair_eq_ok h d
  rw [hd']
  unfold fieldPut?
  by_cases hkind : child.kind = Kind.pair
  · rcases hkey : child.childByField? "key" with _ | key
    · rw [readPair, if_pos hkind, hkey] at hd'
      cases hd'
      simp [hnamed, hkind]
    rcases hvalue : child.childByField? "value" with _ | value
    · rw [readPair, if_pos hkind, hkey, hvalue] at hd'
      cases hd'
      simp [hnamed, hkind]
    rw [readPair_of_pair hkind hkey hvalue] at hd'
    obtain ⟨name?, hname, hd'⟩ := exists_of_bind hd'
    rcases name? with _ | name
    · cases hd'
      simp [hnamed, hkind, hname, Except.toOption]
    obtain ⟨text?, htext, hd'⟩ := exists_of_bind hd'
    rcases text? with _ | text <;> cases hd' <;>
      simp [hnamed, hkind, hname, htext, Except.toOption]
  · rw [readPair, if_neg hkind] at hd'
    cases hd'
    simp [hkind]

/-- **Reading is putting**: an object literal that can be decoded is read as the row of puts that
its children make. -/
theorem readObject_eq_ok_putAll {object : Node}
    (h : ∀ literal ∈ object.objectLiterals templates, ¬ HasOverlarge (literal.body src)) :
    object.readObject src templates =
      .ok (.ofPuts (object.children.filterMap (fieldPut? src templates))) := by
  have hfold : ∀ (children : List Node) (d : Draft), (∀ c ∈ children, c.isSignificant = true) →
      (∀ c ∈ children, ∀ literal ∈ c.pairLiterals templates, ¬ HasOverlarge (literal.body src)) →
      children.foldlM (readPair src templates) d =
        .ok (d.putAll (children.filterMap (fieldPut? src templates))) := by
    intro children
    induction children with
    | nil => intro d _ _; rfl
    | cons c children ih =>
      intro d hsig hdecodable
      rw [List.foldlM_cons, readPair_eq_ok_putAll (hsig c List.mem_cons_self)
        (hdecodable c List.mem_cons_self)]
      have hrest := ih (d.putAll (fieldPut? src templates c).toList)
        (fun b hb => hsig b (List.mem_cons_of_mem c hb))
        (fun b hb => hdecodable b (List.mem_cons_of_mem c hb))
      refine hrest.trans ?_
      cases hput : fieldPut? src templates c with
      | none => rw [List.filterMap_cons_none hput]; rfl
      | some p => rw [List.filterMap_cons_some hput]; rfl
  have hsignificant : object.significantChildren.filterMap (fieldPut? src templates) =
      object.children.filterMap (fieldPut? src templates) := by
    rw [significantChildren_eq, List.filterMap_filter]
    apply List.filterMap_congr
    intro c _
    -- a child that does not count carries nothing
    by_cases hsig : c.isSignificant = true
    · rw [if_pos hsig]
    · rw [if_neg hsig]
      symm
      rw [Option.eq_none_iff_forall_ne_some]
      rintro ⟨name, text⟩ hput
      obtain ⟨hnamed, hkind⟩ := fieldPut?_eq_some_iff.mp hput
      apply hsig
      rw [isSignificant, hnamed, hkind]
      rfl
  rw [readObject, hfold _ _ ?_ ?_, hsignificant]
  · rfl
  · intro c hc
    rw [significantChildren_eq, List.mem_filter] at hc
    exact hc.2
  · intro c hc literal hliteral
    exact h literal (List.mem_flatMap.mpr ⟨c, hc, hliteral⟩)

/-- **An idle child** leaves a draft as it is. -/
theorem readPair_of_idle {child : Node} (h : Idle src templates child) (d : Draft) :
    readPair src templates d child = .ok d := by
  by_cases hkind : child.kind = Kind.pair
  · rcases hkey : child.childByField? "key" with _ | key
    · rw [readPair, if_pos hkind, hkey]
      rfl
    rcases hvalue : child.childByField? "value" with _ | value
    · rw [readPair, if_pos hkind, hkey, hvalue]
      rfl
    cases h with
    | noPair h => exact absurd hkind h
    | noKey h => rw [hkey] at h; cases h
    | noValue h => rw [hvalue] at h; cases h
    | computed hkey' hcomputed =>
      obtain rfl := Option.some.inj (hkey.symm.trans hkey')
      have hname : key.keyName? src = .ok none := by
        rw [keyName?, if_neg (by simpa using hcomputed)]
      rw [readPair_of_pair hkind hkey hvalue, hname]
      rfl
    | unknown hkey' hname hunknown hdecodable =>
      obtain rfl := Option.some.inj (hkey.symm.trans hkey')
      obtain ⟨d', hd'⟩ := exists_readPair_eq_ok hdecodable d
      rw [hd']
      rw [readPair_of_pair hkind hkey hvalue, keyName?_eq_ok_some_iff.mpr hname] at hd'
      obtain ⟨name?, hname?, hd'⟩ := exists_of_bind hd'
      cases hname?
      obtain ⟨text?, -, hd'⟩ := exists_of_bind hd'
      rcases text? with _ | text
      · exact hd'.symm
      · rw [← hd']
        exact congrArg Except.ok (Draft.put_of_not_mem hunknown d text)
    | unreadable hvalue' hstring htemplate hdecodable =>
      obtain rfl := Option.some.inj (hvalue.symm.trans hvalue')
      have htext : pairValue? src templates value = .ok none := by
        cases templates with
        | false => simp [pairValue?, stringValue?, hstring]
        | true => simp [pairValue?, staticValue?, hstring, htemplate rfl]
      obtain ⟨d', hd'⟩ := exists_readPair_eq_ok hdecodable d
      rw [hd']
      rw [readPair_of_pair hkind hkey hvalue, htext] at hd'
      obtain ⟨name?, -, hd'⟩ := exists_of_bind hd'
      rcases name? with _ | name <;> exact hd'.symm
  · rw [readPair, if_neg hkind]
    rfl

/-- Object literals whose children differ in idle ones only are read alike. -/
theorem readObject_eq_of_filter_eq {object other : Node} {keep : Node → Bool}
    (hidle : ∀ c, keep c = false → Idle src templates c)
    (h : other.children.filter keep = object.children.filter keep) :
    other.readObject src templates = object.readObject src templates := by
  have hskip : ∀ d c, keep c = false → readPair src templates d c = .ok d := by
    intro d c hc
    exact readPair_of_idle (hidle c hc) d
  have hread : ∀ n : Node, n.readObject src templates =
      ((n.children.filter keep).filter isSignificant).foldlM (readPair src templates) .empty := by
    intro n
    have hcomm : n.significantChildren.filter keep =
        (n.children.filter keep).filter isSignificant := by
      rw [significantChildren_eq, List.filter_filter, List.filter_filter]
      simp only [Bool.and_comm]
    rw [readObject, ← hcomm, foldlM_filter hskip]
  rw [hread, hread, h]

/-! ## What is read -/

/-- **The last readable value wins**: an object literal in which every literal can be decoded sets
exactly the fields that its children carry, each to the text of the last child that carries it.
Children that carry no field, or nothing that can be read, change nothing, however many they are and
wherever they stand. A text that is empty counts as well: a required field with it makes the
literal no message. -/
theorem readObject_lastValue {src : Source} {templates : Bool} {object : Node}
    (h : ∀ literal ∈ object.objectLiterals templates, ¬ HasOverlarge (literal.body src)) :
    ∃ d, object.readObject src templates = .ok d ∧
      (∀ name text, (name, text) ∈ d.members ↔
        name ∈ fieldNames ∧ LastCarried src templates object name text) ∧
      (∀ (other : Node) (keep : Node → Bool), (∀ c, keep c = false → Idle src templates c) →
        other.children.filter keep = object.children.filter keep →
        other.readObject src templates = .ok d) ∧
      ∀ name ∈ ["id", "defaultMessage"], LastCarried src templates object name "" →
        d.message? = none := by
  have hread := readObject_eq_ok_putAll h
  generalize hd : Draft.ofPuts (object.children.filterMap (fieldPut? src templates)) = d at hread
  have hget : ∀ (f : Field) (text : String), d.get? f = some text ↔
      LastCarried src templates object f.name text := by
    intro f text
    rw [← hd, Draft.get?_ofPuts, lastText?_filterMap_eq_some_iff]
    simp only [LastCarried, ← fieldPut?_eq_some_iff, ne_eq]
  refine ⟨d, hread, ?_, ?_, ?_⟩
  · intro name text
    rw [Draft.mem_members_iff, mem_fieldNames_iff]
    constructor
    · rintro ⟨f, rfl, hf⟩
      exact ⟨⟨f, rfl⟩, (hget f text).mp hf⟩
    · rintro ⟨⟨f, rfl⟩, hlast⟩
      exact ⟨f, rfl, (hget f text).mpr hlast⟩
  · intro other keep hidle hsame
    rw [readObject_eq_of_filter_eq hidle hsame, hread]
  · intro name hname hlast
    rw [Draft.message?_eq_none_iff]
    simp only [List.mem_cons, List.not_mem_nil, or_false] at hname
    rcases hname with rfl | rfl
    · have hid : d.id = some "" := (hget .id "").mpr hlast
      simp [Draft.isComplete, hid]
    · have hdefault : d.defaultMessage = some "" := (hget .defaultMessage "").mpr hlast
      simp [Draft.isComplete, hdefault]

/-- An object literal in which fields are set again: by a value that can be read, by one that
cannot, and by an empty one. -/
def overridden : Source :=
  "(\x7bid: 'a', ...r, 'i\\x64': 'b', id: g(), [id]: 'x', defaultMessage: 't', /**/
    defaultMessage: ``\x7d)".toUTF8

/-- The object literal of that source. -/
def overriddenObject : Node :=
  ((Tsx.parse overridden).preorder.find? (isKind Kind.object)).getD default

/-- `readObject_lastValue` there. -/
theorem readObject_overridden :
    (∀ literal ∈ overriddenObject.objectLiterals true,
      ¬ HasOverlarge (literal.body overridden)) ∧
    ∃ d, d.members = [("id", "b"), ("defaultMessage", "")] ∧
      overriddenObject.readObject overridden true = .ok d ∧
      (∀ name text, (name, text) ∈ d.members ↔
        name ∈ fieldNames ∧ LastCarried overridden true overriddenObject name text) ∧
      d.message? = none := by
  have ⟨hall, hvalue⟩ : ((overriddenObject.objectLiterals true).all
        (fun literal => (literal.failure? overridden).isNone) = true) ∧
      overriddenObject.readObject overridden true = .ok ⟨some "b", some "", none⟩ := by
    decide +kernel
  have hdecodable : ∀ literal ∈ overriddenObject.objectLiterals true,
      ¬ HasOverlarge (literal.body overridden) := by
    intro literal hliteral
    have hnone := List.all_eq_true.mp hall literal hliteral
    exact failure?_eq_none_iff.mp (Option.isNone_iff_eq_none.mp hnone)
  obtain ⟨d, hread, hmembers, -, hempty⟩ := readObject_lastValue hdecodable
  obtain rfl : d = ⟨some "b", some "", none⟩ := Except.ok.inj (hread.symm.trans hvalue)
  have hlast := ((hmembers "defaultMessage" "").mp (by decide)).2
  exact ⟨hdecodable, _, rfl, hvalue, hmembers, hempty _ (by decide) hlast⟩

end Node

end MessageHarvest
