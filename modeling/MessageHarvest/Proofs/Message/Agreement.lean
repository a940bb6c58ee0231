import MessageHarvest.Proofs.Message.Candidate
import MessageHarvest.Proofs.Syntax.Literal
import Mathlib.Data.List.Forall2

/-!
# The three patterns agree

The fields of a message may be written as the attributes `name={value}` of a tag, as the pairs
`name: value` of an entry of a map, or as those of an object given to a single call. Each pattern
has a reader of its own. All of them are the reading of one list of entries (`Node.readEntries`),
with two ways to read a value: the reader of objects given to single calls passes over templates.

* `TagOf`, `ObjectOf`, `MapOf`: what it is for a tag, an object literal or a map to be written from
  a list of entries.
* `Node.readTag_eq_readEntries`, `Node.readObject_eq_readEntries`: the readers read the entries.
* **The patterns agree** (`Node.messages_eq_of_entries`): a tag and a map from the same entries have
  the same message, or none, or fail alike. So has an object given to a single call if no value is a
  template; else it has what the other two have when each template is replaced by a node that is no
  literal.
* `Node.tagOf_fieldsTag`, `Node.objectOf_fieldsObject`, `Node.mapOf_fieldsMap`: any fields can be
  written in these three ways.
-/

namespace MessageHarvest

open Escape

/-! ## Entries and how they are written -/

/-- A field as it is meant: its name, and the expression that is its value. -/
structure FieldEntry where
  name : String
  value : Node

/-- Two nodes are the same expression, perhaps written twice: they are of the same kind, have the
same text, and their named children are of the same kinds. -/
structure Node.SameExpression (src : Source) (n m : Node) : Prop where
  kind : n.kind = m.kind
  chars : n.chars src = m.chars src
  children : n.namedChildren.map (·.kind) = m.namedChildren.map (·.kind)

/-- The node is an attribute, its name that of the entry, and its value that of the entry in
braces. -/
inductive AttributeOf (src : Source) (e : FieldEntry) (n : Node) : Prop
  | intro {name braces value : Node}
      (kind : n.kind = Node.Kind.jsxAttribute)
      (parts : n.significantChildren = [name, braces])
      (name_kind : name.kind = Node.Kind.propertyIdentifier)
      (name_text : name.text src = e.name)
      (braces_kind : braces.kind = Node.Kind.jsxExpression)
      (content : braces.significantChildren = [value])
      (same : value.SameExpression src e.value)

/-- The node is a pair, its key the name of the entry, and its value that of the entry. -/
inductive PairOf (src : Source) (e : FieldEntry) (n : Node) : Prop
  | intro {key value : Node}
      (kind : n.kind = Node.Kind.pair)
      (key_child : n.childByField? "key" = some key)
      (key_kind : key.kind = Node.Kind.propertyIdentifier)
      (key_text : key.text src = e.name)
      (value_child : n.childByField? "value" = some value)
      (same : value.SameExpression src e.value)

/-- The attributes of the tag are the entries, one by one. -/
def TagOf (src : Source) (entries : List FieldEntry) (tag : Node) : Prop :=
  List.Forall₂ (AttributeOf src) entries
    (tag.significantChildren.filter (Node.isKind Node.Kind.jsxAttribute))

/-- The pairs of the object literal are the entries, one by one. -/
def ObjectOf (src : Source) (entries : List FieldEntry) (object : Node) : Prop :=
  List.Forall₂ (PairOf src) entries (object.significantChildren.filter (Node.isKind Node.Kind.pair))

/-- The one object literal among the values of the map is written from the entries. -/
def MapOf (src : Source) (entries : List FieldEntry) (map : Node) : Prop :=
  ∃ inner, map.nestedObjects = [inner] ∧ ObjectOf src entries inner

/-- The entry with another value, if its value is a template. -/
def FieldEntry.withoutTemplate (other : Node) (e : FieldEntry) : FieldEntry :=
  if e.value.kind = Node.Kind.templateString then { e with value := other } else e

namespace Node

variable {src : Source} {entries : List FieldEntry}

/-! ## Reading entries -/

/-- Puts an entry into a draft, if there is something to read in its value. -/
def readEntry (value? : Node → Except Error (Option String)) (d : Draft) (e : FieldEntry) :
    Except Error Draft := do
  match ← value? e.value with
  | none => return d
  | some text => return d.put e.name text

/-- The fields that a list of entries sets. -/
def readEntries (value? : Node → Except Error (Option String)) (entries : List FieldEntry) :
    Except Error Draft :=
  entries.foldlM (readEntry value?) .empty

/-- Likewise they are the same strings. -/
theorem SameExpression.stringValue?_eq {n m : Node} (h : n.SameExpression src m) :
    n.stringValue? src = m.stringValue? src :=
  stringValue?_congr h.kind h.chars

/-- If one of them is a template without substitutions, so is the other. -/
theorem SameExpression.isPlainTemplate_eq {n m : Node} (h : n.SameExpression src m) :
    n.isPlainTemplate = m.isPlainTemplate := by
  have hany : ∀ k : Node, k.namedChildren.any (·.kind = Kind.templateSubstitution) =
      (k.namedChildren.map (·.kind)).any (· = Kind.templateSubstitution) := by
    intro k
    rw [List.any_map]
    rfl
  rw [isPlainTemplate, isPlainTemplate, hany, hany, h.kind, h.children]

/-- They are the same literals. -/
theorem SameExpression.staticValue?_eq {n m : Node} (h : n.SameExpression src m) :
    n.staticValue? src = m.staticValue? src :=
  staticValue?_congr h.kind h.chars h.isPlainTemplate_eq

/-- An attribute is read as its entry is. -/
theorem readAttribute_eq_readEntry {e : FieldEntry} {n : Node} (h : AttributeOf src e n)
    (d : Draft) : readAttribute src d n = readEntry (staticValue? src) d e := by
  obtain @⟨name, braces, value, hkind, hparts, -, hname, hbraces, hcontent, hsame⟩ := h
  have hne : ¬ Kind.jsxExpression = Kind.string := by decide
  have htext : braces.attributeText? src = e.value.staticValue? src := by
    rw [attributeText?, hbraces, if_neg hne, if_pos rfl, hcontent]
    exact hsame.staticValue?_eq
  rw [readAttribute, if_pos hkind, hparts]
  dsimp only
  rw [htext, hname]
  rfl

/-- So is a pair, but for templates. -/
theorem readPair_eq_readEntry {e : FieldEntry} {n : Node} (h : PairOf src e n) (templates : Bool)
    (d : Draft) :
    readPair src templates d n =
      readEntry (if templates then staticValue? src else stringValue? src) d e := by
  obtain ⟨hkind, hkey, hkeykind, hkeytext, hvalue, hsame⟩ := h
  have hstatic : staticKeyKinds.contains Kind.propertyIdentifier = true := by decide
  have hne : ¬ Kind.propertyIdentifier = Kind.string := by decide
  rw [readPair, if_pos hkind, hkey, hvalue]
  dsimp only
  rw [keyName?, hkeykind, if_pos hstatic, if_neg hne, hkeytext, hsame.staticValue?_eq,
    hsame.stringValue?_eq, readEntry]
  cases templates <;> rfl

/-- A tag is read as the entries that it is written from. -/
theorem readTag_eq_readEntries {tag : Node} (h : TagOf src entries tag) :
    tag.readTag src = readEntries (staticValue? src) entries := by
  have hskip : ∀ d n, n.isKind Kind.jsxAttribute = false → readAttribute src d n = .ok d := by
    intro d n hn
    rw [readAttribute, if_neg (by simpa [isKind] using hn)]
    rfl
  rw [readTag, ← foldlM_filter hskip, readEntries]
  symm
  apply foldlM_eq_of_forall₂ _ h
  intro d e n he
  exact (readAttribute_eq_readEntry he d).symm

/-- So is an object literal, but for templates. -/
theorem readObject_eq_readEntries {object : Node} (h : ObjectOf src entries object)
    (templates : Bool) :
    object.readObject src templates =
      readEntries (if templates then staticValue? src else stringValue? src) entries := by
  have hskip : ∀ d n, n.isKind Kind.pair = false → readPair src templates d n = .ok d := by
    intro d n hn
    rw [readPair, if_neg (by simpa [isKind] using hn)]
    rfl
  rw [readObject, ← foldlM_filter hskip, readEntries]
  symm
  apply foldlM_eq_of_forall₂ _ h
  intro d e n he
  exact (readPair_eq_readEntry he templates d).symm

/-! ## Templates -/

/-- Only of templates the two ways to read a value make a difference. -/
theorem staticValue?_eq_stringValue? {n : Node} (h : n.kind ≠ Kind.templateString) :
    n.staticValue? src = n.stringValue? src := by
  have hplain : n.isPlainTemplate = false := by
    rw [isPlainTemplate, decide_eq_false h]
    rfl
  by_cases hstring : n.kind = Kind.string
  · rw [staticValue?, if_pos hstring]
  · rw [staticValue?, if_neg hstring, hplain, if_neg Bool.false_ne_true, stringValue?,
      if_neg hstring]

/-- **Passing over templates** is reading entries in which what is no literal stands for them. -/
theorem readEntries_withoutTemplate {other : Node} (hstring : other.kind ≠ Kind.string)
    (htemplate : other.kind ≠ Kind.templateString) (entries : List FieldEntry) :
    readEntries (staticValue? src) (entries.map (FieldEntry.withoutTemplate other)) =
      readEntries (stringValue? src) entries := by
  have hstep : ∀ d e, readEntry (staticValue? src) d (FieldEntry.withoutTemplate other e) =
      readEntry (stringValue? src) d e := by
    intro d e
    unfold FieldEntry.withoutTemplate
    by_cases he : e.value.kind = Kind.templateString
    · have hne : e.value.kind ≠ Kind.string := by
        rw [he]
        decide
      rw [if_pos he, readEntry, staticValue?_eq_stringValue? htemplate, stringValue?,
        if_neg hstring, readEntry, stringValue?, if_neg hne]
    · rw [if_neg he, readEntry, staticValue?_eq_stringValue? he, readEntry]
  rw [readEntries, readEntries, List.foldlM_map]
  congr 1
  funext d e
  exact hstep d e

/-- Without templates there is nothing to pass over. -/
theorem readEntries_eq_of_no_template (h : ∀ e ∈ entries, e.value.kind ≠ Kind.templateString) :
    readEntries (stringValue? src) entries = readEntries (staticValue? src) entries := by
  have hsame : List.Forall₂ (fun e e' => e = e' ∧ e.value.kind ≠ Kind.templateString)
      entries entries := by
    rw [List.forall₂_same]
    intro e he
    exact ⟨rfl, h e he⟩
  apply foldlM_eq_of_forall₂ _ hsame
  intro d e e' h
  obtain ⟨rfl, he⟩ := h
  rw [readEntry, readEntry, staticValue?_eq_stringValue? he]

/-! ## Messages -/

/-- The message that the attributes of a tag form, as a search for tags reads it. -/
def attributesMessage (src : Source) (tag : Node) : Except Error (List Message) :=
  return (← tag.readTag src).message?.toList

/-- The message of a list of entries. -/
def entriesMessage (value? : Node → Except Error (Option String)) (entries : List FieldEntry) :
    Except Error (List Message) :=
  return (← readEntries value? entries).message?.toList

/-- The message of a tag is read off its entries; plain templates count as values. -/
theorem attributesMessage_eq {tag : Node} (h : TagOf src entries tag) :
    attributesMessage src tag = entriesMessage (staticValue? src) entries := by
  rw [attributesMessage, readTag_eq_readEntries h, entriesMessage]

/-- So is that of the only entry of a map. -/
theorem mapMessages_eq_entriesMessage {map : Node} (h : MapOf src entries map) :
    mapMessages src map = entriesMessage (staticValue? src) entries := by
  obtain ⟨inner, hinner, h⟩ := h
  rw [mapMessages, hinner, gather_cons, gather_nil, readObject_eq_readEntries h, entriesMessage,
    if_pos rfl]
  cases readEntries (staticValue? src) entries with
  | error e => rfl
  | ok d => exact congrArg Except.ok (List.append_nil _)

/-- So is that of an object given to a single call, but plain templates do not count. -/
theorem singleMessage_eq_entriesMessage {object : Node} (h : ObjectOf src entries object) :
    singleMessage src object = entriesMessage (stringValue? src) entries := by
  rw [singleMessage, readObject_eq_readEntries h, entriesMessage, if_neg Bool.false_ne_true]

/-- **The patterns agree**: from the same entries a tag and a map have the same message, or none, or
fail alike. An object given to a single call has what they have from the entries in which what is no
literal stands for each template; so if there is no template, it has the same as they. -/
theorem messages_eq_of_entries {src : Source} {entries : List FieldEntry} {other : Node}
    {tag map single tag' map' : Node} (hstring : other.kind ≠ Kind.string)
    (htemplate : other.kind ≠ Kind.templateString) (htag : TagOf src entries tag)
    (hmap : MapOf src entries map) (hsingle : ObjectOf src entries single)
    (htag' : TagOf src (entries.map (FieldEntry.withoutTemplate other)) tag')
    (hmap' : MapOf src (entries.map (FieldEntry.withoutTemplate other)) map') :
    mapMessages src map = attributesMessage src tag ∧
    singleMessage src single = attributesMessage src tag' ∧
    singleMessage src single = mapMessages src map' ∧
    ((∀ e ∈ entries, e.value.kind ≠ Kind.templateString) →
      singleMessage src single = attributesMessage src tag ∧
      singleMessage src single = mapMessages src map) := by
  have hskipped : entriesMessage (staticValue? src)
      (entries.map (FieldEntry.withoutTemplate other)) =
        entriesMessage (stringValue? src) entries := by
    rw [entriesMessage, readEntries_withoutTemplate hstring htemplate, entriesMessage]
  rw [mapMessages_eq_entriesMessage hmap, mapMessages_eq_entriesMessage hmap',
    attributesMessage_eq htag, attributesMessage_eq htag', singleMessage_eq_entriesMessage hsingle,
    hskipped]
  refine ⟨rfl, rfl, rfl, fun hnone => ?_⟩
  have hsame : entriesMessage (stringValue? src) entries =
      entriesMessage (staticValue? src) entries := by
    rw [entriesMessage, readEntries_eq_of_no_template hnone, entriesMessage]
  exact ⟨hsame, hsame⟩

/-! ## Writing entries -/

/-- A name and a value that may be written as a field. -/
structure IsField (x : Node × Node) : Prop where
  name_kind : x.1.kind = Kind.propertyIdentifier
  name_named : x.1.named = true
  value_named : x.2.named = true
  value_kind : x.2.kind ≠ Kind.comment

/-- The entry of a field. -/
def fieldEntry (src : Source) (x : Node × Node) : FieldEntry := ⟨x.1.text src, x.2⟩

/-- The value of a field in braces. -/
def fieldBraces (x : Node × Node) : Node :=
  ⟨Kind.jsxExpression, true, none, none, [x.2]⟩

/-- A field as an attribute. -/
def fieldAttribute (x : Node × Node) : Node :=
  ⟨Kind.jsxAttribute, true, none, none, [x.1, ⟨"=", false, none, none, []⟩, fieldBraces x]⟩

/-- A field as a pair. -/
def fieldPair (x : Node × Node) : Node :=
  ⟨Kind.pair, true, none, none,
    [{ x.1 with field := some "key" }, ⟨":", false, none, none, []⟩,
      { x.2 with field := some "value" }]⟩

/-- Fields as the attributes of a tag. -/
def fieldsTag (fields : List (Node × Node)) : Node :=
  ⟨Kind.jsxSelfClosingElement, true, none, none, fields.map fieldAttribute⟩

/-- Fields as the pairs of an object literal. -/
def fieldsObject (fields : List (Node × Node)) : Node :=
  ⟨Kind.object, true, some "value", none, fields.map fieldPair⟩

/-- Fields as the pairs of the only entry of a map. -/
def fieldsMap (fields : List (Node × Node)) : Node :=
  ⟨Kind.object, true, none, none, [⟨Kind.pair, true, none, none, [fieldsObject fields]⟩]⟩

variable {fields : List (Node × Node)}

/-- A field that is written as an attribute is one of its entry. -/
theorem attributeOf_fieldAttribute {x : Node × Node} (h : IsField x) :
    AttributeOf src (fieldEntry src x) (fieldAttribute x) := by
  have hkind : Kind.propertyIdentifier ≠ Kind.comment := by decide
  have hname : x.1.isSignificant = true := by
    rw [isSignificant, h.name_named, h.name_kind]
    simp [hkind]
  have hvalue : x.2.isSignificant = true := by
    rw [isSignificant, h.value_named]
    simp [h.value_kind]
  have hparts : (fieldAttribute x).significantChildren = [x.1, fieldBraces x] := by
    rw [significantChildren_eq, fieldAttribute, List.filter_cons_of_pos hname]
    rfl
  have hcontent : (fieldBraces x).significantChildren = [x.2] := by
    rw [significantChildren_eq, fieldBraces, List.filter_cons_of_pos hvalue, List.filter_nil]
  exact .intro rfl hparts h.name_kind rfl rfl hcontent ⟨rfl, rfl, rfl⟩

/-- A field that is written as a pair is one of its entry. -/
theorem pairOf_fieldPair {x : Node × Node} (h : IsField x) :
    PairOf src (fieldEntry src x) (fieldPair x) :=
  .intro rfl rfl h.name_kind rfl rfl ⟨rfl, rfl, rfl⟩

/-- Where all children count and are of one kind, none is left out. -/
theorem filter_significantChildren_eq {n : Node} {kind : String}
    (h : ∀ c ∈ n.children, c.isSignificant = true ∧ c.isKind kind = true) :
    n.significantChildren.filter (isKind kind) = n.children := by
  rw [significantChildren_eq, List.filter_filter]
  apply List.filter_eq_self.mpr
  intro c hc
  rw [(h c hc).1, (h c hc).2]
  rfl

/-- Fields can be written as a tag. -/
theorem tagOf_fieldsTag (h : ∀ x ∈ fields, IsField x) :
    TagOf src (fields.map (fieldEntry src)) (fieldsTag fields) := by
  have hall : (fieldsTag fields).significantChildren.filter (isKind Kind.jsxAttribute) =
      fields.map fieldAttribute := by
    apply filter_significantChildren_eq
    intro n hn
    obtain ⟨x, -, rfl⟩ := List.mem_map.mp hn
    exact ⟨rfl, rfl⟩
  rw [TagOf, hall, List.forall₂_map_left_iff, List.forall₂_map_right_iff, List.forall₂_same]
  intro x hx
  exact attributeOf_fieldAttribute (h x hx)

/-- Fields can be written as an object literal. -/
theorem objectOf_fieldsObject (h : ∀ x ∈ fields, IsField x) :
    ObjectOf src (fields.map (fieldEntry src)) (fieldsObject fields) := by
  have hall : (fieldsObject fields).significantChildren.filter (isKind Kind.pair) =
      fields.map fieldPair := by
    apply filter_significantChildren_eq
    intro n hn
    obtain ⟨x, -, rfl⟩ := List.mem_map.mp hn
    exact ⟨rfl, rfl⟩
  rw [ObjectOf, hall, List.forall₂_map_left_iff, List.forall₂_map_right_iff, List.forall₂_same]
  intro x hx
  exact pairOf_fieldPair (h x hx)

/-- Fields can be written as a map. -/
theorem mapOf_fieldsMap (h : ∀ x ∈ fields, IsField x) :
    MapOf src (fields.map (fieldEntry src)) (fieldsMap fields) :=
  ⟨fieldsObject fields, rfl, objectOf_fieldsObject h⟩

/-- The words of some fields. -/
def spelled : Source :=
  "id defaultMessage 'a' 'c' `b` 7".toUTF8

/-- A word of a source as a node. -/
def word (kind : String) (start stop : Nat) : Node :=
  ⟨kind, true, none, some ⟨start, stop⟩, []⟩

/-- Fields with a name that comes twice; the value that counts may be chosen. -/
def spelledFields (last : Node) : List (Node × Node) :=
  [(word Kind.propertyIdentifier 0 2, word Kind.string 18 21),
    (word Kind.propertyIdentifier 3 17, word Kind.string 22 25),
    (word Kind.propertyIdentifier 3 17, last)]

/-- The fields of the example are fields, whatever the value of the last one. -/
theorem isField_of_mem_spelledFields {last : Node} (hnamed : last.named = true)
    (hkind : last.kind ≠ Kind.comment) : ∀ x ∈ spelledFields last, IsField x := by
  intro x hx
  rw [spelledFields, List.mem_cons, List.mem_cons, List.mem_singleton] at hx
  rcases hx with rfl | rfl | rfl
  · exact ⟨rfl, rfl, rfl, (by decide)⟩
  · exact ⟨rfl, rfl, rfl, (by decide)⟩
  · exact ⟨rfl, rfl, hnamed, hkind⟩

/-- `messages_eq_of_entries` there: the last value is a template, or a number in its place. As an
attribute and in a map the template is the default text, to a single call it is nothing. -/
theorem messages_spelledFields :
    mapMessages spelled (fieldsMap (spelledFields (word Kind.templateString 26 29))) =
      attributesMessage spelled (fieldsTag (spelledFields (word Kind.templateString 26 29))) ∧
    singleMessage spelled (fieldsObject (spelledFields (word Kind.templateString 26 29))) =
      attributesMessage spelled (fieldsTag (spelledFields (word Kind.number 30 31))) ∧
    attributesMessage spelled (fieldsTag (spelledFields (word Kind.templateString 26 29))) ≠
      attributesMessage spelled (fieldsTag (spelledFields (word Kind.number 30 31))) := by
  have hwith : ∀ x ∈ spelledFields (word Kind.templateString 26 29), IsField x :=
    isField_of_mem_spelledFields rfl (by decide)
  have hwithout : ∀ x ∈ spelledFields (word Kind.number 30 31), IsField x :=
    isField_of_mem_spelledFields rfl (by decide)
  have hkind : Kind.string ≠ Kind.templateString := by decide
  have hentries : (spelledFields (word Kind.number 30 31)).map (fieldEntry spelled) =
      ((spelledFields (word Kind.templateString 26 29)).map (fieldEntry spelled)).map
        (FieldEntry.withoutTemplate (word Kind.number 30 31)) := by
    simp [spelledFields, fieldEntry, FieldEntry.withoutTemplate, word, hkind]
  have htag : TagOf spelled _ _ := tagOf_fieldsTag hwithout
  have hmap : MapOf spelled _ _ := mapOf_fieldsMap hwithout
  rw [hentries] at htag hmap
  have hagree := messages_eq_of_entries (by decide) (by decide) (tagOf_fieldsTag hwith)
    (mapOf_fieldsMap hwith) (objectOf_fieldsObject hwith) htag hmap
  exact ⟨hagree.1, hagree.2.1, by decide +kernel⟩

end Node

end MessageHarvest
