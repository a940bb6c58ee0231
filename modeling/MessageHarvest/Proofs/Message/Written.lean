import MessageHarvest.Proofs.Json.Unescape
import MessageHarvest.Proofs.Message.Candidate
import MessageHarvest.Record.Message
import Mathlib.Data.List.Forall2

/-!
# Written messages are found again

A message is written as a JSON object. If that object stands in a source as an object literal, the
extraction finds the message.

* `Node.Spells`: the node is a string literal, and its text in the source is a written value.
* `WrittenOf`: the pairs of an object literal spell the members of a value.
* `Node.readPair_of_memberOf`: reading such a pair puts the member into the draft.
* **Found again** (`Node.messages_of_written`): an object literal that is written of a message holds
  that message and no other, both as the argument of a single call and as an entry of a map.
-/

namespace MessageHarvest

/-! ## Object literals that spell a value -/

/-- The node is a string literal whose text in the source is that of a value. -/
structure Node.Spells (src : Source) (v : Json) (n : Node) : Prop where
  kind : n.kind = Node.Kind.string
  bytes : n.bytes src = v.write.toUTF8.data.toList

/-- The node is a pair whose key and value spell those of a member. -/
inductive MemberOf (src : Source) (m : String × Json) (n : Node) : Prop
  | intro {key value : Node}
      (kind : n.kind = Node.Kind.pair)
      (key_child : n.childByField? "key" = some key)
      (key_text : key.Spells src (.string m.1))
      (value_child : n.childByField? "value" = some value)
      (value_text : value.Spells src m.2)

/-- The node is an object literal whose pairs spell the members of a value, one by one. -/
structure WrittenOf (src : Source) (v : Json) (n : Node) : Prop where
  kind : n.kind = Node.Kind.object
  pairs : ∃ members, v = .object members ∧
    List.Forall₂ (MemberOf src) members (n.significantChildren.filter (Node.isKind Node.Kind.pair))

/-- A pair whose value is an object literal. -/
def Node.isEntry (n : Node) : Bool :=
  n.isKind Node.Kind.pair && (n.childByField? "value").any (Node.isKind Node.Kind.object)

/-- Among the pairs of the node one has an object literal as its value, namely `inner`. -/
structure OnlyEntry (inner n : Node) : Prop where
  kind : n.kind = Node.Kind.object
  pair : ∃ pair, n.significantChildren.filter Node.isEntry = [pair] ∧
    pair.childByField? "value" = some inner

/-- The fields of a message with their texts, as they are written. -/
def Message.fields (m : Message) : List (String × String) :=
  [("id", m.id), ("defaultMessage", m.defaultMessage)] ++
    (m.description.map fun d => ("description", d)).toList

/-- A message is written as the object of its fields. -/
theorem Message.toJson_eq (m : Message) :
    m.toJson = .object (m.fields.map fun f => (f.1, .string f.2)) := by
  rw [toJson, fields, List.map_append]
  cases m.description <;> rfl

namespace Node

variable {src : Source}

/-! ## Reading spelled strings -/

/-- A spelled string is decoded to the string. -/
theorem decodedBody_of_spells {n : Node} {s : String} (h : n.Spells src (.string s)) :
    n.decodedBody src = .ok s := by
  have hchars : n.chars src = '"' :: s.toList.flatMap Json.writeChar ++ ['"'] := by
    rw [chars, h.bytes, Utf8.decode_toUTF8, Json.write, String.toList_ofList, Json.writeValue,
      Json.writeString]
  have hbody : unquoted (n.chars src) = s.toList.flatMap Json.writeChar := by
    rw [hchars, unquoted, List.cons_append, List.tail_cons, List.dropLast_concat]
  rw [decodedBody, hbody, Escape.unescapeChars_writeChars]
  show Except.ok (String.ofList s.toList) = .ok s
  rw [String.ofList_toList]

/-- A literal that spells a text is read as that text. -/
theorem stringValue?_of_spells {n : Node} {s : String} (h : n.Spells src (.string s)) :
    n.stringValue? src = .ok (some s) := by
  rw [stringValue?, if_pos h.kind, decodedBody_of_spells h]
  rfl

/-- It is read so as a value. -/
theorem staticValue?_of_spells {n : Node} {s : String} (h : n.Spells src (.string s)) :
    n.staticValue? src = .ok (some s) := by
  rw [staticValue?, if_pos h.kind, stringValue?_of_spells h]

/-- It is read so as a key. -/
theorem keyName?_of_spells {n : Node} {s : String} (h : n.Spells src (.string s)) :
    n.keyName? src = .ok (some s) := by
  have hstatic : staticKeyKinds.contains n.kind = true := by
    rw [h.kind]
    decide
  rw [keyName?, if_pos hstatic, if_pos h.kind, stringValue?_of_spells h]

/-! ## Reading spelled objects -/

/-- A spelled member is put into the draft. -/
theorem readPair_of_memberOf {key text : String} {n : Node}
    (h : MemberOf src (key, .string text) n) (templates : Bool) (d : Draft) :
    readPair src templates d n = .ok (d.put key text) := by
  obtain ⟨hkind, hkey, hkeytext, hvalue, hvaluetext⟩ := h
  rw [readPair, if_pos hkind, hkey, hvalue]
  dsimp only
  rw [keyName?_of_spells hkeytext, staticValue?_of_spells hvaluetext,
    stringValue?_of_spells hvaluetext]
  cases templates <;> rfl

/-- Putting texts cannot fail. -/
theorem foldlM_put (d : Draft) (fields : List (String × String)) :
    fields.foldlM (fun (d : Draft) f => (.ok (d.put f.1 f.2) : Except Escape.Error Draft)) d =
      .ok (fields.foldl (fun d f => d.put f.1 f.2) d) := by
  induction fields generalizing d with
  | nil => rfl
  | cons f fields ih =>
    rw [List.foldlM_cons]
    exact ih (d.put f.1 f.2)

/-- An object literal that is written of a message sets the fields of the message. -/
theorem readObject_of_written {m : Message} {object : Node} (h : WrittenOf src m.toJson object)
    (templates : Bool) :
    object.readObject src templates = .ok ⟨some m.id, some m.defaultMessage, m.description⟩ := by
  obtain ⟨-, members, hmembers, hpairs⟩ := h
  have hskip : ∀ d n, n.isKind Kind.pair = false → readPair src templates d n = .ok d := by
    intro d n hn
    rw [readPair, if_neg (by simpa [isKind] using hn)]
    rfl
  rw [m.toJson_eq, Json.object.injEq] at hmembers
  rw [← hmembers, List.forall₂_map_left_iff] at hpairs
  have hread : object.readObject src templates =
      .ok (m.fields.foldl (fun d f => d.put f.1 f.2) .empty) := by
    rw [readObject, ← foldlM_filter hskip, ← foldlM_put]
    symm
    apply foldlM_eq_of_forall₂ _ hpairs
    intro d f n hn
    exact (readPair_of_memberOf hn templates d).symm
  rw [hread, Message.fields]
  cases m.description <;> rfl

/-- The fields of a message form that message. -/
theorem message?_fields (m : Message) :
    Draft.message? ⟨some m.id, some m.defaultMessage, m.description⟩ = some m :=
  dif_pos ⟨m.id_ne, m.defaultMessage_ne⟩

/-- What is looked for in a map are the values of its entries. -/
theorem nestedObjects_eq_filterMap (map : Node) :
    map.nestedObjects =
      (map.significantChildren.filter isEntry).filterMap (·.childByField? "value") := by
  rw [nestedObjects, List.filterMap_filter]
  congr 1
  funext child
  by_cases hkind : child.kind = Kind.pair
  · rw [if_pos hkind, isEntry, isKind_iff.mpr hkind, Bool.true_and]
    cases child.childByField? "value" with
    | none => rfl
    | some value => rfl
  · have hentry : child.isEntry = false := by
      rw [isEntry, isKind, decide_eq_false hkind, Bool.false_and]
    rw [if_neg hkind, hentry]
    rfl

/-- A map with one entry holds one object literal. -/
theorem nestedObjects_of_onlyEntry {inner map : Node} (h : OnlyEntry inner map) :
    map.nestedObjects = [inner] := by
  obtain ⟨-, pair, hpair, hvalue⟩ := h
  rw [nestedObjects_eq_filterMap, hpair, List.filterMap_cons, hvalue]
  rfl

/-- **Found again**: an object literal that is written of a message holds that message alone, as
the argument of a single call and as the only entry of a map. For what is written of a string
between the quotes is decoded to the string. -/
theorem messages_of_written {m : Message} {src : Source} {object : Node}
    (h : WrittenOf src m.toJson object) :
    object.singleMessage src = .ok [m] ∧
    (∀ map, OnlyEntry object map → map.mapMessages src = .ok [m]) ∧
    ∀ s body : String, (Json.string s).write = "\"" ++ body ++ "\"" →
      Escape.unescape body = .ok s := by
  refine ⟨?_, ?_, ?_⟩
  · rw [singleMessage, readObject_of_written h]
    show Except.ok (Draft.message? _).toList = .ok [m]
    rw [message?_fields, Option.toList_some]
  · intro map hmap
    rw [mapMessages, nestedObjects_of_onlyEntry hmap, gather_cons, gather_nil,
      readObject_of_written h]
    show Except.ok ((Draft.message? _).toList ++ []) = .ok [m]
    rw [message?_fields, Option.toList_some, List.append_nil]
  · intro s body hbody
    have hchars : '"' :: s.toList.flatMap Json.writeChar ++ ['"'] =
        '"' :: body.toList ++ ['"'] := by
      have htext := congrArg String.toList hbody
      rw [Json.write, Json.writeValue, String.toList_ofList, Json.writeString, String.toList_append,
        String.toList_append] at htext
      exact htext
    have hbody' : body.toList = s.toList.flatMap Json.writeChar := by
      simpa using hchars.symm
    rw [Escape.unescape, hbody', Escape.unescapeChars_writeChars]
    show Except.ok (String.ofList s.toList) = .ok s
    rw [String.ofList_toList]

/-- A message with quotes, backslashes, a line end and a control character, and an empty
description. -/
def quoted : Message :=
  ⟨"q\"\\\n", "\x01\u2028😀", some "", by decide, by decide⟩

/-- The message as an object literal. -/
def quotedSource : Source :=
  ("\x7b\"id\": \"q\\\"\\\\\\n\", " ++
    "\"defaultMessage\": \"\\u0001\u2028😀\", \"description\": \"\"\x7d").toUTF8

/-- A pair of two string literals of a source, each between two offsets. -/
def stringPair (key value : Span) : Node :=
  ⟨Kind.pair, true, none, none,
    [⟨Kind.string, true, some "key", some key, []⟩, ⟨":", false, none, none, []⟩,
      ⟨Kind.string, true, some "value", some value, []⟩]⟩

/-- The object literal of that source, as the value of a pair. -/
def quotedObject : Node :=
  ⟨Kind.object, true, some "value", none,
    [stringPair ⟨1, 5⟩ ⟨7, 16⟩, ⟨",", false, none, none, []⟩,
      stringPair ⟨18, 34⟩ ⟨36, 51⟩, ⟨",", false, none, none, []⟩,
      stringPair ⟨53, 66⟩ ⟨68, 70⟩]⟩

/-- A map with that object literal as its only entry. -/
def quotedMap : Node :=
  ⟨Kind.object, true, none, none, [⟨Kind.pair, true, none, none, [quotedObject]⟩]⟩

/-- The object literal of the example is written of its message. -/
theorem writtenOf_quotedObject : WrittenOf quotedSource quoted.toJson quotedObject where
  kind := rfl
  pairs := by
    refine ⟨_, rfl, ?_⟩
    have hid : MemberOf quotedSource ("id", .string "q\"\\\n") (stringPair ⟨1, 5⟩ ⟨7, 16⟩) :=
      .intro rfl rfl ⟨rfl, by decide +kernel⟩ rfl ⟨rfl, by decide +kernel⟩
    have hdefault : MemberOf quotedSource ("defaultMessage", .string "\x01\u2028😀")
        (stringPair ⟨18, 34⟩ ⟨36, 51⟩) :=
      .intro rfl rfl ⟨rfl, by decide +kernel⟩ rfl ⟨rfl, by decide +kernel⟩
    have hdescription : MemberOf quotedSource ("description", .string "")
        (stringPair ⟨53, 66⟩ ⟨68, 70⟩) :=
      .intro rfl rfl ⟨rfl, by decide +kernel⟩ rfl ⟨rfl, by decide +kernel⟩
    exact .cons hid (.cons hdefault (.cons hdescription .nil))

/-- `messages_of_written` there. -/
theorem messages_quoted :
    WrittenOf quotedSource quoted.toJson quotedObject ∧ OnlyEntry quotedObject quotedMap ∧
      quotedObject.singleMessage quotedSource = .ok [quoted] ∧
      quotedMap.mapMessages quotedSource = .ok [quoted] := by
  have hmap : OnlyEntry quotedObject quotedMap := ⟨rfl, _, rfl, rfl⟩
  have hfound := messages_of_written writtenOf_quotedObject
  exact ⟨writtenOf_quotedObject, hmap, hfound.1, hfound.2.1 quotedMap hmap⟩

end Node

end MessageHarvest
