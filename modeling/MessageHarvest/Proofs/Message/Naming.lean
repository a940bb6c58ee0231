import MessageHarvest.Proofs.Message.Multiplicity
import MessageHarvest.Proofs.Text.Replacement

/-!
# Tags and callees are told by their bytes

The name of a tag or of a callee is compared as a text, which is what its bytes are decoded to, and
bytes that are no text are decoded as well. Still only one sequence of bytes is taken for a name
that is looked for, unless the name holds U+FFFD: the name in UTF-8.

* `Node.text_eq_iff`: a node has a text without U+FFFD iff it has the bytes of that text.
* `Node.initializingCall?_eq_some_iff`: when a declarator is initialized by a call of a callee.
* `Node.IsNameInUtf8`: the node is an identifier with the bytes of a name.
* **Names** (`Node.named_iff_bytes`): tags and calls of a given name, said by the bytes of the name;
  these are valid UTF-8.
-/

namespace MessageHarvest.Node

variable {src : Source} {n : Node} {t : String}

/-- A text without replacement characters is that of a node iff the node has its bytes. -/
theorem text_eq_iff (ht : Utf8.replacement ∉ t.toList) :
    n.text src = t ↔ n.bytes src = t.toUTF8.data.toList := by
  rw [Utf8.toList_data_toUTF8, ← Utf8.decode_eq_iff ht, text, ← String.toList_inj,
    String.toList_ofList, chars]

/-- Tags are opening and self-closing elements. -/
theorem isTag_iff :
    n.isTag = true ↔ n.kind = Kind.jsxOpeningElement ∨ n.kind = Kind.jsxSelfClosingElement := by
  rw [isTag, Bool.or_eq_true, decide_eq_true_eq, decide_eq_true_eq]

/-- The call that initializes a declarator is its value, and its callee an identifier with that
text. -/
theorem initializingCall?_eq_some_iff {callee : String} {declarator call : Node} :
    declarator.initializingCall? src callee = some call ↔
      declarator.childByField? "value" = some call ∧ call.kind = Kind.callExpression ∧
        ∃ function, call.childByField? "function" = some function ∧
          function.kind = Kind.identifier ∧ function.text src = callee := by
  simp only [initializingCall?, Option.bind_eq_bind, Option.bind_eq_some_iff,
    Option.guard_eq_some', Option.pure_def, Option.some.injEq]
  constructor
  · rintro ⟨value, hvalue, -, hkind, function, hfunction, -, hidentifier, -, htext, rfl⟩
    exact ⟨hvalue, hkind, function, hfunction, hidentifier, htext⟩
  · rintro ⟨hvalue, hkind, function, hfunction, hidentifier, htext⟩
    exact ⟨call, hvalue, (), hkind, function, hfunction, (), hidentifier, (), htext, rfl⟩

/-- The node is an identifier, and its bytes are the name in UTF-8. -/
structure IsNameInUtf8 (src : Source) (t : String) (n : Node) : Prop where
  kind : n.kind = Kind.identifier
  bytes : n.bytes src = t.toUTF8.data.toList

/-- The bytes of a name are valid UTF-8. -/
theorem IsNameInUtf8.isValidUTF8 (h : n.IsNameInUtf8 src t) :
    (n.bytes src).toByteArray.IsValidUTF8 := by
  rw [h.bytes, Utf8.toList_data_toUTF8]
  exact .intro t.toList rfl

/-- An identifier has the bytes of a name iff it has its text. -/
theorem isNameInUtf8_iff (ht : Utf8.replacement ∉ t.toList) :
    n.IsNameInUtf8 src t ↔ n.kind = Kind.identifier ∧ n.text src = t := by
  rw [text_eq_iff ht]
  exact ⟨fun h => ⟨h.kind, h.bytes⟩, fun h => ⟨h.1, h.2⟩⟩

/-- A tag has a name iff the identifier in its field for the name has its bytes. -/
theorem isTagNamed_iff_isNameInUtf8 (ht : Utf8.replacement ∉ t.toList) :
    n.isTagNamed src t = true ↔
      (n.kind = Kind.jsxOpeningElement ∨ n.kind = Kind.jsxSelfClosingElement) ∧
        ∃ name, n.childByField? "name" = some name ∧ name.IsNameInUtf8 src t := by
  rw [isTagNamed_iff, tagName?_eq_some_iff, isTag_iff]
  simp only [isNameInUtf8_iff ht]

/-- A call is one of a callee iff its identifier has the bytes of that name. -/
theorem initializingCall?_eq_some_iff_isNameInUtf8 (ht : Utf8.replacement ∉ t.toList)
    {declarator call : Node} :
    declarator.initializingCall? src t = some call ↔
      declarator.childByField? "value" = some call ∧ call.kind = Kind.callExpression ∧
        ∃ function, call.childByField? "function" = some function ∧
          function.IsNameInUtf8 src t := by
  rw [initializingCall?_eq_some_iff]
  simp only [isNameInUtf8_iff ht]

/-- **Names** are told by their bytes. A tag has a name, and a call a callee, iff the identifier
that stands for it is the name in UTF-8, byte for byte; so no bytes that are not valid UTF-8 are
taken for it. -/
theorem named_iff_bytes (ht : Utf8.replacement ∉ t.toList) :
    (∀ n : Node, n.isTagNamed src t = true ↔
      (n.kind = Kind.jsxOpeningElement ∨ n.kind = Kind.jsxSelfClosingElement) ∧
        ∃ name, n.childByField? "name" = some name ∧ name.IsNameInUtf8 src t) ∧
    (∀ declarator call : Node, declarator.initializingCall? src t = some call ↔
      declarator.childByField? "value" = some call ∧ call.kind = Kind.callExpression ∧
        ∃ function, call.childByField? "function" = some function ∧
          function.IsNameInUtf8 src t) ∧
    (∀ n name : Node, n.isTagNamed src t = true → n.childByField? "name" = some name →
      (name.bytes src).toByteArray.IsValidUTF8) ∧
    ∀ declarator call function : Node, declarator.initializingCall? src t = some call →
      call.childByField? "function" = some function →
        (function.bytes src).toByteArray.IsValidUTF8 := by
  refine ⟨fun _ => isTagNamed_iff_isNameInUtf8 ht,
    fun _ _ => initializingCall?_eq_some_iff_isNameInUtf8 ht, fun n name hnamed hname => ?_,
    fun declarator call function hinit hfunction => ?_⟩
  · obtain ⟨-, name', hname', hutf8⟩ := (isTagNamed_iff_isNameInUtf8 ht).mp hnamed
    obtain rfl := Option.some.inj (hname.symm.trans hname')
    exact hutf8.isValidUTF8
  · obtain ⟨-, -, function', hfunction', hutf8⟩ :=
      (initializingCall?_eq_some_iff_isNameInUtf8 ht).mp hinit
    obtain rfl := Option.some.inj (hfunction.symm.trans hfunction')
    exact hutf8.isValidUTF8

/-- The name `Tä` in UTF-8, with an overlong form of its first letter, and with its last byte cut
off. -/
def spelledNames : Source :=
  ⟨#[0x54, 0xC3, 0xA4, 0xC1, 0x94, 0xC3, 0xA4, 0x54, 0xC3]⟩

/-- A tag whose name is in a range. -/
def tagAt (range : Span) : Node :=
  ⟨Kind.jsxSelfClosingElement, true, none, none,
    [⟨Kind.identifier, true, some "name", some range, []⟩]⟩

/-- A call whose callee is in a range, as the value of a declarator. -/
def callAt (range : Span) : Node :=
  ⟨Kind.callExpression, true, some "value", none,
    [⟨Kind.identifier, true, some "function", some range, []⟩]⟩

/-- `named_iff_bytes` for the tags and calls of these names. -/
theorem named_spelledNames :
    Utf8.replacement ∉ "Tä".toList ∧
    (tagAt ⟨0, 3⟩).isTagNamed spelledNames "Tä" = true ∧
    (tagAt ⟨3, 7⟩).isTagNamed spelledNames "Tä" = false ∧
    (tagAt ⟨7, 9⟩).isTagNamed spelledNames "Tä" = false ∧
    initializingCall? spelledNames "Tä"
      ⟨Kind.variableDeclarator, true, none, none, [callAt ⟨0, 3⟩]⟩ = some (callAt ⟨0, 3⟩) ∧
    initializingCall? spelledNames "Tä"
      ⟨Kind.variableDeclarator, true, none, none, [callAt ⟨3, 7⟩]⟩ = none := by
  have ht : Utf8.replacement ∉ "Tä".toList := by decide +kernel
  obtain ⟨htag, hcall, -, -⟩ := @named_iff_bytes spelledNames _ ht
  refine ⟨ht, ?_, ?_, ?_, ?_, ?_⟩
  · exact (htag _).mpr ⟨.inr rfl, _, rfl, rfl, by decide +kernel⟩
  · refine Bool.eq_false_iff.mpr fun h => ?_
    obtain ⟨-, name, hname, -, hbytes⟩ := (htag _).mp h
    cases hname
    exact absurd hbytes (by decide +kernel)
  · refine Bool.eq_false_iff.mpr fun h => ?_
    obtain ⟨-, name, hname, -, hbytes⟩ := (htag _).mp h
    cases hname
    exact absurd hbytes (by decide +kernel)
  · exact (hcall _ _).mpr ⟨rfl, rfl, _, rfl, rfl, by decide +kernel⟩
  · refine Option.eq_none_iff_forall_ne_some.mpr fun call h => ?_
    obtain ⟨hvalue, -, function, hfunction, -, hbytes⟩ := (hcall _ _).mp h
    cases hvalue
    cases hfunction
    exact absurd hbytes (by decide +kernel)

end MessageHarvest.Node
