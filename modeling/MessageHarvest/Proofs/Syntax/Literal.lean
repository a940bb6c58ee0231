import MessageHarvest.Proofs.Text.Overlarge
import MessageHarvest.Syntax.Literal

/-!
# When a literal stands for no text

A literal fails to be read exactly when the text between its quotes holds an overlarge escape. For a
template this is so although each of its line ends is made one line feed first: no escape is gained
or lost by that (`overlarge?_singleLineEnds`).

* `Node.fault?_stringValue?`, `Node.fault?_staticValue?`, `Node.fault?_keyName?`: the failures of
  the three readers of literals, said by `Node.overlarge?`.
* `Node.stringValue?_congr`, `Node.staticValue?_congr`: what a literal is read as depends only on
  its kind and its text, and on whether it is a plain template.
-/

namespace MessageHarvest.Node

open Escape

/-! ## What a reading depends on -/

/-- What a string is read as depends on its kind and its characters only. -/
theorem stringValue?_congr {src src' : Source} {n m : Node} (hkind : n.kind = m.kind)
    (hchars : n.chars src = m.chars src') : n.stringValue? src = m.stringValue? src' := by
  rw [stringValue?, stringValue?, decodedBody, decodedBody, hkind, hchars]

/-- So does what a literal is read as, if both are plain templates or none is. -/
theorem staticValue?_congr {src src' : Source} {n m : Node} (hkind : n.kind = m.kind)
    (hchars : n.chars src = m.chars src') (hplain : n.isPlainTemplate = m.isPlainTemplate) :
    n.staticValue? src = m.staticValue? src' := by
  rw [staticValue?, staticValue?, stringValue?_congr hkind hchars, hplain, hkind, hchars]

/-! ## Line ends and escapes -/

/-- Only a carriage return before a line feed is dropped. -/
theorem singleLineEnds_cons {c : Char} {rest : List Char}
    (h : c = '\r' → ∀ after, rest ≠ '\n' :: after) :
    singleLineEnds (c :: rest) = c :: singleLineEnds rest := by
  rw [singleLineEnds.eq_def]
  split
  · cases ‹_ = []›
  · rename_i after heq
    obtain ⟨rfl, rfl⟩ := List.cons.inj heq
    exact absurd rfl (h rfl after)
  · rename_i heq
    obtain ⟨rfl, rfl⟩ := List.cons.inj heq
    rfl

/-- A text without carriage returns is left as it is. -/
theorem singleLineEnds_append_of_not_mem {left : List Char} (h : '\r' ∉ left) (right : List Char) :
    singleLineEnds (left ++ right) = left ++ singleLineEnds right := by
  induction left with
  | nil => rfl
  | cons c left ih =>
      rw [List.mem_cons, not_or] at h
      rw [List.cons_append, singleLineEnds_cons fun hc => absurd hc.symm h.1, ih h.2]
      rfl

/-- Without carriage returns nothing is dropped. -/
theorem singleLineEnds_of_not_mem {text : List Char} (h : '\r' ∉ text) :
    singleLineEnds text = text := by
  simpa [singleLineEnds] using singleLineEnds_append_of_not_mem h []

/-- Line ends are joined on both sides of another character apart. -/
theorem singleLineEnds_append_cons {c : Char} (hc : c ≠ '\n') (left right : List Char) :
    singleLineEnds (left ++ c :: right) = singleLineEnds left ++ singleLineEnds (c :: right) := by
  fun_induction singleLineEnds left with
  | case1 => rfl
  | case2 rest ih => exact congrArg ('\n' :: ·) ih
  | case3 d rest h ih =>
      rw [List.cons_append, singleLineEnds_cons, ih, List.cons_append]
      intro hd after heq
      cases rest with
      | nil => exact hc (List.cons.inj heq).1
      | cons e rest => exact h rest hd (by rw [(List.cons.inj heq).1])

/-- A character that is no line feed comes from itself. -/
theorem eq_cons_of_singleLineEnds {c : Char} (hc : c ≠ '\n') {text rest : List Char}
    (h : singleLineEnds text = c :: rest) :
    ∃ rest', text = c :: rest' ∧ singleLineEnds rest' = rest := by
  rw [singleLineEnds.eq_def] at h
  split at h
  · cases h
  · exact absurd (List.cons.inj h).1.symm hc
  · obtain ⟨rfl, rfl⟩ := List.cons.inj h
    exact ⟨_, rfl, rfl⟩

/-- So does a text without line feeds. -/
theorem eq_append_of_singleLineEnds {left : List Char} (hleft : '\n' ∉ left)
    {text right : List Char} (h : singleLineEnds text = left ++ right) :
    ∃ right', text = left ++ right' ∧ singleLineEnds right' = right := by
  induction left generalizing text with
  | nil => exact ⟨text, rfl, h⟩
  | cons c left ih =>
      rw [List.mem_cons, not_or] at hleft
      obtain ⟨rest, rfl, hrest⟩ := eq_cons_of_singleLineEnds (Ne.symm hleft.1) h
      obtain ⟨right', rfl, hright⟩ := ih hleft.2 hrest
      exact ⟨right', rfl, hright⟩

/-- Where a character that is no line feed stands afterwards, it stood before. -/
theorem exists_append_of_singleLineEnds {c : Char} (hc : c ≠ '\n') {text left right : List Char}
    (h : singleLineEnds text = left ++ c :: right) :
    ∃ left' right', text = left' ++ c :: right' ∧ singleLineEnds left' = left ∧
      singleLineEnds right' = right := by
  fun_induction singleLineEnds text generalizing left with
  | case1 => cases left <;> cases h
  | case2 rest ih =>
      cases left with
      | nil => exact absurd (List.cons.inj h).1.symm hc
      | cons d left =>
          obtain ⟨hd, htail⟩ := List.cons.inj h
          obtain ⟨left', right', rfl, hleft, hright⟩ := ih htail
          refine ⟨'\r' :: '\n' :: left', right', rfl, ?_, hright⟩
          rw [singleLineEnds, hleft, hd]
  | case3 d rest hd ih =>
      cases left with
      | nil =>
          obtain ⟨rfl, htail⟩ := List.cons.inj h
          exact ⟨[], rest, rfl, rfl, htail⟩
      | cons e left =>
          obtain ⟨rfl, htail⟩ := List.cons.inj h
          obtain ⟨left', right', rfl, hleft, hright⟩ := ih htail
          refine ⟨d :: left', right', rfl, ?_, hright⟩
          rw [singleLineEnds_cons, hleft]
          rintro hd' after rfl
          exact hd _ hd' rfl

/-- No backslash is dropped, so that a text of backslashes stays one. -/
theorem all_singleLineEnds (text : List Char) :
    (singleLineEnds text).all (· = '\\') = text.all (· = '\\') := by
  fun_induction singleLineEnds text with
  | case1 => rfl
  | case2 rest ih => rfl
  | case3 c rest h ih => rw [List.all_cons, List.all_cons, ih]

/-- Backslashes at the end stay. -/
theorem trailing_singleLineEnds (text : List Char) :
    trailing (singleLineEnds text) = trailing text := by
  fun_induction singleLineEnds text with
  | case1 => rfl
  | case2 rest ih =>
      rw [trailing_cons_of_ne (by decide), trailing_cons_of_ne (by decide),
        trailing_cons_of_ne (by decide), ih]
  | case3 c rest h ih =>
      by_cases hc : c = '\\'
      · subst hc
        rw [trailing_backslash_cons, trailing_backslash_cons, all_singleLineEnds, ih]
        by_cases hall : rest.all (· = '\\') = true
        · have hnot : '\r' ∉ rest := fun hmem => by
            have := List.all_eq_true.mp hall _ hmem
            simp at this
          rw [singleLineEnds_of_not_mem hnot]
        · rw [if_neg hall, if_neg hall]
      · rw [trailing_cons_of_ne hc, trailing_cons_of_ne hc, ih]

/-- The braced escapes of a body are those that it has once its line ends are line feeds. -/
theorem namesAt_singleLineEnds_iff {body before' : List Char} {n : Nat} :
    NamesAt (singleLineEnds body) before' n ↔
      ∃ before, NamesAt body before n ∧ before' = singleLineEnds before := by
  have hfeed : hexDigit? '\n' = none := by decide
  have hreturn : hexDigit? '\r' = none := by decide
  constructor
  · rintro ⟨hpar, digits, after', hne, hall, hval, heq⟩
    obtain ⟨before, right, rfl, rfl, hright⟩ := exists_append_of_singleLineEnds (by decide) heq
    have hmem : '\n' ∉ 'u' :: '{' :: (digits ++ ['}']) := by
      simpa using not_mem_of_allHex hfeed hall
    have happ : singleLineEnds right = ('u' :: '{' :: (digits ++ ['}'])) ++ after' := by
      simpa using hright
    obtain ⟨after, rfl, rfl⟩ := eq_append_of_singleLineEnds hmem happ
    refine ⟨before, ⟨?_, digits, after, hne, hall, hval, by simp⟩, rfl⟩
    rw [← trailing_singleLineEnds]
    exact hpar
  · rintro ⟨before, ⟨hpar, digits, after, hne, hall, hval, rfl⟩, rfl⟩
    refine ⟨by rw [trailing_singleLineEnds]; exact hpar, digits, singleLineEnds after, hne, hall,
      hval, ?_⟩
    have hmem : '\r' ∉ '\\' :: 'u' :: '{' :: (digits ++ ['}']) := by
      simpa using not_mem_of_allHex hreturn hall
    have htail := singleLineEnds_append_of_not_mem hmem after
    rw [singleLineEnds_append_cons (by decide)]
    simpa using htail

/-- An escape that names a number begins with a backslash. -/
theorem NamesAt.exists_eq {body before : List Char} {n : Nat} (h : NamesAt body before n) :
    ∃ after, body = before ++ '\\' :: after := by
  obtain ⟨-, _, _, -, -, -, heq⟩ := h
  exact ⟨_, heq⟩

/-- Of two escapes of a body, the earlier one stays the earlier one. -/
theorem length_singleLineEnds_lt {body before before' : List Char} {n n' : Nat}
    (h : NamesAt body before n) (h' : NamesAt body before' n')
    (hlt : before.length < before'.length) :
    (singleLineEnds before).length < (singleLineEnds before').length := by
  obtain ⟨after, hbody⟩ := NamesAt.exists_eq h
  obtain ⟨after', hbody'⟩ := NamesAt.exists_eq h'
  have hpre : before ++ ['\\'] <+: before' :=
    List.prefix_of_prefix_length_le ⟨after, by rw [hbody]; simp⟩ ⟨_, hbody'.symm⟩
      (by simpa using Nat.succ_le_of_lt hlt)
  obtain ⟨mid, rfl⟩ := hpre
  rw [List.append_assoc, List.singleton_append, singleLineEnds_append_cons (by decide),
    singleLineEnds_cons fun h => absurd h (by decide), List.length_append, List.length_cons]
  omega

/-- Dropping carriage returns changes no escape that comes first. -/
theorem firstOverlarge_singleLineEnds_iff {body : List Char} {n : Nat} :
    FirstOverlarge (singleLineEnds body) n ↔ FirstOverlarge body n := by
  constructor
  · rintro ⟨_, hnames, hn, hfirst⟩
    obtain ⟨before, hbefore, rfl⟩ := namesAt_singleLineEnds_iff.mp hnames
    refine ⟨before, hbefore, hn, fun b n' hb hn' => Nat.le_of_not_lt fun hlt => ?_⟩
    have hle := hfirst _ n' (namesAt_singleLineEnds_iff.mpr ⟨b, hb, rfl⟩) hn'
    have := length_singleLineEnds_lt hb hbefore hlt
    omega
  · rintro ⟨before, hbefore, hn, hfirst⟩
    refine ⟨_, namesAt_singleLineEnds_iff.mpr ⟨before, hbefore, rfl⟩, hn, fun b' n' hb' hn' => ?_⟩
    obtain ⟨b, hb, rfl⟩ := namesAt_singleLineEnds_iff.mp hb'
    rcases Nat.lt_or_eq_of_le (hfirst b n' hb hn') with hlt | hlen
    · exact Nat.le_of_lt (length_singleLineEnds_lt hbefore hb hlt)
    · obtain ⟨_, hbody⟩ := NamesAt.exists_eq hbefore
      obtain ⟨_, hbody'⟩ := NamesAt.exists_eq hb
      obtain rfl : before = b := (List.append_inj (hbody.symm.trans hbody') hlen).1
      exact Nat.le_refl _

/-- No overlarge escape is gained or lost by making each line end one line feed. -/
theorem overlarge?_singleLineEnds (body : List Char) :
    Escape.overlarge? (singleLineEnds body) = Escape.overlarge? body := by
  ext n
  rw [overlarge?_eq_some_iff, firstOverlarge_singleLineEnds_iff, overlarge?_eq_some_iff]

/-! ## Literals -/

/-- The text between the quotes, before any decoding. -/
def body (src : Source) (n : Node) : List Char :=
  unquoted (n.chars src)

/-- A string, or a template without substitutions. -/
def isLiteral (n : Node) : Bool :=
  n.kind = Kind.string || n.isPlainTemplate

/-- The first number above U+10FFFF that an escape between the quotes names. -/
def overlarge? (src : Source) (n : Node) : Option Nat :=
  Escape.overlarge? (n.body src)

/-- How decoding what is between the quotes fails. -/
def failure? (src : Source) (n : Node) : Option Error :=
  (n.overlarge? src).map failure

/-- A literal fails as its first escape above U+10FFFF. -/
theorem failure?_eq_some_iff {src : Source} {n : Node} {e : Error} :
    n.failure? src = some e ↔ ∃ v, FirstOverlarge (n.body src) v ∧ failure v = e := by
  rw [failure?, Option.map_eq_some_iff]
  simp only [overlarge?, overlarge?_eq_some_iff]

/-- A literal does not fail iff it has no such escape. -/
theorem failure?_eq_none_iff {src : Source} {n : Node} :
    n.failure? src = none ↔ ¬ HasOverlarge (n.body src) := by
  rw [Option.eq_none_iff_forall_ne_some, hasOverlarge_iff]
  constructor
  · rintro h ⟨v, hv⟩
    exact h _ (failure?_eq_some_iff.mpr ⟨v, hv, rfl⟩)
  · intro h e he
    obtain ⟨v, hv, -⟩ := failure?_eq_some_iff.mp he
    exact h ⟨v, hv⟩

/-- A node fails as a string only if it is one. -/
theorem fault?_stringValue? (src : Source) (n : Node) :
    fault? (n.stringValue? src) = if n.kind = Kind.string then n.failure? src else none := by
  unfold stringValue?
  split
  · rw [fault?_map, decodedBody, fault?_map, fault?_unescapeChars]
    rfl
  · rfl

/-- A node fails as a value only if it is a literal. -/
theorem fault?_staticValue? (src : Source) (n : Node) :
    fault? (n.staticValue? src) = if n.isLiteral then n.failure? src else none := by
  unfold staticValue? isLiteral
  by_cases hstring : n.kind = Kind.string
  · rw [if_pos hstring, fault?_stringValue?, if_pos hstring]
    simp [hstring]
  · rw [if_neg hstring]
    cases htemplate : n.isPlainTemplate with
    | true =>
        rw [if_pos rfl, fault?_map, fault?_unescapeChars, overlarge?_singleLineEnds]
        simp [failure?, overlarge?, body]
    | false => simp [hstring]

/-- A key fails only if it is a string. -/
theorem fault?_keyName? (src : Source) (n : Node) :
    fault? (n.keyName? src) = if n.kind = Kind.string then n.failure? src else none := by
  unfold keyName?
  by_cases hstring : n.kind = Kind.string
  · rw [if_pos (by simp [hstring, staticKeyKinds]), if_pos hstring, fault?_stringValue?]
  · rw [if_neg hstring, if_neg hstring]
    split <;> rfl

end MessageHarvest.Node
