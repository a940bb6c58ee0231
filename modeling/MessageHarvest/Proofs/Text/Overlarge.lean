import MessageHarvest.Text.Escape
import Mathlib.Algebra.Ring.Nat

/-!
# When decoding fails

The decoder cuts a body into pieces from left to right. Here the only way in which it fails is said
without any cutting: an escape begins at a backslash that an even number of backslashes precedes.

* `NamesAt body before n`: after `before`, where an escape may begin, the body goes on with a braced
  escape that names `n`.
* `FirstOverlarge body n`: the first such escape that names a number above U+10FFFF names `n`.
* **When decoding fails** (`fault?_unescapeChars`, `overlarge?_eq_some_iff`): exactly when there is
  such an escape, and the first one decides in which way.
-/

namespace MessageHarvest

/-! ## Failures -/

section fault

variable {α β : Type}

/-- The failure in which a reading ends, if it does. -/
def fault? : Except Escape.Error α → Option Escape.Error
  | .ok _ => none
  | .error e => some e

/-- A result is no fault. -/
@[simp] theorem fault?_ok (a : α) : fault? (.ok a) = none := rfl

/-- A value that is returned is no fault. -/
@[simp] theorem fault?_pure (a : α) : fault? (pure a) = none := rfl

/-- An error is its own fault. -/
@[simp] theorem fault?_error (e : Escape.Error) : fault? (.error e : Except _ α) = some e := rfl

/-- A computation has a fault iff it has ended in that error. -/
theorem fault?_eq_some_iff {x : Except Escape.Error α} {e : Escape.Error} :
    fault? x = some e ↔ x = .error e := by
  cases x <;> simp

/-- It has none iff it has a result. -/
theorem fault?_eq_none_iff {x : Except Escape.Error α} : fault? x = none ↔ ∃ a, x = .ok a := by
  cases x <;> simp

/-- What is made of a result does not matter for faults. -/
@[simp] theorem fault?_map (g : α → β) (x : Except Escape.Error α) :
    fault? (x.map g) = fault? x := by
  cases x <;> rfl

/-- A reading in two steps fails as the first one does, else as the second one does. If the second
one's failure does not depend on what the first one has read, it may be taken by itself. -/
theorem fault?_bind (x : Except Escape.Error α) (g : α → Except Escape.Error β)
    (second : Option Escape.Error) (h : ∀ a, x = .ok a → fault? (g a) = second) :
    fault? (x >>= g) = (fault? x).or second := by
  cases x with
  | error e => rfl
  | ok a => exact h a rfl

/-- If the second step never fails, only the first one counts. -/
theorem fault?_bind_of_total (x : Except Escape.Error α) {g : α → Except Escape.Error β}
    (h : ∀ a, fault? (g a) = none) : fault? (x >>= g) = fault? x := by
  rw [fault?_bind _ _ none fun a _ => h a, Option.or_none]

end fault

namespace Escape

/-! ## Where escapes begin -/

/-- How many backslashes a text ends in. -/
def trailing (text : List Char) : Nat :=
  (text.reverse.takeWhile (· = '\\')).length

/-- An empty text ends in no backslashes. -/
@[simp] theorem trailing_nil : trailing [] = 0 := rfl

/-- Only what follows the last other character counts. -/
theorem trailing_append_cons_of_ne {c : Char} (hc : c ≠ '\\') (left right : List Char) :
    trailing (left ++ c :: right) = trailing right := by
  rw [trailing, List.reverse_append, List.reverse_cons, List.append_assoc, List.takeWhile_append]
  split
  · rename_i h
    rw [List.singleton_append, List.takeWhile_cons_of_neg (by simpa using hc), List.append_nil,
      trailing, h]
  · rfl

/-- Another character in front adds none. -/
theorem trailing_cons_of_ne {c : Char} (hc : c ≠ '\\') (right : List Char) :
    trailing (c :: right) = trailing right :=
  trailing_append_cons_of_ne hc [] right

/-- Two backslashes in front leave the parity as it is. -/
theorem trailing_backslash_backslash (right : List Char) :
    trailing ('\\' :: '\\' :: right) % 2 = trailing right % 2 := by
  rw [trailing, List.reverse_cons, List.reverse_cons, List.append_assoc, List.takeWhile_append]
  split
  · rename_i h
    have hr : trailing right = right.reverse.length := h
    rw [hr, List.length_append]
    exact Nat.add_mod_right _ 2
  · rfl

/-- A backslash in front counts if nothing but backslashes follows. -/
theorem trailing_backslash_cons (right : List Char) :
    trailing ('\\' :: right) =
      if right.all (· = '\\') then right.length + 1 else trailing right := by
  unfold trailing
  rw [List.reverse_cons, List.takeWhile_append, ← List.all_reverse]
  by_cases hall : right.reverse.all (· = '\\') = true
  · have htake : right.reverse.takeWhile (· = '\\') = right.reverse := by
      rw [← List.append_nil right.reverse, List.takeWhile_append_of_pos, List.takeWhile_nil]
      exact fun c hc => List.all_eq_true.mp hall c hc
    rw [if_pos hall, if_pos (by rw [htake]), List.length_append, List.length_reverse]
    rfl
  · have hlen : (right.reverse.takeWhile (· = '\\')).length ≠ right.reverse.length := by
      intro hlen
      have htake := (List.takeWhile_prefix (l := right.reverse) (· = '\\')).eq_of_length hlen
      exact hall (htake ▸ List.all_takeWhile)
    rw [if_neg hall, if_neg hlen]

/-- After `before`, which ends in an even number of backslashes, the body goes on with a braced
escape that names `n`. -/
def NamesAt (body before : List Char) (n : Nat) : Prop :=
  trailing before % 2 = 0 ∧ ∃ digits after, digits ≠ [] ∧ allHex digits = true ∧
    hexValue 0 digits = n ∧ body = before ++ '\\' :: 'u' :: '{' :: (digits ++ '}' :: after)

/-- A braced escape has five characters at least. -/
theorem NamesAt.length_le {body before : List Char} {n : Nat} (h : NamesAt body before n) :
    5 ≤ body.length := by
  obtain ⟨-, digits, after, hne, -, -, rfl⟩ := h
  have := List.length_pos_iff.mpr hne
  simp only [List.length_append, List.length_cons]
  omega

/-- The first escape in a body that names a number above U+10FFFF names `n`. -/
def FirstOverlarge (body : List Char) (n : Nat) : Prop :=
  ∃ before, NamesAt body before n ∧ 0x10FFFF < n ∧
    ∀ before' n', NamesAt body before' n' → 0x10FFFF < n' → before.length ≤ before'.length

/-- Some escape in a body names a number above U+10FFFF. -/
def HasOverlarge (body : List Char) : Prop :=
  ∃ before n, NamesAt body before n ∧ 0x10FFFF < n

/-- If there is such an escape, there is a first one. -/
theorem exists_firstOverlarge {body before : List Char} {n : Nat} (h : NamesAt body before n)
    (hn : 0x10FFFF < n) : ∃ n, FirstOverlarge body n := by
  by_cases hearlier : ∃ before' n', NamesAt body before' n' ∧ 0x10FFFF < n' ∧
      before'.length < before.length
  · obtain ⟨before', n', h', hn', hlt⟩ := hearlier
    exact exists_firstOverlarge h' hn'
  · exact ⟨n, before, h, hn, fun before' n' h' hn' =>
      Nat.le_of_not_lt fun hlt => hearlier ⟨before', n', h', hn', hlt⟩⟩
termination_by before.length

/-- There is an overlarge escape iff there is a first one. -/
theorem hasOverlarge_iff {body : List Char} : HasOverlarge body ↔ ∃ n, FirstOverlarge body n := by
  constructor
  · rintro ⟨before, n, h, hn⟩
    exact exists_firstOverlarge h hn
  · rintro ⟨n, before, h, hn, -⟩
    exact ⟨before, n, h, hn⟩

/-! ## What a backslash takes with it -/

/-- A digit is less than sixteen. -/
theorem hexDigit?_lt {c : Char} {v : Nat} (h : hexDigit? c = some v) : v < 16 := by
  have toNat_le {a b : Char} (hab : a ≤ b) : a.toNat ≤ b.toNat := hab
  unfold hexDigit? at h
  split at h
  · rename_i hc
    have h1 := toNat_le hc.2
    cases h
    have : ('9' : Char).toNat = 57 := rfl
    omega
  · split at h
    · rename_i hc
      have h1 := toNat_le hc.2
      cases h
      have : ('f' : Char).toNat = 102 := rfl
      omega
    · split at h
      · rename_i hc
        have h1 := toNat_le hc.2
        cases h
        have : ('F' : Char).toNat = 70 := rfl
        omega
      · cases h

/-- Digits name a number below the power of 16 that has one place more. -/
theorem hexValue_lt (n : Nat) (digits : List Char) :
    hexValue n digits < (n + 1) * 16 ^ digits.length := by
  induction digits generalizing n with
  | nil => simp [hexValue]
  | cons d digits ih =>
      have hd : (hexDigit? d).getD 0 < 16 := by
        cases h : hexDigit? d with
        | none => decide
        | some v => exact hexDigit?_lt h
      have hstep : n * 16 + (hexDigit? d).getD 0 + 1 ≤ (n + 1) * 16 := by omega
      calc hexValue n (d :: digits)
          = hexValue (n * 16 + (hexDigit? d).getD 0) digits := rfl
        _ < (n * 16 + (hexDigit? d).getD 0 + 1) * 16 ^ digits.length := ih _
        _ ≤ (n + 1) * 16 * 16 ^ digits.length := Nat.mul_le_mul_right _ hstep
        _ = (n + 1) * 16 ^ (d :: digits).length := by
            rw [List.length_cons, Nat.pow_succ, Nat.mul_assoc, Nat.mul_comm 16]

/-- What is no digit is not among digits. -/
theorem not_mem_of_allHex {c : Char} (hc : hexDigit? c = none) {digits : List Char}
    (h : allHex digits = true) : c ∉ digits := by
  intro hmem
  have := List.all_eq_true.mp h c hmem
  simp [hc] at this

/-- Digits before a closing brace are read as a whole. -/
theorem takeWhile_hex {digits after : List Char} (h : allHex digits = true) :
    (digits ++ '}' :: after).takeWhile (fun d => (hexDigit? d).isSome) = digits := by
  rw [List.takeWhile_append_of_pos (fun d hd => List.all_eq_true.mp h d hd)]
  rw [List.takeWhile_cons_of_neg (by decide), List.append_nil]

/-- Digits that a closing brace follows stand before it. -/
theorem eq_takeWhile_hex_append {rest : List Char}
    (h : (rest.drop (rest.takeWhile fun d => (hexDigit? d).isSome).length).head? = some '}') :
    ∃ after, rest = (rest.takeWhile fun d => (hexDigit? d).isSome) ++ '}' :: after := by
  obtain ⟨after, hafter⟩ := List.head?_eq_some_iff.mp h
  have htake := List.prefix_iff_eq_take.mp
    (List.takeWhile_prefix (l := rest) fun d => (hexDigit? d).isSome)
  refine ⟨after, ?_⟩
  rw [← hafter]
  exact (List.take_append_drop _ rest).symm.trans (congrArg (· ++ _) htake.symm)

/-- The forms of an escape: the characters that it takes after its backslash, and the piece that
they make. -/
inductive Form : List Char → Piece → Prop
  | lineEnds : Form ['\r', '\n'] .lineJoin
  | byte {digits : List Char} (hlen : digits.length = 2) (hall : allHex digits = true) :
      Form ('x' :: digits) (.codePoint (hexValue 0 digits))
  | unit {digits : List Char} (hlen : digits.length = 4) (hall : allHex digits = true) :
      Form ('u' :: digits) (.codePoint (hexValue 0 digits))
  | braced {digits : List Char} (hne : digits ≠ []) (hall : allHex digits = true) :
      Form ('u' :: '{' :: (digits ++ ['}'])) (.codePoint (hexValue 0 digits))
  | lineEnd {c : Char} (hc : isLineEnd c = true) : Form [c] .lineJoin
  | single {c : Char} (hc : isLineEnd c = false) : Form [c] (.single c)

/-- **What a backslash takes with it** is of one of the forms. -/
theorem readEscape_form {rest : List Char} (hrest : rest ≠ []) :
    ∃ taken after, rest = taken ++ after ∧ Form taken (readEscape rest).1 ∧
      (readEscape rest).2 = taken.length := by
  rw [readEscape.eq_def]
  split
  · exact absurd rfl hrest
  · exact ⟨['\r', '\n'], _, rfl, .lineEnds, rfl⟩
  · rename_i a b after
    split
    · rename_i h
      exact ⟨['x', a, b], after, rfl, .byte rfl h, rfl⟩
    · exact ⟨['x'], a :: b :: after, rfl, .single (by decide), rfl⟩
  · rename_i rest
    dsimp only
    split
    · rename_i h
      simp only [Bool.and_eq_true, beq_iff_eq, Bool.not_eq_true', List.isEmpty_eq_false_iff] at h
      obtain ⟨after, hafter⟩ := eq_takeWhile_hex_append h.2
      refine ⟨_, after, ?_, .braced h.1 List.all_takeWhile, by simp⟩
      simpa using hafter
    · exact ⟨['u'], '{' :: rest, rfl, .single (by decide), rfl⟩
  · rename_i a b c d after _
    split
    · rename_i h
      exact ⟨['u', a, b, c, d], after, rfl, .unit rfl h, rfl⟩
    · exact ⟨['u'], a :: b :: c :: d :: after, rfl, .single (by decide), rfl⟩
  · rename_i c after _ _ _ _
    cases hc : isLineEnd c with
    | true => exact ⟨[c], after, rfl, .lineEnd hc, rfl⟩
    | false => exact ⟨[c], after, rfl, .single hc, rfl⟩

/-- The braced escape is read whole. -/
theorem readEscape_braced {digits after : List Char} (hne : digits ≠ [])
    (h : allHex digits = true) :
    readEscape ('u' :: '{' :: (digits ++ '}' :: after)) =
      (.codePoint (hexValue 0 digits), digits.length + 3) := by
  simp [readEscape, takeWhile_hex h, hne]

/-- What an escape takes is one character, or it ends in another one than a backslash and holds
none. -/
theorem Form.eq_singleton_or {taken : List Char} {p : Piece} (h : Form taken p) :
    (∃ c, taken = [c]) ∨ ('\\' ∉ taken ∧ ∃ left c, c ≠ '\\' ∧ taken = left ++ [c]) := by
  have hbackslash : hexDigit? '\\' = none := by decide
  have hlast {digits : List Char} (hall : allHex digits = true) (hlen : digits ≠ []) :
      ∃ left c, c ≠ '\\' ∧ digits = left ++ [c] :=
    ⟨digits.dropLast, digits.getLast hlen, fun hc => not_mem_of_allHex hbackslash hall
      (hc ▸ List.getLast_mem hlen), (List.dropLast_concat_getLast hlen).symm⟩
  cases h with
  | lineEnds => exact .inr ⟨by decide, ['\r'], '\n', by decide, rfl⟩
  | @byte digits hlen hall =>
      obtain ⟨left, c, hc, rfl⟩ := hlast hall (by rintro rfl; cases hlen)
      exact .inr ⟨by simpa using not_mem_of_allHex hbackslash hall, 'x' :: left, c, hc, rfl⟩
  | @unit digits hlen hall =>
      obtain ⟨left, c, hc, rfl⟩ := hlast hall (by rintro rfl; cases hlen)
      exact .inr ⟨by simpa using not_mem_of_allHex hbackslash hall, 'u' :: left, c, hc, rfl⟩
  | @braced digits hne hall =>
      refine .inr ⟨?_, 'u' :: '{' :: digits, '}', by decide, rfl⟩
      simpa using not_mem_of_allHex hbackslash hall
  | lineEnd hc => exact .inl ⟨_, rfl⟩
  | single hc => exact .inl ⟨_, rfl⟩

/-- Only the braced escape can name a number above U+10FFFF. -/
theorem Form.eq_braced {taken : List Char} {n : Nat} (h : Form taken (.codePoint n))
    (hn : 0x10FFFF < n) : ∃ digits, digits ≠ [] ∧ allHex digits = true ∧
      hexValue 0 digits = n ∧ taken = 'u' :: '{' :: (digits ++ ['}']) := by
  cases h with
  | @byte digits hlen =>
      have := hexValue_lt 0 digits
      rw [hlen] at this
      omega
  | @unit digits hlen =>
      have := hexValue_lt 0 digits
      rw [hlen] at this
      omega
  | @braced digits hne hall => exact ⟨digits, hne, hall, rfl, rfl⟩

/-! ## The escapes of a body, piece by piece -/

/-- No body names a number before its first backslash. -/
theorem namesAt_cons_of_ne {c : Char} (hc : c ≠ '\\') {rest before : List Char} {n : Nat} :
    NamesAt (c :: rest) before n ↔ ∃ b, before = [c] ++ b ∧ NamesAt rest b n := by
  constructor
  · rintro ⟨hpar, digits, after, hne, hall, hval, heq⟩
    cases before with
    | nil => exact absurd (List.cons.inj heq).1 hc
    | cons d b =>
        obtain rfl : c = d := (List.cons.inj heq).1
        rw [trailing_cons_of_ne hc] at hpar
        exact ⟨b, rfl, hpar, digits, after, hne, hall, hval, (List.cons.inj heq).2⟩
  · rintro ⟨b, rfl, hpar, digits, after, hne, hall, hval, rfl⟩
    refine ⟨?_, digits, after, hne, hall, hval, rfl⟩
    rw [List.singleton_append, trailing_cons_of_ne hc]
    exact hpar

/-- An escape and its backslash leave the parity as it is. -/
theorem Form.trailing {taken : List Char} {p : Piece} (h : Form taken p) (right : List Char) :
    trailing ('\\' :: (taken ++ right)) % 2 = Escape.trailing right % 2 := by
  rcases h.eq_singleton_or with ⟨c, rfl⟩ | ⟨-, left, c, hc, rfl⟩
  · by_cases hc : c = '\\'
    · subst hc
      exact trailing_backslash_backslash right
    · exact congrArg (· % 2) (trailing_append_cons_of_ne hc ['\\'] right)
  · rw [List.append_assoc, List.singleton_append, ← List.cons_append,
      trailing_append_cons_of_ne hc]

/-- No escape begins inside another one. -/
theorem Form.length_le {taken after b tail : List Char} {p : Piece} (h : Form taken p)
    (hpar : Escape.trailing ('\\' :: b) % 2 = 0) (heq : taken ++ after = b ++ '\\' :: tail) :
    taken.length ≤ b.length := by
  refine Nat.le_of_not_lt fun hlt => ?_
  have hmem : taken[b.length]? = some '\\' := by
    have happend : (taken ++ after)[b.length]? = taken[b.length]? := List.getElem?_append_left hlt
    rw [← happend, heq]
    simp
  rcases h.eq_singleton_or with ⟨c, rfl⟩ | ⟨hnot, -⟩
  · obtain rfl : b = [] := List.eq_nil_of_length_eq_zero (by simpa using hlt)
    exact absurd hpar (by decide)
  · exact hnot (List.mem_of_getElem? hmem)

/-- Beyond the first escape of a body, what names a number is what does so after it. -/
theorem namesAt_backslash_cons {taken after b : List Char} {p : Piece} (h : Form taken p)
    {n : Nat} :
    NamesAt ('\\' :: (taken ++ after)) ('\\' :: b) n ↔
      ∃ b', b = taken ++ b' ∧ NamesAt after b' n := by
  constructor
  · rintro ⟨hpar, digits, tail, hne, hall, hval, heq⟩
    have heq : taken ++ after = b ++ '\\' :: 'u' :: '{' :: (digits ++ '}' :: tail) :=
      (List.cons.inj heq).2
    have hle := h.length_le hpar heq
    obtain ⟨b', rfl⟩ : taken <+: b :=
      List.prefix_of_prefix_length_le ⟨after, heq⟩ (List.prefix_append b _) hle
    rw [List.append_assoc] at heq
    refine ⟨b', rfl, ?_, digits, tail, hne, hall, hval, List.append_cancel_left heq⟩
    rw [← h.trailing]
    exact hpar
  · rintro ⟨b', rfl, hpar, digits, tail, hne, hall, hval, rfl⟩
    refine ⟨?_, digits, tail, hne, hall, hval, by simp⟩
    rw [h.trailing]
    exact hpar

/-! ## The first overlarge escape -/

/-- If the overlarge escapes of one body are those of another one, moved, so are the first ones. -/
theorem firstOverlarge_iff_of_namesAt (pre : List Char) {body body' : List Char}
    (h : ∀ before n, 0x10FFFF < n →
      (NamesAt body before n ↔ ∃ b, before = pre ++ b ∧ NamesAt body' b n)) {n : Nat} :
    FirstOverlarge body n ↔ FirstOverlarge body' n := by
  constructor
  · rintro ⟨before, hnames, hn, hfirst⟩
    obtain ⟨b, rfl, hb⟩ := (h before n hn).mp hnames
    refine ⟨b, hb, hn, fun b' n' hb' hn' => ?_⟩
    have := hfirst (pre ++ b') n' ((h _ _ hn').mpr ⟨b', rfl, hb'⟩) hn'
    simpa using this
  · rintro ⟨b, hb, hn, hfirst⟩
    refine ⟨pre ++ b, (h _ _ hn).mpr ⟨b, rfl, hb⟩, hn, fun before' n' hnames hn' => ?_⟩
    obtain ⟨b', rfl, hb'⟩ := (h before' n' hn').mp hnames
    have := hfirst b' n' hb' hn'
    simpa using this

/-- The number above U+10FFFF that a piece names. -/
def Piece.overlarge? : Piece → Option Nat
  | .codePoint n => if 0x10FFFF < n then some n else none
  | _ => none

/-- A piece is overlarge iff it is a number above U+10FFFF. -/
theorem Piece.overlarge?_eq_some_iff {p : Piece} {n : Nat} :
    p.overlarge? = some n ↔ p = .codePoint n ∧ 0x10FFFF < n := by
  cases p with
  | codePoint m =>
      simp only [overlarge?, Option.ite_none_right_eq_some, Option.some.injEq,
        Piece.codePoint.injEq]
      constructor
      · rintro ⟨hm, rfl⟩
        exact ⟨rfl, hm⟩
      · rintro ⟨rfl, hm⟩
        exact ⟨hm, rfl⟩
  | _ => simp [overlarge?]

/-- The first number above U+10FFFF that an escape of a body names. -/
def overlarge? (body : List Char) : Option Nat :=
  (pieces body).findSome? Piece.overlarge?

/-- A character that is no backslash begins no escape. -/
theorem overlarge?_cons_of_ne {c : Char} (hc : c ≠ '\\') (rest : List Char) :
    overlarge? (c :: rest) = overlarge? rest := by
  rw [overlarge?, pieces_cons_of_ne hc]
  rfl

/-- Behind a backslash its own escape is asked first, and then what follows it. -/
theorem overlarge?_backslash (rest : List Char) :
    overlarge? ('\\' :: rest) =
      ((readEscape rest).1.overlarge?).or (overlarge? (rest.drop (readEscape rest).2)) := by
  rw [overlarge?, pieces_backslash, List.findSome?_cons]
  cases (readEscape rest).1.overlarge? <;> rfl

/-- A body that begins with an overlarge escape names its number first. -/
theorem firstOverlarge_backslash {rest : List Char} {m : Nat}
    (hm : (readEscape rest).1.overlarge? = some m) {n : Nat} :
    FirstOverlarge ('\\' :: rest) n ↔ m = n := by
  obtain ⟨hpiece, hlarge⟩ := Piece.overlarge?_eq_some_iff.mp hm
  have hrest : rest ≠ [] := by
    rintro rfl
    cases hpiece
  obtain ⟨taken, after, rfl, hform, -⟩ := readEscape_form hrest
  obtain ⟨digits, hne, hall, hval, rfl⟩ := (hpiece ▸ hform).eq_braced hlarge
  have hfirst : NamesAt ('\\' :: ('u' :: '{' :: (digits ++ ['}']) ++ after)) [] m :=
    ⟨rfl, digits, after, hne, hall, hval, by simp⟩
  constructor
  · rintro ⟨before, ⟨-, digits', after', hne', hall', hval', heq⟩, hn, hleast⟩
    obtain rfl : before = [] :=
      List.eq_nil_of_length_eq_zero (Nat.le_zero.mp (hleast [] m hfirst hlarge))
    have hread := congrArg (fun l => (readEscape l).1) (List.cons.inj heq).2
    rw [hpiece, readEscape_braced hne' hall', hval'] at hread
    exact Piece.codePoint.inj hread
  · rintro rfl
    exact ⟨[], hfirst, hlarge, fun _ _ _ _ => Nat.zero_le _⟩

/-- A body that begins with another escape names first what it names after it. -/
theorem firstOverlarge_backslash_of_none {rest : List Char}
    (hm : (readEscape rest).1.overlarge? = none) {n : Nat} :
    FirstOverlarge ('\\' :: rest) n ↔ FirstOverlarge (rest.drop (readEscape rest).2) n := by
  by_cases hrest : rest = []
  · subst hrest
    refine firstOverlarge_iff_of_namesAt ['\\'] fun before k _ => ⟨fun h => ?_, ?_⟩
    · exact absurd h.length_le (by decide)
    · rintro ⟨b, -, h⟩
      exact absurd h.length_le (by decide)
  · obtain ⟨taken, after, hsplit, hform, hlen⟩ := readEscape_form hrest
    rw [hlen]
    subst hsplit
    rw [List.drop_left]
    refine firstOverlarge_iff_of_namesAt ('\\' :: taken) fun before k hk => ?_
    cases before with
    | nil =>
        refine ⟨?_, fun ⟨b, heq, _⟩ => by cases heq⟩
        rintro ⟨-, digits, tail, hne, hall, hval, heq⟩
        rw [(List.cons.inj heq).2, readEscape_braced hne hall, hval] at hm
        simp [Piece.overlarge?, Nat.not_le_of_lt hk] at hm
    | cons d b =>
        simp only [List.cons_append, List.cons.injEq]
        constructor
        · intro h
          have hd : d = '\\' := by
            obtain ⟨-, _, _, -, -, -, heq⟩ := h
            exact (List.cons.inj heq).1.symm
          subst hd
          obtain ⟨b', hb, hb'⟩ := (namesAt_backslash_cons hform).mp h
          exact ⟨b', ⟨rfl, hb⟩, hb'⟩
        · rintro ⟨b', ⟨rfl, hb⟩, hb'⟩
          exact (namesAt_backslash_cons hform).mpr ⟨b', hb, hb'⟩

/-- **The first overlarge escape** is the one that cutting the body into pieces meets first. -/
theorem overlarge?_eq_some_iff {n : Nat} :
    (body : List Char) → (overlarge? body = some n ↔ FirstOverlarge body n)
  | [] => by
      refine ⟨nofun, ?_⟩
      rintro ⟨before, h, -⟩
      exact absurd h.length_le (by decide)
  | c :: rest => by
      by_cases hc : c = '\\'
      · subst hc
        rw [overlarge?_backslash]
        cases hm : (readEscape rest).1.overlarge? with
        | some m =>
            rw [firstOverlarge_backslash hm, Option.some_or, Option.some.injEq]
        | none =>
            rw [firstOverlarge_backslash_of_none hm, Option.none_or]
            exact overlarge?_eq_some_iff _
      · rw [overlarge?_cons_of_ne hc, overlarge?_eq_some_iff rest]
        exact (firstOverlarge_iff_of_namesAt [c] fun _ _ _ => namesAt_cons_of_ne hc).symm
termination_by body => body.length
decreasing_by all_goals simp only [List.length_drop, List.length_cons]; omega

/-- How decoding fails at an escape that names `n`. -/
def failure (n : Nat) : Error :=
  if n ≤ 0x7FFFFFFF then .outOfRange else .tooLarge

/-- A piece fails iff its number is overlarge. -/
theorem fault?_units (p : Piece) : fault? p.units = p.overlarge?.map failure := by
  cases p with
  | codePoint n =>
      simp only [Piece.units, Piece.overlarge?]
      by_cases hn : n ≤ 0x10FFFF
      · rw [if_pos hn, if_neg (by omega)]
        rfl
      · rw [if_neg hn, if_pos (show 0x10FFFF < n by omega)]
        rfl
  | _ => rfl

/-- Pieces fail as the first one whose number is overlarge. -/
theorem fault?_unitsOf (ps : List Piece) :
    fault? (unitsOf ps) = (ps.findSome? Piece.overlarge?).map failure := by
  induction ps with
  | nil => rfl
  | cons p ps ih =>
      rw [unitsOf, fault?_bind _ _ (fault? (unitsOf ps)), ih, fault?_units, List.findSome?_cons]
      · cases p.overlarge? <;> rfl
      · intro units _
        cases unitsOf ps <;> rfl

/-- **When decoding fails**: at the first escape that names a number above U+10FFFF. -/
theorem fault?_unescapeChars (body : List Char) :
    fault? (unescapeChars body) = (overlarge? body).map failure := by
  unfold unescapeChars
  split
  · rw [fault?_map, fault?_unitsOf]
    rfl
  · rename_i hnot
    have hnone : overlarge? body = none := by
      induction body with
      | nil => rfl
      | cons c rest ih =>
          rw [List.mem_cons, not_or] at hnot
          rw [overlarge?_cons_of_ne (Ne.symm hnot.1), ih hnot.2]
    rw [hnone]
    rfl

/-- The second of two backslashes begins no escape. -/
example : fault? (unescapeChars "\\\\u\x7b110000\x7d".toList) = none ∧
    fault? (unescapeChars "\\u\x7b110000\x7d".toList) = some .outOfRange := by
  decide +kernel

end Escape

end MessageHarvest
