import MessageHarvest.Proofs.Text.Encoding

/-!
# What bytes stand for

Any bytes stand for a text. Where they begin with the bytes of a character, that character comes
first. Where they do not, U+FFFD comes first and takes the place of the longest beginning of a
character that stands there, or of one byte with which no character begins. That is said without
the decoder, which looks at one byte at a time and never goes back.

* `Unreadable bad rest`: before `rest`, the bytes `bad` are what one U+FFFD takes the place of.
* `First bytes c rest`: the first character is `c`, and `rest` is what follows its bytes. There is
  one such character (`First.unique`), and the decoder finds it (`exists_first`): what is pending
  tells which characters its bytes may yet become (`Pending.After`), so that they are given up
  exactly where no character goes on (`Pending.After.unreadable`).
* **Decoding** (`standsFor_iff`): bytes stand for one text, the one that they are decoded to.
* **Texts without U+FFFD** (`decode_eq_iff`) are decoded from their own bytes only.
* **ASCII** (`decode_append_ascii`): no ASCII byte is taken for a part of what stands before it.
-/

namespace MessageHarvest.Utf8

/-! ## The first character -/

/-- The bytes of some character begin with these. -/
def Begins (bytes : List UInt8) : Prop :=
  ∃ c : Char, bytes <+: String.utf8EncodeChar c

/-- `bad` followed by `rest` begins with no character, and `bad` is its longest front with which
the bytes of a character begin; or `bad` is its first byte, if no character begins with that. -/
structure Unreadable (bad rest : List UInt8) : Prop where
  noCharacter : ∀ c : Char, ¬ String.utf8EncodeChar c <+: bad ++ rest
  ne_nil : bad ≠ []
  begins : Begins bad ∨ bad.length = 1
  longest : ∀ front, front <+: bad ++ rest → Begins front → front.length ≤ bad.length

/-- The first character that the bytes stand for is `c`, and `rest` is what follows its bytes. -/
inductive First (bytes : List UInt8) : Char → List UInt8 → Prop
  | character {c : Char} {rest : List UInt8} (h : bytes = String.utf8EncodeChar c ++ rest) :
      First bytes c rest
  | replaced {bad rest : List UInt8} (h : bytes = bad ++ rest) (hbad : Unreadable bad rest) :
      First bytes replacement rest

/-- The bytes stand for the text. -/
inductive StandsFor : List UInt8 → List Char → Prop
  | nil : StandsFor [] []
  | cons {bytes rest : List UInt8} {c : Char} {text : List Char} (hfirst : First bytes c rest)
      (h : StandsFor rest text) : StandsFor bytes (c :: text)

/-- What begins a character has fronts that do. -/
theorem Begins.front {front bytes : List UInt8} (h : Begins bytes) (hfront : front <+: bytes) :
    Begins front := by
  obtain ⟨c, hc⟩ := h
  exact ⟨c, hfront.trans hc⟩

/-- The bytes of a character begin it. -/
theorem begins_utf8EncodeChar (c : Char) : Begins (String.utf8EncodeChar c) :=
  ⟨c, List.prefix_rfl⟩

variable {bytes rest rest' bad bad' seen : List UInt8} {c c' : Char} {p : Pending} {b : UInt8}

/-- No character's bytes are the beginning of another's. -/
theorem utf8EncodeChar_append_inj
    (h : String.utf8EncodeChar c ++ rest = String.utf8EncodeChar c' ++ rest') :
    c = c' ∧ rest = rest' := by
  have hdecode := congrArg decode h
  rw [decode_utf8EncodeChar, decode_utf8EncodeChar] at hdecode
  obtain rfl := (List.cons.inj hdecode).1
  exact ⟨rfl, List.append_cancel_left h⟩

/-- Of two ways to cut off what cannot be read, neither takes more than the other. -/
theorem Unreadable.length_le (h : Unreadable bad rest) (h' : Unreadable bad' rest')
    (heq : bad ++ rest = bad' ++ rest') : bad'.length ≤ bad.length := by
  rcases h'.begins with hbegins | hone
  · exact h.longest bad' (heq ▸ List.prefix_append bad' rest') hbegins
  · rw [hone]
    exact List.length_pos_iff.mpr h.ne_nil

/-- **First characters** are unique. -/
theorem First.unique (h : First bytes c rest) (h' : First bytes c' rest') :
    c = c' ∧ rest = rest' := by
  cases h with
  | character heq =>
      cases h' with
      | character heq' => exact utf8EncodeChar_append_inj (heq.symm.trans heq')
      | replaced heq' hbad' => exact absurd ⟨rest, heq.symm.trans heq'⟩ (hbad'.noCharacter c)
  | replaced heq hbad =>
      cases h' with
      | character heq' => exact absurd ⟨rest', heq'.symm.trans heq⟩ (hbad.noCharacter c')
      | replaced heq' hbad' =>
          have hsame := heq.symm.trans heq'
          have hlength := Nat.le_antisymm (hbad'.length_le hbad hsame.symm)
            (hbad.length_le hbad' hsame)
          exact ⟨rfl, (List.append_inj hsame hlength).2⟩

/-- A first character takes at least one byte. -/
theorem First.length_lt (h : First bytes c rest) : rest.length < bytes.length := by
  have hlt {front : List UInt8} (hfront : front ≠ []) :
      rest.length < (front ++ rest).length := by
    rw [List.length_append]
    exact Nat.lt_add_of_pos_left (List.length_pos_iff.mpr hfront)
  cases h with
  | character h => exact h ▸ hlt String.utf8EncodeChar_ne_nil
  | replaced h hbad => exact h ▸ hlt hbad.ne_nil

/-- Bytes stand for one text only. -/
theorem StandsFor.unique {text text' : List Char} (h : StandsFor bytes text)
    (h' : StandsFor bytes text') : text = text' := by
  induction h generalizing text' with
  | nil =>
      cases h' with
      | nil => rfl
      | cons hfirst _ => exact absurd hfirst.length_lt (Nat.not_lt_zero _)
  | cons hfirst _ ih =>
      cases h' with
      | nil => exact absurd hfirst.length_lt (Nat.not_lt_zero _)
      | cons hfirst' h' =>
          obtain ⟨rfl, rfl⟩ := hfirst.unique hfirst'
          rw [ih h']

/-! ## Bytes that are pending -/

/-- What is left of a number without the bits in the last `k` bytes of its character. -/
def upper : Nat → Nat → Nat
  | 0, n => n
  | k + 1, n => upper k n / 0x40

/-- Any number is what is left of some other without its lower bits. -/
theorem exists_upper_eq (k m : Nat) : ∃ n, upper k n = m := by
  induction k generalizing m with
  | zero => exact ⟨m, rfl⟩
  | succ k ih =>
      obtain ⟨n, hn⟩ := ih (m * 0x40)
      exact ⟨n, by rw [upper, hn, Nat.mul_div_cancel _ (by decide)]⟩

/-- The last `k` bytes of a character of more than `k` bytes whose number is `n`. -/
def further : Nat → Nat → List UInt8
  | 0, _ => []
  | k + 1, n => .ofNat (upper k n % 0x40 + 0x80) :: further k n

/-- The bytes of a character are a first one that tells how many there are, and further ones with
six bits each. -/
theorem utf8EncodeChar_ofNat {n : Nat} (hvalid : n.isValidChar) :
    String.utf8EncodeChar (Char.ofNat n) =
      if n ≤ 0x7F then [.ofNat n]
      else if n ≤ 0x7FF then .ofNat (n / 0x40 % 0x20 + 0xC0) :: further 1 n
      else if n ≤ 0xFFFF then .ofNat (n / 0x1000 % 0x10 + 0xE0) :: further 2 n
      else .ofNat (n / 0x40000 % 8 + 0xF0) :: further 3 n := by
  have hnumber : (Char.ofNat n).val.toNat = n := by
    rw [Char.ofNat, dif_pos hvalid]
    rfl
  have hthird : n / 0x1000 = n / 0x40 / 0x40 := by omega
  rw [String.utf8EncodeChar, hnumber, hthird]
  rfl

/-- What is pending goes on with the byte. -/
abbrev Pending.Admits (p : Pending) (b : UInt8) : Prop :=
  p.low ≤ b ∧ b ≤ p.high

/-- There are bytes with which something pending goes on, and all of them lie in the range of the
bytes behind the first one. -/
structure Pending.Proper (p : Pending) : Prop where
  low_ge : 0x80 ≤ p.low.toNat
  low_le : p.low.toNat ≤ p.high.toNat
  high_le : p.high.toNat ≤ 0xBF

/-- The number `n` has the bits that are pending, followed by those of a byte in the range. -/
structure Pending.Covers (p : Pending) (n : Nat) : Prop where
  bits : upper p.more n / 0x40 = p.bits
  low : p.low.toNat ≤ upper p.more n % 0x40 + 0x80
  high : upper p.more n % 0x40 + 0x80 ≤ p.high.toNat

/-- The bytes `seen` leave `p` pending, and each number that `p` covers is that of a character whose
bytes begin with them. -/
structure Pending.After (p : Pending) (seen : List UInt8) : Prop where
  decode_append : ∀ rest, decode (seen ++ rest) = decodeFrom (some p) rest
  encode : ∀ n, p.Covers n → String.utf8EncodeChar (Char.ofNat n) = seen ++ further (p.more + 1) n
  proper : p.Proper

namespace Pending

/-- What is pending behind a first byte is what the characters that begin with it have in common. -/
theorem after_of_begin (hbegin : begin b = ([], some p)) (hproper : p.Proper)
    (hencode : ∀ n, p.Covers n →
      String.utf8EncodeChar (Char.ofNat n) = b :: further (p.more + 1) n) : p.After [b] where
  decode_append rest := by
    rw [List.singleton_append, decode_cons, hbegin]
    rfl
  encode := hencode
  proper := hproper

/-- The range of the next byte where it is not narrowed. -/
theorem proper_middle (bits more : Nat) : Proper ⟨bits, more, 0x80, 0xBF⟩ where
  low_ge := Nat.le_refl 0x80
  low_le := show 0x80 ≤ 0xBF by decide
  high_le := Nat.le_refl 0xBF

/-- It is so behind the first of two bytes. -/
theorem after_two {n : Nat} (hlow : 2 ≤ n) (hhigh : n < 0x20) :
    After ⟨n, 0, 0x80, 0xBF⟩ [.ofNat (n + 0xC0)] := by
  refine after_of_begin (begin_two n hhigh hlow) (proper_middle n 0) fun m hm => ?_
  have hbits : m / 0x40 = n := hm.bits
  have hvalid : m.isValidChar := .inl (by omega)
  have hfirst : m / 0x40 % 0x20 = n := by omega
  rw [utf8EncodeChar_ofNat hvalid, if_neg (by omega), if_pos (by omega), hfirst]

/-- It is so behind the first of three. -/
theorem after_three {n : Nat} (hn : n < 0x10) :
    After ⟨n, 1, if n = 0 then 0xA0 else 0x80, if n = 0xD then 0x9F else 0xBF⟩
      [.ofNat (n + 0xE0)] := by
  refine after_of_begin (begin_three n hn) ⟨?_, ?_, ?_⟩ fun m hm => ?_
  · decide +revert
  · decide +revert
  · decide +revert
  · have hbits : m / 0x40 / 0x40 = n := hm.bits
    have hleast : n = 0 → 0xA0 ≤ m / 0x40 % 0x40 + 0x80 := by
      rintro rfl
      exact hm.low
    have hsurrogate : n = 0xD → m / 0x40 % 0x40 + 0x80 ≤ 0x9F := by
      rintro rfl
      exact hm.high
    have hvalid : m.isValidChar := by
      unfold Nat.isValidChar
      omega
    have hfirst : m / 0x1000 % 0x10 = n := by omega
    rw [utf8EncodeChar_ofNat hvalid, if_neg (by omega), if_neg (by omega), if_pos (by omega),
      hfirst]

/-- It is so behind the first of four. -/
theorem after_four {n : Nat} (hn : n < 5) :
    After ⟨n, 2, if n = 0 then 0x90 else 0x80, if n = 4 then 0x8F else 0xBF⟩
      [.ofNat (n + 0xF0)] := by
  refine after_of_begin (begin_four n hn) ⟨?_, ?_, ?_⟩ fun m hm => ?_
  · decide +revert
  · decide +revert
  · decide +revert
  · have hbits : m / 0x40 / 0x40 / 0x40 = n := hm.bits
    have hleast : n = 0 → 0x90 ≤ m / 0x40 / 0x40 % 0x40 + 0x80 := by
      rintro rfl
      exact hm.low
    have hgreatest : n = 4 → m / 0x40 / 0x40 % 0x40 + 0x80 ≤ 0x8F := by
      rintro rfl
      exact hm.high
    have hvalid : m.isValidChar := by
      unfold Nat.isValidChar
      omega
    have hfirst : m / 0x40000 % 8 = n := by omega
    rw [utf8EncodeChar_ofNat hvalid, if_neg (by omega), if_neg (by omega), if_neg (by omega),
      hfirst]

/-- A byte in the range goes on with what is pending, unless it is the last one. -/
theorem After.middle {bits more : Nat} {low high : UInt8} {v : Nat}
    (h : After ⟨bits, more + 1, low, high⟩ seen) (hv : v < 0x40) (hlow : low.toNat ≤ v + 0x80)
    (hhigh : v + 0x80 ≤ high.toNat) :
    After ⟨bits * 0x40 + v, more, 0x80, 0xBF⟩ (seen ++ [.ofNat (v + 0x80)]) where
  decode_append rest := by
    rw [List.append_assoc, h.decode_append, List.singleton_append,
      decodeFrom_middle hv hlow hhigh]
  encode n hn := by
    have hbits : upper (more + 1) n = bits * 0x40 + v := hn.bits
    have hbyte : upper (more + 1) n % 0x40 = v := by omega
    have hcovers : Covers ⟨bits, more + 1, low, high⟩ n :=
      ⟨show upper (more + 1) n / 0x40 = bits by omega, by rwa [hbyte], by rwa [hbyte]⟩
    rw [h.encode n hcovers, further, hbyte, List.append_assoc]
    rfl
  proper := proper_middle _ more

/-- The last byte of a character. -/
theorem After.last {bits : Nat} {low high : UInt8} {v : Nat} (h : After ⟨bits, 0, low, high⟩ seen)
    (hv : v < 0x40) (hlow : low.toNat ≤ v + 0x80) (hhigh : v + 0x80 ≤ high.toNat) :
    seen ++ [.ofNat (v + 0x80)] = String.utf8EncodeChar (Char.ofNat (bits * 0x40 + v)) := by
  have hbits : (bits * 0x40 + v) / 0x40 = bits := by omega
  have hbyte : upper 0 (bits * 0x40 + v) % 0x40 = v := by
    rw [upper]
    omega
  rw [h.encode _ ⟨hbits, by rwa [hbyte], by rwa [hbyte]⟩, further, hbyte]
  rfl

/-- What is pending can always be completed to a character. -/
theorem Proper.exists_covers (h : p.Proper) : ∃ n, p.Covers n := by
  obtain ⟨hge, hle, hhigh⟩ := h
  obtain ⟨n, hn⟩ := exists_upper_eq p.more (p.bits * 0x40 + (p.low.toNat - 0x80))
  exact ⟨n, by omega, by omega, by omega⟩

end Pending

/-! ## Bytes that the decoder gives up -/

/-- A further byte, or one that would begin an overlong form, at the beginning of a character. -/
theorem begin_further : ∀ n < 0x42, begin (.ofNat (n + 0x80)) = ([replacement], none) := by
  decide

/-- A byte that would begin a character above U+13FFFF. -/
theorem begin_above : ∀ n < 0xB, begin (.ofNat (n + 0xF5)) = ([replacement], none) := by
  decide

/-- The first byte is a character, or it leaves something pending, or the decoder gives it up. -/
theorem begin_cases (b : UInt8) :
    (∃ c, [b] = String.utf8EncodeChar c ∧ begin b = ([c], none)) ∨
      (∃ p : Pending, p.After [b] ∧ begin b = ([], some p)) ∨ begin b = ([replacement], none) := by
  have hbyte : UInt8.ofNat b.toNat = b := UInt8.ofNat_toNat
  have hlt : b.toNat < 0x100 := b.toNat_lt
  rw [← hbyte]
  generalize b.toNat = n at hlt
  by_cases hone : n < 0x80
  · refine .inl ⟨Char.ofNat n, ?_, begin_one n hone⟩
    rw [utf8EncodeChar_ofNat (.inl (by omega)), if_pos (by omega)]
  by_cases hfurther : n < 0xC2
  · obtain ⟨m, rfl⟩ : ∃ m, n = m + 0x80 := ⟨n - 0x80, by omega⟩
    exact .inr (.inr (begin_further m (by omega)))
  by_cases htwo : n < 0xE0
  · obtain ⟨m, rfl⟩ : ∃ m, n = m + 0xC0 := ⟨n - 0xC0, by omega⟩
    have hlow : 2 ≤ m := by omega
    have hhigh : m < 0x20 := by omega
    exact .inr (.inl ⟨_, Pending.after_two hlow hhigh, begin_two m hhigh hlow⟩)
  by_cases hthree : n < 0xF0
  · obtain ⟨m, rfl⟩ : ∃ m, n = m + 0xE0 := ⟨n - 0xE0, by omega⟩
    have hm : m < 0x10 := by omega
    exact .inr (.inl ⟨_, Pending.after_three hm, begin_three m hm⟩)
  by_cases hfour : n < 0xF5
  · obtain ⟨m, rfl⟩ : ∃ m, n = m + 0xF0 := ⟨n - 0xF0, by omega⟩
    have hm : m < 5 := by omega
    exact .inr (.inl ⟨_, Pending.after_four hm, begin_four m hm⟩)
  · obtain ⟨m, rfl⟩ : ∃ m, n = m + 0xF5 := ⟨n - 0xF5, by omega⟩
    exact .inr (.inr (begin_above m (by omega)))

/-- A byte either yields a character or leaves something pending. -/
theorem step_ne (p : Option Pending) (b : UInt8) : step p b ≠ ([], none) := by
  cases p with
  | none =>
      rcases begin_cases b with ⟨c, -, hbegin⟩ | ⟨p, -, hbegin⟩ | hbegin <;> simp [step, hbegin]
  | some p =>
      rw [step]
      split
      · split <;> simp
      · simp

/-- Nothing is decoded only where there is nothing to decode. -/
theorem decodeFrom_eq_nil_iff {p : Option Pending} :
    decodeFrom p bytes = [] ↔ p = none ∧ bytes = [] := by
  induction bytes generalizing p with
  | nil => cases p <;> simp [decodeFrom]
  | cons b bytes ih =>
      rw [decodeFrom_cons, List.append_eq_nil_iff, ih]
      have hstep := step_ne p b
      exact ⟨fun h => absurd (Prod.ext h.1 h.2.1) hstep, fun h => nomatch h.2⟩

/-- Only no bytes stand for the empty text. -/
theorem decode_eq_nil_iff : decode bytes = [] ↔ bytes = [] :=
  decodeFrom_eq_nil_iff.trans (and_iff_right rfl)

/-- Bytes that the decoder gives up, apart from `back`, begin no character but U+FFFD. -/
theorem eq_of_begins {back : List UInt8} (hbegins : Begins seen)
    (h : ∀ rest, decode (seen ++ rest) = replacement :: decode (back ++ rest)) :
    back = [] ∧ seen = String.utf8EncodeChar replacement := by
  obtain ⟨c, rest, hc⟩ := hbegins
  have hdecode := decode_utf8EncodeChar c []
  rw [List.append_nil, ← hc, h, decode_nil, List.cons.injEq, decode_eq_nil_iff,
    List.append_eq_nil_iff] at hdecode
  obtain ⟨rfl, rfl, rfl⟩ := hdecode
  rw [List.append_nil] at hc
  exact ⟨rfl, hc⟩

/-- No character begins with a byte that the decoder gives up where a character would begin. -/
theorem not_begins_singleton (h : begin b = ([replacement], none)) : ¬ Begins [b] := by
  intro hbegins
  have hdecode (rest : List UInt8) :
      decode ([b] ++ rest) = replacement :: decode ([] ++ rest) := by
    rw [List.singleton_append, decode_cons, h]
    rfl
  exact nomatch (eq_of_begins hbegins hdecode).2

/-- A byte that begins no character cannot be read, and none behind it belongs to it. -/
theorem unreadable_singleton (h : begin b = ([replacement], none)) (rest : List UInt8) :
    Unreadable [b] rest := by
  have hnil (front : List UInt8) (hfront : front <+: [b] ++ rest) (hbegins : Begins front) :
      front = [] := by
    cases front with
    | nil => rfl
    | cons a front =>
        obtain ⟨rfl, -⟩ := List.cons_prefix_cons.mp hfront
        exact absurd (hbegins.front (List.prefix_append [a] front)) (not_begins_singleton h)
  refine ⟨fun c hc => ?_, List.cons_ne_nil b [], .inr rfl, fun front hfront hbegins => ?_⟩
  · exact String.utf8EncodeChar_ne_nil (hnil _ hc (begins_utf8EncodeChar c))
  · rw [hnil front hfront hbegins]
    exact Nat.zero_le 1

namespace Pending.After

/-- What is pending is given up at the end of the bytes, and before a byte that does not go on with
it. -/
theorem decode_of_stuck (h : p.After seen) (hne : ∀ b ∈ rest.head?, ¬ p.Admits b) :
    decode (seen ++ rest) = replacement :: decode rest := by
  rw [h.decode_append]
  cases rest with
  | nil => rfl
  | cons b rest =>
      rw [decodeFrom_cons, step, if_neg (hne b rfl), decode_cons]
      rfl

/-- No character goes on with a byte that the decoder does not go on with. -/
theorem not_begins (h : p.After seen) (hb : ¬ p.Admits b) :
    ¬ Begins (seen ++ [b]) := by
  intro hbegins
  have hdecode (rest : List UInt8) :
      decode (seen ++ [b] ++ rest) = replacement :: decode ([b] ++ rest) := by
    rw [List.append_assoc]
    exact h.decode_of_stuck fun a ha => Option.some.inj ha ▸ hb
  exact absurd (eq_of_begins hbegins hdecode).1 (List.cons_ne_nil b [])

/-- Where the next byte cannot go on, no character reaches beyond what was seen. -/
theorem length_le_of_begins (h : p.After seen) (hne : ∀ b ∈ rest.head?, ¬ p.Admits b)
    {front : List UInt8} (hfront : front <+: seen ++ rest) (hbegins : Begins front) :
    front.length ≤ seen.length := by
  refine Nat.le_of_not_lt fun hlt => ?_
  obtain ⟨more, rfl⟩ := List.prefix_of_prefix_length_le (List.prefix_append seen rest) hfront
    (Nat.le_of_lt hlt)
  cases more with
  | nil => exact Nat.lt_irrefl _ (by rwa [List.append_nil] at hlt)
  | cons b more =>
      obtain ⟨after, rfl⟩ := (List.prefix_append_right_inj seen).mp hfront
      rw [← List.singleton_append, ← List.append_assoc] at hbegins
      exact h.not_begins (hne b rfl) (hbegins.front (List.prefix_append _ more))

/-- **Bytes given up** are the longest beginning of a character. -/
theorem unreadable (h : p.After seen) (hne : ∀ b ∈ rest.head?, ¬ p.Admits b) :
    Unreadable seen rest := by
  obtain ⟨n, hn⟩ := h.proper.exists_covers
  have hencode := h.encode n hn
  refine ⟨fun c hc => ?_, ?_, .inl ?_, fun _ => h.length_le_of_begins hne⟩
  · -- a character among the bytes given up would be a beginning of the one that they begin
    obtain ⟨more, rfl⟩ := List.prefix_of_prefix_length_le hc (List.prefix_append seen rest)
      (h.length_le_of_begins hne hc (begins_utf8EncodeChar c))
    rw [← List.append_nil (String.utf8EncodeChar (Char.ofNat n)), List.append_assoc] at hencode
    have hnil := (utf8EncodeChar_append_inj hencode).2
    exact List.cons_ne_nil _ _ (List.append_eq_nil_iff.mp hnil.symm).2
  · rintro rfl
    exact nomatch h.decode_append []
  · exact (begins_utf8EncodeChar (Char.ofNat n)).front (hencode ▸ List.prefix_append seen _)

/-- A byte with which something pending goes on, by the bits that it carries. -/
theorem exists_of_admits (h : p.After seen) (hb : p.Admits b) :
    ∃ v < 0x40, b = .ofNat (v + 0x80) ∧ p.low.toNat ≤ v + 0x80 ∧ v + 0x80 ≤ p.high.toNat := by
  obtain ⟨hge, -, hle⟩ := h.proper
  obtain ⟨hlow, hhigh⟩ := hb
  rw [UInt8.le_iff_toNat_le] at hlow hhigh
  have hv : b.toNat - 0x80 + 0x80 = b.toNat := by omega
  refine ⟨b.toNat - 0x80, by omega, ?_, by omega, by omega⟩
  rw [hv, UInt8.ofNat_toNat]

/-- What is pending becomes a character, or is given up. -/
theorem exists_first (h : p.After seen) (rest : List UInt8) :
    ∃ c after, First (seen ++ rest) c after ∧ decode (seen ++ rest) = c :: decode after := by
  induction rest generalizing p seen with
  | nil => exact ⟨replacement, [], .replaced rfl (h.unreadable nofun), h.decode_of_stuck nofun⟩
  | cons b rest ih =>
      by_cases hb : p.Admits b
      · obtain ⟨v, hv, rfl, hlow, hhigh⟩ := h.exists_of_admits hb
        obtain ⟨bits, more, low, high⟩ := p
        rw [← List.singleton_append, ← List.append_assoc]
        cases more with
        | zero =>
            have hlast := h.last hv hlow hhigh
            refine ⟨_, rest, .character (congrArg (· ++ rest) hlast), ?_⟩
            rw [hlast, decode_utf8EncodeChar]
        | succ more => exact ih (h.middle hv hlow hhigh)
      · have hne : ∀ a ∈ (b :: rest).head?, ¬ p.Admits a :=
          fun a ha => Option.some.inj ha ▸ hb
        exact ⟨replacement, b :: rest, .replaced rfl (h.unreadable hne), h.decode_of_stuck hne⟩

end Pending.After

/-! ## Decoding -/

theorem exists_first (hbytes : bytes ≠ []) :
    ∃ c rest, First bytes c rest ∧ decode bytes = c :: decode rest := by
  obtain ⟨b, bytes, rfl⟩ := List.exists_cons_of_ne_nil hbytes
  rw [← List.singleton_append]
  rcases begin_cases b with ⟨c, hc, -⟩ | ⟨p, hp, -⟩ | hbegin
  · rw [hc]
    exact ⟨c, bytes, .character rfl, decode_utf8EncodeChar c bytes⟩
  · exact hp.exists_first bytes
  · refine ⟨replacement, bytes, .replaced rfl (unreadable_singleton hbegin bytes), ?_⟩
    rw [List.singleton_append, decode_cons, hbegin]
    rfl

/-- Bytes stand for what they are decoded to. -/
theorem standsFor_decode (bytes : List UInt8) : StandsFor bytes (decode bytes) := by
  by_cases hbytes : bytes = []
  · rw [hbytes]
    exact .nil
  · obtain ⟨c, rest, hfirst, hdecode⟩ := exists_first hbytes
    have hlt := hfirst.length_lt
    rw [hdecode]
    exact .cons hfirst (standsFor_decode rest)
termination_by bytes.length

/-- **Decoding**: bytes stand for one text, the one that they are decoded to. -/
theorem standsFor_iff {text : List Char} : StandsFor bytes text ↔ text = decode bytes := by
  constructor
  · exact fun h => h.unique (standsFor_decode bytes)
  · rintro rfl
    exact standsFor_decode bytes

/-- A surrogate in three bytes is given up byte by byte, the beginning of a character at once. -/
example : decode [0xED, 0xA0, 0x80, 0xE2, 0x82, 0x22] =
    [replacement, replacement, replacement, replacement, '"'] := by
  decide

/-- **Texts without U+FFFD** are decoded from their own bytes only. -/
theorem decode_eq_iff {text : List Char} (htext : replacement ∉ text) :
    decode bytes = text ↔ bytes = text.flatMap String.utf8EncodeChar := by
  constructor
  · intro hdecode
    have h := standsFor_iff.mpr hdecode.symm
    clear hdecode
    induction h with
    | nil => rfl
    | cons hfirst _ ih =>
        rw [List.mem_cons, not_or] at htext
        cases hfirst with
        | character hbytes => rw [hbytes, ih htext.2, List.flatMap_cons]
        | replaced => exact absurd rfl htext.1
  · rintro rfl
    exact decode_encoded text

/-! ## ASCII bytes -/

/-- A byte below 0x80 is a character of its own. -/
theorem decode_cons_ascii (hb : b < 0x80) (rest : List UInt8) :
    decode (b :: rest) = Char.ofNat b.toNat :: decode rest := by
  rw [decode_cons, begin, if_pos hb]
  rfl

/-- What a first byte leaves pending is proper. -/
theorem proper_of_begin (h : (begin b).2 = some p) : p.Proper := by
  rcases begin_cases b with ⟨c, -, hbegin⟩ | ⟨q, hq, hbegin⟩ | hbegin <;> rw [hbegin] at h <;>
    cases h
  exact hq.proper

/-- What any byte leaves pending is proper. -/
theorem proper_of_step {p : Option Pending} {q : Pending} (h : (step p b).2 = some q) :
    q.Proper := by
  cases p with
  | none => exact proper_of_begin h
  | some p =>
      rw [step] at h
      split at h
      · dsimp only at h
        split at h
        · cases h
        · obtain rfl := Option.some.inj h
          exact Pending.proper_middle _ _
      · exact proper_of_begin h

/-- Nothing that is pending goes on with an ASCII byte. -/
theorem decodeFrom_append_ascii {p : Option Pending} (hp : ∀ q ∈ p, q.Proper) (hb : b < 0x80)
    (left right : List UInt8) :
    decodeFrom p (left ++ b :: right) = decodeFrom p left ++ decode (b :: right) := by
  induction left generalizing p with
  | nil =>
      cases p with
      | none => rfl
      | some p =>
          have hge := (hp p rfl).low_ge
          have hlt := UInt8.lt_iff_toNat_lt.mp hb
          have hlow : ¬ p.Admits b := fun h =>
            Nat.not_lt.mpr (UInt8.le_iff_toNat_le.mp h.1) (Nat.lt_of_lt_of_le hlt hge)
          rw [List.nil_append, decodeFrom_cons, step, if_neg hlow, decode_cons]
          rfl
  | cons a left ih =>
      rw [List.cons_append, decodeFrom_cons, decodeFrom_cons, List.append_assoc,
        ih fun q hq => proper_of_step hq]

/-- **ASCII bytes** are read by themselves, whatever stands before them. -/
theorem decode_append_ascii (hb : b < 0x80) (left right : List UInt8) :
    decode (left ++ b :: right) = decode left ++ Char.ofNat b.toNat :: decode right := by
  rw [← decode_cons_ascii hb]
  exact decodeFrom_append_ascii (fun q hq => by cases hq) hb left right

end MessageHarvest.Utf8
