import MessageHarvest.Text.Utf16

/-!
# Encoded texts are read back

The decoders undo the encodings: each takes a character off the front of whatever follows it.

* `Utf8.decode_two`, `Utf8.decode_three`, `Utf8.decode_four`: the bytes of a number, by how many
  they are. The narrowed ranges of the second byte are met since the number is not below the least
  one of its length, no surrogate, and not above U+10FFFF.
* **UTF-8** (`Utf8.decode_toUTF8`): the bytes of a text are read as the text.
* **UTF-16** (`Utf16.decode_encode`): so are its units.
-/

namespace MessageHarvest

namespace Utf8

/-! ## Bytes of a character -/

/-- A byte that stands for a character of its own. -/
theorem begin_one : ∀ n < 0x80, begin (.ofNat n) = ([Char.ofNat n], none) := by
  decide

/-- The first of two bytes. -/
theorem begin_two : ∀ n < 0x20, 2 ≤ n →
    begin (.ofNat (n + 0xC0)) = ([], some ⟨n, 0, 0x80, 0xBF⟩) := by
  decide

/-- The first of three bytes. -/
theorem begin_three : ∀ n < 0x10, begin (.ofNat (n + 0xE0)) =
    ([], some ⟨n, 1, if n = 0 then 0xA0 else 0x80, if n = 0xD then 0x9F else 0xBF⟩) := by
  decide

/-- The first of four bytes. -/
theorem begin_four : ∀ n < 5, begin (.ofNat (n + 0xF0)) =
    ([], some ⟨n, 2, if n = 0 then 0x90 else 0x80, if n = 4 then 0x8F else 0xBF⟩) := by
  decide

/-- A further byte carries six bits. -/
theorem step_of_le {p : Pending} {v : Nat} (hv : v < 0x40) (hlow : p.low.toNat ≤ v + 0x80)
    (hhigh : v + 0x80 ≤ p.high.toNat) :
    step (some p) (.ofNat (v + 0x80)) =
      match p.more with
      | 0 => ([Char.ofNat (p.bits * 0x40 + v)], none)
      | more + 1 => ([], some ⟨p.bits * 0x40 + v, more, 0x80, 0xBF⟩) := by
  have hbyte : (UInt8.ofNat (v + 0x80)).toNat = v + 0x80 :=
    UInt8.toNat_ofNat_of_lt' (Nat.lt_trans (Nat.add_lt_add_right hv 0x80) (by decide))
  have hrange : p.low ≤ .ofNat (v + 0x80) ∧ UInt8.ofNat (v + 0x80) ≤ p.high := by
    rw [UInt8.le_iff_toNat_le, UInt8.le_iff_toNat_le, hbyte]
    exact ⟨hlow, hhigh⟩
  obtain ⟨bits, more, low, high⟩ := p
  cases more <;> simp only [step, if_pos hrange, hbyte, Nat.add_sub_cancel]

/-- Each byte is read in the state that the ones before it have left. -/
theorem decodeFrom_cons (p : Option Pending) (b : UInt8) (rest : List UInt8) :
    decodeFrom p (b :: rest) = (step p b).1 ++ decodeFrom (step p b).2 rest := by
  cases p <;> rfl

/-- The last byte of a character. -/
theorem decodeFrom_last {bits : Nat} {low high : UInt8} {v : Nat} (hv : v < 0x40)
    (hlow : low.toNat ≤ v + 0x80) (hhigh : v + 0x80 ≤ high.toNat) (rest : List UInt8) :
    decodeFrom (some ⟨bits, 0, low, high⟩) (.ofNat (v + 0x80) :: rest) =
      Char.ofNat (bits * 0x40 + v) :: decode rest := by
  rw [decodeFrom_cons, step_of_le hv hlow hhigh]
  rfl

/-- A byte of a character that is neither the first nor the last one. -/
theorem decodeFrom_middle {bits more : Nat} {low high : UInt8} {v : Nat} (hv : v < 0x40)
    (hlow : low.toNat ≤ v + 0x80) (hhigh : v + 0x80 ≤ high.toNat) (rest : List UInt8) :
    decodeFrom (some ⟨bits, more + 1, low, high⟩) (.ofNat (v + 0x80) :: rest) =
      decodeFrom (some ⟨bits * 0x40 + v, more, 0x80, 0xBF⟩) rest := by
  rw [decodeFrom_cons, step_of_le hv hlow hhigh]
  rfl

/-! ## Characters and texts as bytes -/

/-- Two bytes that encode a number stand for its character. -/
theorem decode_two {n : Nat} (hlow : 0x7F < n) (hhigh : n ≤ 0x7FF) (rest : List UInt8) :
    decode (.ofNat (n / 0x40 % 0x20 + 0xC0) :: .ofNat (n % 0x40 + 0x80) :: rest) =
      Char.ofNat n :: decode rest := by
  rw [decode_cons, begin_two _ (by omega) (by omega),
    decodeFrom_last (by omega) (Nat.le_add_left 0x80 _) (show _ ≤ 0xBF by omega)]
  have hbits : n / 0x40 % 0x20 * 0x40 + n % 0x40 = n := by omega
  rw [hbits]
  rfl

/-- So do three bytes, if the number is no surrogate. -/
theorem decode_three {n : Nat} (hlow : 0x7FF < n) (hhigh : n ≤ 0xFFFF)
    (hvalid : n < 0xD800 ∨ 0xDFFF < n) (rest : List UInt8) :
    decode (.ofNat (n / 0x1000 % 0x10 + 0xE0) :: .ofNat (n / 0x40 % 0x40 + 0x80) ::
      .ofNat (n % 0x40 + 0x80) :: rest) = Char.ofNat n :: decode rest := by
  have hsecond : (if n / 0x1000 % 0x10 = 0 then 0xA0 else 0x80 : UInt8).toNat ≤
      n / 0x40 % 0x40 + 0x80 := by
    split
    · show 0xA0 ≤ _
      omega
    · exact Nat.le_add_left 0x80 _
  have hsurrogate : n / 0x40 % 0x40 + 0x80 ≤
      (if n / 0x1000 % 0x10 = 0xD then 0x9F else 0xBF : UInt8).toNat := by
    split
    · show _ ≤ 0x9F
      omega
    · show _ ≤ 0xBF
      omega
  rw [decode_cons, begin_three _ (by omega), decodeFrom_middle (by omega) hsecond hsurrogate,
    decodeFrom_last (by omega) (Nat.le_add_left 0x80 _) (show _ ≤ 0xBF by omega)]
  have hbits : (n / 0x1000 % 0x10 * 0x40 + n / 0x40 % 0x40) * 0x40 + n % 0x40 = n := by omega
  rw [hbits]
  rfl

/-- So do four. -/
theorem decode_four {n : Nat} (hlow : 0xFFFF < n) (hhigh : n < 0x110000) (rest : List UInt8) :
    decode (.ofNat (n / 0x40000 % 8 + 0xF0) :: .ofNat (n / 0x1000 % 0x40 + 0x80) ::
      .ofNat (n / 0x40 % 0x40 + 0x80) :: .ofNat (n % 0x40 + 0x80) :: rest) =
      Char.ofNat n :: decode rest := by
  have hsecond : (if n / 0x40000 % 8 = 0 then 0x90 else 0x80 : UInt8).toNat ≤
      n / 0x1000 % 0x40 + 0x80 := by
    split
    · show 0x90 ≤ _
      omega
    · exact Nat.le_add_left 0x80 _
  have hlast : n / 0x1000 % 0x40 + 0x80 ≤
      (if n / 0x40000 % 8 = 4 then 0x8F else 0xBF : UInt8).toNat := by
    split
    · show _ ≤ 0x8F
      omega
    · show _ ≤ 0xBF
      omega
  rw [decode_cons, begin_four _ (by omega), decodeFrom_middle (by omega) hsecond hlast,
    decodeFrom_middle (by omega) (Nat.le_add_left 0x80 _) (show _ ≤ 0xBF by omega),
    decodeFrom_last (by omega) (Nat.le_add_left 0x80 _) (show _ ≤ 0xBF by omega)]
  have hbits : ((n / 0x40000 % 8 * 0x40 + n / 0x1000 % 0x40) * 0x40 + n / 0x40 % 0x40) * 0x40 +
      n % 0x40 = n := by omega
  rw [hbits]
  rfl

/-- **Characters** are taken off the front of any bytes. -/
theorem decode_utf8EncodeChar (c : Char) (rest : List UInt8) :
    decode (String.utf8EncodeChar c ++ rest) = c :: decode rest := by
  have hvalid : c.val.toNat < 0xD800 ∨ 0xDFFF < c.val.toNat ∧ c.val.toNat < 0x110000 := c.valid
  have hchar : Char.ofNat c.val.toNat = c := Char.ofNat_toNat c
  rw [String.utf8EncodeChar]
  generalize c.val.toNat = n at hvalid hchar ⊢
  rw [← hchar]
  split
  · rw [List.singleton_append, decode_cons, begin_one n (by omega)]
    rfl
  split
  · exact decode_two (by omega) (by omega) rest
  split
  · exact decode_three (by omega) (by omega) (by omega) rest
  · exact decode_four (by omega) (by omega) rest

/-- The bytes of a text. -/
theorem toList_data_toUTF8 (s : String) :
    s.toUTF8.data.toList = s.toList.flatMap String.utf8EncodeChar := by
  conv => lhs; rw [← String.ofList_toList (s := s)]
  rw [String.toUTF8_eq_toByteArray, String.toByteArray_ofList, List.utf8Encode,
    List.data_toByteArray]

/-- The bytes of a text are decoded to the text, whatever follows. -/
theorem decode_flatMap_utf8EncodeChar (cs : List Char) (rest : List UInt8) :
    decode (cs.flatMap String.utf8EncodeChar ++ rest) = cs ++ decode rest := by
  induction cs with
  | nil => rfl
  | cons c cs ih =>
    rw [List.flatMap_cons, List.append_assoc, decode_utf8EncodeChar, ih, List.cons_append]

/-- The bytes of a text are decoded to the text. -/
theorem decode_encoded (cs : List Char) : decode (cs.flatMap String.utf8EncodeChar) = cs := by
  have hdecode := decode_flatMap_utf8EncodeChar cs []
  rwa [List.append_nil, decode_nil, List.append_nil] at hdecode

/-- **Texts** are read back. -/
theorem decode_toUTF8 (s : String) : decode s.toUTF8.data.toList = s.toList := by
  rw [toList_data_toUTF8, decode_encoded]

end Utf8

namespace Utf16

/-! ## Characters and texts as units -/

/-- A unit that is no half of a pair is read by itself, whatever follows. -/
theorem decode_cons_of_single {u : UInt16} (hhigh : isHigh u = false) (hlow : isLow u = false)
    (rest : List UInt16) : decode (u :: rest) = Char.ofNat u.toNat :: decode rest := by
  cases rest with
  | nil => simp [decode, hhigh, hlow]
  | cons v rest => simp [decode, hhigh, hlow]

/-- The two halves of a pair are read together. -/
theorem decode_cons_of_pair {u v : UInt16} (hhigh : isHigh u = true) (hlow : isLow v = true)
    (rest : List UInt16) : decode (u :: v :: rest) = pair u v :: decode rest := by
  simp [decode, hhigh, hlow]

/-- High surrogates are the units of a range. -/
theorem isHigh_eq_decide (u : UInt16) :
    isHigh u = decide (0xD800 ≤ u.toNat ∧ u.toNat ≤ 0xDBFF) := by
  rw [isHigh, Bool.decide_and]
  rfl

/-- Low surrogates are the units of the range behind it. -/
theorem isLow_eq_decide (u : UInt16) :
    isLow u = decide (0xDC00 ≤ u.toNat ∧ u.toNat ≤ 0xDFFF) := by
  rw [isLow, Bool.decide_and]
  rfl

/-- **Characters** are taken off the front of any units. -/
theorem decode_ofCodePoint (c : Char) (rest : List UInt16) :
    decode (ofCodePoint c.toNat ++ rest) = c :: decode rest := by
  have hvalid : c.toNat < 0xD800 ∨ 0xDFFF < c.toNat ∧ c.toNat < 0x110000 := c.valid
  have hchar : Char.ofNat c.toNat = c := Char.ofNat_toNat c
  have hunit : ∀ m < 0x10000, m.toUInt16.toNat = m := fun m hm => UInt16.toNat_ofNat_of_lt' hm
  generalize c.toNat = n at hvalid hchar ⊢
  rw [← hchar, ofCodePoint]
  split
  · next hn =>
    have hhigh : isHigh n.toUInt16 = false := by
      rw [isHigh_eq_decide, hunit n hn]
      simp only [decide_eq_false_iff_not]
      omega
    have hlow : isLow n.toUInt16 = false := by
      rw [isLow_eq_decide, hunit n hn]
      simp only [decide_eq_false_iff_not]
      omega
    rw [List.singleton_append, decode_cons_of_single hhigh hlow, hunit n hn]
  · next hn =>
    have hfirst := hunit (0xD800 + (n - 0x10000) / 0x400) (by omega)
    have hsecond := hunit (0xDC00 + (n - 0x10000) % 0x400) (by omega)
    have hhigh : isHigh (0xD800 + (n - 0x10000) / 0x400).toUInt16 = true := by
      rw [isHigh_eq_decide, hfirst]
      simp only [decide_eq_true_eq]
      omega
    have hlow : isLow (0xDC00 + (n - 0x10000) % 0x400).toUInt16 = true := by
      rw [isLow_eq_decide, hsecond]
      simp only [decide_eq_true_eq]
      omega
    have hpair : 0x10000 + (0xD800 + (n - 0x10000) / 0x400 - 0xD800) * 0x400 +
        (0xDC00 + (n - 0x10000) % 0x400 - 0xDC00) = n := by
      omega
    rw [List.cons_append, List.singleton_append, decode_cons_of_pair hhigh hlow, pair, hfirst,
      hsecond, hpair]

/-- **Texts** are read back. -/
theorem decode_encode (cs : List Char) : decode (encode cs) = cs := by
  induction cs with
  | nil => rfl
  | cons c cs ih => rw [encode_cons, decode_ofCodePoint, ih]

end Utf16

end MessageHarvest
