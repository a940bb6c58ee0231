import MessageHarvest.Proofs.Text.Encoding

/-!
# What UTF-16 units stand for

`Utf16.decode` reads units in one go from left to right. Here what they stand for is said by rules,
one for each way in which a unit can stand: by itself, as a half of a pair, or as a half without its
other half.

* `StandsFor units text`: the units stand for the text.
* **Decoding** (`standsFor_iff`): units stand for one text only, the one that they are decoded to.
* Units may be decoded apart wherever they do not divide a pair (`decode_append`), in particular
  before and behind a character that is no surrogate (`standsFor_append_ofCodePoint_iff`).
-/

namespace MessageHarvest.Utf16

/-- The units stand for the text. A high surrogate directly before a low one is one character with
it, and every other surrogate is one U+FFFD. -/
inductive StandsFor : List UInt16 → List Char → Prop
  | nil : StandsFor [] []
  | single {u : UInt16} {units : List UInt16} {text : List Char} (hhigh : isHigh u = false)
      (hlow : isLow u = false) (h : StandsFor units text) :
      StandsFor (u :: units) (Char.ofNat u.toNat :: text)
  | pair {u v : UInt16} {units : List UInt16} {text : List Char} (hhigh : isHigh u = true)
      (hlow : isLow v = true) (h : StandsFor units text) :
      StandsFor (u :: v :: units) (pair u v :: text)
  | loneHigh {u : UInt16} {units : List UInt16} {text : List Char} (hhigh : isHigh u = true)
      (hnext : ∀ v ∈ units.head?, isLow v = false) (h : StandsFor units text) :
      StandsFor (u :: units) ('\uFFFD' :: text)
  | loneLow {u : UInt16} {units : List UInt16} {text : List Char} (hlow : isLow u = true)
      (h : StandsFor units text) : StandsFor (u :: units) ('\uFFFD' :: text)

/-- No unit is the first half of one pair and the second half of another. -/
theorem isHigh_eq_false_of_isLow {u : UInt16} (h : isLow u = true) : isHigh u = false := by
  rw [isLow_eq_decide, decide_eq_true_eq] at h
  rw [isHigh_eq_decide, decide_eq_false_iff_not]
  omega

/-- A high surrogate that no low one follows is replaced. -/
theorem decode_cons_of_loneHigh {u : UInt16} {units : List UInt16} (hhigh : isHigh u = true)
    (hnext : ∀ v ∈ units.head?, isLow v = false) :
    decode (u :: units) = '\uFFFD' :: decode units := by
  cases units with
  | nil => simp [decode, hhigh, Utf8.replacement]
  | cons v units => simp [decode, hhigh, hnext v rfl, Utf8.replacement]

/-- A low surrogate that follows no high one is replaced. -/
theorem decode_cons_of_low {u : UInt16} (hlow : isLow u = true) (units : List UInt16) :
    decode (u :: units) = '\uFFFD' :: decode units := by
  have hhigh := isHigh_eq_false_of_isLow hlow
  cases units with
  | nil => simp [decode, hlow, Utf8.replacement]
  | cons v units => simp [decode, hhigh, hlow, Utf8.replacement]

/-- Units stand for what they are decoded to. -/
theorem standsFor_decode (units : List UInt16) : StandsFor units (decode units) := by
  fun_induction decode units with
  | case1 => exact .nil
  | case2 u h =>
      cases hhigh : isHigh u with
      | true => exact .loneHigh hhigh nofun .nil
      | false => exact .loneLow (by simpa [hhigh] using h) .nil
  | case3 u h =>
      rw [Bool.or_eq_true, not_or, Bool.not_eq_true, Bool.not_eq_true] at h
      exact .single h.1 h.2 .nil
  | case4 u v rest hhigh hlow ih => exact .pair hhigh hlow ih
  | case5 u v rest hhigh hlow ih =>
      refine .loneHigh hhigh (fun w hw => ?_) ih
      obtain rfl : v = w := Option.some.inj hw
      simpa using hlow
  | case6 u v rest hhigh hlow ih => exact .loneLow hlow ih
  | case7 u v rest hhigh hlow ih => exact .single (by simpa using hhigh) (by simpa using hlow) ih

/-- **Decoding**: units stand for one text, the one that they are decoded to. -/
theorem standsFor_iff {units : List UInt16} {text : List Char} :
    StandsFor units text ↔ text = decode units := by
  constructor
  · intro h
    induction h with
    | nil => rfl
    | single hhigh hlow _ ih => rw [decode_cons_of_single hhigh hlow, ih]
    | pair hhigh hlow _ ih => rw [decode_cons_of_pair hhigh hlow, ih]
    | loneHigh hhigh hnext _ ih => rw [decode_cons_of_loneHigh hhigh hnext, ih]
    | loneLow hlow _ ih => rw [decode_cons_of_low hlow, ih]
  · rintro rfl
    exact standsFor_decode units

/-- Units are decoded apart unless a low surrogate stands where they are divided. -/
theorem decode_append {left right : List UInt16} (hright : ∀ v ∈ right.head?, isLow v = false) :
    decode (left ++ right) = decode left ++ decode right := by
  have happend {units : List UInt16} {text : List Char} (h : StandsFor units text) :
      StandsFor (units ++ right) (text ++ decode right) := by
    induction h with
    | nil => exact standsFor_decode right
    | single hhigh hlow _ ih => exact .single hhigh hlow ih
    | pair hhigh hlow _ ih => exact .pair hhigh hlow ih
    | @loneHigh u units text hhigh hnext _ ih =>
        refine .loneHigh hhigh ?_ ih
        cases units with
        | nil => exact hright
        | cons v units => exact hnext
    | loneLow hlow _ ih => exact .loneLow hlow ih
  exact (standsFor_iff.mp (happend (standsFor_decode left))).symm

/-- The units of a character do not begin with the second half of a pair. -/
theorem isLow_eq_false_of_mem_head? {c : Char} {rest : List UInt16} {v : UInt16}
    (hv : v ∈ (ofCodePoint c.toNat ++ rest).head?) : isLow v = false := by
  have hvalid : c.toNat < 0xD800 ∨ 0xDFFF < c.toNat ∧ c.toNat < 0x110000 := c.valid
  have hunit {m : Nat} (hm : m < 0x10000) (hlow : m < 0xDC00 ∨ 0xDFFF < m) :
      isLow m.toUInt16 = false := by
    rw [isLow_eq_decide, decide_eq_false_iff_not, UInt16.toNat_ofNat_of_lt' hm]
    omega
  rw [ofCodePoint] at hv
  split at hv
  · obtain rfl : c.toNat.toUInt16 = v := Option.some.inj hv
    exact hunit (by omega) (by omega)
  · obtain rfl : (0xD800 + (c.toNat - 0x10000) / 0x400).toUInt16 = v := Option.some.inj hv
    exact hunit (by omega) (by omega)

/-- **Characters** that are no surrogates stay as they are, between what stands before them and what
stands behind. -/
theorem standsFor_append_ofCodePoint_iff {left right : List UInt16} {c : Char} {text : List Char} :
    StandsFor (left ++ (ofCodePoint c.toNat ++ right)) text ↔
      ∃ before after, StandsFor left before ∧ StandsFor right after ∧
        text = before ++ c :: after := by
  simp only [standsFor_iff, decode_append fun _ hv => isLow_eq_false_of_mem_head? hv,
    decode_ofCodePoint]
  constructor
  · exact fun h => ⟨_, _, rfl, rfl, h⟩
  · rintro ⟨_, _, rfl, rfl, h⟩
    exact h

end MessageHarvest.Utf16
