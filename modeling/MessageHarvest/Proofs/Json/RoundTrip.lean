import MessageHarvest.Json.Reader
import MessageHarvest.Json.Writer
import Mathlib.Data.List.TakeWhile

/-!
# What is written is read back

The reader undoes the writer: piece by piece in strings, by the longest row of digits in numbers,
and in arrays and objects item by item.

* `readString_writeString`, `readNumber_writeInteger`: strings, whatever stands behind them, and
  integers, if what stands behind them does not look like more of the number (`EndsNumber`).
* `ReadBack`: what it is for a reader to take a value back that has been written at any margin.
  Arrays and objects are taken back if what is in them is (`readBack_array`, `readBack_object`).
* `Plain`: the values that are nested no deeper than the reader goes, and hold no number in a
  spelling of its own. They are taken back (`Plain.readBack`).
* **Round trip** (`readNested?_write`): the text of such a value, with blanks behind it, is read as
  the value.
-/

namespace MessageHarvest.Json

/-! ## Strings -/

/-- A digit that was written is read as its value. -/
theorem hexDigit?_hexDigit : ∀ n < 16, Escape.hexDigit? (hexDigit n) = some n := by
  decide

/-- Two digits behind two zeros stand for a number below 256. -/
theorem hex4?_hexDigit {n : Nat} (h : n < 256) :
    hex4? '0' '0' (hexDigit (n / 16)) (hexDigit (n % 16)) = some n := by
  have hzero : Escape.hexDigit? '0' = some 0 := by decide
  have hhigh : Escape.hexDigit? (hexDigit (n / 16)) = some (n / 16) :=
    hexDigit?_hexDigit _ (by omega)
  have hlow : Escape.hexDigit? (hexDigit (n % 16)) = some (n % 16) :=
    hexDigit?_hexDigit _ (by omega)
  have hall : Escape.allHex ['0', '0', hexDigit (n / 16), hexDigit (n % 16)] = true := by
    simp [Escape.allHex, hzero, hhigh, hlow]
  have hvalue : Escape.hexValue 0 ['0', '0', hexDigit (n / 16), hexDigit (n % 16)] = n := by
    simp only [Escape.hexValue, List.foldl_cons, List.foldl_nil, hzero, hhigh, hlow,
      Option.getD_some]
    omega
  rw [hex4?, if_pos hall, hvalue]

/-- A quote ends a string. -/
theorem readChars_quote (done rest : List Char) :
    readChars done ('"' :: rest) = some (String.ofList done.reverse, rest) := by
  rw [readChars]

/-- A short escape stands for one character. -/
theorem readChars_simpleEscape {c x : Char} (h : simpleEscape? c = some x)
    (done rest : List Char) : readChars done ('\\' :: c :: rest) = readChars (x :: done) rest := by
  have hu : c ≠ 'u' := by
    intro hc
    have hnone : simpleEscape? 'u' = none := by decide
    rw [hc, hnone] at h
    cases h
  rw [readChars.eq_def]
  simp [h, hu]

/-- An escape with four digits stands for the character of that number, below the surrogates. -/
theorem readChars_codeEscape {a b c d : Char} {n : Nat} (h : hex4? a b c d = some n)
    (hn : n < 0xD800) (done rest : List Char) :
    readChars done ('\\' :: 'u' :: a :: b :: c :: d :: rest) =
      readChars (Char.ofNat n :: done) rest := by
  have hhigh : ¬ (0xD800 ≤ n ∧ n ≤ 0xDBFF) := by omega
  have hlow : ¬ (0xDC00 ≤ n ∧ n ≤ 0xDFFF) := by omega
  rw [readChars, h]
  dsimp only
  rw [if_neg hhigh, if_neg hlow]

/-- Any other character that is no control character stands for itself. -/
theorem readChars_plain {c : Char} (hquote : c ≠ '"') (hslash : c ≠ '\\')
    (hcontrol : ¬ c.toNat < 0x20) (done rest : List Char) :
    readChars done (c :: rest) = readChars (c :: done) rest := by
  rw [readChars.eq_def]
  simp [hslash, hcontrol]

/-- A character is read back, however it is written. -/
theorem readChars_writeChar (done : List Char) (c : Char) (rest : List Char) :
    readChars done (writeChar c ++ rest) = readChars (c :: done) rest := by
  unfold writeChar
  split
  -- the last case is that of the characters without an escape of their own
  case h_8 hquote hslash _ _ _ _ _ =>
    by_cases hcontrol : c.toNat < 0x20
    · rw [if_pos hcontrol]
      have hread := readChars_codeEscape (hex4?_hexDigit (Nat.lt_trans hcontrol (by decide)))
        (Nat.lt_trans hcontrol (by decide)) done rest
      rw [Char.ofNat_toNat] at hread
      exact hread
    · rw [if_neg hcontrol]
      exact readChars_plain hquote hslash hcontrol done rest
  all_goals exact readChars_simpleEscape (by decide) done rest

/-- The characters of a written string are read back, and what was read before stays in front. -/
theorem readChars_writeChars (done cs rest : List Char) :
    readChars done (cs.flatMap writeChar ++ '"' :: rest) =
      some (String.ofList (done.reverse ++ cs), rest) := by
  induction cs generalizing done with
  | nil => rw [List.flatMap_nil, List.nil_append, readChars_quote, List.append_nil]
  | cons c cs ih =>
    rw [List.flatMap_cons, List.append_assoc, readChars_writeChar, ih, List.reverse_cons,
      List.append_assoc]
    rfl

/-- **Strings** are read back, whatever characters are in them. -/
theorem readString_writeString (s : String) (rest : List Char) :
    readString (writeString s ++ rest) = some (s, rest) := by
  have hread := readChars_writeChars [] s.toList rest
  rw [List.reverse_nil, List.nil_append, String.ofList_toList] at hread
  have htext : writeString s ++ rest = '"' :: (s.toList.flatMap writeChar ++ '"' :: rest) := by
    simp [writeString]
  rw [htext]
  exact hread

/-! ## Numbers -/

/-- A digit is none of the other characters. -/
theorem ne_of_isDigit {c x : Char} (hc : c.isDigit = true) (hx : x.isDigit = false) : c ≠ x := by
  rintro rfl
  rw [hx] at hc
  cases hc

/-- The text does not begin with what could go on with an integer. -/
def EndsNumber (rest : List Char) : Prop :=
  ∀ c ∈ rest.head?, c.isDigit = false ∧ c ≠ '.' ∧ c ≠ 'e' ∧ c ≠ 'E'

/-- A number ends before a character that could not go on with it. -/
theorem endsNumber_cons {c : Char} (hdigit : c.isDigit = false) (hdot : c ≠ '.') (he : c ≠ 'e')
    (hE : c ≠ 'E') (rest : List Char) : EndsNumber (c :: rest) := by
  intro x hx
  rw [List.head?_cons, Option.mem_some_iff] at hx
  subst hx
  exact ⟨hdigit, hdot, he, hE⟩

/-- The digits of a number are read to their end. -/
theorem spanDigits_append {ds rest : List Char} (hds : ∀ c ∈ ds, c.isDigit = true)
    (hrest : EndsNumber rest) : spanDigits (ds ++ rest) = (ds, rest) := by
  have htake : rest.takeWhile Char.isDigit = [] := by
    cases rest with
    | nil => rfl
    | cons c rest => rw [List.takeWhile_cons_of_neg (by simp [(hrest c rfl).1])]
  have hdrop : rest.dropWhile Char.isDigit = rest := by
    cases rest with
    | nil => rfl
    | cons c rest => rw [List.dropWhile_cons_of_neg (by simp [(hrest c rfl).1])]
  rw [spanDigits, List.takeWhile_append_of_pos hds, List.dropWhile_append_of_pos hds, htake, hdrop,
    List.append_nil]

/-- Where a number ends there is no fraction. -/
theorem readFraction_of_endsNumber {rest : List Char} (h : EndsNumber rest) :
    readFraction rest = some ([], rest) := by
  unfold readFraction
  split
  · exact absurd rfl (h '.' rfl).2.1
  · rfl

/-- Where a number ends there is no exponent. -/
theorem readExponent_of_endsNumber {rest : List Char} (h : EndsNumber rest) :
    readExponent rest = some ([], rest) := by
  unfold readExponent
  split
  · rfl
  · next c rest =>
    obtain ⟨-, -, he, hE⟩ := h c rfl
    rw [if_neg (by simp [he, hE])]

/-- The characters are an integer in decimal: digits, and no zero in front of others. -/
structure IsDecimal (ds : List Char) : Prop where
  digits : ∀ c ∈ ds, c.isDigit = true
  shape : (!ds.isEmpty && (ds.length = 1 || ds.head? != some '0')) = true

/-- A number that is not zero is written without a zero in front. -/
theorem head?_toDigits_ne_zero {n : Nat} (h : 0 < n) : (Nat.toDigits 10 n).head? ≠ some '0' := by
  induction n using Nat.strongRecOn with
  | ind n ih =>
    by_cases hsmall : n < 10
    · have hdigit : ∀ m < 10, 0 < m → Nat.digitChar m ≠ '0' := by decide
      rw [Nat.toDigits_of_lt_base hsmall]
      simpa using hdigit n hsmall h
    · rw [Nat.toDigits_of_base_le (by decide) (Nat.le_of_not_lt hsmall)]
      have hrest := ih (n / 10) (by omega) (by omega)
      cases hds : Nat.toDigits 10 (n / 10) with
      | nil => exact absurd hds Nat.toDigits_ne_nil
      | cons d ds =>
        rw [hds] at hrest
        exact hrest

/-- The digits that are written for a number are its decimal. -/
theorem isDecimal_toDigits (n : Nat) : IsDecimal (Nat.toDigits 10 n) := by
  refine ⟨fun c hc => Nat.isDigit_of_mem_toDigits (by decide) (by decide) hc, ?_⟩
  rcases Nat.eq_zero_or_pos n with rfl | hn
  · rfl
  · have hempty : (Nat.toDigits 10 n).isEmpty = false := by
      rw [List.isEmpty_eq_false_iff]
      exact Nat.toDigits_ne_nil
    simp [hempty, head?_toDigits_ne_zero hn]

/-- A written number begins with a digit. -/
theorem IsDecimal.exists_cons {ds : List Char} (h : IsDecimal ds) :
    ∃ d tail, ds = d :: tail ∧ d.isDigit = true := by
  cases ds with
  | nil => exact absurd h.shape (by decide)
  | cons d tail => exact ⟨d, tail, rfl, h.digits d List.mem_cons_self⟩

/-- A decimal is read as its number, with or without a minus in front. -/
theorem readNumber_decimal (negative : Bool) {ds rest : List Char} (h : IsDecimal ds)
    (hrest : EndsNumber rest) :
    readNumber ((if negative then ['-'] else []) ++ (ds ++ rest)) =
      some (.integer (if negative then -(Nat.ofDigitChars 10 ds 0 : Int)
        else Nat.ofDigitChars 10 ds 0), rest) := by
  generalize hcs : (if negative then ['-'] else []) ++ (ds ++ rest) = cs
  have hminus : (cs.head? == some '-') = negative := by
    obtain ⟨d, tail, hds, hd⟩ := h.exists_cons
    have hne : d ≠ '-' := ne_of_isDigit hd (by decide)
    rw [← hcs, hds]
    cases negative with
    | false => simp [hne]
    | true => rfl
  have hdigits : (if negative then cs.tail else cs) = ds ++ rest := by
    rw [← hcs]
    cases negative <;> rfl
  have hshape : (guard (!ds.isEmpty && (ds.length = 1 || ds.head? != some '0')) : Option Unit) =
      some () := if_pos h.shape
  unfold readNumber
  rw [hminus]
  dsimp only
  rw [hdigits, spanDigits_append h.digits hrest]
  dsimp only
  rw [hshape, readFraction_of_endsNumber hrest]
  simp only [Option.pure_def, Option.bind_eq_bind, Option.bind_some,
    readExponent_of_endsNumber hrest]
  rfl

/-- **Integers** are read back, if what follows is no part of a number. -/
theorem readNumber_writeInteger (n : Int) {rest : List Char} (hrest : EndsNumber rest) :
    readNumber (writeInteger n ++ rest) = some (.integer n, rest) := by
  cases n with
  | ofNat n =>
    have hread := readNumber_decimal false (isDecimal_toDigits n) hrest
    rw [Nat.ofDigitChars_ten_toDigits] at hread
    exact hread
  | negSucc n =>
    have hread := readNumber_decimal true (isDecimal_toDigits (n + 1)) hrest
    rw [Nat.ofDigitChars_ten_toDigits] at hread
    exact hread

/-! ## Blanks -/

/-- No more is skipped than blanks. -/
theorem skipBlank_cons {c : Char} (h : isBlank c = false) (cs : List Char) :
    skipBlank (c :: cs) = c :: cs := by
  rw [skipBlank, List.dropWhile_cons_of_neg (by simp [h])]

/-- A line end and its margin are skipped. -/
theorem skipBlank_newLine (margin : Nat) (cs : List Char) :
    skipBlank (newLine margin ++ cs) = skipBlank cs := by
  have hall : ∀ c ∈ newLine margin, isBlank c = true := by
    intro c hc
    rcases List.mem_cons.mp hc with rfl | hc
    · rfl
    · rw [List.eq_of_mem_replicate hc]
      rfl
  rw [skipBlank, List.dropWhile_append_of_pos hall, skipBlank]

/-- A number ends before blanks. -/
theorem endsNumber_of_isBlank {cs : List Char} (h : ∀ c ∈ cs, isBlank c = true) :
    EndsNumber cs := by
  intro c hc
  have hblank := h c (List.mem_of_mem_head? hc)
  simp only [isBlank, Bool.or_eq_true, decide_eq_true_eq] at hblank
  rcases hblank with ((rfl | rfl) | rfl) | rfl <;> decide

/-- A number ends before a line end. -/
theorem endsNumber_newLine (margin : Nat) (cs : List Char) :
    EndsNumber (newLine margin ++ cs) :=
  endsNumber_cons (by decide) (by decide) (by decide) (by decide) _

/-- A digit is no blank. -/
theorem isBlank_eq_false_of_isDigit {c : Char} (h : c.isDigit = true) : isBlank c = false := by
  have hspace : c ≠ ' ' := ne_of_isDigit h (by decide)
  have hfeed : c ≠ '\n' := ne_of_isDigit h (by decide)
  have hreturn : c ≠ '\r' := ne_of_isDigit h (by decide)
  have htab : c ≠ '\t' := ne_of_isDigit h (by decide)
  simp [isBlank, hspace, hfeed, hreturn, htab]

/-! ## Values that a reader takes back -/

/-- What is written for the value, at any margin, begins as no blank and no end of an array does,
and the reader takes the value off any text that it begins. -/
structure ReadBack (item : Reader Json) (v : Json) : Prop where
  head (margin : Nat) : ∃ c tail, writeValue margin v = c :: tail ∧ isBlank c = false ∧ c ≠ ']'
  read (margin : Nat) (rest : List Char) :
    EndsNumber rest → item (writeValue margin v ++ rest) = some (v, rest)

variable {item : Reader Json}

/-- A written value begins with no blanks. -/
theorem ReadBack.skipBlank_eq {v : Json} (h : ReadBack item v) (margin : Nat) (rest : List Char) :
    skipBlank (writeValue margin v ++ rest) = writeValue margin v ++ rest := by
  obtain ⟨c, tail, hc, hblank, -⟩ := h.head margin
  rw [hc, List.cons_append, skipBlank_cons hblank]

/-- A written null is read back. -/
theorem readBack_null (item : Reader Json) : ReadBack (readWith item) .null where
  head _ := ⟨'n', _, rfl, by decide, by decide⟩
  read _ _ _ := rfl

/-- A written truth value is read back. -/
theorem readBack_bool (item : Reader Json) (b : Bool) : ReadBack (readWith item) (.bool b) where
  head _ := by
    cases b
    · exact ⟨'f', _, rfl, by decide, by decide⟩
    · exact ⟨'t', _, rfl, by decide, by decide⟩
  read _ _ _ := by
    cases b <;> rfl

/-- A written string is read back. -/
theorem readBack_string (item : Reader Json) (s : String) :
    ReadBack (readWith item) (.string s) where
  head _ := ⟨'"', _, rfl, by decide, by decide⟩
  read margin rest _ := by
    have hread := readString_writeString s rest
    rw [writeString, List.cons_append, List.cons_append, readString] at hread
    rw [writeValue, writeString, List.cons_append, List.cons_append, readWith, hread]
    rfl

/-- A value that begins with a digit is a number. -/
theorem readWith_digit (item : Reader Json) {d : Char} (hd : d.isDigit = true) (cs : List Char) :
    readWith item (d :: cs) = readNumber (d :: cs) := by
  have hne : ∀ x, x.isDigit = false → d ≠ x := fun x => ne_of_isDigit hd
  rw [readWith.eq_def]
  simp [hne '"' rfl, hne '[' rfl, hne '{' rfl, hne 'n' rfl, hne 't' rfl, hne 'f' rfl,
    hne 'N' rfl, hne 'I' rfl, hne '-' rfl]

/-- So is one that begins with a sign and a digit. -/
theorem readWith_minus (item : Reader Json) {d : Char} (hd : d.isDigit = true) (cs : List Char) :
    readWith item ('-' :: d :: cs) = readNumber ('-' :: d :: cs) := by
  have hne : d ≠ 'I' := ne_of_isDigit hd (by decide)
  rw [readWith.eq_def]
  simp [hne]

/-- A written integer is read back. -/
theorem readBack_integer (item : Reader Json) (n : Int) :
    ReadBack (readWith item) (.integer n) where
  head margin := by
    cases n with
    | ofNat n =>
      obtain ⟨d, tail, hds, hd⟩ := (isDecimal_toDigits n).exists_cons
      exact ⟨d, tail, hds, isBlank_eq_false_of_isDigit hd, ne_of_isDigit hd (by decide)⟩
    | negSucc n => exact ⟨'-', _, rfl, by decide, by decide⟩
  read margin rest hrest := by
    rw [writeValue, ← readNumber_writeInteger n hrest]
    cases n with
    | ofNat n =>
      obtain ⟨d, tail, hds, hd⟩ := (isDecimal_toDigits n).exists_cons
      rw [writeInteger, hds]
      exact readWith_digit item hd _
    | negSucc n =>
      obtain ⟨d, tail, hds, hd⟩ := (isDecimal_toDigits (n + 1)).exists_cons
      rw [writeInteger, hds]
      exact readWith_minus item hd _

/-! ## Arrays -/

/-- What stands behind an item does not look like more of a number. -/
theorem endsNumber_writeItems (margin outer : Nat) (items : List Json) (cs : List Char) :
    EndsNumber (writeItems margin items ++ (newLine outer ++ cs)) := by
  cases items with
  | nil => exact endsNumber_newLine outer cs
  | cons v items =>
    rw [writeItems]
    exact endsNumber_cons (by decide) (by decide) (by decide) (by decide) _

/-- A list has no more items than its text has characters, so that the rounds of the reader
suffice. -/
theorem length_le_length_writeItems (margin : Nat) (items : List Json) :
    items.length ≤ (writeItems margin items).length := by
  induction items with
  | nil => exact Nat.zero_le _
  | cons v items ih =>
    rw [writeItems]
    simp only [List.length_append, List.length_cons]
    omega

/-- One item is taken back; what stands behind it says how to go on. -/
theorem readItems_writeValue {v : Json} (h : ReadBack item v) (margin fuel : Nat)
    (done : List Json) {rest : List Char} (hrest : EndsNumber rest) :
    readItems item (fuel + 1) done (newLine margin ++ (writeValue margin v ++ rest)) =
      match skipBlank rest with
      | ',' :: rest => readItems item fuel (v :: done) rest
      | ']' :: rest => some ((v :: done).reverse, rest)
      | _ => none := by
  rw [readItems, skipBlank_newLine, h.skipBlank_eq, h.read margin rest hrest]
  rfl

/-- The items of an array are taken back one after the other. -/
theorem readItems_writeItems {v : Json} {items : List Json}
    (h : ∀ w ∈ v :: items, ReadBack item w) (margin outer : Nat) (done : List Json)
    (rest : List Char) {fuel : Nat} (hfuel : items.length ≤ fuel) :
    readItems item (fuel + 1) done (newLine margin ++ (writeValue margin v ++
      (writeItems margin items ++ (newLine outer ++ ']' :: rest)))) =
      some (done.reverse ++ v :: items, rest) := by
  have hv : ReadBack item v := h v List.mem_cons_self
  -- the induction is on the items behind the first one, of which each costs one unit of fuel
  induction items generalizing v done fuel with
  | nil =>
    rw [readItems_writeValue hv margin fuel done (endsNumber_writeItems margin outer [] _),
      writeItems, List.nil_append, skipBlank_newLine, skipBlank_cons (by decide),
      ← List.reverse_cons]
    rfl
  | cons w items ih =>
    cases fuel with
    | zero => exact absurd hfuel (Nat.not_succ_le_zero _)
    | succ fuel =>
      have htail : ∀ x ∈ w :: items, ReadBack item x :=
        fun x hx => h x (List.mem_cons_of_mem v hx)
      have hrest := ih htail (v :: done) (Nat.le_of_succ_le_succ hfuel)
        (htail w List.mem_cons_self)
      rw [List.reverse_cons, List.append_assoc] at hrest
      rw [readItems_writeValue hv margin _ done (endsNumber_writeItems margin outer (w :: items) _),
        writeItems]
      simp only [List.cons_append, List.append_assoc]
      rw [skipBlank_cons (by decide)]
      exact hrest

/-- The reader of values hands a list that is not empty to the reader of items. -/
theorem readWith_items (item : Reader Json) {text : List Char} {c : Char}
    (h : (skipBlank text).head? = some c) (hc : c ≠ ']') :
    readWith item ('[' :: text) =
      (readItems item (text.length + 1) [] text).map fun (vs, rest) => (.array vs, rest) := by
  rw [readWith]
  split
  · next heq =>
    rw [heq] at h
    exact absurd (Option.some.inj h).symm hc
  · rfl

/-- **Arrays** are read back if their items are. -/
theorem readBack_array {items : List Json} (h : ∀ v ∈ items, ReadBack item v) :
    ReadBack (readWith item) (.array items) where
  head margin := by
    cases items with
    | nil => exact ⟨'[', _, rfl, by decide, by decide⟩
    | cons v items =>
      rw [writeValue]
      exact ⟨'[', _, rfl, by decide, by decide⟩
  read margin rest _ := by
    cases items with
    | nil => rfl
    | cons v items =>
      obtain ⟨text, htext⟩ : ∃ text, text = newLine (margin + 2) ++ (writeValue (margin + 2) v ++
          (writeItems (margin + 2) items ++ (newLine margin ++ ']' :: rest))) := ⟨_, rfl⟩
      have hwritten : writeValue margin (.array (v :: items)) ++ rest = '[' :: text := by
        simp [writeValue, htext]
      have hfuel : items.length ≤ text.length := by
        have hitems := length_le_length_writeItems (margin + 2) items
        rw [htext]
        simp only [List.length_append]
        omega
      have hread := readItems_writeItems h (margin + 2) margin [] rest hfuel
      rw [← htext] at hread
      obtain ⟨c, tail, hc, hblank, hne⟩ := (h v List.mem_cons_self).head (margin + 2)
      have hhead : (skipBlank text).head? = some c := by
        rw [htext, skipBlank_newLine, hc, List.cons_append, skipBlank_cons hblank]
        rfl
      rw [hwritten, readWith_items item hhead hne, hread]
      rfl

/-! ## Objects -/

/-- What stands behind a member does not look like more of a number. -/
theorem endsNumber_writeMembers (margin outer : Nat) (members : List (String × Json))
    (cs : List Char) : EndsNumber (writeMembers margin members ++ (newLine outer ++ cs)) := by
  cases members with
  | nil => exact endsNumber_newLine outer cs
  | cons m members =>
    rw [writeMembers]
    exact endsNumber_cons (by decide) (by decide) (by decide) (by decide) _

/-- An object has no more members than its text has characters. -/
theorem length_le_length_writeMembers (margin : Nat) (members : List (String × Json)) :
    members.length ≤ (writeMembers margin members).length := by
  induction members with
  | nil => exact Nat.zero_le _
  | cons m members ih =>
    rw [writeMembers]
    simp only [List.length_append, List.length_cons]
    omega

/-- A written string begins with no blanks. -/
theorem skipBlank_writeString (s : String) (rest : List Char) :
    skipBlank (writeString s ++ rest) = writeString s ++ rest :=
  skipBlank_cons (by decide) _

/-- One member is taken back; what stands behind it says how to go on. -/
theorem readMembers_writeValue {v : Json} (h : ReadBack item v) (key : String) (margin fuel : Nat)
    (done : List (String × Json)) {rest : List Char} (hrest : EndsNumber rest) :
    readMembers item (fuel + 1) done (newLine margin ++ (writeString key ++ ':' :: ' ' ::
      (writeValue margin v ++ rest))) =
      match skipBlank rest with
      | ',' :: rest => readMembers item fuel ((key, v) :: done) rest
      | '}' :: rest => some (((key, v) :: done).reverse, rest)
      | _ => none := by
  have hcolon : skipBlank (' ' :: (writeValue margin v ++ rest)) = writeValue margin v ++ rest :=
    h.skipBlank_eq margin rest
  rw [readMembers, skipBlank_newLine, skipBlank_writeString, readString_writeString]
  simp only [Option.bind_eq_bind, Option.bind_some]
  rw [skipBlank_cons (by decide)]
  simp only [hcolon, h.read margin rest hrest, Option.bind_some]
  rfl

/-- The members of an object are taken back one after the other. -/
theorem readMembers_writeMembers {key : String} {v : Json} {members : List (String × Json)}
    (h : ∀ m ∈ (key, v) :: members, ReadBack item m.2) (margin outer : Nat)
    (done : List (String × Json)) (rest : List Char) {fuel : Nat}
    (hfuel : members.length ≤ fuel) :
    readMembers item (fuel + 1) done (newLine margin ++ (writeString key ++ ':' :: ' ' ::
      (writeValue margin v ++ (writeMembers margin members ++ (newLine outer ++ '}' :: rest))))) =
      some (done.reverse ++ (key, v) :: members, rest) := by
  have hv : ReadBack item v := h (key, v) List.mem_cons_self
  induction members generalizing key v done fuel with
  | nil =>
    rw [readMembers_writeValue hv key margin fuel done (endsNumber_writeMembers margin outer [] _),
      writeMembers, List.nil_append, skipBlank_newLine, skipBlank_cons (by decide),
      ← List.reverse_cons]
    rfl
  | cons m members ih =>
    cases fuel with
    | zero => exact absurd hfuel (Nat.not_succ_le_zero _)
    | succ fuel =>
      have htail : ∀ x ∈ m :: members, ReadBack item x.2 :=
        fun x hx => h x (List.mem_cons_of_mem (key, v) hx)
      have hrest := ih htail ((key, v) :: done) (Nat.le_of_succ_le_succ hfuel)
        (htail m List.mem_cons_self)
      rw [List.reverse_cons, List.append_assoc] at hrest
      rw [readMembers_writeValue hv key margin _ done
        (endsNumber_writeMembers margin outer (m :: members) _), writeMembers]
      simp only [List.cons_append, List.append_assoc]
      rw [skipBlank_cons (by decide)]
      exact hrest

/-- The reader of values hands an object that is not empty to the reader of members. -/
theorem readWith_members (item : Reader Json) {text : List Char} {c : Char}
    (h : (skipBlank text).head? = some c) (hc : c ≠ '}') :
    readWith item ('{' :: text) =
      (readMembers item (text.length + 1) [] text).map fun (ms, rest) => (.object ms, rest) := by
  rw [readWith]
  split
  · next heq =>
    rw [heq] at h
    exact absurd (Option.some.inj h).symm hc
  · rfl

/-- **Objects** are read back if the values of their members are. -/
theorem readBack_object {members : List (String × Json)} (h : ∀ m ∈ members, ReadBack item m.2) :
    ReadBack (readWith item) (.object members) where
  head margin := by
    cases members with
    | nil => exact ⟨'{', _, rfl, by decide, by decide⟩
    | cons m members =>
      rw [writeValue]
      exact ⟨'{', _, rfl, by decide, by decide⟩
  read margin rest _ := by
    cases members with
    | nil => rfl
    | cons m members =>
      obtain ⟨key, v⟩ := m
      obtain ⟨text, htext⟩ : ∃ text, text = newLine (margin + 2) ++ (writeString key ++
          ':' :: ' ' :: (writeValue (margin + 2) v ++ (writeMembers (margin + 2) members ++
            (newLine margin ++ '}' :: rest)))) := ⟨_, rfl⟩
      have hwritten : writeValue margin (.object ((key, v) :: members)) ++ rest = '{' :: text := by
        simp [writeValue, htext]
      have hfuel : members.length ≤ text.length := by
        have hmembers := length_le_length_writeMembers (margin + 2) members
        rw [htext]
        simp only [List.length_append, List.length_cons]
        omega
      have hread := readMembers_writeMembers h (margin + 2) margin [] rest hfuel
      rw [← htext] at hread
      have hhead : (skipBlank text).head? = some '"' := by
        rw [htext, skipBlank_newLine, skipBlank_writeString]
        rfl
      rw [hwritten, readWith_members item hhead (by decide), hread]
      rfl

/-! ## Whole texts -/

/-- The value holds no number in a spelling of its own, and arrays and objects that are not empty
are nested in it no deeper than `depth`. -/
inductive Plain : Nat → Json → Prop
  | null (depth : Nat) : Plain depth .null
  | bool (depth : Nat) (b : Bool) : Plain depth (.bool b)
  | integer (depth : Nat) (n : Int) : Plain depth (.integer n)
  | string (depth : Nat) (s : String) : Plain depth (.string s)
  | emptyArray (depth : Nat) : Plain depth (.array [])
  | emptyObject (depth : Nat) : Plain depth (.object [])
  | array {depth : Nat} {items : List Json} (plain : ∀ v ∈ items, Plain depth v) :
      Plain (depth + 1) (.array items)
  | object {depth : Nat} {members : List (String × Json)}
      (plain : ∀ m ∈ members, Plain depth m.2) : Plain (depth + 1) (.object members)

/-- What is read back by every reader of one level is read back at every depth. -/
theorem readBack_readValue {v : Json} (h : ∀ item, ReadBack (readWith item) v) (depth : Nat) :
    ReadBack (readValue depth) v := by
  cases depth with
  | zero => exact h _
  | succ depth => exact h _

/-- **Values** are read back by a reader that goes as deep as they are nested. -/
theorem Plain.readBack {depth : Nat} {v : Json} (h : Plain depth v) :
    ReadBack (readValue depth) v := by
  induction h with
  | null depth => exact readBack_readValue readBack_null depth
  | bool depth b => exact readBack_readValue (readBack_bool · b) depth
  | integer depth n => exact readBack_readValue (readBack_integer · n) depth
  | string depth s => exact readBack_readValue (readBack_string · s) depth
  | emptyArray depth =>
    refine readBack_readValue (fun item => readBack_array ?_) depth
    intro v hv
    cases hv
  | emptyObject depth =>
    refine readBack_readValue (fun item => readBack_object ?_) depth
    intro m hm
    cases hm
  | array _ ih => exact readBack_array ih
  | object _ ih => exact readBack_object ih

/-- **Round trip**: the text of a value, with blanks behind it, is read as that value. -/
theorem readNested?_write {depth : Nat} {v : Json} (h : Plain depth v) {blanks : String}
    (hblanks : ∀ c ∈ blanks.toList, isBlank c = true) :
    readNested? depth (v.write ++ blanks) = some v := by
  have htext : (v.write ++ blanks).toList = writeValue 0 v ++ blanks.toList := by
    rw [String.toList_append, write, String.toList_ofList]
  have hskip : skipBlank blanks.toList = [] :=
    List.dropWhile_eq_nil_iff.mpr hblanks
  rw [readNested?, htext, h.readBack.skipBlank_eq,
    h.readBack.read 0 _ (endsNumber_of_isBlank hblanks)]
  show (do guard (skipBlank blanks.toList).isEmpty; some v) = some v
  rw [hskip]
  rfl

end MessageHarvest.Json
