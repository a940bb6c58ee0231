import MessageHarvest.Proofs.Markup.Escape
import Mathlib.Data.List.Infix
import Mathlib.Data.List.Induction

/-!
# The tokens of a text

A text is cut into tokens and nothing of it is lost. What its tokens are can be said of the text:
where a tag begins in it, and which of its other brackets follow a backslash. Only backslashes at
its end belong to what follows.

* `Token.text`: the part of a text that a token is cut from (`flatMap_text_tokens`).
* `exists_stem`, `tokens_append`: a text is a stem and the backslashes at its end, and the tokens of
  a stem are its own, whatever follows that ends no tag.
* `HoldsTag` and `HoldsSlashedBracket`: **which tokens a text has** (`any_isTag_tokens`,
  `any_isSlashedBracket_tokens`).
-/

namespace MessageHarvest.Markup

variable {cs rest stem body : List Char}

/-! ## The text of tokens -/

/-- The part of a text that a token is cut from. -/
def Token.text : Token → List Char
  | char c => [c]
  | bracket n => backslashes n ++ ['[']
  | tag n body => backslashes n ++ '[' :: body ++ [']']

/-- One more backslash may be put first or last. -/
theorem backslashes_succ_append (n : Nat) (cs : List Char) :
    backslashes (n + 1) ++ cs = backslashes n ++ '\\' :: cs := by
  rw [backslashes, List.replicate_succ', List.append_assoc, List.singleton_append, ← backslashes]

/-- What a tag has taken of a text is its body and the bracket that ends it. -/
theorem drop_of_body? (h : body? cs = some body) :
    cs = body ++ ']' :: cs.drop (body.length + 1) := by
  obtain ⟨-, after, rfl⟩ := untilClose?_eq_some_iff.mp (body?_eq_some_iff.mp h).2
  simp

/-- The texts of the tokens are the text that was cut. -/
theorem flatMap_text_tokensFrom (skip before : Nat) (cs : List Char) :
    (tokensFrom skip before cs).flatMap Token.text = backslashes before ++ cs.drop skip := by
  fun_induction tokensFrom skip before cs with
  | case1 skip before => rw [flatMap_map_char (fun _ => rfl), List.drop_nil, List.append_nil]
  | case2 before c cs skip ih => rw [ih, List.drop_succ_cons]
  | case3 before cs ih => rw [ih, List.drop_zero, List.drop_zero, backslashes_succ_append]
  | case4 before cs body hbody _ ih =>
    rw [List.flatMap_cons, ih, Token.text, List.drop_zero]
    conv_rhs => rw [drop_of_body? hbody]
    simp [backslashes]
  | case5 before cs _ _ ih =>
    rw [List.flatMap_cons, ih, Token.text]
    simp [backslashes]
  | case6 before c cs _ _ ih =>
    rw [List.flatMap_append, flatMap_map_char (fun _ => rfl), List.flatMap_cons, ih, Token.text]
    simp [backslashes]

/-- **Nothing of a text is lost** when it is cut into tokens. -/
theorem flatMap_text_tokens (cs : List Char) : (tokens cs).flatMap Token.text = cs := by
  rw [tokens, flatMap_text_tokensFrom, List.drop_zero]
  rfl

/-! ## Texts that do not end in a backslash -/

/-- Every text is followed by the backslashes at its end. -/
theorem exists_stem (cs : List Char) :
    ∃ stem k, cs = stem ++ backslashes k ∧ stem.getLast? ≠ some '\\' := by
  induction cs using List.reverseRecOn with
  | nil => exact ⟨[], 0, rfl, by simp⟩
  | append_singleton cs c ih =>
    by_cases hslash : c = '\\'
    · obtain ⟨stem, k, rfl, hstem⟩ := ih
      refine ⟨stem, k + 1, ?_, hstem⟩
      rw [hslash, List.append_assoc, backslashes, backslashes, List.replicate_succ']
    · exact ⟨cs ++ [c], 0, by simp [backslashes], by simpa using hslash⟩

/-- A text that ends in backslashes has one as its last character. -/
theorem getLast?_append_backslashes (stem : List Char) {k : Nat} (h : 0 < k) :
    (stem ++ backslashes k).getLast? = some '\\' := by
  obtain ⟨k, rfl⟩ := Nat.exists_eq_add_of_lt h
  rw [Nat.zero_add, backslashes, List.replicate_succ', ← List.append_assoc, List.getLast?_concat]

/-- What has no closing bracket does not help a text before it to one. -/
theorem untilClose?_append (hrest : untilClose? rest = none) (cs : List Char) :
    untilClose? (cs ++ rest) = untilClose? cs := by
  induction cs with
  | nil => exact hrest
  | cons c cs ih => rw [List.cons_append, untilClose?, untilClose?, ih]

/-- Nor does it help a text before it to a tag. -/
theorem body?_append (hrest : untilClose? rest = none) (cs : List Char) :
    body? (cs ++ rest) = body? cs := by
  cases cs with
  | nil => exact body?_eq_none hrest
  | cons c cs => rw [List.cons_append, body?, body?, untilClose?_append hrest]

/-- The tokens of what follows come after those of a text, if no backslashes are left between. -/
theorem tokensFrom_append (hrest : untilClose? rest = none) {skip before : Nat}
    (hskip : skip ≤ cs.length) (hbefore : skip = cs.length → before = 0)
    (hlast : cs.getLast? ≠ some '\\') :
    tokensFrom skip before (cs ++ rest) = tokensFrom skip before cs ++ tokens rest := by
  have htail : ∀ {c : Char} {cs : List Char}, (c :: cs).getLast? ≠ some '\\' →
      cs.getLast? ≠ some '\\' := by
    intro c cs hlast h
    rw [List.getLast?_cons, h] at hlast
    exact hlast rfl
  fun_induction tokensFrom skip before cs with
  | case1 skip before =>
    obtain rfl : skip = 0 := Nat.le_zero.mp hskip
    obtain rfl : before = 0 := hbefore rfl
    rfl
  | case2 before c cs skip ih =>
    rw [List.cons_append, tokensFrom]
    exact ih (Nat.le_of_succ_le_succ hskip) (fun h => hbefore (congrArg (· + 1) h)) (htail hlast)
  | case3 before cs ih =>
    have hne : 0 = cs.length → before + 1 = 0 := by
      intro h
      obtain rfl := List.length_eq_zero_iff.mp h.symm
      exact absurd rfl hlast
    rw [List.cons_append, tokensFrom_backslash]
    exact ih (Nat.zero_le _) hne (htail hlast)
  | case4 before cs body hbody _ ih =>
    have hlength : body.length + 1 ≤ cs.length := by
      have h := congrArg List.length (drop_of_body? hbody)
      rw [List.length_append, List.length_cons] at h
      omega
    rw [List.cons_append, tokensFrom_tag ((body?_append hrest cs).trans hbody),
      ih hlength (fun _ => rfl) (htail hlast), List.cons_append]
  | case5 before cs hbody _ ih =>
    rw [List.cons_append, tokensFrom_bracket ((body?_append hrest cs).trans hbody),
      ih (Nat.zero_le _) (fun _ => rfl) (htail hlast), List.cons_append]
  | case6 before c cs hslash hopen ih =>
    rw [List.cons_append, tokensFrom_char hslash hopen,
      ih (Nat.zero_le _) (fun _ => rfl) (htail hlast), List.append_assoc, List.cons_append]

/-- **The tokens of a text that is followed by another**. -/
theorem tokens_append (hstem : stem.getLast? ≠ some '\\') (hrest : untilClose? rest = none) :
    tokens (stem ++ rest) = tokens stem ++ tokens rest :=
  tokensFrom_append hrest (Nat.zero_le _) (fun _ => rfl) hstem

/-- The stem of a text is cut for itself, and the backslashes at its end with what follows. -/
theorem tokens_append_backslashes (hstem : stem.getLast? ≠ some '\\') (k : Nat)
    (hrest : untilClose? rest = none) :
    tokens (stem ++ backslashes k ++ rest) = tokens stem ++ tokensFrom 0 k rest := by
  rw [List.append_assoc, tokens_append hstem (untilClose?_backslashes hrest k), tokens_backslashes]

/-- Backslashes at the end of a text stand for themselves. -/
theorem tokens_stem (hstem : stem.getLast? ≠ some '\\') (k : Nat) :
    tokens (stem ++ backslashes k) = tokens stem ++ (backslashes k).map .char := by
  have h := tokens_append_backslashes hstem k untilClose?_nil
  rwa [List.append_nil, tokensFrom_nil] at h

/-! ## Tags and brackets in a text -/

/-- A tag begins in the text. -/
def HoldsTag (cs : List Char) : Prop :=
  ∃ after, '[' :: after <:+ cs ∧ (body? after).isSome

/-- A bracket that begins no tag stands right after a backslash. -/
def HoldsSlashedBracket (cs : List Char) : Prop :=
  ∃ after, '\\' :: '[' :: after <:+ cs ∧ body? after = none

/-- The token is a tag. -/
def Token.isTag : Token → Bool
  | char _ => false
  | bracket _ => false
  | tag _ _ => true

/-- The token is a bracket after backslashes. -/
def Token.isSlashedBracket : Token → Bool
  | char _ => false
  | bracket n => 0 < n
  | tag _ _ => false

/-- What holds of no character holds of none in a row. -/
theorem any_map_char {f : Token → Bool} (h : ∀ c, f (.char c) = false) (cs : List Char) :
    (cs.map Token.char).any f = false := by
  rw [List.any_eq_false, List.forall_mem_map]
  intro c _
  rw [h c]
  exact Bool.false_ne_true

/-- A part of a text that begins with a character does not begin where another one stands. -/
theorem suffix_cons_iff_of_ne {c d : Char} (h : d ≠ c) {after : List Char} :
    c :: after <:+ d :: cs ↔ c :: after <:+ cs := by
  rw [List.suffix_cons_iff, or_iff_right]
  exact fun heq => h (List.cons.inj heq).1.symm

/-- A tail that begins with a character begins behind a text without that character. -/
theorem suffix_append_iff_of_notMem {c : Char} {pre after : List Char} (h : c ∉ pre) :
    c :: after <:+ pre ++ cs ↔ c :: after <:+ cs := by
  induction pre with
  | nil => rfl
  | cons d pre ih =>
    obtain ⟨hne, hpre⟩ : c ≠ d ∧ c ∉ pre := by simpa using h
    rw [List.cons_append, suffix_cons_iff_of_ne hne.symm, ih hpre]

/-- A tag is among the tokens iff one begins in the text. -/
theorem any_isTag_tokensFrom (skip before : Nat) (cs : List Char) :
    (tokensFrom skip before cs).any Token.isTag = true ↔ HoldsTag (cs.drop skip) := by
  fun_induction tokensFrom skip before cs with
  | case1 skip before =>
    rw [any_map_char (fun _ => rfl), List.drop_nil]
    simp [HoldsTag]
  | case2 before c cs skip ih => rw [ih, List.drop_succ_cons]
  | case3 before cs ih =>
    rw [ih, List.drop_zero, List.drop_zero]
    simp only [HoldsTag, suffix_cons_iff_of_ne (by decide : '\\' ≠ '[')]
  | case4 before cs body hbody _ ih =>
    rw [List.any_cons, Token.isTag, Bool.true_or, List.drop_zero]
    exact iff_of_true rfl ⟨cs, List.suffix_rfl, by rw [hbody]; rfl⟩
  | case5 before cs hbody _ ih =>
    rw [List.any_cons, Token.isTag, Bool.false_or, ih, List.drop_zero, List.drop_zero]
    refine exists_congr fun after => and_congr_left fun hafter => ?_
    rw [List.suffix_cons_iff, or_iff_right]
    intro heq
    rw [(List.cons.inj heq).2, hbody] at hafter
    cases hafter
  | case6 before c cs hslash hopen ih =>
    rw [List.any_append, any_map_char (fun _ => rfl), List.any_cons, Token.isTag, Bool.false_or,
      Bool.false_or, ih, List.drop_zero, List.drop_zero]
    simp only [HoldsTag, suffix_cons_iff_of_ne hopen]

/-- **The tags of a text** are among its tokens. -/
theorem any_isTag_tokens (cs : List Char) :
    (tokens cs).any Token.isTag = true ↔ HoldsTag cs :=
  any_isTag_tokensFrom 0 0 cs

/-- No bracket comes right after a backslash where none is, and where another character comes. -/
theorem slashed_suffix_append_iff {c : Char} {pre after : List Char} (hpre : '[' ∉ pre)
    (hslash : c ≠ '\\') (hopen : c ≠ '[') :
    '\\' :: '[' :: after <:+ pre ++ c :: cs ↔ '\\' :: '[' :: after <:+ cs := by
  induction pre with
  | nil =>
    exact suffix_cons_iff_of_ne hslash
  | cons d pre ih =>
    obtain ⟨-, hpre⟩ : '[' ≠ d ∧ '[' ∉ pre := by simpa using hpre
    rw [List.cons_append, List.suffix_cons_iff, ih hpre, or_iff_right]
    intro heq
    have htail := (List.cons.inj heq).2
    cases pre with
    | nil => exact hopen (List.cons.inj htail).1.symm
    | cons e pre => exact hpre ((List.cons.inj htail).1 ▸ List.mem_cons_self)

/-- Where a bracket stands right behind a backslash in a text that begins with backslashes and a
bracket. -/
theorem slashed_suffix_backslashes_iff {after : List Char} (n : Nat) :
    '\\' :: '[' :: after <:+ backslashes n ++ '[' :: cs ↔
      (0 < n ∧ after = cs) ∨ '\\' :: '[' :: after <:+ cs := by
  induction n with
  | zero =>
    rw [show backslashes 0 = [] from rfl, List.nil_append, List.suffix_cons_iff]
    simp
  | succ n ih =>
    have hsucc : backslashes (n + 1) = '\\' :: backslashes n := rfl
    rw [hsucc, List.cons_append, List.suffix_cons_iff, ih]
    cases n with
    | zero => simp [backslashes]
    | succ n => simp [backslashes, List.replicate_succ]

/-- Among backslashes there is no bracket. -/
theorem bracket_notMem_backslashes (n : Nat) : '[' ∉ backslashes n := fun h =>
  absurd (List.eq_of_mem_replicate h) (by decide)

/-- A bracket behind backslashes is among the tokens iff one stands right behind a backslash in the
text. -/
theorem any_isSlashedBracket_tokensFrom (skip before : Nat) (cs : List Char) :
    (tokensFrom skip before cs).any Token.isSlashedBracket = true ↔
      HoldsSlashedBracket (backslashes before ++ cs.drop skip) := by
  fun_induction tokensFrom skip before cs with
  | case1 skip before =>
    rw [any_map_char (fun _ => rfl), List.drop_nil, List.append_nil]
    refine iff_of_false Bool.false_ne_true ?_
    rintro ⟨after, hsuffix, -⟩
    exact bracket_notMem_backslashes before
      (hsuffix.mem (List.mem_cons_of_mem _ List.mem_cons_self))
  | case2 before c cs skip ih => rw [ih, List.drop_succ_cons]
  | case3 before cs ih => rw [ih, List.drop_zero, List.drop_zero, backslashes_succ_append]
  | case4 before cs body hbody _ ih =>
    have hclear := (untilClose?_eq_some_iff.mp (body?_eq_some_iff.mp hbody).2).1
    simp only [HoldsSlashedBracket, List.drop_zero, slashed_suffix_backslashes_iff] at ih ⊢
    rw [List.any_cons, Token.isSlashedBracket, Bool.false_or, ih]
    refine exists_congr fun after => and_congr_left fun hafter => ?_
    have hne : ¬(0 < before ∧ after = cs) := by
      rintro ⟨-, rfl⟩
      rw [hafter] at hbody
      cases hbody
    rw [or_iff_right hne]
    conv_rhs => rw [drop_of_body? hbody]
    exact (slashed_suffix_append_iff (fun h => (hclear _ h).2 rfl) (by decide) (by decide)).symm
  | case5 before cs hbody _ ih =>
    simp only [HoldsSlashedBracket, List.drop_zero, slashed_suffix_backslashes_iff] at ih ⊢
    rw [List.any_cons, Token.isSlashedBracket, Bool.or_eq_true, ih, decide_eq_true_iff]
    constructor
    · rintro (hbefore | ⟨after, hsuffix, hafter⟩)
      · exact ⟨cs, .inl ⟨hbefore, rfl⟩, hbody⟩
      · exact ⟨after, .inr hsuffix, hafter⟩
    · rintro ⟨after, ⟨hbefore, -⟩ | hsuffix, hafter⟩
      · exact .inl hbefore
      · exact .inr ⟨after, hsuffix, hafter⟩
  | case6 before c cs hslash hopen ih =>
    rw [List.any_append, any_map_char (fun _ => rfl), List.any_cons, Token.isSlashedBracket,
      Bool.false_or, Bool.false_or, ih, List.drop_zero, List.drop_zero]
    simp only [HoldsSlashedBracket,
      slashed_suffix_append_iff (bracket_notMem_backslashes before) hslash hopen]
    rfl

/-- **The brackets of a text that follow a backslash** are among its tokens. -/
theorem any_isSlashedBracket_tokens (cs : List Char) :
    (tokens cs).any Token.isSlashedBracket = true ↔ HoldsSlashedBracket cs :=
  any_isSlashedBracket_tokensFrom 0 0 cs

instance (cs : List Char) : Decidable (HoldsTag cs) :=
  decidable_of_iff _ (any_isTag_tokens cs)

instance (cs : List Char) : Decidable (HoldsSlashedBracket cs) :=
  decidable_of_iff _ (any_isSlashedBracket_tokens cs)

end MessageHarvest.Markup
