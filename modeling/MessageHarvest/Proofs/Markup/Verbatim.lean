import MessageHarvest.Proofs.Markup.Token

/-!
# What an escaped text shows

Escaping saves every tag in a text. It does not know of brackets that begin no tag, from which a
backslash before them is taken, and it does not know what follows the text: backslashes at its end
are halved before a closing tag, and a single one is doubled where none follows.

* `shownEscaped`: what tokens show once they are escaped. It is what they are, but for brackets
  after backslashes (`shownEscaped_tokens_eq_iff`).
* `endBackslashes` and `closeShown`: what becomes of the backslashes at the end of a text.
* **What an escaped text shows** by itself (`render_escapeChars`) and between tags
  (`IsTagName.render_escapeChars`), and when that is the text (`render_escapeChars_eq_iff`,
  `IsTagName.render_escapeChars_eq_iff`).
-/

namespace MessageHarvest.Markup

variable {cs rest stem name : List Char}

/-! ## What an escaped text shows -/

/-- What a token shows once it is escaped: a bracket that begins no tag loses a backslash. -/
theorem Token.shown_escaped {t : Token} (h : t.isSlashedBracket = false) :
    t.escaped.shown = t.text := by
  cases t with
  | char c => rfl
  | bracket n =>
    obtain rfl : n = 0 := by simpa [isSlashedBracket] using h
    rfl
  | tag n body =>
    have hhalf : (2 * n + 1) / 2 = n := by omega
    rw [escaped, shown, hhalf, text]

/-- A bracket behind backslashes loses one of them when it is shown. -/
theorem Token.length_shown_escaped {t : Token} (h : t.isSlashedBracket = true) :
    t.escaped.shown.length < t.text.length := by
  cases t with
  | char c => cases h
  | bracket n =>
    have hpos : 0 < n := by simpa [isSlashedBracket] using h
    simp only [escaped, shown, text, backslashes, List.length_append, List.length_replicate]
    omega
  | tag n body => cases h

/-- What tokens show once they are escaped. -/
def shownEscaped (ts : List Token) : List Char :=
  ts.flatMap fun t => t.escaped.shown

/-- Where no bracket stands behind a backslash, the escaped tokens show the text. -/
theorem shownEscaped_eq {ts : List Token} (h : ts.any Token.isSlashedBracket = false) :
    shownEscaped ts = ts.flatMap Token.text := by
  induction ts with
  | nil => rfl
  | cons t ts ih =>
    rw [List.any_cons, Bool.or_eq_false_iff] at h
    change t.escaped.shown ++ shownEscaped ts = t.text ++ ts.flatMap Token.text
    rw [ih h.2, Token.shown_escaped h.1]

/-- Escaped tokens never show more than the text. -/
theorem length_shownEscaped_le (ts : List Token) :
    (shownEscaped ts).length ≤ (ts.flatMap Token.text).length := by
  induction ts with
  | nil => rfl
  | cons t ts ih =>
    change (t.escaped.shown ++ shownEscaped ts).length ≤ (t.text ++ ts.flatMap Token.text).length
    rw [List.length_append, List.length_append]
    refine Nat.add_le_add ?_ ih
    cases ht : t.isSlashedBracket with
    | false => rw [Token.shown_escaped ht]
    | true => exact (Token.length_shown_escaped ht).le

/-- They show less where a bracket stands behind a backslash. -/
theorem length_shownEscaped_lt {ts : List Token} (h : ts.any Token.isSlashedBracket = true) :
    (shownEscaped ts).length < (ts.flatMap Token.text).length := by
  induction ts with
  | nil => cases h
  | cons t ts ih =>
    change (t.escaped.shown ++ shownEscaped ts).length < (t.text ++ ts.flatMap Token.text).length
    rw [List.length_append, List.length_append]
    cases ht : t.isSlashedBracket with
    | false =>
      rw [List.any_cons, ht, Bool.false_or] at h
      rw [Token.shown_escaped ht]
      exact Nat.add_lt_add_left (ih h) _
    | true =>
      exact Nat.add_lt_add_of_lt_of_le (Token.length_shown_escaped ht) (length_shownEscaped_le ts)

/-- A text is shown in full iff no bracket in it loses a backslash. -/
theorem shownEscaped_tokens_eq_iff (cs : List Char) :
    shownEscaped (tokens cs) = cs ↔ ¬HoldsSlashedBracket cs := by
  rw [← any_isSlashedBracket_tokens, Bool.not_eq_true]
  constructor
  · intro h
    rw [Bool.eq_false_iff]
    intro hany
    have hlt := length_shownEscaped_lt hany
    rw [h, flatMap_text_tokens] at hlt
    exact lt_irrefl _ hlt
  · intro h
    rw [shownEscaped_eq h, flatMap_text_tokens]

/-- An escaped text never shows more than the text, but for its end. -/
theorem length_shownEscaped_tokens_le (cs : List Char) :
    (shownEscaped (tokens cs)).length ≤ cs.length := by
  have h := length_shownEscaped_le (tokens cs)
  rwa [flatMap_text_tokens] at h

/-- So many backslashes are left at the end by `escape` for those at the end of a text. -/
def endBackslashes (k : Nat) : Nat :=
  if k = 1 then 2 else k

/-- Escaping changes no token at its end. -/
theorem Token.getLast?_escape (t : Token) : t.escape.getLast? = t.text.getLast? := by
  cases t with
  | char c => rfl
  | bracket n => rfl
  | tag n body =>
    rw [escape, text, List.getLast?_concat, List.getLast?_concat]

/-- Escaping changes no text at its end, but for backslashes there. -/
theorem getLast?_flatMap_escape (ts : List Token) :
    (ts.flatMap Token.escape).getLast? = (ts.flatMap Token.text).getLast? := by
  induction ts with
  | nil => rfl
  | cons t ts ih =>
    rw [List.flatMap_cons, List.flatMap_cons, List.getLast?_append, List.getLast?_append, ih,
      Token.getLast?_escape]

/-- Whether a text ends in a single backslash is read off the backslashes at its end. -/
theorem endsInOneBackslash_append (hstem : stem.getLast? ≠ some '\\') (k : Nat) :
    endsInOneBackslash (stem ++ backslashes k) = decide (k = 1) := by
  have hhead : stem.reverse.head? ≠ some '\\' := by rwa [List.head?_reverse]
  rw [endsInOneBackslash, List.reverse_append, backslashes, List.reverse_replicate]
  rcases k with _ | _ | k
  · cases hreverse : stem.reverse with
    | nil => rfl
    | cons c cs =>
      rw [hreverse] at hhead
      have hc : c ≠ '\\' := fun h => hhead (congrArg some h)
      simp [hc]
  · cases hreverse : stem.reverse with
    | nil => rfl
    | cons c cs =>
      rw [hreverse] at hhead
      have hc : c ≠ '\\' := fun h => hhead (congrArg some h)
      simp [hc]
  · simp [List.replicate_succ]

/-- **The markup for a text**, with the backslashes at its end apart. -/
theorem escapeChars_append (hstem : stem.getLast? ≠ some '\\') (k : Nat) :
    escapeChars (stem ++ backslashes k) =
      escapeFrom 0 0 stem ++ backslashes (endBackslashes k) := by
  have hescape : (tokens (stem ++ backslashes k)).flatMap Token.escape =
      escapeFrom 0 0 stem ++ backslashes k := by
    rw [tokens_stem hstem, List.flatMap_append, flatMap_map_char (fun _ => rfl)]
    rfl
  have hlast : (escapeFrom 0 0 stem).getLast? ≠ some '\\' := by
    have h := getLast?_flatMap_escape (tokens stem)
    rw [flatMap_text_tokens] at h
    change ((tokens stem).flatMap Token.escape).getLast? ≠ some '\\'
    rwa [h]
  rw [escapeChars, hescape, endsInOneBackslash_append hlast, endBackslashes]
  by_cases hk : k = 1
  · subst hk
    simp [backslashes]
  · simp [hk]

/-- The tokens of the markup for a text that ends in no backslash. -/
theorem tokens_escapeFrom (hstem : stem.getLast? ≠ some '\\') (hrest : untilClose? rest = none) :
    tokens (escapeFrom 0 0 stem ++ rest) = (tokens stem).map Token.escaped ++ tokens rest := by
  obtain ⟨ts, k, hts, hescape⟩ := tokensFrom_escape 0 0 stem
  have htext := flatMap_text_tokens stem
  rw [tokens, hts, List.flatMap_append, flatMap_map_char (fun _ => rfl)] at htext
  obtain rfl : k = 0 := by
    by_contra hk
    refine hstem ?_
    rw [← htext]
    exact getLast?_append_backslashes _ (Nat.pos_of_ne_zero hk)
  have hstemTokens : tokens stem = ts := by rw [tokens, hts]; exact List.append_nil ts
  rw [hescape rest hrest, hstemTokens, tokens]

/-- The tokens of an escaped text are those of its stem, escaped, and the backslashes at its end
with what follows. -/
theorem tokens_escapeChars (hstem : stem.getLast? ≠ some '\\') (k : Nat)
    (hrest : untilClose? rest = none) :
    tokens (escapeChars (stem ++ backslashes k) ++ rest) =
      (tokens stem).map Token.escaped ++ tokensFrom 0 (endBackslashes k) rest := by
  rw [escapeChars_append hstem, List.append_assoc,
    tokens_escapeFrom hstem (untilClose?_backslashes hrest _), tokens_backslashes]

/-- Escaped tokens show their part and leave open what was open. -/
theorem renderTokens_escaped (ts : List Token) (opened : List String) (rest : List Token) :
    renderTokens opened (ts.map Token.escaped ++ rest) =
      (renderTokens opened rest).map (shownEscaped ts ++ ·) := by
  have hactive : ∀ t ∈ ts.map Token.escaped, t.isActive = false :=
    List.forall_mem_map.mpr fun t _ => t.isActive_escaped
  rw [renderTokens_append hactive, List.flatMap_map]
  rfl

/-- Characters show themselves. -/
theorem renderTokens_chars (opened : List String) (cs : List Char) :
    renderTokens opened (cs.map .char) = .ok cs := by
  induction cs with
  | nil => rfl
  | cons c cs ih =>
    rw [List.map_cons, renderTokens, Token.render]
    dsimp only [bind, Except.bind]
    rw [ih]
    rfl

/-- **What an escaped text shows**: a lone backslash at its end becomes two. -/
theorem render_escapeChars (hstem : stem.getLast? ≠ some '\\') (k : Nat) :
    renderTokens [] (tokens (escapeChars (stem ++ backslashes k))) =
      .ok (shownEscaped (tokens stem) ++ backslashes (endBackslashes k)) := by
  have h := tokens_escapeChars hstem k untilClose?_nil
  rw [List.append_nil, tokensFrom_nil] at h
  rw [h, renderTokens_escaped, renderTokens_chars]
  rfl

/-- A bracket of a text that follows a backslash comes before the backslashes at its end. -/
theorem holdsSlashedBracket_append (hstem : stem.getLast? ≠ some '\\') (k : Nat) :
    HoldsSlashedBracket (stem ++ backslashes k) ↔ HoldsSlashedBracket stem := by
  rw [← any_isSlashedBracket_tokens, ← any_isSlashedBracket_tokens, tokens_stem hstem,
    List.any_append, any_map_char (fun _ => rfl), Bool.or_false]

/-- **When an escaped text shows itself**. -/
theorem render_escapeChars_eq_iff (cs : List Char) :
    renderTokens [] (tokens (escapeChars cs)) = .ok cs ↔
      ¬HoldsSlashedBracket cs ∧ endsInOneBackslash cs = false := by
  obtain ⟨stem, k, rfl, hstem⟩ := exists_stem cs
  rw [render_escapeChars hstem, Except.ok.injEq, holdsSlashedBracket_append hstem,
    endsInOneBackslash_append hstem, decide_eq_false_iff_not, endBackslashes]
  by_cases hk : k = 1
  · subst hk
    refine iff_of_false ?_ (fun h => h.2 rfl)
    intro h
    have htwo : (shownEscaped (tokens stem) ++ ['\\']) ++ ['\\'] = stem ++ ['\\'] := by
      rw [List.append_assoc]
      exact h
    exact hstem (by rw [← List.append_cancel_right htwo, List.getLast?_concat])
  · rw [if_neg hk, List.append_left_inj, shownEscaped_tokens_eq_iff]
    exact (and_iff_left hk).symm

/-! ## Texts between tags -/

/-- What a closing tag shows after backslashes: half of them, and itself if they are odd. -/
def closeShown (k : Nat) (name : List Char) : List Char :=
  if k % 2 = 1 then backslashes (k / 2) ++ '[' :: ('/' :: name) ++ [']'] else backslashes (k / 2)

/-- A closing tag that closes what is open shows half of the backslashes before it, or itself. -/
theorem IsTagName.renderTokens_close (h : IsTagName name) (k : Nat) :
    renderTokens [normalName name] [.tag k ('/' :: name)] = .ok (closeShown k name) := by
  rw [renderTokens, Token.render, closeShown]
  split
  · exact congrArg Except.ok (List.append_nil _)
  · rw [h.afterTag_close]
    exact congrArg Except.ok (List.append_nil _)

/-- **What an escaped text shows between tags**. -/
theorem IsTagName.render_escapeChars (h : IsTagName name) (hstem : stem.getLast? ≠ some '\\')
    (k : Nat) :
    renderTokens [] (tokens ('[' :: name ++ ']' ::
        (escapeChars (stem ++ backslashes k) ++ ('[' :: '/' :: name ++ [']'])))) =
      .ok (shownEscaped (tokens stem) ++ closeShown (endBackslashes k) name) := by
  rw [h.tokens_between (fun rest hrest => tokens_escapeChars hstem k hrest) [], tokens_nil,
    h.renderTokens_open, renderTokens_escaped, h.renderTokens_close]
  rfl

/-- A closing tag that is shown ends in a bracket, where the text ends in a backslash. One that is
not shown takes half of the backslashes. -/
theorem eq_zero_of_append_closeShown {shown : List Char} {k : Nat}
    (hle : shown.length ≤ stem.length)
    (h : shown ++ closeShown k name = stem ++ backslashes k) : k = 0 := by
  by_contra hk
  have hpos : 0 < k := Nat.pos_of_ne_zero hk
  rw [closeShown] at h
  split at h
  · have hlast := congrArg List.getLast? h
    rw [← List.append_assoc, List.getLast?_concat, getLast?_append_backslashes stem hpos] at hlast
    exact absurd hlast (by decide)
  · have hlength := congrArg List.length h
    simp only [backslashes, List.length_append, List.length_replicate] at hlength
    omega

/-- Whether a text ends in two backslashes is read off the backslashes at its end. -/
theorem doubled_suffix_iff (hstem : stem.getLast? ≠ some '\\') (k : Nat) :
    ['\\', '\\'] <:+ stem ++ backslashes k ↔ 2 ≤ k := by
  constructor
  · rintro ⟨pre, hpre⟩
    rcases k with _ | _ | k
    · have hlast := congrArg List.getLast? hpre
      simp only [backslashes, List.replicate_zero, List.append_nil] at hlast
      exact absurd (by rw [← hlast]; simp) hstem
    · have hone : (pre ++ ['\\']) ++ ['\\'] = stem ++ ['\\'] := by
        rw [List.append_assoc]
        exact hpre
      exact absurd (by rw [← List.append_cancel_right hone, List.getLast?_concat]) hstem
    · omega
  · intro hk
    obtain ⟨k, rfl⟩ := Nat.exists_eq_add_of_le' hk
    rw [backslashes, List.replicate_add, ← List.append_assoc]
    exact List.suffix_append _ _

/-- **When an escaped text shows itself between tags**. -/
theorem IsTagName.render_escapeChars_eq_iff (h : IsTagName name) (cs : List Char) :
    renderTokens [] (tokens ('[' :: name ++ ']' ::
        (escapeChars cs ++ ('[' :: '/' :: name ++ [']'])))) = .ok cs ↔
      ¬HoldsSlashedBracket cs ∧ ¬['\\', '\\'] <:+ cs := by
  obtain ⟨stem, k, rfl, hstem⟩ := exists_stem cs
  rw [h.render_escapeChars hstem, Except.ok.injEq, holdsSlashedBracket_append hstem,
    doubled_suffix_iff hstem, ← shownEscaped_tokens_eq_iff]
  rcases k with _ | _ | k
  · change _ ++ [] = _ ++ [] ↔ _
    rw [List.append_nil, List.append_nil]
    exact (and_iff_left (by omega)).symm
  · change _ ++ ['\\'] = _ ++ ['\\'] ↔ _
    rw [List.append_left_inj]
    exact (and_iff_left (by omega)).symm
  · refine iff_of_false (fun heq => ?_) (fun h => h.2 (by omega))
    have hzero : k + 2 = 0 :=
      eq_zero_of_append_closeShown (length_shownEscaped_tokens_le stem) heq
    omega

end MessageHarvest.Markup
