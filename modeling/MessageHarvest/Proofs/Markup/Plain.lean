import MessageHarvest.Proofs.Markup.Verbatim

/-!
# Texts that are no markup

A text between tags that is not escaped shows itself only if nothing in it is taken for markup. All
that is taken for it makes the text shorter, but for one thing: after an odd number of backslashes
at the end of the text the closing tag itself is shown.

* `IsPlain`: nothing in the text is taken for markup, also if a tag follows.
* `exists_of_renderTokens_append`: tokens show no more than they are, and less if one of them is
  taken for markup.
* **What a text between tags shows** (`IsTagName.sublist_of_render`), and when that is the text
  (`IsTagName.render_eq_iff`).
-/

namespace MessageHarvest.Markup

variable {cs stem name : List Char}

/-! ## Texts that are no markup -/

/-- Nothing in the text is taken for markup, also if a tag follows. -/
structure IsPlain (cs : List Char) : Prop where
  no_tag : ¬HoldsTag cs
  no_slashed : ¬HoldsSlashedBracket cs
  ends : cs.getLast? ≠ some '\\'

instance (cs : List Char) : Decidable (IsPlain cs) :=
  decidable_of_iff (¬HoldsTag cs ∧ ¬HoldsSlashedBracket cs ∧ cs.getLast? ≠ some '\\')
    ⟨fun h => ⟨h.1, h.2.1, h.2.2⟩, fun h => ⟨h.no_tag, h.no_slashed, h.ends⟩⟩

/-- What is plain stays so behind a text without brackets and backslashes. -/
theorem isPlain_append_iff {pre : List Char} (hopen : '[' ∉ pre) (hslash : '\\' ∉ pre) :
    IsPlain (pre ++ cs) ↔ IsPlain cs := by
  have htag : HoldsTag (pre ++ cs) ↔ HoldsTag cs := by
    simp only [HoldsTag, suffix_append_iff_of_notMem hopen]
  have hslashed : HoldsSlashedBracket (pre ++ cs) ↔ HoldsSlashedBracket cs := by
    simp only [HoldsSlashedBracket, suffix_append_iff_of_notMem hslash]
  have hends : (pre ++ cs).getLast? = some '\\' ↔ cs.getLast? = some '\\' := by
    cases cs using List.reverseRecOn with
    | nil => simpa using fun h => hslash (List.mem_of_getLast? h)
    | append_singleton cs c =>
      rw [← List.append_assoc, List.getLast?_concat, List.getLast?_concat]
  constructor
  · intro h
    exact ⟨mt htag.mpr h.no_tag, mt hslashed.mpr h.no_slashed, mt hends.mpr h.ends⟩
  · intro h
    exact ⟨mt htag.mp h.no_tag, mt hslashed.mp h.no_slashed, mt hends.mp h.ends⟩

/-- Fewer backslashes are left when some are dropped. -/
theorem backslashes_sublist {m n : Nat} (h : m ≤ n) : (backslashes m).Sublist (backslashes n) :=
  List.replicate_sublist_replicate (a := '\\') |>.mpr h

/-- A token shows no more than it is, and less if it is a tag or a bracket after backslashes. -/
theorem Token.render_sublist {t : Token} {opened opened' : List String} {shown : List Char}
    (h : t.render opened = .ok (shown, opened')) :
    shown.Sublist t.text ∧
      (shown.length = t.text.length → t.isTag = false ∧ t.isSlashedBracket = false) := by
  cases t with
  | char c =>
    cases h
    exact ⟨.refl _, fun _ => ⟨rfl, rfl⟩⟩
  | bracket n =>
    cases h
    refine ⟨(backslashes_sublist (Nat.sub_le n 1)).append_right _, fun heq => ⟨rfl, ?_⟩⟩
    simp only [text, backslashes, List.length_append, List.length_replicate] at heq
    rw [isSlashedBracket, decide_eq_false_iff_not]
    omega
  | tag n body =>
    obtain ⟨hsublist, hlt⟩ : shown.Sublist (tag n body).text ∧
        shown.length < (tag n body).text.length := by
      have hhalf := backslashes_sublist (Nat.div_le_self n 2)
      rw [render] at h
      split at h
      · cases h
        refine ⟨(hhalf.append_right _).append_right _, ?_⟩
        simp only [text, backslashes, List.length_append, List.length_replicate,
          List.length_cons]
        omega
      · cases hafter : afterTag opened body with
        | error e =>
          rw [hafter] at h
          cases h
        | ok opened'' =>
          rw [hafter] at h
          cases h
          refine ⟨hhalf.trans ?_, ?_⟩
          · rw [text, List.append_assoc]
            exact List.sublist_append_left _ _
          · simp only [text, backslashes, List.length_append, List.length_replicate,
              List.length_cons]
            omega
    exact ⟨hsublist, fun heq => absurd heq hlt.ne⟩

/-- Tokens show no more than they are, and less if any of them is taken for markup. -/
theorem exists_of_renderTokens_append {ts us : List Token} {opened : List String}
    {shown : List Char} (h : renderTokens opened (ts ++ us) = .ok shown) :
    ∃ first last opened', shown = first ++ last ∧ renderTokens opened' us = .ok last ∧
      first.Sublist (ts.flatMap Token.text) ∧
      (first.length = (ts.flatMap Token.text).length →
        ts.any Token.isTag = false ∧ ts.any Token.isSlashedBracket = false) := by
  induction ts generalizing opened shown with
  | nil => exact ⟨[], shown, opened, rfl, h, .refl _, fun _ => ⟨rfl, rfl⟩⟩
  | cons t ts ih =>
    rw [List.cons_append, renderTokens] at h
    cases ht : t.render opened with
    | error e =>
      rw [ht] at h
      cases h
    | ok result =>
      obtain ⟨out, opened'⟩ := result
      rw [ht] at h
      dsimp only [bind, Except.bind] at h
      cases hrest : renderTokens opened' (ts ++ us) with
      | error e =>
        rw [hrest] at h
        cases h
      | ok following =>
        rw [hrest] at h
        obtain rfl : out ++ following = shown := Except.ok.inj h
        obtain ⟨first, last, opened'', rfl, hlast, hsublist, heq⟩ := ih hrest
        obtain ⟨htext, hteq⟩ := Token.render_sublist ht
        refine ⟨out ++ first, last, opened'', (List.append_assoc ..).symm, hlast,
          htext.append hsublist, ?_⟩
        rw [List.flatMap_cons, List.length_append, List.length_append, List.any_cons,
          List.any_cons]
        have htle := htext.length_le
        have hle := hsublist.length_le
        intro hlength
        obtain ⟨htag, hslashed⟩ := hteq (by omega)
        obtain ⟨htags, hslasheds⟩ := heq (by omega)
        rw [htag, hslashed, htags, hslasheds]
        exact ⟨rfl, rfl⟩

/-- Tokens that are no markup show what they are. -/
theorem renderTokens_plain {ts : List Token} (htag : ts.any Token.isTag = false)
    (hslashed : ts.any Token.isSlashedBracket = false) (opened : List String) (rest : List Token) :
    renderTokens opened (ts ++ rest) =
      (renderTokens opened rest).map (ts.flatMap Token.text ++ ·) := by
  have hescaped : ts.map Token.escaped = ts := by
    refine (List.map_congr_left fun t ht => ?_).trans (List.map_id ts)
    have h := List.any_eq_false.mp htag t ht
    cases t with
    | char c => rfl
    | bracket n => rfl
    | tag n body => exact absurd rfl h
  rw [← shownEscaped_eq hslashed, ← renderTokens_escaped, hescaped]

/-- What a closing tag shows depends on the backslashes before it only. -/
theorem closeShown_of_renderTokens {opened : List String} {k : Nat} {shown : List Char}
    (h : renderTokens opened [.tag k ('/' :: name)] = .ok shown) : shown = closeShown k name := by
  rw [renderTokens, Token.render] at h
  rw [closeShown]
  split at h
  · next hodd =>
    rw [if_pos hodd]
    exact (Except.ok.inj h).symm.trans (List.append_nil _)
  · next heven =>
    rw [if_neg heven]
    cases hafter : afterTag opened ('/' :: name) with
    | error e =>
      rw [hafter] at h
      cases h
    | ok opened' =>
      rw [hafter] at h
      exact (Except.ok.inj h).symm.trans (List.append_nil _)

/-- A text that is the stem of itself is plain iff its tokens are no markup. -/
theorem isPlain_iff (hstem : stem.getLast? ≠ some '\\') :
    IsPlain stem ↔
      (tokens stem).any Token.isTag = false ∧ (tokens stem).any Token.isSlashedBracket = false := by
  rw [Bool.eq_false_iff, Bool.eq_false_iff, ne_eq, ne_eq, any_isTag_tokens,
    any_isSlashedBracket_tokens]
  exact ⟨fun h => ⟨h.no_tag, h.no_slashed⟩, fun h => ⟨h.1, h.2, hstem⟩⟩

/-- **What a text between tags shows**, unescaped: no more than it is, and less if it is not plain;
but if it ends in backslashes, the closing tag may be shown after it. -/
theorem IsTagName.sublist_of_render (h : IsTagName name) {shown : List Char}
    (hrender : renderTokens []
      (tokens ('[' :: name ++ ']' :: (cs ++ ('[' :: '/' :: name ++ [']'])))) = .ok shown) :
    (shown.Sublist cs ∧ (shown.length = cs.length → IsPlain cs)) ∨
      (shown.Sublist (cs ++ ('[' :: '/' :: name ++ [']'])) ∧ shown.getLast? = some ']' ∧
        cs.getLast? = some '\\') := by
  obtain ⟨stem, k, rfl, hstem⟩ := exists_stem cs
  rw [h.tokens_between (fun rest hrest => tokens_append_backslashes hstem k hrest) [],
    tokens_nil, h.renderTokens_open] at hrender
  obtain ⟨first, last, opened, rfl, hlast, hsublist, hplain⟩ :=
    exists_of_renderTokens_append hrender
  rw [flatMap_text_tokens] at hsublist hplain
  obtain rfl := closeShown_of_renderTokens hlast
  have hhalf := backslashes_sublist (Nat.div_le_self k 2)
  rw [closeShown]
  split
  · next hodd =>
    refine .inr ⟨?_, ?_, getLast?_append_backslashes stem (by omega)⟩
    · rw [List.append_assoc, List.append_assoc]
      exact hsublist.append (hhalf.append_right _)
    · rw [← List.append_assoc, List.getLast?_concat]
  · next heven =>
    refine .inl ⟨hsublist.append hhalf, fun hlength => ?_⟩
    have hle := hsublist.length_le
    simp only [backslashes, List.length_append, List.length_replicate] at hlength
    obtain rfl : k = 0 := by omega
    rw [show backslashes 0 = [] from rfl, List.append_nil, isPlain_iff hstem]
    exact hplain (by omega)

/-- **When a text shows itself between tags**, unescaped: iff nothing in it is taken for markup. -/
theorem IsTagName.render_eq_iff (h : IsTagName name) (cs : List Char) :
    renderTokens [] (tokens ('[' :: name ++ ']' :: (cs ++ ('[' :: '/' :: name ++ [']'])))) =
      .ok cs ↔ IsPlain cs := by
  constructor
  · intro hrender
    rcases h.sublist_of_render hrender with ⟨-, hplain⟩ | ⟨-, hbracket, hslash⟩
    · exact hplain rfl
    · rw [hbracket] at hslash
      exact absurd hslash (by decide)
  · intro hplain
    obtain ⟨htag, hslashed⟩ := (isPlain_iff hplain.ends).mp hplain
    have htokens := h.tokens_between
      (fun rest hrest => tokens_append_backslashes hplain.ends 0 hrest) []
    rw [show backslashes 0 = [] from rfl, List.append_nil] at htokens
    rw [htokens, tokens_nil, h.renderTokens_open, renderTokens_plain htag hslashed,
      h.renderTokens_close, flatMap_text_tokens]
    exact congrArg Except.ok (List.append_nil cs)

end MessageHarvest.Markup
