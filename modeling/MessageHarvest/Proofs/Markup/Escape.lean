import MessageHarvest.Markup.Escape
import MessageHarvest.Markup.Render
import Mathlib.Data.List.TakeWhile

/-!
# Escaped texts in markup

The markup that `escape` makes of a text opens no tag and closes none, whatever the text is and
whatever markup it is put into.

* `tokensFrom_escape`: escaped text has the tokens of the text, but that each tag in it has more
  than twice as many backslashes, an odd number. Only backslashes at the end of the text are left to
  what follows.
* `Inert`: markup that opens and closes nothing, whatever follows.
* **Escaped texts are inert** (`inert_escapeChars`), and inert markup can be shown, also between
  tags (`Inert.exists_render`, `IsTagName.exists_render`).
-/

namespace MessageHarvest.Markup

/-! ## Tags in a text -/

/-- An empty text holds no closing bracket. -/
@[simp] theorem untilClose?_nil : untilClose? [] = none := rfl

/-- An opening bracket comes before any closing one. -/
theorem untilClose?_bracket (cs : List Char) : untilClose? ('[' :: cs) = none := rfl

/-- Other characters than brackets are passed. -/
theorem untilClose?_cons {c : Char} (hclose : c ≠ ']') (hopen : c ≠ '[') (cs : List Char) :
    untilClose? (c :: cs) = (untilClose? cs).map (c :: ·) := by
  rw [untilClose?, if_neg hclose, if_neg hopen]

/-- Backslashes in front do not make a closing bracket come first. -/
theorem untilClose?_backslashes {cs : List Char} (h : untilClose? cs = none) (n : Nat) :
    untilClose? (backslashes n ++ cs) = none := by
  induction n with
  | zero => exact h
  | succ n ih =>
    rw [backslashes, List.replicate_succ, List.cons_append,
      untilClose?_cons (by decide) (by decide), ← backslashes, ih]
    rfl

/-- What stands before the next closing bracket holds no bracket. -/
theorem untilClose?_eq_some_iff {cs body : List Char} :
    untilClose? cs = some body ↔
      (∀ c ∈ body, c ≠ ']' ∧ c ≠ '[') ∧ ∃ after, cs = body ++ ']' :: after := by
  induction cs generalizing body with
  | nil => simp
  | cons c cs ih =>
    by_cases hclose : c = ']'
    · subst hclose
      rw [untilClose?, if_pos rfl, Option.some_inj]
      constructor
      · rintro rfl
        exact ⟨fun c hc => absurd hc List.not_mem_nil, cs, rfl⟩
      · rintro ⟨hbody, after, heq⟩
        cases body with
        | nil => rfl
        | cons b body =>
          cases heq
          exact absurd rfl (hbody ']' List.mem_cons_self).1
    by_cases hopen : c = '['
    · subst hopen
      rw [untilClose?_bracket]
      constructor
      · intro h
        cases h
      · rintro ⟨hbody, after, heq⟩
        cases body with
        | nil => cases heq
        | cons b body =>
          cases heq
          exact absurd rfl (hbody '[' List.mem_cons_self).2
    · rw [untilClose?_cons hclose hopen, Option.map_eq_some_iff]
      constructor
      · rintro ⟨body, hbody, rfl⟩
        obtain ⟨hclear, after, rfl⟩ := ih.mp hbody
        exact ⟨List.forall_mem_cons.mpr ⟨⟨hclose, hopen⟩, hclear⟩, after, rfl⟩
      · rintro ⟨hbody, after, heq⟩
        cases body with
        | nil => exact absurd (List.cons.inj heq).1 hclose
        | cons b body =>
          cases heq
          exact ⟨body, ih.mpr ⟨(List.forall_mem_cons.mp hbody).2, after, rfl⟩, rfl⟩

/-- What may begin the body of a tag is neither a bracket nor a backslash. -/
theorem ne_of_opensBody {c : Char} (h : opensBody c = true) : c ≠ ']' ∧ c ≠ '[' ∧ c ≠ '\\' := by
  refine ⟨?_, ?_, ?_⟩
  · rintro rfl
    cases h
  · rintro rfl
    cases h
  · rintro rfl
    cases h

/-- The body of a tag is what stands before the next closing bracket, if it begins well. -/
theorem body?_eq_some_iff {cs body : List Char} :
    body? cs = some body ↔ body.head?.any opensBody = true ∧ untilClose? cs = some body := by
  cases cs with
  | nil => simp [body?]
  | cons c cs =>
    rw [body?]
    by_cases hc : opensBody c = true
    · obtain ⟨hclose, hopen, -⟩ := ne_of_opensBody hc
      rw [if_pos hc, ← untilClose?_cons hclose hopen, untilClose?_cons hclose hopen,
        Option.map_eq_some_iff]
      constructor
      · rintro ⟨body, hbody, rfl⟩
        exact ⟨hc, body, hbody, rfl⟩
      · exact fun h => h.2
    · rw [if_neg hc, untilClose?_eq_some_iff]
      constructor
      · intro h
        cases h
      · rintro ⟨hhead, -, after, heq⟩
        cases body with
        | nil => cases hhead
        | cons b body =>
          cases heq
          exact absurd hhead hc

/-- Whatever follows a tag, its body stays what it is. -/
theorem body?_of_body? {cs body : List Char} (h : body? cs = some body) (after : List Char) :
    body? (body ++ ']' :: after) = some body := by
  obtain ⟨hhead, huntil⟩ := body?_eq_some_iff.mp h
  obtain ⟨hclear, -⟩ := untilClose?_eq_some_iff.mp huntil
  exact body?_eq_some_iff.mpr ⟨hhead, untilClose?_eq_some_iff.mpr ⟨hclear, after, rfl⟩⟩

/-- Without a closing bracket there is no tag. -/
theorem body?_eq_none {cs : List Char} (h : untilClose? cs = none) : body? cs = none := by
  rw [Option.eq_none_iff_forall_ne_some]
  intro body hbody
  rw [(body?_eq_some_iff.mp hbody).2] at h
  cases h

/-! ## Tokens -/

variable {cs rest body : List Char} {before : Nat}

/-- At the end the backslashes that were counted stand for themselves. -/
theorem tokensFrom_nil (skip before : Nat) :
    tokensFrom skip before [] = (backslashes before).map .char := by
  rw [tokensFrom]

/-- An empty text has no tokens. -/
@[simp] theorem tokens_nil : tokens [] = [] := rfl

/-- A backslash is counted. -/
theorem tokensFrom_backslash (before : Nat) (cs : List Char) :
    tokensFrom 0 before ('\\' :: cs) = tokensFrom 0 (before + 1) cs := by
  rw [tokensFrom, if_pos rfl]

/-- A tag takes the backslashes before it along. -/
theorem tokensFrom_tag (h : body? cs = some body) (before : Nat) :
    tokensFrom 0 before ('[' :: cs) = .tag before body :: tokensFrom (body.length + 1) 0 cs := by
  rw [tokensFrom, if_neg (by decide), if_pos rfl, h]

/-- So does another opening bracket. -/
theorem tokensFrom_bracket (h : body? cs = none) (before : Nat) :
    tokensFrom 0 before ('[' :: cs) = .bracket before :: tokensFrom 0 0 cs := by
  rw [tokensFrom, if_neg (by decide), if_pos rfl, h]

/-- Before any other character the backslashes stand for themselves. -/
theorem tokensFrom_char {c : Char} (hslash : c ≠ '\\') (hopen : c ≠ '[') (before : Nat)
    (cs : List Char) :
    tokensFrom 0 before (c :: cs) =
      (backslashes before).map .char ++ .char c :: tokensFrom 0 0 cs := by
  rw [tokensFrom, if_neg hslash, if_neg hopen]

/-- Backslashes are counted one by one. -/
theorem tokensFrom_backslashes (n before : Nat) (cs : List Char) :
    tokensFrom 0 before (backslashes n ++ cs) = tokensFrom 0 (before + n) cs := by
  induction n generalizing before with
  | zero => rfl
  | succ n ih =>
    rw [backslashes, List.replicate_succ, List.cons_append, tokensFrom_backslash, ← backslashes, ih,
      Nat.add_assoc, Nat.add_comm 1]

/-- Backslashes at the beginning of a text are counted. -/
theorem tokens_backslashes (n : Nat) (cs : List Char) :
    tokens (backslashes n ++ cs) = tokensFrom 0 n cs := by
  rw [tokens, tokensFrom_backslashes, Nat.zero_add]

/-- What a tag has taken is passed. -/
theorem tokensFrom_skip (taken : List Char) (before : Nat) (cs : List Char) :
    tokensFrom taken.length before (taken ++ cs) = tokensFrom 0 before cs := by
  induction taken with
  | nil => rfl
  | cons c taken ih => rw [List.length_cons, List.cons_append, tokensFrom, ih]

/-- A tag, and then the tokens of what follows. -/
theorem tokensFrom_tag_append (h : body? (body ++ ']' :: cs) = some body) (before : Nat) :
    tokensFrom 0 before ('[' :: body ++ ']' :: cs) = .tag before body :: tokens cs := by
  have hskip := tokensFrom_skip (body ++ [']']) 0 cs
  rw [List.length_append, List.length_singleton, List.append_assoc, List.singleton_append] at hskip
  rw [List.cons_append, tokensFrom_tag h, hskip, tokens]

/-! ## Tokens of escaped texts -/

/-- The markup for the tokens of a text. -/
def escapeFrom (skip before : Nat) (cs : List Char) : List Char :=
  (tokensFrom skip before cs).flatMap Token.escape

/-- What shows characters as they are shows a row of them as it is. -/
theorem flatMap_map_char {f : Token → List Char} (h : ∀ c, f (.char c) = [c]) (cs : List Char) :
    (cs.map Token.char).flatMap f = cs := by
  rw [List.flatMap_map]
  simp only [h]
  exact List.flatMap_singleton' cs

/-- At the end the backslashes that were counted are written as they are. -/
theorem escapeFrom_nil (skip before : Nat) : escapeFrom skip before [] = backslashes before := by
  rw [escapeFrom, tokensFrom_nil, flatMap_map_char (fun _ => rfl)]

/-- A backslash is counted. -/
theorem escapeFrom_backslash (before : Nat) (cs : List Char) :
    escapeFrom 0 before ('\\' :: cs) = escapeFrom 0 (before + 1) cs := by
  rw [escapeFrom, tokensFrom_backslash, escapeFrom]

/-- Before a tag the backslashes are doubled, and one more is written. -/
theorem escapeFrom_tag (h : body? cs = some body) (before : Nat) :
    escapeFrom 0 before ('[' :: cs) =
      backslashes (2 * before + 1) ++
        ('[' :: body ++ ']' :: escapeFrom (body.length + 1) 0 cs) := by
  rw [escapeFrom, tokensFrom_tag h, List.flatMap_cons, Token.escape, escapeFrom]
  simp only [List.append_assoc, List.cons_append, List.nil_append]

/-- Before another opening bracket they are written as they are. -/
theorem escapeFrom_bracket (h : body? cs = none) (before : Nat) :
    escapeFrom 0 before ('[' :: cs) = backslashes before ++ '[' :: escapeFrom 0 0 cs := by
  rw [escapeFrom, tokensFrom_bracket h, List.flatMap_cons, Token.escape, escapeFrom,
    List.append_assoc, List.singleton_append]

/-- So they are before any other character. -/
theorem escapeFrom_char {c : Char} (hslash : c ≠ '\\') (hopen : c ≠ '[') (before : Nat)
    (cs : List Char) :
    escapeFrom 0 before (c :: cs) = backslashes before ++ c :: escapeFrom 0 0 cs := by
  rw [escapeFrom, tokensFrom_char hslash hopen, List.flatMap_append,
    flatMap_map_char (fun _ => rfl), List.flatMap_cons, Token.escape, escapeFrom,
    List.singleton_append]

/-- Escaping adds no closing bracket that could end a tag. -/
theorem untilClose?_escapeFrom (hcs : untilClose? cs = none) (hrest : untilClose? rest = none)
    (before : Nat) : untilClose? (escapeFrom 0 before cs ++ rest) = none := by
  induction cs generalizing before with
  | nil =>
    rw [escapeFrom_nil]
    exact untilClose?_backslashes hrest before
  | cons c cs ih =>
    by_cases hslash : c = '\\'
    · subst hslash
      rw [untilClose?_cons (by decide) (by decide), Option.map_eq_none_iff] at hcs
      rw [escapeFrom_backslash]
      exact ih hcs (before + 1)
    by_cases hopen : c = '['
    · subst hopen
      cases hbody : body? cs with
      | none =>
        rw [escapeFrom_bracket hbody, List.append_assoc]
        exact untilClose?_backslashes (untilClose?_bracket _) before
      | some body =>
        rw [escapeFrom_tag hbody, List.append_assoc]
        exact untilClose?_backslashes (untilClose?_bracket _) _
    · have hclose : c ≠ ']' := by
        rintro rfl
        cases hcs
      rw [untilClose?_cons hclose hopen, Option.map_eq_none_iff] at hcs
      rw [escapeFrom_char hslash hopen, List.append_assoc]
      apply untilClose?_backslashes
      rw [List.cons_append, untilClose?_cons hclose hopen, ih hcs 0]
      rfl

/-- Backslashes are still there after escaping. -/
theorem exists_escapeFrom_succ (before : Nat) (cs : List Char) :
    ∃ tail, escapeFrom 0 (before + 1) cs = '\\' :: tail := by
  induction cs generalizing before with
  | nil => exact ⟨_, escapeFrom_nil 0 (before + 1)⟩
  | cons c cs ih =>
    by_cases hslash : c = '\\'
    · subst hslash
      rw [escapeFrom_backslash]
      exact ih (before + 1)
    by_cases hopen : c = '['
    · subst hopen
      cases hbody : body? cs with
      | none => exact ⟨_, escapeFrom_bracket hbody (before + 1)⟩
      | some body => exact ⟨_, escapeFrom_tag hbody (before + 1)⟩
    · exact ⟨_, escapeFrom_char hslash hopen (before + 1) cs⟩

/-- Escaping what follows a bracket that begins no tag does not make it begin one. -/
theorem body?_escapeFrom (hcs : body? cs = none) (hrest : untilClose? rest = none) :
    body? (escapeFrom 0 0 cs ++ rest) = none := by
  cases cs with
  | nil => exact body?_eq_none hrest
  | cons c cs =>
    by_cases hslash : c = '\\'
    · subst hslash
      obtain ⟨tail, htail⟩ := exists_escapeFrom_succ 0 cs
      rw [escapeFrom_backslash, htail]
      rfl
    by_cases hopen : c = '['
    · subst hopen
      cases hbody : body? cs with
      | none =>
        rw [escapeFrom_bracket hbody]
        rfl
      | some body =>
        rw [escapeFrom_tag hbody]
        rfl
    · rw [escapeFrom_char hslash hopen]
      change body? (c :: (escapeFrom 0 0 cs ++ rest)) = none
      rw [body?] at hcs ⊢
      split at hcs
      · next hc =>
        rw [Option.map_eq_none_iff] at hcs
        rw [if_pos hc, untilClose?_escapeFrom hcs hrest]
        rfl
      · next hc => exact if_neg hc

/-- A token after escaping. -/
def Token.escaped : Token → Token
  | tag n body => .tag (2 * n + 1) body
  | t => t

/-- **The tokens of escaped text**, whatever follows that ends no tag. The backslashes at the end of
the text belong to what follows. -/
theorem tokensFrom_escape (skip before : Nat) (cs : List Char) :
    ∃ ts k, tokensFrom skip before cs = ts ++ (backslashes k).map .char ∧
      ∀ rest, untilClose? rest = none →
        tokens (escapeFrom skip before cs ++ rest) =
          ts.map Token.escaped ++ tokensFrom 0 k rest := by
  induction cs generalizing skip before with
  | nil =>
    refine ⟨[], before, tokensFrom_nil skip before, fun rest _ => ?_⟩
    rw [escapeFrom_nil, tokens_backslashes]
    rfl
  | cons c cs ih =>
    cases skip with
    | succ skip =>
      have hskip : tokensFrom (skip + 1) before (c :: cs) = tokensFrom skip before cs := by
        rw [tokensFrom]
      rw [escapeFrom, hskip]
      exact ih skip before
    | zero =>
      by_cases hslash : c = '\\'
      · subst hslash
        rw [tokensFrom_backslash, escapeFrom_backslash]
        exact ih 0 (before + 1)
      by_cases hopen : c = '['
      · subst hopen
        cases hbody : body? cs with
        | none =>
          obtain ⟨ts, k, hts, hescape⟩ := ih 0 0
          refine ⟨.bracket before :: ts, k, ?_, fun rest hrest => ?_⟩
          · rw [tokensFrom_bracket hbody, hts, List.cons_append]
          · rw [escapeFrom_bracket hbody, List.append_assoc, tokens_backslashes, List.cons_append,
              tokensFrom_bracket (body?_escapeFrom hbody hrest), ← tokens, hescape rest hrest]
            rfl
        | some body =>
          obtain ⟨ts, k, hts, hescape⟩ := ih (body.length + 1) 0
          refine ⟨.tag before body :: ts, k, ?_, fun rest hrest => ?_⟩
          · rw [tokensFrom_tag hbody, hts, List.cons_append]
          · have happend : '[' :: body ++ ']' :: escapeFrom (body.length + 1) 0 cs ++ rest =
                '[' :: body ++ ']' :: (escapeFrom (body.length + 1) 0 cs ++ rest) := by
              simp only [List.append_assoc, List.cons_append]
            rw [escapeFrom_tag hbody, List.append_assoc, tokens_backslashes, happend,
              tokensFrom_tag_append (body?_of_body? hbody _), hescape rest hrest]
            rfl
      · obtain ⟨ts, k, hts, hescape⟩ := ih 0 0
        refine ⟨(backslashes before).map .char ++ .char c :: ts, k, ?_, fun rest hrest => ?_⟩
        · rw [tokensFrom_char hslash hopen, hts, List.append_assoc, List.cons_append]
        · rw [escapeFrom_char hslash hopen, List.append_assoc, tokens_backslashes,
            List.cons_append, tokensFrom_char hslash hopen, ← tokens, hescape rest hrest]
          simp only [List.map_append, List.map_map, List.map_cons, List.append_assoc,
            List.cons_append]
          rfl

/-! ## Markup that opens and closes nothing -/

/-- The token is a tag that has its effect. -/
def Token.isActive : Token → Bool
  | tag n _ => n % 2 = 0
  | _ => false

/-- What a token shows that is not active. -/
def Token.shown : Token → List Char
  | char c => [c]
  | bracket n => backslashes (n - 1) ++ ['[']
  | tag n body => backslashes (n / 2) ++ '[' :: body ++ [']']

/-- A token that is not active shows its text and opens or closes nothing. -/
theorem Token.render_eq_shown {t : Token} (h : t.isActive = false) (opened : List String) :
    t.render opened = .ok (t.shown, opened) := by
  cases t with
  | char c => rfl
  | bracket n => rfl
  | tag n body =>
    have hodd : n % 2 = 1 := by
      have hne : n % 2 ≠ 0 := of_decide_eq_false h
      omega
    exact if_pos hodd

/-- A token that was escaped is not active. -/
theorem Token.isActive_escaped (t : Token) : t.escaped.isActive = false := by
  cases t with
  | char c => rfl
  | bracket n => rfl
  | tag n body =>
    rw [escaped, isActive, decide_eq_false_iff_not]
    omega

/-- Tokens that are not active are shown before what follows. -/
theorem renderTokens_append {ts : List Token} (h : ∀ t ∈ ts, t.isActive = false)
    (opened : List String) (rest : List Token) :
    renderTokens opened (ts ++ rest) =
      (renderTokens opened rest).map (ts.flatMap Token.shown ++ ·) := by
  induction ts with
  | nil =>
    rw [List.nil_append]
    cases renderTokens opened rest <;> rfl
  | cons t ts ih =>
    obtain ⟨ht, hts⟩ := List.forall_mem_cons.mp h
    rw [List.cons_append, renderTokens, Token.render_eq_shown ht]
    dsimp only [bind, Except.bind]
    rw [ih hts]
    cases renderTokens opened rest with
    | error e => rfl
    | ok out => simp [Except.map, pure, Except.pure]

/-- Markup that neither opens nor closes a tag, whatever follows that ends none. The backslashes at
its end belong to what follows. -/
def Inert (cs : List Char) : Prop :=
  ∃ ts k, (∀ t ∈ ts, t.isActive = false) ∧
    ∀ rest, untilClose? rest = none → tokens (cs ++ rest) = ts ++ tokensFrom 0 k rest

/-- **Escaped texts are inert**. -/
theorem inert_escapeChars (cs : List Char) : Inert (escapeChars cs) := by
  obtain ⟨ts, k, -, hescape⟩ := tokensFrom_escape 0 0 cs
  have hactive : ∀ t ∈ ts.map Token.escaped, t.isActive = false :=
    List.forall_mem_map.mpr fun t _ => t.isActive_escaped
  change Inert (if endsInOneBackslash (escapeFrom 0 0 cs) then escapeFrom 0 0 cs ++ ['\\']
    else escapeFrom 0 0 cs)
  split
  · refine ⟨_, k + 1, hactive, fun rest hrest => ?_⟩
    have hslash : untilClose? ('\\' :: rest) = none := untilClose?_backslashes hrest 1
    rw [List.append_assoc, List.singleton_append, hescape _ hslash, tokensFrom_backslash]
  · exact ⟨_, k, hactive, hescape⟩

/-- Texts without opening brackets and backslashes are inert as they are. -/
theorem inert_of_plain (h : ∀ c ∈ cs, c ≠ '\\' ∧ c ≠ '[') : Inert cs := by
  refine ⟨cs.map .char, 0, List.forall_mem_map.mpr fun c _ => rfl, fun rest _ => ?_⟩
  induction cs with
  | nil => rfl
  | cons c cs ih =>
    obtain ⟨⟨hslash, hopen⟩, hcs⟩ := List.forall_mem_cons.mp h
    rw [List.cons_append, tokens, tokensFrom_char hslash hopen, ← tokens, ih hcs]
    rfl

/-- What holds no active token can be shown, whatever is open. -/
theorem Inert.exists_renderTokens (h : Inert cs) (opened : List String) :
    ∃ shown, renderTokens opened (tokens cs) = .ok shown := by
  obtain ⟨ts, k, hactive, htokens⟩ := h
  have hnil := htokens [] untilClose?_nil
  rw [List.append_nil, tokensFrom_nil] at hnil
  have hend : ∀ t ∈ ts ++ (backslashes k).map Token.char, t.isActive = false := by
    rw [List.forall_mem_append]
    exact ⟨hactive, List.forall_mem_map.mpr fun c _ => rfl⟩
  have hrender := renderTokens_append hend opened []
  rw [List.append_nil] at hrender
  exact ⟨_, by rw [hnil, hrender]; rfl⟩

/-- **Inert markup can be shown**. -/
theorem Inert.exists_render {markup : String} (h : Inert markup.toList) :
    ∃ shown, render markup = .ok shown := by
  obtain ⟨shown, hshown⟩ := h.exists_renderTokens []
  exact ⟨String.ofList shown, by rw [render, hshown]; rfl⟩

/-! ## Markup between tags -/

/-- A name that can stand in an opening tag and in a closing one. -/
structure IsTagName (name : List Char) : Prop where
  opens : name.head?.any opensBody = true
  no_slash : name.head? ≠ some '/'
  clear : ∀ c ∈ name, c ≠ ']' ∧ c ≠ '[' ∧ c ≠ '='
  trimmed : Text.trim name = name

/-- The name of a tag has no parameter. -/
theorem IsTagName.takeWhile {name : List Char} (h : IsTagName name) :
    name.takeWhile (· ≠ '=') = name := by
  rw [List.takeWhile_eq_self_iff]
  intro c hc
  exact decide_eq_true (h.clear c hc).2.2

/-- The name of a tag opens it. -/
theorem IsTagName.afterTag_open {name : List Char} (h : IsTagName name) (opened : List String) :
    afterTag opened name = .ok (normalName name :: opened) := by
  unfold afterTag
  rw [h.takeWhile]
  split
  · exact absurd rfl h.no_slash
  · rfl

/-- Behind a slash it closes what it has opened. -/
theorem IsTagName.afterTag_close {name : List Char} (h : IsTagName name) (opened : List String) :
    afterTag (normalName name :: opened) ('/' :: name) = .ok opened := by
  have hempty : name.isEmpty = false := by
    cases name with
    | nil => cases h.opens
    | cons c name => rfl
  unfold afterTag
  rw [List.takeWhile_cons_of_pos (by decide), h.takeWhile]
  change (if (Text.trim name).isEmpty then _ else
    if normalName (Text.trim name) ∈ normalName name :: opened then _ else _) = _
  rw [h.trimmed, hempty, if_neg Bool.false_ne_true, if_pos List.mem_cons_self,
    List.erase_cons_head]

/-- The name of a tag is the body of its opening tag. -/
theorem IsTagName.body? {name : List Char} (h : IsTagName name) (after : List Char) :
    Markup.body? (name ++ ']' :: after) = some name :=
  body?_eq_some_iff.mpr ⟨h.opens, untilClose?_eq_some_iff.mpr
    ⟨fun c hc => ⟨(h.clear c hc).1, (h.clear c hc).2.1⟩, after, rfl⟩⟩

/-- The name behind a slash is the body of its closing tag. -/
theorem IsTagName.body?_slash {name : List Char} (h : IsTagName name) (after : List Char) :
    Markup.body? ('/' :: name ++ ']' :: after) = some ('/' :: name) := by
  refine body?_eq_some_iff.mpr ⟨rfl, untilClose?_eq_some_iff.mpr ⟨?_, after, rfl⟩⟩
  rw [List.forall_mem_cons]
  exact ⟨by decide, fun c hc => ⟨(h.clear c hc).1, (h.clear c hc).2.1⟩⟩

/-- The tokens of a text between tags, if those of the text are known whatever follows it. -/
theorem IsTagName.tokens_between {name inner : List Char} {ts : List Token} {k : Nat}
    (h : IsTagName name)
    (hinner : ∀ rest, untilClose? rest = none → tokens (inner ++ rest) = ts ++ tokensFrom 0 k rest)
    (after : List Char) :
    tokens ('[' :: name ++ ']' :: (inner ++ ('[' :: '/' :: name ++ ']' :: after))) =
      .tag 0 name :: (ts ++ .tag k ('/' :: name) :: tokens after) := by
  have hopen := tokensFrom_tag_append
    (h.body? (inner ++ ('[' :: '/' :: name ++ ']' :: after))) 0
  have hclose := tokensFrom_tag_append (h.body?_slash after) k
  have hlast : tokens (inner ++ ('[' :: '/' :: name ++ ']' :: after)) =
      ts ++ .tag k ('/' :: name) :: tokens after :=
    (hinner ('[' :: '/' :: name ++ ']' :: after) (untilClose?_bracket _)).trans
      (congrArg (ts ++ ·) hclose)
  rw [tokens, hopen, hlast]

/-- A tag that has nothing before it opens. -/
theorem IsTagName.renderTokens_open {name : List Char} (h : IsTagName name) (rest : List Token) :
    renderTokens [] (.tag 0 name :: rest) = renderTokens [normalName name] rest := by
  have htag : (Token.tag 0 name).render [] = .ok ([], [normalName name]) := by
    rw [Token.render, if_neg (by decide), h.afterTag_open]
    rfl
  rw [renderTokens, htag]
  dsimp only [bind, Except.bind]
  cases renderTokens [normalName name] rest <;> rfl

/-- **Inert markup between tags** can be shown. If its backslashes take the closing tag's meaning
away, the tag just stays open. -/
theorem IsTagName.exists_render {name inner after : List Char} (h : IsTagName name)
    (hinner : Inert inner) (hafter : Inert after) :
    ∃ shown, render (String.ofList
      ('[' :: name ++ ']' :: (inner ++ ('[' :: '/' :: name ++ ']' :: after)))) = .ok shown := by
  obtain ⟨ts, k, hactive, htokens⟩ := hinner
  -- whether the tag is closed or not, what follows can be shown
  obtain ⟨opened, out, hout⟩ : ∃ opened out,
      (Token.tag k ('/' :: name)).render [normalName name] = .ok (out, opened) := by
    rw [Token.render]
    split
    · exact ⟨_, _, rfl⟩
    · rw [h.afterTag_close]
      exact ⟨_, _, rfl⟩
  obtain ⟨last, hlast⟩ := hafter.exists_renderTokens opened
  have hrest : renderTokens [normalName name] (.tag k ('/' :: name) :: tokens after) =
      .ok (out ++ last) := by
    rw [renderTokens, hout]
    dsimp only [bind, Except.bind]
    rw [hlast]
    rfl
  refine ⟨String.ofList (ts.flatMap Token.shown ++ (out ++ last)), ?_⟩
  rw [render, String.toList_ofList, h.tokens_between htokens, h.renderTokens_open,
    renderTokens_append hactive, hrest]
  rfl

end MessageHarvest.Markup
