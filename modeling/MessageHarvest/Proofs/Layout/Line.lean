import MessageHarvest.Layout.Line
import Mathlib.Data.List.DropRight
import Mathlib.Data.List.TakeDrop

/-!
# Texts that fit a line

A text that fits a line is laid out in that line, as it is. Only blanks at its end may be dropped,
where characters that take no cells make it longer than the line has cells.

* `IsLine`: the text is a single line, in which nothing is expanded or dropped.
* `breakLine_of_fits` and `total_le_of_breakLine`: a text that does not end in a blank stays in one
  line iff it fits.
* **What a paragraph of a text that fits is** (`paragraph_of_fits`, `paragraph_eq_iff`), and which
  texts have a given line as their paragraph (`eq_of_paragraph_of_sublist`,
  `eq_of_paragraph_of_trimEnd`).
-/

namespace MessageHarvest.Layout

open CellWidth Text

variable {width : Nat} {o : Overflow} {cs line : List Char}

/-! ## Characters -/

/-- A text of a single line, in which no character is dropped or expanded. -/
def IsLine (cs : List Char) : Prop :=
  ∀ c ∈ cs, c.toNat < 7 ∨ 13 < c.toNat

instance (cs : List Char) : Decidable (IsLine cs) :=
  List.decidableBAll (fun c : Char => c.toNat < 7 ∨ 13 < c.toNat) cs

/-- What is left of a line when characters are dropped is a line. -/
theorem IsLine.sublist {ds : List Char} (h : IsLine ds) (hsublist : cs.Sublist ds) : IsLine cs :=
  fun c hc => h c (hsublist.mem hc)

/-- Two texts in a row are a line iff each of them is. -/
theorem isLine_append {ds : List Char} : IsLine (cs ++ ds) ↔ IsLine cs ∧ IsLine ds :=
  List.forall_mem_append

/-- A line holds none of the controls that are dropped. -/
theorem IsLine.notMem {c : Char} (h : IsLine cs) (hc : 7 ≤ c.toNat ∧ c.toNat ≤ 13) : c ∉ cs :=
  fun hmem => by
    have hcode := h c hmem
    omega

/-- Of a line nothing is dropped. -/
theorem IsLine.printable (h : IsLine cs) : printable cs = cs := by
  rw [Layout.printable, List.filter_eq_self]
  intro c hc
  have hcode := h c hc
  simp only [Bool.not_eq_true', Bool.or_eq_false_iff, Bool.and_eq_false_iff,
    decide_eq_false_iff_not]
  omega

/-- Without tabs there is nothing to expand. -/
theorem expandTabs_eq_self (h : '\t' ∉ cs) (cell : Nat) : expandTabs cell cs = cs := by
  induction cs generalizing cell with
  | nil => rfl
  | cons c cs ih =>
    obtain ⟨hne, hcs⟩ : '\t' ≠ c ∧ '\t' ∉ cs := by simpa using h
    rw [expandTabs, if_neg hne.symm, ih hcs]

/-- The lines of a text that is a single line. -/
theorem IsLine.lines (h : IsLine cs) :
    lines o width cs =
      (breakLine o width cs).map fun part => limit o width (dropExcess width part) := by
  rw [Layout.lines, h.printable, split_of_notMem (h.notMem (by decide)), List.flatMap_singleton,
    expandTabs_eq_self (h.notMem (by decide))]

/-! ## Cells -/

/-- Dropping characters makes no text wider. -/
theorem total_le_of_sublist {ds : List Char} (h : cs.Sublist ds) : total cs ≤ total ds := by
  induction h with
  | slnil => rfl
  | cons c _ ih => exact ih.trans (Nat.le_add_left _ _)
  | cons_cons c _ ih => exact Nat.add_le_add_left ih _

/-- A text without the blanks at its end is what it begins with. -/
theorem isPrefix_trimEnd (cs : List Char) : trimEnd cs <+: cs :=
  List.rdropWhile_prefix isBlank cs

/-- Nothing is trimmed iff the last character is no blank. -/
theorem trimEnd_eq_self_iff : trimEnd cs = cs ↔ ∀ c, cs.getLast? = some c → isBlank c = false := by
  change cs.rdropWhile isBlank = cs ↔ _
  rw [List.rdropWhile_eq_self_iff]
  constructor
  · intro h c hc
    obtain ⟨hne, rfl⟩ := List.getLast?_eq_some_iff.mp hc
    simpa using h
  · intro h hne
    simpa using h _ (List.getLast?_eq_some_getLast hne)

/-! ## Words -/

/-- The words of a text are the text. -/
theorem flatten_chunksAfter {chunk : List Char} {hasWord : Bool}
    (h : hasWord = true ∨ chunksAfter chunk hasWord cs ≠ []) :
    (chunksAfter chunk hasWord cs).flatten = chunk.reverse ++ cs := by
  induction cs generalizing chunk hasWord with
  | nil =>
    cases hasWord with
    | true => simp [chunksAfter]
    | false => simp [chunksAfter] at h
  | cons c cs ih =>
    rw [chunksAfter] at h ⊢
    split
    · rw [List.flatten_cons, ih (.inl rfl)]
      simp
    · next hcut =>
      rw [if_neg hcut] at h
      rw [ih (h.imp (fun hw => by rw [hw]; rfl) id)]
      simp

/-- Where there is a word, there is a chunk. -/
theorem chunksAfter_ne_nil {chunk : List Char} {hasWord : Bool}
    (h : hasWord = true ∨ ∃ c ∈ cs, isBlank c = false) : chunksAfter chunk hasWord cs ≠ [] := by
  induction cs generalizing chunk hasWord with
  | nil => simpa [chunksAfter] using h
  | cons c cs ih =>
    rw [chunksAfter]
    split
    · exact List.cons_ne_nil _ _
    · apply ih
      rcases h with hw | ⟨d, hd, hblank⟩
      · exact .inl (by rw [hw]; rfl)
      · rcases List.mem_cons.mp hd with rfl | hd
        · exact .inl (by rw [hblank]; simp)
        · exact .inr ⟨d, hd, hblank⟩

/-! ## Breaking -/

/-- Words that fit the line all go into it. -/
theorem breakBefore_of_fits {words : List (List Char)} (isFirst : Bool)
    (h : total line + total words.flatten ≤ width) :
    breakBefore o width isFirst line (total line) words = [line ++ words.flatten] := by
  induction words generalizing line isFirst with
  | nil => rw [breakBefore, List.flatten_nil, List.append_nil]
  | cons word words ih =>
    rw [List.flatten_cons, total_append] at h
    have hword := total_le_of_sublist (isPrefix_trimEnd word).sublist
    have hrest : total (line ++ word) + total words.flatten ≤ width := by
      rw [total_append]
      omega
    rw [breakBefore.eq_def]
    dsimp only
    rw [if_pos (by omega), ← total_append, ih false hrest, List.flatten_cons, List.append_assoc]

/-- **What fits a line** is not broken. -/
theorem breakLine_of_fits (h : total cs ≤ width) : breakLine o width cs = [cs] := by
  rw [breakLine]
  cases hwords : chunksAfter [] false cs with
  | nil => rfl
  | cons word words =>
    have hflatten : (word :: words).flatten = cs := by
      rw [← hwords]
      exact flatten_chunksAfter (.inr (by rw [hwords]; exact List.cons_ne_nil _ _))
    have hfits : total ([] : List Char) + total (word :: words).flatten ≤ width := by
      rw [hflatten, total]
      omega
    exact (breakBefore_of_fits true hfits).trans (by rw [hflatten, List.nil_append])

/-- There is always a first line. -/
theorem breakBefore_ne_nil (isFirst : Bool) (line : List Char) (cells : Nat)
    (words : List (List Char)) : breakBefore .fold width isFirst line cells words ≠ [] := by
  induction words generalizing isFirst line cells with
  | nil => exact List.cons_ne_nil _ _
  | cons word words ih =>
    rw [breakBefore]
    dsimp only
    split
    · exact ih _ _ _
    split
    · exact fun h => ih _ _ _ (List.append_eq_nil_iff.mp h).2
    split
    · exact List.cons_ne_nil _ _
    · exact ih _ _ _

/-- There is always a first piece. -/
theorem foldAfter_ne_nil (piece cs : List Char) : foldAfter width piece cs ≠ [] := by
  induction cs generalizing piece with
  | nil => exact List.cons_ne_nil _ _
  | cons c cs ih =>
    rw [foldAfter]
    split
    · exact List.cons_ne_nil _ _
    · exact ih _

/-- A word that is folded into a single piece fits the line. -/
theorem total_le_of_foldAfter {piece : List Char} (hpiece : total piece ≤ width)
    (h : (foldAfter width piece cs).dropLast = []) : total piece + total cs ≤ width := by
  induction cs generalizing piece with
  | nil => exact hpiece
  | cons c cs ih =>
    rw [foldAfter] at h
    split at h
    · rw [List.dropLast_cons_of_ne_nil (foldAfter_ne_nil _ _)] at h
      cases h
    · next hfits =>
      have hnext : total (c :: piece) ≤ width := by
        rw [total]
        omega
      have hrest := ih hnext h
      rw [total] at hrest ⊢
      omega

/-- Words that make a single line fit it, if no blank comes last. -/
theorem total_le_of_breakBefore {words : List (List Char)} {part : List Char} {isFirst : Bool}
    (hwords : words ≠ []) (hend : ∀ c, words.flatten.getLast? = some c → isBlank c = false)
    (hfirst : isFirst = true → line = [])
    (h : breakBefore .fold width isFirst line (total line) words = [part]) :
    total line + total words.flatten ≤ width := by
  induction words generalizing line isFirst with
  | nil => exact absurd rfl hwords
  | cons word words ih =>
    rw [breakBefore] at h
    dsimp only at h
    split at h
    · next hfits =>
      cases words with
      | nil =>
        rw [List.flatten_cons, List.flatten_nil, List.append_nil] at hend ⊢
        rwa [trimEnd_eq_self_iff.mpr hend] at hfits
      | cons word' words =>
        rw [← total_append] at h
        have hlast : ∀ c, (word' :: words).flatten.getLast? = some c → isBlank c = false := by
          intro c hc
          apply hend
          rw [List.flatten_cons, List.getLast?_append, hc]
          rfl
        have hrest := ih (List.cons_ne_nil _ _) hlast (fun h => absurd h Bool.false_ne_true) h
        rw [total_append] at hrest
        rw [List.flatten_cons, total_append]
        omega
    next hover =>
    split at h
    · next hlong =>
      -- a word that is too long for any line is folded into two pieces at least
      have hlength := congrArg List.length h
      rw [List.length_append, List.length_append, List.length_singleton] at hlength
      have hpos : 0 < (breakBefore .fold width false ((foldAfter width [] word).getLastD [])
          (total ((foldAfter width [] word).getLastD [])) words).length :=
        List.length_pos_of_ne_nil (breakBefore_ne_nil _ _ _ _)
      have hnil : (foldAfter width [] word).dropLast = [] :=
        List.length_eq_zero_iff.mp (by omega)
      have hword := total_le_of_foldAfter (Nat.zero_le width) hnil
      have htrim := total_le_of_sublist (isPrefix_trimEnd word).sublist
      rw [total] at hword
      omega
    next hshort =>
    split at h
    · exact absurd (List.cons.inj h).2 (breakBefore_ne_nil _ _ _ _)
    · next hempty =>
      have hline : total line = 0 := by
        by_contra hne
        refine hempty ⟨hne, fun hisFirst => hne ?_⟩
        rw [hfirst hisFirst, total]
      omega

/-- **What stays in one line** fits it, if it does not end in a blank. -/
theorem total_le_of_breakLine {part : List Char} (htrim : trimEnd cs = cs)
    (h : breakLine .fold width cs = [part]) : total cs ≤ width := by
  have hend := trimEnd_eq_self_iff.mp htrim
  rw [breakLine] at h
  cases hwords : chunksAfter [] false cs with
  | nil =>
    cases cs using List.reverseRecOn with
    | nil => exact Nat.zero_le width
    | append_singleton cs c =>
      have hblank := hend c List.getLast?_concat
      exact absurd hwords (chunksAfter_ne_nil (.inr ⟨c, by simp, hblank⟩))
  | cons word words =>
    have hflatten : (word :: words).flatten = cs := by
      rw [← hwords]
      exact flatten_chunksAfter (.inr (by rw [hwords]; exact List.cons_ne_nil _ _))
    rw [hwords] at h
    have hfits : total [] + total (word :: words).flatten ≤ width :=
      total_le_of_breakBefore (List.cons_ne_nil word words) (by rwa [hflatten]) (fun _ => rfl) h
    rwa [hflatten, total, Nat.zero_add] at hfits

/-! ## Lines as they are shown -/

/-- What is left after the excess blanks were dropped is what the line begins with. -/
theorem isPrefix_dropExcess (width : Nat) (cs : List Char) : dropExcess width cs <+: cs :=
  List.take_prefix _ _

/-- **Nothing is dropped** from a line iff it has no more characters than the line has cells, or no
blank at its end. -/
theorem dropExcess_eq_self_iff :
    dropExcess width cs = cs ↔ cs.length ≤ width ∨ trimEnd cs = cs := by
  have hle := (isPrefix_trimEnd cs).length_le
  rw [dropExcess, List.take_eq_self_iff]
  constructor
  · intro h
    by_contra hnot
    rw [not_or] at hnot
    have hne : (trimEnd cs).length ≠ cs.length := fun heq =>
      hnot.2 ((isPrefix_trimEnd cs).eq_of_length heq)
    omega
  · rintro (h | h)
    · omega
    · rw [h]
      omega

/-- A line that fits is not cut. -/
theorem limit_of_fits (h : total cs ≤ width) : limit o width cs = cs :=
  if_pos h

/-- **The paragraph of a text that fits** is one line. -/
theorem paragraph_of_fits (hline : IsLine cs) (hfits : total cs ≤ width) :
    paragraph width cs = dropExcess width cs ++ ['\n'] := by
  have hdrop := (total_le_of_sublist (isPrefix_dropExcess width cs).sublist).trans hfits
  rw [paragraph, hline.lines, breakLine_of_fits hfits, List.map_singleton, limit_of_fits hdrop,
    List.flatMap_singleton]

/-- A line that fits is set as it is iff it has no more characters than cells, or no blanks at its
end. -/
theorem paragraph_eq_iff (hline : IsLine cs) (hfits : total cs ≤ width) :
    paragraph width cs = cs ++ ['\n'] ↔ cs.length ≤ width ∨ trimEnd cs = cs := by
  rw [paragraph_of_fits hline hfits, List.append_left_inj, dropExcess_eq_self_iff]

/-- A text of one line ended once has this line. -/
theorem lines_of_paragraph {shown : List Char} (hline : '\n' ∉ cs)
    (h : paragraph width shown = cs ++ ['\n']) : lines .fold width shown = [cs] := by
  rw [paragraph] at h
  cases hlines : lines .fold width shown with
  | nil =>
    rw [hlines] at h
    simp at h
  | cons first rest =>
    rw [hlines, List.flatMap_cons, List.append_assoc, List.singleton_append] at h
    rcases List.append_eq_append_iff.mp h with ⟨tail, hcs, htail⟩ | ⟨tail, hfirst, htail⟩
    · cases tail with
      | nil =>
        have hrest : rest.flatMap (· ++ ['\n']) = [] := (List.cons.inj htail).2
        cases rest with
        | nil => rw [hcs, List.append_nil]
        | cons second rest => simp at hrest
      | cons c tail =>
        rw [(List.cons.inj htail).1] at hline
        exact absurd (by rw [hcs]; simp) hline
    · cases tail with
      | nil =>
        have hrest : [] = rest.flatMap (· ++ ['\n']) := (List.cons.inj htail).2
        cases rest with
        | nil => rw [hfirst, List.append_nil]
        | cons second rest => simp at hrest
      | cons c tail =>
        have hnil := (List.cons.inj htail).2
        simp at hnil

/-- What is part of a text that fits has the text as its line only if it is the text. -/
theorem eq_of_paragraph_of_sublist {shown : List Char} (hline : IsLine cs)
    (hfits : total cs ≤ width) (hsublist : shown.Sublist cs)
    (h : paragraph width shown = cs ++ ['\n']) : shown = cs := by
  rw [paragraph_of_fits (hline.sublist hsublist) ((total_le_of_sublist hsublist).trans hfits),
    List.append_left_inj] at h
  refine hsublist.eq_of_length_le ?_
  rw [← h]
  exact (isPrefix_dropExcess width shown).length_le

/-- What does not end in a blank has only itself as its line. -/
theorem eq_of_paragraph_of_trimEnd {shown : List Char} (hcs : '\n' ∉ cs) (hline : IsLine shown)
    (htrim : trimEnd shown = shown) (h : paragraph width shown = cs ++ ['\n']) : shown = cs := by
  have hlines := lines_of_paragraph hcs h
  rw [hline.lines] at hlines
  obtain ⟨part, hpart, -⟩ := List.map_eq_singleton_iff.mp hlines
  have hfits := total_le_of_breakLine htrim hpart
  rw [paragraph_of_fits hline hfits, List.append_left_inj,
    dropExcess_eq_self_iff.mpr (.inr htrim)] at h
  exact h

end MessageHarvest.Layout
