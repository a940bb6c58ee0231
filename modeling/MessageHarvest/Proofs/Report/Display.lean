import MessageHarvest.Proofs.Markup.Escape
import MessageHarvest.Report.Display

/-!
# Whatever was found can be shown

A report for the eye puts paths, ids and texts between tags, as markup. They all are escaped before,
so that none of them makes the report fail.

* `exists_render_within`: what stands between the tags of an effect can be shown.
* **Any table** of messages (`exists_messagesTable`) **and any list** of paths (`exists_pathsList`)
  can be shown.
-/

namespace MessageHarvest.Report

open Markup

/-! ## Lists of results -/

/-- Where there is a result for each member, there are results for the list. -/
theorem exists_mapM {α β ε : Type} {f : α → Except ε β} {l : List α}
    (h : ∀ a ∈ l, ∃ b, f a = .ok b) : ∃ bs, l.mapM f = .ok bs := by
  induction l with
  | nil => exact ⟨[], rfl⟩
  | cons a l ih =>
    obtain ⟨⟨b, hb⟩, hl⟩ := List.forall_mem_cons.mp h
    obtain ⟨bs, hbs⟩ := ih hl
    refine ⟨b :: bs, ?_⟩
    rw [List.mapM_cons, hb, hbs]
    rfl

/-! ## Markup of a report -/

/-- Paths are put between tags with a proper name. -/
theorem isTagName_cyan : IsTagName "cyan".toList where
  opens := rfl
  no_slash := by decide
  clear := by simp
  trimmed := by decide

/-- So are ids. -/
theorem isTagName_bold : IsTagName "bold".toList where
  opens := rfl
  no_slash := by decide
  clear := by simp
  trimmed := by decide

/-- An escaped text is inert. -/
theorem inert_escape (s : String) : Inert (escape s).toList := by
  rw [escape, String.toList_ofList]
  exact inert_escapeChars s.toList

/-- **What stands between tags** can be shown, if it opens and closes nothing. -/
theorem exists_render_within {effect markup after : String} (h : IsTagName effect.toList)
    (hmarkup : Inert markup.toList) (hafter : Inert after.toList) :
    ∃ shown, render (within effect markup ++ after) = .ok shown := by
  have hwithin : within effect markup ++ after = String.ofList ('[' :: effect.toList ++
      ']' :: (markup.toList ++ ('[' :: '/' :: effect.toList ++ ']' :: after.toList))) := by
    rw [← String.toList_inj, String.toList_ofList, within]
    simp only [String.toList_append, List.append_assoc]
    rfl
  rw [hwithin]
  exact h.exists_render hmarkup hafter

/-- An escaped text between tags can always be shown. -/
theorem exists_render_within_escape {effect : String} (h : IsTagName effect.toList) (s : String) :
    ∃ shown, render (within effect (escape s)) = .ok shown := by
  have hend : Inert "".toList := inert_of_plain (by simp)
  have hshown := exists_render_within h (inert_escape s) hend
  rwa [String.append_empty] at hshown

/-! ## Tables and lists -/

/-- A row of a table can always be shown. -/
theorem exists_showRow (path : String) (m : Message) :
    ∃ row, showRow (cells path m) = .ok row := by
  apply exists_mapM
  have hshown : ∀ markup ∈ cells path m, ∃ text, render markup = .ok text := by
    rw [cells]
    simp only [List.forall_mem_cons]
    exact ⟨exists_render_within_escape isTagName_cyan path,
      exists_render_within_escape isTagName_bold m.id, (inert_escape _).exists_render,
      (inert_escape _).exists_render, fun _ h => absurd h List.not_mem_nil⟩
  intro markup hmarkup
  obtain ⟨text, htext⟩ := hshown markup hmarkup
  exact ⟨text.toList, by rw [htext]; rfl⟩

/-- **Any messages** can be shown in a table. -/
theorem exists_messagesTable (reports : List FileReport) :
    ∃ shown, messagesTable reports = .ok shown := by
  obtain ⟨shown, hshown⟩ : ∃ shown, (reports.flatMap rows).mapM showRow = .ok shown := by
    apply exists_mapM
    intro row hrow
    obtain ⟨r, -, hrow⟩ := List.mem_flatMap.mp hrow
    obtain ⟨m, -, rfl⟩ := List.mem_map.mp hrow
    exact exists_showRow r.path m
  rw [messagesTable, hshown]
  exact ⟨_, rfl⟩

/-- A line can be shown if its markup can. -/
theorem exists_showLine {markup : String} (h : ∃ shown, render markup = .ok shown) (width : Nat) :
    ∃ shown, showLine width markup = .ok shown := by
  obtain ⟨text, htext⟩ := h
  rw [showLine, htext]
  exact ⟨_, rfl⟩

/-- Digits are no markup. -/
theorem inert_toString (n : Nat) : Inert (toString n).toList := by
  apply inert_of_plain
  intro c hc
  have hdigit : c.isDigit = true := by
    rw [Nat.toString_eq_repr, Nat.toList_repr] at hc
    exact Nat.isDigit_of_mem_toDigits (by decide) (by decide) hc
  constructor
  · rintro rfl
    cases hdigit
  · rintro rfl
    cases hdigit

/-- **Any paths** can be shown in a list, whatever its width. -/
theorem exists_pathsList (width : Nat) (paths : List String) :
    ∃ shown, pathsList width paths = .ok shown := by
  obtain ⟨shown, hshown⟩ : ∃ shown,
      (paths.mapM fun p => showLine width (within "cyan" (escape p))) = .ok shown :=
    exists_mapM fun p _ => exists_showLine (exists_render_within_escape isTagName_cyan p) width
  obtain ⟨total, htotal⟩ :=
    exists_showLine (exists_render_within isTagName_bold (inert_toString paths.length)
      (inert_of_plain (by simp : ∀ c ∈ " file(s)".toList, c ≠ '\\' ∧ c ≠ '['))) width
  rw [pathsList, hshown]
  dsimp only [bind, Except.bind]
  rw [htotal]
  exact ⟨_, rfl⟩

end MessageHarvest.Report
