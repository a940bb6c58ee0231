import MessageHarvest.Proofs.Markup.Plain
import MessageHarvest.Proofs.Report.Display

/-!
# Which texts a report shows as they are

The texts of a report for the eye are escaped, the paths and ids also put between tags. Escaping
saves every tag that a text holds. It does not know of brackets that begin no tag, from which a
backslash before them is taken, and it does not know what follows: backslashes at the end of a text
are halved before a closing tag, and a single one is doubled where none follows.

* `render_escape_eq_ok_iff` and `render_within_escape_eq_ok_iff`: when an escaped text is shown as
  it is, by itself and between tags; `render_within_eq_ok_iff`: when a text is that is not escaped.
* **Which texts are shown as they are** in a cell or a line of a report (`escape_shown_iff`), and
  which messages are in a row (`showRow_cells_eq_ok_iff`).
-/

namespace MessageHarvest.Report

open Markup

/-! ## Markup that shows a text -/

/-- Markup shows a text iff its tokens do, with nothing open. -/
theorem render_eq_ok_iff {markup t : String} :
    render markup = .ok t ↔ renderTokens [] (tokens markup.toList) = .ok t.toList := by
  rw [render]
  cases renderTokens [] (tokens markup.toList) with
  | error e =>
    constructor
    · intro h
      cases h
    · intro h
      cases h
  | ok shown =>
    change Except.ok (String.ofList shown) = _ ↔ _
    rw [Except.ok.injEq, Except.ok.injEq, ← String.toList_inj, String.toList_ofList]

/-- What is put between tags has the opening tag before it and the closing one behind it. -/
theorem toList_within (effect markup : String) :
    (within effect markup).toList = '[' :: effect.toList ++ ']' ::
      (markup.toList ++ ('[' :: '/' :: effect.toList ++ [']'])) := by
  rw [within]
  simp only [String.toList_append, List.append_assoc]
  rfl

/-- An escaped text is shown as it is iff no bracket stands behind a backslash and it does not end
in a single backslash. -/
theorem render_escape_eq_ok_iff (t : String) :
    render (escape t) = .ok t ↔
      ¬HoldsSlashedBracket t.toList ∧ endsInOneBackslash t.toList = false := by
  rw [render_eq_ok_iff, escape, String.toList_ofList, render_escapeChars_eq_iff]

/-- Between tags it is shown as it is iff no bracket stands behind a backslash and it does not end
in two backslashes. -/
theorem render_within_escape_eq_ok_iff {effect : String} (h : IsTagName effect.toList)
    (t : String) :
    render (within effect (escape t)) = .ok t ↔
      ¬HoldsSlashedBracket t.toList ∧ ¬['\\', '\\'] <:+ t.toList := by
  rw [render_eq_ok_iff, toList_within, escape, String.toList_ofList, h.render_escapeChars_eq_iff]

/-- A text that is not escaped is shown as it is between tags iff nothing in it is taken for
markup. -/
theorem render_within_eq_ok_iff {effect : String} (h : IsTagName effect.toList) (t : String) :
    render (within effect t) = .ok t ↔ IsPlain t.toList := by
  rw [render_eq_ok_iff, toList_within, h.render_eq_iff]

/-- What a text between tags shows that is not escaped. -/
theorem sublist_of_render_within {effect t shown : String} (h : IsTagName effect.toList)
    (hrender : render (within effect t) = .ok shown) :
    (shown.toList.Sublist t.toList ∧
      (shown.toList.length = t.toList.length → IsPlain t.toList)) ∨
      (shown.toList.Sublist (t.toList ++ ('[' :: '/' :: effect.toList ++ [']'])) ∧
        shown.toList.getLast? = some ']' ∧ t.toList.getLast? = some '\\') := by
  rw [render_eq_ok_iff, toList_within] at hrender
  exact h.sublist_of_render hrender

/-! ## Texts of a report -/

/-- **A text is shown as it is** by itself iff no bracket that begins no tag stands right after a
backslash in it, and it does not end in exactly one backslash. In an id or a path it may end in one,
but not in more. -/
theorem escape_shown_iff (t : String) :
    (render (escape t) = .ok t ↔
      ¬HoldsSlashedBracket t.toList ∧ endsInOneBackslash t.toList = false) ∧
    (render (within "bold" (escape t)) = .ok t ↔
      ¬HoldsSlashedBracket t.toList ∧ ¬['\\', '\\'] <:+ t.toList) ∧
    (render (within "cyan" (escape t)) = .ok t ↔
      ¬HoldsSlashedBracket t.toList ∧ ¬['\\', '\\'] <:+ t.toList) :=
  ⟨render_escape_eq_ok_iff t, render_within_escape_eq_ok_iff isTagName_bold t,
    render_within_escape_eq_ok_iff isTagName_cyan t⟩

/-- A backslash at the end of a text is shown twice. -/
theorem escape_loneBackslash_shown :
    render (escape "back\\") = .ok "back\\\\" ∧ render (escape "back\\") ≠ .ok "back\\" := by
  decide

example : render (within "bold" (escape "back\\\\\\")) = .ok "back\\[/bold]" := by decide

/-! ## Rows of a table -/

/-- A row shows texts iff each cell shows its own. -/
theorem showRow_cons_eq_ok_iff {markup t : String} {row : List String} {texts : List (List Char)} :
    showRow (markup :: row) = .ok (t.toList :: texts) ↔
      render markup = .ok t ∧ showRow row = .ok texts := by
  rw [showRow, List.mapM_cons, ← showRow]
  cases render markup with
  | error e =>
    constructor
    · intro h
      cases h
    · intro h
      cases h.1
  | ok shown =>
    cases showRow row with
    | error e =>
      constructor
      · intro h
        cases h
      · intro h
        cases h.2
    | ok shown' =>
      change Except.ok (shown.toList :: shown') = _ ↔ _
      rw [Except.ok.injEq, Except.ok.injEq, Except.ok.injEq, List.cons.injEq, String.toList_inj]

/-- **A row shows its message as it is** iff each of its texts is shown so. -/
theorem showRow_cells_eq_ok_iff (path : String) (m : Message) :
    showRow (cells path m) = .ok ([path, m.id, m.defaultMessage, m.description.getD ""].map
        String.toList) ↔
      (∀ t ∈ [path, m.id], ¬HoldsSlashedBracket t.toList ∧ ¬['\\', '\\'] <:+ t.toList) ∧
      ∀ t ∈ [m.defaultMessage, m.description.getD ""],
        ¬HoldsSlashedBracket t.toList ∧ endsInOneBackslash t.toList = false := by
  simp only [cells, List.map_cons, List.map_nil, showRow_cons_eq_ok_iff,
    render_within_escape_eq_ok_iff isTagName_cyan, render_within_escape_eq_ok_iff isTagName_bold,
    render_escape_eq_ok_iff, List.forall_mem_cons]
  constructor
  · rintro ⟨hpath, hid, hdefault, hdescription, -⟩
    exact ⟨⟨hpath, hid, fun _ h => absurd h List.not_mem_nil⟩, hdefault, hdescription,
      fun _ h => absurd h List.not_mem_nil⟩
  · rintro ⟨⟨hpath, hid, -⟩, hdefault, hdescription, -⟩
    exact ⟨hpath, hid, hdefault, hdescription, rfl⟩

end MessageHarvest.Report
