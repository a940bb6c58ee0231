/-!
# Splitting texts

`splitBy p` gives the parts of a text between the characters of a class, the empty parts included.
-/

namespace MessageHarvest.Text

/-- The parts of a text between the characters that satisfy `p`. -/
def splitBy (p : Char → Bool) : List Char → List (List Char)
  | [] => [[]]
  | c :: rest =>
    if p c then [] :: splitBy p rest
    else
      match splitBy p rest with
      | [] => [[c]]
      | part :: parts => (c :: part) :: parts

/-- The parts of a text between the occurrences of a character. -/
def split (separator : Char) (cs : List Char) : List (List Char) :=
  splitBy (· = separator) cs

/-- There is always a first part, if only an empty one. -/
theorem splitBy_ne_nil (p : Char → Bool) (cs : List Char) : splitBy p cs ≠ [] := by
  cases cs with
  | nil => simp [splitBy]
  | cons c rest =>
    rw [splitBy]
    split
    · simp
    · split <;> simp

/-- Every other character is in a part. -/
theorem exists_mem_split {separator c : Char} {cs : List Char} (h : c ∈ cs) (hne : c ≠ separator) :
    ∃ part ∈ split separator cs, c ∈ part := by
  unfold split
  induction cs with
  | nil => cases h
  | cons d cs ih =>
    rw [splitBy]
    split
    · next hd =>
      have hc : c ∈ cs := by
        rcases List.mem_cons.mp h with rfl | hc
        · exact absurd (by simpa using hd) hne
        · exact hc
      obtain ⟨part, hpart, hmem⟩ := ih hc
      exact ⟨part, List.mem_cons_of_mem _ hpart, hmem⟩
    · cases hparts : splitBy (· = separator) cs with
      | nil => exact absurd hparts (splitBy_ne_nil _ cs)
      | cons first parts =>
        rcases List.mem_cons.mp h with rfl | hc
        · exact ⟨c :: first, List.mem_cons_self, List.mem_cons_self⟩
        · obtain ⟨part, hpart, hmem⟩ := ih hc
          rw [hparts] at hpart
          rcases List.mem_cons.mp hpart with rfl | hpart
          · exact ⟨d :: part, List.mem_cons_self, List.mem_cons_of_mem d hmem⟩
          · exact ⟨part, List.mem_cons_of_mem _ hpart, hmem⟩

/-- A text without the character is its only part. -/
theorem split_of_notMem {separator : Char} {cs : List Char} (h : separator ∉ cs) :
    split separator cs = [cs] := by
  unfold split
  induction cs with
  | nil => rfl
  | cons c cs ih =>
    rw [List.mem_cons, not_or] at h
    rw [splitBy, if_neg (by simpa using Ne.symm h.1), ih h.2]

/-- The parts before an occurrence of the character come before those after it. -/
theorem split_append (separator : Char) (cs after : List Char) :
    split separator (cs ++ separator :: after) = split separator cs ++ split separator after := by
  unfold split
  induction cs with
  | nil => simp [splitBy]
  | cons c cs ih =>
    rw [List.cons_append, splitBy, splitBy, ih]
    split
    · rfl
    · cases hparts : splitBy (· = separator) cs with
      | nil => exact absurd hparts (splitBy_ne_nil _ cs)
      | cons part parts => rfl

end MessageHarvest.Text
