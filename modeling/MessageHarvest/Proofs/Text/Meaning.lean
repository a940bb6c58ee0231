import MessageHarvest.Proofs.Text.Segment
import MessageHarvest.Proofs.Text.Surrogate

/-!
# What the body of a literal stands for

Each segment of a body stands for one code point, or for nothing where a backslash joins two lines.
The body stands for what the units of its segments stand for together, unless one of them names a
number above U+10FFFF.

* `Segment.codePoint?`, `Segment.units`: what a segment stands for, by how it is written.
  `Segment.Overlarge`: a segment that names no code point.
* A segment and the piece that the decoder makes of it stand for the same (`Segment.units_piece`),
  and bodies without backslashes need not be treated apart (`unescapeChars_eq_map`).
* **Outcomes** (`IsCut.unescapeChars_eq`, `IsCut.unescapeChars_eq_error_iff`): what a body stands
  for, and when it stands for nothing.
-/

namespace MessageHarvest.Escape

/-! ## What a segment stands for -/

/-- The characters that stand for a control character after a backslash. -/
def controlEscapes : List (Char × Nat) :=
  [('b', 0x08), ('t', 0x09), ('n', 0x0A), ('v', 0x0B), ('f', 0x0C), ('r', 0x0D), ('0', 0x00)]

/-- The characters that end a line. -/
def lineTerminators : List Char :=
  ['\n', '\r', '\u2028', '\u2029']

/-- The code point that a sequence stands for. A line end after a backslash joins two lines and
stands for nothing. Of the other characters, those without a meaning of their own after a backslash
stand for themselves, among them the `u` or `x` of an incomplete escape. -/
def Sequence.codePoint? : Sequence → Option Nat
  | braced first more => some (number (first :: more))
  | unit a b c d => some (number [a, b, c, d])
  | byte a b => some (number [a, b])
  | lineEnds => none
  | single c =>
    if c ∈ lineTerminators then none else some ((controlEscapes.lookup c).getD c.toNat)

/-- The code point that a segment stands for. -/
def Segment.codePoint? : Segment → Option Nat
  | char c => some c.toNat
  | escape s => s.codePoint?

/-- The UTF-16 units of a segment. -/
def Segment.units (g : Segment) : List UInt16 :=
  (g.codePoint?.map Utf16.ofCodePoint).getD []

/-- A braced escape of a number above U+10FFFF. -/
def Segment.Overlarge (g : Segment) : Prop :=
  ∃ first more, g = .escape (.braced first more) ∧ 0x10FFFF < number (first :: more)

/-! ## Segments and pieces -/

/-- The characters that end a line are the four of the list. -/
theorem isLineEnd_iff {c : Char} : isLineEnd c = true ↔ c ∈ lineTerminators := by
  simp [isLineEnd, lineTerminators, or_assoc]

/-- The decoder knows the same control characters. -/
theorem toNat_singleValue (c : Char) :
    (singleValue c).toNat = (controlEscapes.lookup c).getD c.toNat := by
  unfold singleValue
  split
  case h_8 hn ht hr hb hf hv h0 =>
    have hlookup : controlEscapes.lookup c = none := by
      simp only [controlEscapes, List.lookup_eq_none_iff, List.forall_mem_cons, bne_iff_ne]
      exact ⟨hb, ht, hn, hv, hf, hr, h0, nofun⟩
    rw [hlookup, Option.getD_none]
  all_goals rfl

/-- Four digits or fewer name a code point. -/
theorem number_le {digits : List HexDigit} (h : digits.length ≤ 4) : number digits ≤ 0x10FFFF := by
  have hlt := hexValue_lt 0 (digits.map HexDigit.char)
  rw [number_eq, List.length_map, Nat.zero_add, Nat.one_mul] at hlt
  have hpow : 16 ^ digits.length ≤ 16 ^ 4 := Nat.pow_le_pow_right (by decide) h
  omega

/-- The number above U+10FFFF that the decoder finds is that of an overlarge segment. -/
theorem Segment.overlarge?_piece_eq_some_iff {g : Segment} {n : Nat} :
    g.piece.overlarge? = some n ↔ ∃ first more, g = .escape (.braced first more) ∧
      number (first :: more) = n ∧ 0x10FFFF < n := by
  rw [Piece.overlarge?_eq_some_iff]
  constructor
  · rintro ⟨hpiece, hn⟩
    cases g with
    | char c => cases hpiece
    | escape s =>
        cases s with
        | braced first more => exact ⟨first, more, rfl, Piece.codePoint.inj hpiece, hn⟩
        | unit a b c d =>
            have hle : number [a, b, c, d] ≤ 0x10FFFF := number_le (Nat.le_refl 4)
            rw [Piece.codePoint.inj hpiece] at hle
            omega
        | byte a b =>
            have hle : number [a, b] ≤ 0x10FFFF := number_le (Nat.le_add_left 2 2)
            rw [Piece.codePoint.inj hpiece] at hle
            omega
        | lineEnds => cases hpiece
        | single c =>
            rw [piece, Sequence.piece] at hpiece
            split at hpiece <;> cases hpiece
  · rintro ⟨first, more, rfl, rfl, hn⟩
    exact ⟨rfl, hn⟩

/-- A segment is cut into a piece that can be decoded iff it is not overlarge. -/
theorem Segment.overlarge?_piece_eq_none_iff {g : Segment} :
    g.piece.overlarge? = none ↔ ¬ g.Overlarge := by
  rw [Option.eq_none_iff_forall_ne_some]
  constructor
  · rintro h ⟨first, more, rfl, hn⟩
    exact h _ (overlarge?_piece_eq_some_iff.mpr ⟨first, more, rfl, rfl, hn⟩)
  · intro h n hsome
    obtain ⟨first, more, rfl, rfl, hn⟩ := overlarge?_piece_eq_some_iff.mp hsome
    exact h ⟨first, more, rfl, hn⟩

/-- A segment that is not overlarge and the piece that is made of it stand for the same. -/
theorem Segment.units_piece {g : Segment} (h : ¬ g.Overlarge) : g.piece.units = .ok g.units := by
  have hcodePoint (n : Nat) (hn : n ≤ 0x10FFFF) :
      (Piece.codePoint n).units = .ok (Utf16.ofCodePoint n) := if_pos hn
  cases g with
  | char c => rfl
  | escape s =>
      cases s with
      | braced first more =>
          exact hcodePoint _ (Nat.le_of_not_lt fun hn => h ⟨first, more, rfl, hn⟩)
      | unit a b c d => exact hcodePoint _ (number_le (Nat.le_refl 4))
      | byte a b => exact hcodePoint _ (number_le (Nat.le_add_left 2 2))
      | lineEnds => rfl
      | single c =>
          rw [piece, Sequence.piece, units, codePoint?, Sequence.codePoint?]
          by_cases hc : isLineEnd c = true
          · rw [if_pos hc, if_pos (isLineEnd_iff.mp hc)]
            rfl
          · rw [if_neg hc, if_neg (mt isLineEnd_iff.mpr hc), ← toNat_singleValue]
            rfl

/-! ## Rows of pieces -/

/-- Pieces are decoded from the first one on. -/
theorem unitsOf_append (ps qs : List Piece) :
    unitsOf (ps ++ qs) = do return (← unitsOf ps) ++ (← unitsOf qs) := by
  induction ps with
  | nil =>
      show unitsOf qs = unitsOf qs >>= fun us => pure us
      rw [bind_pure]
  | cons p ps ih =>
      rw [List.cons_append, unitsOf, unitsOf, ih]
      simp only [bind_assoc, pure_bind, List.append_assoc]

/-- Segments none of which is overlarge are decoded to their units. -/
theorem unitsOf_map_piece {segments : List Segment} (h : ∀ g ∈ segments, ¬ g.Overlarge) :
    unitsOf (segments.map Segment.piece) = .ok (segments.flatMap Segment.units) := by
  induction segments with
  | nil => rfl
  | cons g segments ih =>
      rw [List.forall_mem_cons] at h
      rw [List.map_cons, unitsOf, Segment.units_piece h.1, ih h.2, List.flatMap_cons]
      rfl

/-- A body without backslashes stands for itself, which is what its pieces stand for. -/
theorem unitsOf_pieces_of_not_mem {body : List Char} (h : '\\' ∉ body) :
    unitsOf (pieces body) = .ok (Utf16.encode body) := by
  induction body with
  | nil => rfl
  | cons c rest ih =>
      rw [List.mem_cons, not_or] at h
      rw [pieces_cons_of_ne (Ne.symm h.1), unitsOf, ih h.2]
      rfl

/-- **Bodies without backslashes** need not be treated apart. -/
theorem unescapeChars_eq_map (body : List Char) :
    unescapeChars body = (unitsOf (pieces body)).map Utf16.decode := by
  unfold unescapeChars
  split
  · rfl
  · rename_i h
    rw [unitsOf_pieces_of_not_mem h]
    exact congrArg Except.ok (Utf16.decode_encode body).symm

/-! ## Outcomes -/

/-- **What a body stands for**: what the units of its segments stand for together. -/
theorem IsCut.unescapeChars_eq {segments : List Segment} (h : IsCut segments)
    (hall : ∀ g ∈ segments, ¬ g.Overlarge) :
    unescapeChars (textOf segments) = .ok (Utf16.decode (segments.flatMap Segment.units)) := by
  rw [unescapeChars_eq_map, h.pieces_eq, unitsOf_map_piece hall]
  rfl

/-- **How decoding fails**: as the first overlarge segment says. -/
theorem IsCut.unescapeChars_eq_error_iff {segments : List Segment} (h : IsCut segments)
    {e : Error} : unescapeChars (textOf segments) = .error e ↔ ∃ before first more after,
      segments = before ++ .escape (.braced first more) :: after ∧
      (∀ g ∈ before, ¬ g.Overlarge) ∧ 0x10FFFF < number (first :: more) ∧
      failure (number (first :: more)) = e := by
  rw [← fault?_eq_some_iff, fault?_unescapeChars, overlarge?, h.pieces_eq, List.findSome?_map,
    Option.map_eq_some_iff]
  simp only [List.findSome?_eq_some_iff, Function.comp_apply,
    Segment.overlarge?_piece_eq_some_iff, Segment.overlarge?_piece_eq_none_iff]
  constructor
  · rintro ⟨_, ⟨before, _, after, rfl, ⟨first, more, rfl, rfl, hn⟩, hbefore⟩, rfl⟩
    exact ⟨before, first, more, after, rfl, hbefore, hn, rfl⟩
  · rintro ⟨before, first, more, after, rfl, hbefore, hn, rfl⟩
    exact ⟨_, ⟨before, _, after, rfl, ⟨first, more, rfl, rfl, hn⟩, hbefore⟩, rfl⟩

end MessageHarvest.Escape
