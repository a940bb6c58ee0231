import MessageHarvest.Message.Draft

/-!
# Drafts as rows of puts

A draft is filled by one put after the other. Of the puts under one name only the last one counts,
and a put under a name that is none of a field's does not count at all.

* `lastText?`: the text of the last put under a name. If the members of a list make a put each, or
  none, it is the one of the last member that makes one (`lastText?_filterMap_eq_some_iff`).
* `Draft.get?_ofPuts`: a field of a draft is what the last put under its name puts there.
* `Draft.members`: the fields that are set, as names and texts.
* `Draft.message?_eq_some_iff`: the message of a draft holds the fields of the draft.
-/

namespace MessageHarvest

/-- The last value under a name, from the front of a list on. -/
theorem map_find?_reverse_cons {α : Type} (name : String) (p : String × α)
    (l : List (String × α)) :
    ((p :: l).reverse.find? (·.1 = name)).map (·.2) =
      ((l.reverse.find? (·.1 = name)).map (·.2)).or (if p.1 = name then some p.2 else none) := by
  rw [List.reverse_cons, List.find?_append]
  cases l.reverse.find? (·.1 = name) with
  | some q => simp
  | none => by_cases h : p.1 = name <;> simp [h]

/-- The text of the last put under a name. -/
def lastText? (name : String) (puts : List (String × String)) : Option String :=
  (puts.reverse.find? (·.1 = name)).map (·.2)

/-- A later text under a name counts more than the first one. -/
theorem lastText?_cons (name : String) (p : String × String) (puts : List (String × String)) :
    lastText? name (p :: puts) =
      (lastText? name puts).or (if p.1 = name then some p.2 else none) :=
  map_find?_reverse_cons name p puts

/-- The text that was put last counts for its name. -/
theorem lastText?_concat (name key text : String) (puts : List (String × String)) :
    lastText? name (puts ++ [(key, text)]) =
      if key = name then some text else lastText? name puts := by
  unfold lastText?
  rw [List.reverse_concat, List.find?_cons]
  by_cases h : key = name <;> simp [h]

/-- There is no last text under a name iff none was put. -/
theorem lastText?_eq_none_iff {name : String} {puts : List (String × String)} :
    lastText? name puts = none ↔ ∀ p ∈ puts, p.1 ≠ name := by
  simp [lastText?]

/-- **The last put that is made**, where each member of a list makes one or none. -/
theorem lastText?_filterMap_eq_some_iff {α : Type} {put? : α → Option (String × String)}
    {name text : String} {l : List α} :
    lastText? name (l.filterMap put?) = some text ↔
      ∃ before a after, l = before ++ a :: after ∧ put? a = some (name, text) ∧
        ∀ later ∈ after, ∀ text', put? later ≠ some (name, text') := by
  have hnone : ∀ rest : List α, lastText? name (rest.filterMap put?) = none ↔
      ∀ later ∈ rest, ∀ text', put? later ≠ some (name, text') := by
    intro rest
    rw [lastText?_eq_none_iff]
    constructor
    · intro h later hlater text' hput
      exact h _ (List.mem_filterMap.mpr ⟨later, hlater, hput⟩) rfl
    · rintro h ⟨key, text'⟩ hp rfl
      obtain ⟨later, hlater, hput⟩ := List.mem_filterMap.mp hp
      exact h later hlater text' hput
  induction l with
  | nil => simp [lastText?]
  | cons a l ih =>
    have hcons : lastText? name ((a :: l).filterMap put?) =
        (lastText? name (l.filterMap put?)).or
          ((put? a).bind fun p => if p.1 = name then some p.2 else none) := by
      cases ha : put? a with
      | none => simp [List.filterMap_cons_none ha]
      | some p => rw [List.filterMap_cons_some ha, lastText?_cons, Option.bind_some]
    rw [hcons, Option.or_eq_some_iff]
    apply (or_congr_left ih).trans
    rw [hnone]
    constructor
    · rintro (⟨before, b, after, rfl, hb, hafter⟩ | ⟨hrest, ha⟩)
      · exact ⟨a :: before, b, after, rfl, hb, hafter⟩
      · obtain ⟨⟨key, own⟩, hput, hown⟩ := Option.bind_eq_some_iff.mp ha
        by_cases hkey : key = name
        · subst hkey
          rw [if_pos rfl] at hown
          cases hown
          exact ⟨[], a, l, rfl, hput, hrest⟩
        · rw [if_neg hkey] at hown
          cases hown
    · rintro ⟨before, b, after, hsplit, hb, hafter⟩
      rcases List.cons_eq_append_iff.mp hsplit with ⟨rfl, hhead⟩ | ⟨before, rfl, rfl⟩
      · cases hhead
        right
        exact ⟨hafter, by simp [hb]⟩
      · left
        exact ⟨before, b, after, rfl, hb, hafter⟩

/-- The names under which a put counts. -/
def fieldNames : List String := ["id", "defaultMessage", "description"]

/-- The names of fields are those that some field has. -/
theorem mem_fieldNames_iff {name : String} : name ∈ fieldNames ↔ ∃ f : Field, f.name = name := by
  constructor
  · intro h
    simp only [fieldNames, List.mem_cons, List.not_mem_nil, or_false] at h
    rcases h with rfl | rfl | rfl
    · exact ⟨.id, rfl⟩
    · exact ⟨.defaultMessage, rfl⟩
    · exact ⟨.description, rfl⟩
  · rintro ⟨f, rfl⟩
    cases f <;> simp [fieldNames, Field.name]

namespace Draft

/-- The draft after a row of puts. -/
def putAll (d : Draft) (puts : List (String × String)) : Draft :=
  puts.foldl (fun d p => d.put p.1 p.2) d

/-- What a row of puts makes of the empty draft. -/
def ofPuts (puts : List (String × String)) : Draft :=
  empty.putAll puts

/-- To put nothing changes nothing. -/
@[simp] theorem putAll_nil (d : Draft) : d.putAll [] = d := rfl

/-- Texts are put from the first one on. -/
@[simp] theorem putAll_cons (d : Draft) (p : String × String) (puts : List (String × String)) :
    d.putAll (p :: puts) = (d.put p.1 p.2).putAll puts := rfl

/-- Texts may be put in two goes. -/
theorem putAll_append (d : Draft) (puts puts' : List (String × String)) :
    d.putAll (puts ++ puts') = (d.putAll puts).putAll puts' :=
  List.foldl_append

/-- A put under any other name does not count. -/
theorem put_of_not_mem {name : String} (h : name ∉ fieldNames) (d : Draft) (text : String) :
    d.put name text = d := by
  unfold put
  cases hname : Field.ofName? name with
  | none => rfl
  | some f => exact absurd (mem_fieldNames_iff.mpr ⟨f, Field.ofName?_eq_some_iff.mp hname⟩) h

/-- A text that is put under the name of a field is that of the field, and all others stay. -/
theorem get?_put (d : Draft) (name text : String) (f : Field) :
    (d.put name text).get? f = if name = f.name then some text else d.get? f := by
  unfold put
  cases h : Field.ofName? name with
  | none =>
    have hne : name ≠ f.name := by
      rintro rfl
      simp at h
    rw [if_neg hne]
  | some g =>
    obtain rfl := Field.ofName?_eq_some_iff.mp h
    by_cases hfg : g = f
    · simp [hfg, get?_set]
    · have hne : g.name ≠ f.name := by
        intro hname
        have := congrArg Field.ofName? hname
        simp [hfg] at this
      simp [hfg, hne, get?_set]

/-- Of each field the last text counts; where none was put, the draft keeps its own. -/
theorem get?_putAll (d : Draft) (puts : List (String × String)) (f : Field) :
    (d.putAll puts).get? f = (lastText? f.name puts).or (d.get? f) := by
  induction puts generalizing d with
  | nil => rfl
  | cons p puts ih =>
    rw [putAll_cons, ih, get?_put, lastText?_cons, Option.or_assoc]
    by_cases h : p.1 = f.name <;> simp [h]

/-- **A field is its last put**: what was put there before does not count, and what is put under
other names does not either. -/
theorem get?_ofPuts (puts : List (String × String)) (f : Field) :
    (ofPuts puts).get? f = lastText? f.name puts := by
  rw [ofPuts, get?_putAll, get?_empty, Option.or_none]

/-- The fields that are set, with their names. -/
def members (d : Draft) : List (String × String) :=
  [Field.id, .defaultMessage, .description].filterMap fun f => (d.get? f).map (f.name, ·)

/-- The members of a draft are the fields that have been read. -/
theorem mem_members_iff {d : Draft} {name text : String} :
    (name, text) ∈ d.members ↔ ∃ f : Field, f.name = name ∧ d.get? f = some text := by
  have hall : ∀ f : Field, f ∈ [Field.id, .defaultMessage, .description] := by
    intro f
    cases f <;> simp
  simp only [members, List.mem_filterMap, Option.map_eq_some_iff, Prod.mk.injEq]
  constructor
  · rintro ⟨f, -, _, hget, rfl, rfl⟩
    exact ⟨f, rfl, hget⟩
  · rintro ⟨f, rfl, hget⟩
    exact ⟨f, hall f, text, hget, rfl, rfl⟩

/-- **The message of a draft** holds its fields; the two that it must have are not empty. -/
theorem message?_eq_some_iff {d : Draft} {m : Message} :
    d.message? = some m ↔
      d.get? .id = some m.id ∧ d.get? .defaultMessage = some m.defaultMessage ∧
        d.get? .description = m.description := by
  obtain ⟨id?, text?, description⟩ := d
  obtain ⟨id, text, description', hid, htext⟩ := m
  rcases id? with _ | id'
  · simp [message?, get?]
  rcases text? with _ | text'
  · simp [message?, get?]
  simp only [message?, get?, Option.some.injEq]
  constructor
  · intro h
    split at h
    · cases h
      exact ⟨rfl, rfl, rfl⟩
    · cases h
  · rintro ⟨rfl, rfl, rfl⟩
    rw [dif_pos ⟨hid, htext⟩]

/-- A draft holds no message iff it is not complete. -/
theorem message?_eq_none_iff {d : Draft} : d.message? = none ↔ d.isComplete = false := by
  rw [← isSome_message?, Option.isSome_eq_false_iff, Option.isNone_iff_eq_none]

end Draft

end MessageHarvest
