import MessageHarvest.Message.Pattern
import MessageHarvest.Proofs.Text.Overlarge
import Mathlib.Data.List.Forall2

/-!
# Gathering results

`gather f` runs `f` on the members of a list and joins what it finds; the first failure ends it.
A gathering over a list of lists is a gathering of gatherings (`gather_flatMap`), one in which no
member fails finds the joined results (`gather_eq_ok`), and one that fails does so with the failure
of the first member that fails (`fault?_gather`).
-/

namespace MessageHarvest

variable {α β γ : Type} (f : α → Except Escape.Error (List β))

/-- From nothing nothing is gathered. -/
@[simp] theorem gather_nil : gather f [] = .ok [] := rfl

/-- The first member is read before the others. -/
theorem gather_cons (a : α) (rest : List α) :
    gather f (a :: rest) = (do return (← f a) ++ (← gather f rest)) := rfl

/-- Two lists in a row are gathered from in turn. -/
theorem gather_append (left right : List α) :
    gather f (left ++ right) = (do return (← gather f left) ++ (← gather f right)) := by
  induction left with
  | nil => cases h : gather f right <;> simp [h, bind, Except.bind, pure, Except.pure]
  | cons a left ih =>
      rw [List.cons_append, gather_cons, gather_cons, ih]
      cases f a <;> cases gather f left <;> cases gather f right <;>
        simp [bind, Except.bind, pure, Except.pure]

/-- To gather from images is to gather from the members by their images. -/
theorem gather_map (g : γ → α) (l : List γ) : gather f (l.map g) = gather (fun c => f (g c)) l := by
  induction l with
  | nil => rfl
  | cons c l ih => rw [List.map_cons, gather_cons, gather_cons, ih]

/-- Gathering over joined lists is gathering what is gathered over each. -/
theorem gather_flatMap (g : γ → List α) (l : List γ) :
    gather f (l.flatMap g) = gather (fun c => gather f (g c)) l := by
  induction l with
  | nil => rfl
  | cons c l ih => rw [List.flatMap_cons, gather_append, gather_cons, ih]

variable {f}

/-- What is gathered depends on nothing but what the members yield. -/
theorem gather_congr {f' : α → Except Escape.Error (List β)} {l : List α}
    (h : ∀ a ∈ l, f a = f' a) : gather f l = gather f' l := by
  induction l with
  | nil => rfl
  | cons a l ih =>
      rw [gather_cons, gather_cons, h a List.mem_cons_self,
        ih fun b hb => h b (List.mem_cons_of_mem a hb)]

/-- Lists that are related one by one, and yield the same one by one, are gathered alike. -/
theorem gather_eq_of_forall₂ {R : α → γ → Prop} {g : γ → Except Escape.Error (List β)}
    (hfg : ∀ a c, R a c → f a = g c) {l : List α} {l' : List γ} (h : List.Forall₂ R l l') :
    gather f l = gather g l' := by
  induction h with
  | nil => rfl
  | cons h _ ih => rw [gather_cons, gather_cons, hfg _ _ h, ih]

/-- So are they folded. -/
theorem foldlM_eq_of_forall₂ {σ : Type} {R : α → γ → Prop} {step : σ → α → Except Escape.Error σ}
    {step' : σ → γ → Except Escape.Error σ} (hstep : ∀ s a c, R a c → step s a = step' s c)
    {l : List α} {l' : List γ} (h : List.Forall₂ R l l') (s : σ) :
    l.foldlM step s = l'.foldlM step' s := by
  induction h generalizing s with
  | nil => rfl
  | cons h _ ih =>
      rw [List.foldlM_cons, List.foldlM_cons, hstep s _ _ h]
      exact bind_congr ih

/-- A fold may leave out what changes nothing. -/
theorem foldlM_filter {σ : Type} {p : α → Bool} {step : σ → α → Except Escape.Error σ}
    (h : ∀ s a, p a = false → step s a = .ok s) (l : List α) (s : σ) :
    (l.filter p).foldlM step s = l.foldlM step s := by
  induction l generalizing s with
  | nil => rfl
  | cons a l ih =>
      cases hp : p a with
      | true =>
          rw [List.filter_cons_of_pos hp, List.foldlM_cons, List.foldlM_cons]
          exact bind_congr ih
      | false =>
          rw [List.filter_cons_of_neg (by simp [hp]), List.foldlM_cons, h s a hp]
          exact ih s

/-- Where no member fails, the results are joined. -/
theorem gather_eq_ok (found : α → List β) {l : List α} (h : ∀ a ∈ l, f a = .ok (found a)) :
    gather f l = .ok (l.flatMap found) := by
  induction l with
  | nil => rfl
  | cons a l ih =>
      rw [gather_cons, h a List.mem_cons_self, ih fun b hb => h b (List.mem_cons_of_mem a hb)]
      rfl

/-- Two readings, the one after the other, that do not fail. -/
theorem exists_of_bind {x : Except Escape.Error α} {g : α → Except Escape.Error β} {b : β}
    (h : x >>= g = .ok b) : ∃ a, x = .ok a ∧ g a = .ok b := by
  cases x with
  | error e => cases h
  | ok a => exact ⟨a, rfl, h⟩

/-- A gathering that does not fail does not fail on its first member, nor on the others. -/
theorem exists_of_gather_cons {a : α} {rest : List α} {found : List β}
    (h : gather f (a :: rest) = .ok found) :
    ∃ here others, f a = .ok here ∧ gather f rest = .ok others ∧ found = here ++ others := by
  obtain ⟨here, hhere, h⟩ := exists_of_bind h
  obtain ⟨others, hothers, h⟩ := exists_of_bind h
  cases h
  exact ⟨here, others, hhere, hothers, rfl⟩

/-- What is found is found in one of the members. -/
theorem exists_of_mem_gather {l : List α} {found : List β} (h : gather f l = .ok found) {b : β}
    (hb : b ∈ found) : ∃ a ∈ l, ∃ here, f a = .ok here ∧ b ∈ here := by
  induction l generalizing found with
  | nil =>
      cases h
      cases hb
  | cons a l ih =>
      obtain ⟨here, others, hhere, hothers, rfl⟩ := exists_of_gather_cons h
      rcases List.mem_append.mp hb with hb | hb
      · exact ⟨a, List.mem_cons_self, here, hhere, hb⟩
      · obtain ⟨c, hc, hfound⟩ := ih hothers hb
        exact ⟨c, List.mem_cons_of_mem a hc, hfound⟩

/-- What is found are the results of the members, one after the other. -/
theorem exists_forall₂_of_gather {l : List α} {found : List β} (h : gather f l = .ok found) :
    ∃ parts, List.Forall₂ (fun a part => f a = .ok part) l parts ∧ found = parts.flatten := by
  induction l generalizing found with
  | nil =>
      cases h
      exact ⟨[], .nil, rfl⟩
  | cons a l ih =>
      obtain ⟨here, others, hhere, hothers, rfl⟩ := exists_of_gather_cons h
      obtain ⟨parts, hparts, rfl⟩ := ih hothers
      exact ⟨here :: parts, .cons hhere hparts, rfl⟩

/-- Where each member yields one result at most and none fails, the results are collected. -/
theorem eq_filterMap_of_gather {g : α → Except Escape.Error γ} {found? : γ → Option β} {l : List α}
    {found : List β} (h : gather (fun a => return (found? (← g a)).toList) l = .ok found) :
    found = l.filterMap fun a => (g a).toOption.bind found? := by
  induction l generalizing found with
  | nil => cases h; rfl
  | cons a l ih =>
      obtain ⟨here, others, hhere, hothers, rfl⟩ := exists_of_gather_cons h
      obtain ⟨c, hc, hhere⟩ := exists_of_bind hhere
      cases hhere
      rw [ih hothers, List.filterMap_cons, hc]
      cases hfound : found? c <;> simp [Except.toOption, hfound]

/-! ## Failures -/

/-- What is found first in joined lists is what is found first in the first list that has it. -/
theorem findSome?_flatMap (found : α → Option γ) (g : β → List α) (l : List β) :
    (l.flatMap g).findSome? found = l.findSome? fun b => (g b).findSome? found := by
  induction l with
  | nil => rfl
  | cons b l ih =>
      rw [List.flatMap_cons, List.findSome?_append, ih, List.findSome?_cons]
      cases (g b).findSome? found <;> rfl

/-- A fold fails as its first failing step does, if the failure of a step does not depend on what
has been read so far. -/
theorem fault?_foldlM {σ : Type} {step : σ → α → Except Escape.Error σ}
    (own : α → Option Escape.Error) (h : ∀ s a, fault? (step s a) = own a) (s : σ) (l : List α) :
    fault? (l.foldlM step s) = l.findSome? own := by
  induction l generalizing s with
  | nil => rfl
  | cons a l ih =>
      rw [List.foldlM_cons, fault?_bind _ _ (l.findSome? own) fun s' _ => ih s', h,
        List.findSome?_cons]
      cases own a <;> rfl

/-- **A gathering fails as its first failing member does.** -/
theorem fault?_gather (l : List α) : fault? (gather f l) = l.findSome? fun a => fault? (f a) := by
  induction l with
  | nil => rfl
  | cons a l ih =>
      rw [gather_cons, fault?_bind _ _ (fault? (gather f l)), ih, List.findSome?_cons]
      · cases fault? (f a) <;> rfl
      · intro found _
        cases gather f l <;> rfl

end MessageHarvest
