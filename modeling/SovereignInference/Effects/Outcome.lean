import Mathlib.Data.List.Forall2
import Mathlib.Logic.Basic

/-!
# Outcomes of computations that may raise

Simplification rules for `Except`, and the inversion of a sequence: it
succeeds exactly when its first half does and the second half does with that
value, and a list is gone through when every item is.
-/

namespace Effects

variable {ε α β : Type}

@[simp] theorem ok_bind (value : α) (rest : α → Except ε β) :
    (Except.ok value >>= rest) = rest value := rfl

@[simp] theorem error_bind (error : ε) (rest : α → Except ε β) :
    (Except.error error >>= rest) = .error error := rfl

@[simp] theorem pure_eq_ok (value : α) :
    (pure value : Except ε α) = .ok value := rfl

@[simp] theorem throw_eq_error (error : ε) :
    (throw error : Except ε α) = .error error := rfl

@[simp] theorem mapError_ok {δ : Type} (f : ε → δ) (value : α) :
    (Except.ok value : Except ε α).mapError f = .ok value := rfl

@[simp] theorem mapError_error {δ : Type} (f : ε → δ) (error : ε) :
    (Except.error error : Except ε α).mapError f = .error (f error) := rfl

theorem bind_eq_ok {first : Except ε α} {rest : α → Except ε β} {value : β} :
    first >>= rest = .ok value ↔
      ∃ middle, first = .ok middle ∧ rest middle = .ok value := by
  cases first with
  | error error => simp
  | ok middle => simp

theorem mapM_isOk {f : α → Except ε β} {items : List α} :
    (∃ results, items.mapM f = .ok results) ↔
      ∀ item ∈ items, ∃ result, f item = .ok result := by
  induction items with
  | nil => simp
  | cons item rest induction =>
      rw [List.mapM_cons, List.forall_mem_cons, ← induction]
      cases f item with
      | error error => simp
      | ok result =>
          cases rest.mapM f with
          | error error => simp
          | ok results => simp

theorem mapM_eq_map {f : α → Except ε β} {g : α → β} {items : List α}
    (each : ∀ item ∈ items, f item = .ok (g item)) :
    items.mapM f = .ok (items.map g) := by
  induction items with
  | nil => rfl
  | cons item rest induction =>
      obtain ⟨first, others⟩ := List.forall_mem_cons.mp each
      rw [List.mapM_cons, first, induction others]
      rfl

/-- Every item is gone through unless one of them raises. -/
theorem mapM_ite {p : α → Prop} [DecidablePred p] (g : α → β) (error : ε)
    (items : List α) :
    (items.mapM fun item =>
        if p item then Except.ok (g item) else .error error) =
      if ∀ item ∈ items, p item then .ok (items.map g) else .error error := by
  induction items with
  | nil => simp
  | cons item rest induction =>
      rw [List.mapM_cons, induction]
      by_cases first : p item
      · rw [if_pos first]
        by_cases others : ∀ item ∈ rest, p item
        · rw [if_pos others, if_pos (List.forall_mem_cons.mpr ⟨first, others⟩)]
          rfl
        · rw [if_neg others, if_neg fun all =>
            others (List.forall_mem_cons.mp all).2]
          rfl
      · rw [if_neg first, if_neg fun all =>
          first (List.forall_mem_cons.mp all).1]
        rfl

theorem mapM_error {f : α → Except ε β} {items : List α} {error : ε}
    (failed : items.mapM f = .error error) :
    ∃ item ∈ items, f item = .error error := by
  induction items with
  | nil => cases failed
  | cons item rest induction =>
      rw [List.mapM_cons] at failed
      cases first : f item with
      | error error' =>
          rw [first] at failed
          cases failed
          exact ⟨item, List.mem_cons_self, first⟩
      | ok result =>
          cases later : rest.mapM f with
          | error error' =>
              rw [first, later] at failed
              cases failed
              obtain ⟨culprit, member, raised⟩ := induction later
              exact ⟨culprit, List.mem_cons_of_mem _ member, raised⟩
          | ok results =>
              rw [first, later] at failed
              cases failed

theorem mapM_forall₂ {f : α → Except ε β} {items : List α} {results : List β}
    (mapped : items.mapM f = .ok results) :
    List.Forall₂ (fun item result => f item = .ok result) items results := by
  induction items generalizing results with
  | nil =>
      cases mapped
      exact .nil
  | cons item rest induction =>
      rw [List.mapM_cons] at mapped
      obtain ⟨result, first, mapped⟩ := bind_eq_ok.mp mapped
      obtain ⟨others, later, mapped⟩ := bind_eq_ok.mp mapped
      cases mapped
      exact .cons first (induction later)

theorem forall₂_source {r : α → β → Prop} {items : List α}
    {results : List β} (pairs : List.Forall₂ r items results) {result : β}
    (member : result ∈ results) : ∃ item ∈ items, r item result := by
  induction pairs with
  | nil => cases member
  | cons pair _ induction =>
      rcases List.mem_cons.mp member with rfl | later
      · exact ⟨_, List.mem_cons_self, pair⟩
      · obtain ⟨item, inRest, related⟩ := induction later
        exact ⟨item, List.mem_cons_of_mem _ inRest, related⟩

end Effects
