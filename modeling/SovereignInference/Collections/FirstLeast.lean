import Mathlib.Data.List.Induction

/-!
# The first least item

A loop keeps the best item so far, and takes another one that is less.  Some
items cannot be compared: such an item stays if it is the first, and never
comes in later.
-/

namespace Collections

variable {α : Type*}

/-- A strict order in which an item that can be compared is above the lesser
or below the greater of any two. -/
structure IsComparison (less : α → α → Prop) (comparable : α → Prop) :
    Prop where
  both : ∀ {a b}, less a b → comparable a ∧ comparable b
  irrefl : ∀ a, ¬ less a a
  trans : ∀ {a b c}, less a b → less b c → less a c
  between : ∀ {a b c}, less a c → comparable b → less a b ∨ less b c

section

variable (less : α → α → Prop) (comparable : α → Prop)

/-- No item after it is less, and every item before it is greater or cannot be
compared; an item that cannot be compared is the first one or not before it. -/
def FirstLeast (items : List α) (least : α) : Prop :=
  ∃ before after, items = before ++ least :: after ∧
    (∀ item ∈ before.head?, comparable item) ∧
    (∀ item ∈ before, less least item ∨ ¬ comparable item) ∧
    ∀ item ∈ after, ¬ less item least

end

variable {less : α → α → Prop} {comparable : α → Prop}

variable (comparison : IsComparison less comparable)
include comparison

/-- An item that is less than the first least one is the next. -/
theorem FirstLeast.replace {items : List α} {least next : α}
    (isLeast : FirstLeast less comparable items least)
    (below : less next least) :
    FirstLeast less comparable (items ++ [next]) next := by
  obtain ⟨before, after, rfl, first, above, notBelow⟩ := isLeast
  refine ⟨before ++ least :: after, [], by simp, ?_, ?_, by simp⟩
  · intro item member
    cases before with
    | nil =>
        cases member
        exact (comparison.both below).2
    | cons head tail => exact first item member
  · intro item member
    rcases List.mem_append.mp member with early | late
    · exact (above item early).imp_left (comparison.trans below)
    · rcases List.mem_cons.mp late with rfl | late
      · exact .inl below
      · by_cases canCompare : comparable item
        · exact .inl ((comparison.between below canCompare).resolve_right
            (notBelow item late))
        · exact .inr canCompare

omit comparison in
theorem FirstLeast.keep {items : List α} {least next : α}
    (isLeast : FirstLeast less comparable items least)
    (notBelow : ¬ less next least) :
    FirstLeast less comparable (items ++ [next]) least := by
  obtain ⟨before, after, rfl, first, above, others⟩ := isLeast
  refine ⟨before, after ++ [next], by simp, first, above, ?_⟩
  intro item member
  rcases List.mem_append.mp member with early | late
  · exact others item early
  · obtain rfl := List.mem_singleton.mp late
    exact notBelow

/-- **The loop finds the first least item.** -/
theorem firstLeast_foldl [DecidableRel less] (first : α) (rest : List α) :
    FirstLeast less comparable (first :: rest)
      (rest.foldl (fun best item => if less item best then item else best)
        first) := by
  induction rest using List.reverseRecOn with
  | nil => exact ⟨[], [], rfl, by simp, by simp, by simp⟩
  | append_singleton rest next induction =>
      rw [List.foldl_append, ← List.cons_append]
      simp only [List.foldl_cons, List.foldl_nil]
      split_ifs with below
      · exact induction.replace comparison below
      · exact induction.keep below

private theorem not_firstLeast_later {before between : List α} {early late : α}
    (above : ∀ item ∈ before, less early item ∨ ¬ comparable item)
    (notBelow : ¬ less late early)
    (first : ∀ item ∈ (before ++ early :: between).head?, comparable item)
    (laterAbove : less late early ∨ ¬ comparable early) : False := by
  apply laterAbove.resolve_left notBelow
  cases before with
  | nil => exact first early rfl
  | cons head tail =>
      have headCompares : comparable head := first head rfl
      have headAbove := (above head List.mem_cons_self).resolve_right
        (not_not_intro headCompares)
      exact (comparison.both headAbove).1

/-- There is only one first least item. -/
theorem FirstLeast.unique {items : List α} {least other : α}
    (isLeast : FirstLeast less comparable items least)
    (isOther : FirstLeast less comparable items other) : least = other := by
  obtain ⟨before, after, rfl, first, above, notBelow⟩ := isLeast
  obtain ⟨before', after', split, first', above', notBelow'⟩ := isOther
  rcases List.append_eq_append_iff.mp split with
    ⟨between, rfl, suffixes⟩ | ⟨between, rfl, suffixes⟩
  · cases between with
    | nil => exact (List.cons.inj suffixes).1
    | cons item between =>
        obtain ⟨rfl, rfl⟩ := List.cons.inj suffixes
        exact (not_firstLeast_later comparison above (notBelow other (by simp))
          first' (above' least (by simp))).elim
  · cases between with
    | nil => exact (List.cons.inj suffixes).1.symm
    | cons item between =>
        obtain ⟨rfl, rfl⟩ := List.cons.inj suffixes
        exact (not_firstLeast_later comparison above'
          (notBelow' least (by simp)) first (above other (by simp))).elim

end Collections
