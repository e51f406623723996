import Mathlib.Data.List.Sort

/-!
# Stable sorting of a part

Sorting by insertion is stable: what is kept of a sorted list is what sorting
only that part gives.  The order in which the others stood, or whether they
were there at all, makes no difference.
-/

namespace Collections

variable {α : Type} {r : α → α → Prop} [DecidableRel r]

private theorem orderedInsert_of_forall {a : α} {l : List α}
    (first : ∀ b ∈ l, r a b) : l.orderedInsert r a = a :: l := by
  cases l with
  | nil => rfl
  | cons b rest =>
      exact List.orderedInsert_cons_of_le r rest (first b List.mem_cons_self)

/-- An item that is kept is inserted among those that are kept. -/
theorem filter_orderedInsert_kept [IsTrans α r] {p : α → Bool} {a : α}
    (kept : p a = true) {l : List α} (sorted : l.Pairwise r) :
    (l.orderedInsert r a).filter p = (l.filter p).orderedInsert r a := by
  induction l with
  | nil => simp [kept]
  | cons b rest induction =>
      obtain ⟨above, tail⟩ := List.pairwise_cons.mp sorted
      by_cases first : r a b
      · have before : ∀ c ∈ (b :: rest).filter p, r a c := by
          intro c member
          rcases List.mem_cons.mp (List.mem_of_mem_filter member) with
            rfl | later
          · exact first
          · exact trans_of r first (above c later)
        rw [List.orderedInsert_cons_of_le r rest first,
          List.filter_cons_of_pos kept, orderedInsert_of_forall before]
      · rw [List.orderedInsert_of_not_le r rest first]
        cases keeps : p b with
        | true =>
            rw [List.filter_cons_of_pos keeps, List.filter_cons_of_pos keeps,
              List.orderedInsert_of_not_le r _ first, induction tail]
        | false =>
            have drops : ¬ p b = true := by simp [keeps]
            rw [List.filter_cons_of_neg drops, List.filter_cons_of_neg drops,
              induction tail]

/-- An item that is not kept makes no difference. -/
theorem filter_orderedInsert_dropped {p : α → Bool} {a : α}
    (dropped : ¬ p a = true) (l : List α) :
    (l.orderedInsert r a).filter p = l.filter p := by
  induction l with
  | nil => simp [dropped]
  | cons b rest induction =>
      by_cases first : r a b
      · rw [List.orderedInsert_cons_of_le r rest first,
          List.filter_cons_of_neg dropped]
      · rw [List.orderedInsert_of_not_le r rest first]
        simp only [List.filter_cons, induction]

/-- **Part of a sorted list is that part sorted.** -/
theorem filter_insertionSort [Std.Total r] [IsTrans α r] (p : α → Bool)
    (l : List α) :
    (l.insertionSort r).filter p = (l.filter p).insertionSort r := by
  induction l with
  | nil => rfl
  | cons a rest induction =>
      rw [List.insertionSort_cons]
      by_cases kept : p a = true
      · rw [List.filter_cons_of_pos kept, List.insertionSort_cons,
          ← induction]
        exact filter_orderedInsert_kept kept
          (List.pairwise_insertionSort r rest)
      · rw [List.filter_cons_of_neg kept, ← induction]
        exact filter_orderedInsert_dropped kept _

/-- Relations that agree on the items sort them alike. -/
theorem insertionSort_congr {s : α → α → Prop} [DecidableRel s] {l : List α}
    (agree : ∀ a ∈ l, ∀ b ∈ l, r a b ↔ s a b) :
    l.insertionSort r = l.insertionSort s := by
  simpa using List.map_insertionSort r s id l agree

end Collections
