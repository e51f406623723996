import Mathlib

/-!
# The freshest item of each key

A list of stamped items is folded into one item for each key: a later item
replaces the kept one only if its stamp is greater.  Selecting items first and
keeping the freshest of them agrees with selecting among the freshest exactly
when no selected item is superseded by an item that is not selected.
-/

namespace Collections

variable {α κ τ : Type} [LinearOrder τ]
  (key : α → κ) (stamp : α → τ)

/-- The first of the items of its key with the greatest stamp. -/
def IsFreshest (items : List α) (item : α) : Prop :=
  ∃ before after, items = before ++ item :: after ∧
    (∀ other ∈ before, key other = key item → stamp other < stamp item) ∧
    ∀ other ∈ after, key other = key item → stamp other ≤ stamp item

variable {key stamp} {items past : List α} {item other : α}

theorem IsFreshest.mem (fresh : IsFreshest key stamp items item) :
    item ∈ items := by
  obtain ⟨before, after, rfl, _⟩ := fresh
  exact List.mem_append_right _ List.mem_cons_self

theorem IsFreshest.stamp_le (fresh : IsFreshest key stamp items item)
    (member : other ∈ items) (sameKey : key other = key item) :
    stamp other ≤ stamp item := by
  obtain ⟨before, after, rfl, older, notFresher⟩ := fresh
  rcases List.mem_append.mp member with inBefore | inRest
  · exact (older other inBefore sameKey).le
  · rcases List.mem_cons.mp inRest with rfl | inAfter
    · exact le_rfl
    · exact notFresher other inAfter sameKey

/-- An item at the end is the freshest of its key, or leaves the others as
fresh as they were. -/
theorem isFreshest_append :
    IsFreshest key stamp (past ++ [item]) other ↔
      (IsFreshest key stamp past other ∧
        (key item = key other → stamp item ≤ stamp other)) ∨
      (other = item ∧
        ∀ earlier ∈ past, key earlier = key item →
          stamp earlier < stamp item) := by
  constructor
  · intro fresh
    obtain ⟨before, after, split, older, notFresher⟩ := fresh
    rcases List.eq_nil_or_concat after with rfl | ⟨rest, last, rfl⟩
    · obtain ⟨rfl, same⟩ := List.append_inj' split rfl
      cases same
      exact .inr ⟨rfl, older⟩
    · rw [List.concat_eq_append] at split notFresher
      have regrouped : past ++ [item] = (before ++ other :: rest) ++ [last] := by
        simpa using split
      obtain ⟨rfl, same⟩ := List.append_inj' regrouped rfl
      cases same
      refine .inl ⟨⟨before, rest, rfl, older, ?_⟩, ?_⟩
      · intro later member
        exact notFresher later (List.mem_append_left _ member)
      · exact notFresher item
          (List.mem_append_right _ (List.mem_singleton_self _))
  · rintro (⟨⟨before, after, rfl, older, notFresher⟩, last⟩ | ⟨rfl, older⟩)
    · refine ⟨before, after ++ [item], by simp, older, ?_⟩
      intro later member
      rcases List.mem_append.mp member with inAfter | isLast
      · exact notFresher later inAfter
      · rw [List.mem_singleton.mp isLast]
        exact last
    · exact ⟨past, [], rfl, older, by simp⟩

/-- Every key of the list has a freshest item. -/
theorem exists_freshest (key : α → κ) (stamp : α → τ)
    (member : item ∈ items) :
    ∃ best, IsFreshest key stamp items best ∧ key best = key item := by
  induction items using List.reverseRecOn generalizing item with
  | nil => cases member
  | append_singleton past last induction =>
      have append : ∀ {earlier}, earlier ∈ past → ∃ best,
          IsFreshest key stamp (past ++ [last]) best ∧
            key best = key earlier := by
        intro earlier inPast
        obtain ⟨best, fresh, sameKey⟩ := induction inPast
        by_cases replaces : key last = key best ∧ stamp best < stamp last
        · obtain ⟨lastKey, fresher⟩ := replaces
          refine ⟨last, isFreshest_append.mpr (.inr ⟨rfl, ?_⟩),
            lastKey.trans sameKey⟩
          intro older inPast' olderKey
          exact (fresh.stamp_le inPast' (olderKey.trans lastKey)).trans_lt
            fresher
        · refine ⟨best, isFreshest_append.mpr (.inl ⟨fresh, ?_⟩), sameKey⟩
          intro lastKey
          exact not_lt.mp fun fresher => replaces ⟨lastKey, fresher⟩
      rcases List.mem_append.mp member with inPast | isLast
      · exact append inPast
      · obtain rfl := List.mem_singleton.mp isLast
        by_cases known : ∃ earlier ∈ past, key earlier = key item
        · obtain ⟨earlier, inPast, sameKey⟩ := known
          obtain ⟨best, fresh, bestKey⟩ := append inPast
          exact ⟨best, fresh, bestKey.trans sameKey⟩
        · refine ⟨item, isFreshest_append.mpr (.inr ⟨rfl, ?_⟩), rfl⟩
          intro earlier inPast sameKey
          exact absurd ⟨earlier, inPast, sameKey⟩ known

/-- A key has at most one freshest item. -/
theorem IsFreshest.unique {left right : α}
    (leftFresh : IsFreshest key stamp items left)
    (rightFresh : IsFreshest key stamp items right)
    (sameKey : key left = key right) : left = right := by
  induction items using List.reverseRecOn with
  | nil => cases leftFresh.mem
  | append_singleton past last induction =>
      rcases isFreshest_append.mp leftFresh with
        ⟨leftPast, leftLast⟩ | ⟨rfl, leftNewest⟩
      · rcases isFreshest_append.mp rightFresh with
          ⟨rightPast, rightLast⟩ | ⟨rfl, rightNewest⟩
        · exact induction leftPast rightPast
        · have older := rightNewest left leftPast.mem sameKey
          exact absurd (leftLast sameKey.symm) (not_le.mpr older)
      · rcases isFreshest_append.mp rightFresh with
          ⟨rightPast, rightLast⟩ | ⟨rfl, rightNewest⟩
        · have older := leftNewest right rightPast.mem sameKey.symm
          exact absurd (rightLast sameKey) (not_le.mpr older)
        · rfl

variable {selected : α → Bool}

/-- A selected freshest item stays the freshest of the selected ones. -/
theorem IsFreshest.filter (fresh : IsFreshest key stamp items item)
    (isSelected : selected item = true) :
    IsFreshest key stamp (items.filter selected) item := by
  obtain ⟨before, after, rfl, older, notFresher⟩ := fresh
  refine ⟨before.filter selected, after.filter selected, ?_, ?_, ?_⟩
  · rw [List.filter_append, List.filter_cons_of_pos isSelected]
  · intro other member
    exact older other (List.mem_filter.mp member).1
  · intro other member
    exact notFresher other (List.mem_filter.mp member).1

section

variable [DecidableEq κ] (key : α → κ) (stamp : α → τ)

/-- Keep an item, unless the one kept for its key is as fresh. -/
def keep (kept : List α) (item : α) : List α :=
  match kept.find? fun other => key other = key item with
  | none => kept ++ [item]
  | some existing =>
      if stamp existing < stamp item then
        kept.map fun other => if key other = key item then item else other
      else kept

/-- One item of each key. -/
def freshest (items : List α) : List α := items.foldl (keep key stamp) []

end

variable [DecidableEq κ]

theorem keep_new {kept : List α}
    (found : kept.find? (fun other => key other = key item) = none) :
    keep key stamp kept item = kept ++ [item] := by
  unfold keep
  rw [found]

theorem keep_known {kept : List α} {existing : α}
    (found : kept.find? (fun other => key other = key item) =
      some existing) :
    keep key stamp kept item =
      if stamp existing < stamp item then
        kept.map fun other => if key other = key item then item else other
      else kept := by
  unfold keep
  rw [found]

/-- Keeping an item changes the kept keys only by adding an unknown one. -/
theorem keep_keys_nodup {kept : List α} (nodup : (kept.map key).Nodup) :
    ((keep key stamp kept item).map key).Nodup := by
  cases found : kept.find? fun other => key other = key item with
  | none =>
      rw [keep_new found, List.map_append]
      refine List.nodup_append.mpr ⟨nodup, List.pairwise_singleton _ _, ?_⟩
      intro known inKept new isNew same
      obtain ⟨other, member, rfl⟩ := List.mem_map.mp inKept
      have different := List.find?_eq_none.mp found other member
      apply different
      rw [same, List.mem_singleton.mp isNew]
      exact decide_eq_true rfl
  | some existing =>
      rw [keep_known found]
      split_ifs
      · have sameKeys : (kept.map fun other =>
            if key other = key item then item else other).map key =
              kept.map key := by
          rw [List.map_map]
          apply List.map_congr_left
          intro other _
          by_cases same : key other = key item
          · simp [same]
          · simp [same]
        rw [sameKeys]
        exact nodup
      · exact nodup

theorem freshest_keys_nodup (items : List α) :
    ((freshest key stamp items).map key).Nodup := by
  induction items using List.reverseRecOn with
  | nil => exact List.nodup_nil
  | append_singleton past last induction =>
      unfold freshest at induction ⊢
      rw [List.foldl_concat]
      exact keep_keys_nodup induction

/-- The fold keeps exactly the freshest items. -/
theorem mem_freshest :
    item ∈ freshest key stamp items ↔ IsFreshest key stamp items item := by
  induction items using List.reverseRecOn generalizing item with
  | nil =>
      constructor
      · intro member
        cases member
      · intro fresh
        cases fresh.mem
  | append_singleton past last induction =>
      unfold freshest at induction ⊢
      rw [List.foldl_concat, isFreshest_append]
      cases found : (past.foldl (keep key stamp) []).find?
          fun other => key other = key last with
      | none =>
          have unknown : ∀ earlier ∈ past, key earlier ≠ key last := by
            intro earlier inPast sameKey
            obtain ⟨best, fresh, bestKey⟩ := exists_freshest key stamp inPast
            have notLast := List.find?_eq_none.mp found best
              (induction.mpr fresh)
            simp [bestKey, sameKey] at notLast
          rw [keep_new found, List.mem_append, List.mem_singleton, induction]
          apply or_congr
          · refine ⟨fun fresh => ⟨fresh, ?_⟩, fun both => both.1⟩
            intro sameKey
            exact absurd sameKey.symm (unknown item fresh.mem)
          · refine ⟨fun same => ⟨same, ?_⟩, fun both => both.1⟩
            intro earlier inPast sameKey
            exact absurd sameKey (unknown earlier inPast)
      | some existing =>
          have existingKey : key existing = key last := by
            simpa using List.find?_some found
          have existingFresh :=
            induction.mp (List.mem_of_find?_eq_some found)
          rw [keep_known found]
          split_ifs with fresher
          · have newest : ∀ earlier ∈ past, key earlier = key last →
                stamp earlier < stamp last := fun earlier inPast sameKey =>
              (existingFresh.stamp_le inPast
                (sameKey.trans existingKey.symm)).trans_lt fresher
            constructor
            · intro member
              obtain ⟨other, inKept, same⟩ := List.mem_map.mp member
              split_ifs at same with sameKey
              · exact .inr ⟨same.symm, newest⟩
              · subst same
                exact .inl ⟨induction.mp inKept,
                  fun lastKey => absurd lastKey.symm sameKey⟩
            · rintro (⟨fresh, notFresher⟩ | ⟨rfl, _⟩)
              · have otherKey : key item ≠ key last := fun sameKey =>
                  absurd (notFresher sameKey.symm)
                    (not_le.mpr (newest item fresh.mem sameKey))
                exact List.mem_map.mpr
                  ⟨item, induction.mpr fresh, if_neg otherKey⟩
              · exact List.mem_map.mpr ⟨existing,
                  List.mem_of_find?_eq_some found, if_pos existingKey⟩
          · rw [induction]
            constructor
            · intro fresh
              refine .inl ⟨fresh, ?_⟩
              intro sameKey
              have same := fresh.unique existingFresh
                (sameKey.symm.trans existingKey.symm)
              rw [same]
              exact not_lt.mp fresher
            · rintro (⟨fresh, _⟩ | ⟨rfl, newest⟩)
              · exact fresh
              · exact absurd (newest existing existingFresh.mem existingKey)
                  fresher

/-- Selection commutes with keeping the freshest items exactly when the
freshest item of every key that has a selected item is selected itself. -/
theorem freshest_filter_iff :
    (∀ item, item ∈ freshest key stamp (items.filter selected) ↔
        item ∈ freshest key stamp items ∧ selected item = true) ↔
      ∀ best, IsFreshest key stamp items best →
        (∃ other ∈ items, key other = key best ∧ selected other = true) →
          selected best = true := by
  simp only [mem_freshest]
  constructor
  · intro agree best fresh superseded
    obtain ⟨other, member, sameKey, isSelected⟩ := superseded
    obtain ⟨chosen, chosenFresh, chosenKey⟩ := exists_freshest key stamp
      (List.mem_filter.mpr ⟨member, isSelected⟩)
    obtain ⟨alsoFresh, chosenSelected⟩ := (agree chosen).mp chosenFresh
    rw [fresh.unique alsoFresh (chosenKey.trans sameKey).symm]
    exact chosenSelected
  · intro notSuperseded item
    constructor
    · intro fresh
      obtain ⟨member, isSelected⟩ := List.mem_filter.mp fresh.mem
      obtain ⟨best, bestFresh, bestKey⟩ := exists_freshest key stamp member
      have bestSelected := notSuperseded best bestFresh
        ⟨item, member, bestKey.symm, isSelected⟩
      have same := fresh.unique (bestFresh.filter bestSelected) bestKey.symm
      rw [same]
      exact ⟨bestFresh, bestSelected⟩
    · intro both
      exact both.1.filter both.2

end Collections
