import Mathlib.Data.List.Induction
import Mathlib.Data.List.Nodup

/-!
# One item for each key and each place

Items come one by one, each with a key and a place.  An item replaces the one
of its key, but it is refused where another key holds its place, so keys and
places stay distinct.
-/

namespace Collections

section

variable {α κ π : Type} (key : α → κ) (place : α → π)

/-- The place of an item is held by another key. -/
def Contested (held : List α) (item : α) : Prop :=
  ∃ other ∈ held, place other = place item ∧ key other ≠ key item

variable [DecidableEq κ] [DecidableEq π]

instance (held : List α) (item : α) : Decidable (Contested key place held item) :=
  inferInstanceAs (Decidable (∃ other ∈ held, _ ∧ _))

/-- Take an item in, unless its place is contested. -/
def pin (held : List α) (item : α) : List α :=
  if Contested key place held item then held
  else held.filter (fun other => key other ≠ key item) ++ [item]

/-- What is held after the items, when nothing is held before. -/
def pinAll (items : List α) : List α := items.foldl (pin key place) []

/-- The last item of its key among those not refused when they come. -/
def IsPinned (items : List α) (item : α) : Prop :=
  ∃ before after, items = before ++ item :: after ∧
    ¬ Contested key place (pinAll key place before) item ∧
    ∀ between later rest, after = between ++ later :: rest →
      key later = key item →
        Contested key place (pinAll key place (before ++ item :: between)) later

end

variable {α κ π : Type} {key : α → κ} {place : α → π} [DecidableEq κ]
  [DecidableEq π] {held items past : List α} {item other last : α}

theorem pin_contested (contested : Contested key place held item) :
    pin key place held item = held := if_pos contested

theorem pin_free (free : ¬ Contested key place held item) :
    pin key place held item =
      held.filter (fun other => key other ≠ key item) ++ [item] := if_neg free

theorem pinAll_append :
    pinAll key place (past ++ [last]) =
      pin key place (pinAll key place past) last := by
  unfold pinAll
  rw [List.foldl_concat]

theorem mem_pin_free (free : ¬ Contested key place held item) :
    other ∈ pin key place held item ↔
      (other ∈ held ∧ key other ≠ key item) ∨ other = item := by
  rw [pin_free free, List.mem_append, List.mem_filter, List.mem_singleton,
    decide_eq_true_iff]

/-- An item that is not refused is held. -/
theorem mem_pin_self (free : ¬ Contested key place held item) :
    item ∈ pin key place held item := (mem_pin_free free).mpr (.inr rfl)

/-- A key that is held stays held. -/
theorem key_mem_pin (member : other ∈ held) :
    ∃ kept ∈ pin key place held item, key kept = key other := by
  by_cases contested : Contested key place held item
  · rw [pin_contested contested]
    exact ⟨other, member, rfl⟩
  · by_cases same : key other = key item
    · exact ⟨item, mem_pin_self contested, same.symm⟩
    · exact ⟨other, (mem_pin_free contested).mpr (.inl ⟨member, same⟩), rfl⟩

theorem key_mem_foldl_pin (member : other ∈ held) :
    ∃ kept ∈ items.foldl (pin key place) held, key kept = key other := by
  induction items generalizing held other with
  | nil => exact ⟨other, member, rfl⟩
  | cons first rest induction =>
      obtain ⟨next, inNext, sameKey⟩ :=
        @key_mem_pin α κ π key place _ _ held first other member
      obtain ⟨kept, inLast, keptKey⟩ := induction inNext
      exact ⟨kept, inLast, keptKey.trans sameKey⟩

private theorem mem_of_mem_pin (member : other ∈ pin key place held item) :
    other ∈ held ∨ other = item := by
  by_cases contested : Contested key place held item
  · rw [pin_contested contested] at member
    exact .inl member
  · rcases (mem_pin_free contested).mp member with ⟨inHeld, _⟩ | same
    · exact .inl inHeld
    · exact .inr same

theorem mem_of_mem_foldl_pin (member : other ∈ items.foldl (pin key place) held) :
    other ∈ held ∨ other ∈ items := by
  induction items generalizing held with
  | nil => exact .inl member
  | cons first rest induction =>
      rcases induction member with inNext | inRest
      · rcases mem_of_mem_pin inNext with inHeld | rfl
        · exact .inl inHeld
        · exact .inr List.mem_cons_self
      · exact .inr (List.mem_cons_of_mem first inRest)

/-- Distinct keys stay distinct. -/
theorem pin_keys_nodup (nodup : (held.map key).Nodup) :
    ((pin key place held item).map key).Nodup := by
  by_cases contested : Contested key place held item
  · rw [pin_contested contested]
    exact nodup
  · rw [pin_free contested, List.map_append]
    have kept := nodup.sublist
      ((List.filter_sublist (p := fun other =>
        decide (key other ≠ key item))).map key)
    refine List.nodup_append.mpr ⟨kept, List.nodup_singleton _, ?_⟩
    intro old isOld new isNew same
    obtain ⟨other, member, rfl⟩ := List.mem_map.mp isOld
    rw [List.map_singleton, List.mem_singleton] at isNew
    have different := of_decide_eq_true (List.mem_filter.mp member).2
    exact different (same.trans isNew)

/-- Distinct places stay distinct: an item at a place already held is refused
or replaces the one item that holds it. -/
theorem pin_places_nodup (nodup : (held.map place).Nodup) :
    ((pin key place held item).map place).Nodup := by
  by_cases contested : Contested key place held item
  · rw [pin_contested contested]
    exact nodup
  · rw [pin_free contested, List.map_append]
    have kept := nodup.sublist
      ((List.filter_sublist (p := fun other =>
        decide (key other ≠ key item))).map place)
    refine List.nodup_append.mpr ⟨kept, List.nodup_singleton _, ?_⟩
    intro old isOld new isNew same
    obtain ⟨other, member, rfl⟩ := List.mem_map.mp isOld
    rw [List.map_singleton, List.mem_singleton] at isNew
    obtain ⟨inHeld, different⟩ := List.mem_filter.mp member
    exact contested ⟨other, inHeld, same.trans isNew,
      of_decide_eq_true different⟩

/-- Keys and places are distinct after any items. -/
theorem pinAll_nodup (items : List α) :
    ((pinAll key place items).map key).Nodup ∧
      ((pinAll key place items).map place).Nodup := by
  induction items using List.reverseRecOn with
  | nil => exact ⟨List.nodup_nil, List.nodup_nil⟩
  | append_singleton past last induction =>
      rw [pinAll_append]
      exact ⟨pin_keys_nodup induction.1, pin_places_nodup induction.2⟩

/-- An item at the end is pinned unless it is refused, and the others stay
pinned unless it replaces them. -/
theorem isPinned_append :
    IsPinned key place (past ++ [last]) item ↔
      (IsPinned key place past item ∧
        (key last = key item →
          Contested key place (pinAll key place past) last)) ∨
      (item = last ∧ ¬ Contested key place (pinAll key place past) last) := by
  constructor
  · rintro ⟨before, after, split, free, later⟩
    rcases List.eq_nil_or_concat after with rfl | ⟨rest, final, rfl⟩
    · obtain ⟨rfl, same⟩ := List.append_inj' split rfl
      cases same
      exact .inr ⟨rfl, free⟩
    · rw [List.concat_eq_append] at split later
      have regrouped : past ++ [last] = (before ++ item :: rest) ++ [final] := by
        simpa using split
      obtain ⟨rfl, same⟩ := List.append_inj' regrouped rfl
      cases same
      refine .inl ⟨⟨before, rest, rfl, free, ?_⟩, ?_⟩
      · intro between next others rest_eq sameKey
        exact later between next (others ++ [last]) (by simp [rest_eq]) sameKey
      · intro sameKey
        exact later rest last [] rfl sameKey
  · rintro (⟨⟨before, after, rfl, free, later⟩, refused⟩ | ⟨rfl, free⟩)
    · refine ⟨before, after ++ [last], by simp, free, ?_⟩
      intro between next rest split sameKey
      rcases List.eq_nil_or_concat rest with rfl | ⟨others, final, rfl⟩
      · obtain ⟨rfl, same⟩ := List.append_inj' split rfl
        cases same
        exact refused sameKey
      · rw [List.concat_eq_append] at split
        have regrouped : after ++ [last] =
            (between ++ next :: others) ++ [final] := by
          simpa using split
        obtain ⟨rfl, _⟩ := List.append_inj' regrouped rfl
        exact later between next others rfl sameKey
    · refine ⟨past, [], rfl, free, ?_⟩
      intro between next rest split
      cases between <;> cases split

/-- **What is held are the items that are pinned.** -/
theorem mem_pinAll :
    item ∈ pinAll key place items ↔ IsPinned key place items item := by
  induction items using List.reverseRecOn generalizing item with
  | nil =>
      constructor
      · intro member
        cases member
      · rintro ⟨before, after, split, _⟩
        cases before <;> cases split
  | append_singleton past last induction =>
      rw [pinAll_append, isPinned_append, ← induction]
      by_cases contested : Contested key place (pinAll key place past) last
      · rw [pin_contested contested]
        simp [contested]
      · rw [mem_pin_free contested]
        simp only [contested, imp_false, not_false_iff, and_true]
        exact or_congr_left (and_congr_right fun _ => ne_comm)

end Collections
