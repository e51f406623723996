import Mathlib.Algebra.Order.Group.Defs
import Mathlib.Algebra.Order.Sub.Basic
import Mathlib.Data.List.Basic

/-!
# Sliding windows

A window of a width ends at a time and leaves its start out.  If no window that
ends at one of a list of times holds too many of them, no window does.
-/

namespace Collections

variable {α : Type} [LinearOrder α] {width start stop now : α}
  {times : List α}

/-- Of sorted times the expired ones are in front. -/
theorem dropWhile_le_eq_filter (sorted : times.Pairwise (· ≤ ·)) :
    times.dropWhile (· ≤ start) = times.filter (start < ·) := by
  induction times with
  | nil => rfl
  | cons time rest induction =>
      obtain ⟨later, tail⟩ := List.pairwise_cons.mp sorted
      by_cases expired : time ≤ start
      · rw [List.dropWhile_cons_of_pos (by simpa using expired),
          List.filter_cons_of_neg (by simpa using expired), induction tail]
      · rw [List.dropWhile_cons_of_neg (by simpa using expired)]
        refine (List.filter_eq_self.mpr ?_).symm
        intro other member
        have after := not_le.mp expired
        rcases List.mem_cons.mp member with rfl | inRest
        · exact decide_eq_true after
        · exact decide_eq_true (after.trans_le (later other inRest))

variable [AddCommGroup α]

/-- The times in the window that ends at `stop`. -/
def window (width stop : α) (times : List α) : List α :=
  times.filter fun time => stop - width < time ∧ time ≤ stop

/-- At a time that no other exceeds, the window only has a start. -/
theorem window_eq_filter (reached : ∀ time ∈ times, time ≤ now) :
    window width now times = times.filter (now - width < ·) := by
  apply List.filter_congr
  intro time member
  simp [reached time member]

variable [IsOrderedAddMonoid α]

/-- A later window of what is left of an earlier one. -/
theorem filter_window (reached : ∀ time ∈ times, time ≤ now)
    (later : now ≤ stop) :
    (window width now times).filter (stop - width < ·) =
      window width stop times := by
  rw [window_eq_filter reached, List.filter_filter]
  apply List.filter_congr
  intro time member
  have before := (reached time member).trans later
  have starts : now - width ≤ stop - width := sub_le_sub_right later width
  by_cases inside : stop - width < time
  · simp [inside, before, starts.trans_lt inside]
  · simp [inside]

/-- A window ends at a new last time or does not reach it. -/
theorem window_append_le {limit : Nat} (reached : ∀ time ∈ times, time ≤ now)
    (bounded : ∀ stop, (window width stop times).length ≤ limit)
    (last : (window width now (times ++ [now])).length ≤ limit) (stop : α) :
    (window width stop (times ++ [now])).length ≤ limit := by
  rcases le_or_gt now stop with after | before
  · refine le_trans ?_ last
    unfold window
    rw [← List.countP_eq_length_filter, ← List.countP_eq_length_filter]
    apply List.countP_mono_left
    intro time member inside
    have starts : now - width ≤ stop - width := sub_le_sub_right after width
    simp only [decide_eq_true_eq] at inside ⊢
    refine ⟨starts.trans_lt inside.1, ?_⟩
    rcases List.mem_append.mp member with earlier | isNow
    · exact reached time earlier
    · exact (List.mem_singleton.mp isNow).le
  · have notYet : window width stop [now] = [] := by
      simp [window, before]
    unfold window at bounded notYet ⊢
    rw [List.filter_append, notYet, List.append_nil]
    exact bounded stop

end Collections
