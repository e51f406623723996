import Mathlib.Data.List.Basic
import Mathlib.Logic.Function.Basic
import Mathlib.Order.Defs.PartialOrder

/-!
# Writes that never go back

A table holds one stamp for each key and is overwritten one key at a time.  No
stamp ever decreases exactly when the stamps of every key arrive in order,
from the one that the table holds.
-/

namespace Collections

variable {κ τ : Type} [DecidableEq κ]

/-- The stamps written for a key, in order. -/
def stampsOf (key : κ) (writes : List (κ × τ)) : List τ :=
  (writes.filter (·.1 = key)).map (·.2)

variable {key other : κ} {stamp : τ} {rest : List (κ × τ)}

theorem stampsOf_cons_self :
    stampsOf key ((key, stamp) :: rest) = stamp :: stampsOf key rest := by
  simp [stampsOf]

theorem stampsOf_cons_other (different : other ≠ key) :
    stampsOf key ((other, stamp) :: rest) = stampsOf key rest := by
  simp [stampsOf, different]

variable [Preorder τ]

/-- No write replaces a stamp by a smaller one. -/
def NeverBack (held : κ → τ) : List (κ × τ) → Prop
  | [] => True
  | (key, stamp) :: rest =>
      held key ≤ stamp ∧ NeverBack (Function.update held key stamp) rest

/-- **Writes never go back exactly when every key is written in order.** -/
theorem neverBack_iff (writes : List (κ × τ)) (held : κ → τ) :
    NeverBack held writes ↔
      ∀ key, (held key :: stampsOf key writes).IsChain (· ≤ ·) := by
  induction writes generalizing held with
  | nil => simp [NeverBack, stampsOf]
  | cons write rest induction =>
      obtain ⟨written, stamp⟩ := write
      rw [NeverBack, induction]
      constructor
      · rintro ⟨notOlder, later⟩ key
        have ordered := later key
        by_cases same : written = key
        · subst same
          rw [Function.update_self] at ordered
          rw [stampsOf_cons_self]
          exact List.isChain_cons_cons.mpr ⟨notOlder, ordered⟩
        · rw [Function.update_of_ne (Ne.symm same)] at ordered
          rw [stampsOf_cons_other same]
          exact ordered
      · intro ordered
        have first := ordered written
        rw [stampsOf_cons_self] at first
        obtain ⟨notOlder, tail⟩ := List.isChain_cons_cons.mp first
        refine ⟨notOlder, ?_⟩
        intro key
        by_cases same : written = key
        · subst same
          rw [Function.update_self]
          exact tail
        · have other := ordered key
          rw [stampsOf_cons_other same] at other
          rw [Function.update_of_ne (Ne.symm same)]
          exact other

end Collections
