import SovereignInference.Python.Text
import Mathlib.Data.List.Lex
import Mathlib.Order.Fin.Basic

/-!
# The order of UTF-16 code units

Texts are ordered alike by their characters and by their UTF-16 code units,
except where they first differ in a character of the range U+E000 to U+FFFF
and one beyond it: there the two orders are opposite.
-/

namespace Python

/-- The UTF-16 code units of a character. -/
def charUnits (c : CodePoint) : List Nat :=
  if c.val < 0x10000 then [c.val]
  else [0xD800 + (c.val - 0x10000) / 0x400, 0xDC00 + (c.val - 0x10000) % 0x400]

/-- The UTF-16 code units of a text. -/
def utf16 (s : Text) : List Nat := s.flatMap charUnits

/-- One character is in the range U+E000 to U+FFFF, the other beyond it. -/
def Opposed (c d : CodePoint) : Prop :=
  0xE000 ≤ c.val ∧ c.val < 0x10000 ∧ 0x10000 ≤ d.val

instance (c d : CodePoint) : Decidable (Opposed c d) :=
  inferInstanceAs (Decidable (_ ∧ _))

/-- The first characters in which the texts differ are opposed. -/
def Divergent : Text → Text → Prop
  | c :: s, d :: t =>
      if c = d then Divergent s t else Opposed c d ∨ Opposed d c
  | _, _ => False

instance Divergent.decide : (s t : Text) → Decidable (Divergent s t)
  | [], _ => inferInstanceAs (Decidable False)
  | _ :: _, [] => inferInstanceAs (Decidable False)
  | c :: s, d :: t =>
      let _ := Divergent.decide s t
      inferInstanceAs (Decidable
        (if c = d then Divergent s t else Opposed c d ∨ Opposed d c))

@[simp] theorem utf16_cons (c : CodePoint) (s : Text) :
    utf16 (c :: s) = charUnits c ++ utf16 s := List.flatMap_cons

theorem divergent_cons_self {c : CodePoint} {s t : Text} :
    Divergent (c :: s) (c :: t) ↔ Divergent s t := by
  rw [Divergent, if_pos rfl]

theorem divergent_cons {c d : CodePoint} (different : c ≠ d) {s t : Text} :
    Divergent (c :: s) (d :: t) ↔ Opposed c d ∨ Opposed d c := by
  rw [Divergent, if_neg different]

theorem divergent_symm {s t : Text} (divergent : Divergent s t) :
    Divergent t s := by
  induction s generalizing t with
  | nil => exact divergent.elim
  | cons c s induction =>
      cases t with
      | nil => exact divergent.elim
      | cons d t =>
          by_cases same : c = d
          · subst same
            exact divergent_cons_self.mpr
              (induction (divergent_cons_self.mp divergent))
          · exact (divergent_cons (Ne.symm same)).mpr
              ((divergent_cons same).mp divergent).symm

theorem charUnits_basic {c : CodePoint} (basic : c.val < 0x10000) :
    charUnits c = [c.val] := if_pos basic

theorem charUnits_beyond {c : CodePoint} (beyond : 0x10000 ≤ c.val) :
    charUnits c = [0xD800 + (c.val - 0x10000) / 0x400,
      0xDC00 + (c.val - 0x10000) % 0x400] := if_neg (by omega)

theorem charUnits_opposed {c d : CodePoint} (opposed : Opposed c d)
    (more more' : List Nat) : charUnits d ++ more' < charUnits c ++ more := by
  obtain ⟨above, basic, beyond⟩ := opposed
  have bound := d.isLt
  rw [charUnits_basic basic, charUnits_beyond beyond]
  apply List.cons_lt_cons_iff.mpr
  left
  omega

private theorem charUnits_lt {c d : CodePoint} (plain : isSurrogate c = false)
    (smaller : c < d) (agree : ¬ Opposed c d) (more more' : List Nat) :
    charUnits c ++ more < charUnits d ++ more' := by
  have below : c.val < d.val := smaller
  have notSurrogate : ¬ (0xD800 ≤ c.val ∧ c.val ≤ 0xDFFF) := by
    simpa [isSurrogate] using plain
  have notOpposed : ¬ (0xE000 ≤ c.val ∧ c.val < 0x10000 ∧ 0x10000 ≤ d.val) :=
    agree
  by_cases basic : d.val < 0x10000
  · rw [charUnits_basic (by omega), charUnits_basic basic]
    exact List.cons_lt_cons_iff.mpr (.inl below)
  rw [charUnits_beyond (c := d) (by omega)]
  by_cases basic' : c.val < 0x10000
  · rw [charUnits_basic basic']
    apply List.cons_lt_cons_iff.mpr
    left
    omega
  · rw [charUnits_beyond (by omega)]
    apply List.cons_lt_cons_iff.mpr
    rcases Nat.lt_or_ge ((c.val - 0x10000) / 0x400)
      ((d.val - 0x10000) / 0x400) with high | low
    · left
      omega
    · refine .inr ⟨by omega, List.cons_lt_cons_iff.mpr (.inl ?_)⟩
      omega

theorem utf16_lt_of_lt {s t : Text} (encodable : Encodable s)
    (smaller : s < t) (agree : ¬ Divergent s t) : utf16 s < utf16 t := by
  induction s generalizing t with
  | nil =>
      cases t with
      | nil => exact absurd smaller (List.lt_irrefl _)
      | cons d t =>
          have units : ∃ unit more, charUnits d = unit :: more := by
            unfold charUnits
            split_ifs
            · exact ⟨_, _, rfl⟩
            · exact ⟨_, _, rfl⟩
          obtain ⟨unit, more, units⟩ := units
          rw [utf16_cons, units]
          exact List.nil_lt_cons _ _
  | cons c s induction =>
      obtain ⟨plain, encodable⟩ := encodable_cons.mp encodable
      cases t with
      | nil => exact absurd smaller (List.not_lt_nil _)
      | cons d t =>
          rw [utf16_cons, utf16_cons]
          rcases List.cons_lt_cons_iff.mp smaller with below | ⟨same, below⟩
          · have different := ne_of_lt below
            exact charUnits_lt plain below
              (fun opposed => agree
                ((divergent_cons different).mpr (.inl opposed))) _ _
          · subst same
            exact List.append_left_lt (induction encodable below
              fun divergent => agree (divergent_cons_self.mpr divergent))

theorem utf16_gt_of_lt {s t : Text} (smaller : s < t)
    (divergent : Divergent s t) : utf16 t < utf16 s := by
  induction s generalizing t with
  | nil => exact divergent.elim
  | cons c s induction =>
      cases t with
      | nil => exact divergent.elim
      | cons d t =>
          rw [utf16_cons, utf16_cons]
          rcases List.cons_lt_cons_iff.mp smaller with below | ⟨same, below⟩
          · have smaller' : c.val < d.val := below
            rcases (divergent_cons (ne_of_lt below)).mp divergent with
              opposed | opposed
            · exact charUnits_opposed opposed _ _
            · obtain ⟨_, basic, beyond⟩ := opposed
              omega
          · subst same
            exact List.append_left_lt (induction below
              (divergent_cons_self.mp divergent))

/-- Without a divergence the two orders agree. -/
theorem utf16_le_iff {s t : Text} (encodable : Encodable s)
    (encodable' : Encodable t) (agree : ¬ Divergent s t) :
    utf16 s ≤ utf16 t ↔ s ≤ t := by
  rcases lt_trichotomy s t with below | same | above
  · exact iff_of_true (utf16_lt_of_lt encodable below agree).le below.le
  · rw [same]
    exact iff_of_true le_rfl le_rfl
  · have agree' : ¬ Divergent t s := fun divergent =>
      agree (divergent_symm divergent)
    exact iff_of_false (not_le.mpr (utf16_lt_of_lt encodable' above agree'))
      (not_le.mpr above)

/-- Two divergent texts are in order only once. -/
theorem not_both_ordered {s t : Text} (divergent : Divergent s t)
    (ordered : s ≤ t) : ¬ utf16 s ≤ utf16 t := by
  rcases lt_or_eq_of_le ordered with below | same
  · exact not_le.mpr (utf16_gt_of_lt below divergent)
  · exfalso
    subst same
    induction s with
    | nil => exact divergent
    | cons c s induction =>
        exact induction (divergent_cons_self.mp divergent) le_rfl

end Python
