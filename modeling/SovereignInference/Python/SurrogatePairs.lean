import SovereignInference.Python.Json
import Mathlib.Data.List.Chain

/-!
# Surrogates in JSON texts

`json.dumps` escapes every surrogate, and `json.loads` reads an escaped high
surrogate and a low one after it as one character.  All other characters of a
string come back as they were.
-/

namespace Python

def isHighSurrogate (c : CodePoint) : Bool :=
  decide (0xD800 ≤ c.val ∧ c.val ≤ 0xDBFF)

def isLowSurrogate (c : CodePoint) : Bool :=
  decide (0xDC00 ≤ c.val ∧ c.val ≤ 0xDFFF)

/-- The character of a surrogate pair. -/
def joinSurrogates (high low : CodePoint) : CodePoint :=
  Fin.ofNat _ (0x10000 + (high.val - 0xD800) * 0x400 + (low.val - 0xDC00))

/-- `json.loads(json.dumps(s))`. -/
def rejoined : Text → Text
  | [] => []
  | [c] => [c]
  | c :: d :: rest =>
      if isHighSurrogate c ∧ isLowSurrogate d then
        joinSurrogates c d :: rejoined rest
      else c :: rejoined (d :: rest)

/-- No high surrogate stands before a low one. -/
def Unpaired (s : Text) : Prop :=
  s.IsChain fun c d => ¬ (isHighSurrogate c ∧ isLowSurrogate d)

instance (s : Text) : Decidable (Unpaired s) :=
  inferInstanceAs (Decidable (List.IsChain _ s))

private theorem length_rejoined_le (s : Text) :
    (rejoined s).length ≤ s.length := by
  induction s using rejoined.induct with
  | case1 => rfl
  | case2 c => rfl
  | case3 c d rest pair induction =>
      rw [rejoined, if_pos pair]
      simp only [List.length_cons]
      omega
  | case4 c d rest unpaired induction =>
      rw [rejoined, if_neg unpaired]
      simp only [List.length_cons] at induction ⊢
      omega

theorem rejoined_eq_iff (s : Text) : rejoined s = s ↔ Unpaired s := by
  induction s using rejoined.induct with
  | case1 => exact iff_of_true rfl List.IsChain.nil
  | case2 c => exact iff_of_true rfl (List.IsChain.singleton c)
  | case3 c d rest pair induction =>
      rw [rejoined, if_pos pair]
      refine iff_of_false ?_ ?_
      · intro same
        have lengths := congrArg List.length same
        have shorter := length_rejoined_le rest
        simp only [List.length_cons] at lengths
        omega
      · intro unpaired
        exact (List.isChain_cons_cons.mp unpaired).1 pair
  | case4 c d rest unpaired induction =>
      rw [rejoined, if_neg unpaired]
      unfold Unpaired at induction ⊢
      rw [List.isChain_cons_cons]
      simp only [List.cons.injEq, true_and, unpaired, not_false_eq_true]
      exact induction

namespace Json

mutual

/-- `json.loads(json.dumps(x))` of a value whose keys have no surrogates. -/
def rejoined : Json → Json
  | .str s => .str (Python.rejoined s)
  | .arr items => .arr (rejoinedItems items)
  | .obj fields => .obj (rejoinedFields fields)
  | value => value

def rejoinedItems : List Json → List Json
  | [] => []
  | item :: rest => item.rejoined :: rejoinedItems rest

def rejoinedFields : List (Text × Json) → List (Text × Json)
  | [] => []
  | field :: rest => rejoinedField field :: rejoinedFields rest

def rejoinedField : Text × Json → Text × Json
  | (key, value) => (key, value.rejoined)

end

theorem rejoinedItems_eq (items : List Json) :
    rejoinedItems items = items.map rejoined := by
  induction items with
  | nil => rfl
  | cons item rest induction => simp [rejoinedItems, induction]

end Json

end Python
