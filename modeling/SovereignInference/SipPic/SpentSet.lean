import SovereignInference.Effects.ExclusiveKeys
import SovereignInference.Python.Text
import Mathlib.Data.Finset.Basic

/-!
# The double-spend guard

`SpentSet` is used through three calls, each of them one SQL statement on the
table of spent keys.  Any of them may raise; `spentTable` is a guard whose
statements all succeed.
-/

namespace SovereignInference.SipPic

open Python Effects

inductive SpentOp where
  | isSpent (key : Text)
  | spend (key : Text)
  | unspend (key : Text)
  deriving DecidableEq

abbrev SpentSig : Signature where
  Op := SpentOp
  Ans := fun
    | .isSpent _ => Except PyExc Bool
    | .spend _ => Except PyExc Bool
    | .unspend _ => Except PyExc Unit

def isSpent (key : Text) : Prog SpentSig PyExc Bool :=
  .call (.isSpent key) .ofExcept

def spend (key : Text) : Prog SpentSig PyExc Bool :=
  .call (.spend key) .ofExcept

def unspend (key : Text) : Prog SpentSig PyExc Unit :=
  .call (.unspend key) .ofExcept

/-- `SELECT 1 FROM spent WHERE spend_key = ?`, as `is_spent` reads it. -/
def selectSpent (keys : Finset Text) (key : Text) : Bool := decide (key ∈ keys)

/-- `INSERT INTO spent`: `none` is the `IntegrityError` of a present key. -/
def insertSpent (keys : Finset Text) (key : Text) : Option (Finset Text) :=
  if key ∈ keys then none else some (insert key keys)

/-- `DELETE FROM spent WHERE spend_key = ?`. -/
def deleteSpent (keys : Finset Text) (key : Text) : Finset Text :=
  keys.erase key

/-- The guard over one table. -/
def spentTable : Handler SpentSig (Finset Text) where
  respond := fun keys op =>
    match op with
    | .isSpent key => (.ok (selectSpent keys key), keys)
    | .spend key =>
        match insertSpent keys key with
        | none => (.ok false, keys)
        | some after => (.ok true, after)
    | .unspend key => (.ok (), deleteSpent keys key)

@[simp] theorem respond_isSpent (keys : Finset Text) (key : Text) :
    spentTable.respond keys (.isSpent key) =
      (.ok (decide (key ∈ keys)), keys) := rfl

theorem respond_spend_fresh {keys : Finset Text} {key : Text}
    (fresh : key ∉ keys) :
    spentTable.respond keys (.spend key) = (.ok true, insert key keys) := by
  simp [spentTable, insertSpent, fresh]

theorem respond_spend_spent {keys : Finset Text} {key : Text}
    (spent : key ∈ keys) :
    spentTable.respond keys (.spend key) = (.ok false, keys) := by
  simp [spentTable, insertSpent, spent]

@[simp] theorem respond_unspend (keys : Finset Text) (key : Text) :
    spentTable.respond keys (.unspend key) = (.ok (), keys.erase key) := rfl

/-- What spending a key does: it either answers that the key was present, or
adds it. -/
theorem spentTable_spend_cases {keys after : Finset Text} {key : Text}
    {answer : Except PyExc Bool}
    (stepped : spentTable.world.step keys (.spend key) answer after) :
    (key ∈ keys ∧ answer = .ok false ∧ after = keys) ∨
      (key ∉ keys ∧ answer = .ok true ∧ after = insert key keys) := by
  have response : spentTable.respond keys (.spend key) = (answer, after) :=
    stepped
  by_cases spent : key ∈ keys
  · rw [respond_spend_spent spent] at response
    cases response
    exact .inl ⟨spent, rfl, rfl⟩
  · rw [respond_spend_fresh spent] at response
    cases response
    exact .inr ⟨spent, rfl, rfl⟩

section Runs

variable {α : Type} (keys : Finset Text) (key : Text)

@[simp] theorem run_isSpent (rest : Bool → Prog SpentSig PyExc α) :
    spentTable.run ((isSpent key).bind rest) keys =
      spentTable.run (rest (decide (key ∈ keys))) keys := rfl

@[simp] theorem run_unspend (rest : Unit → Prog SpentSig PyExc α) :
    spentTable.run ((unspend key).bind rest) keys =
      spentTable.run (rest ()) (keys.erase key) := rfl

/-- Spending answers whether the key was absent and leaves it present. -/
@[simp] theorem run_spend (rest : Bool → Prog SpentSig PyExc α) :
    spentTable.run ((spend key).bind rest) keys =
      spentTable.run (rest (decide (key ∉ keys))) (insert key keys) := by
  have calling : spentTable.run ((spend key).bind rest) keys =
      spentTable.run
        ((Prog.ofExcept (spentTable.respond keys (.spend key)).1).bind rest)
        (spentTable.respond keys (.spend key)).2 := rfl
  rw [calling]
  by_cases spent : key ∈ keys
  · rw [respond_spend_spent spent, Finset.insert_eq_of_mem spent]
    simp [spent]
  · rw [respond_spend_fresh spent]
    simp [spent]

end Runs

/-- Outcome of a redemption attempt. -/
structure RedeemResult where
  ok : Bool
  scheme : Text
  total : Text
  reason : Text
  deriving DecidableEq

end SovereignInference.SipPic
