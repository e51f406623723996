import SovereignInference.Effects.Program

/-!
# What a program makes of good answers

If all answers are good, so is what a program returns.  This is shown along
its text, and holds in every world whose answers are good.
-/

namespace Effects

variable {sig : Signature} {ε α β : Type}

namespace Prog

/-- What the program returns is good, if every answer is. -/
def Yields (good : (op : sig.Op) → sig.Ans op → Prop) (result : α → Prop) :
    Prog sig ε α → Prop
  | .ret value => result value
  | .raise _ => True
  | .call op next => ∀ answer, good op answer →
      (next answer).Yields good result

variable {good : (op : sig.Op) → sig.Ans op → Prop} {result : α → Prop}

@[simp] theorem yields_ret (value : α) :
    (.ret value : Prog sig ε α).Yields good result ↔ result value := Iff.rfl

@[simp] theorem yields_raise (error : ε) :
    (.raise error : Prog sig ε α).Yields good result := trivial

theorem yields_ofExcept {outcome : Except ε α} :
    (ofExcept outcome : Prog sig ε α).Yields good result ↔
      ∀ value, outcome = .ok value → result value := by
  cases outcome with
  | error error => exact iff_of_true trivial nofun
  | ok value =>
      refine ⟨?_, fun holds => holds value rfl⟩
      rintro holds _ ⟨⟩
      exact holds

theorem yields_of_forall (program : Prog sig ε α)
    (holds : ∀ value, result value) : program.Yields good result := by
  induction program with
  | ret value => exact holds value
  | raise error => trivial
  | call op next induction => exact fun answer _ => induction answer

theorem Yields.mono {program : Prog sig ε α} {other : α → Prop}
    (holds : program.Yields good result)
    (weaker : ∀ value, result value → other value) :
    program.Yields good other := by
  induction program with
  | ret value => exact weaker value holds
  | raise error => trivial
  | call op next induction =>
      exact fun answer isGood => induction answer (holds answer isGood)

theorem Yields.bind {program : Prog sig ε α} {rest : α → Prog sig ε β}
    {final : β → Prop} (first : program.Yields good result)
    (later : ∀ value, result value → (rest value).Yields good final) :
    (program.bind rest).Yields good final := by
  induction program with
  | ret value => exact later value first
  | raise error => trivial
  | call op next induction =>
      exact fun answer isGood => induction answer (first answer isGood)

/-- Nothing needs to be known of the first half. -/
theorem yields_bind {program : Prog sig ε α} {rest : α → Prog sig ε β}
    {final : β → Prop} (later : ∀ value, (rest value).Yields good final) :
    (program.bind rest).Yields good final :=
  Yields.bind (program.yields_of_forall fun _ => trivial)
    fun value (_ : True) => later value

theorem Yields.tryCatch {program : Prog sig ε α} {handler : ε → Prog sig ε α}
    (holds : program.Yields good result)
    (handled : ∀ error, (handler error).Yields good result) :
    (program.tryCatch handler).Yields good result := by
  induction program with
  | ret value => exact holds
  | raise error => exact handled error
  | call op next induction =>
      exact fun answer isGood => induction answer (holds answer isGood)

/-- **What is returned in a world of good answers** is good. -/
theorem Yields.wp {S : Type} {world : World sig S} {program : Prog sig ε α}
    (holds : program.Yields good result)
    (allowed : ∀ state op, world.allowed state op)
    (answers : ∀ state op answer after, world.step state op answer after →
      good op answer) {state : S} :
    program.wp world
      (fun outcome _ => ∀ value, outcome = .ok value → result value)
      state := by
  induction program generalizing state with
  | ret value =>
      rintro _ ⟨⟩
      exact holds
  | raise error => exact nofun
  | call op next induction =>
      refine ⟨allowed state op, ?_⟩
      intro answer middle stepped
      exact induction answer (holds answer (answers _ _ _ _ stepped))

/-- The same of one run. -/
theorem Yields.exec {S : Type} {world : World sig S} {program : Prog sig ε α}
    (holds : program.Yields good result)
    (answers : ∀ state op answer after, world.step state op answer after →
      good op answer) {state final : S} {value : α}
    (run : Exec world state program final (.ok value)) : result value := by
  induction program generalizing state with
  | ret value =>
      cases run
      exact holds
  | raise error => cases run
  | call op next induction =>
      cases run with
      | call stepped run =>
          exact induction _ (holds _ (answers _ _ _ _ stepped)) run

end Prog

end Effects
