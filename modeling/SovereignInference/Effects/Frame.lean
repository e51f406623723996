import SovereignInference.Effects.Program

/-!
# The part of a state that a program looks at

If all calls of a program are answered alike in two states, and the states
stay alike, the program ends alike in both.
-/

namespace Effects

variable {sig : Signature} {ε α β S : Type}

namespace Prog

/-- Every operation that the program may call satisfies the condition. -/
def Calls (condition : sig.Op → Prop) : Prog sig ε α → Prop
  | .ret _ => True
  | .raise _ => True
  | .call op next => condition op ∧ ∀ answer, (next answer).Calls condition

variable {condition : sig.Op → Prop}

@[simp] theorem calls_ret (value : α) :
    (.ret value : Prog sig ε α).Calls condition := trivial

@[simp] theorem calls_raise (error : ε) :
    (.raise error : Prog sig ε α).Calls condition := trivial

@[simp] theorem calls_call {op : sig.Op} {next : sig.Ans op → Prog sig ε α} :
    (.call op next : Prog sig ε α).Calls condition ↔
      condition op ∧ ∀ answer, (next answer).Calls condition := Iff.rfl

@[simp] theorem calls_ofExcept (outcome : Except ε α) :
    (.ofExcept outcome : Prog sig ε α).Calls condition := by
  cases outcome <;> trivial

theorem Calls.bind {program : Prog sig ε α} {rest : α → Prog sig ε β}
    (calls : program.Calls condition)
    (later : ∀ value, (rest value).Calls condition) :
    (program.bind rest).Calls condition := by
  induction program with
  | ret value => exact later value
  | raise error => trivial
  | call op next induction =>
      exact ⟨calls.1, fun answer => induction answer (calls.2 answer)⟩

end Prog

namespace Handler

/-- The states answer the operations alike, and stay alike. -/
def Respects (handler : Handler sig S) (condition : sig.Op → Prop)
    (alike : S → S → Prop) : Prop :=
  ∀ op, condition op → ∀ state other, alike state other →
    (handler.respond state op).1 = (handler.respond other op).1 ∧
      alike (handler.respond state op).2 (handler.respond other op).2

/-- **Programs end alike** in states that answer their calls alike. -/
theorem Respects.run {handler : Handler sig S} {condition : sig.Op → Prop}
    {alike : S → S → Prop} (respects : handler.Respects condition alike)
    {program : Prog sig ε α} (calls : program.Calls condition)
    {state other : S} (same : alike state other) :
    (handler.run program state).1 = (handler.run program other).1 := by
  induction program generalizing state other with
  | ret value => rfl
  | raise error => rfl
  | call op next induction =>
      obtain ⟨answers, stays⟩ := respects op calls.1 state other same
      rw [run_call, run_call, answers]
      exact induction _ (calls.2 _) stays

end Handler

end Effects
