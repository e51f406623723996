import SovereignInference.Effects.Program

/-!
# Traces of runs

A run is also seen as the events that a program performs, whatever the
answers are, with its outcome.  A program *signals* some events if it ends in
an alarm whenever it performed one of them; sequences of such programs do
again.
-/

namespace Effects

variable {sig : Signature} {ε α β : Type}

/-- The program performs the events in this order and ends. -/
inductive Performs :
    Prog sig ε α → List (Event sig) → Except ε α → Prop where
  | ret (value : α) : Performs (.ret value) [] (.ok value)
  | raise (error : ε) : Performs (.raise error) [] (.error error)
  | call {op : sig.Op} {next : sig.Ans op → Prog sig ε α}
      {events : List (Event sig)} {outcome : Except ε α}
      (answer : sig.Ans op) :
      Performs (next answer) events outcome →
      Performs (.call op next) (⟨op, answer⟩ :: events) outcome

namespace Performs

theorem of_ofExcept {result outcome : Except ε α} {events : List (Event sig)}
    (run : Performs (.ofExcept result) events outcome) :
    events = [] ∧ outcome = result := by
  cases result <;> cases run <;> exact ⟨rfl, rfl⟩

/-- The events of a sequence are those of its first half, and then those of
its second half if the first half returned. -/
theorem of_bind {program : Prog sig ε α} {rest : α → Prog sig ε β}
    {events : List (Event sig)} {outcome : Except ε β}
    (run : Performs (program.bind rest) events outcome) :
    (∃ error, Performs program events (.error error) ∧
      outcome = .error error) ∨
    ∃ value before after, events = before ++ after ∧
      Performs program before (.ok value) ∧
      Performs (rest value) after outcome := by
  induction program generalizing events with
  | ret value => exact .inr ⟨value, [], events, rfl, .ret value, run⟩
  | raise error =>
      cases run
      exact .inl ⟨error, .raise error, rfl⟩
  | call op next induction =>
      cases run with
      | call answer run =>
          rcases induction answer run with ⟨error, raises, failed⟩ |
            ⟨value, before, after, rfl, returns, run⟩
          · exact .inl ⟨error, .call answer raises, failed⟩
          · exact .inr ⟨value, ⟨op, answer⟩ :: before, after, rfl,
              .call answer returns, run⟩

theorem of_tryCatch {program : Prog sig ε α} {handler : ε → Prog sig ε α}
    {events : List (Event sig)} {outcome : Except ε α}
    (run : Performs (program.tryCatch handler) events outcome) :
    (∃ value, Performs program events (.ok value) ∧ outcome = .ok value) ∨
    ∃ error before after, events = before ++ after ∧
      Performs program before (.error error) ∧
      Performs (handler error) after outcome := by
  induction program generalizing events with
  | ret value =>
      cases run
      exact .inl ⟨value, .ret value, rfl⟩
  | raise error => exact .inr ⟨error, [], events, rfl, .raise error, run⟩
  | call op next induction =>
      cases run with
      | call answer run =>
          rcases induction answer run with ⟨value, returns, ended⟩ |
            ⟨error, before, after, rfl, raises, run⟩
          · exact .inl ⟨value, .call answer returns, ended⟩
          · exact .inr ⟨error, ⟨op, answer⟩ :: before, after, rfl,
              .call answer raises, run⟩

end Performs

/-- Executing performs some events, with the answers of the handler. -/
theorem Handler.performs_run {S : Type} (handler : Handler sig S)
    (program : Prog sig ε α) (state : S) :
    ∃ events, Performs program events (handler.run program state).1 ∧
      ∀ event ∈ events, ∃ before,
        (handler.respond before event.op).1 = event.answer := by
  induction program generalizing state with
  | ret value => exact ⟨[], .ret value, nofun⟩
  | raise error => exact ⟨[], .raise error, nofun⟩
  | call op next induction =>
      obtain ⟨events, performs, answered⟩ :=
        induction (handler.respond state op).1 (handler.respond state op).2
      refine ⟨⟨op, _⟩ :: events, .call _ performs, ?_⟩
      rw [List.forall_mem_cons]
      exact ⟨⟨state, rfl⟩, answered⟩

section Alarms

variable (plain fault : Event sig → Prop) (alarm : ε → Prop)

/-- If all events are plain and one of them is a fault, the program ends in an
alarm. -/
def Signals (program : Prog sig ε α) : Prop :=
  ∀ events outcome, Performs program events outcome →
    (∀ event ∈ events, plain event) → (∃ event ∈ events, fault event) →
    ∃ error, outcome = .error error ∧ alarm error

/-- If all events are plain, none is a fault and the program returns. -/
def Succeeds (program : Prog sig ε α) : Prop :=
  ∀ events outcome, Performs program events outcome →
    (∀ event ∈ events, plain event) →
    (∀ event ∈ events, ¬ fault event) ∧ ∃ value, outcome = .ok value

variable {plain fault : Event sig → Prop} {alarm : ε → Prop}

theorem signals_ret (value : α) :
    Signals plain fault alarm (.ret value : Prog sig ε α) := by
  rintro events outcome ⟨⟩ _ ⟨event, member, _⟩
  cases member

theorem signals_raise (error : ε) :
    Signals plain fault alarm (.raise error : Prog sig ε α) := by
  rintro events outcome ⟨⟩ _ ⟨event, member, _⟩
  cases member

theorem Signals.bind {program : Prog sig ε α} {rest : α → Prog sig ε β}
    (first : Signals plain fault alarm program)
    (later : ∀ value, Signals plain fault alarm (rest value)) :
    Signals plain fault alarm (program.bind rest) := by
  intro events outcome run allPlain faulty
  rcases run.of_bind with ⟨error, raises, rfl⟩ |
    ⟨value, before, after, rfl, returns, run⟩
  · obtain ⟨other, same, alarming⟩ := first _ _ raises allPlain faulty
    cases same
    exact ⟨error, rfl, alarming⟩
  · rw [List.forall_mem_append] at allPlain
    obtain ⟨event, member, isFault⟩ := faulty
    rcases List.mem_append.mp member with early | late
    · obtain ⟨error, same, _⟩ :=
        first _ _ returns allPlain.1 ⟨event, early, isFault⟩
      cases same
    · exact later value _ _ run allPlain.2 ⟨event, late, isFault⟩

end Alarms

end Effects
