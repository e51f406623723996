import SovereignInference.Effects.Outcome
import Mathlib.Logic.Function.Basic
import Mathlib.Logic.Relation

/-!
# Programs over called operations

A program either returns a value, raises an error, or calls one operation of
a signature and continues with the answer.  The tree says nothing about what
the operations do: a `World` decides, in each state, which calls are allowed
and which answers they may give, so one program text can be run alone,
against an adversary, or interleaved with others.
-/

namespace Effects

/-- The operations a program may call and the type of each answer. -/
structure Signature where
  Op : Type
  Ans : Op → Type

/-- One performed operation together with the answer it was given. -/
structure Event (sig : Signature) where
  op : sig.Op
  answer : sig.Ans op

/-- Programs with calls in `sig`, errors in `ε` and results in `α`. -/
inductive Prog (sig : Signature) (ε α : Type) where
  | ret (value : α)
  | raise (error : ε)
  | call (op : sig.Op) (next : sig.Ans op → Prog sig ε α)

namespace Prog

variable {sig : Signature} {ε α β γ : Type}

/-- Continue with the returned value; an error ends the whole program. -/
def bind : Prog sig ε α → (α → Prog sig ε β) → Prog sig ε β
  | .ret value, rest => rest value
  | .raise error, _ => .raise error
  | .call op next, rest => .call op fun answer => (next answer).bind rest

/-- Run the handler instead of ending when the program raises. -/
def tryCatch : Prog sig ε α → (ε → Prog sig ε α) → Prog sig ε α
  | .ret value, _ => .ret value
  | .raise error, handler => handler error
  | .call op next, handler =>
      .call op fun answer => (next answer).tryCatch handler

/-- A computation without calls. -/
def ofExcept : Except ε α → Prog sig ε α
  | .ok value => .ret value
  | .error error => .raise error

/-- Call one operation and return its answer. -/
def perform (op : sig.Op) : Prog sig ε (sig.Ans op) :=
  .call op .ret

instance : Monad (Prog sig ε) where
  pure := .ret
  bind := bind

/-- A finished program with the given outcome. -/
def Finished (program : Prog sig ε α) (outcome : Except ε α) : Prop :=
  program = ofExcept outcome

/-- The outcome of a program without further calls. -/
def outcome? : Prog sig ε α → Option (Except ε α)
  | .ret value => some (.ok value)
  | .raise error => some (.error error)
  | .call _ _ => none

theorem finished_iff {program : Prog sig ε α} {outcome : Except ε α} :
    program.Finished outcome ↔ program.outcome? = some outcome := by
  unfold Finished
  cases program <;> cases outcome <;> simp [outcome?, ofExcept]

@[simp] theorem pure_eq_ret (value : α) :
    (pure value : Prog sig ε α) = .ret value := rfl

@[simp] theorem bind_eq (program : Prog sig ε α)
    (rest : α → Prog sig ε β) : program >>= rest = program.bind rest := rfl

@[simp] theorem bind_ret (value : α) (rest : α → Prog sig ε β) :
    (ret value : Prog sig ε α).bind rest = rest value := rfl

@[simp] theorem bind_raise (error : ε) (rest : α → Prog sig ε β) :
    (raise error : Prog sig ε α).bind rest = raise error := rfl

@[simp] theorem bind_call (op : sig.Op) (next : sig.Ans op → Prog sig ε α)
    (rest : α → Prog sig ε β) :
    (call op next).bind rest = call op fun answer => (next answer).bind rest :=
  rfl

@[simp] theorem bind_perform (op : sig.Op)
    (rest : sig.Ans op → Prog sig ε β) :
    (perform op).bind rest = call op rest := rfl

@[simp] theorem ofExcept_ok (value : α) :
    (ofExcept (.ok value) : Prog sig ε α) = .ret value := rfl

@[simp] theorem ofExcept_error (error : ε) :
    (ofExcept (.error error) : Prog sig ε α) = .raise error := rfl

theorem bind_assoc (program : Prog sig ε α) (middle : α → Prog sig ε β)
    (rest : β → Prog sig ε γ) :
    (program.bind middle).bind rest =
      program.bind fun value => (middle value).bind rest := by
  induction program with
  | ret value => rfl
  | raise error => rfl
  | call op next induction => simp [induction]

theorem bind_ret_right (program : Prog sig ε α) :
    program.bind .ret = program := by
  induction program with
  | ret value => rfl
  | raise error => rfl
  | call op next induction => simp [induction]

instance : LawfulMonad (Prog sig ε) :=
  LawfulMonad.mk' _ bind_ret_right (fun _ _ => rfl) bind_assoc

end Prog

/-- What the surroundings of a program do: the calls allowed in a state, and
the answers with successor states each call may have there. -/
structure World (sig : Signature) (S : Type) where
  allowed : S → sig.Op → Prop
  step : S → (op : sig.Op) → sig.Ans op → S → Prop

/-- One complete run of a program, from a state to a state. -/
inductive Exec {sig : Signature} {ε α S : Type} (world : World sig S) :
    S → Prog sig ε α → S → Except ε α → Prop where
  | ret {state : S} {value : α} :
      Exec world state (.ret value) state (.ok value)
  | raise {state : S} {error : ε} :
      Exec world state (.raise error) state (.error error)
  | call {state middle final : S} {op : sig.Op} {answer : sig.Ans op}
      {next : sig.Ans op → Prog sig ε α} {outcome : Except ε α} :
      world.step state op answer middle →
      Exec world middle (next answer) final outcome →
      Exec world state (.call op next) final outcome

/-- A run is one of every world that can do more. -/
theorem Exec.mono {sig : Signature} {ε α S : Type} {narrow wide : World sig S}
    (steps : ∀ state op answer after, narrow.step state op answer after →
      wide.step state op answer after)
    {program : Prog sig ε α} {state final : S} {outcome : Except ε α}
    (run : Exec narrow state program final outcome) :
    Exec wide state program final outcome := by
  induction run with
  | ret => exact .ret
  | raise => exact .raise
  | call stepped _ induction => exact .call (steps _ _ _ _ stepped) induction

/-- A run of a sequence runs its first half, and then its second half if the
first half returned. -/
theorem exec_bind {sig : Signature} {ε α β S : Type} {world : World sig S}
    {program : Prog sig ε α} {rest : α → Prog sig ε β} {state final : S}
    {outcome : Except ε β}
    (run : Exec world state (program.bind rest) final outcome) :
    (∃ error, Exec world state program final (.error error) ∧
      outcome = .error error) ∨
    ∃ value middle, Exec world state program middle (.ok value) ∧
      Exec world middle (rest value) final outcome := by
  induction program generalizing state with
  | ret value => exact .inr ⟨value, state, .ret, run⟩
  | raise error =>
      cases run
      exact .inl ⟨error, .raise, rfl⟩
  | call op next induction =>
      cases run with
      | call stepped run =>
          rcases induction _ run with ⟨error, raises, failed⟩ |
            ⟨value, middle, returns, run⟩
          · exact .inl ⟨error, .call stepped raises, failed⟩
          · exact .inr ⟨value, middle, .call stepped returns, run⟩

theorem exec_ofExcept {sig : Signature} {ε α S : Type} {world : World sig S}
    {result outcome : Except ε α} {state final : S}
    (run : Exec world state (.ofExcept result) final outcome) :
    outcome = result := by
  cases result <;> cases run <;> rfl

namespace Prog

variable {sig : Signature} {ε α β S : Type}

/-- The weakest precondition: every call is allowed, and every run that the
world admits ends in the postcondition. -/
def wp (world : World sig S) :
    Prog sig ε α → (Except ε α → S → Prop) → S → Prop
  | .ret value, post, state => post (.ok value) state
  | .raise error, post, state => post (.error error) state
  | .call op next, post, state =>
      world.allowed state op ∧ ∀ answer middle,
        world.step state op answer middle → (next answer).wp world post middle

/-- How a postcondition is reached through the first half of a sequence. -/
def afterBind (world : World sig S) (rest : α → Prog sig ε β)
    (post : Except ε β → S → Prop) : Except ε α → S → Prop
  | .ok value, state => (rest value).wp world post state
  | .error error, state => post (.error error) state

/-- How a postcondition is reached through a handled program. -/
def afterCatch (world : World sig S) (handler : ε → Prog sig ε α)
    (post : Except ε α → S → Prop) : Except ε α → S → Prop
  | .ok value, state => post (.ok value) state
  | .error error, state => (handler error).wp world post state

variable {world : World sig S} {post post' : Except ε α → S → Prop}

@[simp] theorem wp_ret (value : α) (state : S) :
    (ret value : Prog sig ε α).wp world post state ↔ post (.ok value) state :=
  Iff.rfl

@[simp] theorem wp_raise (error : ε) (state : S) :
    (raise error : Prog sig ε α).wp world post state ↔
      post (.error error) state := Iff.rfl

@[simp] theorem wp_call (op : sig.Op) (next : sig.Ans op → Prog sig ε α)
    (state : S) :
    (call op next).wp world post state ↔
      world.allowed state op ∧ ∀ answer middle,
        world.step state op answer middle →
          (next answer).wp world post middle := Iff.rfl

theorem wp_ofExcept (outcome : Except ε α) (state : S) :
    (ofExcept outcome : Prog sig ε α).wp world post state ↔
      post outcome state := by
  cases outcome <;> rfl

theorem wp_mono (program : Prog sig ε α)
    (weaker : ∀ outcome state, post outcome state → post' outcome state)
    {state : S} (holds : program.wp world post state) :
    program.wp world post' state := by
  induction program generalizing state with
  | ret value => exact weaker _ _ holds
  | raise error => exact weaker _ _ holds
  | call op next induction =>
      refine ⟨holds.1, ?_⟩
      intro answer middle stepped
      exact induction answer (holds.2 answer middle stepped)

theorem wp_and (program : Prog sig ε α) {state : S}
    (first : program.wp world post state)
    (second : program.wp world post' state) :
    program.wp world (fun outcome after => post outcome after ∧
      post' outcome after) state := by
  induction program generalizing state with
  | ret value => exact ⟨first, second⟩
  | raise error => exact ⟨first, second⟩
  | call op next induction =>
      refine ⟨first.1, ?_⟩
      intro answer middle stepped
      exact induction answer (first.2 answer middle stepped)
        (second.2 answer middle stepped)

theorem wp_bind (program : Prog sig ε α) (rest : α → Prog sig ε β)
    {post : Except ε β → S → Prop} {state : S} :
    (program.bind rest).wp world post state ↔
      program.wp world (afterBind world rest post) state := by
  induction program generalizing state with
  | ret value => rfl
  | raise error => rfl
  | call op next induction => simp only [bind_call, wp_call, induction]

theorem wp_tryCatch (program : Prog sig ε α) (handler : ε → Prog sig ε α)
    {state : S} :
    (program.tryCatch handler).wp world post state ↔
      program.wp world (afterCatch world handler post) state := by
  induction program generalizing state with
  | ret value => rfl
  | raise error => rfl
  | call op next induction => simp only [tryCatch, wp_call, induction]

/-- The weakest precondition speaks about every run. -/
theorem wp_sound {program : Prog sig ε α} {state final : S}
    {outcome : Except ε α} (run : Exec world state program final outcome)
    (holds : program.wp world post state) : post outcome final := by
  induction run with
  | ret => exact holds
  | raise => exact holds
  | call stepped _ induction => exact induction (holds.2 _ _ stepped)

end Prog

/-- A deterministic world, given by a function. -/
structure Handler (sig : Signature) (S : Type) where
  respond : S → (op : sig.Op) → sig.Ans op × S

namespace Handler

variable {sig : Signature} {ε α β S : Type}

/-- The world in which every call is allowed and answered by the handler. -/
def world (handler : Handler sig S) : World sig S where
  allowed := fun _ _ => True
  step := fun state op answer final =>
    handler.respond state op = (answer, final)

/-- Execute a program against the handler. -/
def run (handler : Handler sig S) : Prog sig ε α → S → Except ε α × S
  | .ret value, state => (.ok value, state)
  | .raise error, state => (.error error, state)
  | .call op next, state =>
      let response := handler.respond state op
      handler.run (next response.1) response.2

@[simp] theorem run_ret (handler : Handler sig S) (value : α) (state : S) :
    handler.run (.ret value : Prog sig ε α) state = (.ok value, state) := rfl

@[simp] theorem run_raise (handler : Handler sig S) (error : ε) (state : S) :
    handler.run (.raise error : Prog sig ε α) state =
      (.error error, state) := rfl

@[simp] theorem run_call (handler : Handler sig S) (op : sig.Op)
    (next : sig.Ans op → Prog sig ε α) (state : S) :
    handler.run (.call op next) state =
      handler.run (next (handler.respond state op).1)
        (handler.respond state op).2 := rfl

theorem run_bind (handler : Handler sig S) (program : Prog sig ε α)
    (rest : α → Prog sig ε β) (state : S) :
    handler.run (program.bind rest) state =
      match handler.run program state with
      | (.ok value, middle) => handler.run (rest value) middle
      | (.error error, middle) => (.error error, middle) := by
  induction program generalizing state with
  | ret value => rfl
  | raise error => rfl
  | call op next induction => simp only [Prog.bind_call, run_call, induction]

theorem run_ofExcept (handler : Handler sig S) (outcome : Except ε α)
    (state : S) :
    handler.run (.ofExcept outcome : Prog sig ε α) state =
      (outcome, state) := by
  cases outcome <;> rfl

/-- Executing is a run of the handler's world. -/
theorem exec_run (handler : Handler sig S) (program : Prog sig ε α)
    (state : S) :
    Exec handler.world state program (handler.run program state).2
      (handler.run program state).1 := by
  induction program generalizing state with
  | ret value => exact .ret
  | raise error => exact .raise
  | call op next induction =>
      have stepped : handler.world.step state op
          (handler.respond state op).1 (handler.respond state op).2 := rfl
      exact .call stepped (induction _ _)

/-- Executing is a run of every world that has the handler's steps, seen
through a projection of the state. -/
theorem exec_project {T : Type} (handler : Handler sig S) {world : World sig T}
    {project : S → T}
    (steps : ∀ state op, world.step (project state) op
      (handler.respond state op).1 (project (handler.respond state op).2))
    (program : Prog sig ε α) (state : S) :
    Exec world (project state) program
      (project (handler.run program state).2)
      (handler.run program state).1 := by
  induction program generalizing state with
  | ret value => exact .ret
  | raise error => exact .raise
  | call op next induction => exact .call (steps state op) (induction _ _)

end Handler

end Effects
