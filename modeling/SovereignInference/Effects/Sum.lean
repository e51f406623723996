import SovereignInference.Effects.Program

/-!
# Two kinds of operations in one program

A component with its own operations is used inside a larger program by giving
that program the operations of both.  What is known of the component alone
then holds inside the larger program.
-/

namespace Effects

/-- The operations of two signatures side by side. -/
abbrev Signature.sum (own other : Signature) : Signature where
  Op := own.Op ⊕ other.Op
  Ans := Sum.elim own.Ans other.Ans

variable {own other : Signature} {ε α β S T : Type}

/-- A program that uses only the operations on the left. -/
def Prog.left : Prog own ε α → Prog (own.sum other) ε α
  | .ret value => .ret value
  | .raise error => .raise error
  | .call op next => .call (.inl op) fun answer => (next answer).left

/-- What a world does to the operations on the left. -/
def World.left (world : World (own.sum other) S) : World own S where
  allowed := fun state op => world.allowed state (.inl op)
  step := fun state op answer final => world.step state (.inl op) answer final

theorem Prog.wp_left {world : World (own.sum other) S}
    {post : Except ε α → S → Prop} (program : Prog own ε α) {state : S} :
    (program.left : Prog (own.sum other) ε α).wp world post state ↔
      program.wp world.left post state := by
  induction program generalizing state with
  | ret value => rfl
  | raise error => rfl
  | call op next induction =>
      apply and_congr Iff.rfl
      apply forall_congr'
      intro answer
      exact forall₂_congr fun _ _ => induction answer

namespace Handler

/-- What a handler answers to the operations on the left. -/
def left (handler : Handler (own.sum other) S) : Handler own S where
  respond := fun state op => handler.respond state (.inl op)

theorem run_left (handler : Handler (own.sum other) S)
    (program : Prog own ε α) (state : S) :
    handler.run (program.left : Prog (own.sum other) ε α) state =
      handler.left.run program state := by
  induction program generalizing state with
  | ret value => rfl
  | raise error => rfl
  | call op next induction => exact induction _ _

/-- A handler works on a part of its state as another handler does. -/
structure Focuses (handler : Handler own S) (inner : Handler own T)
    (get : S → T) (put : S → T → S) : Prop where
  respond : ∀ state op, handler.respond state op =
    ((inner.respond (get state) op).1,
      put state (inner.respond (get state) op).2)
  get_put : ∀ state part, get (put state part) = part
  put_get : ∀ state, put state (get state) = state
  put_put : ∀ state part last, put (put state part) last = put state last

theorem Focuses.run {handler : Handler own S} {inner : Handler own T}
    {get : S → T} {put : S → T → S} (focuses : Focuses handler inner get put)
    (program : Prog own ε α) (state : S) :
    handler.run program state =
      ((inner.run program (get state)).1,
        put state (inner.run program (get state)).2) := by
  induction program generalizing state with
  | ret value => simp [focuses.put_get]
  | raise error => simp [focuses.put_get]
  | call op next induction =>
      simp only [run_call, focuses.respond, induction, focuses.get_put,
        focuses.put_put]

end Handler

end Effects
