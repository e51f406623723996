import SovereignInference.Effects.Program
import Mathlib.Data.List.Induction

/-!
# Interleaved programs over one store

A pool runs a family of programs against one shared store, one call at a
time and in any order.  The log remembers who performed which event; the part
of it belonging to one program is that program's own trace.  A property of a
single program, proved against arbitrary answers with its own trace as the
only state, therefore holds of that program inside every pool.
-/

namespace Effects

variable {sig : Signature} {ε α S ι : Type}

/-- Programs sharing a store, with the log of everything performed so far. -/
structure Pool (sig : Signature) (ε α S ι : Type) where
  store : S
  thread : ι → Prog sig ε α
  log : List (ι × Event sig)

/-- One program performs one call against the shared store. -/
inductive Pool.Step [DecidableEq ι] (shared : World sig S) :
    Pool sig ε α S ι → Pool sig ε α S ι → Prop where
  | perform {pool : Pool sig ε α S ι} (i : ι) {op : sig.Op}
      {answer : sig.Ans op} {next : sig.Ans op → Prog sig ε α} {after : S} :
      pool.thread i = .call op next →
      shared.step pool.store op answer after →
      Pool.Step shared pool
        { store := after
          thread := Function.update pool.thread i (next answer)
          log := pool.log ++ [(i, ⟨op, answer⟩)] }

/-- Any number of steps, by any of the programs. -/
def Pool.Reaches [DecidableEq ι] (shared : World sig S) :
    Pool sig ε α S ι → Pool sig ε α S ι → Prop :=
  Relation.ReflTransGen (Pool.Step shared)

/-- The pool before the first call. -/
def Pool.start (store : S) (thread : ι → Prog sig ε α) :
    Pool sig ε α S ι :=
  ⟨store, thread, []⟩

/-- An item of an extended list is the last one or an earlier one. -/
theorem last_or_earlier {α : Type} {past before later : List α}
    {last item : α} (equality : past ++ [last] = before ++ item :: later) :
    (later = [] ∧ past = before ∧ last = item) ∨
      ∃ rest, later = rest ++ [last] ∧ past = before ++ item :: rest := by
  rcases List.eq_nil_or_concat later with rfl | ⟨rest, other, rfl⟩
  · obtain ⟨sameList, sameItem⟩ := List.append_inj' equality rfl
    cases sameItem
    exact .inl ⟨rfl, sameList, rfl⟩
  · have regrouped : past ++ [last] =
        (before ++ item :: rest) ++ [other] := by
      simpa using equality
    obtain ⟨sameList, sameItem⟩ := List.append_inj' regrouped rfl
    cases sameItem
    exact .inr ⟨rest, List.concat_eq_append, sameList⟩

section Traces

variable [DecidableEq ι]

/-- The events of one program, in the order it performed them. -/
def localTrace (log : List (ι × Event sig)) (i : ι) : List (Event sig) :=
  log.filterMap fun entry => if entry.1 = i then some entry.2 else none

@[simp] theorem localTrace_nil (i : ι) :
    localTrace ([] : List (ι × Event sig)) i = [] := rfl

@[simp] theorem localTrace_append_self (log : List (ι × Event sig)) (i : ι)
    (event : Event sig) :
    localTrace (log ++ [(i, event)]) i = localTrace log i ++ [event] := by
  simp [localTrace, List.filterMap_append]

theorem localTrace_append_other (log : List (ι × Event sig)) {i j : ι}
    (different : j ≠ i) (event : Event sig) :
    localTrace (log ++ [(i, event)]) j = localTrace log j := by
  simp [localTrace, List.filterMap_append, Ne.symm different]

theorem localTrace_append (first rest : List (ι × Event sig)) (i : ι) :
    localTrace (first ++ rest) i = localTrace first i ++ localTrace rest i :=
  List.filterMap_append

theorem mem_localTrace {log : List (ι × Event sig)} {i : ι}
    {event : Event sig} : event ∈ localTrace log i ↔ (i, event) ∈ log := by
  unfold localTrace
  rw [List.mem_filterMap]
  constructor
  · intro selected
    obtain ⟨entry, member, same⟩ := selected
    split_ifs at same with mine
    cases same
    rw [← mine]
    exact member
  · intro member
    exact ⟨_, member, if_pos rfl⟩

/-- A world whose only state is the trace of the one program in it.  The rule
says which calls the trace allows, and `possible` which events can happen. -/
def traceWorld (rule : List (Event sig) → sig.Op → Prop)
    (possible : Event sig → Prop) : World sig (List (Event sig)) where
  allowed := rule
  step := fun trace op answer after =>
    possible ⟨op, answer⟩ ∧ after = trace ++ [⟨op, answer⟩]

/-- Every event in the log was allowed to its program by its own trace. -/
def RuleKept (rule : ι → List (Event sig) → sig.Op → Prop)
    (log : List (ι × Event sig)) : Prop :=
  ∀ before i event after, log = before ++ (i, event) :: after →
    rule i (localTrace before i) event.op

theorem ruleKept_nil (rule : ι → List (Event sig) → sig.Op → Prop) :
    RuleKept rule ([] : List (ι × Event sig)) := by
  intro before i event after equality
  simp at equality

theorem RuleKept.append {rule : ι → List (Event sig) → sig.Op → Prop}
    {log : List (ι × Event sig)} (kept : RuleKept rule log) {i : ι}
    {event : Event sig} (allowed : rule i (localTrace log i) event.op) :
    RuleKept rule (log ++ [(i, event)]) := by
  intro before j other after equality
  rcases last_or_earlier equality with ⟨rfl, rfl, same⟩ | ⟨rest, _, earlier⟩
  · cases same
    exact allowed
  · exact kept before j other rest earlier

/-- What every allowed event keeps of a trace holds of all local traces. -/
theorem RuleKept.local_invariant
    {rule : ι → List (Event sig) → sig.Op → Prop}
    {inv : ι → List (Event sig) → Prop} {log : List (ι × Event sig)}
    (kept : RuleKept rule log) (start : ∀ i, inv i [])
    (preserved : ∀ i trace event, inv i trace → rule i trace event.op →
      inv i (trace ++ [event])) (i : ι) : inv i (localTrace log i) := by
  induction log using List.reverseRecOn with
  | nil => exact start i
  | append_singleton past entry induction =>
      obtain ⟨j, event⟩ := entry
      have earlier : RuleKept rule past := by
        intro before k other after split
        exact kept before k other (after ++ [(j, event)]) (by rw [split]; simp)
      by_cases same : i = j
      · subst same
        rw [localTrace_append_self]
        exact preserved i _ event (induction earlier)
          (kept past i event [] rfl)
      · rw [localTrace_append_other _ same]
        exact induction earlier

end Traces

namespace Pool.Reaches

variable [DecidableEq ι] {shared : World sig S}
  {rule : ι → List (Event sig) → sig.Op → Prop} {possible : Event sig → Prop}
  {post : ι → Except ε α → List (Event sig) → Prop}
  {first pool : Pool sig ε α S ι}

/-- The programs keep their local guarantees while they are interleaved, and
no event breaks the rule. -/
theorem local_wp
    (sharedPossible : ∀ store op answer after,
      shared.step store op answer after → possible ⟨op, answer⟩)
    (kept : RuleKept rule first.log)
    (safe : ∀ i, (first.thread i).wp (traceWorld (rule i) possible) (post i)
      (localTrace first.log i))
    (run : Pool.Reaches shared first pool) :
    RuleKept rule pool.log ∧
      ∀ i, (pool.thread i).wp (traceWorld (rule i) possible) (post i)
        (localTrace pool.log i) := by
  induction run with
  | refl => exact ⟨kept, safe⟩
  | tail _ step induction =>
      obtain ⟨keptSoFar, safeSoFar⟩ := induction
      cases step with
      | @perform i op answer next after calling stepped =>
          have callSafe := safeSoFar i
          rw [calling, Prog.wp_call] at callSafe
          refine ⟨keptSoFar.append callSafe.1, ?_⟩
          intro j
          by_cases same : j = i
          · subst same
            simp only [Function.update_self, localTrace_append_self]
            exact callSafe.2 answer _
              ⟨sharedPossible _ _ _ _ stepped, rfl⟩
          · rw [localTrace_append_other _ same]
            simpa [Function.update_of_ne same] using safeSoFar j

/-- An invariant of the store and the log which every step keeps holds in
every reachable pool. -/
theorem store_invariant {inv : S → List (ι × Event sig) → Prop}
    (initial : inv first.store first.log)
    (preserved : ∀ store log i op answer after, inv store log →
      shared.step store op answer after →
      inv after (log ++ [(i, ⟨op, answer⟩)]))
    (run : Pool.Reaches shared first pool) : inv pool.store pool.log := by
  induction run with
  | refl => exact initial
  | tail _ step induction =>
      cases step with
      | perform i calling stepped => exact preserved _ _ i _ _ _ induction stepped

/-- What a finished program guarantees about its own trace. -/
theorem finished_post
    (sharedPossible : ∀ store op answer after,
      shared.step store op answer after → possible ⟨op, answer⟩)
    (safe : ∀ i, (first.thread i).wp (traceWorld (rule i) possible) (post i)
      (localTrace first.log i))
    (kept : RuleKept rule first.log)
    (run : Pool.Reaches shared first pool) {i : ι} {outcome : Except ε α}
    (finished : (pool.thread i).Finished outcome) :
    post i outcome (localTrace pool.log i) := by
  have holds := (local_wp sharedPossible kept safe run).2 i
  rw [finished, Prog.wp_ofExcept] at holds
  exact holds

end Pool.Reaches

/-- What one world admits is reached in every world that admits it. -/
theorem Pool.Reaches.mono [DecidableEq ι] {narrow wide : World sig S}
    (steps : ∀ store op answer after, narrow.step store op answer after →
      wide.step store op answer after) {first pool : Pool sig ε α S ι}
    (run : Pool.Reaches narrow first pool) : Pool.Reaches wide first pool := by
  induction run with
  | refl => exact .refl
  | tail _ step induction =>
      cases step with
      | perform i calling stepped =>
          exact induction.tail (.perform i calling (steps _ _ _ _ stepped))

/-- Let one program perform its next call against a handler. -/
def Pool.advance [DecidableEq ι] (handler : Handler sig S)
    (pool : Pool sig ε α S ι) (i : ι) : Pool sig ε α S ι :=
  match pool.thread i with
  | .call op next =>
      let response := handler.respond pool.store op
      { store := response.2
        thread := Function.update pool.thread i (next response.1)
        log := pool.log ++ [(i, ⟨op, response.1⟩)] }
  | _ => pool

theorem Pool.reaches_advance [DecidableEq ι] (handler : Handler sig S)
    (pool : Pool sig ε α S ι) (i : ι) :
    Pool.Reaches handler.world pool (pool.advance handler i) := by
  unfold Pool.advance
  split
  · rename_i op next calling
    have stepped : handler.world.step pool.store op
        (handler.respond pool.store op).1 (handler.respond pool.store op).2 :=
      rfl
    exact .single (.perform i calling stepped)
  · exact .refl

/-- The programs take turns in the order of a schedule. -/
def Pool.schedule [DecidableEq ι] (handler : Handler sig S)
    (turns : List ι) (pool : Pool sig ε α S ι) : Pool sig ε α S ι :=
  turns.foldl (Pool.advance handler) pool

theorem Pool.reaches_schedule [DecidableEq ι] (handler : Handler sig S)
    (turns : List ι) (pool : Pool sig ε α S ι) :
    Pool.Reaches handler.world pool (pool.schedule handler turns) := by
  induction turns generalizing pool with
  | nil => exact .refl
  | cons i turns induction =>
      exact (pool.reaches_advance handler i).trans (induction _)

end Effects
