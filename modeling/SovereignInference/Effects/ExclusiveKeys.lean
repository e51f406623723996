import SovereignInference.Effects.Interleaving
import Mathlib.Data.List.Induction
import Mathlib.Data.Set.Insert

/-!
# Stores of exclusively held keys

Some events take a key that nobody had, and some give a key back.  If every
program of a pool gives back only keys that its own trace still holds, then at
any time the keys of the store are the ones it started with together with the
keys held by the programs, and no key has two holders.
-/

namespace Effects

/-- What one event does to the keys of a store. -/
inductive KeyAction (K : Type) where
  | acquire (key : K)
  | release (key : K)
  | other

namespace KeyAction

variable {K : Type}

/-- The effect of an action on a set of keys. -/
def apply : KeyAction K → Set K → Set K
  | .acquire key, keys => insert key keys
  | .release key, keys => keys \ {key}
  | .other, keys => keys

@[simp] theorem apply_acquire (key : K) (keys : Set K) :
    (acquire key).apply keys = insert key keys := rfl

@[simp] theorem apply_release (key : K) (keys : Set K) :
    (release key).apply keys = keys \ {key} := rfl

@[simp] theorem apply_other (keys : Set K) :
    (other : KeyAction K).apply keys = keys := rfl

end KeyAction

variable {sig : Signature} {ε α S ι K : Type}

/-- The keys that a trace has acquired and not given back. -/
def heldBy (action : Event sig → KeyAction K) (trace : List (Event sig)) :
    Set K :=
  trace.foldl (fun held event => (action event).apply held) ∅

@[simp] theorem heldBy_nil (action : Event sig → KeyAction K) :
    heldBy action [] = ∅ := rfl

@[simp] theorem heldBy_append (action : Event sig → KeyAction K)
    (trace : List (Event sig)) (event : Event sig) :
    heldBy action (trace ++ [event]) =
      (action event).apply (heldBy action trace) := by
  simp [heldBy]

/-- The keys of a store are `base` together with the disjoint holdings of the
programs, none of which reaches into `base`. -/
structure Partition (base keys : Set K) (held : ι → Set K) : Prop where
  covers : ∀ key, key ∈ keys ↔ key ∈ base ∨ ∃ i, key ∈ held i
  outside : ∀ i key, key ∈ held i → key ∉ base
  disjoint : ∀ i j key, key ∈ held i → key ∈ held j → i = j

namespace Partition

variable {base keys : Set K} {held : ι → Set K}

theorem nobody (base : Set K) : Partition base base fun _ : ι => ∅ := by
  constructor
  · simp
  · simp
  · simp

variable [DecidableEq ι]

theorem acquire (parts : Partition base keys held) {i : ι} {key : K}
    (absent : key ∉ keys) :
    Partition base (insert key keys)
      (Function.update held i (insert key (held i))) := by
  have notHeld : ∀ j, key ∉ held j := fun j member =>
    absent ((parts.covers key).mpr (.inr ⟨j, member⟩))
  have notBase : key ∉ base := fun member =>
    absent ((parts.covers key).mpr (.inl member))
  have member_update : ∀ j other,
      other ∈ Function.update held i (insert key (held i)) j ↔
        (j = i ∧ other = key) ∨ other ∈ held j := by
    intro j other
    by_cases same : j = i
    · subst same
      simp
    · simp [same]
  constructor
  · intro other
    simp only [Set.mem_insert_iff, parts.covers other, member_update]
    constructor
    · rintro (rfl | inBase | ⟨j, member⟩)
      · exact .inr ⟨i, .inl ⟨rfl, rfl⟩⟩
      · exact .inl inBase
      · exact .inr ⟨j, .inr member⟩
    · rintro (inBase | ⟨j, ⟨_, rfl⟩ | member⟩)
      · exact .inr (.inl inBase)
      · exact .inl rfl
      · exact .inr (.inr ⟨j, member⟩)
  · intro j other member
    rcases (member_update j other).mp member with ⟨_, rfl⟩ | member
    · exact notBase
    · exact parts.outside j other member
  · intro j k other left right
    rcases (member_update j other).mp left with ⟨rfl, rfl⟩ | leftHeld
    · rcases (member_update k other).mp right with ⟨rfl, _⟩ | rightHeld
      · rfl
      · exact absurd rightHeld (notHeld k)
    · rcases (member_update k other).mp right with ⟨_, rfl⟩ | rightHeld
      · exact absurd leftHeld (notHeld j)
      · exact parts.disjoint j k other leftHeld rightHeld

theorem release (parts : Partition base keys held) {i : ι} {key : K}
    (owned : key ∈ held i) :
    Partition base (keys \ {key})
      (Function.update held i (held i \ {key})) := by
  have member_update : ∀ j other,
      other ∈ Function.update held i (held i \ {key}) j ↔
        other ∈ held j ∧ other ≠ key := by
    intro j other
    by_cases same : j = i
    · subst same
      simp
    · simp only [Function.update_of_ne same]
      constructor
      · intro member
        refine ⟨member, ?_⟩
        rintro rfl
        exact same (parts.disjoint j i other member owned)
      · exact fun member => member.1
  constructor
  · intro other
    simp only [Set.mem_sdiff, Set.mem_singleton_iff, parts.covers other,
      member_update]
    constructor
    · rintro ⟨inBase | ⟨j, member⟩, different⟩
      · exact .inl inBase
      · exact .inr ⟨j, member, different⟩
    · rintro (inBase | ⟨j, member, different⟩)
      · refine ⟨.inl inBase, ?_⟩
        rintro rfl
        exact parts.outside i other owned inBase
      · exact ⟨.inr ⟨j, member⟩, different⟩
  · intro j other member
    exact parts.outside j other ((member_update j other).mp member).1
  · intro j k other left right
    exact parts.disjoint j k other ((member_update j other).mp left).1
      ((member_update k other).mp right).1

end Partition

/-- A shared store whose keys change only as the events say, and where only an
absent key can be acquired. -/
structure ExclusiveStore (shared : World sig S)
    (action : Event sig → KeyAction K) (keys : S → Set K) : Prop where
  effect : ∀ store op answer after, shared.step store op answer after →
    keys after = (action ⟨op, answer⟩).apply (keys store)
  absent : ∀ store op answer after key, shared.step store op answer after →
    action ⟨op, answer⟩ = .acquire key → key ∉ keys store

/-- A rule under which a program gives back only keys it holds. -/
def ReleasesOwn (action : Event sig → KeyAction K)
    (rule : List (Event sig) → sig.Op → Prop) : Prop :=
  ∀ trace op answer key, rule trace op →
    action ⟨op, answer⟩ = .release key → key ∈ heldBy action trace

private theorem Partition.log_append [DecidableEq ι]
    {action : Event sig → KeyAction K} {base keys : Set K}
    {log : List (ι × Event sig)} {i : ι} {event : Event sig}
    (parts : Partition base keys fun j => heldBy action (localTrace log j))
    (absent : ∀ key, action event = .acquire key → key ∉ keys)
    (owned : ∀ key, action event = .release key →
      key ∈ heldBy action (localTrace log i)) :
    Partition base ((action event).apply keys)
      fun j => heldBy action (localTrace (log ++ [(i, event)]) j) := by
  have holdings :
      (fun j => heldBy action (localTrace (log ++ [(i, event)]) j)) =
        Function.update (fun j => heldBy action (localTrace log j)) i
          ((action event).apply (heldBy action (localTrace log i))) := by
    funext j
    by_cases same : j = i
    · subst same
      simp
    · simp [localTrace_append_other _ same, Function.update_of_ne same]
  rw [holdings]
  cases kind : action event with
  | acquire key => exact parts.acquire (absent key kind)
  | release key => exact parts.release (owned key kind)
  | other => simpa using parts

/-- **Exclusive keys.**  In every reachable pool the store holds its initial
keys and the disjoint holdings of the programs. -/
theorem Pool.Reaches.partition [DecidableEq ι] {shared : World sig S}
    {action : Event sig → KeyAction K} {keys : S → Set K}
    (exclusive : ExclusiveStore shared action keys)
    {rule : ι → List (Event sig) → sig.Op → Prop}
    (own : ∀ i, ReleasesOwn action (rule i))
    {possible : Event sig → Prop}
    {post : ι → Except ε α → List (Event sig) → Prop}
    {store : S} {thread : ι → Prog sig ε α} {pool : Pool sig ε α S ι}
    (sharedPossible : ∀ store op answer after,
      shared.step store op answer after → possible ⟨op, answer⟩)
    (safe : ∀ i, (thread i).wp (traceWorld (rule i) possible) (post i) [])
    (run : Pool.Reaches shared (Pool.start store thread) pool) :
    Partition (keys store) (keys pool.store)
      fun i => heldBy action (localTrace pool.log i) := by
  induction run with
  | refl =>
      simp only [Pool.start, localTrace_nil, heldBy_nil]
      exact Partition.nobody _
  | tail earlier step induction =>
      have kept := (local_wp sharedPossible (ruleKept_nil rule) safe
        (earlier.tail step)).1
      cases step with
      | @perform i op answer next after calling stepped =>
          rw [exclusive.effect _ _ _ _ stepped]
          apply induction.log_append
          · intro key acquires
            exact exclusive.absent _ _ _ _ key stepped acquires
          · intro key releases
            exact own i _ op answer key (kept _ i _ [] rfl) releases

end Effects
