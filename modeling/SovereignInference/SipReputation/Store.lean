import SovereignInference.Arithmetic.FloatOrder
import SovereignInference.Python.Float
import SovereignInference.Python.SurrogatePairs
import Mathlib.Data.List.AList
import Mathlib.Data.List.Lex
import Mathlib.Data.List.Sort
import Mathlib.Data.Rat.Defs

/-!
# Reputation of providers

A store counts the outcomes of each provider in a JSON file.  Each call reads
the file anew, so an instance keeps nothing but the path.  The counters are
combined into a score, in floats or in exact numbers.
-/

namespace SovereignInference.SipReputation

open Python Arithmetic

/-- The divisions of `score`, its weights and its neutral value.  Dividing by an
integer may overflow. -/
structure Numbers (K : Type) where
  ratio : Nat → Nat → K
  mean : K → Nat → Except PyExc K
  successWeight : K
  receiptWeight : K
  neutralScore : K

section

open Float.Model

/-- `m / n` for integers, the nearest float to the quotient. -/
def trueDivide (m n : Nat) : Float :=
  if above : 0 < m ∧ 0 < n then
    ⟨.pack (UnpackedFloat.div .binary64 (.finite .positive m 0 above.1)
      (.finite .positive n 0 above.2))⟩
  else 0

end

def floatNumbers : Numbers Float where
  ratio := trueDivide
  mean total count := do return total / (← floatOfInt count)
  successWeight := 0.7
  receiptWeight := 0.3
  neutralScore := 0.5

/-- The same without rounding. -/
def exactNumbers : Numbers ℚ where
  ratio m n := m / n
  mean total count := .ok (total / count)
  successWeight := 7 / 10
  receiptWeight := 3 / 10
  neutralScore := 1 / 2

/-- One routing outcome, as `record` is called with it. -/
structure Outcome (K : Type) where
  providerPubkey : Text
  success : Bool
  latencyMs : Option K
  receiptValid : Bool

/-- The counters of a provider.  None counts more than all outcomes. -/
structure Entry (K : Type) where
  total : Nat
  success : Nat
  receiptValid : Nat
  latencySum : K
  latencyN : Nat
  success_le : success ≤ total
  receiptValid_le : receiptValid ≤ total
  latencyN_le : latencyN ≤ total

/-- What the file says of every provider. -/
abbrev Entries (K : Type) := AList fun _ : Text => Entry K

variable {K : Type}

/-- `json.loads` of what `json.dump` has written with `sort_keys`; of two keys
that read alike the later one counts. -/
def reread (data : Entries K) : Entries K :=
  (data.entries.insertionSort fun a b => a.1 ≤ b.1).foldl
    (fun kept entry => kept.insert (rejoined entry.1) entry.2) ∅

/-- `_load`, where the file may be missing or hold no JSON dict. -/
def load (file : Option (Entries K)) : Entries K := file.getD ∅

variable [Zero K] [Add K]

/-- The counters before the first outcome. -/
def Entry.empty : Entry K := ⟨0, 0, 0, 0, 0, le_refl 0, le_refl 0, le_refl 0⟩

def Entry.add (entry : Entry K) (outcome : Outcome K) : Entry K where
  total := entry.total + 1
  success := entry.success + outcome.success.toNat
  receiptValid := entry.receiptValid + outcome.receiptValid.toNat
  latencySum := outcome.latencyMs.elim entry.latencySum (entry.latencySum + ·)
  latencyN := entry.latencyN + outcome.latencyMs.isSome.toNat
  success_le := Nat.add_le_add entry.success_le (Bool.toNat_le _)
  receiptValid_le := Nat.add_le_add entry.receiptValid_le (Bool.toNat_le _)
  latencyN_le := Nat.add_le_add entry.latencyN_le (Bool.toNat_le _)

/-- `record`: the file it leaves. -/
def record (file : Option (Entries K)) (outcome : Outcome K) :
    Option (Entries K) :=
  let data := load file
  let entry := (data.lookup outcome.providerPubkey).getD Entry.empty
  some (reread (data.insert outcome.providerPubkey (entry.add outcome)))

/-- A provider's aggregate reputation. -/
structure ReputationScore (K : Type) where
  providerPubkey : Text
  samples : Nat
  successRate : K
  receiptValidRate : K
  avgLatencyMs : Option K
  score : K
  deriving DecidableEq

variable [Mul K] (N : Numbers K)

/-- `latency_sum / latency_n if latency_n else None`. -/
def averageLatency (entry : Entry K) : Except PyExc (Option K) :=
  if entry.latencyN = 0 then .ok none
  else some <$> N.mean entry.latencySum entry.latencyN

/-- The reputation of a provider that the file knows. -/
def scoreEntry (providerPubkey : Text) (entry : Entry K) :
    Except PyExc (ReputationScore K) := do
  let successRate := N.ratio entry.success entry.total
  let receiptValidRate := N.ratio entry.receiptValid entry.total
  let avgLatency ← averageLatency N entry
  let score :=
    N.successWeight * successRate + N.receiptWeight * receiptValidRate
  return ⟨providerPubkey, entry.total, successRate, receiptValidRate,
    avgLatency, score⟩

def score (file : Option (Entries K)) (providerPubkey : Text) :
    Except PyExc (ReputationScore K) :=
  match (load file).lookup providerPubkey with
  | none => .ok ⟨providerPubkey, 0, 0, 0, none, N.neutralScore⟩
  | some entry =>
      if entry.total = 0 then
        .ok ⟨providerPubkey, 0, 0, 0, none, N.neutralScore⟩
      else scoreEntry N providerPubkey entry

/-- A call of `record`, or another instance on the same path. -/
inductive StoreEvent (K : Type) where
  | recorded (outcome : Outcome K)
  | reopened

/-- The file after an event. -/
def StoreEvent.apply (file : Option (Entries K)) :
    StoreEvent K → Option (Entries K)
  | .recorded outcome => record file outcome
  | .reopened => file

def run (file : Option (Entries K)) (events : List (StoreEvent K)) :
    Option (Entries K) :=
  events.foldl StoreEvent.apply file

def StoreEvent.outcome : StoreEvent K → Option (Outcome K)
  | .recorded outcome => some outcome
  | .reopened => none

/-- What the history has recorded. -/
def outcomes (events : List (StoreEvent K)) : List (Outcome K) :=
  events.filterMap StoreEvent.outcome

end SovereignInference.SipReputation
