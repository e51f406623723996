import SovereignInference.Python.DecimalContext
import SovereignInference.Python.SurrogatePairs
import SovereignInference.SipPic.Ledger
import Mathlib.Algebra.BigOperators.Group.List.Defs
import Mathlib.Data.List.Induction
import Mathlib.Logic.Function.Basic

/-!
# Ledgers on one path

Every instance of `Ledger` keeps the entries it has read when it was opened and
those it has recorded, and writes all of them with every record.  Nothing that
others have written since is kept, and an entry that could not be written is
kept in memory.
-/

namespace SovereignInference.SipPic

open Python Effects

/-- What reading the path gives: its JSON value, nothing if there is no file,
or an exception. -/
abbrev LedgerFile := Except PyExc (Option Json)

/-- The dict that `record` appends. -/
def LedgerEntry.toDict (entry : LedgerEntry) : Dict :=
  [("provider_pubkey", .str entry.providerPubkey),
    ("amount", .str entry.amount),
    ("unit", .str entry.unit),
    ("refs", .arr (entry.refs.map .str))]

namespace Ledger

def load : LedgerFile → Except PyExc (List Dict)
  | .ok none => .ok []
  | .ok (some raw) => .ok ((raw.asList.getD []).filterMap Json.asDict)
  | .error error =>
      if error = .osError ∨ error.isValueError then .ok [] else .error error

/-- The file after `_save`. -/
def save (entries : List Dict) : LedgerFile :=
  .ok (some (Json.rejoined (.arr (entries.map .obj))))

section

variable (convert : Json → Except PyExc Decimal)

/-- `Decimal(entry["amount"])`, where `convert` is the conversion of values
that are not strings. -/
def amountOf (entry : Dict) : Except PyExc Decimal :=
  match entry.find "amount" with
  | none => .error .keyError
  | some (.str amount) => Decimal.parse amount
  | some value => convert value

def sumWhere (selects : Dict → Bool) (entries : List Dict) :
    Except PyExc Decimal :=
  entries.foldlM (fun total entry =>
    if selects entry then do
      total.add defaultPrecision (← amountOf convert entry)
    else .ok total) Decimal.zero

def isInUnit (unit : Option Text) (entry : Dict) : Bool :=
  unit.all fun unit => (entry.get "unit").isStr unit

def balance (entries : List Dict) (providerPubkey : Text)
    (unit : Option Text) : Except PyExc Decimal :=
  sumWhere convert (fun entry =>
    (entry.get "provider_pubkey").isStr providerPubkey && isInUnit unit entry)
    entries

def total (entries : List Dict) (unit : Option Text) : Except PyExc Decimal :=
  sumWhere convert (isInUnit unit) entries

/-- The balance of a provider, or the total of all. -/
def sumFor (entries : List Dict) (provider unit : Option Text) :
    Except PyExc Decimal :=
  match provider with
  | some providerPubkey => balance convert entries providerPubkey unit
  | none => total convert entries unit

end

end Ledger

/-- The number of a recorded amount, if it is one. -/
def amountValue (amount : Text) : Option ℚ :=
  match Decimal.parse amount with
  | .ok (.finite negative coefficient exponent) =>
      some (Decimal.value negative coefficient exponent)
  | _ => none

/-- The entry is credited to the provider, if one is given, in the unit, if
one is given. -/
def LedgerEntry.Counts (provider unit : Option Text) (entry : LedgerEntry) :
    Bool :=
  provider.all (· = entry.providerPubkey) && unit.all (· = entry.unit)

/-- The sum of the recorded amounts, if all of them are numbers. -/
def exactSum (provider unit : Option Text) (entries : List LedgerEntry) :
    Option ℚ :=
  ((entries.filter (LedgerEntry.Counts provider unit)).mapM
    fun entry => amountValue entry.amount).map List.sum

/-- The sums over what was read are those of the recorded amounts. -/
def ExactSums (convert : Json → Except PyExc Decimal) (fresh : List Dict)
    (recorded : List LedgerEntry) : Prop :=
  ∀ provider unit, ∃ sum, Ledger.sumFor convert fresh provider unit = .ok sum ∧
    sum.IsFinite ∧ exactSum provider unit recorded = some sum.toRat

/-- The file, the entries of the opened instances, and the entries of the
calls of `record` that returned, in order. -/
structure LedgerStore (ι : Type) where
  file : LedgerFile
  opened : ι → Option (List Dict)
  returned : List LedgerEntry

/-- An instance is constructed, where reading may fail, or records an entry,
where saving may fail. -/
inductive LedgerCall (ι : Type) where
  | construct (i : ι) (read : Except PyExc Unit)
  | record (i : ι) (entry : LedgerEntry) (saved : Except PyExc Unit)

namespace LedgerStore

variable {ι : Type} [DecidableEq ι]

def step (store : LedgerStore ι) : LedgerCall ι → LedgerStore ι
  | .construct i read =>
      match Ledger.load (read.bind fun _ => store.file) with
      | .ok entries =>
          { store with opened := Function.update store.opened i (some entries) }
      | .error _ => store
  | .record i entry saved =>
      match store.opened i with
      | none => store
      | some entries =>
          let (answer, entries) := Ledger.record entries entry.toDict saved
          let opened := Function.update store.opened i (some entries)
          match answer with
          | .ok () => ⟨Ledger.save entries, opened, store.returned ++ [entry]⟩
          | .error _ => { store with opened }

def run (store : LedgerStore ι) (history : List (LedgerCall ι)) :
    LedgerStore ι :=
  history.foldl step store

/-- No instance is open. -/
def start (file : LedgerFile) : LedgerStore ι := ⟨file, fun _ => none, []⟩

/-- What a call of `record` owes: if it returns, a fresh instance has all
recorded entries in order and sums them exactly; if it raises, the instance and
the file are as before. -/
def KeepsRecord (convert : Json → Except PyExc Decimal) (store : LedgerStore ι)
    (i : ι) (entry : LedgerEntry) (saved : Except PyExc Unit) : Prop :=
  let after := store.step (.record i entry saved)
  match saved with
  | .ok () => ∃ fresh, Ledger.load after.file = .ok fresh ∧
      (after.returned.map LedgerEntry.toDict).Sublist fresh ∧
      ExactSums convert fresh after.returned
  | .error _ => after.opened i = store.opened i ∧ after.file = store.file

end LedgerStore

/-- No string of the entry has a high surrogate before a low one. -/
structure LedgerEntry.Unpaired (entry : LedgerEntry) : Prop where
  providerPubkey : Python.Unpaired entry.providerPubkey
  amount : Python.Unpaired entry.amount
  unit : Python.Unpaired entry.unit
  refs : ∀ ref ∈ entry.refs, Python.Unpaired ref

/-- The amount is a number, and each sum it counts in is a number of the
context. -/
def LedgerEntry.Sums (recorded : List LedgerEntry) (entry : LedgerEntry) :
    Prop :=
  ∀ provider unit, entry.Counts provider unit = true →
    ∃ sum amount, exactSum provider unit recorded = some sum ∧
      amountValue entry.amount = some amount ∧ Decimal.Fits 28 (sum + amount)

theorem load_save (entries : List Dict) :
    Ledger.load (Ledger.save entries) =
      .ok (entries.map Json.rejoinedFields) := by
  unfold Ledger.save Ledger.load
  simp only [Json.rejoined, Json.rejoinedItems_eq, Json.asList,
    Option.getD_some, List.map_map, Except.ok.injEq]
  induction entries with
  | nil => rfl
  | cons entry rest induction =>
      have isDict : ((Json.rejoined ∘ Json.obj) entry).asDict =
          some (Json.rejoinedFields entry) := by
        simp only [Function.comp_apply, Json.rejoined, Json.asDict]
      rw [List.map_cons, List.map_cons, List.filterMap_cons_some isDict,
        induction]

/-- Writing and reading keeps an entry exactly if no string has a surrogate
pair. -/
theorem rejoined_toDict_iff (entry : LedgerEntry) :
    Json.rejoinedFields entry.toDict = entry.toDict ↔ entry.Unpaired := by
  have refs : entry.refs.map (fun ref => Json.str (rejoined ref)) =
      entry.refs.map .str ↔ ∀ ref ∈ entry.refs, Python.Unpaired ref := by
    rw [List.map_inj_left]
    simp only [Json.str.injEq, rejoined_eq_iff]
  have fields : Json.rejoinedFields entry.toDict = entry.toDict ↔
      rejoined entry.providerPubkey = entry.providerPubkey ∧
      rejoined entry.amount = entry.amount ∧
      rejoined entry.unit = entry.unit ∧
      entry.refs.map (fun ref => Json.str (rejoined ref)) =
        entry.refs.map .str := by
    simp [LedgerEntry.toDict, Json.rejoinedFields, Json.rejoinedField,
      Json.rejoined, Json.rejoinedItems_eq]
  rw [fields, refs, rejoined_eq_iff, rejoined_eq_iff, rejoined_eq_iff]
  constructor
  · rintro ⟨pubkey, amount, unit, refs⟩
    exact ⟨pubkey, amount, unit, refs⟩
  · rintro ⟨pubkey, amount, unit, refs⟩
    exact ⟨pubkey, amount, unit, refs⟩

section

variable (convert : Json → Except PyExc Decimal)

/-- The dicts that a sum selects. -/
def Ledger.counts (provider unit : Option Text) (entry : Dict) : Bool :=
  (provider.all fun pubkey => (entry.get "provider_pubkey").isStr pubkey) &&
    Ledger.isInUnit unit entry

theorem sumFor_eq (entries : List Dict) (provider unit : Option Text) :
    Ledger.sumFor convert entries provider unit =
      Ledger.sumWhere convert (Ledger.counts provider unit) entries := by
  cases provider with
  | none =>
      have all : Ledger.counts none unit = Ledger.isInUnit unit := by
        funext entry
        exact Bool.true_and _
      rw [all]
      rfl
  | some pubkey => rfl

theorem counts_toDict (provider unit : Option Text) (entry : LedgerEntry) :
    Ledger.counts provider unit entry.toDict = entry.Counts provider unit := by
  have pubkey : entry.toDict.get "provider_pubkey" =
      .str entry.providerPubkey := rfl
  have inUnit : entry.toDict.get "unit" = .str entry.unit := rfl
  simp only [Ledger.counts, Ledger.isInUnit, pubkey, inUnit, Json.isStr,
    LedgerEntry.Counts, eq_comm]

private theorem amountOf_toDict (entry : LedgerEntry) :
    Ledger.amountOf convert entry.toDict = Decimal.parse entry.amount := rfl

theorem sumFor_append (entries : List Dict) (entry : LedgerEntry)
    (provider unit : Option Text) :
    Ledger.sumFor convert (entries ++ [entry.toDict]) provider unit =
      (Ledger.sumFor convert entries provider unit).bind fun sum =>
        if entry.Counts provider unit then
          (Decimal.parse entry.amount).bind (sum.add defaultPrecision)
        else .ok sum := by
  rw [sumFor_eq, sumFor_eq]
  unfold Ledger.sumWhere
  rw [List.foldlM_append]
  congr 1
  funext sum
  rw [List.foldlM_cons]
  simp only [counts_toDict, amountOf_toDict, List.foldlM_nil]
  exact bind_pure _

end

theorem exactSum_append (entries : List LedgerEntry) (entry : LedgerEntry)
    (provider unit : Option Text) :
    exactSum provider unit (entries ++ [entry]) =
      (exactSum provider unit entries).bind fun sum =>
        if entry.Counts provider unit then
          (amountValue entry.amount).map (sum + ·)
        else some sum := by
  unfold exactSum
  rw [List.filter_append]
  by_cases counted : entry.Counts provider unit = true
  · rw [List.filter_cons_of_pos counted, List.mapM_append]
    cases List.mapM (fun entry => amountValue entry.amount)
      (entries.filter (LedgerEntry.Counts provider unit)) with
    | none => rfl
    | some amounts =>
        cases value : amountValue entry.amount with
        | none => simp [counted, value]
        | some amount => simp [counted, value]
  · rw [List.filter_cons_of_neg counted, List.filter_nil, List.append_nil]
    simp [counted]

theorem amountValue_eq_some {amount : Text} {q : ℚ} :
    amountValue amount = some q ↔
      ∃ x, Decimal.parse amount = .ok x ∧ x.IsFinite ∧ x.toRat = q := by
  unfold amountValue
  cases Decimal.parse amount with
  | error error => simp
  | ok x =>
      cases x with
      | finite negative coefficient exponent =>
          simp [Decimal.IsFinite, Decimal.toRat]
      | infinity negative => simp [Decimal.IsFinite]
      | nan signaling => simp [Decimal.IsFinite]

/-- One more amount is summed exactly if and only if no sum with it is
rounded. -/
theorem exactSums_append_iff {convert : Json → Except PyExc Decimal}
    {entries : List Dict} {recorded : List LedgerEntry}
    (exact : ExactSums convert entries recorded) (entry : LedgerEntry) :
    ExactSums convert (entries ++ [entry.toDict]) (recorded ++ [entry]) ↔
      entry.Sums recorded := by
  unfold ExactSums LedgerEntry.Sums
  refine forall_congr' fun provider => forall_congr' fun unit => ?_
  obtain ⟨sum, computed, finite, value⟩ := exact provider unit
  rw [sumFor_append, exactSum_append, computed, value]
  simp only [Except.bind, Option.bind_some]
  by_cases counted : entry.Counts provider unit = true
  · simp only [counted, if_true, true_implies, Option.some.injEq,
      exists_and_left, exists_eq_left']
    constructor
    · rintro ⟨after, added, finiteAfter, exactAfter⟩
      obtain ⟨amount, valued, sums⟩ := Option.map_eq_some_iff.mp exactAfter
      refine ⟨amount, valued, ?_⟩
      obtain ⟨x, parsed, finiteAmount, rfl⟩ := amountValue_eq_some.mp valued
      rw [parsed] at added
      exact (Decimal.add_exact_iff (by decide) finite finiteAmount).mp
        ⟨after, added, sums.symm⟩
    · rintro ⟨amount, valued, fits⟩
      rw [valued]
      obtain ⟨x, parsed, finiteAmount, rfl⟩ := amountValue_eq_some.mp valued
      rw [parsed]
      obtain ⟨after, added, sums⟩ :=
        (Decimal.add_exact_iff (by decide) finite finiteAmount).mpr fits
      exact ⟨after, added, Decimal.add_finite finite finiteAmount added,
        congrArg some sums.symm⟩
  · rw [Bool.not_eq_true] at counted
    simp only [counted, Bool.false_eq_true, if_false, false_implies, iff_true]
    exact ⟨sum, rfl, finite, rfl⟩

namespace LedgerStore

variable {ι : Type} [DecidableEq ι]

/-- Saving succeeds, the instance has all recorded entries, JSON keeps the
strings of the new one, and no sum with it is rounded. -/
structure SeesAll (store : LedgerStore ι) (entries : List Dict)
    (entry : LedgerEntry) (saved : Except PyExc Unit) : Prop where
  saves : saved = .ok ()
  current : entries = store.returned.map LedgerEntry.toDict
  unpaired : entry.Unpaired
  sums : entry.Sums store.returned

/-- A fresh instance has what was recorded, every instance has the first of
it, and all sums are exact. -/
structure Durable (convert : Json → Except PyExc Decimal)
    (store : LedgerStore ι) : Prop where
  reads : Ledger.load store.file =
    .ok (store.returned.map LedgerEntry.toDict)
  unpaired : ∀ entry ∈ store.returned, entry.Unpaired
  exact : ExactSums convert (store.returned.map LedgerEntry.toDict)
    store.returned
  opened : ∀ i entries, store.opened i = some entries →
    entries <+: store.returned.map LedgerEntry.toDict

section

variable {convert : Json → Except PyExc Decimal} {store : LedgerStore ι}

omit [DecidableEq ι] in
theorem durable_start {file : LedgerFile} (empty : Ledger.load file = .ok []) :
    (start file : LedgerStore ι).Durable convert where
  reads := empty
  unpaired := nofun
  exact := by
    intro provider unit
    refine ⟨Decimal.zero, ?_, Decimal.isAmount_zero.isFinite, ?_⟩
    · rw [sumFor_eq]
      rfl
    · rw [Decimal.toRat_zero]
      rfl
  opened := nofun

theorem durable_construct (durable : store.Durable convert) (i : ι)
    (read : Except PyExc Unit) :
    (store.step (.construct i read)).Durable convert := by
  have loads : ∀ entries,
      Ledger.load (read.bind fun _ => store.file) = .ok entries →
      entries <+: store.returned.map LedgerEntry.toDict := by
    intro entries loaded
    cases read with
    | ok done =>
        have same := durable.reads.symm.trans loaded
        cases same
        exact List.prefix_rfl
    | error error =>
        simp only [Except.bind, Ledger.load] at loaded
        split_ifs at loaded
        cases loaded
        exact List.nil_prefix
  cases loaded : Ledger.load (read.bind fun _ => store.file) with
  | error error => simpa only [step, loaded] using durable
  | ok entries =>
      simp only [step, loaded]
      refine ⟨durable.reads, durable.unpaired, durable.exact, ?_⟩
      intro j others isOpen
      dsimp only at isOpen
      by_cases same : j = i
      · subst same
        rw [Function.update_self] at isOpen
        cases isOpen
        exact loads entries loaded
      · rw [Function.update_of_ne same] at isOpen
        exact durable.opened j others isOpen

omit [DecidableEq ι] in
/-- Recorded entries come back as they are. -/
theorem rejoined_prefix (durable : store.Durable convert) {entries : List Dict}
    (first : entries <+: store.returned.map LedgerEntry.toDict) :
    entries.map Json.rejoinedFields = entries := by
  have kept : ∀ dict ∈ entries, Json.rejoinedFields dict = id dict := by
    intro dict member
    obtain ⟨entry, known, rfl⟩ := List.mem_map.mp (first.subset member)
    exact (rejoined_toDict_iff entry).mpr (durable.unpaired entry known)
  rw [List.map_congr_left kept, List.map_id]

theorem step_saved {i : ι} {entries : List Dict}
    (isOpen : store.opened i = some entries) (entry : LedgerEntry) :
    store.step (.record i entry (.ok ())) =
      ⟨Ledger.save (entries ++ [entry.toDict]),
        Function.update store.opened i (some (entries ++ [entry.toDict])),
        store.returned ++ [entry]⟩ := by
  simp only [step, isOpen]
  rfl

/-- The entry stays in memory if saving raises. -/
theorem step_unsaved {i : ι} {entries : List Dict}
    (isOpen : store.opened i = some entries) (entry : LedgerEntry)
    (error : PyExc) :
    store.step (.record i entry (.error error)) =
      { store with opened :=
          Function.update store.opened i (some (entries ++ [entry.toDict])) } := by
  simp only [step, isOpen]
  rfl

/-- What the file holds after a call that returns. -/
theorem load_record (durable : store.Durable convert) {i : ι}
    {entries : List Dict} (isOpen : store.opened i = some entries)
    (entry : LedgerEntry) :
    Ledger.load (store.step (.record i entry (.ok ()))).file =
      .ok (entries ++ [Json.rejoinedFields entry.toDict]) := by
  rw [step_saved isOpen, load_save, List.map_append, List.map_singleton,
    rejoined_prefix durable (durable.opened i entries isOpen)]

theorem returned_record {i : ι} {entries : List Dict}
    (isOpen : store.opened i = some entries) (entry : LedgerEntry) :
    (store.step (.record i entry (.ok ()))).returned =
      store.returned ++ [entry] := by
  rw [step_saved isOpen]

/-- A call owes nothing less than to see all. -/
theorem keepsRecord_iff (durable : store.Durable convert) {i : ι}
    {entries : List Dict} (isOpen : store.opened i = some entries)
    (entry : LedgerEntry) (saved : Except PyExc Unit) :
    store.KeepsRecord convert i entry saved ↔
      store.SeesAll entries entry saved := by
  cases saved with
  | error error =>
      refine iff_of_false ?_ ?_
      · rintro ⟨unchanged, _⟩
        rw [step_unsaved isOpen, isOpen] at unchanged
        simp only [Function.update_self] at unchanged
        have lengths := congrArg (Option.map List.length) unchanged
        simp at lengths
      · intro sees
        cases sees.saves
  | ok done =>
      have loaded := load_record durable isOpen entry
      have first := durable.opened i entries isOpen
      unfold KeepsRecord
      dsimp only
      rw [loaded, returned_record isOpen, List.map_append, List.map_singleton]
      simp only [Except.ok.injEq, exists_eq_left']
      constructor
      · rintro ⟨contained, exact⟩
        have shorter := contained.length_le
        simp only [List.length_append, List.length_singleton] at shorter
        have current : entries = store.returned.map LedgerEntry.toDict :=
          first.eq_of_length_le (by omega)
        subst current
        have same := contained.eq_of_length (by simp)
        have kept : Json.rejoinedFields entry.toDict = entry.toDict := by
          simpa using same.symm
        rw [kept] at exact
        exact ⟨rfl, rfl, (rejoined_toDict_iff entry).mp kept,
          (exactSums_append_iff durable.exact entry).mp exact⟩
      · intro sees
        rw [(rejoined_toDict_iff entry).mpr sees.unpaired, sees.current]
        exact ⟨List.Sublist.refl _,
          (exactSums_append_iff durable.exact entry).mpr sees.sums⟩

theorem durable_record (durable : store.Durable convert) {i : ι}
    {entries : List Dict} (isOpen : store.opened i = some entries)
    {entry : LedgerEntry} {saved : Except PyExc Unit}
    (sees : store.SeesAll entries entry saved) :
    (store.step (.record i entry saved)).Durable convert := by
  obtain ⟨rfl, current, unpaired, sums⟩ := sees
  have kept := (rejoined_toDict_iff entry).mpr unpaired
  have returned := returned_record isOpen entry
  have dicts : (store.step (.record i entry (.ok ()))).returned.map
      LedgerEntry.toDict = entries ++ [entry.toDict] := by
    rw [returned, List.map_append, List.map_singleton, current]
  constructor
  · rw [load_record durable isOpen, dicts, kept]
  · rw [returned]
    intro other member
    rcases List.mem_append.mp member with known | new
    · exact durable.unpaired other known
    · rw [List.mem_singleton.mp new]
      exact unpaired
  · rw [dicts, returned, current]
    exact (exactSums_append_iff durable.exact entry).mpr sums
  · rw [dicts]
    intro j others isOpen'
    rw [step_saved isOpen] at isOpen'
    dsimp only at isOpen'
    by_cases same : j = i
    · subst same
      rw [Function.update_self] at isOpen'
      cases isOpen'
      exact List.prefix_rfl
    · rw [Function.update_of_ne same] at isOpen'
      rw [current]
      exact (durable.opened j others isOpen').trans (List.prefix_append _ _)

end

theorem run_append (store : LedgerStore ι) (before : List (LedgerCall ι))
    (call : LedgerCall ι) :
    store.run (before ++ [call]) = (store.run before).step call := by
  unfold run
  rw [List.foldl_append]
  rfl

private theorem durable_step {convert : Json → Except PyExc Decimal}
    {store : LedgerStore ι} (durable : store.Durable convert)
    (call : LedgerCall ι)
    (sees : ∀ i entry saved, call = .record i entry saved →
      ∀ entries, store.opened i = some entries →
      store.SeesAll entries entry saved) : (store.step call).Durable convert := by
  cases call with
  | construct i read => exact durable_construct durable i read
  | record i entry saved =>
      cases isOpen : store.opened i with
      | none => simpa only [step, isOpen] using durable
      | some entries =>
          exact durable_record durable isOpen
            (sees i entry saved rfl entries isOpen)

/-- Calls that see all keep the ledger durable. -/
theorem durable_run {convert : Json → Except PyExc Decimal} {file : LedgerFile}
    (empty : Ledger.load file = .ok []) {history before later :
      List (LedgerCall ι)} (split : history = before ++ later)
    (sees : ∀ before i entry saved later,
      history = before ++ .record i entry saved :: later →
      ∀ entries, ((start file).run before).opened i = some entries →
      ((start file).run before).Durable convert →
      ((start file).run before).SeesAll entries entry saved) :
    ((start file).run before).Durable convert := by
  induction before using List.reverseRecOn generalizing later with
  | nil => exact durable_start empty
  | append_singleton before call induction =>
      rw [List.append_assoc] at split
      have durable := induction split
      rw [run_append]
      apply durable_step durable
      rintro i entry saved rfl entries isOpen
      exact sees before i entry saved later split entries isOpen durable

/-- **The ledger is durable.**  In a history on a path without entries every
call of `record` keeps what it owes, exactly if every call saves, by an
instance that has all entries recorded before, an entry that JSON keeps and
that no sum rounds. -/
theorem history_durable_iff (convert : Json → Except PyExc Decimal)
    {file : LedgerFile} (empty : Ledger.load file = .ok [])
    (history : List (LedgerCall ι)) :
    (∀ before i entry saved later,
      history = before ++ .record i entry saved :: later →
      (((start file).run before).opened i).isSome →
      ((start file).run before).KeepsRecord convert i entry saved) ↔
    ∀ before i entry saved later,
      history = before ++ .record i entry saved :: later →
      ∀ entries, ((start file).run before).opened i = some entries →
      ((start file).run before).SeesAll entries entry saved := by
  constructor
  · intro keeps before i entry saved later split entries isOpen
    have durable : ((start file).run before).Durable convert := by
      apply durable_run empty split
      intro earlier i entry saved later split entries isOpen durable
      apply (keepsRecord_iff durable isOpen entry saved).mp
      exact keeps earlier i entry saved later split (by rw [isOpen]; rfl)
    apply (keepsRecord_iff durable isOpen entry saved).mp
    exact keeps before i entry saved later split (by rw [isOpen]; rfl)
  · intro sees before i entry saved later split isOpen
    obtain ⟨entries, isOpen⟩ := Option.isSome_iff_exists.mp isOpen
    have durable : ((start file).run before).Durable convert := by
      apply durable_run empty split
      intro earlier i entry saved later split entries isOpen _
      exact sees earlier i entry saved later split entries isOpen
    apply (keepsRecord_iff durable isOpen entry saved).mpr
    exact sees before i entry saved later split entries isOpen

end LedgerStore

def firstEntry : LedgerEntry where
  providerPubkey := "ed25519:providerA"
  amount := "2.50"
  unit := "pic"
  refs := ["v1", "v2"]

def secondEntry : LedgerEntry where
  providerPubkey := "ed25519:providerB"
  amount := "1.00"
  unit := "pic"
  refs := ["v3"]

private theorem firstEntry_sums : firstEntry.Sums [] := by
  intro provider unit _
  refine ⟨0, 5 / 2, rfl, ?_, ?_⟩
  · have parsed : Decimal.parse firstEntry.amount =
        .ok (.finite false 250 (-2)) := by decide
    apply amountValue_eq_some.mpr
    refine ⟨_, parsed, ⟨_, _, _, rfl⟩, ?_⟩
    norm_num [Decimal.toRat, Decimal.value, Decimal.scaled_eq]
  · refine ⟨false, 250, -2, ?_, ?_, ?_, ?_⟩
    · norm_num [Decimal.value, Decimal.scaled_eq]
    all_goals decide

/-- A file that is not JSON is replaced by the first entry. -/
theorem history_durable_corrupt :
    ((LedgerStore.start (.error .valueError)).run
      [.construct () (.ok ())]).KeepsRecord (fun _ => .error .typeError) ()
        firstEntry (.ok ()) := by
  have empty : Ledger.load (.error .valueError) = .ok [] := rfl
  have durable := (LedgerStore.history_durable_iff
    (fun _ => .error .typeError) empty
    [.construct () (.ok ()), .record () firstEntry (.ok ())]).mpr
  refine durable ?_ [.construct () (.ok ())] () firstEntry (.ok ()) [] rfl rfl
  intro before i entry saved later split entries isOpen
  match before, split with
  | [_], split =>
      cases split
      cases isOpen
      exact ⟨rfl, rfl, ⟨by decide, by decide, by decide, by decide⟩,
        firstEntry_sums⟩
  | _ :: _ :: _, split => simp at split

def crossedLedger : LedgerStore Bool :=
  (LedgerStore.start (.ok none)).run
    [.construct false (.ok ()), .construct true (.ok ()),
      .record false firstEntry (.ok ()), .record true secondEntry (.ok ())]

/-- Two instances are opened before either records: both calls return, and the
file has the second entry only. -/
theorem returned_entry_lost :
    crossedLedger.returned = [firstEntry, secondEntry] ∧
      Ledger.load crossedLedger.file = .ok [secondEntry.toDict] := by
  refine ⟨rfl, ?_⟩
  rfl

end SovereignInference.SipPic
