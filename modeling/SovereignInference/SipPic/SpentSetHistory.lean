import SovereignInference.SipPic.SpentSetFile

/-!
# Histories of a spent set on one path

A history opens instances and calls them in any order, one after the other: an
open overlaps no other call.  What the answers should be is said by the record
of the history: the keys spent and not given back since.  If no open discards a
file, the instances share one table, which is that record, so a spent key stays
spent.
-/

namespace SovereignInference.SipPic

open Python

/-- The instances opened so far, each with its file. -/
structure Instances where
  disk : Disk
  opened : List Nat

inductive SetEvent where
  | opened (attempts : List Attempt) (outcome : Except PyExc Nat)
  | isSpent (index : Nat) (key : Text) (outcome : Except PyExc Bool)
  | spend (index : Nat) (key : Text) (outcome : Except PyExc Bool)
  | unspend (index : Nat) (key : Text) (outcome : Except PyExc Unit)

/-- One call of the constructor or of a method, with its outcome. -/
inductive SetStep (state : Instances) : SetEvent → Instances → Prop where
  | opened {attempts : List Attempt} {file : Nat} {after : Disk} :
      state.disk.openFile attempts = (.ok file, after) →
      SetStep state (.opened attempts (.ok file))
        ⟨after, state.opened ++ [file]⟩
  | refused {attempts : List Attempt} {error : PyExc} {after : Disk} :
      state.disk.openFile attempts = (.error error, after) →
      SetStep state (.opened attempts (.error error)) ⟨after, state.opened⟩
  | isSpent {index file : Nat} (key : Text) (fails : Bool) :
      state.opened[index]? = some file →
      SetStep state
        (.isSpent index key (state.disk.isSpent file key fails)) state
  | spend {index file : Nat} (key : Text) (fails : Bool) :
      state.opened[index]? = some file →
      SetStep state
        (.spend index key (state.disk.spend file key fails).1)
        { state with disk := (state.disk.spend file key fails).2 }
  | unspend {index file : Nat} (key : Text) (fails : Bool) :
      state.opened[index]? = some file →
      SetStep state
        (.unspend index key (state.disk.unspend file key fails).1)
        { state with disk := (state.disk.unspend file key fails).2 }

/-- No file on the path and no instance. -/
def Instances.fresh : Instances := ⟨⟨none, fun _ => ∅, 0⟩, []⟩

/-- Histories whose steps are all admitted. -/
inductive History (admits : Instances → SetEvent → Prop) :
    List SetEvent → Instances → Prop where
  | start : History admits [] .fresh
  | step {past : List SetEvent} {state after : Instances} {event : SetEvent} :
      History admits past state → admits state event →
      SetStep state event after → History admits (past ++ [event]) after

/-- The step is not an open that discards the file on the path. -/
def KeepsFile (state : Instances) : SetEvent → Prop
  | .opened attempts _ => ¬ state.disk.Discards attempts
  | _ => True

/-- `spend(key)` has returned `True` and `unspend(key)` has not been called
since. -/
def Unreleased (key : Text) (past : List SetEvent) : Prop :=
  ∃ before index after,
    past = before ++ .spend index key (.ok true) :: after ∧
      ∀ other outcome, .unspend other key outcome ∉ after

/-- An unreleased key is never spent again. -/
def NeverRespent (events : List SetEvent) : Prop :=
  ∀ past index key later,
    events = past ++ .spend index key (.ok true) :: later →
      ¬ Unreleased key past

/-- The effect of one event on the keys that should be spent. -/
def recordStep (keys : Finset Text) : SetEvent → Finset Text
  | .spend _ key (.ok true) => insert key keys
  | .unspend _ key (.ok _) => keys.erase key
  | _ => keys

/-- The keys spent and not given back since. -/
def record (events : List SetEvent) : Finset Text :=
  events.foldl recordStep ∅

@[simp] theorem record_nil : record [] = ∅ := rfl

@[simp] theorem record_append (past : List SetEvent) (event : SetEvent) :
    record (past ++ [event]) = recordStep (record past) event := by
  simp [record]

private theorem recordStep_keeps {keys : Finset Text} {key : Text}
    {event : SetEvent} (spent : key ∈ keys)
    (kept : ∀ index outcome, event ≠ .unspend index key outcome) :
    key ∈ recordStep keys event := by
  unfold recordStep
  split
  · exact Finset.mem_insert_of_mem spent
  · rename_i index other outcome
    apply Finset.mem_erase.mpr ⟨?_, spent⟩
    rintro rfl
    exact kept index _ rfl
  · exact spent

theorem unreleased_mem_record {key : Text} {past : List SetEvent}
    (unreleased : Unreleased key past) : key ∈ record past := by
  obtain ⟨before, index, after, rfl, kept⟩ := unreleased
  induction after using List.reverseRecOn with
  | nil =>
      rw [record_append]
      exact Finset.mem_insert_self _ _
  | append_singleton after event induction =>
      have regrouped : before ++ SetEvent.spend index key (.ok true) ::
          (after ++ [event]) =
          (before ++ SetEvent.spend index key (.ok true) :: after) ++
            [event] := by
        simp
      rw [regrouped, record_append]
      apply recordStep_keeps
      · apply induction
        intro other outcome member
        exact kept other outcome (List.mem_append_left _ member)
      · intro other outcome same
        apply kept other outcome
        rw [same]
        exact List.mem_append_right _ List.mem_cons_self

/-- All instances are on the file of the path, and its table is the record. -/
structure Shares (past : List SetEvent) (state : Instances) : Prop where
  sameFile : ∀ file ∈ state.opened, state.disk.path = some file
  table : ∀ file, state.disk.path = some file →
    state.disk.table file = record past
  nothing : state.disk.path = none → record past = ∅

/-- The answer of the guard whose keys are the record. -/
def AnswersRecord (past : List SetEvent) : SetEvent → Prop
  | .spend _ key (.ok answer) => answer = decide (key ∉ record past)
  | .isSpent _ key (.ok answer) => answer = decide (key ∈ record past)
  | _ => True

theorem Shares.fresh : Shares [] .fresh := by
  constructor
  · intro file member
    cases member
  · intro file present
    cases present
  · intro _
    rfl

namespace Shares

variable {past : List SetEvent} {state after : Instances}

/-- A step that leaves the instances, the path and the record alone. -/
private theorem unchanged (shares : Shares past state) {event : SetEvent}
    (quiet : recordStep (record past) event = record past) :
    Shares (past ++ [event]) state := by
  constructor
  · exact shares.sameFile
  · intro file present
    rw [record_append, quiet, shares.table file present]
  · intro absent
    rw [record_append, quiet, shares.nothing absent]

/-- A step that writes the new record into the file of an instance. -/
private theorem written (shares : Shares past state) {event : SetEvent}
    {index file : Nat} (instance_ : state.opened[index]? = some file)
    {keys : Finset Text} (effect : recordStep (record past) event = keys) :
    Shares (past ++ [event])
      { state with
        disk := { state.disk with
          table := Function.update state.disk.table file keys } } := by
  have present := shares.sameFile file (List.mem_of_getElem? instance_)
  constructor
  · exact shares.sameFile
  · intro other otherPresent
    obtain rfl : file = other := by
      simpa [present] using otherPresent
    simp [effect]
  · intro absent
    simp [present] at absent

/-- An open that discards nothing. -/
private theorem reopened (shares : Shares past state) {event : SetEvent}
    (quiet : recordStep (record past) event = record past)
    {attempts : List Attempt} (keeps : ¬ state.disk.Discards attempts) :
    Shares (past ++ [event])
        ⟨(state.disk.openFile attempts).2, state.opened⟩ ∧
      ∀ file, (state.disk.openFile attempts).1 = .ok file →
        (state.disk.openFile attempts).2.path = some file := by
  cases present : state.disk.path with
  | some file =>
      obtain ⟨same, opens⟩ := Disk.openFile_present present keeps
      rw [same]
      refine ⟨shares.unchanged quiet, ?_⟩
      intro opened equality
      rw [opens opened equality, present]
  | none =>
      obtain ⟨blank, opens⟩ :=
        Disk.openFile_absent attempts present
      have empty := shares.nothing present
      refine ⟨⟨?_, ?_, ?_⟩, opens⟩
      · intro file member
        rw [shares.sameFile file member] at present
        cases present
      · intro file created
        rw [blank file created, record_append, quiet, empty]
      · intro _
        rw [record_append, quiet, empty]

theorem step (shares : Shares past state) {event : SetEvent}
    (keeps : KeepsFile state event) (stepped : SetStep state event after) :
    AnswersRecord past event ∧ Shares (past ++ [event]) after := by
  cases stepped with
  | @opened attempts file after equality =>
      refine ⟨trivial, ?_⟩
      obtain ⟨others, path⟩ := @Shares.reopened _ _ shares
        (.opened attempts (.ok file)) rfl attempts keeps
      rw [equality] at others path
      refine ⟨?_, others.table, others.nothing⟩
      intro opened member
      rcases List.mem_append.mp member with earlier | new
      · exact others.sameFile opened earlier
      · obtain rfl := List.mem_singleton.mp new
        exact path opened rfl
  | @refused attempts error after equality =>
      refine ⟨trivial, ?_⟩
      have others := (@Shares.reopened _ _ shares
        (.opened attempts (.error error)) rfl attempts keeps).1
      rw [equality] at others
      exact others
  | @isSpent index file key fails instance_ =>
      have present := shares.sameFile file (List.mem_of_getElem? instance_)
      cases fails with
      | true => exact ⟨trivial, shares.unchanged rfl⟩
      | false =>
          refine ⟨?_, shares.unchanged rfl⟩
          simp [AnswersRecord, Disk.isSpent_answers,
            shares.table file present]
  | @spend index file key fails instance_ =>
      have present := shares.sameFile file (List.mem_of_getElem? instance_)
      cases fails with
      | true => exact ⟨trivial, shares.unchanged rfl⟩
      | false =>
          rw [Disk.spend_succeeds, shares.table file present]
          refine ⟨rfl, shares.written instance_ ?_⟩
          by_cases spent : key ∈ record past
          · simp [spent, recordStep]
          · simp [spent, recordStep]
  | @unspend index file key fails instance_ =>
      have present := shares.sameFile file (List.mem_of_getElem? instance_)
      cases fails with
      | true => exact ⟨trivial, shares.unchanged rfl⟩
      | false =>
          refine ⟨trivial, shares.written instance_ ?_⟩
          rw [shares.table file present]
          rfl

end Shares

/-- In a history that discards no file, the instances share the record and
every answer is the record's. -/
theorem History.shares {past : List SetEvent} {state : Instances}
    (history : History KeepsFile past state) :
    Shares past state ∧
      ∀ before event later, past = before ++ event :: later →
        AnswersRecord before event := by
  induction history with
  | start =>
      refine ⟨Shares.fresh, ?_⟩
      intro before event later equality
      simp at equality
  | @step past state after event _ keeps stepped induction =>
      obtain ⟨shares, answers⟩ := induction
      obtain ⟨answer, next⟩ := shares.step keeps stepped
      refine ⟨next, ?_⟩
      intro before other later equality
      rcases Effects.last_or_earlier equality with
        ⟨rfl, rfl, rfl⟩ | ⟨rest, rfl, rfl⟩
      · exact answer
      · exact answers before other rest rfl

/-- **Spent keys stay spent** in every history whose opens never discard the
file on the path. -/
theorem kept_file_never_respends {events : List SetEvent} {state : Instances}
    (history : History KeepsFile events state) : NeverRespent events := by
  intro past index key later equality unreleased
  have answer := history.shares.2 past _ later equality
  have spent := unreleased_mem_record unreleased
  simp [AnswersRecord, spent] at answer

section Concrete

variable {admits : Instances → SetEvent → Prop} {past : List SetEvent}
  {disk after : Disk} {opened : List Nat}

theorem History.opens (history : History admits past ⟨disk, opened⟩)
    (attempts : List Attempt) (file : Nat)
    (admitted : admits ⟨disk, opened⟩ (.opened attempts (.ok file)))
    (equality : disk.openFile attempts = (.ok file, after)) :
    History admits (past ++ [.opened attempts (.ok file)])
      ⟨after, opened ++ [file]⟩ :=
  history.step admitted (.opened equality)

theorem History.spends (history : History admits past ⟨disk, opened⟩)
    (index file : Nat) (key : Text) (answer : Bool)
    (admitted : admits ⟨disk, opened⟩ (.spend index key (.ok answer)))
    (present : opened[index]? = some file)
    (fresh : decide (key ∉ disk.table file) = answer) :
    History admits (past ++ [.spend index key (.ok answer)])
      ⟨{ disk with
        table := Function.update disk.table file
          (insert key (disk.table file)) }, opened⟩ := by
  apply history.step admitted
  have stepped := @SetStep.spend ⟨disk, opened⟩ index file key false present
  rw [Disk.spend_succeeds, fresh] at stepped
  exact stepped

end Concrete

theorem kept_file_never_respends_reopened :
    NeverRespent
      [.opened [⟨true, none, true⟩] (.ok 0), .spend 0 "v1" (.ok true),
        .opened [⟨true, none, true⟩] (.ok 0), .spend 1 "v1" (.ok false)] := by
  have opened := (@History.start KeepsFile).opens [⟨true, none, true⟩] 0
    (by simp [KeepsFile, Disk.Discards]) rfl
  have spent := opened.spends 0 0 "v1" true trivial rfl (by decide)
  have reopened := spent.opens [⟨true, none, true⟩] 0
    (by simp [KeepsFile, Disk.Discards]) rfl
  exact kept_file_never_respends
    (reopened.spends 1 0 "v1" false trivial rfl (by decide))

/-- One failing pragma while reopening, and the spent key is spent again. -/
theorem failing_reopen_respends :
    (∃ state, History (fun _ _ => True)
      [.opened [⟨true, none, true⟩] (.ok 0), .spend 0 "v1" (.ok true),
        .opened [⟨true, some .journalMode, true⟩, ⟨true, none, true⟩] (.ok 1),
        .spend 1 "v1" (.ok true)] state) ∧
    ¬ NeverRespent
      [.opened [⟨true, none, true⟩] (.ok 0), .spend 0 "v1" (.ok true),
        .opened [⟨true, some .journalMode, true⟩, ⟨true, none, true⟩] (.ok 1),
        .spend 1 "v1" (.ok true)] := by
  constructor
  · have opened := (@History.start fun _ _ => True).opens
      [⟨true, none, true⟩] 0 trivial rfl
    have spent := opened.spends 0 0 "v1" true trivial rfl (by decide)
    have reopened := spent.opens
      [⟨true, some .journalMode, true⟩, ⟨true, none, true⟩] 1 trivial rfl
    exact ⟨_, reopened.spends 1 1 "v1" true trivial rfl (by decide)⟩
  · intro never
    apply never [_, _, _] 1 "v1" [] rfl
    refine ⟨[_], 0, [_], rfl, ?_⟩
    intro other outcome member
    cases List.mem_singleton.mp member

end SovereignInference.SipPic
