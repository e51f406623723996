import SovereignInference.SipPic.SpentSet

/-!
# The spent set on disk

Instances of `SpentSet` opened on one path.  The path leads to a file or to
nothing; an instance keeps the file it opened even after the path is unlinked.
Opening recovers from a failed statement by unlinking the path and starting
over, whatever made the statement fail.  As long as no statement of an open
fails on a file that was there before it, all instances share one table.
-/

namespace SovereignInference.SipPic

open Python

/-- The files of one path, with the table of spent keys in each. -/
structure Disk where
  path : Option Nat
  table : Nat → Finset Text
  files : Nat

/-- The statements `_open` executes on a new connection. -/
inductive Statement where
  | journalMode
  | synchronous
  | busyTimeout
  | createTable
  deriving DecidableEq

def openStatements : List Statement :=
  [.journalMode, .synchronous, .busyTimeout, .createTable]

/-- How the surroundings answer one turn of `_open`. -/
structure Attempt where
  connects : Bool
  failing : Option Statement
  unlinks : Bool
  deriving DecidableEq

namespace Disk

/-- `sqlite3.connect`: a missing file is created. -/
def connect (disk : Disk) : Nat × Disk :=
  match disk.path with
  | some file => (file, disk)
  | none =>
      (disk.files,
        { path := some disk.files
          table := Function.update disk.table disk.files ∅
          files := disk.files + 1 })

def unlink (disk : Disk) : Disk := { disk with path := none }

/-- Execute statements until the failing one. -/
def execute (failing : Option Statement) : List Statement → Except PyExc Unit
  | [] => .ok ()
  | statement :: rest =>
      if failing = some statement then .error .operationalError
      else execute failing rest

/-- `_open`, one attempt for each turn of its recursion.  The recursion is
bounded by the interpreter. -/
def openFile : List Attempt → Disk → Except PyExc Nat × Disk
  | [], disk => (.error .recursionError, disk)
  | attempt :: rest, disk =>
      if attempt.connects then
        let (file, connected) := disk.connect
        match execute attempt.failing openStatements with
        | .ok _ => (.ok file, connected)
        | .error error =>
            if connected.path.isSome then
              if attempt.unlinks then openFile rest connected.unlink
              else (.error .osError, connected)
            else (.error error, connected)
      else (.error .operationalError, disk)

/-- `is_spent` on a file, where the statement may fail. -/
def isSpent (file : Nat) (key : Text) (fails : Bool) (disk : Disk) :
    Except PyExc Bool :=
  if fails then .error .operationalError
  else .ok (selectSpent (disk.table file) key)

/-- `spend` on a file: a present key is an `IntegrityError` and answers
`False`. -/
def spend (file : Nat) (key : Text) (fails : Bool) (disk : Disk) :
    Except PyExc Bool × Disk :=
  if fails then (.error .operationalError, disk)
  else
    match insertSpent (disk.table file) key with
    | none => (.ok false, disk)
    | some after =>
        (.ok true, { disk with table := Function.update disk.table file after })

def unspend (file : Nat) (key : Text) (fails : Bool) (disk : Disk) :
    Except PyExc Unit × Disk :=
  if fails then (.error .operationalError, disk)
  else
    (.ok (),
      { disk with
        table := Function.update disk.table file
          (deleteSpent (disk.table file) key) })

theorem execute_openStatements (failing : Option Statement) :
    execute failing openStatements =
      if failing = none then .ok () else .error .operationalError := by
  cases failing with
  | none => rfl
  | some statement => cases statement <;> rfl

theorem isSpent_answers (file : Nat) (key : Text) (disk : Disk) :
    disk.isSpent file key false = .ok (decide (key ∈ disk.table file)) := rfl

theorem spend_succeeds (file : Nat) (key : Text) (disk : Disk) :
    disk.spend file key false =
      (.ok (decide (key ∉ disk.table file)),
        { disk with
          table := Function.update disk.table file
            (insert key (disk.table file)) }) := by
  by_cases spent : key ∈ disk.table file
  · simp [spend, insertSpent, spent]
  · simp [spend, insertSpent, spent]

/-- On its file an instance is the guard over that file's table. -/
theorem instance_is_spentTable (file : Nat) (key : Text) (disk : Disk) :
    spentTable.respond (disk.table file) (.isSpent key) =
        (disk.isSpent file key false, disk.table file) ∧
      spentTable.respond (disk.table file) (.spend key) =
        ((disk.spend file key false).1,
          (disk.spend file key false).2.table file) ∧
      spentTable.respond (disk.table file) (.unspend key) =
        ((disk.unspend file key false).1,
          (disk.unspend file key false).2.table file) := by
  refine ⟨rfl, ?_, ?_⟩
  · rw [spend_succeeds]
    by_cases spent : key ∈ disk.table file
    · simp [respond_spend_spent spent, spent]
    · simp [respond_spend_fresh spent, spent]
  · simp [unspend, deleteSpent]

/-- A statement of the open fails on a file that was there before it, and the
file is unlinked. -/
def Discards (disk : Disk) (attempts : List Attempt) : Prop :=
  disk.path.isSome ∧ ∃ attempt ∈ attempts.head?,
    attempt.connects ∧ attempt.failing ≠ none ∧ attempt.unlinks

/-- Opening a file that is there changes nothing unless it discards it. -/
theorem openFile_present {disk : Disk} {file : Nat}
    {attempts : List Attempt} (present : disk.path = some file)
    (keeps : ¬ disk.Discards attempts) :
    (disk.openFile attempts).2 = disk ∧
      ∀ opened, (disk.openFile attempts).1 = .ok opened → opened = file := by
  have connected : disk.connect = (file, disk) := by simp [connect, present]
  cases attempts with
  | nil => simp [openFile]
  | cons attempt rest =>
      by_cases connects : attempt.connects
      · by_cases failing : attempt.failing = none
        · simp [openFile, connects, connected, execute_openStatements,
            failing, eq_comm]
        · have kept : attempt.unlinks = false := by
            by_contra unlinks
            apply keeps
            refine ⟨by simp [present], attempt, rfl, connects, failing, ?_⟩
            simpa using unlinks
          simp [openFile, connects, connected, execute_openStatements,
            failing, present, kept]
      · simp [openFile, connects]

/-- A file that holds no keys, or no file at all. -/
def Blank (disk : Disk) : Prop :=
  ∀ file, disk.path = some file → disk.table file = ∅

/-- Opening where nothing is there ends with a blank file or with nothing,
whatever fails. -/
theorem openFile_absent {disk : Disk} (attempts : List Attempt)
    (absent : disk.path = none) :
    (disk.openFile attempts).2.Blank ∧
      ∀ opened, (disk.openFile attempts).1 = .ok opened →
        (disk.openFile attempts).2.path = some opened := by
  have blank : ∀ {disk : Disk}, disk.path = none → disk.Blank := by
    intro disk absent file present
    rw [absent] at present
    cases present
  induction attempts generalizing disk with
  | nil => simp [openFile, blank absent]
  | cons attempt rest induction =>
      have created : disk.connect.2.Blank ∧
          disk.connect.2.path = some disk.connect.1 := by
        simp [connect, absent, Blank]
      by_cases connects : attempt.connects
      · by_cases failing : attempt.failing = none
        · simp [openFile, connects, execute_openStatements, failing, created]
        · by_cases unlinks : attempt.unlinks
          · simpa [openFile, connects, execute_openStatements, failing,
              created, unlinks] using @induction disk.connect.2.unlink rfl
          · simp [openFile, connects, execute_openStatements, failing,
              created, unlinks]
      · simp [openFile, connects, blank absent]

end Disk

end SovereignInference.SipPic
