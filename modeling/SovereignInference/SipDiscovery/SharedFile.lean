import SovereignInference.SipDiscovery.FileDirectory

/-!
# Announcements by several processes

An announcement reads the file and later replaces it as a whole.  Other
announcements may come in between, and what they added is then replaced.
-/

namespace SovereignInference.SipDiscovery

open Python Effects SipProtocol

/-- How far a call of `announce` has come. -/
inductive AnnounceProgress where
  | called
  | loaded (pubkey : Text) (entries : Dict)
  | returned (pubkey : Text)
  | failed (error : AnnounceError)

/-- The file and the calls of all processes. -/
structure SharedDirectory (ι : Type) where
  file : StoredFile
  call : ι → AnnounceProgress

/-- A call reads the file, or replaces it; the replacement may fail. -/
inductive DirectoryMove (ι : Type) where
  | read (i : ι)
  | replace (i : ι) (written : Except PyExc Unit)

section

variable (P : Platform) {ι : Type} [DecidableEq ι]
  (announced : ι → Dict × Option Text)

/-- `announce` up to the end of `_load_raw`. -/
def loadForAnnounce (file : StoredFile) (manifest : Dict)
    (baseUrl : Option Text) : AnnounceProgress :=
  match announcedKey P manifest baseUrl with
  | .error error => .failed error
  | .ok pubkey =>
      match loadRaw file with
      | .error error => .failed (.raised error)
      | .ok entries => .loaded pubkey entries

namespace SharedDirectory

def step (directory : SharedDirectory ι) :
    DirectoryMove ι → SharedDirectory ι
  | .read i =>
      match directory.call i with
      | .called =>
          { directory with
            call := Function.update directory.call i (loadForAnnounce P
              directory.file (announced i).1 (announced i).2) }
      | _ => directory
  | .replace i written =>
      match directory.call i with
      | .loaded pubkey entries =>
          match written with
          | .ok () =>
              { file := .ok (some
                  (.obj (withEntry entries pubkey (announced i).1)))
                call := Function.update directory.call i (.returned pubkey) }
          | .error error =>
              { directory with
                call := Function.update directory.call i
                  (.failed (.raised error)) }
      | _ => directory

def run (directory : SharedDirectory ι) (moves : List (DirectoryMove ι)) :
    SharedDirectory ι :=
  moves.foldl (step P announced) directory

/-- All calls before their first step. -/
def start (file : StoredFile) : SharedDirectory ι := ⟨file, fun _ => .called⟩

end SharedDirectory

end

/-- The file has an entry for the key. -/
def Lists (file : StoredFile) (pubkey : Text) : Prop :=
  ∃ entries, loadRaw file = .ok entries ∧
    (entries.find pubkey).isSome = true

namespace SharedDirectory

variable {P : Platform} {ι : Type} [DecidableEq ι]
  {announced : ι → Dict × Option Text} {directory : SharedDirectory ι}

/-- Every key that a call has returned has an entry. -/
def KeepsAll (directory : SharedDirectory ι) : Prop :=
  ∀ i pubkey, directory.call i = .returned pubkey →
    Lists directory.file pubkey

/-- Every key that a call has returned was there when this call read the file,
or is its own. -/
def ReadAll (directory : SharedDirectory ι) (i : ι) : Prop :=
  ∀ pubkey entries, directory.call i = .loaded pubkey entries →
    ∀ j other, directory.call j = .returned other →
      other = pubkey ∨ (entries.find other).isSome = true

theorem lists_withEntry {entries : Dict} {pubkey other : Text}
    {manifest : Dict} :
    Lists (.ok (some (.obj (withEntry entries pubkey manifest)))) other ↔
      other = pubkey ∨ (entries.find other).isSome = true := by
  have reads : loadRaw (.ok (some
      (.obj (withEntry entries pubkey manifest)))) =
        .ok (withEntry entries pubkey manifest) := rfl
  unfold Lists
  rw [reads]
  simp only [Except.ok.injEq, exists_eq_left']
  unfold withEntry
  by_cases same : other = pubkey
  · subst same
    simp [Dict.find_set_self]
  · rw [Dict.find_set_other same]
    simp [same]

/-- Loading does not return. -/
theorem loadForAnnounce_ne_returned {file : StoredFile} {manifest : Dict}
    {baseUrl : Option Text} {pubkey : Text} :
    loadForAnnounce P file manifest baseUrl ≠ .returned pubkey := by
  unfold loadForAnnounce
  intro returned
  split at returned
  · cases returned
  · split at returned <;> cases returned

theorem keepsAll_read {i : ι} (keeps : directory.KeepsAll) :
    (directory.step P announced (.read i)).KeepsAll := by
  cases progress : directory.call i with
  | called =>
      intro j pubkey returned
      simp only [step, progress] at returned ⊢
      by_cases same : j = i
      · subst same
        rw [Function.update_self] at returned
        exact absurd returned loadForAnnounce_ne_returned
      · rw [Function.update_of_ne same] at returned
        exact keeps j pubkey returned
  | _ => simpa only [step, progress] using keeps

/-- A call that has not read the file replaces nothing. -/
theorem step_replace_idle {i : ι} {written : Except PyExc Unit}
    (idle : ∀ pubkey entries, directory.call i ≠ .loaded pubkey entries) :
    directory.step P announced (.replace i written) = directory := by
  cases progress : directory.call i with
  | loaded pubkey entries => exact absurd progress (idle pubkey entries)
  | _ => simp only [step, progress]

/-- A replacement that fails returns nothing. -/
theorem keepsAll_replace_failed {i : ι} {error : PyExc}
    (keeps : directory.KeepsAll) :
    (directory.step P announced (.replace i (.error error))).KeepsAll := by
  cases progress : directory.call i with
  | loaded pubkey entries =>
      intro j other returned
      simp only [step, progress] at returned ⊢
      by_cases same : j = i
      · subst same
        simp [Function.update_self] at returned
      · rw [Function.update_of_ne same] at returned
        exact keeps j other returned
  | _ => simpa only [step, progress] using keeps

/-- A replacement keeps all entries exactly if the call has read them all. -/
theorem keepsAll_replace_iff {i : ι} (keeps : directory.KeepsAll) :
    (directory.step P announced (.replace i (.ok ()))).KeepsAll ↔
      directory.ReadAll i := by
  by_cases idle : ∀ pubkey entries, directory.call i ≠ .loaded pubkey entries
  · rw [step_replace_idle idle]
    refine iff_of_true keeps ?_
    intro pubkey entries progress
    exact absurd progress (idle pubkey entries)
  · push Not at idle
    obtain ⟨pubkey, entries, progress⟩ := idle
    have stepped : directory.step P announced (.replace i (.ok ())) =
        { file := .ok (some (.obj (withEntry entries pubkey (announced i).1)))
          call := Function.update directory.call i (.returned pubkey) } := by
      simp only [step, progress]
    rw [stepped]
    constructor
    · intro keepsAfter pubkey' entries' progress' j other returned
      rw [progress] at progress'
      cases progress'
      have different : j ≠ i := by
        rintro rfl
        rw [progress] at returned
        cases returned
      exact lists_withEntry.mp (keepsAfter j other
        (by simpa [Function.update_of_ne different] using returned))
    · intro readAll j other returned
      apply lists_withEntry.mpr
      by_cases same : j = i
      · subst same
        simp only [Function.update_self, AnnounceProgress.returned.injEq]
          at returned
        exact .inl returned.symm
      · exact readAll pubkey entries progress j other
          (by simpa [Function.update_of_ne same] using returned)

theorem run_append (directory : SharedDirectory ι)
    (before : List (DirectoryMove ι)) (move : DirectoryMove ι) :
    directory.run P announced (before ++ [move]) =
      (directory.run P announced before).step P announced move := by
  unfold run
  rw [List.foldl_append]
  rfl

omit [DecidableEq ι] in
private theorem keepsAll_start (file : StoredFile) :
    (start file : SharedDirectory ι).KeepsAll := nofun

/-- **No announcement is lost.**  In every state of a run the file has an entry
for every key that was returned, exactly if every call that replaced the file
had read the keys that were returned before. -/
theorem announcements_kept_iff (file : StoredFile)
    (moves : List (DirectoryMove ι)) :
    (∀ before later, moves = before ++ later →
      ((start file).run P announced before).KeepsAll) ↔
    ∀ before i later, moves = before ++ .replace i (.ok ()) :: later →
      ((start file).run P announced before).ReadAll i := by
  constructor
  · intro keeps before i later split
    have keepsBefore := keeps before _ split
    have keepsAfter := keeps (before ++ [.replace i (.ok ())]) later
      (by rw [split, List.append_assoc]; rfl)
    rw [run_append] at keepsAfter
    exact (keepsAll_replace_iff keepsBefore).mp keepsAfter
  · intro readAll before
    induction before using List.reverseRecOn with
    | nil =>
        intro later _
        exact keepsAll_start file
    | append_singleton before move induction =>
        intro later split
        rw [List.append_assoc] at split
        have keeps := induction _ split
        rw [run_append]
        cases move with
        | read i => exact keepsAll_read keeps
        | replace i written =>
            cases written with
            | error error => exact keepsAll_replace_failed keeps
            | ok done =>
                exact (keepsAll_replace_iff keeps).mpr
                  (readAll before i later split)

end SharedDirectory

def neighbourKey : Text := "ed25519:6kpsY-KcUgq-9VB7Ey7F-ZVHdq6-vnuSQh7qaRRG0iw"

def neighbourUnsigned : Dict :=
  ((unsignedManifest "m" "2026-01-01T00:00:00Z").set "provider_pubkey"
    (.str neighbourKey)).set "manifest_uri" (.str "https://neighbour.example")

def neighbourSignature : Text :=
  "ed25519:idhs0YMwHQv7XAt2a3xXzdPZOAiJ9HZmunPmoJI1q1G8YwHrWu1BKlzM81K3gq6vw-gq7J47N4AIHp5fnp3fAQ"

def nodesTable : SignatureTable where
  keys := []
  signatures := (neighbourKey, neighbourUnsigned, neighbourSignature) ::
    manifestTable.signatures

/-- The announcement of the neighbour, and that of the node. -/
def bothAnnounced (second : Bool) : Dict × Option Text :=
  if second then
    (neighbourUnsigned.set "signature" (.str neighbourSignature), none)
  else (olderManifest, none)

/-- Both calls read the missing file before either replaces it. -/
def crossedMoves : List (DirectoryMove Bool) :=
  [.read false, .read true, .replace false (.ok ()), .replace true (.ok ())]

private theorem bothAnnounced_keys (second : Bool) :
    announcedKey nodesTable.platform (bothAnnounced second).1
        (bothAnnounced second).2 =
      .ok (if second then neighbourKey else nodeKey) := by
  have verified : ∀ second, verifyProviderManifest nodesTable.platform
      (bothAnnounced second).1 = .ok true := by decide +kernel
  unfold announcedKey requireVerified
  rw [verified]
  cases second <;> rfl

/-- Both calls return, and the file lists the neighbour only. -/
theorem crossed_announcement_lost :
    ((SharedDirectory.start (.ok none)).run nodesTable.platform bothAnnounced
        crossedMoves).call false = .returned nodeKey ∧
      ((SharedDirectory.start (.ok none)).run nodesTable.platform
        bothAnnounced crossedMoves).call true = .returned neighbourKey ∧
      ¬ Lists ((SharedDirectory.start (.ok none)).run nodesTable.platform
        bothAnnounced crossedMoves).file nodeKey := by
  have loads : ∀ second, loadForAnnounce nodesTable.platform (.ok none)
      (bothAnnounced second).1 (bothAnnounced second).2 =
        .loaded (if second then neighbourKey else nodeKey) [] := by
    intro second
    unfold loadForAnnounce
    rw [bothAnnounced_keys]
    rfl
  have ended : (SharedDirectory.start (.ok none)).run nodesTable.platform
      bothAnnounced crossedMoves =
      { file := .ok (some
          (.obj (withEntry [] neighbourKey (bothAnnounced true).1)))
        call := fun second =>
          .returned (if second then neighbourKey else nodeKey) } := by
    simp only [SharedDirectory.run, crossedMoves, List.foldl_cons,
      List.foldl_nil, SharedDirectory.step, SharedDirectory.start, loads,
      Function.update_apply, Bool.true_eq_false, Bool.false_eq_true,
      if_true, if_false]
    congr 1
    funext second
    cases second <;> rfl
  rw [ended]
  refine ⟨rfl, rfl, ?_⟩
  rw [SharedDirectory.lists_withEntry]
  decide

end SovereignInference.SipDiscovery
