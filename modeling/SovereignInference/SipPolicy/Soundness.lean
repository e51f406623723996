import SovereignInference.Arithmetic.FloatCompare
import SovereignInference.SipPolicy.Policy
import SovereignInference.SipProtocol.SignatureTable

/-!
# What a policy guarantees

A permitted manifest meets every constraint of the policy, as long as the
manifest states what the constraint is about: a rate that is missing or no
number counts as zero, a NaN passes every bound, and the characters of a string
and the keys of a dict count as privacy modes.
-/

namespace SovereignInference.SipPolicy

open Python Effects SipProtocol Arithmetic

/-- `cap < n`, compared exactly. -/
def floatBelowInt (cap : Float) (n : Int) : Bool :=
  let (numerator, denominator) := floatScaled cap 0
  let signed : Int := if floatNegative cap then -numerator else numerator
  if cap.isFinite then signed < n * denominator
  else !cap.isNaN && floatNegative cap

/-- A number that is at most the cap. -/
def AtMost (cap : Float) : Json → Prop
  | .int n => cap.isNaN = false ∧ floatBelowInt cap n = false
  | .float x => x ≤ cap
  | _ => False

/-- The manifest states a rate under the key, and it is at most the cap. -/
def StatesRate (manifest : Dict) (cap : Float) (key : Text) : Prop :=
  ∃ rate, (pricingOf manifest).find key = some rate ∧ AtMost cap rate

/-- A rate other than a NaN; an integer above the cap is not rounded down to
it. -/
def Comparable (cap : Float) : Json → Prop
  | .int n => floatBelowInt cap n = true → cap < Float.ofInt n
  | .float x => x.isNaN = false
  | _ => False

/-- The kinds of attestations that are accepted: those listed, or all but
`none`. -/
def Policy.Accepts (policy : Policy) (kind : Text) : Prop :=
  if policy.acceptedTeeTypes = [] then kind ∈ teeTypes ∧ kind ≠ "none"
  else kind ∈ policy.acceptedTeeTypes

/-- The manifest holds an attestation of an accepted kind that the provider
has signed. -/
def Attested (P : Platform) (policy : Policy) (manifest : Dict) : Prop :=
  ∃ attestation key signature message kind,
    manifest.get "attestation" = .obj attestation ∧
    P.schemaErrors Schemas.attestation (.obj attestation) = [] ∧
    Dict.get attestation "provider_pubkey" = .str key ∧
    manifest.get "provider_pubkey" = .str key ∧
    Dict.get attestation "signature" = .str signature ∧
    signingBytes attestation = .ok message ∧
    verify P key message signature = true ∧
    Dict.get attestation "tee_type" = .str kind ∧ policy.Accepts kind

/-- Every configured constraint holds. -/
structure Policy.Met (P : Platform) (policy : Policy) (manifest : Dict)
    (reputationScore : Option Float) : Prop where
  notDenied : ∀ key ∈ policy.denyProviders,
    manifest.get "provider_pubkey" ≠ .str key
  allowed : policy.allowProviders ≠ [] →
    ∃ key ∈ policy.allowProviders, manifest.get "provider_pubkey" = .str key
  attested : policy.requireAttestation = true → Attested P policy manifest
  unit : policy.acceptedUnits ≠ [] →
    ∃ unit ∈ policy.acceptedUnits, (pricingOf manifest).get "unit" = .str unit
  inputRate : ∀ cap, policy.maxInputPer1m = some cap →
    StatesRate manifest cap "input_per_1m"
  outputRate : ∀ cap, policy.maxOutputPer1m = some cap →
    StatesRate manifest cap "output_per_1m"
  privacy : policy.requiredPrivacyModes ≠ [] →
    ∃ modes, manifest.get "privacy_modes" = .arr modes ∧
      ∀ mode ∈ policy.requiredPrivacyModes, Json.str mode ∈ modes
  reputation : ∀ minimum, policy.minReputation = some minimum →
    ∃ score, reputationScore = some score ∧ minimum ≤ score

/-- The manifest states numbers for the capped rates and a list of privacy
modes, and no bound and no score is a NaN. -/
structure Policy.Stated (policy : Policy) (manifest : Dict)
    (reputationScore : Option Float) : Prop where
  inputRate : ∀ cap, policy.maxInputPer1m = some cap → cap.isNaN = false ∧
    ∃ rate, (pricingOf manifest).find "input_per_1m" = some rate ∧
      Comparable cap rate
  outputRate : ∀ cap, policy.maxOutputPer1m = some cap → cap.isNaN = false ∧
    ∃ rate, (pricingOf manifest).find "output_per_1m" = some rate ∧
      Comparable cap rate
  privacy : policy.requiredPrivacyModes ≠ [] →
    (∀ modes, manifest.get "privacy_modes" ≠ .str modes) ∧
      ∀ modes, manifest.get "privacy_modes" ≠ .obj modes
  reputation : ∀ minimum score, policy.minReputation = some minimum →
    reputationScore = some score →
      minimum.isNaN = false ∧ score.isNaN = false

theorem verifyAttestation_eq_true {P : Platform} {statement : Dict}
    (verified : verifyAttestation P statement = .ok true) :
    P.schemaErrors Schemas.attestation (.obj statement) = [] ∧
      ∃ key signature message, statement.get "provider_pubkey" = .str key ∧
        statement.get "signature" = .str signature ∧
        signingBytes statement = .ok message ∧
        verify P key message signature = true := by
  unfold verifyAttestation at verified
  split_ifs at verified with noErrors
  · refine ⟨(iterErrors_isEmpty _ _).mp noErrors, ?_⟩
    unfold verifyDocument at verified
    split at verified
    · rename_i key signature isKey isSignature
      obtain ⟨message, bytes, signed⟩ := bind_eq_ok.mp verified
      exact ⟨key, signature, message, isKey, isSignature, bytes,
        Except.ok.inj signed⟩
    · cases verified
  · cases verified

theorem inSet_false {value : Json} {names : List Text}
    (outside : inSet value names = .ok false) :
    ∀ name ∈ names, value ≠ .str name := by
  rintro name member rfl
  have inside : names.any (Json.str name).isStr = true :=
    List.any_eq_true.mpr ⟨name, member, Json.isStr_iff.mpr rfl⟩
  simp only [inSet, inside] at outside
  cases outside

theorem inSet_true {value : Json} {names : List Text}
    (inside : inSet value names = .ok true) :
    ∃ name ∈ names, value = .str name := by
  have found : names.any value.isStr = true := by
    cases value with
    | arr _ => cases inside
    | obj _ => cases inside
    | _ => exact Except.ok.inj inside
  obtain ⟨name, member, isName⟩ := List.any_eq_true.mp found
  exact ⟨name, member, Json.isStr_iff.mp isName⟩

/-- A negated answer is no refusal if the answer is yes. -/
theorem not_bind_eq_false {answer : Except PyExc Bool}
    (passes : (do return !(← answer)) = Except.ok false) :
    answer = .ok true := by
  obtain ⟨yes, answered, negated⟩ := bind_eq_ok.mp passes
  rw [answered]
  cases yes with
  | true => rfl
  | false => cases negated

namespace Policy

variable {P : Platform} {policy : Policy} {manifest : Dict}
  {reputationScore : Option Float}

theorem notDenied_of_passes (passes : policy.denies manifest = .ok false) :
    ∀ key ∈ policy.denyProviders,
      manifest.get "provider_pubkey" ≠ .str key := by
  unfold denies at passes
  split_ifs at passes with nobody
  · intro key member
    rw [nobody] at member
    cases member
  · exact inSet_false passes

theorem allowed_of_passes (passes : policy.allowsNot manifest = .ok false)
    (listed : policy.allowProviders ≠ []) :
    ∃ key ∈ policy.allowProviders,
      manifest.get "provider_pubkey" = .str key := by
  unfold allowsNot at passes
  rw [if_neg listed] at passes
  exact inSet_true (not_bind_eq_false passes)

theorem unit_of_passes (passes : policy.refusesUnit manifest = .ok false)
    (listed : policy.acceptedUnits ≠ []) :
    ∃ unit ∈ policy.acceptedUnits,
      (pricingOf manifest).get "unit" = .str unit := by
  unfold refusesUnit at passes
  rw [if_neg listed] at passes
  exact inSet_true (not_bind_eq_false passes)

theorem accepts_of_mem {kind : Text}
    (member : kind ∈ if policy.acceptedTeeTypes = [] then
        teeTypes.filter (· ≠ text "none")
      else policy.acceptedTeeTypes) : policy.Accepts kind := by
  unfold Accepts
  split_ifs at member ⊢ with unlisted
  · have kept := List.mem_filter.mp member
    exact ⟨kept.1, by simpa using kept.2⟩
  · exact member

private theorem isAttested_eq_true {acceptedTeeTypes : List Text}
    (attested : isAttested P manifest acceptedTeeTypes = .ok true) :
    ∃ attestation kind, manifest.get "attestation" = .obj attestation ∧
      verifyAttestation P attestation = .ok true ∧
      (Dict.get attestation "provider_pubkey").pyEq
        (manifest.get "provider_pubkey") = true ∧
      Dict.get attestation "tee_type" = .str kind ∧
      kind ∈ acceptedTeeTypes := by
  unfold isAttested at attested
  cases held : manifest.get "attestation" with
  | obj attestation =>
      rw [held] at attested
      obtain ⟨valid, verified, rest⟩ := bind_eq_ok.mp attested
      cases valid with
      | false => cases rest
      | true =>
          simp only [Bool.not_true, Bool.false_eq_true, if_false] at rest
          split_ifs at rest with otherKey
          · cases rest
          · obtain ⟨kind, member, isKind⟩ := inSet_true rest
            exact ⟨attestation, kind, rfl, verified, by simpa using otherKey,
              isKind, member⟩
  | _ =>
      rw [held] at attested
      cases attested

theorem attested_of_passes
    (passes : policy.lacksAttestation P manifest = .ok false)
    (required : policy.requireAttestation = true) :
    Attested P policy manifest := by
  unfold lacksAttestation at passes
  rw [if_pos required] at passes
  obtain ⟨attestation, kind, held, verified, sameKey, isKind, member⟩ :=
    isAttested_eq_true (not_bind_eq_false passes)
  obtain ⟨noErrors, key, signature, message, isKey, isSignature, bytes,
    signed⟩ := verifyAttestation_eq_true verified
  rw [isKey] at sameKey
  exact ⟨attestation, key, signature, message, kind, held, noErrors, isKey,
    Json.pyEq_str_left.mp sameKey, isSignature, bytes, signed, isKind,
    accepts_of_mem member⟩

/-- Under a cap that nothing exceeds, a rate is at most the cap exactly if it
can be compared with it. -/
theorem statesRate_iff {cap : Float} {key : Text}
    (passes : exceeds manifest (some cap) key = .ok false) :
    StatesRate manifest cap key ↔ cap.isNaN = false ∧
      ∃ rate, (pricingOf manifest).find key = some rate ∧
        Comparable cap rate := by
  obtain ⟨level, priced, notAbove⟩ := bind_eq_ok.mp passes
  have below : ¬ cap < level := by simpa using notAbove
  unfold StatesRate
  rw [← exists_and_left]
  refine exists_congr fun rate => ?_
  rw [and_left_comm]
  refine and_congr_right fun stated => ?_
  unfold price at priced
  rw [stated, Option.getD_some] at priced
  cases rate with
  | int n =>
      simp only [Json.toFloat, floatOfInt] at priced
      split_ifs at priced with fits
      · cases priced
        simp only [AtMost, Comparable, below, imp_false, Bool.not_eq_true]
  | float x =>
      cases priced
      simp only [AtMost, Comparable]
      rw [le_iff_not_lt]
      constructor
      · rintro ⟨number, isCap, _⟩
        exact ⟨isCap, number⟩
      · rintro ⟨isCap, number⟩
        exact ⟨number, isCap, below⟩
  | _ => simp [AtMost, Comparable]

private theorem iterate_of_advertised {value : Json} {items : List Json}
    (listed : advertised value = .ok items) : value.iterate = .ok items := by
  obtain ⟨all, iterated, hashed⟩ := bind_eq_ok.mp listed
  split_ifs at hashed
  cases hashed
  exact iterated

/-- Where nothing is lacking, the modes are listed exactly if they are neither
a string nor a dict. -/
theorem privacy_iff (passes : policy.lacksPrivacy manifest = .ok false)
    (required : policy.requiredPrivacyModes ≠ []) :
    (∃ modes, manifest.get "privacy_modes" = .arr modes ∧
      ∀ mode ∈ policy.requiredPrivacyModes, Json.str mode ∈ modes) ↔
    (∀ modes, manifest.get "privacy_modes" ≠ .str modes) ∧
      ∀ modes, manifest.get "privacy_modes" ≠ .obj modes := by
  unfold lacksPrivacy at passes
  rw [if_neg required] at passes
  obtain ⟨items, listed, covers⟩ := bind_eq_ok.mp passes
  have all : ∀ mode ∈ policy.requiredPrivacyModes, Json.str mode ∈ items := by
    intro mode member
    have covered : policy.requiredPrivacyModes.all
        (fun mode => items.any (Json.isStr mode)) = true := by
      simpa using covers
    have found := List.all_eq_true.mp covered mode member
    obtain ⟨item, isItem, isMode⟩ := List.any_eq_true.mp found
    rw [← Json.isStr_iff.mp isMode]
    exact isItem
  constructor
  · rintro ⟨modes, isList, _⟩
    rw [isList]
    exact ⟨nofun, nofun⟩
  · rintro ⟨notString, notDict⟩
    have iterated := iterate_of_advertised listed
    by_cases truthy : (manifest.get "privacy_modes").truthy = true
    · rw [if_pos truthy] at iterated
      cases isModes : manifest.get "privacy_modes" with
      | arr modes =>
          rw [isModes] at iterated
          cases iterated
          exact ⟨items, rfl, all⟩
      | str modes => exact absurd isModes (notString modes)
      | obj modes => exact absurd isModes (notDict modes)
      | _ =>
          rw [isModes] at iterated
          cases iterated
    · rw [if_neg truthy] at iterated
      cases iterated
      obtain ⟨mode, rest, listed⟩ := List.exists_cons_of_ne_nil required
      exact absurd (all mode (by rw [listed]; exact List.mem_cons_self))
        List.not_mem_nil

theorem reputation_iff {minimum : Float}
    (passes : policy.lacksReputation reputationScore = false)
    (required : policy.minReputation = some minimum) :
    (∃ score, reputationScore = some score ∧ minimum ≤ score) ↔
      ∀ score, reputationScore = some score →
        minimum.isNaN = false ∧ score.isNaN = false := by
  unfold lacksReputation at passes
  rw [required] at passes
  cases reputationScore with
  | none => cases passes
  | some score =>
      have notBelow : ¬ score < minimum := by simpa using passes
      simp only [Option.some.injEq, exists_eq_left', forall_eq']
      rw [le_iff_not_lt]
      simp [notBelow]

/-- No check refuses. -/
theorem permits_ok_iff :
    (∃ decision, policy.permits P manifest reputationScore = .ok decision ∧
      decision.ok = true) ↔
    ∀ check ∈ policy.checks P manifest reputationScore,
      check.2 = .ok false := by
  unfold permits
  generalize policy.checks P manifest reputationScore = checks
  induction checks with
  | nil => simp [firstRefusal]
  | cons check rest induction =>
      obtain ⟨reason, refuses⟩ := check
      simp only [firstRefusal, List.forall_mem_cons]
      cases refuses with
      | error error => simp
      | ok refused =>
          cases refused with
          | true => simp
          | false => simpa using induction

/-- The manifest is permitted. -/
def Permits (P : Platform) (policy : Policy) (manifest : Dict)
    (reputationScore : Option Float) : Prop :=
  ∃ decision, policy.permits P manifest reputationScore = .ok decision ∧
    decision.ok = true

/-- A permitted manifest meets the constraints exactly if it states what they
are about. -/
theorem met_iff_stated
    (permitted : policy.Permits P manifest reputationScore) :
    policy.Met P manifest reputationScore ↔
      policy.Stated manifest reputationScore := by
  have passes := permits_ok_iff.mp permitted
  simp only [checks, List.forall_mem_cons, Except.ok.injEq] at passes
  obtain ⟨denied, allowed, attested, unit, inputRate, outputRate, privacy,
    reputation, _⟩ := passes
  constructor
  · intro met
    refine ⟨?_, ?_, ?_, ?_⟩
    · intro cap capped
      rw [capped] at inputRate
      exact (statesRate_iff inputRate).mp (met.inputRate cap capped)
    · intro cap capped
      rw [capped] at outputRate
      exact (statesRate_iff outputRate).mp (met.outputRate cap capped)
    · intro required
      exact (privacy_iff privacy required).mp (met.privacy required)
    · intro minimum score required
      exact (reputation_iff reputation required).mp
        (met.reputation minimum required) score
  · intro stated
    refine ⟨notDenied_of_passes denied, allowed_of_passes allowed,
      attested_of_passes attested, unit_of_passes unit, ?_, ?_, ?_, ?_⟩
    · intro cap capped
      rw [capped] at inputRate
      exact (statesRate_iff inputRate).mpr (stated.inputRate cap capped)
    · intro cap capped
      rw [capped] at outputRate
      exact (statesRate_iff outputRate).mpr (stated.outputRate cap capped)
    · intro required
      exact (privacy_iff privacy required).mpr (stated.privacy required)
    · intro minimum required
      exact (reputation_iff reputation required).mpr fun score =>
        stated.reputation minimum score required

section

variable {α : Type} (manifestOf : α → Dict)
  (getScore : Option (Text → Option Float))

/-- The decision on an entry with the score of its provider. -/
def decideOn (P : Platform) (policy : Policy) (entry : α) :
    Except PyExc PolicyDecision := do
  let score ← scoreOf P (manifestOf entry) getScore
  policy.permits P (manifestOf entry) score

/-- A decision is reached, and it permits the entry. -/
def permitsEntry (P : Platform) (policy : Policy) (entry : α) : Bool :=
  match decideOn manifestOf getScore P policy entry with
  | .ok decision => decision.ok
  | .error _ => false

/-- Filtering returns if a decision is reached on every entry, and then keeps
exactly the permitted ones in order. -/
theorem filterEntries_eq_ok_iff (entries kept : List α) :
    filterEntries P policy manifestOf getScore entries = .ok kept ↔
      (∀ entry ∈ entries, ∃ decision,
        decideOn manifestOf getScore P policy entry = .ok decision) ∧
      kept = entries.filter (permitsEntry manifestOf getScore P policy) := by
  induction entries generalizing kept with
  | nil =>
      simp only [filterEntries, Except.ok.injEq, List.not_mem_nil,
        false_implies, implies_true, true_and, List.filter_nil]
      exact eq_comm
  | cons entry rest induction =>
      have unfolded : filterEntries P policy manifestOf getScore
          (entry :: rest) = do
            let decision ← decideOn manifestOf getScore P policy entry
            let others ← filterEntries P policy manifestOf getScore rest
            return if decision.ok then entry :: others else others := by
        simp only [filterEntries, decideOn, bind_assoc]
      rw [unfolded, List.forall_mem_cons, List.filter_cons]
      unfold permitsEntry at induction ⊢
      cases decided : decideOn manifestOf getScore P policy entry with
      | error error => simp
      | ok decision =>
          simp only [ok_bind, Except.ok.injEq, exists_eq', true_and]
          rw [bind_eq_ok]
          constructor
          · rintro ⟨others, filtered, same⟩
            obtain ⟨decides, rfl⟩ := (induction others).mp filtered
            exact ⟨decides, (Except.ok.inj same).symm⟩
          · rintro ⟨decides, rfl⟩
            exact ⟨_, (induction _).mpr ⟨decides, rfl⟩, rfl⟩

end

/-- **A policy is sound.**  A permitted manifest meets every constraint exactly
if it states a number for each capped rate, lists its privacy modes, and no
bound or score is a NaN; filtering keeps exactly the permitted entries. -/
theorem permits_sound_iff (P : Platform) (policy : Policy) :
    (∀ manifest reputationScore,
      policy.Permits P manifest reputationScore →
      (policy.Met P manifest reputationScore ↔
        policy.Stated manifest reputationScore)) ∧
    ∀ {α : Type} (manifestOf : α → Dict) getScore (entries kept : List α),
      filterEntries P policy manifestOf getScore entries = .ok kept ↔
        (∀ entry ∈ entries, ∃ decision,
          decideOn manifestOf getScore P policy entry = .ok decision) ∧
        kept = entries.filter
          (permitsEntry manifestOf getScore P policy) := by
  constructor
  · intro manifest reputationScore permitted
    exact met_iff_stated permitted
  · intro α manifestOf getScore entries kept
    exact filterEntries_eq_ok_iff manifestOf getScore entries kept

def thrifty : Policy :=
  { Policy.default with
    acceptedUnits := ["usdc"]
    maxInputPer1m := some 0.5
    requiredPrivacyModes := ["relay"]
    minReputation := some 0.5 }

def offer (rate : Json) : Dict :=
  [("provider_pubkey", .str "ed25519:provider"),
    ("pricing", .obj [("unit", .str "usdc"), ("input_per_1m", rate)]),
    ("privacy_modes", .arr [.str "direct", .str "relay"])]

def noSignatures : SignatureTable := ⟨[], []⟩

/-- A rate of two fifths is stated and below the cap. -/
theorem permits_sound_thrifty :
    thrifty.Met noSignatures.platform (offer (.float 0.4)) (some 0.75) := by
  have permitted : thrifty.Permits noSignatures.platform
      (offer (.float 0.4)) (some 0.75) :=
    ⟨⟨true, ""⟩, by decide +kernel, rfl⟩
  apply ((permits_sound_iff noSignatures.platform thrifty).1 _ _
    permitted).mpr
  refine ⟨?_, nofun, ?_, ?_⟩
  · rintro cap ⟨⟩
    have number : (0.4 : Float).isNaN = false := by decide +kernel
    exact ⟨by decide +kernel, _, rfl, number⟩
  · intro _
    exact ⟨nofun, nofun⟩
  · rintro minimum score ⟨⟩ ⟨⟩
    exact ⟨by decide +kernel, by decide +kernel⟩

/-- What is no number passes the cap. -/
theorem unstated_rate_permitted :
    thrifty.Permits noSignatures.platform (offer (.str "on request"))
        (some 0.75) ∧
      ¬ thrifty.Met noSignatures.platform (offer (.str "on request"))
        (some 0.75) := by
  constructor
  · exact ⟨⟨true, ""⟩, by decide +kernel, rfl⟩
  · intro met
    obtain ⟨rate, stated, atMost⟩ := met.inputRate 0.5 rfl
    cases stated
    exact atMost

end Policy

end SovereignInference.SipPolicy
