import SovereignInference.SipProtocol.Artifacts

/-!
# Provider-selection policies

A policy says which providers may be used: the first of its checks that
refuses a manifest gives the reason.  Filtering keeps the entries that no
check refuses.
-/

namespace SovereignInference.SipPolicy

open Python Effects SipProtocol

/-- `x in set(names)`, which hashes `x`. -/
def inSet (value : Json) (names : List Text) : Except PyExc Bool :=
  match value with
  | .arr _ | .obj _ => .error .typeError
  | value => .ok (names.any value.isStr)

def teeTypes : List Text :=
  ["intel-tdx", "amd-sev-snp", "nvidia-cc", "aws-nitro", "none"]

/-- `is_attested` without a verifier of hardware quotes. -/
def isAttested (P : Platform) (manifest : Dict)
    (acceptedTeeTypes : List Text) : Except PyExc Bool :=
  match manifest.get "attestation" with
  | .obj attestation => do
      if !(← verifyAttestation P attestation) then return false
      let sameKey := (Dict.get attestation "provider_pubkey").pyEq
        (manifest.get "provider_pubkey")
      if !sameKey then return false
      inSet (Dict.get attestation "tee_type") acceptedTeeTypes
  | _ => .ok false

structure PolicyDecision where
  ok : Bool
  reason : Text
  deriving DecidableEq

structure Policy where
  requireAttestation : Bool
  acceptedTeeTypes : List Text
  acceptedUnits : List Text
  maxInputPer1m : Option Float
  maxOutputPer1m : Option Float
  requiredPrivacyModes : List Text
  allowProviders : List Text
  denyProviders : List Text
  minReputation : Option Float

/-- `Policy()`. -/
def Policy.default : Policy :=
  ⟨false, [], [], none, none, [], [], [], none⟩

/-- `_price`: what is no number counts as nothing, but an integer too large
for a float raises. -/
def price (pricing : Dict) (key : Text) : Except PyExc Float :=
  match ((pricing.find key).getD (.float 0)).toFloat with
  | .error .typeError | .error .valueError => .ok 0
  | rate => rate

/-- The `pricing` of a manifest, or nothing. -/
def pricingOf (manifest : Dict) : Dict :=
  (manifest.get "pricing").asDict.getD []

namespace Policy

variable (P : Platform) (policy : Policy) (manifest : Dict)

def denies : Except PyExc Bool :=
  if policy.denyProviders = [] then .ok false
  else inSet (manifest.get "provider_pubkey") policy.denyProviders

def allowsNot : Except PyExc Bool :=
  if policy.allowProviders = [] then .ok false
  else do
    return !(← inSet (manifest.get "provider_pubkey") policy.allowProviders)

/-- Without a list of kinds any is accepted but `none`. -/
def lacksAttestation : Except PyExc Bool :=
  if policy.requireAttestation then do
    let accepted := if policy.acceptedTeeTypes = [] then
        teeTypes.filter (· ≠ text "none")
      else policy.acceptedTeeTypes
    return !(← isAttested P manifest accepted)
  else .ok false

def refusesUnit : Except PyExc Bool :=
  if policy.acceptedUnits = [] then .ok false
  else do
    return !(← inSet ((pricingOf manifest).get "unit") policy.acceptedUnits)

/-- The rate under the key is above the limit. -/
def exceeds (manifest : Dict) (limit : Option Float) (key : Text) :
    Except PyExc Bool :=
  match limit with
  | none => .ok false
  | some limit => do return decide (limit < (← price (pricingOf manifest) key))

/-- `set(x)` of a list whose items can be hashed. -/
def advertised (value : Json) : Except PyExc (List Json) := do
  let items ← value.iterate
  if items.any fun item => item.asList.isSome || item.asDict.isSome then
    .error .typeError
  else return items

def lacksPrivacy : Except PyExc Bool :=
  if policy.requiredPrivacyModes = [] then .ok false
  else do
    let modes := manifest.get "privacy_modes"
    let items ← advertised (if modes.truthy then modes else .arr [])
    return !policy.requiredPrivacyModes.all fun mode =>
      items.any (Json.isStr mode)

def lacksReputation (reputationScore : Option Float) : Bool :=
  match policy.minReputation, reputationScore with
  | none, _ => false
  | some _, none => true
  | some minimum, some score => score < minimum

/-- The checks in order, each with the reason it gives. -/
def checks (reputationScore : Option Float) :
    List (Text × Except PyExc Bool) :=
  [("provider_denylisted", policy.denies manifest),
    ("not_allowlisted", policy.allowsNot manifest),
    ("attestation_required", policy.lacksAttestation P manifest),
    ("unit_not_accepted", policy.refusesUnit manifest),
    ("input_price_too_high",
      exceeds manifest policy.maxInputPer1m "input_per_1m"),
    ("output_price_too_high",
      exceeds manifest policy.maxOutputPer1m "output_per_1m"),
    ("privacy_mode_unmet", policy.lacksPrivacy manifest),
    ("reputation_too_low", .ok (policy.lacksReputation reputationScore))]

def firstRefusal : List (Text × Except PyExc Bool) →
    Except PyExc PolicyDecision
  | [] => .ok ⟨true, ""⟩
  | (reason, refuses) :: rest => do
      if ← refuses then return ⟨false, reason⟩
      firstRefusal rest

def permits (reputationScore : Option Float) : Except PyExc PolicyDecision :=
  firstRefusal (policy.checks P manifest reputationScore)

variable {α : Type} (manifestOf : α → Dict)
  (getScore : Option (Text → Option Float))

/-- The reputation of the provider of a manifest, if scores are known. -/
def scoreOf : Except PyExc (Option Float) :=
  match getScore with
  | none => .ok none
  | some score => do
      return score (← (manifest.get "provider_pubkey").toStr P.isPrintable)

def filterEntries : List α → Except PyExc (List α)
  | [] => .ok []
  | entry :: rest => do
      let score ← scoreOf P (manifestOf entry) getScore
      let decision ← policy.permits P (manifestOf entry) score
      let others ← filterEntries rest
      return if decision.ok then entry :: others else others

/-- **The entries of a list are filtered independently of those after it.** -/
theorem filterEntries_append (entries others : List α) :
    filterEntries P policy manifestOf getScore (entries ++ others) = do
      let kept ← filterEntries P policy manifestOf getScore entries
      let keptOthers ← filterEntries P policy manifestOf getScore others
      return kept ++ keptOthers := by
  induction entries with
  | nil =>
      simp only [List.nil_append, filterEntries, ok_bind]
      cases filterEntries P policy manifestOf getScore others <;> rfl
  | cons entry rest induction =>
      simp only [List.cons_append, filterEntries, induction]
      cases scoreOf P (manifestOf entry) getScore with
      | error error => rfl
      | ok score =>
          simp only [ok_bind]
          cases policy.permits P (manifestOf entry) score with
          | error error => rfl
          | ok decision =>
              simp only [ok_bind]
              cases filterEntries P policy manifestOf getScore rest with
              | error error => rfl
              | ok kept =>
                  simp only [ok_bind]
                  cases filterEntries P policy manifestOf getScore others with
                  | error error => rfl
                  | ok keptOthers =>
                      cases decision.ok <;> rfl

theorem filterEntries_isOk {entries : List α}
    (permitted : ∀ entry ∈ entries,
      ∃ score, scoreOf P (manifestOf entry) getScore = .ok score ∧
        ∃ decision, policy.permits P (manifestOf entry) score =
          .ok decision) :
    ∃ kept, filterEntries P policy manifestOf getScore entries =
      .ok kept := by
  induction entries with
  | nil => exact ⟨[], rfl⟩
  | cons entry rest induction =>
      obtain ⟨score, scores, decision, decides⟩ :=
        permitted entry List.mem_cons_self
      obtain ⟨kept, keeps⟩ := induction fun other member =>
        permitted other (List.mem_cons_of_mem _ member)
      exact ⟨if decision.ok then entry :: kept else kept,
        by simp [filterEntries, scores, decides, keeps]⟩

/-- A decision is reached if every check can be made. -/
theorem firstRefusal_isOk {checks : List (Text × Except PyExc Bool)}
    (made : ∀ check ∈ checks, ∃ refuses, check.2 = .ok refuses) :
    ∃ decision, firstRefusal checks = .ok decision := by
  induction checks with
  | nil => exact ⟨_, rfl⟩
  | cons check rest induction =>
      obtain ⟨refuses, isMade⟩ := made check List.mem_cons_self
      obtain ⟨reason, outcome⟩ := check
      obtain rfl : outcome = .ok refuses := isMade
      cases refuses with
      | true => exact ⟨_, rfl⟩
      | false =>
          exact induction fun other member =>
            made other (List.mem_cons_of_mem _ member)

end Policy

end SovereignInference.SipPolicy
