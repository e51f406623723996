import SovereignInference.Python.Rfc3339
import SovereignInference.SipDiscovery.Directory
import Mathlib.Tactic.NormNum

/-!
# The manifest published last

Discovery compares the texts of `published_at`.  Of two manifests of a key it
keeps the one published at the later instant exactly if the earlier one is
also written before the other, which texts of one form are and texts with
different offsets or fractions need not be.
-/

namespace SovereignInference.SipDiscovery

open Python Effects SipProtocol Collections Rfc3339

/-- In either order of the two, the one published later is kept. -/
def KeepsLatest (P : Platform) (model : Option Text)
    (first second : DiscoveredProvider) (stamp other : Timestamp) : Prop :=
  ∀ order ∈ [[first, second], [second, first]],
    ∃ kept, filterAndDedupe P model order = .ok [kept] ∧
      (stamp.instant < other.instant → kept = second) ∧
        (other.instant < stamp.instant → kept = first)

/-- Whichever was published earlier is written before the other. -/
def WrittenInOrder (stamp other : Timestamp) : Prop :=
  (stamp.instant < other.instant → stamp.WrittenBefore other) ∧
    (other.instant < stamp.instant → other.WrittenBefore stamp)

variable {P : Platform} {model : Option Text}
  {first second : DiscoveredProvider} {stamp other : Timestamp}

private theorem freshest_pair {α κ τ : Type} [LinearOrder τ] [DecidableEq κ]
    {key : α → κ} {stamp : α → τ} {a b : α} (sameKey : key a = key b) :
    freshest key stamp [a, b] = if stamp a < stamp b then [b] else [a] := by
  have start : keep key stamp [] a = [a] := rfl
  have found : [a].find? (fun other => key other = key b) = some a := by
    simp [sameKey]
  unfold freshest
  rw [List.foldl_cons, start, List.foldl_cons, List.foldl_nil,
    keep_known found]
  split_ifs
  · simp [sameKey]
  · rfl

/-- Of two readable providers of a key, the second is kept if its text is
greater. -/
theorem filterAndDedupe_pair
    (readable : ∀ provider ∈ [first, second], provider.Readable P)
    (wanted : ∀ provider ∈ [first, second],
      isWanted model provider = .ok true)
    (sameKey : first.pubkey = second.pubkey) :
    filterAndDedupe P model [first, second] =
      .ok [if first.published < second.published then second else first] := by
  have deduped := @filterAndDedupe_eq P [first, second] model (fun _ => true)
    wanted readable
  rw [List.filter_true, freshest_pair sameKey] at deduped
  rw [deduped]
  split_ifs <;> rfl

/-- What a pair of providers gives to the loop. -/
structure Rivals (P : Platform) (model : Option Text)
    (first second : DiscoveredProvider) (stamp other : Timestamp) : Prop where
  verified : verifyProviderManifest P first.manifest = .ok true
  verifiedOther : verifyProviderManifest P second.manifest = .ok true
  wanted : isWanted model first = .ok true
  wantedOther : isWanted model second = .ok true
  sameKey : first.pubkey = second.pubkey
  published : first.published = stamp.text
  publishedOther : second.published = other.text

namespace Rivals

theorem symm (rivals : Rivals P model first second stamp other) :
    Rivals P model second first other stamp :=
  ⟨rivals.verifiedOther, rivals.verified, rivals.wantedOther, rivals.wanted,
    rivals.sameKey.symm, rivals.publishedOther, rivals.published⟩

theorem kept (sound : P.SchemaSound)
    (rivals : Rivals P model first second stamp other) :
    filterAndDedupe P model [first, second] =
      .ok [if stamp.text < other.text then second else first] := by
  have readable : ∀ provider ∈ [first, second], provider.Readable P := by
    intro provider member
    simp only [List.mem_cons, List.not_mem_nil, or_false] at member
    rcases member with rfl | rfl
    · exact readable_of_valid sound rivals.verified
    · exact readable_of_valid sound rivals.verifiedOther
  have wanted : ∀ provider ∈ [first, second],
      isWanted model provider = .ok true := by
    intro provider member
    simp only [List.mem_cons, List.not_mem_nil, or_false] at member
    rcases member with rfl | rfl
    · exact rivals.wanted
    · exact rivals.wantedOther
  rw [filterAndDedupe_pair readable wanted rivals.sameKey, rivals.published,
    rivals.publishedOther]

end Rivals

/-- **When the manifest published last is kept.** -/
theorem keepsLatest_iff (sound : P.SchemaSound)
    (rivals : Rivals P model first second stamp other) :
    KeepsLatest P model first second stamp other ↔
      WrittenInOrder stamp other := by
  have inOrder := rivals.kept sound
  have reversed := rivals.symm.kept sound
  unfold WrittenInOrder
  rw [← Timestamp.text_lt_iff, ← Timestamp.text_lt_iff]
  constructor
  · intro keeps
    -- keeping the wrong one of two texts would make the two the same
    have notSame : stamp.instant ≠ other.instant → first ≠ second := by
      rintro different rfl
      exact different (Timestamp.instant_congr
        (rivals.published.symm.trans rivals.publishedOther))
    obtain ⟨kept, isKept, later, _⟩ := keeps _ List.mem_cons_self
    obtain ⟨kept', isKept', _, later'⟩ :=
      keeps [second, first] (by simp)
    rw [inOrder, Except.ok.injEq, List.cons.injEq] at isKept
    rw [reversed, Except.ok.injEq, List.cons.injEq] at isKept'
    constructor
    · intro earlier
      by_contra notLess
      rw [if_neg notLess] at isKept
      exact notSame earlier.ne (isKept.1.trans (later earlier))
    · intro earlier
      by_contra notLess
      rw [if_neg notLess] at isKept'
      exact notSame earlier.ne' (isKept'.1.trans (later' earlier)).symm
  · rintro ⟨ascending, descending⟩ order member
    simp only [List.mem_cons, List.not_mem_nil, or_false] at member
    rcases member with rfl | rfl
    · refine ⟨_, inOrder, ?_, ?_⟩
      · intro earlier
        rw [if_pos (ascending earlier)]
      · intro earlier
        rw [if_neg (descending earlier).not_gt]
    · refine ⟨_, reversed, ?_, ?_⟩
      · intro earlier
        rw [if_neg (ascending earlier).not_gt]
      · intro earlier
        rw [if_pos (descending earlier)]

/-- The beginning of a month, and a fraction of a second. -/
def monthStart (month : Nat) (inYear : 1 ≤ month ∧ month ≤ 12)
    (fraction : List (Fin 10)) : Timestamp where
  year := 2026
  month := month
  day := 1
  lowerT := false
  hour := 0
  minute := 0
  second := 0
  fraction := fraction
  zone := .utc false
  year_lt := by decide
  month_mem := inYear
  day_mem := by
    unfold DateTime.daysInMonth
    split_ifs <;> decide
  hour_lt := by decide
  minute_lt := by decide
  second_le := by decide
  zone_valid := trivial

/-- Two manifests of whole seconds. -/
theorem keepsLatest_iff_whole_seconds :
    KeepsLatest manifestTable.platform none (provided olderManifest)
      (provided newerManifest) (monthStart 1 (by decide) [])
        (monthStart 2 (by decide) []) := by
  have rivals : Rivals manifestTable.platform none (provided olderManifest)
      (provided newerManifest) (monthStart 1 (by decide) [])
        (monthStart 2 (by decide) []) :=
    ⟨olderManifest_verified, newerManifest_verified, rfl, rfl, by decide,
      by decide +kernel, by decide +kernel⟩
  refine (keepsLatest_iff manifestTable.platform_schemaSound rivals).mpr ?_
  exact ⟨Timestamp.writtenBefore_of_uniform rfl rfl rfl,
    Timestamp.writtenBefore_of_uniform rfl rfl rfl⟩

/-- The same node half a second later, with a clock that shows microseconds. -/
def fractionUnsigned : Dict :=
  unsignedManifest "m" "2026-01-01T00:00:00.500000Z"

def fractionSignature : Text :=
  "ed25519:A2n2XQxDYCFHFCTMWH6lh4PaKI1EoEVBxK6wRAqBscjKnmcGlw2qXj97fw5ClIOi6tcXBMQmLXAFykeS2-e2Bw"

def fractionTable : SignatureTable where
  keys := []
  signatures := [(nodeKey, olderUnsigned, olderSignature),
    (nodeKey, fractionUnsigned, fractionSignature)]

def fractionManifest : Dict :=
  fractionUnsigned.set "signature" (.str fractionSignature)

/-- The manifest without a fraction is kept, though it is half a second
older. -/
theorem later_fraction_dropped :
    Rivals fractionTable.platform none (provided olderManifest)
        (provided fractionManifest) (monthStart 1 (by decide) [])
          (monthStart 1 (by decide) [5, 0, 0, 0, 0, 0]) ∧
      ¬ KeepsLatest fractionTable.platform none (provided olderManifest)
        (provided fractionManifest) (monthStart 1 (by decide) [])
          (monthStart 1 (by decide) [5, 0, 0, 0, 0, 0]) := by
  have rivals : Rivals fractionTable.platform none (provided olderManifest)
      (provided fractionManifest) (monthStart 1 (by decide) [])
        (monthStart 1 (by decide) [5, 0, 0, 0, 0, 0]) :=
    ⟨by decide +kernel, by decide +kernel, rfl, rfl, by decide +kernel,
      by decide +kernel, by decide +kernel⟩
  refine ⟨rivals, ?_⟩
  intro keeps
  obtain ⟨kept, isKept, later, _⟩ := keeps _ List.mem_cons_self
  rw [rivals.kept fractionTable.platform_schemaSound,
    if_neg (by decide +kernel), Except.ok.injEq, List.cons.injEq] at isKept
  have halfSecond : (monthStart 1 (by decide) []).instant <
      (monthStart 1 (by decide) [5, 0, 0, 0, 0, 0]).instant := by
    refine Prod.Lex.toLex_lt_toLex.mpr (.inr ⟨?_, ?_⟩)
    · simp only [Timestamp.minuteNumber, monthStart]
    · norm_num [monthStart, fractionValue]
  have published := congrArg DiscoveredProvider.published
    (isKept.1.trans (later halfSecond))
  exact absurd published (by decide +kernel)

end SovereignInference.SipDiscovery
