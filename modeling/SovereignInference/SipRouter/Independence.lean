import SovereignInference.Collections.StableSort
import SovereignInference.SipPolicy.Policy
import SovereignInference.SipRouter.Scores

/-!
# Providers do not disturb each other

Scores and policies look at one entry at a time.  As long as no manifest
states a rate that is too large for a float, nothing raises and the other
entries make no difference to which entries are kept and in what order.
-/

namespace SovereignInference.SipRouter

open Python Effects SipProtocol SipPolicy Arithmetic Collections

variable {P : Platform}

section

variable {score : ProviderEntry → Except PyExc Float} {τ : Type}

/-- The score of an entry where it can be scored. -/
def valueOf (score : ProviderEntry → Except PyExc Float)
    (entry : ProviderEntry) : Float :=
  match score entry with
  | .ok value => value
  | .error _ => 0

theorem scoreEach_eq {entries : List ProviderEntry}
    (scored : ∀ entry ∈ entries, ∃ value, score entry = .ok value) :
    scoreEach score entries =
      .ok (entries.map fun entry => (valueOf score entry, entry)) := by
  induction entries with
  | nil => rfl
  | cons entry rest induction =>
      obtain ⟨value, scores⟩ := scored entry List.mem_cons_self
      have tail := induction fun other member =>
        scored other (List.mem_cons_of_mem _ member)
      simp [scoreEach, scores, tail, valueOf]

/-- The first entry is placed at or before the second. -/
def Before (score : ProviderEntry → Except PyExc Float)
    (first second : τ × ProviderEntry) : Prop :=
  position (unpacked (valueOf score second.2)) ≤
    position (unpacked (valueOf score first.2))

instance : DecidableRel (@Before τ score) := fun _ _ =>
  inferInstanceAs (Decidable (_ ≤ _))

instance : Std.Total (@Before τ score) := ⟨fun _ _ => le_total _ _⟩

instance : IsTrans (τ × ProviderEntry) (Before score) :=
  ⟨fun _ _ _ first second => le_trans second first⟩

/-- Ranking entries that carry a tag. -/
theorem rank_tagged {tagged : List (τ × ProviderEntry)}
    (numbers : ∀ item ∈ tagged, ∃ value, score item.2 = .ok value ∧
      IsNumber value) :
    (do
      let scored ← scoreEach score (tagged.map (·.2))
      return (scored.insertionSort fun a b => ¬ a.1 < b.1).map (·.2) :
        Except PyExc (List ProviderEntry)) =
      .ok ((tagged.insertionSort (Before score)).map (·.2)) := by
  have scored : ∀ entry ∈ tagged.map (·.2), ∃ value,
      score entry = .ok value := by
    intro entry member
    obtain ⟨item, isItem, rfl⟩ := List.mem_map.mp member
    obtain ⟨value, scores, _⟩ := numbers item isItem
    exact ⟨value, scores⟩
  have agree : ∀ a ∈ tagged, ∀ b ∈ tagged, Before score a b ↔
      ¬ valueOf score a.2 < valueOf score b.2 := by
    intro a memberA b memberB
    obtain ⟨x, scoresA, numberA⟩ := numbers a memberA
    obtain ⟨y, scoresB, numberB⟩ := numbers b memberB
    unfold Before valueOf
    rw [scoresA, scoresB]
    dsimp only
    rw [lt_iff_place numberA numberB, not_lt]
  have sorts := List.map_insertionSort (Before score)
    (fun a b : Float × ProviderEntry => ¬ a.1 < b.1)
    (fun item : τ × ProviderEntry => (valueOf score item.2, item.2))
    tagged agree
  rw [scoreEach_eq scored, ok_bind, List.map_map, pure_eq_ok,
    Except.ok.injEq]
  unfold Function.comp
  rw [← sorts, List.map_map]
  rfl

end

section

variable {entry : ProviderEntry}

theorem rateable_of_reads {place : Text × Text} {default x : Float}
    {fields : Dict} {rate : Int}
    (isObject : entry.manifest.get place.1 = .obj fields)
    (found : fields.find place.2 = some (.int rate))
    (reads : numberAt (orElse (entry.manifest.get place.1) (.obj []))
      place.2 default = .ok x) : (Float.ofInt rate).isFinite = true := by
  have truthy : (Json.obj fields).truthy = true := by
    cases fields with
    | nil => cases found
    | cons field rest => rfl
  rw [isObject, orElse, if_pos truthy] at reads
  unfold numberAt at reads
  dsimp only [Json.asDict] at reads
  rw [found] at reads
  exact (floatOfInt_isOk rate).mp ⟨x, reads⟩

theorem listedScore_isOk (read : ManifestRead entry.manifest) {key : Text}
    (member : key ∈ [text "models", text "privacy_modes"]) (name : Text) :
    ∃ score, listedScore entry key name = .ok score := by
  obtain ⟨items, found⟩ := read.listed key member
  obtain ⟨listed, contains⟩ := contains_isOk name items
  unfold listedScore
  rw [get_of_find found]
  simp [contains]

theorem modelFitScore_isOk (read : ManifestRead entry.manifest)
    (modelId : Option Text) :
    ∃ score, modelFitScore entry modelId = .ok score := by
  cases modelId with
  | none => exact ⟨_, rfl⟩
  | some modelId => exact listedScore_isOk read (by simp) modelId

private theorem privacyScore_isOk (read : ManifestRead entry.manifest)
    (privacyMode : Option Text) :
    ∃ score, privacyScore entry privacyMode = .ok score := by
  cases privacyMode with
  | none => exact ⟨_, rfl⟩
  | some privacyMode => exact listedScore_isOk read (by simp) privacyMode

/-- **An entry can be scored exactly when its rates fit a float.** -/
theorem scoreProvider_isOk_iff (read : ManifestRead entry.manifest)
    (privacyMode modelId : Option Text) (weights : Option Weights) :
    (∃ score, scoreProvider privacyMode modelId weights entry =
      .ok score) ↔ Rateable entry.manifest := by
  constructor
  · rintro ⟨score, scores⟩
    obtain ⟨fit, _, scores⟩ := bind_eq_ok.mp scores
    obtain ⟨latency, isLatency, scores⟩ := bind_eq_ok.mp scores
    obtain ⟨price, isPrice, _⟩ := bind_eq_ok.mp scores
    obtain ⟨ttft, first, isLatency⟩ := bind_eq_ok.mp isLatency
    obtain ⟨tps, second, _⟩ := bind_eq_ok.mp isLatency
    obtain ⟨input, third, isPrice⟩ := bind_eq_ok.mp isPrice
    obtain ⟨output, fourth, _⟩ := bind_eq_ok.mp isPrice
    intro place member fields rate isObject found
    simp only [rateFields, List.mem_cons, List.not_mem_nil, or_false]
      at member
    rcases member with rfl | rfl | rfl | rfl
    · exact rateable_of_reads isObject found first
    · exact rateable_of_reads isObject found second
    · exact rateable_of_reads isObject found third
    · exact rateable_of_reads isObject found fourth
  · intro rateable
    have rate := fun place (member : place ∈ rateFields) default =>
      rate_isOk read rateable member default
    obtain ⟨fit, fits⟩ := modelFitScore_isOk read modelId
    obtain ⟨privacy, keeps⟩ := privacyScore_isOk read privacyMode
    obtain ⟨ttft, first⟩ := rate (text "benchmark", text "ttft_ms")
      (by simp [rateFields]) latencyAnchorMs
    obtain ⟨tps, second⟩ := rate (text "benchmark", text "tokens_per_second")
      (by simp [rateFields]) 0
    obtain ⟨input, third⟩ := rate (text "pricing", text "input_per_1m")
      (by simp [rateFields]) 0
    obtain ⟨output, fourth⟩ := rate (text "pricing", text "output_per_1m")
      (by simp [rateFields]) 0
    dsimp only at first second third fourth
    unfold scoreProvider latencyScore priceScore
    simp only [fits, keeps, first, second, third, fourth, ok_bind,
      pure_eq_ok]
    split <;> exact ⟨_, rfl⟩

end

section

variable {manifest : Dict}

/-- A rate that fits a float is read without an exception. -/
theorem price_isOk (rates : RatesNonneg manifest)
    (rateable : Rateable manifest) {key : Text}
    (member : (text "pricing", key) ∈ rateFields) :
    ∃ rate, price (pricingOf manifest) key = .ok rate := by
  unfold price pricingOf
  cases isObject : (manifest.get "pricing").asDict with
  | none => exact ⟨0, rfl⟩
  | some fields =>
      rw [Option.getD_some]
      rw [Json.asDict_eq_some] at isObject
      cases found : fields.find key with
      | none => exact ⟨0, rfl⟩
      | some value =>
          rw [Option.getD_some]
          have isNumber := (rates _ member fields value isObject found).1
          cases value with
          | int n =>
              obtain ⟨x, reads⟩ := (floatOfInt_isOk n).mpr
                (rateable _ member fields n isObject found)
              exact ⟨x, by simp [Json.toFloat, reads]⟩
          | float x => exact ⟨x, rfl⟩
          | _ => simp [TypeName.holds] at isNumber

theorem exceeds_isOk (rates : RatesNonneg manifest)
    (rateable : Rateable manifest) {key : Text}
    (member : (text "pricing", key) ∈ rateFields) (limit : Option Float) :
    ∃ refuses, Policy.exceeds manifest limit key = .ok refuses := by
  cases limit with
  | none => exact ⟨false, rfl⟩
  | some limit =>
      obtain ⟨rate, reads⟩ := price_isOk rates rateable member
      exact ⟨decide (limit < rate), by simp [Policy.exceeds, reads]⟩

private theorem verifyAttestation_true {statement : Dict}
    (sound : P.SchemaSound)
    (verified : verifyAttestation P statement = .ok true) :
    ∃ kind, statement.get "tee_type" = .str kind := by
  unfold verifyAttestation at verified
  split_ifs at verified with noErrors
  · have empty := (iterErrors_isEmpty _ _).mp noErrors
    rw [sound] at empty
    obtain ⟨fields, same, required, _⟩ := Schema.record_valid empty
    cases same
    obtain ⟨value, found⟩ := required "tee_type" (by decide)
    obtain ⟨kind, rfl, _⟩ := Schema.string_valid
      (Schema.record_field empty rfl found)
    exact ⟨kind, get_of_find found⟩
  · cases verified

/-- An attestation inside a verified manifest can be checked. -/
theorem isAttested_isOk (sound : P.SchemaSound)
    (verified : verifyProviderManifest P manifest = .ok true)
    (acceptedTeeTypes : List Text) :
    ∃ attested, isAttested P manifest acceptedTeeTypes = .ok attested := by
  have signed := (verifyProviderManifest_true verified).2
  unfold isAttested
  cases isField : manifest.get "attestation" with
  | obj attestation =>
      dsimp only
      have clean : (Json.obj attestation).Clean :=
        signed_field_clean signed (find_of_get isField (by simp)) (by decide)
      have unsigned : (Json.obj
          (Dict.without attestation signatureField)).Clean := by
        rw [Json.clean_obj] at clean ⊢
        intro field member
        exact clean field (List.mem_of_mem_filter member)
      obtain ⟨truth, verifies⟩ := (@verification_returns_iff P .attestation
        attestation).mpr (Or.inr fun _ => unsigned)
      change verifyAttestation P attestation = .ok truth at verifies
      rw [verifies]
      cases truth with
      | false => exact ⟨false, rfl⟩
      | true =>
          obtain ⟨kind, isKind⟩ := verifyAttestation_true sound verifies
          simp only [ok_bind, isKind]
          split_ifs
          · exact ⟨_, rfl⟩
          · exact ⟨_, rfl⟩
          · exact ⟨_, rfl⟩
  | _ => exact ⟨false, rfl⟩

theorem unit_str (sound : P.SchemaSound)
    (verified : verifyProviderManifest P manifest = .ok true) :
    ∃ unit, (pricingOf manifest).get "unit" = .str unit := by
  have noErrors := (verifyProviderManifest_true verified).1
  rw [sound] at noErrors
  obtain ⟨fields, same, required, _⟩ := Schema.record_valid noErrors
  cases same
  obtain ⟨value, found⟩ := required "pricing" (by decide)
  have valid := Schema.record_field noErrors rfl found
  obtain ⟨pricing, rfl, mustHave, _⟩ := Schema.record_valid valid
  obtain ⟨value, isUnit⟩ := mustHave "unit" (by decide)
  obtain ⟨unit, rfl, _⟩ := Schema.string_valid
    (Schema.record_field valid rfl isUnit)
  refine ⟨unit, ?_⟩
  unfold pricingOf
  rw [get_of_find found]
  exact get_of_find isUnit

/-- An array of strings that is not empty. -/
theorem strs_valid {constraints : List Schema} {value : Json}
    (valid : (Schema.all [.type .array, .items (.string constraints),
      .minItems 1]).valid value) :
    ∃ items, value = .arr items ∧ items ≠ [] ∧
      ∀ item ∈ items, ∃ s, item = .str s := by
  obtain ⟨items, rfl⟩ := array_valid valid
  have parts := (Schema.allValid_iff _ _).mp valid
  have each := parts (.items (.string constraints)) (by simp)
  have some := parts (.minItems 1) (by simp)
  simp only [Schema.valid, Json.asList, Option.all_some, List.all_eq_true,
    decide_eq_true_eq] at each some
  refine ⟨items, rfl, List.ne_nil_of_length_pos some, ?_⟩
  intro item member
  obtain ⟨s, isStr, _⟩ := Schema.string_valid (each item member)
  exact ⟨s, isStr⟩

theorem listed_strs (sound : P.SchemaSound)
    (verified : verifyProviderManifest P manifest = .ok true) {key : Text}
    (listed : key ∈ [text "models", text "privacy_modes"]) :
    ∃ items, manifest.find key = some (.arr items) ∧ items ≠ [] ∧
      ∀ item ∈ items, ∃ s, item = .str s := by
  have noErrors := (verifyProviderManifest_true verified).1
  rw [sound] at noErrors
  obtain ⟨fields, same, required, _⟩ := Schema.record_valid noErrors
  cases same
  rcases List.mem_pair.mp listed with rfl | rfl
  · obtain ⟨value, found⟩ := required "models" (by decide)
    obtain ⟨items, rfl, strs⟩ := strs_valid
      (Schema.record_field noErrors rfl found)
    exact ⟨items, found, strs⟩
  · obtain ⟨value, found⟩ := required "privacy_modes" (by decide)
    obtain ⟨items, rfl, strs⟩ := strs_valid
      (Schema.record_field noErrors rfl found)
    exact ⟨items, found, strs⟩

private theorem lacksPrivacy_isOk (sound : P.SchemaSound)
    (verified : verifyProviderManifest P manifest = .ok true)
    (policy : Policy) :
    ∃ refuses, policy.lacksPrivacy manifest = .ok refuses := by
  obtain ⟨items, isList, notEmpty, strs⟩ := listed_strs sound verified
    (show text "privacy_modes" ∈ _ by simp)
  have hashable : ¬ (items.any fun item =>
      item.asList.isSome || item.asDict.isSome) = true := by
    rw [List.any_eq_true]
    rintro ⟨item, member, isContainer⟩
    obtain ⟨s, rfl⟩ := strs item member
    simp [Json.asList, Json.asDict] at isContainer
  have truthy : (Json.arr items).truthy = true := by
    simpa [Json.truthy] using notEmpty
  unfold Policy.lacksPrivacy Policy.advertised
  rw [get_of_find isList]
  split_ifs
  · exact ⟨_, rfl⟩
  · simp only [truthy, if_true, Json.iterate, ok_bind, if_neg hashable,
      pure_eq_ok]
    exact ⟨_, rfl⟩

/-- **A policy decides about every verified manifest whose rates fit a
float.** -/
theorem permits_isOk (sound : P.SchemaSound)
    (verified : verifyProviderManifest P manifest = .ok true)
    (rateable : Rateable manifest) (policy : Policy)
    (reputationScore : Option Float) :
    ∃ decision, policy.permits P manifest reputationScore =
      .ok decision := by
  have rates := ratesNonneg sound verified
  obtain ⟨publicKey, isKey, _⟩ := (manifestRead sound verified).pubkey
  apply Policy.firstRefusal_isOk
  unfold Policy.checks
  simp only [List.forall_mem_cons]
  refine ⟨?_, ?_, ?_, ?_, ?_, ?_, ?_, ⟨_, rfl⟩, by simp⟩
  · unfold Policy.denies
    rw [get_of_find isKey]
    split_ifs <;> exact ⟨_, rfl⟩
  · unfold Policy.allowsNot
    rw [get_of_find isKey]
    split_ifs <;> exact ⟨_, rfl⟩
  · unfold Policy.lacksAttestation
    dsimp only
    split_ifs
    · obtain ⟨attested, attests⟩ := isAttested_isOk sound verified _
      exact ⟨_, by rw [attests]; rfl⟩
    · obtain ⟨attested, attests⟩ := isAttested_isOk sound verified _
      exact ⟨_, by rw [attests]; rfl⟩
    · exact ⟨_, rfl⟩
  · obtain ⟨unit, isUnit⟩ := unit_str sound verified
    unfold Policy.refusesUnit
    rw [isUnit]
    split_ifs <;> exact ⟨_, rfl⟩
  · exact exceeds_isOk rates rateable (by simp [rateFields]) _
  · exact exceeds_isOk rates rateable (by simp [rateFields]) _
  · exact lacksPrivacy_isOk sound verified policy

end

section

variable {registry : List ProviderEntry}

/-- Nothing raises, and an entry is kept and ranked as if the others were not
there. -/
structure Robust (P : Platform) (registry : List ProviderEntry) : Prop where
  resolves : ∀ modelId privacyMode weights, ∃ candidates,
    resolve registry modelId privacyMode weights = .ok candidates
  filters : ∀ (policy : Policy) getScore (xs ys : List ProviderEntry),
    xs ⊆ registry → ys ⊆ registry → ∃ kept keptOthers,
      policy.filterEntries P ProviderEntry.manifest getScore xs = .ok kept ∧
      policy.filterEntries P ProviderEntry.manifest getScore ys =
        .ok keptOthers ∧
      policy.filterEntries P ProviderEntry.manifest getScore (xs ++ ys) =
        .ok (kept ++ keptOthers)
  ranks : ∀ privacyMode modelId (weights : Option Weights),
    Proper (weights.getD defaultWeights) → ∀ xs ys : List ProviderEntry,
      xs ⊆ registry → ys ⊆ registry →
        ∃ ranked : List (Bool × ProviderEntry),
          ranked.Perm (xs.map (true, ·) ++ ys.map (false, ·)) ∧
          rankCandidates privacyMode modelId weights (xs ++ ys) =
            .ok (ranked.map (·.2)) ∧
          rankCandidates privacyMode modelId weights xs =
            .ok ((ranked.filter (·.1)).map (·.2))

/-- The entries of a model are all found. -/
theorem mem_forModel {modelId : Text} {found : List ProviderEntry}
    (finds : forModel modelId registry = .ok found) {entry : ProviderEntry}
    (member : entry ∈ registry) (lists : Lists modelId entry) :
    entry ∈ found := by
  induction registry generalizing found with
  | nil => cases member
  | cons other rest induction =>
      unfold forModel at finds
      obtain ⟨serves, isServed, finds⟩ := bind_eq_ok.mp finds
      obtain ⟨others, tail, finds⟩ := bind_eq_ok.mp finds
      rcases List.mem_cons.mp member with rfl | later
      · obtain ⟨items, isList, listed⟩ := lists
        rw [isList, Option.getD_some] at isServed
        have isAny : items.any (Json.isStr modelId) = true :=
          List.any_eq_true.mpr ⟨_, listed, Json.isStr_iff.mpr rfl⟩
        simp only [Json.contains, isAny] at isServed
        cases isServed
        cases finds
        exact List.mem_cons_self
      · have inOthers := induction tail later
        cases serves with
        | true =>
            cases finds
            exact List.mem_cons_of_mem _ inOthers
        | false =>
            cases finds
            exact inOthers

theorem scoreEach_ok {score : ProviderEntry → Except PyExc Float}
    {entries : List ProviderEntry} {scored : List (Float × ProviderEntry)}
    (scores : scoreEach score entries = .ok scored) {entry : ProviderEntry}
    (member : entry ∈ entries) : ∃ value, score entry = .ok value := by
  induction entries generalizing scored with
  | nil => cases member
  | cons other rest induction =>
      obtain ⟨value, first, scores⟩ := bind_eq_ok.mp scores
      obtain ⟨others, tail, _⟩ := bind_eq_ok.mp scores
      rcases List.mem_cons.mp member with rfl | later
      · exact ⟨value, first⟩
      · exact induction tail later

theorem filterEntries_verified (sound : P.SchemaSound)
    {entries : List ProviderEntry}
    (verified : ∀ entry ∈ entries,
      verifyProviderManifest P entry.manifest = .ok true)
    (rateable : ∀ entry ∈ entries, Rateable entry.manifest)
    (policy : Policy) (getScore : Option (Text → Option Float)) :
    ∃ kept, policy.filterEntries P ProviderEntry.manifest getScore entries =
      .ok kept := by
  apply Policy.filterEntries_isOk
  intro entry member
  obtain ⟨publicKey, isKey, _⟩ :=
    (manifestRead sound (verified entry member)).pubkey
  obtain ⟨score, scores⟩ : ∃ score,
      Policy.scoreOf P entry.manifest getScore = .ok score := by
    unfold Policy.scoreOf
    rw [get_of_find isKey]
    cases getScore <;> exact ⟨_, rfl⟩
  exact ⟨score, scores, permits_isOk sound (verified entry member)
    (rateable entry member) policy score⟩

/-- Entries keep their order when others are ranked with them. -/
theorem rank_among {score : ProviderEntry → Except PyExc Float}
    {xs ys : List ProviderEntry}
    (numbers : ∀ entry ∈ xs ++ ys, ∃ value, score entry = .ok value ∧
      IsNumber value) :
    ∃ ranked : List (Bool × ProviderEntry),
      ranked.Perm (xs.map (true, ·) ++ ys.map (false, ·)) ∧
      (do
        let scored ← scoreEach score (xs ++ ys)
        return (scored.insertionSort fun a b => ¬ a.1 < b.1).map (·.2) :
          Except PyExc (List ProviderEntry)) = .ok (ranked.map (·.2)) ∧
      (do
        let scored ← scoreEach score xs
        return (scored.insertionSort fun a b => ¬ a.1 < b.1).map (·.2) :
          Except PyExc (List ProviderEntry)) =
        .ok ((ranked.filter (·.1)).map (·.2)) := by
  let tagged : List (Bool × ProviderEntry) :=
    xs.map (true, ·) ++ ys.map (false, ·)
  have untagged : tagged.map (·.2) = xs ++ ys := by simp [tagged]
  have first : tagged.filter (·.1) = xs.map (true, ·) := by
    simp [tagged, List.filter_append, List.filter_map, Function.comp_def]
  have all := @rank_tagged score Bool tagged fun item member =>
    numbers item.2 (untagged ▸ List.mem_map_of_mem member)
  have part := @rank_tagged score Bool (xs.map (true, ·)) fun item member =>
    by
      obtain ⟨entry, isEntry, rfl⟩ := List.mem_map.mp member
      exact numbers entry (List.mem_append_left _ isEntry)
  refine ⟨tagged.insertionSort (Before score),
    List.perm_insertionSort _ _, untagged ▸ all, ?_⟩
  rw [filter_insertionSort, first, ← part, List.map_map]
  simp [Function.comp_def]

/-- **Verified providers do not disturb each other exactly when every rate
fits a float.** -/
theorem robust_iff_rateable (sound : P.SchemaSound)
    (verified : ∀ entry ∈ registry,
      verifyProviderManifest P entry.manifest = .ok true) :
    Robust P registry ↔ ∀ entry ∈ registry, Rateable entry.manifest := by
  have read := fun entry (member : entry ∈ registry) =>
    manifestRead sound (verified entry member)
  constructor
  · intro robust entry member
    obtain ⟨items, isList, notEmpty, strs⟩ := listed_strs sound
      (verified entry member) (show text "models" ∈ _ by simp)
    obtain ⟨first, isFirst⟩ := List.exists_mem_of_ne_nil items notEmpty
    obtain ⟨modelId, rfl⟩ := strs first isFirst
    obtain ⟨candidates, resolves⟩ := robust.resolves modelId none none
    obtain ⟨found, finds, ranks⟩ := bind_eq_ok.mp resolves
    obtain ⟨scored, scores, _⟩ := bind_eq_ok.mp ranks
    have inFound := mem_forModel finds member ⟨items, isList, isFirst⟩
    exact (scoreProvider_isOk_iff (read entry member) none (some modelId)
      none).mp (scoreEach_ok scores inFound)
  · intro rateable
    have scored := fun entry (member : entry ∈ registry) privacyMode modelId
        weights => (scoreProvider_isOk_iff (read entry member) privacyMode
          modelId weights).mpr (rateable entry member)
    refine ⟨?_, ?_, ?_⟩
    · intro modelId privacyMode weights
      obtain ⟨found, finds, listed⟩ := @forModel_isOk modelId registry read
      have scores := @scoreEach_eq
        (scoreProvider privacyMode (some modelId) weights) found
        fun entry member => scored entry (listed entry member).1 _ _ _
      unfold resolve rankCandidates
      rw [finds, ok_bind, scores]
      exact ⟨_, rfl⟩
    · intro policy getScore xs ys fromXs fromYs
      have keeps : ∀ entries : List ProviderEntry, entries ⊆ registry →
          ∃ kept, policy.filterEntries P ProviderEntry.manifest getScore
            entries = .ok kept :=
        fun entries fromRegistry => filterEntries_verified sound
          (fun entry member => verified entry (fromRegistry member))
          (fun entry member => rateable entry (fromRegistry member))
          policy getScore
      obtain ⟨kept, first⟩ := keeps xs fromXs
      obtain ⟨keptOthers, second⟩ := keeps ys fromYs
      refine ⟨kept, keptOthers, first, second, ?_⟩
      rw [Policy.filterEntries_append, first, second]
      rfl
    · intro privacyMode modelId weights proper xs ys fromXs fromYs
      apply rank_among
      intro entry isEntry
      have member : entry ∈ registry := by
        rcases List.mem_append.mp isEntry with inXs | inYs
        · exact fromXs inXs
        · exact fromYs inYs
      obtain ⟨value, scores⟩ :=
        scored entry member privacyMode modelId weights
      exact ⟨value, scores, scoreProvider_isNumber
        (ratesNonneg sound (verified entry member)) proper scores⟩

end

def honestKey : Text := "ed25519:iojj3XQJ8ZX9UtstPLpdcspnCb8dlBIb83SIAbQPb1w"

def hostileKey : Text :=
  "ed25519:gTl3Dqh9F19Wo1Rmw0x-zMuNipG07jeiXfYPW4_Js5Q"

def unsignedRated (publicKey : Text) (rate : Int) : Dict :=
  [("schema", .str "sip-ai.provider_manifest.v1"),
    ("provider_pubkey", .str publicKey), ("node_type", .str "vllm-server"),
    ("models", .arr [.str "m"]), ("runtime_adapters", .arr [.str "vllm"]),
    ("pricing", .obj [("unit", .str "pic"), ("input_per_1m", .int rate)]),
    ("max_context", .int 4096), ("logging_policy", .str "metadata_only"),
    ("privacy_modes", .arr [.str "direct"]),
    ("published_at", .str "2026-01-01T00:00:00Z")]

def honestUnsigned : Dict := unsignedRated honestKey 100

def hostileUnsigned : Dict := unsignedRated hostileKey (2 ^ 1024)

def honestSignature : Text :=
  "ed25519:guugHlrIxjT6ZcTW5F8isN5UXAOD0lYKUAPuV_WcOWLeP6LKBjvsAjkMBX8EqJfIq9SLgLPDZuzcMUoXDHqHCg"

def hostileSignature : Text :=
  "ed25519:pXrEpGiCRyEd6m51NZ98KjFyFCUtnrLGCpidFT9ePiHWtfy36jxI0zqKV8FT9FgvxIkOX9ez44xiTWpt56TGBw"

def rateTable : SignatureTable where
  keys := []
  signatures := [(honestKey, honestUnsigned, honestSignature),
    (hostileKey, hostileUnsigned, hostileSignature)]

def honest : ProviderEntry :=
  ⟨"https://honest.example",
    honestUnsigned.set "signature" (.str honestSignature)⟩

def hostile : ProviderEntry :=
  ⟨"https://hostile.example",
    hostileUnsigned.set "signature" (.str hostileSignature)⟩

theorem honest_verified :
    verifyProviderManifest rateTable.platform honest.manifest = .ok true := by
  decide +kernel

private theorem hostile_verified :
    verifyProviderManifest rateTable.platform hostile.manifest =
      .ok true := by
  decide +kernel

theorem rates_verified : ∀ entry ∈ [honest, hostile],
    verifyProviderManifest rateTable.platform entry.manifest = .ok true := by
  intro entry member
  rcases List.mem_pair.mp member with rfl | rfl
  · exact honest_verified
  · exact hostile_verified

def raised {ε α : Type} : Except ε α → Option ε
  | .ok _ => none
  | .error error => some error

private theorem eq_error_of_raised {ε α : Type} {outcome : Except ε α}
    {error : ε}
    (raises : raised outcome = some error) : outcome = .error error := by
  cases outcome with
  | ok value => cases raises
  | error other =>
      cases raises
      rfl

/-- One of two verified providers states a rate of `2 ^ 1024`, and the model of
both cannot be resolved. -/
theorem hostile_rate_raises :
    (∀ entry ∈ [honest, hostile], verifyProviderManifest rateTable.platform
        entry.manifest = .ok true) ∧
      resolve [honest, hostile] "m" none none = .error .overflowError ∧
      ¬ Robust rateTable.platform [honest, hostile] := by
  have raises : resolve [honest, hostile] "m" none none =
      .error .overflowError := eq_error_of_raised (by decide +kernel)
  refine ⟨rates_verified, raises, ?_⟩
  intro robust
  obtain ⟨candidates, resolves⟩ := robust.resolves "m" none none
  rw [raises] at resolves
  cases resolves

private theorem honest_rateable : Rateable honest.manifest := by
  intro place member fields rate isObject found
  simp only [rateFields, List.mem_cons, List.not_mem_nil, or_false]
    at member
  rcases member with rfl | rfl | rfl | rfl
  · cases isObject
  · cases isObject
  · cases isObject
    cases found
    decide +kernel
  · cases isObject
    cases found

theorem robust_iff_rateable_honest :
    Robust rateTable.platform [honest] :=
  (robust_iff_rateable rateTable.platform_schemaSound fun entry member => by
    obtain rfl := List.mem_singleton.mp member
    exact honest_verified).mpr fun entry member => by
      obtain rfl := List.mem_singleton.mp member
      exact honest_rateable

end SovereignInference.SipRouter
