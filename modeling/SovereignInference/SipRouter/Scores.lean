import SovereignInference.Arithmetic.FloatOrder
import SovereignInference.SipRouter.Returns

/-!
# Scores of verified manifests

The rates of a manifest that verifies are not negative, so its score is never
a NaN.
-/

namespace SovereignInference.SipRouter

open Python Effects SipProtocol Arithmetic

variable {P : Platform} {entry : ProviderEntry}

/-- Every rate of the manifest is a number from zero on. -/
def RatesNonneg (manifest : Dict) : Prop :=
  ∀ place ∈ rateFields, ∀ (fields : Dict) (value : Json),
    manifest.get place.1 = .obj fields → fields.find place.2 = some value →
      TypeName.number.holds value = true ∧ value.Clean ∧
        Schema.atLeast 0 value = true

theorem numberFrom_valid {bound : Int} {value : Json}
    (valid : (Schemas.numberFrom bound).valid value) :
    TypeName.number.holds value = true ∧
      Schema.atLeast bound value = true := by
  have parts := (Schema.allValid_iff _ _).mp valid
  refine ⟨parts (.type .number) List.mem_cons_self, ?_⟩
  exact parts (.minimum bound) (by simp)

theorem property_valid {schemas : List Schema} {fields : Dict} {key : Text}
    {schema : Schema} {value : Json}
    (valid : (Schema.all schemas).valid (.obj fields))
    (listed : .property key schema ∈ schemas)
    (found : fields.find key = some value) : schema.valid value := by
  have holds := (Schema.allValid_iff _ _).mp valid _ listed
  simpa [Schema.valid, Json.asDict, found] using holds

theorem find_of_get {fields : Dict} {key : Text} {value : Json}
    (isValue : fields.get key = value) (notNull : value ≠ .null) :
    fields.find key = some value := by
  unfold Dict.get at isValue
  cases found : fields.find key with
  | none =>
      rw [found] at isValue
      exact absurd isValue.symm notNull
  | some other =>
      rw [found] at isValue
      rw [← isValue]
      rfl

private theorem clean_field {fields : Dict} {key : Text} {value : Json}
    (clean : (Json.obj fields).Clean) (found : fields.find key = some value) :
    value.Clean := by
  rw [Json.clean_obj] at clean
  exact (clean (key, value) (Dict.find_mem found)).2

theorem ratesNonneg (sound : P.SchemaSound) {manifest : Dict}
    (verified : verifyProviderManifest P manifest = .ok true) :
    RatesNonneg manifest := by
  obtain ⟨noErrors, signed⟩ := verifyProviderManifest_true verified
  rw [sound] at noErrors
  have numbers : ∀ place ∈ rateFields, ∀ (fields : Dict) (value : Json),
      manifest.find place.1 = some (.obj fields) →
        fields.find place.2 = some value →
          (Schemas.numberFrom 0).valid value := by
    intro place member fields value isObject found
    simp only [rateFields, List.mem_cons, List.not_mem_nil, or_false]
      at member
    rcases member with rfl | rfl | rfl | rfl
    · exact property_valid (Schema.record_field noErrors rfl isObject)
        (by simp) found
    · exact property_valid (Schema.record_field noErrors rfl isObject)
        (by simp) found
    · exact Schema.record_field
        (Schema.record_field noErrors rfl isObject) rfl found
    · exact Schema.record_field
        (Schema.record_field noErrors rfl isObject) rfl found
  intro place member fields value isObject found
  have isField := find_of_get isObject (by simp)
  have notSignature : place.1 ≠ signatureField := by
    simp only [rateFields, List.mem_cons, List.not_mem_nil, or_false]
      at member
    rcases member with rfl | rfl | rfl | rfl <;> decide
  obtain ⟨isNumber, notBelow⟩ := numberFrom_valid
    (numbers place member fields value isField found)
  have clean := signed_field_clean signed isField notSignature
  exact ⟨isNumber, clean_field clean found, notBelow⟩

/-- A rate reads as a float that is not negative. -/
theorem toFloat_nonneg {value : Json} {x : Float}
    (isNumber : TypeName.number.holds value = true) (clean : value.Clean)
    (notBelow : Schema.atLeast 0 value = true) (reads : value.toFloat = .ok x) :
    IsNonneg x := by
  cases value with
  | int n =>
      have whole : (0 : Int) ≤ n := of_decide_eq_true notBelow
      obtain ⟨m, rfl⟩ := Int.eq_ofNat_of_zero_le whole
      unfold Json.toFloat floatOfInt at reads
      dsimp only at reads
      split at reads
      · cases reads
        exact Or.inl (ofNat_plus m)
      · cases reads
  | float y =>
      cases reads
      refine nonneg_of_not_lt (isNumber_of_isFinite clean) ?_
      change (!decide (x < 0)) = true at notBelow
      simpa using notBelow
  | _ => simp [TypeName.holds] at isNumber

theorem rate_nonneg {manifest : Dict} (rates : RatesNonneg manifest)
    {place : Text × Text} (member : place ∈ rateFields) {default x : Float}
    (plus : IsNonneg default)
    (reads : numberAt (orElse (manifest.get place.1) (.obj [])) place.2
      default = .ok x) : IsNonneg x := by
  unfold numberAt at reads
  cases isObject : (orElse (manifest.get place.1) (.obj [])).asDict with
  | none =>
      rw [isObject] at reads
      cases reads
  | some fields =>
      rw [isObject] at reads
      dsimp only at reads
      cases found : fields.find place.2 with
      | none =>
          rw [found] at reads
          cases reads
          exact plus
      | some value =>
          rw [found, Option.getD_some] at reads
          have isField : manifest.get place.1 = .obj fields := by
            rw [Json.asDict_eq_some] at isObject
            unfold orElse at isObject
            split_ifs at isObject
            · exact isObject
            · cases isObject
              cases found
          obtain ⟨isNumber, clean, notBelow⟩ :=
            rates place member fields value isField found
          exact toFloat_nonneg isNumber clean notBelow reads

theorem floatMax_nonneg {x : Float} (nonneg : IsNonneg x) :
    IsNonneg (floatMax x 0) := by
  unfold floatMax
  split_ifs
  · exact nonneg_zero
  · exact nonneg

theorem latencyScore_plus (rates : RatesNonneg entry.manifest) {score : Float}
    (scores : latencyScore entry = .ok score) : IsPlus score := by
  obtain ⟨ttft, first, scores⟩ := bind_eq_ok.mp scores
  obtain ⟨tps, second, scores⟩ := bind_eq_ok.mp scores
  cases scores
  have anchor : IsPositive latencyAnchorMs := ⟨_, _, _, rfl⟩
  have thousand : IsPositive 1000 := ⟨_, _, _, rfl⟩
  have ttftNonneg := rate_nonneg rates
    (show (text "benchmark", text "ttft_ms") ∈ rateFields by
      simp [rateFields]) anchor.isPlus.nonneg first
  have tpsNonneg := rate_nonneg rates
    (show (text "benchmark", text "tokens_per_second") ∈ rateFields by
      simp [rateFields]) nonneg_zero second
  have perToken : IsPlus
      (if 0 < tps then 1000 / tps else latencyAnchorMs) := by
    split_ifs with above
    · exact div_plus thousand (plus_of_lt tpsNonneg above)
    · exact anchor.isPlus
  have effective := add_plus ttftNonneg perToken
  exact div_plus anchor
    (plus_add anchor.isPlus (floatMax_nonneg effective.nonneg))

theorem priceScore_plus (rates : RatesNonneg entry.manifest) {score : Float}
    (scores : priceScore entry = .ok score) : IsPlus score := by
  obtain ⟨input, first, scores⟩ := bind_eq_ok.mp scores
  obtain ⟨output, second, scores⟩ := bind_eq_ok.mp scores
  cases scores
  have anchor : IsPositive priceAnchor := ⟨_, _, _, rfl⟩
  have two : IsPositive 2 := ⟨_, _, _, rfl⟩
  have inputNonneg := rate_nonneg rates
    (show (text "pricing", text "input_per_1m") ∈ rateFields by
      simp [rateFields]) nonneg_zero first
  have outputNonneg := rate_nonneg rates
    (show (text "pricing", text "output_per_1m") ∈ rateFields by
      simp [rateFields]) nonneg_zero second
  have blended := nonneg_div (add_nonneg inputNonneg outputNonneg) two
  exact div_plus anchor (plus_add anchor.isPlus (floatMax_nonneg blended))

theorem listedScore_plus {key name : Text} {score : Float}
    (scores : listedScore entry key name = .ok score) : IsPlus score := by
  obtain ⟨listed, _, scores⟩ := bind_eq_ok.mp scores
  cases scores
  cases listed with
  | true => exact IsPositive.isPlus ⟨_, _, _, rfl⟩
  | false => exact .zero

theorem modelFitScore_plus {modelId : Option Text} {score : Float}
    (scores : modelFitScore entry modelId = .ok score) : IsPlus score := by
  cases modelId with
  | none =>
      cases scores
      split_ifs
      · exact IsPositive.isPlus ⟨_, _, _, rfl⟩
      · exact .zero
  | some modelId => exact listedScore_plus scores

theorem privacyScore_plus {privacyMode : Option Text} {score : Float}
    (scores : privacyScore entry privacyMode = .ok score) :
    IsPlus score := by
  cases privacyMode with
  | none =>
      cases scores
      exact IsPositive.isPlus ⟨_, _, _, rfl⟩
  | some privacyMode => exact listedScore_plus scores

/-- The running total of a sum of floats that are not negative. -/
theorem foldl_sumStep_nonneg {values : List Float}
    (nonneg : ∀ value ∈ values, IsNonneg value) {total : Float}
    (start : IsNonneg total) (compensation : Float) :
    IsNonneg (values.foldl sumStep (total, compensation)).1 := by
  induction values generalizing total compensation with
  | nil => exact start
  | cons value rest induction =>
      obtain ⟨first, others⟩ := List.forall_mem_cons.mp nonneg
      exact induction others (add_nonneg start first) _

theorem floatSum_isNumber {values : List Float}
    (nonneg : ∀ value ∈ values, IsNonneg value) :
    IsNumber (floatSum values) := by
  have total := (foldl_sumStep_nonneg nonneg nonneg_zero 0).isNumber
  unfold floatSum
  dsimp only
  split_ifs with compensates
  · rw [Bool.and_eq_true] at compensates
    exact add_isNumber total compensates.2
  · exact total

/-- Every score has a weight above zero, and so has their sum. -/
def Proper (weights : Weights) : Prop :=
  IsPositive (floatSum (weights.map (·.2))) ∧
    ∀ entry ∈ defaultWeights, IsPositive (weightOf weights entry.1)

theorem scoreProvider_isNumber (rates : RatesNonneg entry.manifest)
    {privacyMode modelId : Option Text} {weights : Option Weights}
    (proper : Proper (weights.getD defaultWeights)) {score : Float}
    (scores : scoreProvider privacyMode modelId weights entry =
      .ok score) : IsNumber score := by
  obtain ⟨fit, fits, scores⟩ := bind_eq_ok.mp scores
  obtain ⟨latency, isLatency, scores⟩ := bind_eq_ok.mp scores
  obtain ⟨price, isPrice, scores⟩ := bind_eq_ok.mp scores
  obtain ⟨privacy, isPrivacy, scores⟩ := bind_eq_ok.mp scores
  dsimp only at scores
  split_ifs at scores
  · cases scores
    exact ⟨_, rfl⟩
  · cases scores
    obtain ⟨total, above⟩ := proper
    refine div_isNumber (floatSum_isNumber ?_) total
    have half : IsPlus 0.5 := IsPositive.isPlus ⟨_, _, _, rfl⟩
    simp only [defaultWeights, List.forall_mem_cons] at above
    obtain ⟨first, second, third, fourth, fifth, sixth, _⟩ := above
    simp only [List.map_cons, List.map_nil, List.forall_mem_cons]
    exact ⟨(mul_plus first (modelFitScore_plus fits)).nonneg,
      (mul_plus second (latencyScore_plus rates isLatency)).nonneg,
      (mul_plus third (priceScore_plus rates isPrice)).nonneg,
      (mul_plus fourth half).nonneg, (mul_plus fifth half).nonneg,
      (mul_plus sixth (privacyScore_plus isPrivacy)).nonneg, by simp⟩

end SovereignInference.SipRouter
