import SovereignInference.Arithmetic.FloatNegation
import SovereignInference.Collections.StableSort
import SovereignInference.SipReputation.Ranking
import SovereignInference.SipRouter.Independence

/-!
# When a ranking survives its nodes

A ranking raises when one health body lists a model that has no hash, when one
advertised rate is an integer beyond all floats, when a body cannot be read for
another reason than bad JSON, or when the client refuses a url.  A NaN among
the recorded latencies disorders providers of equal scores.
-/

namespace SovereignInference.SipReputation

open Python Effects SipProtocol SipDiscovery Arithmetic

variable {P : Platform} {store : Option (Entries Float)} {probed : Bool}
  {visit : Visit} {visits : List Visit}

/-- Reading the answer raises nothing that is not caught, and no model it lists
is a list or a dict. -/
def Fetched.Harmless : Fetched → Prop
  | .failed => True
  | .invalidUrl => False
  | .response status json =>
      200 ≤ status ∧ status < 300 →
        match json with
        | .ok body => ∀ (fields : Dict) live, body = .obj fields →
            fields.get "models" = .arr live →
              ∀ item ∈ live, isHashable item = true
        | .error error => error.isValueError = true

/-- What is read of a provider with a verified manifest. -/
structure Listed (P : Platform) (provider : DiscoveredProvider) : Prop where
  pubkey : provider.providerPubkey P = .ok provider.pubkey
  models : ∃ items, provider.models = .ok items ∧
    items.all isHashable = true
  rate : ∀ (benchmark : Dict) value, provider.manifest.get "benchmark" =
      .obj benchmark → benchmark.find "tokens_per_second" = some value →
    TypeName.number.holds value = true ∧ value.Clean

theorem listed_of_verified (sound : P.SchemaSound)
    {provider : DiscoveredProvider}
    (verified : verifyProviderManifest P provider.manifest = .ok true) :
    Listed P provider := by
  constructor
  · exact (@readable_of_valid P sound _ provider.baseUrl verified).pubkey
  · obtain ⟨items, found, _, strs⟩ :=
      @SipRouter.listed_strs _ _ sound verified "models" (by simp)
    refine ⟨items, ?_, ?_⟩
    · unfold DiscoveredProvider.models
      rw [found]
      rfl
    · rw [List.all_eq_true]
      intro item member
      obtain ⟨s, rfl⟩ := strs item member
      rfl
  · intro benchmark value isObject found
    obtain ⟨isNumber, clean, _⟩ := SipRouter.ratesNonneg sound verified
      ("benchmark", "tokens_per_second") (by simp [SipRouter.rateFields])
      benchmark value isObject found
    exact ⟨isNumber, clean⟩

/-- The provider is live, has the key and serves a model. -/
def probeOk (P : Platform) (visit : Visit) : Bool :=
  match check P visit.provider visit.fetched visit.start visit.stop with
  | .ok status => status.ok
  | .error _ => false

private theorem meets_isOk {models live : List Json}
    (hashable : models.all isHashable = true) :
    (∃ found, meets models live = .ok found) ↔
      ∀ item ∈ live, isHashable item = true := by
  unfold meets toSet
  rw [if_pos hashable, ← List.all_eq_true]
  split_ifs with all
  · simp [all]
  · simp [all]

private theorem statusOf_isOk {provider : DiscoveredProvider} {body : Dict}
    {latencyMs : Float} (listed : Listed P provider) :
    (∃ status, statusOf P provider body latencyMs = .ok status) ↔
      ∀ live, body.get "models" = .arr live →
        ∀ item ∈ live, isHashable item = true := by
  obtain ⟨models, isModels, hashable⟩ := listed.models
  have matched : (∃ found, modelMatch provider body = .ok found) ↔
      ∀ live, body.get "models" = .arr live →
        ∀ item ∈ live, isHashable item = true := by
    unfold modelMatch liveModels
    by_cases truthy : (body.get "models").truthy = true
    · rw [if_pos truthy]
      cases body.get "models" with
      | arr live => simp [isModels, meets_isOk hashable]
      | _ => simp
    · rw [if_neg truthy]
      refine iff_of_true ?_ ?_
      · obtain ⟨found, isFound⟩ := (meets_isOk hashable).mpr
          (show ∀ item ∈ [], isHashable item = true by simp)
        exact ⟨found, by simp [isModels, isFound]⟩
      · intro live isLive item member
        rw [isLive] at truthy
        cases live with
        | nil => cases member
        | cons first rest => exact absurd rfl truthy
  rw [← matched]
  unfold statusOf
  simp only [listed.pubkey, ok_bind]
  constructor
  · rintro ⟨status, isStatus⟩
    obtain ⟨found, isFound, _⟩ := bind_eq_ok.mp isStatus
    exact ⟨found, isFound⟩
  · rintro ⟨found, isFound⟩
    simp [isFound]

theorem check_isOk (listed : Listed P visit.provider) :
    (∃ status, check P visit.provider visit.fetched visit.start visit.stop =
      .ok status) ↔ visit.fetched.Harmless := by
  unfold check
  cases visit.fetched with
  | failed => exact iff_of_true ⟨_, rfl⟩ trivial
  | invalidUrl =>
      refine iff_of_false ?_ id
      rintro ⟨status, isStatus⟩
      cases isStatus
  | response status json =>
      by_cases success : 200 ≤ status ∧ status < 300
      · cases json with
        | error error =>
            cases caught : error.isValueError with
            | true =>
                have body : healthBody (.response status (.error error)) =
                    .ok none := by
                  simp [healthBody, success, caught]
                rw [body]
                exact iff_of_true ⟨_, rfl⟩ fun _ => caught
            | false =>
                have body : healthBody (.response status (.error error)) =
                    .error (.raised error) := by
                  simp [healthBody, success, caught]
                rw [body]
                refine iff_of_false ?_ ?_
                · rintro ⟨status, isStatus⟩
                  cases isStatus
                · intro harmless
                  have uncaught : error.isValueError = true :=
                    harmless success
                  rw [caught] at uncaught
                  cases uncaught
        | ok body =>
            have isBody : healthBody (.response status (.ok body)) =
                .ok (some body) := by
              simp [healthBody, success]
            rw [isBody, ok_bind]
            dsimp only
            cases body with
            | obj fields =>
                have noError := @statusOf_isOk P visit.provider fields
                  ((visit.stop - visit.start) * 1000) listed
                have harmless : (Fetched.response status
                    (.ok (.obj fields))).Harmless ↔
                      ∀ live, Dict.get fields "models" = .arr live →
                        ∀ item ∈ live, isHashable item = true := by
                  constructor
                  · intro harmless live
                    exact harmless success fields live rfl
                  · intro each _ other live same
                    cases same
                    exact each live
                rw [harmless, ← noError]
                simp only [Json.asDict]
                cases statusOf P visit.provider fields
                    ((visit.stop - visit.start) * 1000) with
                | error error => simp
                | ok status => simp
            | _ => exact iff_of_true ⟨_, rfl⟩ fun _ _ _ same => by cases same
      · have body : healthBody (.response status json) = .ok none := by
          simp [healthBody, success]
        rw [body]
        exact iff_of_true ⟨_, rfl⟩ fun within => absurd within success

/-- A status that is ok has every part. -/
theorem check_ok {status : HealthStatus}
    (checked : check P visit.provider visit.fetched visit.start visit.stop =
      .ok status) (isOk : status.ok = true) :
    status = ⟨true, true, true, some ((visit.stop - visit.start) * 1000)⟩ := by
  unfold check at checked
  obtain ⟨body, _, checked⟩ := bind_eq_ok.mp checked
  cases body with
  | none =>
      cases checked
      cases isOk
  | some body =>
      dsimp only at checked
      cases isDict : body.asDict with
      | none =>
          rw [isDict] at checked
          cases checked
          cases isOk
      | some fields =>
          rw [isDict] at checked
          dsimp only at checked
          cases isStatus : statusOf P visit.provider fields
              ((visit.stop - visit.start) * 1000) with
          | error error =>
              rw [isStatus] at checked
              cases checked
          | ok found =>
              rw [isStatus] at checked
              cases checked
              unfold statusOf at isStatus
              obtain ⟨pubkey, _, isStatus⟩ := bind_eq_ok.mp isStatus
              obtain ⟨served, _, isStatus⟩ := bind_eq_ok.mp isStatus
              cases isStatus
              unfold HealthStatus.ok at isOk
              simp only [Bool.and_eq_true, Bool.true_and] at isOk
              rw [isOk.1, isOk.2]

/-- The number of latencies of a provider is no integer beyond all floats. -/
def CountFits (store : Option (Entries Float)) (key : Text) : Prop :=
  ∀ entry, (load store).lookup key = some entry → entry.latencyN ≠ 0 →
    (Float.ofInt entry.latencyN).isFinite = true

theorem score_isOk (store : Option (Entries Float)) (key : Text) :
    (∃ reputation, score floatNumbers store key = .ok reputation) ↔
      CountFits store key := by
  unfold score CountFits
  cases found : (load store).lookup key with
  | none => exact iff_of_true ⟨_, rfl⟩ (by simp)
  | some entry =>
      simp only [Option.some.injEq, forall_eq']
      have timed : (∃ average, averageLatency floatNumbers entry =
          .ok average) ↔ (entry.latencyN ≠ 0 →
            (Float.ofInt entry.latencyN).isFinite = true) := by
        unfold averageLatency
        by_cases untimed : entry.latencyN = 0
        · simp [untimed]
        · rw [if_neg untimed, ← SipRouter.floatOfInt_isOk]
          simp only [floatNumbers]
          cases floatOfInt entry.latencyN with
          | error error => simp [untimed]
          | ok count => simp
      rw [← timed]
      by_cases unseen : entry.total = 0
      · have untimed : entry.latencyN = 0 := by
          have atMost := entry.latencyN_le
          omega
        rw [if_pos unseen]
        exact iff_of_true ⟨_, rfl⟩ ⟨none, by simp [averageLatency, untimed]⟩
      · rw [if_neg unseen]
        unfold scoreEntry
        cases averageLatency floatNumbers entry with
        | error error => simp
        | ok average => simp

private theorem trueDivide_plus (m n : Nat) : IsPlus (trueDivide m n) := by
  unfold trueDivide
  split_ifs with above
  · exact (Plus.div above.1 (.finite _ _ above.2)).repacked
  · exact .zero

theorem score_isNumber {key : Text} {reputation : ReputationScore Float}
    (scored : score floatNumbers store key = .ok reputation) :
    IsNumber reputation.score := by
  have neutral : IsNumber (0.5 : Float) :=
    IsPlus.isNumber (IsPositive.isPlus ⟨_, _, _, rfl⟩)
  unfold score at scored
  cases found : (load store).lookup key with
  | none =>
      rw [found] at scored
      cases scored
      exact neutral
  | some entry =>
      rw [found] at scored
      dsimp only at scored
      split_ifs at scored with unseen
      · cases scored
        exact neutral
      · unfold scoreEntry at scored
        obtain ⟨mean, _, scored⟩ := bind_eq_ok.mp scored
        cases scored
        have success : IsPositive (0.7 : Float) := ⟨_, _, _, rfl⟩
        have receipt : IsPositive (0.3 : Float) := ⟨_, _, _, rfl⟩
        exact (plus_add (mul_plus success (trueDivide_plus _ _))
          (mul_plus receipt (trueDivide_plus _ _)).nonneg).isNumber

/-- The reputation that the store gives a provider. -/
def reputationOf (store : Option (Entries Float))
    (provider : DiscoveredProvider) : ReputationScore Float :=
  (score floatNumbers store provider.pubkey).toOption.getD
    ⟨provider.pubkey, 0, 0, 0, none, 0⟩

/-- What a visit that is kept is ranked by. -/
def standing (store : Option (Entries Float)) (probed : Bool)
    (visit : Visit) : RankedProvider where
  provider := visit.provider
  reputation := reputationOf store visit.provider
  score := (reputationOf store visit.provider).score
  health :=
    if probed then
      some ⟨true, true, true, some ((visit.stop - visit.start) * 1000)⟩
    else none

/-- Without a probe every provider is kept. -/
def isKept (P : Platform) (probed : Bool) (visit : Visit) : Bool :=
  !probed || probeOk P visit

/-- What the visits that are kept are ranked by, in the order of the visits. -/
def standings (P : Platform) (store : Option (Entries Float))
    (probed : Bool) (visits : List Visit) : List RankedProvider :=
  (visits.filter (isKept P probed)).map (standing store probed)

/-- Nothing that the loop reads of a visit raises. -/
structure Harmless (store : Option (Entries Float)) (probed : Bool)
    (visit : Visit) : Prop where
  count : CountFits store visit.provider.pubkey
  answer : probed = true → visit.fetched.Harmless

theorem score_eq (fits : CountFits store visit.provider.pubkey) :
    score floatNumbers store visit.provider.pubkey =
      .ok (reputationOf store visit.provider) := by
  obtain ⟨reputation, scored⟩ := (score_isOk store _).mpr fits
  rw [reputationOf, scored]
  rfl

theorem rankVisit_eq (listed : Listed P visit.provider)
    (harmless : Harmless store probed visit) :
    rankVisit P store probed visit =
      .ok (if isKept P probed visit then some (standing store probed visit)
        else none) := by
  unfold rankVisit standing isKept
  simp only [listed.pubkey, score_eq harmless.count, mapError_ok, ok_bind]
  cases probed with
  | false => rfl
  | true =>
      obtain ⟨status, checked⟩ :=
        (check_isOk listed).mpr (harmless.answer rfl)
      unfold probeOk
      simp only [checked, ok_bind]
      cases isOk : status.ok with
      | true =>
          rw [check_ok checked isOk]
          rfl
      | false => rfl

private theorem harmless_of_rankVisit (listed : Listed P visit.provider)
    {found : Option RankedProvider}
    (ranked : rankVisit P store probed visit = .ok found) :
    Harmless store probed visit := by
  unfold rankVisit at ranked
  simp only [listed.pubkey, mapError_ok, ok_bind] at ranked
  obtain ⟨reputation, scored, ranked⟩ := bind_eq_ok.mp ranked
  constructor
  · apply (score_isOk store _).mp
    cases isScored : score floatNumbers store visit.provider.pubkey with
    | error error =>
        rw [isScored] at scored
        cases scored
    | ok reputation => exact ⟨reputation, rfl⟩
  · rintro rfl
    obtain ⟨status, checked, _⟩ := bind_eq_ok.mp ranked
    exact (check_isOk listed).mp ⟨status, checked⟩

theorem visits_isOk (listed : ∀ visit ∈ visits, Listed P visit.provider) :
    (∃ found, visits.mapM (rankVisit P store probed) = .ok found) ↔
      ∀ visit ∈ visits, Harmless store probed visit := by
  rw [mapM_isOk]
  constructor
  · intro each visit member
    obtain ⟨found, ranked⟩ := each visit member
    exact harmless_of_rankVisit (listed visit member) ranked
  · intro each visit member
    exact ⟨_, rankVisit_eq (listed visit member) (each visit member)⟩

private theorem filterMap_kept (visits : List Visit) :
    (visits.map fun visit =>
      if isKept P probed visit then some (standing store probed visit)
      else none).filterMap id = standings P store probed visits := by
  unfold standings
  induction visits with
  | nil => rfl
  | cons visit rest induction =>
      rw [List.map_cons, List.filter_cons]
      cases isKept P probed visit with
      | true =>
          simp only [if_true, List.map_cons]
          rw [← induction]
          rfl
      | false =>
          simp only [Bool.false_eq_true, if_false]
          rw [← induction]
          rfl

theorem rankProviders_eq (listed : ∀ visit ∈ visits, Listed P visit.provider)
    (harmless : ∀ visit ∈ visits, Harmless store probed visit) :
    rankProviders P store probed visits =
      (sortRanked (standings P store probed visits)).mapError .raised := by
  have each := mapM_eq_map (f := rankVisit P store probed) fun visit member =>
    rankVisit_eq (listed visit member) (harmless visit member)
  unfold rankProviders
  rw [each, ok_bind, filterMap_kept]

/-- The advertised rate, if it is an integer, is none beyond all floats. -/
def RateFits (provider : DiscoveredProvider) : Prop :=
  ∀ (benchmark : Dict) n, provider.manifest.get "benchmark" =
    .obj benchmark → benchmark.find "tokens_per_second" = some (.int n) →
      (Float.ofInt n).isFinite = true

theorem advertisedTps_isOk {provider : DiscoveredProvider}
    (listed : Listed P provider) :
    (∃ tps, advertisedTps provider = .ok tps) ↔ RateFits provider := by
  unfold advertisedTps RateFits
  cases isObject : provider.manifest.get "benchmark" with
  | obj benchmark =>
      simp only [Json.asDict, Json.obj.injEq]
      cases found : Dict.find benchmark "tokens_per_second" with
      | none =>
          refine iff_of_true ⟨0, rfl⟩ ?_
          rintro other n rfl isInt
          rw [found] at isInt
          cases isInt
      | some value =>
          obtain ⟨isNumber, _⟩ := listed.rate benchmark value isObject found
          cases value with
          | int n =>
              have fits : (∀ (other : Dict) m, benchmark = other →
                  other.find "tokens_per_second" = some (.int m) →
                    (Float.ofInt m).isFinite = true) ↔
                  (Float.ofInt n).isFinite = true := by
                constructor
                · intro each
                  exact each benchmark n rfl found
                · rintro finite other m rfl isInt
                  rw [found] at isInt
                  cases isInt
                  exact finite
              rw [fits, ← SipRouter.floatOfInt_isOk, Option.getD_some]
              simp only [Json.toFloat]
              cases overflows : floatOfInt n with
              | ok x => simp
              | error error =>
                  unfold floatOfInt at overflows
                  dsimp only at overflows
                  split_ifs at overflows
                  cases overflows
                  simp [PyExc.isValueError]
          | float x =>
              refine iff_of_true ⟨x, rfl⟩ ?_
              rintro other n rfl isInt
              rw [found] at isInt
              cases isInt
          | _ => simp [TypeName.holds] at isNumber
  | _ =>
      refine iff_of_true ⟨0, rfl⟩ ?_
      rintro other n same
      cases same

/-- The rate that a provider is ranked by. -/
def tpsOf (entry : RankedProvider) : Float :=
  (advertisedTps entry.provider).toOption.getD 0

def latencyOf (entry : RankedProvider) : Float :=
  latencyFor entry.reputation entry.health

private theorem advertisedTps_isNumber {provider : DiscoveredProvider}
    {tps : Float}
    (listed : Listed P provider) (advertised : advertisedTps provider = .ok tps) :
    IsNumber tps := by
  have zero : IsNumber (0 : Float) := nonneg_zero.isNumber
  unfold advertisedTps at advertised
  cases isObject : provider.manifest.get "benchmark" with
  | obj benchmark =>
      simp only [isObject, Json.asDict] at advertised
      cases found : Dict.find benchmark "tokens_per_second" with
      | none =>
          rw [found] at advertised
          cases advertised
          exact zero
      | some value =>
          obtain ⟨isNumber, clean⟩ :=
            listed.rate benchmark value isObject found
          rw [found, Option.getD_some] at advertised
          cases value with
          | int n =>
              simp only [Json.toFloat, floatOfInt] at advertised
              split_ifs at advertised with finite
              · cases advertised
                exact isNumber_of_isFinite finite
              · cases advertised
          | float x =>
              cases advertised
              exact isNumber_of_isFinite clean
          | _ => simp [TypeName.holds] at isNumber
  | _ =>
      rw [isObject] at advertised
      cases advertised
      exact zero

theorem tpsOf_isNumber {entry : RankedProvider}
    (listed : Listed P entry.provider) (fits : RateFits entry.provider) :
    IsNumber (tpsOf entry) := by
  obtain ⟨tps, advertised⟩ := (advertisedTps_isOk listed).mpr fits
  rw [tpsOf, advertised]
  exact advertisedTps_isNumber listed advertised

/-- By score, best first, then by latency, and then by advertised rate. -/
def Before (a b : RankedProvider) : Prop :=
  b.score < a.score ∨ (a.score == b.score) = true ∧
    (latencyOf a < latencyOf b ∨
      (latencyOf a == latencyOf b) = true ∧ tpsOf b ≤ tpsOf a)

/-- Providers of one score of which one has a NaN for its latency. -/
def Undecided (a b : RankedProvider) : Prop :=
  (a.score == b.score) = true ∧
    ((latencyOf a).isNaN = true ∨ (latencyOf b).isNaN = true)

theorem Undecided.symm {a b : RankedProvider} (undecided : Undecided a b) :
    Undecided b a :=
  ⟨beq_comm.trans undecided.1, undecided.2.symm⟩

theorem isNaN_of_isNumber {x : Float} (number : IsNumber x) :
    ¬ x.isNaN = true := by
  rw [isNumber_iff.mp number]
  decide

instance : Std.Symm fun a b => ¬ Undecided a b :=
  ⟨fun _ _ decided other => decided other.symm⟩

/-- What comes before another is compared with it. -/
theorem Before.decided {a b : RankedProvider} (before : Before a b) :
    ¬ Undecided a b := by
  rintro ⟨sameScore, noNumber⟩
  have numbers : IsNumber (latencyOf a) ∧ IsNumber (latencyOf b) := by
    rcases before with above | ⟨_, faster | ⟨sameLatency, _⟩⟩
    · obtain ⟨first, second⟩ := isNumber_of_lt above
      have differ := (lt_iff_place first second).mp above
      have same := (beq_iff_place second first).mp sameScore
      exact absurd same.symm differ.ne
    · exact isNumber_of_lt faster
    · exact isNumber_of_beq sameLatency
  rcases noNumber with first | second
  · exact isNaN_of_isNumber numbers.1 first
  · exact isNaN_of_isNumber numbers.2 second

/-- The key that is sorted by. -/
def keyOf (entry : RankedProvider) : SortKey :=
  (-entry.score, latencyOf entry, -tpsOf entry)

/-- Score and rate of an entry are numbers. -/
structure Numbered (entry : RankedProvider) : Prop where
  score : IsNumber entry.score
  tps : IsNumber (tpsOf entry)

/-- The place of an entry in the order. -/
def placeOf (entry : RankedProvider) : Positionᵒᵈ ×ₗ Position ×ₗ Positionᵒᵈ :=
  toLex (OrderDual.toDual (place entry.score), toLex (place (latencyOf entry),
    OrderDual.toDual (place (tpsOf entry))))

theorem latencies_isNumber {a b : RankedProvider}
    (decided : ¬ Undecided a b) (sameScore : (a.score == b.score) = true) :
    IsNumber (latencyOf a) ∧ IsNumber (latencyOf b) := by
  rw [isNumber_iff, isNumber_iff]
  by_contra notBoth
  apply decided
  refine ⟨sameScore, ?_⟩
  cases first : (latencyOf a).isNaN with
  | true => exact Or.inl rfl
  | false =>
      cases second : (latencyOf b).isNaN with
      | true => exact Or.inr rfl
      | false => exact absurd ⟨first, second⟩ notBoth

/-- Keys are compared by their places, unless a NaN decides. -/
theorem below_iff {a b : RankedProvider} (first : Numbered a)
    (second : Numbered b) (decided : ¬ Undecided a b) :
    SortKey.below (keyOf a) (keyOf b) = true ↔ placeOf a < placeOf b := by
  have scores := beq_iff_place first.score second.score
  have rates := lt_iff_place second.tps first.tps
  have above := lt_iff_place second.score first.score
  unfold placeOf
  rw [Prod.Lex.toLex_lt_toLex, Prod.Lex.toLex_lt_toLex,
    OrderDual.toDual_lt_toDual, OrderDual.toDual_lt_toDual,
    OrderDual.toDual_inj]
  unfold SortKey.below keyOf
  dsimp only
  rw [bne, neg_beq_neg, beq_comm]
  cases sameScore : a.score == b.score with
  | false =>
      have differ : place a.score ≠ place b.score := fun same =>
        Bool.false_ne_true (sameScore.symm.trans (scores.mpr same))
      simp only [Bool.not_false, if_true, decide_eq_true_eq, neg_lt_neg_iff,
        differ, false_and, or_false]
      exact above
  | true =>
      have same := scores.mp sameScore
      have numbers := latencies_isNumber decided sameScore
      have latencies := beq_iff_place numbers.1 numbers.2
      have faster := lt_iff_place numbers.1 numbers.2
      simp only [Bool.not_true, Bool.false_eq_true, if_false, same,
        lt_self_iff_false, true_and, false_or]
      rw [bne]
      cases sameLatency : latencyOf a == latencyOf b with
      | false =>
          have differ : place (latencyOf a) ≠ place (latencyOf b) := fun same =>
            Bool.false_ne_true (sameLatency.symm.trans (latencies.mpr same))
          simp only [Bool.not_false, if_true, decide_eq_true_eq, differ,
            false_and, or_false]
          exact faster
      | true =>
          simp only [Bool.not_true, Bool.false_eq_true, if_false,
            latencies.mp sameLatency, lt_self_iff_false, true_and, false_or,
            decide_eq_true_eq, neg_lt_neg_iff]
          exact rates

instance : Std.Total fun a b : RankedProvider => placeOf a ≤ placeOf b :=
  ⟨fun a b => le_total (placeOf a) (placeOf b)⟩

instance : IsTrans RankedProvider fun a b => placeOf a ≤ placeOf b :=
  ⟨fun _ _ _ first second => le_trans first second⟩

/-- No key is below itself, whatever it holds. -/
theorem not_below_self (entry : RankedProvider) :
    ¬ SortKey.below (keyOf entry) (keyOf entry) = true := by
  have irrefl : ∀ x : Float, ¬ x < x := by
    intro x below
    obtain ⟨number, _⟩ := isNumber_of_lt below
    exact lt_irrefl _ ((lt_iff_place number number).mp below)
  unfold SortKey.below
  split_ifs <;> simp [irrefl]

theorem before_of_place {a b : RankedProvider} (first : Numbered a)
    (second : Numbered b) (decided : ¬ Undecided a b)
    (notAfter : placeOf a ≤ placeOf b) : Before a b := by
  unfold placeOf at notAfter
  rw [Prod.Lex.toLex_le_toLex, Prod.Lex.toLex_le_toLex,
    OrderDual.toDual_lt_toDual, OrderDual.toDual_le_toDual,
    OrderDual.toDual_inj] at notAfter
  rcases notAfter with higher | ⟨sameScore, later⟩
  · exact Or.inl ((lt_iff_place second.score first.score).mpr higher)
  · have same := (beq_iff_place first.score second.score).mpr sameScore
    obtain ⟨number, number'⟩ := latencies_isNumber decided same
    refine Or.inr ⟨same, ?_⟩
    rcases later with faster | ⟨sameLatency, rates⟩
    · exact Or.inl ((lt_iff_place number number').mpr faster)
    · refine Or.inr ⟨(beq_iff_place number number').mpr sameLatency, ?_⟩
      rw [le_iff_not_lt, lt_iff_place first.tps second.tps]
      exact ⟨isNumber_iff.mp second.tps, isNumber_iff.mp first.tps,
        not_lt.mpr rates⟩

theorem sortKey_eq {entry : RankedProvider} (listed : Listed P entry.provider)
    (fits : RateFits entry.provider) : sortKey entry = .ok (keyOf entry) := by
  obtain ⟨tps, advertised⟩ := (advertisedTps_isOk listed).mpr fits
  unfold sortKey keyOf tpsOf latencyOf
  rw [advertised]
  rfl

/-- Entries in the order of their keys. -/
def byKey (entries : List RankedProvider) : List RankedProvider :=
  entries.insertionSort fun a b =>
    (!SortKey.below (keyOf b) (keyOf a)) = true

theorem sortRanked_eq {entries : List RankedProvider}
    (listed : ∀ entry ∈ entries, Listed P entry.provider)
    (fits : ∀ entry ∈ entries, RateFits entry.provider) :
    sortRanked entries = .ok (byKey entries) := by
  have keyed := mapM_eq_map
    (f := fun entry => do return (← sortKey entry, entry))
    (g := fun entry => (keyOf entry, entry)) fun entry member => by
      rw [sortKey_eq (listed entry member) (fits entry member)]
      rfl
  have projected := List.map_insertionSort
    (fun a b : SortKey × RankedProvider => (!SortKey.below b.1 a.1) = true)
    (fun a b => (!SortKey.below (keyOf b) (keyOf a)) = true)
    Prod.snd (entries.map fun entry => (keyOf entry, entry)) (by
      intro a inFirst b inSecond
      obtain ⟨entry, _, rfl⟩ := List.mem_map.mp inFirst
      obtain ⟨other, _, rfl⟩ := List.mem_map.mp inSecond
      exact Iff.rfl)
  unfold sortRanked
  rw [keyed, ok_bind, pure_eq_ok, projected, List.map_map]
  change Except.ok (List.insertionSort _ (entries.map fun entry => entry)) = _
  rw [List.map_id']
  rfl

theorem rates_of_sortRanked {entries ranked : List RankedProvider}
    (listed : ∀ entry ∈ entries, Listed P entry.provider)
    (sorted : sortRanked entries = .ok ranked) :
    ∀ entry ∈ entries, RateFits entry.provider := by
  intro entry member
  obtain ⟨keyed, mapped, _⟩ := bind_eq_ok.mp sorted
  obtain ⟨key, isKey⟩ := mapM_isOk.mp ⟨keyed, mapped⟩ entry member
  obtain ⟨found, isFound, _⟩ := bind_eq_ok.mp isKey
  obtain ⟨tps, advertised, _⟩ := bind_eq_ok.mp isFound
  exact (advertisedTps_isOk (listed entry member)).mp ⟨tps, advertised⟩

theorem byKey_perm (entries : List RankedProvider) :
    (byKey entries).Perm entries :=
  List.perm_insertionSort _ entries

/-- **Entries that no NaN leaves undecided are sorted.** -/
theorem byKey_sorted {entries : List RankedProvider}
    (numbered : ∀ entry ∈ entries, Numbered entry)
    (decided : entries.Pairwise fun a b => ¬ Undecided a b) :
    (byKey entries).Pairwise Before := by
  have agree : ∀ a ∈ entries, ∀ b ∈ entries,
      (!SortKey.below (keyOf b) (keyOf a)) = true ↔
        placeOf a ≤ placeOf b := by
    intro a inFirst b inSecond
    by_cases same : b = a
    · subst same
      refine iff_of_true ?_ (le_refl _)
      simpa using not_below_self b
    · have apart := decided.forall inSecond inFirst same
      have order := below_iff (numbered b inSecond) (numbered a inFirst) apart
      rw [Bool.not_eq_true', ← Bool.not_eq_true, order, not_lt]
  have places : (byKey entries).Pairwise fun a b => placeOf a ≤ placeOf b := by
    unfold byKey
    rw [Collections.insertionSort_congr agree]
    exact List.pairwise_insertionSort _ entries
  have perm := byKey_perm entries
  have apart := perm.symm.pairwise decided fun notOne other =>
    notOne other.symm
  refine (places.and apart).imp_of_mem ?_
  rintro a b inFirst inSecond ⟨notAfter, notUndecided⟩
  exact before_of_place (numbered a (perm.mem_iff.mp inFirst))
    (numbered b (perm.mem_iff.mp inSecond)) notUndecided notAfter

/-- The ranking returns the providers that are kept, each once and in order. -/
def Survives (P : Platform) (store : Option (Entries Float)) (probed : Bool)
    (visits : List Visit) : Prop :=
  ∃ ranked, rankProviders P store probed visits = .ok ranked ∧
    (ranked.map (·.provider)).Perm
      ((visits.filter (isKept P probed)).map (·.provider)) ∧
    ranked.Pairwise Before

/-- Nothing that is read raises, and no NaN leaves two providers undecided. -/
structure Calm (P : Platform) (store : Option (Entries Float)) (probed : Bool)
    (visits : List Visit) : Prop where
  harmless : ∀ visit ∈ visits, Harmless store probed visit
  rates : ∀ visit ∈ visits, isKept P probed visit = true →
    RateFits visit.provider
  decided : (standings P store probed visits).Pairwise fun a b =>
    ¬ Undecided a b

theorem mem_standings {entry : RankedProvider}
    (member : entry ∈ standings P store probed visits) :
    ∃ visit ∈ visits, isKept P probed visit = true ∧
      entry = standing store probed visit := by
  obtain ⟨visit, isVisit, rfl⟩ := List.mem_map.mp member
  obtain ⟨inVisits, kept⟩ := List.mem_filter.mp isVisit
  exact ⟨visit, inVisits, kept, rfl⟩

theorem standings_listed (listed : ∀ visit ∈ visits, Listed P visit.provider) :
    ∀ entry ∈ standings P store probed visits, Listed P entry.provider := by
  intro entry member
  obtain ⟨visit, inVisits, _, rfl⟩ := mem_standings member
  exact listed visit inVisits

theorem Calm.survives (calm : Calm P store probed visits)
    (listed : ∀ visit ∈ visits, Listed P visit.provider) :
    Survives P store probed visits := by
  have fits : ∀ entry ∈ standings P store probed visits,
      RateFits entry.provider := by
    intro entry member
    obtain ⟨visit, inVisits, kept, rfl⟩ := mem_standings member
    exact calm.rates visit inVisits kept
  have numbered : ∀ entry ∈ standings P store probed visits,
      Numbered entry := by
    intro entry member
    constructor
    · obtain ⟨visit, inVisits, _, rfl⟩ := mem_standings member
      exact score_isNumber (score_eq (calm.harmless visit inVisits).count)
    · exact tpsOf_isNumber (standings_listed listed entry member)
        (fits entry member)
  refine ⟨byKey (standings P store probed visits), ?_, ?_,
    byKey_sorted numbered calm.decided⟩
  · rw [rankProviders_eq listed calm.harmless,
      sortRanked_eq (standings_listed listed) fits]
    rfl
  · have perm := (byKey_perm (standings P store probed visits)).map
      (·.provider)
    unfold standings at perm ⊢
    rwa [List.map_map] at perm

theorem Survives.calm (survives : Survives P store probed visits)
    (listed : ∀ visit ∈ visits, Listed P visit.provider) :
    Calm P store probed visits := by
  obtain ⟨ranked, returned, _, ordered⟩ := survives
  have harmless : ∀ visit ∈ visits, Harmless store probed visit := by
    obtain ⟨found, mapped, _⟩ := bind_eq_ok.mp returned
    exact (visits_isOk listed).mp ⟨found, mapped⟩
  rw [rankProviders_eq listed harmless] at returned
  cases sorted : sortRanked (standings P store probed visits) with
  | error error =>
      rw [sorted] at returned
      cases returned
  | ok entries =>
      rw [sorted] at returned
      cases returned
      have fits := rates_of_sortRanked (standings_listed listed) sorted
      rw [sortRanked_eq (standings_listed listed) fits] at sorted
      cases sorted
      refine ⟨harmless, ?_, ?_⟩
      · intro visit inVisits kept
        refine fits (standing store probed visit) ?_
        exact List.mem_map_of_mem (List.mem_filter.mpr ⟨inVisits, kept⟩)
      · have apart := ordered.imp Before.decided
        exact (byKey_perm _).pairwise apart fun notOne other =>
          notOne other.symm

/-- **A ranking survives its nodes exactly when none of them, and nothing in
the store, makes it raise or leaves two providers undecided.** -/
theorem survives_iff_calm (sound : P.SchemaSound)
    (verified : ∀ visit ∈ visits,
      verifyProviderManifest P visit.provider.manifest = .ok true) :
    Survives P store probed visits ↔ Calm P store probed visits := by
  have listed : ∀ visit ∈ visits, Listed P visit.provider := by
    intro visit member
    exact listed_of_verified sound (verified visit member)
  constructor
  · intro survives
    exact survives.calm listed
  · intro calm
    exact calm.survives listed

/-- The node answers its key and these models. -/
def answered (models : List Json) : Visit where
  provider := provided olderManifest
  fetched := .response 200 (.ok (.obj [("provider_pubkey", .str nodeKey),
    ("models", .arr models)]))
  start := 0
  stop := 1

theorem answered_verified (models : List Json) :
    ∀ visit ∈ [answered models], verifyProviderManifest
      manifestTable.platform visit.provider.manifest = .ok true := by
  intro visit member
  rw [List.mem_singleton.mp member]
  exact olderManifest_verified

theorem survives_with_model :
    Survives manifestTable.platform none true [answered [.str "m"]] := by
  apply (survives_iff_calm manifestTable.platform_schemaSound
    (answered_verified _)).mpr
  constructor
  · intro visit member
    rw [List.mem_singleton.mp member]
    constructor
    · intro entry found
      cases found
    · rintro _ _ fields live same isLive item inLive
      cases same
      cases isLive
      rw [List.mem_singleton.mp inLive]
      rfl
  · intro visit member _ benchmark n isObject
    rw [List.mem_singleton.mp member] at isObject
    cases isObject
  · unfold standings
    rw [List.filter_cons]
    split_ifs
    · exact List.pairwise_singleton _ _
    · exact .nil

/-- A body that lists a dict among its models aborts the ranking. -/
theorem dict_among_models :
    (∀ visit ∈ [answered [.obj []]], verifyProviderManifest
      manifestTable.platform visit.provider.manifest = .ok true) ∧
    ¬ Survives manifestTable.platform none true [answered [.obj []]] := by
  refine ⟨answered_verified _, ?_⟩
  intro survives
  have calm := survives.calm fun visit member =>
    listed_of_verified manifestTable.platform_schemaSound
      (answered_verified _ visit member)
  have harmless := (calm.harmless _ List.mem_cons_self).answer rfl
  have hashable := harmless ⟨by decide, by decide⟩ _ _ rfl rfl (.obj [])
    List.mem_cons_self
  cases hashable

end SovereignInference.SipReputation
