import SovereignInference.SipPic.RedemptionTotality
import SovereignInference.SipProtocol.Reordering
import SovereignInference.SipRouter.Client

/-!
# When the helpers of the client return

The client reads numbers, documents and times that a provider chose.  Each
helper returns on what it can read, and the conditions here say what that is.
-/

namespace SovereignInference.SipRouter

open Python Effects SipProtocol SipPic

variable {P : Platform} {candidate : ProviderEntry}

/-- A string of ASCII characters. -/
def Ascii (s : Text) : Prop := ∀ c ∈ s, c.val < 0x80

instance (s : Text) : Decidable (Ascii s) :=
  List.decidableBAll (fun c : CodePoint => c.val < 0x80) s

theorem Ascii.encodable {s : Text} (ascii : Ascii s) : Encodable s := by
  intro c member
  have small := ascii c member
  simp only [isSurrogate, Bool.and_eq_false_iff, decide_eq_false_iff_not]
  omega

private theorem encodeHeader_isOk {value : Json} :
    (∃ bytes, encodeHeader value = .ok bytes) ↔
      ∃ s, value = .str s ∧ Ascii s := by
  cases value with
  | str s =>
      have isAscii : s.all (·.val < 0x80) = true ↔ Ascii s := by
        simp [Ascii]
      by_cases ascii : s.all (·.val < 0x80) = true
      · exact iff_of_true ⟨_, if_pos ascii⟩ ⟨s, rfl, isAscii.mp ascii⟩
      · have fails : encodeHeader (.str s) = .error .unicodeEncodeError :=
          if_neg ascii
        refine iff_of_false (by simp [fails]) ?_
        rintro ⟨_, ⟨⟩, holds⟩
        exact ascii (isAscii.mpr holds)
  | _ => exact iff_of_false (by simp [encodeHeader]) (by simp)

/-- A request can be encoded if its headers are ASCII and its body is clean. -/
theorem encodeRequest_isOk {headers body : Dict} :
    (∃ content, encodeRequest headers body = .ok content) ↔
      (∀ header ∈ headers, ∃ s, header.2 = .str s ∧ Ascii s) ∧
        (Json.obj body).Clean := by
  have encodes := @mapM_isOk PyExc _ _ (fun header : Text × Json =>
    encodeHeader header.2) headers
  simp only [encodeHeader_isOk] at encodes
  rw [← encodes, ← Json.dumpBytes_isOk false]
  unfold encodeRequest
  cases headers.mapM fun header => encodeHeader header.2 with
  | error error => simp
  | ok written => simp

/-- Where a manifest states the rates that are scored. -/
def rateFields : List (Text × Text) :=
  [("benchmark", "ttft_ms"), ("benchmark", "tokens_per_second"),
    ("pricing", "input_per_1m"), ("pricing", "output_per_1m")]

/-- No rate of the manifest is an integer too large for a float. -/
def Rateable (manifest : Dict) : Prop :=
  ∀ place ∈ rateFields, ∀ (fields : Dict) (rate : Int),
    manifest.get place.1 = .obj fields → fields.find place.2 = some (.int rate) →
      (Float.ofInt rate).isFinite = true

/-- What a manifest that verifies holds in the fields that are read. -/
structure ManifestRead (manifest : Dict) : Prop where
  pubkey : ∃ publicKey, manifest.find "provider_pubkey" = some (.str publicKey) ∧
    Encodable publicKey
  listed : ∀ key ∈ [text "models", text "privacy_modes"],
    ∃ items, manifest.find key = some (.arr items)
  rates : ∀ place ∈ rateFields,
    (∃ fields : Dict, manifest.get place.1 = .obj fields ∧
      ∀ value, fields.find place.2 = some value →
        TypeName.number.holds value = true) ∨ manifest.get place.1 = .null

theorem numberFrom_number {bound : Int} {value : Json}
    (valid : (Schemas.numberFrom bound).valid value) :
    TypeName.number.holds value = true := by
  have parts := (Schema.allValid_iff _ _).mp valid
  exact parts (.type .number) List.mem_cons_self

theorem array_valid {schemas : List Schema} {value : Json}
    (valid : (Schema.all (.type .array :: schemas)).valid value) :
    ∃ items, value = .arr items := by
  have isArray := (Schema.allValid_iff _ _).mp valid (.type .array)
    List.mem_cons_self
  cases value with
  | arr items => exact ⟨items, rfl⟩
  | _ => simp [Schema.valid, TypeName.holds] at isArray

theorem object_valid {schemas : List Schema} {value : Json}
    (valid : (Schema.all (.type .object :: schemas)).valid value) :
    ∃ fields, value = .obj fields := by
  have isObject := (Schema.allValid_iff _ _).mp valid (.type .object)
    List.mem_cons_self
  cases value with
  | obj fields => exact ⟨fields, rfl⟩
  | _ => simp [Schema.valid, TypeName.holds] at isObject

theorem get_of_find {fields : Dict} {key : Text} {value : Json}
    (found : fields.find key = some value) : fields.get key = value := by
  rw [Dict.get, found]
  rfl

theorem verifyProviderManifest_true {manifest : Dict}
    (verified : verifyProviderManifest P manifest = .ok true) :
    P.schemaErrors Schemas.providerManifest (.obj manifest) = [] ∧
      verifyDocument P manifest "provider_pubkey" = .ok true := by
  unfold verifyProviderManifest at verified
  split_ifs at verified with noErrors
  · exact ⟨(iterErrors_isEmpty _ _).mp noErrors, verified⟩
  · cases verified

/-- A field other than the signature of a document that could be verified. -/
theorem signed_field_clean {document : Dict} {pubkeyField key : Text}
    {value : Json} (verified : verifyDocument P document pubkeyField = .ok true)
    (found : document.find key = some value) (notSignature : key ≠ signatureField) :
    value.Clean := by
  obtain ⟨publicKey, signature, _, isKey, isSignature, _⟩ :=
    verifyDocument_true verified
  have clean := (verifyDocument_isOk pubkeyField).mp ⟨true, verified⟩
    ⟨publicKey, signature, isKey, isSignature⟩
  rw [Json.clean_obj] at clean
  refine (clean (key, value) ?_).2
  exact List.mem_filter.mpr ⟨Dict.find_mem found, by simpa using notSignature⟩

/-- A field of an object whose schema has a number there. -/
theorem property_number {schemas : List Schema} {fields : Dict} {key : Text}
    {bound : Int} {value : Json}
    (valid : (Schema.all schemas).valid (.obj fields))
    (listed : .property key (Schemas.numberFrom bound) ∈ schemas)
    (found : fields.find key = some value) :
    TypeName.number.holds value = true := by
  have holds := (Schema.allValid_iff _ _).mp valid _ listed
  apply @numberFrom_number bound
  simpa [Schema.valid, Json.asDict, found] using holds

/-- A valid manifest lists its models and privacy modes. -/
theorem schema_listed {manifest : Dict}
    (valid : Schemas.providerManifest.valid (.obj manifest) = true) :
    ∀ key ∈ [text "models", text "privacy_modes"],
      ∃ items, manifest.find key = some (.arr items) := by
  obtain ⟨fields, same, required, _⟩ := Schema.record_valid valid
  cases same
  intro key member
  rcases List.mem_pair.mp member with rfl | rfl
  · obtain ⟨value, found⟩ := required "models" (by decide)
    obtain ⟨items, rfl⟩ := array_valid
      (Schema.record_field valid rfl found)
    exact ⟨items, found⟩
  · obtain ⟨value, found⟩ := required "privacy_modes" (by decide)
    obtain ⟨items, rfl⟩ := array_valid
      (Schema.record_field valid rfl found)
    exact ⟨items, found⟩

/-- The rates of a valid manifest are numbers. -/
theorem schema_rates {manifest : Dict}
    (valid : Schemas.providerManifest.valid (.obj manifest) = true) :
    ∀ place ∈ rateFields,
      (∃ fields : Dict, manifest.get place.1 = .obj fields ∧
        ∀ value, fields.find place.2 = some value →
          TypeName.number.holds value = true) ∨
        manifest.get place.1 = .null := by
  obtain ⟨fields, same, required, _⟩ := Schema.record_valid valid
  cases same
  have pricing : ∀ key ∈ [text "input_per_1m", text "output_per_1m"],
      ∃ fields : Dict, manifest.get "pricing" = .obj fields ∧
        ∀ value, fields.find key = some value →
          TypeName.number.holds value = true := by
    obtain ⟨value, found⟩ := required "pricing" (by decide)
    have holds := Schema.record_field valid rfl found
    obtain ⟨fields, rfl, _⟩ := Schema.record_valid holds
    intro key member
    refine ⟨fields, get_of_find found, ?_⟩
    intro value isRate
    rcases List.mem_pair.mp member with rfl | rfl
    · exact numberFrom_number (Schema.record_field holds rfl isRate)
    · exact numberFrom_number (Schema.record_field holds rfl isRate)
  have benchmark : ∀ key ∈ [text "ttft_ms", text "tokens_per_second"],
      (∃ fields : Dict, manifest.get "benchmark" = .obj fields ∧
        ∀ value, fields.find key = some value →
          TypeName.number.holds value = true) ∨
        manifest.get "benchmark" = .null := by
    intro key member
    cases found : manifest.find "benchmark" with
    | none =>
        right
        rw [Dict.get, found]
        rfl
    | some value =>
        left
        have holds := Schema.record_field valid rfl found
        obtain ⟨fields, rfl⟩ := object_valid holds
        refine ⟨fields, get_of_find found, ?_⟩
        intro value isRate
        rcases List.mem_pair.mp member with rfl | rfl
        · exact @property_number _ _ _ 0 _ holds (by simp) isRate
        · exact @property_number _ _ _ 0 _ holds (by simp) isRate
  simp only [rateFields, List.forall_mem_cons]
  exact ⟨benchmark _ (by simp), benchmark _ (by simp),
    .inl (pricing _ (by simp)), .inl (pricing _ (by simp)), by simp⟩

theorem manifestRead (sound : P.SchemaSound) {manifest : Dict}
    (verified : verifyProviderManifest P manifest = .ok true) :
    ManifestRead manifest := by
  obtain ⟨noErrors, signed⟩ := verifyProviderManifest_true verified
  rw [sound] at noErrors
  obtain ⟨fields, same, required, _⟩ := Schema.record_valid noErrors
  cases same
  refine ⟨?_, schema_listed noErrors, schema_rates noErrors⟩
  obtain ⟨value, found⟩ := required "provider_pubkey" (by decide)
  obtain ⟨publicKey, rfl, _⟩ := Schema.string_valid
    (Schema.record_field noErrors rfl found)
  exact ⟨publicKey, found, signed_field_clean signed found (by decide)⟩

theorem floatOfInt_isOk (n : Int) :
    (∃ x, floatOfInt n = .ok x) ↔ (Float.ofInt n).isFinite = true := by
  unfold floatOfInt
  dsimp only
  split <;> simp_all

theorem numberAt_isOk {fields : Dict} {key : Text} (default : Float)
    (isNumber : ∀ value, fields.find key = some value →
      TypeName.number.holds value = true)
    (fits : ∀ rate, fields.find key = some (.int rate) →
      (Float.ofInt rate).isFinite = true) :
    ∃ x, numberAt (.obj fields) key default = .ok x := by
  unfold numberAt
  dsimp only [Json.asDict]
  cases found : fields.find key with
  | none => exact ⟨default, rfl⟩
  | some value =>
      have holds := isNumber value found
      cases value with
      | int rate => exact (floatOfInt_isOk rate).mpr (fits rate found)
      | float x => exact ⟨x, rfl⟩
      | _ => simp [TypeName.holds] at holds

theorem rate_isOk {manifest : Dict} (read : ManifestRead manifest)
    (rateable : Rateable manifest) {place : Text × Text}
    (member : place ∈ rateFields) (default : Float) :
    ∃ x, numberAt (orElse (manifest.get place.1) (.obj [])) place.2 default =
      .ok x := by
  have noFields : ∃ x, numberAt (.obj []) place.2 default = .ok x :=
    numberAt_isOk default (by simp [Dict.find]) (by simp [Dict.find])
  rcases read.rates place member with ⟨fields, isObject, isNumber⟩ | absent
  · rw [isObject]
    cases fields with
    | nil => exact noFields
    | cons field rest =>
        refine numberAt_isOk default isNumber ?_
        intro rate isInt
        exact rateable place member _ rate isObject isInt
  · rw [absent]
    exact noFields

theorem contains_isOk (s : Text) (items : List Json) :
    ∃ listed, (orElse (.arr items) (.arr [])).contains s = .ok listed := by
  cases items <;> exact ⟨_, rfl⟩

theorem scoreProvider_isOk {entry : ProviderEntry}
    (read : ManifestRead entry.manifest) (rateable : Rateable entry.manifest)
    (privacyMode modelId : Text) (weights : Option Weights) :
    ∃ score, scoreProvider (some privacyMode) (some modelId) weights entry =
      .ok score := by
  have listed : ∀ key ∈ [text "models", text "privacy_modes"], ∀ name,
      ∃ score, listedScore entry key name = .ok score := by
    intro key member name
    obtain ⟨items, found⟩ := read.listed key member
    obtain ⟨listed, contains⟩ := contains_isOk name items
    unfold listedScore
    rw [get_of_find found]
    simp [contains]
  have rate := fun place (member : place ∈ rateFields) default =>
    rate_isOk read rateable member default
  obtain ⟨fit, fits⟩ := listed "models" (by simp) modelId
  obtain ⟨privacy, keeps⟩ := listed "privacy_modes" (by simp) privacyMode
  obtain ⟨ttft, first⟩ := rate (text "benchmark", text "ttft_ms")
    (by simp [rateFields]) latencyAnchorMs
  obtain ⟨tps, second⟩ := rate (text "benchmark", text "tokens_per_second")
    (by simp [rateFields]) 0
  obtain ⟨input, third⟩ := rate (text "pricing", text "input_per_1m")
    (by simp [rateFields]) 0
  obtain ⟨output, fourth⟩ := rate (text "pricing", text "output_per_1m")
    (by simp [rateFields]) 0
  dsimp only at first second third fourth
  unfold scoreProvider modelFitScore latencyScore priceScore privacyScore
  simp only [fits, keeps, first, second, third, fourth, ok_bind, pure_eq_ok]
  split <;> exact ⟨_, rfl⟩

theorem scoreEach_isOk {entries : List ProviderEntry}
    {score : ProviderEntry → Except PyExc Float}
    (scores : ∀ entry ∈ entries, ∃ value, score entry = .ok value) :
    ∃ scored, scoreEach score entries = .ok scored := by
  induction entries with
  | nil => exact ⟨[], rfl⟩
  | cons entry rest induction =>
      obtain ⟨value, first⟩ := scores entry List.mem_cons_self
      obtain ⟨scored, later⟩ := induction fun other member =>
        scores other (List.mem_cons_of_mem _ member)
      exact ⟨(value, entry) :: scored, by simp [scoreEach, first, later]⟩

/-- The manifest lists the model. -/
def Lists (modelId : Text) (entry : ProviderEntry) : Prop :=
  ∃ items, entry.manifest.find "models" = some (.arr items) ∧
    .str modelId ∈ items

theorem forModel_isOk {modelId : Text} {registry : List ProviderEntry}
    (read : ∀ entry ∈ registry, ManifestRead entry.manifest) :
    ∃ found, forModel modelId registry = .ok found ∧
      ∀ entry ∈ found, entry ∈ registry ∧ Lists modelId entry := by
  induction registry with
  | nil => exact ⟨[], rfl, by simp⟩
  | cons entry rest induction =>
      obtain ⟨others, tail, listed⟩ := induction fun other member =>
        read other (List.mem_cons_of_mem _ member)
      obtain ⟨items, found⟩ := (read entry List.mem_cons_self).listed "models"
        (by simp)
      have later : ∀ other ∈ others,
          other ∈ entry :: rest ∧ Lists modelId other := by
        intro other member
        obtain ⟨inRest, lists⟩ := listed other member
        exact ⟨List.mem_cons_of_mem _ inRest, lists⟩
      unfold forModel
      rw [found]
      cases serves : items.any (Json.isStr modelId) with
      | false =>
          exact ⟨others, by simp [Json.contains, serves, tail], later⟩
      | true =>
          refine ⟨entry :: others, by simp [Json.contains, serves, tail], ?_⟩
          intro other member
          rcases List.mem_cons.mp member with rfl | inOthers
          · obtain ⟨item, inItems, isModel⟩ := List.any_eq_true.mp serves
            rw [Json.isStr_iff.mp isModel] at inItems
            exact ⟨List.mem_cons_self, items, found, inItems⟩
          · exact later other inOthers

theorem candidatesOf_isOk {options : ChatOptions}
    {registry : List ProviderEntry}
    (read : ∀ entry ∈ registry, ManifestRead entry.manifest)
    (rateable : ∀ entry ∈ registry, Lists options.model entry →
      Rateable entry.manifest) :
    ∃ candidates, candidatesOf options registry = .ok candidates ∧
      ∀ candidate ∈ candidates, candidate ∈ registry := by
  obtain ⟨found, finds, listed⟩ := @forModel_isOk options.model _ read
  obtain ⟨scored, scores⟩ := @scoreEach_isOk found
    (scoreProvider (some options.privacyMode) (some options.model)
      options.weights) fun entry member => by
        obtain ⟨inRegistry, lists⟩ := listed entry member
        exact scoreProvider_isOk (read entry inRegistry)
          (rateable entry inRegistry lists) _ _ _
  obtain ⟨ranked, resolves⟩ : ∃ ranked, resolve registry options.model
      (some options.privacyMode) options.weights = .ok ranked := by
    simp [resolve, finds, rankCandidates, scores]
  have members := fun candidate => @resolve_mem registry ranked _ _ _ resolves
    candidate
  unfold candidatesOf
  rw [resolves]
  cases options.maxProviders with
  | none => exact ⟨ranked, rfl, members⟩
  | some count =>
      refine ⟨takeTo count ranked, rfl, ?_⟩
      intro candidate member
      exact members candidate (List.mem_of_mem_take member)

/-- The vouchers of a wallet are dicts that verify. -/
def ValidWallet (P : Platform) (wallet : List HeldVoucher) : Prop :=
  ∀ held ∈ wallet, (Json.obj held.voucher).DistinctKeys ∧
    ∃ result, verifyVoucher P held.voucher = .ok result ∧ result.valid = true

/-- Vouchers that verify can be written. -/
theorem ValidWallet.clean {wallet : List HeldVoucher}
    (valid : ValidWallet P wallet) {held : HeldVoucher}
    (member : held ∈ wallet) : (Json.obj held.voucher).Clean := by
  obtain ⟨distinct, result, verified, isValid⟩ := valid held member
  exact verifyDocument_clean distinct
    ((verifySigned_valid verified).mp isValid).2

theorem heldAmount_isFinite (sound : P.SchemaSound) {voucher : Dict}
    {result : VerificationResult} {amount : Decimal}
    (verified : verifyVoucher P voucher = .ok result)
    (valid : result.valid = true) (states : heldAmount voucher = .ok amount) :
    amount.IsFinite := by
  obtain ⟨s, found, shape⟩ := verifyVoucher_denomination sound verified valid
  obtain ⟨c, rest, rfl, digit⟩ := amountRegex_digit shape
  unfold heldAmount at states
  rw [found] at states
  exact (Decimal.parse_isAmount digit states).isFinite

theorem balance_isFinite (sound : P.SchemaSound) {wallet : List HeldVoucher}
    (valid : ValidWallet P wallet) {unit : Text} {total sum : Decimal}
    (finite : total.IsFinite)
    (adds : Wallet.balance P.precision unit wallet total = .ok sum) :
    sum.IsFinite := by
  induction wallet generalizing total with
  | nil =>
      cases adds
      exact finite
  | cons held rest induction =>
      obtain ⟨⟨_, result, verified, isValid⟩, others⟩ :=
        List.forall_mem_cons.mp valid
      unfold Wallet.balance at adds
      split_ifs at adds
      · obtain ⟨amount, states, adds⟩ := bind_eq_ok.mp adds
        obtain ⟨next, added, adds⟩ := bind_eq_ok.mp adds
        exact induction others (Decimal.add_finite finite
          (heldAmount_isFinite sound verified isValid states) added) adds
      · exact induction others finite adds

/-- Where the balance can be added up, so can a part of it. -/
theorem pick_isOk (sound : P.SchemaSound) {wallet : List HeldVoucher}
    (valid : ValidWallet P wallet) {unit : Text}
    {target accumulated total : Decimal} (finite : accumulated.IsFinite)
    (notNan : ∀ signaling, target ≠ .nan signaling)
    (adds : Wallet.balance P.precision unit wallet accumulated = .ok total) :
    ∃ picked, Wallet.pick P.precision target unit wallet accumulated =
      .ok picked := by
  induction wallet generalizing accumulated with
  | nil => exact ⟨[], rfl⟩
  | cons held rest induction =>
      obtain ⟨⟨_, result, verified, isValid⟩, others⟩ :=
        List.forall_mem_cons.mp valid
      obtain ⟨less, compares⟩ := (Decimal.lt_isOk finite).mpr notNan
      unfold Wallet.balance at adds
      unfold Wallet.pick
      rw [compares]
      cases less with
      | false => exact ⟨[], rfl⟩
      | true =>
          split_ifs at adds with sameUnit
          · obtain ⟨amount, states, adds⟩ := bind_eq_ok.mp adds
            obtain ⟨next, added, adds⟩ := bind_eq_ok.mp adds
            obtain ⟨picked, picks⟩ := induction others (Decimal.add_finite
              finite (heldAmount_isFinite sound verified isValid states) added)
              adds
            exact ⟨held :: picked, by simp [sameUnit, states, added, picks]⟩
          · obtain ⟨picked, picks⟩ := induction others finite adds
            exact ⟨picked, by simp [sameUnit, picks]⟩

/-- A selection answers a price that is a number, from vouchers that can be
added up. -/
theorem select_answers (sound : P.SchemaSound) {wallet : List HeldVoucher}
    (valid : ValidWallet P wallet) {price unit : Text} {total : Decimal}
    (readable : PriceReadable price)
    (adds : Wallet.balance P.precision unit wallet .zero = .ok total) :
    (∃ both, Wallet.select P.precision wallet price unit = .ok both) ∨
      Wallet.select P.precision wallet price unit =
        .error .insufficientFunds := by
  obtain ⟨target, reads, notNan⟩ := readable
  have zeroFinite := Decimal.isAmount_zero.isFinite
  obtain ⟨less, compares⟩ := (Decimal.lt_isOk
    (balance_isFinite sound valid zeroFinite adds)).mpr notNan
  obtain ⟨picked, picks⟩ := pick_isOk sound valid zeroFinite notNan adds
  cases less with
  | true =>
      right
      simp [Wallet.select, reads, adds, compares]
  | false =>
      left
      simp [Wallet.select, reads, adds, compares, picks]

/-- Verifying the receipt can write it, and if it verifies under the key of
the candidate the content can be hashed. -/
structure ReceiptReadable (P : Platform) (candidate : ProviderEntry)
    (content : Text) (receipt : Dict) : Prop where
  writable : HasSignature receipt "provider_pubkey" →
    (Json.obj (receipt.without signatureField)).Clean
  encodable : ∀ result, verifyReceipt P receipt = .ok result →
    result.valid = true → (receipt.get "provider_pubkey").pyEq
      (candidate.manifest.get "provider_pubkey") = true → Encodable content

theorem receiptTrusted_isOk (receipt : Dict) (content : Text) :
    (∃ trusted, receiptTrusted P (.obj receipt) candidate content =
      .ok trusted) ↔ ReceiptReadable P candidate content receipt := by
  have writable := @verifySigned_returns P Schemas.receipt "provider_pubkey"
    "provider" receipt
  unfold receiptTrusted
  dsimp only [Json.asDict]
  cases verified : verifyReceipt P receipt with
  | error error =>
      refine iff_of_false (by simp) ?_
      intro readable
      obtain ⟨result, returns⟩ := writable.mpr readable.writable
      rw [← verifyReceipt, verified] at returns
      cases returns
  | ok result =>
      have writes := writable.mp ⟨result, verified⟩
      have isResult : ∀ other, verifyReceipt P receipt = .ok other →
          other = result := by
        intro other same
        rw [verified, Except.ok.injEq] at same
        exact same.symm
      cases valid : result.valid with
      | false =>
          refine iff_of_true (by simp [valid]) ⟨writes, ?_⟩
          intro other same isValid
          rw [isResult other same, valid] at isValid
          cases isValid
      | true =>
          cases sameKey : (receipt.get "provider_pubkey").pyEq
              (candidate.manifest.get "provider_pubkey") with
          | false =>
              refine iff_of_true (by simp) ⟨writes, ?_⟩
              intro _ _ _ isSame
              rw [sameKey] at isSame
              cases isSame
          | true =>
              have onContent : ReceiptReadable P candidate content receipt ↔
                  Encodable content :=
                ⟨fun readable => readable.encodable result verified valid
                  sameKey, fun encodable => ⟨writes, fun _ _ _ _ => encodable⟩⟩
              rw [onContent, ← hashResponseBody_isOk]
              cases hashResponseBody content with
              | error error => simp [valid]
              | ok hash => simp [valid]

theorem readQuote_isOk (quote : Dict) :
    (∃ found, readQuote P (.obj quote) = .ok found) ↔
      (HasSignature quote "provider_pubkey" →
        (Json.obj (quote.without signatureField)).Clean) := by
  rw [← @verifySigned_returns P Schemas.quote "provider_pubkey" "provider"]
  unfold readQuote
  dsimp only [Json.asDict]
  rw [verifyQuote]
  cases verifySigned P Schemas.quote "provider_pubkey" "provider" quote with
  | error error => simp
  | ok result => simp

/-- The price that the receipt states in the units of the quote can be written
and is not a NaN. -/
def ChargeReadable (P : Platform) (quote receipt : Dict) : Prop :=
  (receipt.get "price_units").pyEq (quote.get "price_units") = true →
    ∃ price, (receipt.get "price_amount").toStr P.isPrintable = .ok price ∧
      ∀ signaling, Decimal.parse price ≠ .ok (.nan signaling)

theorem parse_error {s : Text} {error : PyExc}
    (fails : Decimal.parse s = .error error) : error = .invalidOperation := by
  unfold Decimal.parse at fails
  dsimp only at fails
  split at fails
  · split_ifs at fails
    cases fails
    rfl
  · split at fails
    · cases fails
    · cases fails
      rfl

theorem le_isOk {x y : Decimal} (notNan : ∀ signaling, x ≠ .nan signaling)
    (finite : y.IsFinite) : ∃ answer, x.le y = .ok answer := by
  obtain ⟨_, _, _, rfl⟩ := finite
  cases x with
  | finite negative coefficient exponent => exact ⟨_, rfl⟩
  | infinity negative => exact ⟨_, rfl⟩
  | nan signaling => exact absurd rfl (notNan signaling)

/-- The ceiling of a valid quote is an amount. -/
theorem verifyQuote_maxPrice (sound : P.SchemaSound) {quote : Dict}
    {result : VerificationResult} (verified : verifyQuote P quote = .ok result)
    (valid : result.valid = true) :
    ∃ s, quote.get "max_price" = .str s ∧
      ∀ ceiling, Decimal.parse s = .ok ceiling → ceiling.IsFinite := by
  have noErrors := ((verifySigned_valid verified).mp valid).1
  rw [sound] at noErrors
  obtain ⟨fields, same, required, _⟩ := Schema.record_valid noErrors
  cases same
  obtain ⟨value, found⟩ := required "max_price" (by decide)
  obtain ⟨s, rfl, shape⟩ := Schema.string_valid
    (Schema.record_field noErrors rfl found)
  refine ⟨s, get_of_find found, ?_⟩
  intro ceiling reads
  obtain ⟨c, rest, rfl, digit⟩ := amountRegex_digit
    (shape _ List.mem_cons_self)
  exact (Decimal.parse_isAmount digit reads).isFinite

theorem withinQuote_isOk (sound : P.SchemaSound) {quote receipt : Dict}
    {result : VerificationResult} (verified : verifyQuote P quote = .ok result)
    (valid : result.valid = true) (readable : ChargeReadable P quote receipt) :
    ∃ within, withinQuote P quote (.obj receipt) = .ok within := by
  obtain ⟨ceilingText, isCeiling, finite⟩ :=
    verifyQuote_maxPrice sound verified valid
  unfold withinQuote
  dsimp only [Json.asDict]
  cases units : (receipt.get "price_units").pyEq (quote.get "price_units") with
  | false => exact ⟨false, rfl⟩
  | true =>
      obtain ⟨price, written, notNan⟩ := readable units
      simp only [Bool.not_true, Bool.false_eq_true, if_false, isCeiling]
      unfold readPrices priceOf
      rw [written]
      simp only [ok_bind, Json.toStr]
      cases reads : Decimal.parse price with
      | error error =>
          obtain rfl := parse_error reads
          exact ⟨false, rfl⟩
      | ok charged =>
          cases readsCeiling : Decimal.parse ceilingText with
          | error error =>
              obtain rfl := parse_error readsCeiling
              exact ⟨false, rfl⟩
          | ok ceiling =>
              refine le_isOk ?_ (finite ceiling readsCeiling)
              intro signaling isNan
              exact notNan signaling (isNan ▸ reads)

/-- The expiry of the quote can be compared with the present, and if it is
still ahead then the price of the receipt can be read. -/
structure QuoteReadable (P : Platform) (quote : Dict) (receipt : Json)
    (now : DateTime) : Prop where
  datable : Datable P quote "expires_at" now
  charge : quoteIsExpired P quote now = .ok false →
    ∀ fields, receipt = .obj fields → ChargeReadable P quote fields

/-- The price and the unit of the challenge can be written; for vouchers, the
price is a number and those held in the unit can be added up; for a direct
payment both can be encoded. -/
def ChallengeReadable (P : Platform) (options : ChatOptions)
    (wallet : List HeldVoucher) (challenge : Dict) : Prop :=
  ∃ price unit,
    (challenge.get "price_amount").toStr P.isPrintable = .ok price ∧
    (challenge.get "price_units").toStr P.isPrintable = .ok unit ∧
    let accepted := (challenge.get "accepted_schemes").asList.getD []
    if options.wallet && accepts accepted "pic" then
      PriceReadable price ∧
        ∃ total, Wallet.balance P.precision unit wallet .zero = .ok total
    else
      options.x402Keypair.isSome = true → accepts accepted "x402" = true →
        Encodable price ∧ Encodable unit

end SovereignInference.SipRouter
