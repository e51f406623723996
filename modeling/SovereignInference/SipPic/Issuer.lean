import SovereignInference.Python.IsoText
import SovereignInference.SipPic.BatchValue
import SovereignInference.SipPic.Freshness
import SovereignInference.SipProtocol.Conformance

/-!
# The issuer of vouchers

An issuer signs vouchers with fresh ids, which expire some seconds after they
were issued.  A gateway that trusts the issuer accepts such a voucher up to the
second in which it expires, if its values are legal.
-/

namespace SovereignInference.SipPic

open Python Effects SipProtocol

/-- The random bytes of a voucher id. -/
abbrev Secret := { bytes : Bytes // bytes.length = 32 }

/-- `new_voucher_id`, with the bytes it draws. -/
def newVoucherId (drawn : Secret) : Text := b64uEncode drawn.val

structure VoucherFields where
  denomination : Text
  unit : Text
  issuerPubkey : Text
  issuedAt : DateTime
  expiresAt : DateTime
  voucherId : Text

structure Issuer where
  keypair : KeyPair
  unit : Text := "pic"

section

variable (P : Platform)

def buildVoucher (fields : VoucherFields) : Except PyExc Dict := do
  let issuedAt ← utcIso P fields.issuedAt
  let expiresAt ← utcIso P fields.expiresAt
  return [("voucher_version", .str "sip-ai.voucher.v1"),
    ("voucher_id", .str fields.voucherId),
    ("denomination", .str fields.denomination),
    ("unit", .str fields.unit),
    ("issuer_pubkey", .str fields.issuerPubkey),
    ("issued_at", .str issuedAt),
    ("expires_at", .str expiresAt)]

def signVoucher (voucher : Dict) (keypair : KeyPair) : Except PyExc Dict :=
  signDocument P voucher keypair

def Issuer.pubkey (issuer : Issuer) : Text := issuer.keypair.publicKeyStr P

/-- One voucher of `issue`. -/
def Issuer.mint (issuer : Issuer) (denomination : Text)
    (issuedAt expiresAt : DateTime) (drawn : Secret) : Except PyExc Dict := do
  let unsigned ← buildVoucher P
    { denomination, unit := issuer.unit, issuerPubkey := issuer.pubkey P
      issuedAt, expiresAt, voucherId := newVoucherId drawn }
  signVoucher P unsigned issuer.keypair

/-- `issue`, with the bytes that it draws one after another. -/
def Issuer.issue (issuer : Issuer) (denomination : Text)
    (count ttlSeconds : Int) (now : DateTime) (drawn : Nat → Secret) :
    Except PyExc (List Dict) := do
  let expiresAt ← now.later (ttlSeconds * 10 ^ 6)
  (List.range count.toNat).mapM fun index =>
    issuer.mint P denomination now expiresAt (drawn index)

end

variable {P : Platform} {issuer : Issuer} {fields : VoucherFields}
  {document voucher : Dict}

def voucherUnits : List Text := ["pic", "usdc", "test"]

/-- The values of a voucher that the schema restricts. -/
@[mk_iff]
structure VoucherFields.Legal (fields : VoucherFields) : Prop where
  voucherId : (Schema.string [.pattern Schemas.voucherIdRegex]).valid
    (.str fields.voucherId) = true
  denomination : Schemas.amount.valid (.str fields.denomination) = true
  unit : fields.unit ∈ voucherUnits
  issuerPubkey : Schemas.publicKey.valid (.str fields.issuerPubkey) = true

def voucherKeys : List Text :=
  ["voucher_version", "voucher_id", "denomination", "unit", "issuer_pubkey",
    "issued_at", "expires_at", "signature"]

theorem voucher_valid_iff {signature : Text}
    (built : buildVoucher P fields = .ok document)
    (signatureValid : Schemas.signature.valid (.str signature) = true) :
    Schemas.voucher.valid
        (.obj (document ++ [(signatureField, .str signature)])) = true ↔
      fields.Legal := by
  obtain ⟨issuedAt, _, built⟩ := bind_eq_ok.mp built
  obtain ⟨expiresAt, _, built⟩ := bind_eq_ok.mp built
  cases built
  rw [VoucherFields.legal_iff]
  unfold Schemas.voucher
  rw [Schema.record_valid_lookup, and_iff_right]
  rotate_left
  · change ∀ key ∈ (_ : List Text), key ∈ voucherKeys
    decide
  · change voucherKeys.Nodup
    decide
  · simp only [List.map_cons, List.map_nil]
    decide
  simp only [List.cons_append, List.nil_append, List.forall_mem_cons]
  constructor
  · rintro ⟨-, voucherId, denomination, unit, issuerPubkey, -⟩
    exact ⟨voucherId, denomination, enum_valid_iff.mp unit, issuerPubkey⟩
  · rintro ⟨voucherId, denomination, unit, issuerPubkey⟩
    exact ⟨rfl, voucherId, denomination, enum_valid_iff.mpr unit, issuerPubkey,
      rfl, rfl, signatureValid, List.forall_mem_nil _⟩

/-- Every drawn id has the shape that the schema asks for. -/
theorem newVoucherId_valid (drawn : Secret) :
    (Schema.string [.pattern Schemas.voucherIdRegex]).valid
      (.str (newVoucherId drawn)) = true := by
  have plain : ∀ value < 64, Regex.inRanges
      [(0x41, 0x5A), (0x61, 0x7A), (0x30, 0x39), (0x5F, 0x5F), (0x2D, 0x2D)]
      (base64Char value) = true := by
    decide
  have length : (newVoucherId drawn).length = 43 := by
    unfold newVoucherId
    rw [length_b64uEncode, drawn.property]
  refine (Schema.allValid_iff _ _).mpr ?_
  simp only [List.mem_cons, List.not_mem_nil, or_false, forall_eq_or_imp,
    forall_eq]
  refine ⟨rfl, ?_⟩
  show Regex.matchesText _ _ = true
  rw [Regex.matchesText_iff]
  refine ⟨newVoucherId drawn, ⟨?_, ?_, ?_⟩, .inl rfl⟩
  · intro c member
    obtain ⟨value, small, rfl⟩ := mem_b64uEncode member
    exact plain value small
  · rw [length]
  · intro bound isMost
    cases isMost
    rw [length]
    decide

/-- A voucher that was built from these fields and signed by the issuer. -/
structure Issued (P : Platform) (issuer : Issuer) (fields : VoucherFields)
    (voucher : Dict) : Prop where
  signed : ∃ unsigned, buildVoucher P fields = .ok unsigned ∧
    signVoucher P unsigned issuer.keypair = .ok voucher
  unit : fields.unit = issuer.unit
  issuerPubkey : fields.issuerPubkey = issuer.pubkey P
  drawn : ∃ drawn, fields.voucherId = newVoucherId drawn

/-- A voucher of some call of `issue`. -/
def FromIssuer (P : Platform) (issuer : Issuer) (voucher : Dict) : Prop :=
  ∃ denomination count ttlSeconds now drawn vouchers,
    issuer.issue P denomination count ttlSeconds now drawn = .ok vouchers ∧
      voucher ∈ vouchers

private theorem mem_mapM {α β : Type} {f : α → Except PyExc β} {items : List α}
    {results : List β} (mapped : items.mapM f = .ok results) {result : β}
    (member : result ∈ results) : ∃ item ∈ items, f item = .ok result := by
  induction items generalizing results with
  | nil =>
      cases mapped
      cases member
  | cons item rest induction =>
      rw [List.mapM_cons] at mapped
      obtain ⟨first, isFirst, mapped⟩ := bind_eq_ok.mp mapped
      obtain ⟨others, isRest, mapped⟩ := bind_eq_ok.mp mapped
      cases mapped
      rcases List.mem_cons.mp member with rfl | later
      · exact ⟨item, List.mem_cons_self, isFirst⟩
      · obtain ⟨other, inRest, isOther⟩ := induction isRest later
        exact ⟨other, List.mem_cons_of_mem _ inRest, isOther⟩

theorem FromIssuer.issued (issues : FromIssuer P issuer voucher) :
    ∃ fields, Issued P issuer fields voucher := by
  obtain ⟨denomination, count, ttlSeconds, now, drawn, vouchers, issues,
    member⟩ := issues
  obtain ⟨expiresAt, _, issues⟩ := bind_eq_ok.mp issues
  obtain ⟨index, _, minted⟩ := mem_mapM issues member
  obtain ⟨unsigned, built, signed⟩ := bind_eq_ok.mp minted
  exact ⟨_, ⟨unsigned, built, signed⟩, rfl, rfl, _, rfl⟩

/-- The fields of a voucher. -/
structure States (P : Platform) (fields : VoucherFields) (voucher : Dict) :
    Prop where
  denomination : voucher.find "denomination" = some (.str fields.denomination)
  unit : voucher.get "unit" = .str fields.unit
  issuer : voucher.get "issuer_pubkey" = .str fields.issuerPubkey
  voucherId : voucher.get "voucher_id" = .str fields.voucherId
  expires : ∃ utc, fields.expiresAt.toUtc P.localOffset = .ok utc ∧
    voucher.get "expires_at" = .str (DateTime.isoText utc)

theorem Issued.appended (issues : Issued P issuer fields voucher) :
    States P fields voucher ∧ ∃ unsigned message,
      buildVoucher P fields = .ok unsigned ∧
        voucher = unsigned ++
          [(signatureField, .str (issuer.keypair.sign P message))] := by
  obtain ⟨unsigned, built, signed⟩ := issues.signed
  have made := built
  obtain ⟨issuedAt, _, made⟩ := bind_eq_ok.mp made
  obtain ⟨expiresAt, expires, made⟩ := bind_eq_ok.mp made
  obtain ⟨utc, isUtc, written⟩ := bind_eq_ok.mp expires
  cases written
  cases made
  obtain ⟨message, rfl⟩ := signDocument_append (by
    change signatureField ∉ voucherKeys.take 7
    decide) signed
  exact ⟨⟨rfl, rfl, rfl, rfl, utc, isUtc, rfl⟩, _, message, built, rfl⟩

/-- An issued voucher verifies if its values are legal. -/
theorem Issued.verifies (sound : P.SchemaSound)
    (signs : P.SignsFor issuer.keypair)
    (issues : Issued P issuer fields voucher) :
    ∃ result, verifyVoucher P voucher = .ok result ∧
      (result.valid = true ↔ fields.Legal) := by
  obtain ⟨states, unsigned, message, built, same⟩ := issues.appended
  obtain ⟨_, rebuilt, signed⟩ := issues.signed
  rw [built, Except.ok.injEq] at rebuilt
  subst rebuilt
  have names := states.issuer
  rw [issues.issuerPubkey] at names
  have legal := voucher_valid_iff built (sign_valid signs message)
  rw [← same] at legal
  rw [← legal]
  exact verifySigned_signed sound signs signed names

/-- The instant that a written time is read as. -/
theorem readsInstant {utc : Int}
    (within : 0 ≤ utc ∧ utc < DateTime.calendarEnd) {moment : DateTime}
    (reads : DateTime.fromIsoFormat
      (replace (DateTime.isoText utc) 0x5A "+00:00") = some moment) :
    DateTime.firstReadable ≤ utc ∧
      moment.toUtc P.localOffset = .ok (utc / 10 ^ 6 * 10 ^ 6) := by
  rcases lt_or_ge utc DateTime.firstReadable with early | begun
  · rw [DateTime.fromIsoFormat_isoText_early early] at reads
    cases reads
  · rw [DateTime.fromIsoFormat_isoText begun within.2] at reads
    cases reads
    have inCalendar : 0 ≤ utc / 10 ^ 6 * 10 ^ 6 ∧
        utc / 10 ^ 6 * 10 ^ 6 < DateTime.calendarEnd := by omega
    refine ⟨begun, ?_⟩
    unfold DateTime.toUtc
    simp only [ok_bind, Int.sub_zero]
    exact if_pos inCalendar

/-- A document expires at the second that was written into it, and at once if
the year has fewer than four digits. -/
theorem isExpired_isoText {now : DateTime} {utc current : Int}
    (within : 0 ≤ utc ∧ utc < DateTime.calendarEnd)
    (stated : document.get "expires_at" = .str (DateTime.isoText utc))
    (isCurrent : now.toUtc P.localOffset = .ok current) :
    isExpired P document now = .ok (decide (utc < DateTime.firstReadable ∨
      utc / 10 ^ 6 * 10 ^ 6 ≤ current)) := by
  unfold isExpired
  rw [stated]
  dsimp only
  cases reads : DateTime.fromIsoFormat
      (replace (DateTime.isoText utc) 0x5A "+00:00") with
  | none =>
      have early : utc < DateTime.firstReadable := by
        by_contra begun
        rw [DateTime.fromIsoFormat_isoText (not_lt.mp begun) within.2] at reads
        cases reads
      simp [early]
  | some moment =>
      obtain ⟨begun, isInstant⟩ := @readsInstant P _ within _ reads
      simp [isCurrent, isInstant, not_lt.mpr begun]

/-- The fields of a voucher that a gateway accepts at a time. -/
structure Acceptable (P : Platform) (issuerPubkeys : List Text) (current : Int)
    (fields : VoucherFields) : Prop where
  legal : fields.Legal
  trusted : fields.issuerPubkey ∈ issuerPubkeys
  unexpired : ∃ expiry, fields.expiresAt.toUtc P.localOffset = .ok expiry ∧
    DateTime.firstReadable ≤ expiry ∧ current < expiry / 10 ^ 6 * 10 ^ 6

/-- **An issued voucher is accepted** by those who trust its issuer, until the
second in which it expires. -/
theorem Issued.accepted_iff {terms : Terms} {current : Int}
    (sound : P.SchemaSound) (signs : P.SignsFor issuer.keypair)
    (issues : Issued P issuer fields voucher)
    (ofUnit : (voucher.get "unit").isStr terms.unit = true)
    (isCurrent : terms.now.toUtc P.localOffset = .ok current) :
    VoucherAccepted P terms voucher ↔
      Acceptable P terms.issuerPubkeys current fields := by
  obtain ⟨result, verified, valid⟩ := issues.verifies sound signs
  obtain ⟨states, _⟩ := issues.appended
  obtain ⟨expiry, isExpiry, written⟩ := states.expires
  have expires := isExpired_isoText (toUtc_bounds isExpiry) written isCurrent
  constructor
  · intro accepted
    obtain ⟨result', verified', isValid⟩ := accepted.verified
    rw [verified, Except.ok.injEq] at verified'
    subst verified'
    obtain ⟨key, trusted, names⟩ := accepted.issuer
    rw [states.issuer, Json.isStr_iff, Json.str.injEq] at names
    subst names
    have unexpired := accepted.unexpired
    unfold voucherIsExpired at unexpired
    rw [expires, Except.ok.injEq, decide_eq_false_iff_not, not_or, not_lt,
      not_le] at unexpired
    exact ⟨valid.mp isValid, trusted, expiry, isExpiry, unexpired⟩
  · rintro ⟨legal, trusted, other, isOther, unexpired⟩
    rw [isExpiry, Except.ok.injEq] at isOther
    subst isOther
    refine ⟨⟨result, verified, valid.mpr legal⟩, ofUnit,
      ⟨_, trusted, by rw [states.issuer]; exact Json.isStr_iff.mpr rfl⟩, ?_⟩
    unfold voucherIsExpired
    rw [expires, Except.ok.injEq, decide_eq_false_iff_not, not_or, not_lt,
      not_le]
    exact unexpired

end SovereignInference.SipPic
