import SovereignInference.SipPic.Freshness
import SovereignInference.SipPic.RedemptionTotality

/-!
# When a check of time returns

A stated time that has no place in the calendar of UTC is not malformed to the
expiry checks: they convert it and raise.  Wherever they return they are right,
and what has expired stays expired.
-/

namespace SovereignInference.SipPic

open Python Effects SipProtocol

/-- An aware time and its instant, which need not be in the calendar. -/
def IsInstant (moment : DateTime) (instant : Int) : Prop :=
  ∃ offset, moment.offset = some offset ∧ moment.micros - offset = instant

section

variable (P : Platform)

/-- The instant that the field states, if it is in the calendar. -/
def statedInstant (document : Dict) (field : Text) : Option Int :=
  (document.get field).asStr.bind fun raw =>
    (DateTime.fromIsoFormat (replace raw 0x5A "+00:00")).bind fun moment =>
      (moment.toUtc P.localOffset).toOption

/-- What an expiry check promises at a time and at a later one. -/
structure ExpiryLaw (document : Dict) (check : DateTime → Except PyExc Bool)
    (now later : DateTime) : Prop where
  returns : ∀ time ∈ [now, later], ∃ expired, check time = .ok expired
  undated : statedInstant P document "expires_at" = none →
    ∀ time ∈ [now, later], check time = .ok true
  stays : check now = .ok true → check later = .ok true

/-- What the verification of a payment promises. -/
structure PaymentLaw (maxAge : Int) (payment : Dict) (terms : Terms) :
    Prop where
  returns : ∃ verified, verifyX402Within P maxAge payment terms.price
    terms.unit terms.now terms.providerPubkey terms.requestId = .ok verified
  undated : ∀ inner, payment.get "payment" = .obj inner →
    issuedAt P inner = none →
      verifyX402Within P maxAge payment terms.price terms.unit terms.now
        terms.providerPubkey terms.requestId = .ok false

/-- What the verification gets to of the signed part can be read. -/
def PaymentCheckable (payment : Dict) (terms : Terms) : Prop :=
  (payment.get "scheme").isStr "x402" = true →
    ∀ inner, payment.get "payment" = .obj inner →
      (innerNonce inner).isSome = true → X402Readable P terms inner

end

variable {P : Platform} {document payment : Dict} {terms : Terms}
  {now later : DateTime} {start stop : Int}

private theorem IsInstant.toUtc_eq (instant : IsInstant now start) {utc : Int}
    (converts : now.toUtc P.localOffset = .ok utc) : utc = start := by
  obtain ⟨offset, aware, same⟩ := instant
  unfold DateTime.toUtc at converts
  simp only [aware, ok_bind, same] at converts
  split_ifs at converts
  cases converts
  rfl

/-- Where the check returns, it compares instants. -/
theorem isExpired_eq (datable : Datable P document "expires_at" now)
    (instant : IsInstant now start) :
    isExpired P document now =
      .ok ((statedInstant P document "expires_at").all (· ≤ start)) := by
  unfold isExpired statedInstant
  cases stated : document.get "expires_at" with
  | str raw =>
      dsimp only
      cases reads : DateTime.fromIsoFormat (replace raw 0x5A "+00:00") with
      | none => simp [Json.asStr, reads]
      | some moment =>
          obtain ⟨⟨current, isCurrent⟩, expiry, isExpiry⟩ :=
            datable raw moment stated reads
          have sameInstant := instant.toUtc_eq isCurrent
          subst sameInstant
          simp [Json.asStr, reads, isCurrent, isExpiry, Except.toOption]
  | _ => simp [Json.asStr]

theorem expiryLaw_iff (nowIs : IsInstant now start)
    (laterIs : IsInstant later stop) (ordered : start ≤ stop) :
    ExpiryLaw P document (isExpired P document) now later ↔
      Datable P document "expires_at" now ∧
        Datable P document "expires_at" later := by
  constructor
  · intro law
    exact ⟨(isExpired_isOk document now).mp
        (law.returns now List.mem_cons_self),
      (isExpired_isOk document later).mp (law.returns later (by simp))⟩
  · rintro ⟨datable, datableLater⟩
    have first := isExpired_eq datable nowIs
    have second := isExpired_eq datableLater laterIs
    constructor
    · intro time member
      simp only [List.mem_cons, List.not_mem_nil, or_false] at member
      rcases member with rfl | rfl
      · exact ⟨_, first⟩
      · exact ⟨_, second⟩
    · intro undated time member
      rw [undated, Option.all_none] at first second
      simp only [List.mem_cons, List.not_mem_nil, or_false] at member
      rcases member with rfl | rfl
      · exact first
      · exact second
    · intro expired
      rw [first, Except.ok.injEq] at expired
      rw [second, Except.ok.injEq]
      cases stated : statedInstant P document "expires_at" with
      | none => rfl
      | some expiry =>
          rw [stated, Option.all_some, decide_eq_true_iff] at expired
          rw [Option.all_some, decide_eq_true_iff]
          exact expired.trans ordered

private theorem verifyX402Within_isOk (maxAge : Int) :
    (∃ verified, verifyX402Within P maxAge payment terms.price terms.unit
      terms.now terms.providerPubkey terms.requestId = .ok verified) ↔
        PaymentCheckable P payment terms := by
  unfold verifyX402Within PaymentCheckable
  cases (payment.get "scheme").isStr "x402" with
  | false => simp
  | true =>
      cases isInner : payment.get "payment" with
      | obj inner =>
          simp only [Json.asDict, if_true, forall_const, Json.obj.injEq,
            forall_eq']
          cases hasNonce : (innerNonce inner).isSome with
          | true =>
              rw [forall_prop_of_true rfl]
              exact verifyX402InnerWithin_isOk hasNonce maxAge
          | false =>
              have noNonce : (innerNonce inner).isNone = true := by
                simpa using hasNonce
              refine iff_of_true ?_ (by simp)
              unfold verifyX402InnerWithin
              by_cases sameUnit :
                  (Dict.get inner "unit").isStr terms.unit = true
              · exact ⟨false, by simp [sameUnit, noNonce]⟩
              · exact ⟨false, by simp [sameUnit]⟩
      | _ => simp [Json.asDict]

private theorem paymentLaw_iff (maxAge : Int) :
    PaymentLaw P maxAge payment terms ↔ PaymentCheckable P payment terms := by
  rw [← verifyX402Within_isOk maxAge]
  constructor
  · intro law
    exact law.returns
  · rintro ⟨verified, returns⟩
    refine ⟨⟨verified, returns⟩, ?_⟩
    intro inner isInner undated
    cases verified with
    | false => exact returns
    | true =>
        obtain ⟨_, other, isOther, accepted⟩ :=
          verifyX402Within_true.mp returns
        rw [isInner, Json.obj.injEq] at isOther
        subst isOther
        obtain ⟨_, _, issued, _, isIssued, _⟩ :=
          verifyX402InnerWithin_true.mp accepted
        rw [undated] at isIssued
        cases isIssued

/-- **When the checks of time are total and monotone.** -/
theorem time_checks_total_iff (nowIs : IsInstant now start)
    (laterIs : IsInstant later stop) (ordered : start ≤ stop)
    (maxAge : Int) :
    (ExpiryLaw P document (voucherIsExpired P document) now later ↔
      Datable P document "expires_at" now ∧
        Datable P document "expires_at" later) ∧
    (ExpiryLaw P document (quoteIsExpired P document) now later ↔
      Datable P document "expires_at" now ∧
        Datable P document "expires_at" later) ∧
    (PaymentLaw P maxAge payment terms ↔ PaymentCheckable P payment terms) :=
  ⟨expiryLaw_iff nowIs laterIs ordered, expiryLaw_iff nowIs laterIs ordered,
    paymentLaw_iff maxAge⟩

def expiringAt (expiry : Text) : Dict := [("expires_at", .str expiry)]

def secondsOf2026 : Int := 63902822400

/-- A quote that expires within a minute. -/
theorem time_checks_total_iff_expiring :
    let now : DateTime := ⟨secondsOf2026 * 10 ^ 6, some 0⟩
    let later : DateTime := ⟨(secondsOf2026 + 60) * 10 ^ 6, some 0⟩
    let quote := expiringAt "2026-01-01T00:00:30Z"
    ExpiryLaw assertionTable.platform quote
      (quoteIsExpired assertionTable.platform quote) now later := by
  intro now later quote
  have nowIs : IsInstant now (secondsOf2026 * 10 ^ 6) := ⟨0, rfl, rfl⟩
  have laterIs : IsInstant later ((secondsOf2026 + 60) * 10 ^ 6) :=
    ⟨0, rfl, rfl⟩
  have law := @time_checks_total_iff assertionTable.platform quote assertion
    assertionTerms now later _ _ nowIs laterIs (by decide) 300
  rw [law.2.1]
  have returns : ∀ time ∈ [now, later], ∃ expired,
      isExpired assertionTable.platform quote time = .ok expired := by
    intro time member
    simp only [List.mem_cons, List.not_mem_nil, or_false] at member
    rcases member with rfl | rfl
    · exact ⟨false, by decide +kernel⟩
    · exact ⟨true, by decide +kernel⟩
  exact ⟨(isExpired_isOk _ _).mp (returns now List.mem_cons_self),
    (isExpired_isOk _ _).mp (returns later (by simp))⟩

/-- The first day of the calendar, east of Greenwich. -/
theorem expiry_before_calendar_raises :
    let now : DateTime := ⟨secondsOf2026 * 10 ^ 6, some 0⟩
    let quote := expiringAt "0001-01-01T00:00:00+23:59"
    quoteIsExpired assertionTable.platform quote now =
        .error .overflowError ∧
      ¬ ExpiryLaw assertionTable.platform quote
        (quoteIsExpired assertionTable.platform quote) now now := by
  intro now quote
  have raises : quoteIsExpired assertionTable.platform quote now =
      .error .overflowError := by decide +kernel
  refine ⟨raises, ?_⟩
  intro law
  obtain ⟨expired, returns⟩ := law.returns now List.mem_cons_self
  rw [raises] at returns
  cases returns

end SovereignInference.SipPic
