import SovereignInference.SipPic.ConcurrentRedemption

/-!
# How long an assertion stays acceptable

The age of an assertion is bounded from above only.  One that is dated ahead
is acceptable at once, and until its date and the bound have passed.
-/

namespace SovereignInference.SipPic

open Python Effects SipProtocol

section

variable (P : Platform)

/-- The moment at which the signed part says it was issued. -/
def issuedAt (inner : Dict) : Option Int :=
  (inner.get "issued_at").asStr.bind fun raw =>
    (DateTime.fromIsoFormat (replace raw 0x5A "+00:00")).bind fun moment =>
      (moment.toUtc P.localOffset).toOption

/-- The signed part passes every check but that of its age. -/
structure Sufficient (inner : Dict) (price unit : Text)
    (providerPubkey requestId : Option Text) : Prop where
  unit : (inner.get "unit").isStr unit = true
  nonce : (innerNonce inner).isNone = false
  provider : boundTo inner "provider_pubkey" providerPubkey = true
  request : boundTo inner "request_id" requestId = true
  amount : ∃ amount, (inner.get "amount").toStr P.isPrintable = .ok amount ∧
    covers amount price = true
  signed : verifyDocument P inner "payer_pubkey" = .ok true

end

section

variable {P : Platform} {maxAge : Int} {payment inner : Dict}
  {price unit : Text} {now : DateTime} {providerPubkey requestId : Option Text}

theorem Sufficient.checks_age
    (sufficient : Sufficient P inner price unit providerPubkey requestId) :
    verifyX402InnerWithin P maxAge inner price unit now providerPubkey
        requestId =
      match inner.get "issued_at" with
      | .str raw =>
          match DateTime.fromIsoFormat (replace raw 0x5A "+00:00") with
          | none => .ok false
          | some issued => do
              let current ← now.toUtc P.localOffset
              let issued ← issued.toUtc P.localOffset
              return secondsLe (current - issued) maxAge
      | _ => .ok false := by
  obtain ⟨unitIs, hasNonce, provider, request, ⟨amount, stated, covered⟩,
    signed⟩ := sufficient
  unfold verifyX402InnerWithin
  rw [unitIs, hasNonce, provider, request, stated, signed]
  simp only [ok_bind, covered, Bool.not_true, Bool.false_eq_true, if_false]
  rfl

private theorem sufficient_of_verified
    (verified : verifyX402InnerWithin P maxAge inner price unit now
      providerPubkey requestId = .ok true) :
    Sufficient P inner price unit providerPubkey requestId := by
  unfold verifyX402InnerWithin at verified
  have unitIs : (inner.get "unit").isStr unit = true := by
    by_contra other
    rw [Bool.not_eq_true] at other
    simp [other] at verified
  have hasNonce : (innerNonce inner).isNone = false := by
    by_contra other
    rw [Bool.not_eq_false] at other
    simp [unitIs, other] at verified
  have provider : boundTo inner "provider_pubkey" providerPubkey = true := by
    by_contra other
    rw [Bool.not_eq_true] at other
    simp [unitIs, hasNonce, other] at verified
  have request : boundTo inner "request_id" requestId = true := by
    by_contra other
    rw [Bool.not_eq_true] at other
    simp [unitIs, hasNonce, provider, other] at verified
  simp only [unitIs, hasNonce, provider, request, Bool.not_true,
    Bool.false_eq_true, if_false] at verified
  obtain ⟨amount, stated, verified⟩ := bind_eq_ok.mp verified
  have covered : covers amount price = true := by
    by_contra other
    rw [Bool.not_eq_true] at other
    simp [other] at verified
  simp only [covered, Bool.not_true, Bool.false_eq_true, if_false]
    at verified
  obtain ⟨signed, checked, verified⟩ := bind_eq_ok.mp verified
  cases signed with
  | false => simp at verified
  | true =>
      exact ⟨unitIs, hasNonce, provider, request,
        ⟨amount, stated, covered⟩, checked⟩

theorem verifyX402InnerWithin_true :
    verifyX402InnerWithin P maxAge inner price unit now providerPubkey
        requestId = .ok true ↔
      Sufficient P inner price unit providerPubkey requestId ∧
        ∃ current issued, now.toUtc P.localOffset = .ok current ∧
          issuedAt P inner = some issued ∧
          secondsLe (current - issued) maxAge = true := by
  have checked : Sufficient P inner price unit providerPubkey requestId →
      (verifyX402InnerWithin P maxAge inner price unit now providerPubkey
          requestId = .ok true ↔
        ∃ current issued, now.toUtc P.localOffset = .ok current ∧
          issuedAt P inner = some issued ∧
          secondsLe (current - issued) maxAge = true) := by
    intro sufficient
    rw [sufficient.checks_age]
    unfold issuedAt
    cases inner.get "issued_at" with
    | str raw =>
        cases read : DateTime.fromIsoFormat (replace raw 0x5A "+00:00") with
        | none => simp [Json.asStr, read]
        | some moment =>
            cases now.toUtc P.localOffset with
            | error error => simp [read]
            | ok current =>
                cases dated : moment.toUtc P.localOffset with
                | error error =>
                    simp [Json.asStr, read, dated, Except.toOption]
                | ok issued =>
                    simp [Json.asStr, read, dated, Except.toOption]
    | _ => simp [Json.asStr]
  constructor
  · intro verified
    have sufficient := sufficient_of_verified verified
    exact ⟨sufficient, (checked sufficient).mp verified⟩
  · rintro ⟨sufficient, dated⟩
    exact (checked sufficient).mpr dated

theorem verifyX402Within_true :
    verifyX402Within P maxAge payment price unit now providerPubkey
        requestId = .ok true ↔
      (payment.get "scheme").isStr "x402" = true ∧
        ∃ inner, payment.get "payment" = .obj inner ∧
          verifyX402InnerWithin P maxAge inner price unit now providerPubkey
            requestId = .ok true := by
  unfold verifyX402Within
  cases (payment.get "scheme").isStr "x402" with
  | false => simp
  | true => cases payment.get "payment" <;> simp [Json.asDict]

theorem toUtc_bounds {moment : DateTime} {utc : Int}
    (isUtc : moment.toUtc P.localOffset = .ok utc) :
    0 ≤ utc ∧ utc < DateTime.calendarEnd := by
  have within : ∀ offset : Int,
      (if 0 ≤ moment.micros - offset ∧
          moment.micros - offset < DateTime.calendarEnd then
        .ok (moment.micros - offset)
      else throw PyExc.overflowError : Except PyExc Int) = .ok utc →
      0 ≤ utc ∧ utc < DateTime.calendarEnd := by
    intro offset isUtc
    split_ifs at isUtc with bounds
    cases isUtc
    exact bounds
  unfold DateTime.toUtc at isUtc
  cases stated : moment.offset with
  | some offset =>
      rw [stated] at isUtc
      exact within offset isUtc
  | none =>
      rw [stated] at isUtc
      obtain ⟨offset, _, isUtc⟩ := bind_eq_ok.mp isUtc
      exact within offset isUtc

theorem issuedAt_bounds {issued : Int}
    (isIssued : issuedAt P inner = some issued) :
    0 ≤ issued ∧ issued < DateTime.calendarEnd := by
  unfold issuedAt at isIssued
  obtain ⟨raw, _, isIssued⟩ := Option.bind_eq_some_iff.mp isIssued
  obtain ⟨moment, _, isIssued⟩ := Option.bind_eq_some_iff.mp isIssued
  cases converted : moment.toUtc P.localOffset with
  | error error =>
      rw [converted] at isIssued
      cases isIssued
  | ok utc =>
      rw [converted] at isIssued
      cases isIssued
      exact toUtc_bounds converted

/-- The moments at which a payment is accepted are those up to the bound. -/
theorem accepted_later_iff {issued : Int} {later : DateTime} {stop : Int}
    (accepted : verifyX402Within P maxAge payment price unit now
      providerPubkey requestId = .ok true)
    (isInner : payment.get "payment" = .obj inner)
    (isIssued : issuedAt P inner = some issued)
    (stops : later.toUtc P.localOffset = .ok stop) :
    verifyX402Within P maxAge payment price unit later providerPubkey
        requestId = .ok true ↔ secondsLe (stop - issued) maxAge = true := by
  obtain ⟨isX402, other, isOther, verified⟩ :=
    verifyX402Within_true.mp accepted
  rw [isInner, Json.obj.injEq] at isOther
  subst isOther
  obtain ⟨sufficient, _⟩ := verifyX402InnerWithin_true.mp verified
  rw [verifyX402Within_true]
  constructor
  · rintro ⟨_, other, isOther, verified⟩
    rw [isInner, Json.obj.injEq] at isOther
    subst isOther
    obtain ⟨_, current, moment, isCurrent, isMoment, within⟩ :=
      verifyX402InnerWithin_true.mp verified
    rw [stops, Except.ok.injEq] at isCurrent
    rw [isIssued, Option.some.injEq] at isMoment
    rw [isCurrent, isMoment]
    exact within
  · intro within
    exact ⟨isX402, inner, isInner, verifyX402InnerWithin_true.mpr
      ⟨sufficient, stop, issued, stops, isIssued, within⟩⟩

/-- **How long an assertion stays acceptable.**  An assertion accepted at one
moment is refused at every moment more than the greatest age after it, exactly
if it was not issued later than it was accepted, or the calendar ends before
such a moment.  The slack is zero for ages below 2^34 seconds. -/
theorem fresh_iff_not_postdated
    (accepted : verifyX402Within P maxAge payment price unit now
      providerPubkey requestId = .ok true) :
    ∃ inner start issued, payment.get "payment" = .obj inner ∧
      now.toUtc P.localOffset = .ok start ∧ issuedAt P inner = some issued ∧
      ((∀ later stop, later.toUtc P.localOffset = .ok stop → start ≤ stop →
          verifyX402Within P maxAge payment price unit later providerPubkey
            requestId = .ok true → stop - start ≤ maxAge * 10 ^ 6) ↔
        issued + secondsSlack maxAge.toNat ≤ start ∨
          DateTime.calendarEnd ≤ start + maxAge * 10 ^ 6 + 1) := by
  obtain ⟨isX402, inner, isInner, verified⟩ :=
    verifyX402Within_true.mp accepted
  obtain ⟨sufficient, start, issued, starts, isIssued, within⟩ :=
    verifyX402InnerWithin_true.mp verified
  refine ⟨inner, start, issued, isInner, starts, isIssued, ?_⟩
  have acceptedAt := @accepted_later_iff P maxAge payment inner price unit now
    providerPubkey requestId issued
  have calendar : DateTime.calendarEnd < 2 ^ 59 := by decide
  obtain ⟨least, most⟩ := toUtc_bounds starts
  obtain ⟨least', most'⟩ := issuedAt_bounds isIssued
  rcases lt_or_ge maxAge 0 with negative | bounded
  · have postdated := neg_of_secondsLe negative within
    refine iff_of_false ?_ (by omega)
    intro fresh
    have now := fresh now start starts le_rfl accepted
    omega
  · obtain ⟨limit, rfl⟩ := Int.eq_ofNat_of_zero_le bounded
    rw [Int.toNat_natCast]
    constructor
    · intro fresh
      by_contra neither
      obtain ⟨postdated, continues⟩ := not_or.mp neither
      -- one microsecond after the greatest age
      let stop := start + limit * 10 ^ 6 + 1
      have stops : (DateTime.mk stop (some 0)).toUtc P.localOffset =
          .ok stop := by
        have within : 0 ≤ stop ∧ stop < DateTime.calendarEnd := by omega
        simp [DateTime.toUtc, within]
      have stillWithin := (@secondsLe_iff (stop - issued) limit
        (by omega)).mpr (by omega)
      have late := fresh _ stop stops (by omega)
        ((acceptedAt accepted isInner isIssued stops).mpr stillWithin)
      omega
    · intro condition later stop stops after acceptedLater
      have stillWithin :=
        (acceptedAt accepted isInner isIssued stops).mp acceptedLater
      obtain ⟨_, before⟩ := toUtc_bounds stops
      have bound := (@secondsLe_iff (stop - issued) limit
        (by omega)).mp stillWithin
      omega

end

/-- Accepted a minute after it was issued, it is refused six minutes after. -/
theorem fresh_iff_not_postdated_issued :
    verifyX402Within assertionTable.platform 300 assertion "1" "pic"
        assertionTerms.now none none = .ok true ∧
      ∀ later stop,
        later.toUtc assertionTable.platform.localOffset = .ok stop →
        63902822460000000 ≤ stop →
        verifyX402Within assertionTable.platform 300 assertion "1" "pic" later
          none none = .ok true → stop - 63902822460000000 ≤ 300 * 10 ^ 6 := by
  have accepted : verifyX402Within assertionTable.platform 300 assertion "1"
      "pic" assertionTerms.now none none = .ok true := by decide +kernel
  obtain ⟨inner, start, issued, isInner, starts, isIssued, fresh⟩ :=
    fresh_iff_not_postdated accepted
  cases isInner
  cases starts
  have issuedThen : issuedAt assertionTable.platform (signedAssertion.set
      "signature" (.str assertionSignature)) = some 63902822400000000 := by
    decide +kernel
  rw [issuedThen, Option.some.injEq] at isIssued
  exact ⟨accepted, fresh.mpr (.inl (by rw [← isIssued]; decide))⟩

/-- An assertion dated a day ahead is accepted on both days. -/
theorem postdated_accepted :
    let accepts (micros : Int) := verifyX402Within assertionTable.platform 300
      assertion "1" "pic" ⟨micros, some 0⟩ none none
    accepts 63902736000000000 = .ok true ∧
      accepts 63902822400000000 = .ok true ∧
      (300 : Int) * 10 ^ 6 < 63902822400000000 - 63902736000000000 := by
  decide +kernel

end SovereignInference.SipPic
