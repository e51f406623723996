import SovereignInference.SipPic.Blind
import Mathlib.Data.List.Pairwise

/-!
# Spending blind credits

A sequence of redemptions against one guard accepts each spend key once.  The
key contains the token as it was spelled, the signature covers the serial the
token decodes to, so a serial is single-use exactly when all acceptable calls
that present it spell it alike.
-/

namespace SovereignInference.SipPic

open Python Effects

/-- One call of `redeem_blind_credit`. -/
structure BlindCall where
  credit : BlindCredit
  price : Text
  unit : Text
  issuerKeys : List Text

namespace BlindCall

def program (call : BlindCall) : Prog SpentSig PyExc RedeemResult :=
  redeemBlindCredit call.credit call.price call.unit call.issuerKeys

/-- The calls of a sequence with their outcomes. -/
def redeemAll : List BlindCall → Finset Text →
    List (BlindCall × Except PyExc RedeemResult)
  | [], _ => []
  | call :: rest, keys =>
      let (outcome, after) := spentTable.run call.program keys
      (call, outcome) :: redeemAll rest after

/-- The call presents the credit of this issuer with this serial. -/
def Presents (issuer : Text) (serial : Bytes) (call : BlindCall) : Prop :=
  call.credit.issuer = issuer ∧ b64uDecode call.credit.token = .ok serial

/-- Every check before the spent set passes. -/
def Acceptable (call : BlindCall) : Prop :=
  call.credit.issuer ∈ call.issuerKeys ∧
    verifyBlindCredit call.credit = .ok true ∧
    call.credit.unit = call.unit ∧ call.credit.amount = call.price

instance (call : BlindCall) : Decidable call.Acceptable :=
  inferInstanceAs (Decidable (_ ∧ _ ∧ _ ∧ _))

end BlindCall

def Accepted (outcome : Except PyExc RedeemResult) : Prop :=
  ∃ result, outcome = .ok result ∧ result.ok = true

/-- No two positions of the list satisfy the property. -/
def AtMostOne {α : Type} (p : α → Prop) (items : List α) : Prop :=
  items.Pairwise fun left right => ¬ (p left ∧ p right)

theorem AtMostOne.unique {α : Type} {p : α → Prop} {items : List α}
    (single : AtMostOne p items) {left right : α} (leftMember : left ∈ items)
    (rightMember : right ∈ items) (leftHolds : p left) (rightHolds : p right) :
    left = right := by
  have symmetric : Std.Symm fun left right => ¬ (p left ∧ p right) :=
    ⟨fun _ _ apart both => apart both.symm⟩
  by_contra distinct
  exact List.Pairwise.forall single leftMember rightMember distinct
    ⟨leftHolds, rightHolds⟩

/-- Of the calls presenting one serial of one issuer, at most one succeeds. -/
def SingleUse (issuer : Text) (serial : Bytes) (calls : List BlindCall)
    (keys : Finset Text) : Prop :=
  AtMostOne (fun entry => entry.1.Presents issuer serial ∧ Accepted entry.2)
    (BlindCall.redeemAll calls keys)

/-- All acceptable calls presenting the serial whose own key is unspent spell
the token alike. -/
def SpelledAlike (issuer : Text) (serial : Bytes) (calls : List BlindCall)
    (keys : Finset Text) : Prop :=
  ∀ left ∈ calls, ∀ right ∈ calls,
    left.Presents issuer serial → right.Presents issuer serial →
    left.Acceptable → right.Acceptable →
    left.credit.spendKey ∉ keys → right.credit.spendKey ∉ keys →
    left.credit.token = right.credit.token

private theorem refused_not_accepted (reason : Text) :
    ¬ Accepted (.ok (blindRefused reason)) := by
  intro accepted
  obtain ⟨result, equality, ok⟩ := accepted
  cases equality
  simp [blindRefused] at ok

/-- An acceptable call looks its key up and spends it if it was absent. -/
theorem BlindCall.program_acceptable {call : BlindCall}
    (acceptable : call.Acceptable) :
    call.program = (isSpent call.credit.spendKey).bind fun spent =>
      if spent then .ret (blindRefused "double_spend")
      else (SipPic.spend call.credit.spendKey).bind fun _ =>
        .ret ⟨true, "blind", call.credit.amount, ""⟩ := by
  obtain ⟨known, verified, sameUnit, sameAmount⟩ := acceptable
  simp [BlindCall.program, redeemBlindCredit, known, verified, sameUnit,
    sameAmount]

/-- Any other call ends, without success, before it touches the guard. -/
theorem BlindCall.program_unacceptable {call : BlindCall}
    (unacceptable : ¬ call.Acceptable) :
    ∃ outcome, ¬ Accepted outcome ∧ call.program = .ofExcept outcome := by
  unfold BlindCall.program redeemBlindCredit
  by_cases known : call.credit.issuer ∈ call.issuerKeys
  · cases verified : verifyBlindCredit call.credit with
    | error error =>
        refine ⟨.error error, ?_, by simp [known]⟩
        intro accepted
        obtain ⟨result, equality, _⟩ := accepted
        cases equality
    | ok valid =>
        cases valid with
        | false =>
            exact ⟨_, refused_not_accepted "bad_signature", by simp [known]⟩
        | true =>
            have mispriced : call.credit.unit ≠ call.unit ∨
                call.credit.amount ≠ call.price := by
              by_cases sameUnit : call.credit.unit = call.unit
              · exact .inr fun sameAmount =>
                  unacceptable ⟨known, verified, sameUnit, sameAmount⟩
              · exact .inl sameUnit
            exact ⟨_, refused_not_accepted "amount_mismatch",
              by simp [known, mispriced]⟩
  · exact ⟨_, refused_not_accepted "unknown_issuer", by simp [known]⟩

/-- A call succeeds exactly when it is acceptable and its key is unspent. -/
theorem BlindCall.accepted_iff (call : BlindCall) (keys : Finset Text) :
    Accepted (spentTable.run call.program keys).1 ↔
      call.Acceptable ∧ call.credit.spendKey ∉ keys := by
  by_cases acceptable : call.Acceptable
  · rw [call.program_acceptable acceptable]
    by_cases spent : call.credit.spendKey ∈ keys
    · simp [spent, refused_not_accepted]
    · simp [spent, acceptable, Accepted]
  · obtain ⟨outcome, refused, equality⟩ :=
      BlindCall.program_unacceptable acceptable
    simp [equality, Handler.run_ofExcept, refused, acceptable]

/-- A successful call spends its key and any other call leaves the guard
alone. -/
theorem BlindCall.keys_after (call : BlindCall) (keys : Finset Text) :
    (spentTable.run call.program keys).2 =
      if call.Acceptable then insert call.credit.spendKey keys else keys := by
  by_cases acceptable : call.Acceptable
  · rw [call.program_acceptable acceptable]
    by_cases spent : call.credit.spendKey ∈ keys
    · simp [spent, acceptable]
    · simp [spent, acceptable]
  · obtain ⟨outcome, _, equality⟩ :=
      BlindCall.program_unacceptable acceptable
    simp [equality, Handler.run_ofExcept, acceptable]

namespace BlindCall

theorem redeemAll_accepted {calls : List BlindCall} {keys : Finset Text} :
    ∀ entry ∈ redeemAll calls keys, Accepted entry.2 →
      entry.1 ∈ calls ∧ entry.1.Acceptable ∧
        entry.1.credit.spendKey ∉ keys := by
  induction calls generalizing keys with
  | nil =>
      intro entry member
      cases member
  | cons call rest induction =>
      intro entry member accepted
      rcases List.mem_cons.mp member with rfl | later
      · obtain ⟨acceptable, fresh⟩ := (call.accepted_iff keys).mp accepted
        exact ⟨List.mem_cons_self, acceptable, fresh⟩
      · obtain ⟨inRest, acceptable, fresh⟩ := induction entry later accepted
        refine ⟨List.mem_cons_of_mem _ inRest, acceptable, ?_⟩
        intro spent
        apply fresh
        rw [call.keys_after]
        split_ifs
        · exact Finset.mem_insert_of_mem spent
        · exact spent

/-- Two successful calls of one sequence have different spend keys. -/
theorem redeemAll_keys_differ (calls : List BlindCall) (keys : Finset Text) :
    (redeemAll calls keys).Pairwise fun left right =>
      Accepted left.2 → Accepted right.2 →
        left.1.credit.spendKey ≠ right.1.credit.spendKey := by
  induction calls generalizing keys with
  | nil => exact .nil
  | cons call rest induction =>
      refine .cons ?_ (induction _)
      intro entry later first second same
      have acceptable := ((call.accepted_iff keys).mp first).1
      have fresh := (redeemAll_accepted entry later second).2.2
      rw [call.keys_after, if_pos acceptable] at fresh
      exact fresh (same ▸ Finset.mem_insert_self _ _)

/-- An unspent key that an acceptable call presents is spent by some call. -/
theorem redeemAll_some_accepted {calls : List BlindCall} {keys : Finset Text}
    {call : BlindCall} (member : call ∈ calls)
    (acceptable : call.Acceptable) (fresh : call.credit.spendKey ∉ keys) :
    ∃ entry ∈ redeemAll calls keys, Accepted entry.2 ∧
      entry.1.Acceptable ∧ entry.1.credit.spendKey = call.credit.spendKey := by
  induction calls generalizing keys with
  | nil => cases member
  | cons first rest induction =>
      by_cases here : first.Acceptable ∧
          first.credit.spendKey = call.credit.spendKey
      · obtain ⟨firstAcceptable, same⟩ := here
        refine ⟨_, List.mem_cons_self, ?_, firstAcceptable, same⟩
        exact (first.accepted_iff keys).mpr ⟨firstAcceptable, same ▸ fresh⟩
      · have inRest : call ∈ rest := by
          rcases List.mem_cons.mp member with rfl | later
          · exact absurd ⟨acceptable, rfl⟩ here
          · exact later
        have stillFresh : call.credit.spendKey ∉
            (spentTable.run first.program keys).2 := by
          rw [first.keys_after]
          split_ifs with firstAcceptable
          · intro spent
            rcases Finset.mem_insert.mp spent with same | spent
            · exact here ⟨firstAcceptable, same.symm⟩
            · exact fresh spent
          · exact fresh
        obtain ⟨entry, later, accepted⟩ := induction inRest stillFresh
        exact ⟨entry, List.mem_cons_of_mem _ later, accepted⟩

end BlindCall

private theorem BlindIssuerKey.fromStr_exponent {s : Text}
    {key : BlindIssuerKey} (parsed : fromStr s = .ok key) :
    ∃ rest e, s = issuerPrefix ++ rest ∧
      parseInt (partition rest 0x2E).2 = .ok e := by
  unfold fromStr at parsed
  cases starts : startsWith s issuerPrefix with
  | false => simp [starts] at parsed
  | true =>
      obtain ⟨rest, rfl⟩ := List.isPrefixOf_iff_prefix.mp starts
      simp only [starts, List.drop_left, Bool.not_true, Bool.false_eq_true,
        if_false] at parsed
      obtain ⟨n, _, parsed⟩ := bind_eq_ok.mp parsed
      obtain ⟨e, exponent, _⟩ := bind_eq_ok.mp parsed
      exact ⟨rest, e, rfl, exponent⟩

/-- A string that continues an issuer key after a colon is no issuer key. -/
theorem BlindIssuerKey.fromStr_continued {s later : Text}
    {key other : BlindIssuerKey} (parsed : fromStr s = .ok key) :
    fromStr (s ++ 0x3A :: later) ≠ .ok other := by
  intro continued
  obtain ⟨rest, e, rfl, exponent⟩ := fromStr_exponent parsed
  obtain ⟨rest', e', equality, exponent'⟩ := fromStr_exponent continued
  rw [List.append_assoc] at equality
  have sameRest := List.append_cancel_left equality
  subst sameRest
  have dotted : (0x2E : CodePoint) ∈ rest := by
    by_contra undotted
    have nothing : (partition rest 0x2E).2 = [] := by
      have allKept : rest.dropWhile (· ≠ (0x2E : CodePoint)) = [] := by
        rw [List.dropWhile_eq_nil_iff]
        intro c member
        have different : c ≠ 0x2E := fun same => undotted (same ▸ member)
        simpa using different
      simp only [partition, allKept, List.drop_nil]
    rw [nothing] at exponent
    cases exponent
  rw [partition_append dotted] at exponent'
  have foreign : foreignToNumerals 0x3A = true := by decide
  rw [parseInt_foreign foreign (by simp)] at exponent'
  cases exponent'

private theorem verifyBlindCredit_issuer {credit : BlindCredit}
    (verified : verifyBlindCredit credit = .ok true) :
    ∃ key, BlindIssuerKey.fromStr credit.issuer = .ok key := by
  cases parsed : BlindIssuerKey.fromStr credit.issuer with
  | ok key => exact ⟨key, rfl⟩
  | error error =>
      unfold verifyBlindCredit decodeCredit at verified
      rw [parsed] at verified
      dsimp only [error_bind] at verified
      split_ifs at verified
      cases verified

/-- Acceptable calls with one spend key present one issuer and one token. -/
theorem BlindCall.spendKey_injective {left right : BlindCall}
    (leftAcceptable : left.Acceptable) (rightAcceptable : right.Acceptable)
    (same : left.credit.spendKey = right.credit.spendKey) :
    left.credit.issuer = right.credit.issuer ∧
      left.credit.token = right.credit.token := by
  obtain ⟨leftKey, leftParsed⟩ := verifyBlindCredit_issuer leftAcceptable.2.1
  obtain ⟨rightKey, rightParsed⟩ :=
    verifyBlindCredit_issuer rightAcceptable.2.1
  unfold BlindCredit.spendKey at same
  simp only [List.append_assoc] at same
  rcases List.append_eq_append_iff.mp (List.append_cancel_left same) with
    ⟨between, issuers, tokens⟩ | ⟨between, issuers, tokens⟩
  · cases between with
    | nil => simpa [eq_comm] using And.intro issuers tokens
    | cons c later =>
        obtain ⟨rfl, _⟩ := List.cons.inj tokens
        rw [issuers] at rightParsed
        exact absurd rightParsed
          (BlindIssuerKey.fromStr_continued leftParsed)
  · cases between with
    | nil => simpa [eq_comm] using And.intro issuers tokens
    | cons c later =>
        obtain ⟨rfl, _⟩ := List.cons.inj tokens
        rw [issuers] at leftParsed
        exact absurd leftParsed
          (BlindIssuerKey.fromStr_continued rightParsed)

/-- A serial of an issuer is single-use exactly when the acceptable calls
presenting it spell it alike. -/
theorem blind_single_use_iff (issuer : Text) (serial : Bytes)
    (calls : List BlindCall) (keys : Finset Text) :
    SingleUse issuer serial calls keys ↔
      SpelledAlike issuer serial calls keys := by
  constructor
  · intro single left leftMember right rightMember leftPresents rightPresents
      leftAcceptable rightAcceptable leftFresh rightFresh
    obtain ⟨first, firstMember, firstAccepted, firstAcceptable, firstKey⟩ :=
      BlindCall.redeemAll_some_accepted leftMember leftAcceptable leftFresh
    obtain ⟨second, secondMember, secondAccepted, secondAcceptable,
      secondKey⟩ :=
      BlindCall.redeemAll_some_accepted rightMember rightAcceptable rightFresh
    obtain ⟨firstIssuer, firstToken⟩ :=
      BlindCall.spendKey_injective firstAcceptable leftAcceptable firstKey
    obtain ⟨secondIssuer, secondToken⟩ :=
      BlindCall.spendKey_injective secondAcceptable rightAcceptable secondKey
    rw [← firstToken, ← secondToken]
    by_contra differ
    have distinct : first ≠ second := by
      intro same
      exact differ (by rw [same])
    apply distinct
    refine single.unique firstMember secondMember
      ⟨⟨?_, ?_⟩, firstAccepted⟩ ⟨⟨?_, ?_⟩, secondAccepted⟩
    · rw [firstIssuer, leftPresents.1]
    · rw [firstToken, leftPresents.2]
    · rw [secondIssuer, rightPresents.1]
    · rw [secondToken, rightPresents.2]
  · intro alike
    refine (BlindCall.redeemAll_keys_differ calls keys).imp_of_mem ?_
    intro first second firstMember secondMember differ both
    obtain ⟨⟨firstPresents, firstAccepted⟩, secondPresents, secondAccepted⟩ :=
      both
    obtain ⟨firstCall, firstAcceptable, firstFresh⟩ :=
      BlindCall.redeemAll_accepted first firstMember firstAccepted
    obtain ⟨secondCall, secondAcceptable, secondFresh⟩ :=
      BlindCall.redeemAll_accepted second secondMember secondAccepted
    have sameToken := alike _ firstCall _ secondCall firstPresents
      secondPresents firstAcceptable secondAcceptable firstFresh secondFresh
    apply differ firstAccepted secondAccepted
    unfold BlindCredit.spendKey
    rw [sameToken, firstPresents.1, secondPresents.1]

/-- A credit over the one-byte serial zero, issued under the small key
`n = 3233`, with the token spelled in some way. -/
def respelledCall (token : Text) : BlindCall where
  credit := ⟨"pic", "5", "rsa-blind:DKE.17", token, "Cpc"⟩
  price := "5"
  unit := "pic"
  issuerKeys := ["rsa-blind:DKE.17"]

theorem respelled_credit_redeems_twice :
    ¬ SingleUse "rsa-blind:DKE.17" [0] [respelledCall "AA", respelledCall "AB"]
      ∅ := by
  intro single
  have first : Accepted
      (spentTable.run (respelledCall "AA").program ∅).1 := by
    rw [BlindCall.accepted_iff]
    exact ⟨by decide +kernel, Finset.notMem_empty _⟩
  have second : Accepted (spentTable.run (respelledCall "AB").program
      (spentTable.run (respelledCall "AA").program ∅).2).1 := by
    rw [BlindCall.accepted_iff, BlindCall.keys_after]
    decide +kernel
  apply (List.pairwise_cons.mp single).1 _ (List.mem_singleton.mpr rfl)
  exact ⟨⟨⟨rfl, by decide⟩, first⟩, ⟨rfl, by decide⟩, second⟩

end SovereignInference.SipPic
