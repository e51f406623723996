import SovereignInference.SipPic.Payment
import SovereignInference.SipProtocol.Signable
import Mathlib.Data.List.Perm.Basic
import Mathlib.Data.List.Perm.Subperm

/-!
# The wallet of a payer

A wallet holds vouchers and hands out enough of them to pay a price; a direct
payment is signed instead.  Vouchers are told apart as objects, so that taking
one leaves another with the same contents.
-/

namespace SovereignInference.SipPic

open Python Effects SipProtocol

/-- A voucher as an object: which one it is, and what it says. -/
structure HeldVoucher where
  identity : Nat
  voucher : Dict

/-- `Decimal(x)` of a number or a string. -/
def decimalOf : Json → Except PyExc Decimal
  | .str amount => Decimal.parse amount
  | .int value => .ok (.finite (value < 0) value.natAbs 0)
  | .bool value => .ok (.finite false value.toNat 0)
  | .float value =>
      if value.isFinite then
        let (numerator, denominator) := floatScaled value 0
        let halvings := Nat.log2 (denominator / numerator.gcd denominator)
        .ok (.finite (floatNegative value)
          (numerator / numerator.gcd denominator * 5 ^ halvings) (-halvings))
      else if value.isNaN then .ok (.nan false)
      else .ok (.infinity (floatNegative value))
  -- a list of sign, digits and exponent is not taken for a denomination
  | _ => .error .typeError

/-- `Decimal(voucher["denomination"])`. -/
def heldAmount (voucher : Dict) : Except PyExc Decimal :=
  match voucher.find "denomination" with
  | some amount => decimalOf amount
  | none => .error .keyError

namespace Wallet

section

variable (precision : Precision)

/-- `balance`: the face value held in one unit. -/
def balance (unit : Text) : List HeldVoucher → Decimal → Except PyExc Decimal
  | [], total => .ok total
  | held :: rest, total =>
      if (held.voucher.get "unit").isStr unit then do
        let total ← total.add precision (← heldAmount held.voucher)
        balance unit rest total
      else balance unit rest total

/-- The vouchers picked in order until they reach the target. -/
def pick (target : Decimal) (unit : Text) :
    List HeldVoucher → Decimal → Except PyExc (List HeldVoucher)
  | [], _ => .ok []
  | held :: rest, accumulated => do
      if !(← accumulated.lt target) then return []
      if (held.voucher.get "unit").isStr unit then
        let accumulated ←
          accumulated.add precision (← heldAmount held.voucher)
        return held :: (← pick target unit rest accumulated)
      else pick target unit rest accumulated

/-- What is left of a wallet without the picked objects. -/
def remove (picked held : List HeldVoucher) : List HeldVoucher :=
  held.filter fun voucher =>
    !picked.any fun taken => taken.identity = voucher.identity

/-- `select`: the picked vouchers and what is left. -/
def select (held : List HeldVoucher) (amount unit : Text) :
    Except PyExc (List HeldVoucher × List HeldVoucher) := do
  let target ← Decimal.parse amount
  let total ← balance precision unit held .zero
  if ← total.lt target then throw .insufficientFunds
  let picked ← pick precision target unit held .zero
  return (picked, remove picked held)

end

end Wallet

/-- The field, unless its value is `None`. -/
def unlessNone (field : Text) : Json → Dict
  | .null => []
  | value => [(field, value)]

/-- The fields of an x402 payment before it is signed. -/
def x402Inner (P : Platform) (payer : KeyPair) (amount unit nonce : Text)
    (issuedAt : Text) (providerPubkey : Json) (requestId : Text) : Dict :=
  let bound : Dict := [("request_id", .str requestId)]
  ("payer_pubkey", .str (payer.publicKeyStr P)) :: ("amount", .str amount) ::
    ("unit", .str unit) :: ("nonce", .str nonce) ::
      ("issued_at", .str issuedAt) ::
        (unlessNone "provider_pubkey" providerPubkey ++ bound)

/-- `build_x402_payment`, with the nonce and the time it draws. -/
def buildX402Payment (P : Platform) (payer : KeyPair)
    (amount unit nonce : Text) (now : DateTime) (providerPubkey : Json)
    (requestId : Text) : Except PyExc Dict := do
  let issuedAt ← utcIso P now
  let signed ← signDocument P (x402Inner P payer amount unit nonce issuedAt
    providerPubkey requestId) payer
  return [("scheme", .str "x402"), ("payment", .obj signed)]

section

variable {P : Platform} {payer : KeyPair} {amount unit nonce : Text}
  {publicKey : Json} {requestId : Text} {now : DateTime}

theorem unlessNone_clean {field : Text} (encodable : Encodable field)
    (value : Json) :
    (Json.obj (unlessNone field value)).Clean ↔ value.Clean := by
  cases value <;> simp [unlessNone, encodable]

private theorem unlessNone_key {field : Text} {value : Json}
    {entry : Text × Json}
    (member : entry ∈ unlessNone field value) : entry.1 = field := by
  cases value <;> simp_all [unlessNone]

private theorem x402Inner_clean {issuedAt : Text} :
    (Json.obj ((x402Inner P payer amount unit nonce issuedAt publicKey
        requestId).without signatureField)).Clean ↔
      Encodable amount ∧ Encodable unit ∧ Encodable nonce ∧
        Encodable issuedAt ∧ publicKey.Clean ∧ Encodable requestId := by
  have keys : text "payer_pubkey" ≠ signatureField ∧
      text "amount" ≠ signatureField ∧ text "unit" ≠ signatureField ∧
        text "nonce" ≠ signatureField ∧ text "issued_at" ≠ signatureField ∧
          text "request_id" ≠ signatureField := by decide
  have published := @unlessNone_clean "provider_pubkey" (by simp) publicKey
  rw [Json.clean_obj] at published ⊢
  rw [← published]
  simp only [x402Inner, Dict.without, KeyPair.publicKeyStr, ne_eq, keys,
    not_false_eq_true, decide_true, List.filter_cons_of_pos,
    List.filter_append, List.filter_nil, List.mem_cons, List.mem_append,
    List.mem_filter, List.not_mem_nil, or_false, forall_eq_or_imp,
    Json.clean_str, encodable_encodePrefixed, encodable_text, true_and]
  refine and_congr_right fun _ => and_congr_right fun _ =>
    and_congr_right fun _ => and_congr_right fun _ => ?_
  constructor
  · intro clean
    refine ⟨?_, (clean _ (.inr rfl)).2⟩
    intro field member
    have notSignature : field.1 ≠ signatureField := by
      rw [unlessNone_key member]
      decide
    exact clean field (.inl ⟨member, by simpa using notSignature⟩)
  · intro clean field member
    rcases member with ⟨member, _⟩ | rfl
    · exact clean.1 field member
    · exact ⟨by simp, clean.2⟩

theorem buildX402Payment_isOk :
    (∃ payment, buildX402Payment P payer amount unit nonce now publicKey
      requestId = .ok payment) ↔
      (∃ utc, now.toUtc P.localOffset = .ok utc) ∧ Encodable amount ∧
        Encodable unit ∧ Encodable nonce ∧ publicKey.Clean ∧
          Encodable requestId := by
  rw [← utcIso_isOk]
  unfold buildX402Payment
  cases written : utcIso P now with
  | error error => simp
  | ok issuedAt =>
      have clean := @x402Inner_clean P payer amount unit nonce publicKey
        requestId issuedAt
      have dated : Encodable issuedAt := encodable_utcIso written
      rw [← @signDocument_isOk P _ payer] at clean
      cases signed : signDocument P (x402Inner P payer amount unit nonce
          issuedAt publicKey requestId) payer with
      | error error => simpa [signed, dated] using clean
      | ok document => simpa [signed, dated] using clean

end

namespace Wallet

variable {precision : Precision} {held picked rest : List HeldVoucher}
  {amount unit : Text}

theorem pick_sublist {target accumulated : Decimal}
    (picks : pick precision target unit held accumulated = .ok picked) :
    picked.Sublist held := by
  induction held generalizing accumulated picked with
  | nil =>
      cases picks
      exact List.Sublist.slnil
  | cons voucher others induction =>
      unfold pick at picks
      obtain ⟨less, _, picks⟩ := bind_eq_ok.mp picks
      split_ifs at picks
      · cases picks
        exact List.nil_sublist _
      · obtain ⟨value, _, picks⟩ := bind_eq_ok.mp picks
        obtain ⟨sum, _, picks⟩ := bind_eq_ok.mp picks
        obtain ⟨later, tail, picks⟩ := bind_eq_ok.mp picks
        cases picks
        exact (induction tail).cons_cons voucher
      · exact (induction picks).cons voucher

/-- What was picked and what is left make up the wallet. -/
theorem remove_perm (nodup : (held.map (·.identity)).Nodup)
    (sublist : picked.Sublist held) :
    (picked ++ remove picked held).Perm held := by
  induction sublist with
  | slnil => exact List.Perm.refl _
  | @cons picked held voucher sublist induction =>
      obtain ⟨fresh, nodup⟩ := List.nodup_cons.mp nodup
      have kept : (picked.any fun taken =>
          taken.identity = voucher.identity) = false := by
        rw [List.any_eq_false]
        intro taken member same
        apply fresh
        show voucher.identity ∈ _
        rw [← of_decide_eq_true same]
        exact List.mem_map_of_mem (sublist.subset member)
      unfold remove at induction ⊢
      rw [List.filter_cons, kept]
      exact List.perm_middle.trans ((induction nodup).cons voucher)
  | @cons_cons picked held voucher sublist induction =>
      obtain ⟨fresh, nodup⟩ := List.nodup_cons.mp nodup
      have sameRest : remove (voucher :: picked) (voucher :: held) =
          remove picked held := by
        unfold remove
        rw [List.filter_cons]
        simp only [List.any_cons, decide_true, Bool.true_or, Bool.not_true,
          Bool.false_eq_true, if_false]
        apply List.filter_congr
        intro other member
        have different : voucher.identity ≠ other.identity := by
          intro same
          apply fresh
          show voucher.identity ∈ _
          rw [same]
          exact List.mem_map_of_mem member
        simp [different]
      rw [sameRest]
      exact (induction nodup).cons voucher

theorem select_perm (nodup : (held.map (·.identity)).Nodup)
    (selected : select precision held amount unit = .ok (picked, rest)) :
    (picked ++ rest).Perm held := by
  unfold select at selected
  obtain ⟨target, _, selected⟩ := bind_eq_ok.mp selected
  obtain ⟨total, _, selected⟩ := bind_eq_ok.mp selected
  obtain ⟨less, _, selected⟩ := bind_eq_ok.mp selected
  split_ifs at selected
  · cases selected
  · obtain ⟨picked', picks, selected⟩ := bind_eq_ok.mp selected
    cases selected
    exact remove_perm nodup (pick_sublist picks)

end Wallet

end SovereignInference.SipPic
