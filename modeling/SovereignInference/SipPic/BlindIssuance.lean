import SovereignInference.Arithmetic.Rsa
import SovereignInference.SipPic.BlindSpending
import SovereignInference.SipPic.Settlement

/-!
# Issuing blind credits

The client blinds the hash of a serial and a denomination, the issuer signs
the blinded residue, and the client unblinds the signature into a credit.
What the issuer signs is decided by the residue alone.
-/

namespace SovereignInference.SipPic

open Python Effects Arithmetic

structure BlindIssuer where
  n : Nat
  e : Nat
  d : Nat

namespace BlindIssuer

variable (issuer : BlindIssuer)

/-- The public RSA parameters. -/
def publicKey : BlindIssuerKey := ⟨issuer.n, issuer.e⟩

def signBlinded (blinded : Int) : Except PyExc Nat :=
  if 0 < blinded ∧ blinded < issuer.n then
    .ok (blinded.toNat ^ issuer.d % issuer.n)
  else .error .valueError

end BlindIssuer

/-- A random source: the bytes that each call gives for the length it asks
for. -/
abbrev RngBytes := (call length : Nat) → Bytes

/-- A draw that the loop accepts. -/
def acceptsUnit (n r : Nat) : Bool := 1 < r && Nat.gcd r n == 1

/-- The residue that a call draws. -/
def drawnResidue (n : Nat) (rng : RngBytes) (call : Nat) : Nat :=
  fromBytesBig (rng call ((bitLength n + 7) / 8)) % n

/-- `_random_unit`, from the given call on; `none` if no call within the fuel
draws a unit. -/
def randomUnit (n : Nat) (rng : RngBytes) :
    (call fuel : Nat) → Option (Except PyExc Nat)
  | _, 0 => none
  | call, fuel + 1 =>
      if n = 0 then some (.error .zeroDivisionError)
      else
        let r := drawnResidue n rng call
        if acceptsUnit n r then some (.ok r)
        else randomUnit n rng (call + 1) fuel

/-- `blind` after the hash: the blinded message and the blinding factor. -/
def blindHash (m r : Nat) (key : BlindIssuerKey) : Nat × Nat :=
  (m * (r ^ key.e % key.n) % key.n, r)

def blind (token : Bytes) (amount unit : Text) (key : BlindIssuerKey)
    (rng : RngBytes) (call fuel : Nat) : Option (Except PyExc (Nat × Nat)) :=
  match fdh token amount unit key with
  | .error error => some (.error error)
  | .ok m =>
      (randomUnit key.n rng call fuel).map fun drawn => do
        return blindHash m (← drawn) key

/-- `pow(r, -1, n)`. -/
def powInverse (r : Int) (n : Nat) : Except PyExc Nat :=
  if n = 0 then .error .valueError
  else if Int.gcd r n = 1 then .ok (inverse r n)
  else .error .valueError

def unblind (blindedSig : Nat) (r : Int) (key : BlindIssuerKey) :
    Except PyExc Nat := do
  return blindedSig * (← powInverse r key.n) % key.n

structure BlindCreditRequest where
  blinded : Int
  unit : Text
  amount : Text
  issuer : Text

structure BlindingSecret where
  token : Bytes
  r : Int
  unit : Text
  amount : Text
  key : BlindIssuerKey

def serialBytes : Nat := 32

/-- The serial is the first draw, the blinding factor one of the later. -/
def blindCreditRequest (key : BlindIssuerKey) (unit amount : Text)
    (rng : RngBytes) (fuel : Nat) :
    Option (Except PyExc (BlindCreditRequest × BlindingSecret)) :=
  let token := rng 0 serialBytes
  (blind token amount unit key rng 1 fuel).map fun blinded => do
    let (blinded, r) ← blinded
    let issuer ← key.pubkeyStr
    return (⟨blinded, unit, amount, issuer⟩, ⟨token, r, unit, amount, key⟩)

def finalizeBlindCredit (blindedSig : Nat) (secret : BlindingSecret) :
    Except PyExc BlindCredit := do
  let sig ← unblind blindedSig secret.r secret.key
  let issuer ← secret.key.pubkeyStr
  return {
    unit := secret.unit
    amount := secret.amount
    issuer
    token := b64uEncode secret.token
    signature := ← intToB64u sig }

theorem intToB64u_ok (value : Nat) :
    ∃ s, intToB64u value = .ok s ∧ b64uToInt s = .ok value ∧
      (0x2E : CodePoint) ∉ s := by
  obtain ⟨bytes, written, read⟩ := toBytesBig_ok (lt_bytes_of_bitLength value)
  refine ⟨b64uEncode bytes, by simp [intToB64u, written], ?_, ?_⟩
  · simp [b64uToInt, b64uDecode_encode, read]
  · intro dotted
    obtain ⟨digit, small, same⟩ := mem_b64uEncode dotted
    exact (base64Char_plain small).2.2 (congrArg Fin.val same).symm

private theorem partition_separated {s later : Text} {separator : CodePoint}
    (absent : separator ∉ s) :
    partition (s ++ separator :: later) separator = (s, later) := by
  have other : ∀ c ∈ s, decide (c ≠ separator) = true := by
    intro c member
    exact decide_eq_true fun same => absent (same ▸ member)
  unfold partition
  rw [List.takeWhile_append_of_pos other, List.dropWhile_append_of_pos other]
  simp

/-- What `pubkey_str` and `from_str` do to a key. -/
theorem pubkeyStr_cases (key : BlindIssuerKey) :
    (key.e < 10 ^ maxStrDigits ∧ ∃ s, key.pubkeyStr = .ok s ∧
        BlindIssuerKey.fromStr s =
          if key.n < 3 ∨ key.e < 2 then .error .valueError else .ok key) ∨
      (¬ key.e < 10 ^ maxStrDigits ∧ key.pubkeyStr = .error .valueError) := by
  obtain ⟨s, written, read, undotted⟩ := intToB64u_ok key.n
  by_cases short : key.e < 10 ^ maxStrDigits
  · refine .inl ⟨short, ?_⟩
    have isWritten : key.pubkeyStr =
        .ok (issuerPrefix ++ s ++ 0x2E :: natText key.e) := by
      simp [BlindIssuerKey.pubkeyStr, written, intRepr_ofNat short]
    refine ⟨_, isWritten, ?_⟩
    have starts : startsWith (issuerPrefix ++ s ++ 0x2E :: natText key.e)
        issuerPrefix = true := by
      rw [List.append_assoc]
      exact List.isPrefixOf_iff_prefix.mpr (List.prefix_append _ _)
    unfold BlindIssuerKey.fromStr
    rw [List.append_assoc] at starts ⊢
    rw [List.drop_left, starts, partition_separated undotted]
    simp only [Bool.not_true, Bool.false_eq_true, if_false, read, ok_bind,
      parseInt_natText short]
    simp only [Nat.cast_lt_ofNat, Int.toNat_natCast]
    split_ifs
    · rfl
    · rfl
  · refine .inr ⟨short, ?_⟩
    have long : intRepr key.e = .error .valueError := by
      unfold intRepr
      rw [if_neg (by simpa using short)]
    simp [BlindIssuerKey.pubkeyStr, written, long]

theorem fdh_lt {token : Bytes} {amount unit : Text} {key : BlindIssuerKey}
    {m : Nat} (hashed : fdh token amount unit key = .ok m) : m < key.n := by
  unfold fdh at hashed
  obtain ⟨denomination, _, hashed⟩ := bind_eq_ok.mp hashed
  obtain ⟨digest, _, hashed⟩ := bind_eq_ok.mp hashed
  split_ifs at hashed with zero
  · cases hashed
  · cases hashed
    exact Nat.mod_lt _ (Nat.pos_of_ne_zero zero)

/-- A verified token, in numbers. -/
theorem verifyBlindToken_true {token : Bytes} {amount unit : Text} {sig : Nat}
    {key : BlindIssuerKey} (positive : 0 < key.n) :
    verifyBlindToken token amount unit sig key = .ok true ↔
      ∃ m, fdh token amount unit key = .ok m ∧
        sig ^ key.e ≡ m [MOD key.n] := by
  unfold verifyBlindToken
  rw [if_neg positive.ne']
  constructor
  · intro verified
    obtain ⟨m, hashed, equal⟩ := bind_eq_ok.mp verified
    refine ⟨m, hashed, ?_⟩
    have residue : m < key.n := fdh_lt hashed
    have same : sig ^ key.e % key.n = m := by simpa using equal
    rw [Nat.ModEq, same, Nat.mod_eq_of_lt residue]
  · intro both
    obtain ⟨m, hashed, congruent⟩ := both
    have residue : m < key.n := fdh_lt hashed
    rw [Nat.ModEq, Nat.mod_eq_of_lt residue] at congruent
    simp [hashed, congruent]

end SovereignInference.SipPic
