import SovereignInference.SipPic.BlindIssuance
import Mathlib.Tactic.NormNum.Prime

/-!
# Credits issued blindly

A finished credit verifies exactly when the issuer's answer is a signature on
the blinding of what the credit says.  So honest issuance always ends in a
good credit, and what the request declared does not matter.
-/

namespace SovereignInference.SipPic

open Python Effects Arithmetic

variable {secret : BlindingSecret} {signed : Nat} {credit : BlindCredit}

/-- What finishing gives, when it does. -/
structure Finished (signed : Nat) (secret : BlindingSecret)
    (credit : BlindCredit) : Prop where
  positive : 0 < secret.key.n
  invertible : Int.gcd secret.r secret.key.n = 1
  short : secret.key.e < 10 ^ maxStrDigits
  unit : credit.unit = secret.unit
  amount : credit.amount = secret.amount
  issuer : secret.key.pubkeyStr = .ok credit.issuer
  token : b64uDecode credit.token = .ok secret.token
  signature : b64uToInt credit.signature =
    .ok (signed * inverse secret.r secret.key.n % secret.key.n)

theorem finalize_finished
    (finalized : finalizeBlindCredit signed secret = .ok credit) :
    Finished signed secret credit := by
  unfold finalizeBlindCredit unblind powInverse at finalized
  obtain ⟨sig, unblinded, finalized⟩ := bind_eq_ok.mp finalized
  obtain ⟨issuer, written, finalized⟩ := bind_eq_ok.mp finalized
  obtain ⟨s, encoded, finalized⟩ := bind_eq_ok.mp finalized
  cases finalized
  obtain ⟨s', encoded', decoded, _⟩ := intToB64u_ok sig
  rw [encoded, Except.ok.injEq] at encoded'
  subst encoded'
  split_ifs at unblinded with zero unit
  · cases unblinded
  · cases unblinded
    rcases pubkeyStr_cases secret.key with ⟨short, _⟩ | ⟨_, fails⟩
    · exact ⟨Nat.pos_of_ne_zero zero, unit, short, rfl, rfl, written,
        b64uDecode_encode _, decoded⟩
    · rw [fails] at written
      cases written
  · cases unblinded

theorem finalize_ok (signed : Nat) (positive : 0 < secret.key.n)
    (invertible : Int.gcd secret.r secret.key.n = 1)
    (short : secret.key.e < 10 ^ maxStrDigits) :
    ∃ credit, finalizeBlindCredit signed secret = .ok credit := by
  obtain ⟨s, encoded, _⟩ := intToB64u_ok
    (signed * inverse secret.r secret.key.n % secret.key.n)
  rcases pubkeyStr_cases secret.key with ⟨_, issuer, written, _⟩ | ⟨long, _⟩
  · refine ⟨⟨secret.unit, secret.amount, issuer, b64uEncode secret.token, s⟩,
      ?_⟩
    simp [finalizeBlindCredit, unblind, powInverse, positive.ne', invertible,
      written, encoded]
  · exact absurd short long

/-- A finished credit verifies exactly when the answer is a signature on the
blinding of the hash. -/
theorem Finished.verifies_iff (finished : Finished signed secret credit) :
    verifyBlindCredit credit = .ok true ↔
      3 ≤ secret.key.n ∧ 2 ≤ secret.key.e ∧
        ∃ m, fdh secret.token secret.amount secret.unit secret.key = .ok m ∧
          (signed : Int) ^ secret.key.e ≡ m * secret.r ^ secret.key.e
            [ZMOD secret.key.n] := by
  rcases pubkeyStr_cases secret.key with
    ⟨_, issuer, written, read⟩ | ⟨long, _⟩
  · rw [finished.issuer, Except.ok.injEq] at written
    subst written
    by_cases degenerate : secret.key.n < 3 ∨ secret.key.e < 2
    · rw [if_pos degenerate] at read
      have refused : verifyBlindCredit credit = .ok false := by
        simp [verifyBlindCredit, decodeCredit, read, PyExc.isValueError]
      rw [refused]
      constructor
      · intro verified
        cases verified
      · intro large
        omega
    · rw [if_neg degenerate] at read
      have decoded : verifyBlindCredit credit =
          verifyBlindToken secret.token secret.amount secret.unit
            (signed * inverse secret.r secret.key.n % secret.key.n)
              secret.key := by
        simp [verifyBlindCredit, decodeCredit, read, finished.token,
          finished.signature, finished.amount, finished.unit]
      rw [decoded, verifyBlindToken_true finished.positive]
      have large : 3 ≤ secret.key.n ∧ 2 ≤ secret.key.e := by omega
      rw [← and_assoc, and_iff_right large]
      apply exists_congr
      intro m
      apply and_congr_right
      intro _
      rw [← unblinded_iff finished.positive finished.invertible,
        ← Int.natCast_modEq_iff]
      have reduced : ((signed * inverse secret.r secret.key.n %
          secret.key.n : Nat) : Int) ≡
            signed * inverse secret.r secret.key.n [ZMOD secret.key.n] := by
        push_cast
        exact Int.mod_modEq _ _
      push_cast
      push_cast at reduced
      constructor
      · intro valid
        exact ((reduced.pow _).symm).trans valid
      · intro valid
        exact (reduced.pow _).trans valid
  · exact absurd finished.short long

/-- An issuer with RSA exponents. -/
def BlindIssuer.IsRsa (issuer : BlindIssuer) : Prop :=
  ∃ p q, issuer.n = p * q ∧ RsaExponents p q issuer.e issuer.d

theorem signBlinded_ok {issuer : BlindIssuer} {blinded : Int}
    (rsa : issuer.IsRsa) (answered : issuer.signBlinded blinded = .ok signed) :
    0 < blinded ∧ blinded < issuer.n ∧
      (signed : Int) ^ issuer.e ≡ blinded [ZMOD issuer.n] := by
  obtain ⟨p, q, modulus, exponents⟩ := rsa
  unfold BlindIssuer.signBlinded at answered
  split_ifs at answered with range
  · cases answered
    refine ⟨range.1, range.2, ?_⟩
    have undone := exponents.pow_pow_modEq blinded.toNat
    rw [← modulus] at undone
    have reduced : blinded.toNat ^ issuer.d % issuer.n ≡
        blinded.toNat ^ issuer.d [MOD issuer.n] := Nat.mod_modEq _ _
    have both := Int.natCast_modEq_iff.mpr
      ((reduced.pow issuer.e).trans undone)
    rw [Int.toNat_of_nonneg range.1.le] at both
    exact_mod_cast both

/-- A credit that the client obtains from the issuer's answer, and that
verifies, has the amount and unit the request declares. -/
def BindsDenomination (issuer : BlindIssuer) (request : BlindCreditRequest)
    (secret : BlindingSecret) : Prop :=
  ∀ signed credit, issuer.signBlinded request.blinded = .ok signed →
    finalizeBlindCredit signed secret = .ok credit →
      verifyBlindCredit credit = .ok true →
        credit.amount = request.amount ∧ credit.unit = request.unit

/-- The residue is the blinding of what the secret says, for a key that can
be written and read. -/
structure BlindsSecret (issuer : BlindIssuer) (blinded : Int)
    (secret : BlindingSecret) : Prop where
  range : 0 < blinded ∧ blinded < issuer.n
  invertible : Int.gcd secret.r issuer.n = 1
  exponent : 2 ≤ issuer.e ∧ issuer.e < 10 ^ maxStrDigits
  hashed : ∃ m, fdh secret.token secret.amount secret.unit issuer.publicKey =
    .ok m ∧ blinded ≡ m * secret.r ^ issuer.e [ZMOD issuer.n]

/-- **When issuance binds the value.**  Exactly when the request declares the
denomination of the secret, or its residue is not the blinding of it. -/
theorem issuance_binds_iff {issuer : BlindIssuer} (rsa : issuer.IsRsa)
    {request : BlindCreditRequest}
    (own : secret.key = issuer.publicKey) :
    BindsDenomination issuer request secret ↔
      (secret.amount = request.amount ∧ secret.unit = request.unit) ∨
        ¬ BlindsSecret issuer request.blinded secret := by
  have sameN : secret.key.n = issuer.n := by rw [own]; rfl
  have sameE : secret.key.e = issuer.e := by rw [own]; rfl
  have large : 6 ≤ issuer.n := by
    obtain ⟨p, q, modulus, exponents⟩ := rsa
    rw [modulus]
    exact exponents.modulus_ge
  constructor
  · intro binds
    by_cases blinds : BlindsSecret issuer request.blinded secret
    · have answered : issuer.signBlinded request.blinded =
          .ok (request.blinded.toNat ^ issuer.d % issuer.n) := by
        unfold BlindIssuer.signBlinded
        rw [if_pos blinds.range]
      obtain ⟨credit, finalized⟩ :=
        finalize_ok (request.blinded.toNat ^ issuer.d % issuer.n)
          (by omega : 0 < secret.key.n) (by rw [sameN]; exact blinds.invertible)
          (by rw [sameE]; exact blinds.exponent.2)
      have finished := finalize_finished finalized
      obtain ⟨_, _, undone⟩ := signBlinded_ok rsa answered
      obtain ⟨m, hashed, congruent⟩ := blinds.hashed
      have verified : verifyBlindCredit credit = .ok true := by
        rw [finished.verifies_iff, sameN, sameE]
        refine ⟨by omega, blinds.exponent.1, m, ?_, undone.trans congruent⟩
        rw [own]
        exact hashed
      have declared := binds _ credit answered finalized verified
      rw [finished.amount, finished.unit] at declared
      exact .inl declared
    · exact .inr blinds
  · intro condition signed credit answered finalized verified
    have finished := finalize_finished finalized
    rw [finished.amount, finished.unit]
    rcases condition with declared | notBlinds
    · exact declared
    · exfalso
      apply notBlinds
      obtain ⟨positive, below, undone⟩ := signBlinded_ok rsa answered
      rw [finished.verifies_iff, sameN, sameE, own] at verified
      obtain ⟨_, exponent, m, hashed, congruent⟩ := verified
      have invertible := finished.invertible
      have short := finished.short
      rw [sameN] at invertible
      rw [sameE] at short
      exact ⟨⟨positive, below⟩, invertible, ⟨exponent, short⟩, m, hashed,
        undone.symm.trans congruent⟩

/-- A loop that draws a unit at some call ends, with some unit. -/
theorem randomUnit_ends {n : Nat} (positive : 0 < n) {rng : RngBytes}
    {call later : Nat}
    (draws : acceptsUnit n (drawnResidue n rng (call + later)) = true) :
    ∃ r, acceptsUnit n r = true ∧ ∃ enough, ∀ fuel, enough ≤ fuel →
      randomUnit n rng call fuel = some (.ok r) := by
  induction later generalizing call with
  | zero =>
      refine ⟨_, draws, 1, ?_⟩
      intro fuel enough
      obtain ⟨fuel, rfl⟩ := Nat.exists_eq_add_of_le' enough
      rw [Nat.add_zero] at draws
      simp [randomUnit, positive.ne', draws]
  | succ later induction =>
      by_cases now : acceptsUnit n (drawnResidue n rng call) = true
      · refine ⟨_, now, 1, ?_⟩
        intro fuel enough
        obtain ⟨fuel, rfl⟩ := Nat.exists_eq_add_of_le' enough
        simp [randomUnit, positive.ne', now]
      · have shifted : call + (later + 1) = call + 1 + later := by omega
        rw [shifted] at draws
        obtain ⟨r, accepts, enough, ends⟩ := induction draws
        refine ⟨r, accepts, enough + 1, ?_⟩
        intro fuel above
        obtain ⟨fuel, rfl⟩ := Nat.exists_eq_add_of_le' (by omega : 1 ≤ fuel)
        have rest := ends fuel (by omega)
        simp [randomUnit, positive.ne', now, rest]

/-- The residue a client sends is in range and is the blinding of its hash. -/
theorem blindHash_range {key : BlindIssuerKey} {m r : Nat}
    (positive : 0 < m) (residue : m < key.n) (unit : Nat.gcd r key.n = 1) :
    0 < (blindHash m r key).1 ∧ (blindHash m r key).1 < key.n ∧
      (blindHash m r key).1 ≡ m * r ^ key.e [MOD key.n] := by
  have congruent : (blindHash m r key).1 ≡ m * r ^ key.e [MOD key.n] := by
    unfold blindHash
    exact (Nat.mod_modEq _ _).trans ((Nat.mod_modEq _ _).mul_left m)
  refine ⟨?_, Nat.mod_lt _ (by omega), congruent⟩
  rcases Nat.eq_zero_or_pos (blindHash m r key).1 with zero | above
  · rw [zero] at congruent
    have divides : key.n ∣ m * r ^ key.e :=
      (Nat.modEq_zero_iff_dvd).mp congruent.symm
    have coprime : Nat.Coprime key.n (r ^ key.e) :=
      (Nat.Coprime.pow_left _ unit).symm
    exact absurd (Nat.le_of_dvd positive (coprime.dvd_of_dvd_mul_right divides))
      (by omega)
  · exact above

/-- The issuer's answer to an honest residue, unblinded. -/
theorem unblinded_signature {issuer : BlindIssuer} (rsa : issuer.IsRsa)
    {m r blinded : Nat} (positive : 0 < issuer.n)
    (unit : Int.gcd r issuer.n = 1)
    (congruent : blinded ≡ m * r ^ issuer.e [MOD issuer.n]) :
    blinded ^ issuer.d % issuer.n * inverse r issuer.n % issuer.n =
      m ^ issuer.d % issuer.n := by
  obtain ⟨p, q, modulus, exponents⟩ := rsa
  have undone := exponents.pow_pow_modEq r
  rw [← modulus] at undone
  have cancels : r * inverse r issuer.n ≡ 1 [MOD issuer.n] := by
    rw [← Int.natCast_modEq_iff]
    exact_mod_cast mul_inverse positive unit
  calc blinded ^ issuer.d % issuer.n * inverse r issuer.n
      ≡ blinded ^ issuer.d * inverse r issuer.n [MOD issuer.n] :=
        (Nat.mod_modEq _ _).mul_right _
    _ ≡ (m * r ^ issuer.e) ^ issuer.d * inverse r issuer.n [MOD issuer.n] :=
        (congruent.pow _).mul_right _
    _ = m ^ issuer.d * ((r ^ issuer.d) ^ issuer.e * inverse r issuer.n) := by
        rw [mul_pow, ← pow_mul, ← pow_mul, Nat.mul_comm issuer.e, mul_assoc]
    _ ≡ m ^ issuer.d * (r * inverse r issuer.n) [MOD issuer.n] :=
        (undone.mul_right _).mul_left _
    _ ≡ m ^ issuer.d * 1 [MOD issuer.n] := cancels.mul_left _
    _ = m ^ issuer.d := Nat.mul_one _

/-- A credit that verifies, reads back as what it was made of, and redeems at
its own denomination. -/
structure GoodCredit (issuer : BlindIssuer) (unit amount : Text)
    (serial : Bytes) (m : Nat) (credit : BlindCredit) : Prop where
  verified : verifyBlindCredit credit = .ok true
  sameUnit : credit.unit = unit
  sameAmount : credit.amount = amount
  written : issuer.publicKey.pubkeyStr = .ok credit.issuer
  read : BlindIssuerKey.fromStr credit.issuer = .ok issuer.publicKey
  token : b64uDecode credit.token = .ok serial
  signature : b64uToInt credit.signature = .ok (m ^ issuer.d % issuer.n)
  redeems : ∀ issuerKeys keys, credit.issuer ∈ issuerKeys →
    credit.spendKey ∉ keys →
      Accepted (spentTable.run
        (redeemBlindCredit credit amount unit issuerKeys) keys).1

/-- Requesting, signing and finishing end in a good credit. -/
def IssuanceCompletes (issuer : BlindIssuer) (unit amount : Text)
    (rng : RngBytes) (m : Nat) : Prop :=
  ∃ request secret signed credit enough,
    (∀ fuel, enough ≤ fuel →
      blindCreditRequest issuer.publicKey unit amount rng fuel =
        some (.ok (request, secret))) ∧
    issuer.signBlinded request.blinded = .ok signed ∧
    finalizeBlindCredit signed secret = .ok credit ∧
    GoodCredit issuer unit amount (rng 0 serialBytes) m credit

/-- **Completeness of blind issuance.** -/
theorem blind_issuance_complete {issuer : BlindIssuer} (rsa : issuer.IsRsa)
    (exponent : 2 ≤ issuer.e) (short : issuer.e < 10 ^ maxStrDigits)
    {unit amount : Text} {rng : RngBytes} {m : Nat}
    (hashed : fdh (rng 0 serialBytes) amount unit issuer.publicKey = .ok m)
    (nonzero : m ≠ 0)
    (draws : ∃ later,
      acceptsUnit issuer.n (drawnResidue issuer.n rng (1 + later)) = true) :
    IssuanceCompletes issuer unit amount rng m := by
  have large : 6 ≤ issuer.n := by
    obtain ⟨p, q, modulus, exponents⟩ := rsa
    rw [modulus]
    exact exponents.modulus_ge
  obtain ⟨later, draws⟩ := draws
  obtain ⟨r, accepts, enough, ends⟩ :=
    randomUnit_ends (by omega : 0 < issuer.n) draws
  have coprime : Nat.gcd r issuer.n = 1 := by
    unfold acceptsUnit at accepts
    simp only [Bool.and_eq_true, beq_iff_eq] at accepts
    exact accepts.2
  have invertible : Int.gcd (r : Int) issuer.n = 1 := by
    rw [Int.gcd_natCast_natCast]
    exact coprime
  obtain ⟨issuerText, written, read⟩ :
      ∃ s, issuer.publicKey.pubkeyStr = .ok s ∧
        BlindIssuerKey.fromStr s = .ok issuer.publicKey := by
    rcases pubkeyStr_cases issuer.publicKey with
      ⟨_, s, written, read⟩ | ⟨long, _⟩
    · have proper : ¬ (issuer.n < 3 ∨ issuer.e < 2) := by omega
      exact ⟨s, written, by rw [read]; exact if_neg proper⟩
    · exact absurd short long
  obtain ⟨positive, below, congruent⟩ := @blindHash_range issuer.publicKey m r
    (Nat.pos_of_ne_zero nonzero) (fdh_lt hashed) coprime
  let blinded := (blindHash m r issuer.publicKey).1
  let secret : BlindingSecret :=
    ⟨rng 0 serialBytes, r, unit, amount, issuer.publicKey⟩
  have answered : issuer.signBlinded blinded =
      .ok (blinded ^ issuer.d % issuer.n) := by
    unfold BlindIssuer.signBlinded
    rw [if_pos ⟨by exact_mod_cast positive, by exact_mod_cast below⟩,
      Int.toNat_natCast]
  obtain ⟨credit, finalized⟩ := @finalize_ok secret
    (blinded ^ issuer.d % issuer.n) (by show 0 < issuer.n; omega) invertible
    short
  have finished := finalize_finished finalized
  have verified : verifyBlindCredit credit = .ok true := by
    obtain ⟨_, _, undone⟩ := signBlinded_ok rsa answered
    have blinds := Int.natCast_modEq_iff.mpr congruent
    push_cast at blinds
    refine finished.verifies_iff.mpr
      ⟨by show 3 ≤ issuer.n; omega, exponent, m, hashed, ?_⟩
    exact undone.trans blinds
  refine ⟨⟨blinded, unit, amount, issuerText⟩, secret, _, credit, enough, ?_,
    answered, finalized, ?_⟩
  · intro fuel above
    have drawn : randomUnit issuer.publicKey.n rng 1 fuel = some (.ok r) :=
      ends fuel above
    simp [blindCreditRequest, blind, hashed, drawn, written, secret, blinded,
      blindHash]
  · have sameIssuer : credit.issuer = issuerText := by
      have finishedIssuer := finished.issuer
      rw [show secret.key = issuer.publicKey from rfl, written,
        Except.ok.injEq] at finishedIssuer
      exact finishedIssuer.symm
    refine ⟨verified, finished.unit, finished.amount, ?_, ?_, finished.token,
      ?_, ?_⟩
    · rw [sameIssuer, written]
    · rw [sameIssuer, read]
    · rw [finished.signature]
      exact congrArg Except.ok
        (unblinded_signature rsa (by omega) invertible congruent)
    · intro issuerKeys keys listed unspent
      exact (BlindCall.accepted_iff ⟨credit, amount, unit, issuerKeys⟩
        keys).mpr ⟨⟨listed, verified, finished.unit, finished.amount⟩, unspent⟩

def smallIssuer : BlindIssuer := ⟨3233, 17, 2753⟩

theorem smallIssuer_exponents : RsaExponents 61 53 17 2753 where
  primeP := by norm_num
  primeQ := by norm_num
  distinct := by decide
  inverse := by decide

theorem smallIssuer_isRsa : smallIssuer.IsRsa :=
  ⟨61, 53, rfl, smallIssuer_exponents⟩

/-- The serial zero over five units, blinded with the factor two. -/
def fiveSecret : BlindingSecret := ⟨[0], 2, "pic", "5", smallIssuer.publicKey⟩

/-- The residue of that secret, declared to be worth some amount. -/
def declaring (amount : Text) : BlindCreditRequest :=
  ⟨2572, "pic", amount, "rsa-blind:DKE.17"⟩

theorem issuance_binds_iff_declared :
    BindsDenomination smallIssuer (declaring "5") fiveSecret :=
  (issuance_binds_iff smallIssuer_isRsa rfl).mpr (.inl ⟨rfl, rfl⟩)

/-- A credit over five units, issued for a request over one. -/
theorem issued_one_redeems_five :
    smallIssuer.signBlinded (declaring "1").blinded = .ok 2189 ∧
      finalizeBlindCredit 2189 fiveSecret =
        .ok ⟨"pic", "5", "rsa-blind:DKE.17", "AA", "Cpc"⟩ ∧
      verifyBlindCredit ⟨"pic", "5", "rsa-blind:DKE.17", "AA", "Cpc"⟩ =
        .ok true ∧
      ¬ BindsDenomination smallIssuer (declaring "1") fiveSecret := by
  have answered : smallIssuer.signBlinded (declaring "1").blinded =
      .ok 2189 := by
    decide +kernel
  have finalized : finalizeBlindCredit 2189 fiveSecret =
      .ok ⟨"pic", "5", "rsa-blind:DKE.17", "AA", "Cpc"⟩ := by
    decide +kernel
  have verified : verifyBlindCredit
      ⟨"pic", "5", "rsa-blind:DKE.17", "AA", "Cpc"⟩ = .ok true := by
    decide +kernel
  refine ⟨answered, finalized, verified, ?_⟩
  intro binds
  have declared := binds _ _ answered finalized verified
  exact absurd declared.1 (by decide)

/-- Zero bytes for the serial, and then the residue two. -/
def twoSource : RngBytes := fun call length =>
  if call = 0 then List.replicate length 0
  else List.replicate (length - 1) 0 ++ [2]

theorem blind_issuance_complete_small :
    IssuanceCompletes smallIssuer "pic" "5" twoSource 89 :=
  blind_issuance_complete smallIssuer_isRsa (by decide)
    (by
      have digits : 10 ^ 2 ≤ 10 ^ maxStrDigits :=
        Nat.pow_le_pow_right (by decide) (by decide)
      exact lt_of_lt_of_le (by decide) digits)
    (by decide +kernel) (by decide) ⟨0, by decide +kernel⟩

/-- A source that only gives zeros. -/
def zeroSource : RngBytes := fun _ length => List.replicate length 0

theorem randomUnit_zeroSource (call fuel : Nat) :
    randomUnit 3233 zeroSource call fuel = none := by
  induction fuel generalizing call with
  | zero => rfl
  | succ fuel induction =>
      have constant : drawnResidue 3233 zeroSource call =
          drawnResidue 3233 zeroSource 0 := rfl
      have zero : drawnResidue 3233 zeroSource 0 = 0 := by decide +kernel
      rw [zero] at constant
      simp [randomUnit, constant, acceptsUnit, induction]

/-- An exponent with too many digits to be written. -/
def longIssuer : BlindIssuer := ⟨3233, 17 + 780 * 10 ^ maxStrDigits, 2753⟩

theorem fdh_exponent (token : Bytes) (amount unit : Text) (n e e' : Nat) :
    fdh token amount unit ⟨n, e⟩ = fdh token amount unit ⟨n, e'⟩ := rfl

private theorem longer_exponents (turns : Nat) :
    RsaExponents 61 53 (17 + 780 * turns) 2753 where
  primeP := smallIssuer_exponents.primeP
  primeQ := smallIssuer_exponents.primeQ
  distinct := by decide
  inverse := by
    have least : Nat.lcm (61 - 1) (53 - 1) = 780 := by decide
    rw [least]
    unfold Nat.ModEq
    omega

private theorem longIssuer_isRsa : longIssuer.IsRsa := by
  have each : ∀ turns : Nat,
      (⟨3233, 17 + 780 * turns, 2753⟩ : BlindIssuer).IsRsa :=
    fun turns => ⟨61, 53, rfl, longer_exponents turns⟩
  exact each _

/-- Sources without a unit, and exponents without a numeral. -/
theorem blind_issuance_incomplete :
    (smallIssuer.IsRsa ∧
      fdh (zeroSource 0 serialBytes) "5" "pic" smallIssuer.publicKey =
        .ok 89 ∧
      ¬ IssuanceCompletes smallIssuer "pic" "5" zeroSource 89) ∧
    (longIssuer.IsRsa ∧
      fdh (twoSource 0 serialBytes) "5" "pic" longIssuer.publicKey = .ok 89 ∧
      ¬ IssuanceCompletes longIssuer "pic" "5" twoSource 89) := by
  refine ⟨⟨smallIssuer_isRsa, by decide +kernel, ?_⟩,
    longIssuer_isRsa, ?_, ?_⟩
  · intro completes
    obtain ⟨request, secret, _, _, enough, requests, _⟩ := completes
    have requested := requests enough le_rfl
    have hashed : fdh (zeroSource 0 serialBytes) "5" "pic"
        smallIssuer.publicKey = .ok 89 := by
      decide +kernel
    have never : randomUnit smallIssuer.publicKey.n zeroSource 1 enough =
        none := randomUnit_zeroSource 1 enough
    simp [blindCreditRequest, blind, hashed, never] at requested
  · have hashed : fdh (twoSource 0 serialBytes) "5" "pic" ⟨3233, 17⟩ =
        .ok 89 := by
      decide +kernel
    rw [← hashed]
    exact fdh_exponent _ _ _ _ _ _
  · intro completes
    obtain ⟨_, _, _, credit, _, _, _, _, good⟩ := completes
    have long : ∀ bound : Nat, ¬ 17 + 780 * bound < bound := by
      intro bound
      omega
    rcases pubkeyStr_cases longIssuer.publicKey with ⟨short, _⟩ | ⟨_, fails⟩
    · exact long _ short
    · have written := good.written
      rw [fails] at written
      cases written

end SovereignInference.SipPic
