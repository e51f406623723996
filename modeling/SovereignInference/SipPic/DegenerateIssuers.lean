import SovereignInference.SipPic.BlindPreimage

/-!
# Issuers that everyone can forge

The length of the hash is the number of whole bytes below the modulus.  A
modulus below 256 leaves no byte, every credit hashes to zero, and zero signs
them all; from 256 on no signature fits two credits whose digests start with
different bytes.
-/

namespace SovereignInference.SipPic

open Python Effects

/-- `verify_blind_token` for a signature that may be any integer. -/
def verifyBlindTokenInt (token : Bytes) (amount unit : Text) (sig : Int)
    (key : BlindIssuerKey) : Except PyExc Bool := do
  if key.n = 0 then throw .valueError
  let m ← fdh token amount unit key
  return sig ^ key.e % (key.n : Int) == (m : Int)

/-- No value is a signature of every credit. -/
def NoUniversalSignature (key : BlindIssuerKey) : Prop :=
  ∀ sig : Int, ∃ token amount unit,
    verifyBlindTokenInt token amount unit sig key = .ok false

/-- The longest hash, of as many blocks as four bytes can count. -/
def maxHash : Nat := 32 * 2 ^ 32

theorem verifyBlindTokenInt_false {token : Bytes} {amount unit : Text}
    {sig : Int} {key : BlindIssuerKey} :
    verifyBlindTokenInt token amount unit sig key = .ok false ↔
      key.n ≠ 0 ∧ ∃ m, fdh token amount unit key = .ok m ∧
        sig ^ key.e % (key.n : Int) ≠ (m : Int) := by
  unfold verifyBlindTokenInt
  by_cases zero : key.n = 0
  · simp [zero]
  · cases fdh token amount unit key with
    | error error => simp [zero]
    | ok m => simp [zero]

theorem mgf1_isOk {seed : Bytes} {length : Nat} :
    (∃ digest, mgf1 seed length = .ok digest) ↔ length ≤ maxHash := by
  have blocks : (∃ blocks, (List.range ((length + 31) / 32)).mapM
      (mgf1Block seed) = .ok blocks) ↔ length ≤ maxHash := by
    rw [mapM_isOk]
    unfold maxHash mgf1Block
    constructor
    · intro hashes
      by_contra long
      obtain ⟨block, hashed⟩ := hashes (2 ^ 32) (by
        rw [List.mem_range]
        omega)
      obtain ⟨counter, written, _⟩ := bind_eq_ok.mp hashed
      exact absurd (toBytesBig_eq_ok written).2.1 (by decide)
    · intro short counter member
      have fits : counter < 256 ^ 4 := by
        rw [List.mem_range] at member
        omega
      obtain ⟨bytes, written, _⟩ := toBytesBig_ok fits
      exact ⟨_, by rw [written]; rfl⟩
  rw [← blocks]
  unfold mgf1
  cases (List.range ((length + 31) / 32)).mapM (mgf1Block seed) with
  | error error => simp
  | ok blocks => simp

/-- A mask starts with the hash of the seed and the counter zero. -/
theorem mgf1_head {seed digest : Bytes} {length : Nat}
    (hashed : mgf1 seed (length + 1) = .ok digest) :
    digest.head? = (sha256 (seed ++ [0, 0, 0, 0])).head? := by
  unfold mgf1 at hashed
  have count : (length + 1 + 31) / 32 = length / 32 + 1 := by omega
  rw [count, List.range_succ_eq_map, List.mapM_cons] at hashed
  have first : mgf1Block seed 0 = .ok (sha256 (seed ++ [0, 0, 0, 0])) := rfl
  rw [first, ok_bind] at hashed
  obtain ⟨blocks, more, hashed⟩ := bind_eq_ok.mp hashed
  obtain ⟨others, _, more⟩ := bind_eq_ok.mp more
  cases more
  cases hashed
  have long := length_sha256 (seed ++ [0, 0, 0, 0])
  cases starts : sha256 (seed ++ [0, 0, 0, 0]) with
  | nil =>
      rw [starts] at long
      cases long
  | cons byte rest => simp

theorem fdh_ok {token seed digest : Bytes} {amount unit : Text}
    {key : BlindIssuerKey} (nonzero : key.n ≠ 0)
    (isSeed : fdhPreimage token amount unit = .ok seed)
    (hashed : mgf1 seed key.keyBytes = .ok digest) :
    fdh token amount unit key = .ok (fromBytesBig digest % key.n) := by
  unfold fdhPreimage at isSeed
  obtain ⟨denomination, written, isSeed⟩ := bind_eq_ok.mp isSeed
  cases isSeed
  unfold fdh
  simp only [written, hashed, ok_bind, if_neg nonzero]
  rfl

/-- What is hashed for a serial without an amount or a unit. -/
def plainSeed (token : Bytes) : Bytes :=
  ascii "sip-blind-fdh-v2:" ++ token ++ nulls 8

theorem fdhPreimage_plain (token : Bytes) :
    fdhPreimage token [] [] = .ok (plainSeed token) := rfl

theorem plain_heads_differ :
    (sha256 (plainSeed [] ++ [0, 0, 0, 0])).head? ≠
      (sha256 (plainSeed [0] ++ [0, 0, 0, 0])).head? := by
  decide +kernel

theorem keyBytes_eq_zero_iff {key : BlindIssuerKey} :
    key.keyBytes = 0 ↔ key.n < 256 := by
  unfold BlindIssuerKey.keyBytes bitLength
  by_cases zero : key.n = 0
  · simp [zero]
  · rw [if_neg zero, show 256 = 2 ^ 8 from rfl, ← Nat.log2_lt zero]
    omega

theorem noUniversalSignature_of_large {key : BlindIssuerKey}
    (large : 256 ≤ key.n) (short : key.keyBytes ≤ maxHash) :
    NoUniversalSignature key := by
  have nonzero : key.n ≠ 0 := by omega
  obtain ⟨length, isLength⟩ : ∃ length, key.keyBytes = length + 1 := by
    apply Nat.exists_eq_succ_of_ne_zero
    rw [Ne, keyBytes_eq_zero_iff]
    omega
  obtain ⟨digest, hashed⟩ := (@mgf1_isOk (plainSeed []) _).mpr short
  obtain ⟨digest', hashed'⟩ := (@mgf1_isOk (plainSeed [0]) _).mpr short
  have first := fdh_ok nonzero (fdhPreimage_plain []) hashed
  have second := fdh_ok nonzero (fdhPreimage_plain [0]) hashed'
  have different : fromBytesBig digest % key.n ≠
      fromBytesBig digest' % key.n := by
    intro same
    obtain ⟨seed, other, isSeed, isOther, value⟩ := fdh_digest first
    cases isSeed
    obtain ⟨seed', other', isSeed', isOther', value'⟩ := fdh_digest second
    cases isSeed'
    have sameBytes := fromBytesBig_injective
      ((mgf1_length isOther).trans (mgf1_length isOther').symm)
      (value.symm.trans (same.trans value'))
    rw [isLength] at isOther isOther'
    have heads := congrArg List.head? sameBytes
    rw [mgf1_head isOther, mgf1_head isOther'] at heads
    exact plain_heads_differ heads
  intro sig
  by_cases signs : sig ^ key.e % (key.n : Int) =
      (fromBytesBig digest % key.n : Nat)
  · refine ⟨[0], [], [], verifyBlindTokenInt_false.mpr
      ⟨nonzero, _, second, ?_⟩⟩
    rw [signs]
    exact_mod_cast different
  · exact ⟨[], [], [], verifyBlindTokenInt_false.mpr
      ⟨nonzero, _, first, signs⟩⟩

theorem accepted_bounds {issuer : Text} {key : BlindIssuerKey}
    (accepted : BlindIssuerKey.fromStr issuer = .ok key) :
    3 ≤ key.n ∧ 2 ≤ key.e := by
  unfold BlindIssuerKey.fromStr at accepted
  split_ifs at accepted
  · cases accepted
  obtain ⟨n, _, accepted⟩ := bind_eq_ok.mp accepted
  obtain ⟨e, _, accepted⟩ := bind_eq_ok.mp accepted
  split_ifs at accepted with degenerate
  · cases accepted
  · cases accepted
    dsimp only
    omega

/-- Zero signs every credit whose hash has no byte. -/
theorem zero_signs {token : Bytes} {amount unit : Text} {key : BlindIssuerKey}
    (exponent : key.e ≠ 0) (small : key.n < 256) :
    verifyBlindTokenInt token amount unit 0 key ≠ .ok false := by
  intro refuted
  obtain ⟨_, m, isHash, unequal⟩ := verifyBlindTokenInt_false.mp refuted
  obtain ⟨seed, digest, _, hashed, value⟩ := fdh_digest isHash
  have long := mgf1_length hashed
  rw [keyBytes_eq_zero_iff.mpr small, List.length_eq_zero_iff] at long
  subst long
  rw [value, zero_pow exponent] at unequal
  exact unequal (Int.zero_emod _)

/-- **Keys for which no value signs everything.** -/
theorem no_universal_signature_iff {issuer : Text} {key : BlindIssuerKey}
    (accepted : BlindIssuerKey.fromStr issuer = .ok key) :
    NoUniversalSignature key ↔ 256 ≤ key.n ∧ key.keyBytes ≤ maxHash := by
  obtain ⟨_, exponent⟩ := accepted_bounds accepted
  constructor
  · intro safe
    obtain ⟨token, amount, unit, refuted⟩ := safe 0
    constructor
    · by_contra small
      exact zero_signs (by omega) (not_le.mp small) refuted
    · obtain ⟨_, m, isHash, _⟩ := verifyBlindTokenInt_false.mp refuted
      obtain ⟨seed, digest, _, hashed, _⟩ := fdh_digest isHash
      exact mgf1_isOk.mp ⟨digest, hashed⟩
  · rintro ⟨large, short⟩
    exact noUniversalSignature_of_large large short

/-- A modulus of nine bits. -/
theorem no_universal_signature_iff_nine_bits :
    BlindIssuerKey.fromStr "rsa-blind:AQE.3" = .ok ⟨257, 3⟩ ∧
      NoUniversalSignature ⟨257, 3⟩ := by
  have accepted : BlindIssuerKey.fromStr "rsa-blind:AQE.3" =
      .ok ⟨257, 3⟩ := by decide +kernel
  exact ⟨accepted, (no_universal_signature_iff accepted).mpr
    ⟨by decide, by decide⟩⟩

/-- The least modulus that is accepted: zero signs everything that can be
hashed. -/
theorem degenerate_modulus_accepted :
    BlindIssuerKey.fromStr "rsa-blind:Aw.2" = .ok ⟨3, 2⟩ ∧
      verifyBlindTokenInt [1] "1000000" "pic" 0 ⟨3, 2⟩ = .ok true ∧
      ¬ NoUniversalSignature ⟨3, 2⟩ := by
  refine ⟨by decide +kernel, by decide +kernel, ?_⟩
  intro safe
  obtain ⟨token, amount, unit, refuted⟩ := safe 0
  exact zero_signs (by decide) (by decide) refuted

end SovereignInference.SipPic
