import SovereignInference.Python.RegexLanguage
import SovereignInference.SipProtocol.Signable

/-!
# Signed documents verify

Signatures, keys and hashes have the shapes that the schemas ask for, and a
document that was signed with a key verifies under it.
-/

namespace SovereignInference.SipProtocol

open Python Effects

/-- What Ed25519 promises of a key pair: the sizes of the key and of its
signatures, and that these verify. -/
structure Platform.SignsFor (P : Platform) (keypair : KeyPair) : Prop where
  keyLength : (P.publicKey keypair.privateKey).length = 32
  signatureLength : ∀ message,
    (P.sign keypair.privateKey message).length = 64
  verifies : ∀ message, P.verifySignature (P.publicKey keypair.privateKey)
    message (P.sign keypair.privateKey message) = true

theorem length_b64uEncode (bytes : Bytes) :
    (b64uEncode bytes).length = (4 * bytes.length + 2) / 3 := by
  induction bytes using b64uEncode.induct with
  | case1 => rfl
  | case2 a => simp [b64uEncode]
  | case3 a b => simp [b64uEncode]
  | case4 a b c rest induction =>
      simp only [b64uEncode, List.length_cons, induction]
      omega

/-- The encoding of so many bytes has the shape of a key or a signature. -/
theorem encodePrefixed_valid {raw : Bytes} {least most : Nat}
    (low : least ≤ (4 * raw.length + 2) / 3)
    (high : (4 * raw.length + 2) / 3 ≤ most) :
    (Schema.string [Schemas.ed25519Pattern least most]).valid
      (.str (encodePrefixed raw)) = true := by
  have plain : ∀ value < 64, Regex.inRanges
      [(0x41, 0x5A), (0x61, 0x7A), (0x30, 0x39), (0x2B, 0x2B), (0x2F, 0x2F),
        (0x3D, 0x3D), (0x5F, 0x5F), (0x2D, 0x2D)] (base64Char value) =
      true := by
    decide
  refine (Schema.allValid_iff _ _).mpr ?_
  simp only [List.mem_cons, List.not_mem_nil, or_false, forall_eq_or_imp,
    forall_eq]
  refine ⟨rfl, ?_⟩
  show Regex.matchesText _ _ = true
  rw [Regex.matchesText_iff]
  refine ⟨_, ⟨ed25519Prefix, b64uEncode raw, rfl, rfl, ?_, ?_, ?_⟩, .inl rfl⟩
  · intro c member
    obtain ⟨value, small, rfl⟩ := mem_b64uEncode member
    exact plain value small
  · rw [length_b64uEncode]
    exact low
  · intro bound isMost
    cases isMost
    rw [length_b64uEncode]
    exact high

theorem length_rounds (pairs : List (Nat × Nat)) (state : List Nat) :
    (Sha256.rounds pairs state).length = state.length := by
  induction pairs, state using Sha256.rounds.induct with
  | case1 constant word rest a b c d e f g h choice majority first second
      induction =>
      rw [Sha256.rounds, induction]
      rfl
  | case2 pairs state other => rw [Sha256.rounds]; exact other

theorem length_blocks {count : Nat} {words state : List Nat}
    (eight : state.length = 8) :
    (Sha256.blocks count words state).length = 8 := by
  induction count generalizing words state with
  | zero => exact eight
  | succ count induction =>
      apply induction
      unfold Sha256.compress
      rw [List.length_zipWith, length_rounds, eight]
      rfl

theorem length_sha256 (message : Bytes) : (sha256 message).length = 32 := by
  have four : ∀ state : List Nat,
      (state.flatMap Sha256.wordBytes).length = 4 * state.length := by
    intro state
    induction state with
    | nil => rfl
    | cons word rest induction =>
        rw [List.flatMap_cons, List.length_append, induction]
        show 4 + 4 * rest.length = 4 * (rest.length + 1)
        omega
  unfold sha256
  dsimp only
  rw [four, length_blocks rfl]

private theorem length_hex (bytes : Bytes) :
    (hex bytes).length = 2 * bytes.length := by
  unfold hex
  induction bytes with
  | nil => rfl
  | cons byte rest induction =>
      rw [List.flatMap_cons, List.length_append, induction]
      show 2 + 2 * rest.length = 2 * (rest.length + 1)
      omega

theorem sha256Prefixed_valid (data : Bytes) :
    Schemas.sha256.valid (.str (sha256Prefixed data)) = true := by
  have plain : ∀ value < 16, Regex.inRanges [(0x30, 0x39), (0x61, 0x66)]
      (hexDigit value) = true := by
    decide
  have length : (hex (sha256 data)).length = 64 := by
    rw [length_hex, length_sha256]
  refine (Schema.allValid_iff _ _).mpr ?_
  simp only [List.mem_cons, List.not_mem_nil, or_false, forall_eq_or_imp,
    forall_eq]
  refine ⟨rfl, ?_⟩
  show Regex.matchesText _ _ = true
  rw [Regex.matchesText_iff]
  refine ⟨_, ⟨"sha256:", hex (sha256 data), rfl, rfl, ?_, ?_, ?_⟩, .inl rfl⟩
  · intro c member
    obtain ⟨byte, _, written⟩ := List.mem_flatMap.mp member
    have bound := byte.toNat_lt
    simp only [List.mem_cons, List.not_mem_nil, or_false] at written
    rcases written with rfl | rfl
    · exact plain _ (by omega)
    · exact plain _ (by omega)
  · rw [length]
  · intro bound isMost
    cases isMost
    rw [length]

theorem decodePrefixed_encode {raw : Bytes} {length : Nat}
    (isLength : raw.length = length) :
    decodePrefixed length (encodePrefixed raw) = .ok raw := by
  have isPrefix : startsWith (encodePrefixed raw) ed25519Prefix = true :=
    List.isPrefixOf_iff_prefix.mpr ⟨b64uEncode raw, rfl⟩
  have dropped : (encodePrefixed raw).drop ed25519Prefix.length =
      b64uEncode raw := List.drop_left
  unfold decodePrefixed
  simp [isPrefix, dropped, b64uDecode_encode, isLength]

variable {P : Platform} {keypair : KeyPair} {document signed : Dict}

theorem without_set (fields : Dict) (key : Text) (value : Json) :
    ((fields.without key).set key value).without key = fields.without key := by
  have absent : (fields.without key).any (·.1 = key) = false := by
    simp [Dict.without]
  unfold Dict.set
  rw [absent, if_neg (by decide)]
  simp [Dict.without]

/-- What is signed: the other fields, and a signature at the end. -/
theorem signDocument_eq
    (done : signDocument P document keypair = .ok signed) :
    ∃ message, signingBytes (document.without signatureField) = .ok message ∧
      signed = (document.without signatureField).set signatureField
        (.str (keypair.sign P message)) := by
  obtain ⟨message, bytes, done⟩ := bind_eq_ok.mp done
  cases done
  exact ⟨message, bytes, rfl⟩

/-- **A signed document verifies** under the key that signed it. -/
theorem signDocument_verifies (signs : P.SignsFor keypair)
    (done : signDocument P document keypair = .ok signed) {pubkeyField : Text}
    (names : signed.get pubkeyField = .str (keypair.publicKeyStr P)) :
    verifyDocument P signed pubkeyField = .ok true := by
  obtain ⟨message, bytes, rfl⟩ := signDocument_eq done
  have signature : ((document.without signatureField).set signatureField
      (.str (keypair.sign P message))).get signatureField =
        .str (keypair.sign P message) := by
    unfold Dict.get
    rw [Dict.find_set_self]
    rfl
  have sameBytes : signingBytes ((document.without signatureField).set
      signatureField (.str (keypair.sign P message))) = .ok message := by
    rw [← bytes]
    unfold signingBytes
    rw [without_set]
    simp [Dict.without]
  unfold verifyDocument
  rw [names, signature]
  simp only [sameBytes, ok_bind, pure_eq_ok]
  unfold verify decodePublicKey decodeSignature KeyPair.publicKeyStr
    KeyPair.sign
  rw [decodePrefixed_encode signs.keyLength,
    decodePrefixed_encode (signs.signatureLength message)]
  simp only [signs.verifies]

end SovereignInference.SipProtocol
