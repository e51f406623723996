import SovereignInference.Python.Base64Spelling
import SovereignInference.SipProtocol.RoundTrip

/-!
# Spellings of a key

The decoder reads more texts than the encoder writes, so a key has many
accepted spellings, and one of them is canonical.
-/

namespace SovereignInference.SipProtocol

open Python Effects

/-- The prefix, and 43 characters of the URL-safe alphabet of which the last
has no spare bits. -/
def IsCanonicalKey (encoded : Text) : Prop :=
  ∃ (values : List Nat) (last : Nat), (∀ value ∈ values, value < 64) ∧
    values.length = 42 ∧ last < 64 ∧ last % 4 = 0 ∧
    encoded = ed25519Prefix ++ base64Text (values ++ [last])

theorem encodePrefixed_canonical {raw : Bytes} (isKey : raw.length = 32) :
    IsCanonicalKey (encodePrefixed raw) := by
  obtain ⟨values, last, small, counted, below, spare, encoded⟩ :=
    encoded_values raw (by rw [isKey])
  refine ⟨values, last, small, by omega, below, spare, ?_⟩
  unfold encodePrefixed
  rw [encoded]

private theorem decodePublicKey_length {encoded : Text} {raw : Bytes}
    (accepted : decodePublicKey encoded = .ok raw) : raw.length = 32 := by
  unfold decodePublicKey decodePrefixed at accepted
  simp only [throw_eq_error, error_bind, pure_eq_ok] at accepted
  split_ifs at accepted
  split at accepted
  · cases accepted
  · split_ifs at accepted with length
    cases accepted
    exact length

/-- **Only the canonical spelling** of an accepted key is what the encoder
writes for it. -/
theorem encodePrefixed_eq_iff {encoded : Text} {raw : Bytes}
    (accepted : decodePublicKey encoded = .ok raw) :
    encodePrefixed raw = encoded ↔ IsCanonicalKey encoded := by
  constructor
  · rintro rfl
    exact encodePrefixed_canonical (decodePublicKey_length accepted)
  · rintro ⟨values, last, small, counted, below, spare, rfl⟩
    obtain ⟨bytes, written⟩ := exists_encoded values small (by rw [counted])
      last below spare
    have isKey : bytes.length = 32 := by
      have length := congrArg List.length written
      rw [length_b64uEncode] at length
      simp only [base64Text, List.length_map, List.length_append,
        List.length_cons, List.length_nil, counted] at length
      omega
    rw [← written] at accepted ⊢
    have decoded : decodePublicKey (ed25519Prefix ++ b64uEncode bytes) =
        .ok bytes := decodePrefixed_encode isKey
    rw [decoded] at accepted
    cases accepted
    rfl

/-- **Keys and their spellings.**  An accepted spelling is the encoding of its
key exactly if it is canonical, two canonical spellings of a key are the same,
and every key is read back from its encoding. -/
theorem key_strings_canonical_iff (encoded other : Text) (raw : Bytes) :
    (decodePublicKey encoded = .ok raw →
      (encodePrefixed raw = encoded ↔ IsCanonicalKey encoded)) ∧
    (decodePublicKey encoded = .ok raw → decodePublicKey other = .ok raw →
      IsCanonicalKey encoded → IsCanonicalKey other → encoded = other) ∧
    (raw.length = 32 → decodePublicKey (encodePrefixed raw) = .ok raw) := by
  refine ⟨encodePrefixed_eq_iff, ?_, ?_⟩
  · intro accepted accepted' canonical canonical'
    rw [← (encodePrefixed_eq_iff accepted).mpr canonical]
    exact (encodePrefixed_eq_iff accepted').mpr canonical'
  · intro isKey
    exact decodePrefixed_encode isKey

/-- A spelling with a spare bit. -/
def sparedKey : Text :=
  text "ed25519:" ++ List.replicate 42 0x41 ++ [0x42]

/-- The key of zeros is read back, and the spelling with a spare bit is not
canonical. -/
theorem key_strings_canonical_iff_spared :
    decodePublicKey (encodePrefixed (List.replicate 32 0)) =
        .ok (List.replicate 32 0) ∧
      IsCanonicalKey (encodePrefixed (List.replicate 32 0)) ∧
      ¬ IsCanonicalKey sparedKey := by
  have isKey : decodePublicKey (encodePrefixed (List.replicate 32 0)) =
      .ok (List.replicate 32 0) :=
    (key_strings_canonical_iff [] [] _).2.2 List.length_replicate
  have spared : decodePublicKey sparedKey = .ok (List.replicate 32 0) := by
    decide +kernel
  refine ⟨isKey, ?_, ?_⟩
  · exact ((key_strings_canonical_iff _ [] _).1 isKey).mp rfl
  · intro canonical
    have written := ((key_strings_canonical_iff _ [] _).1 spared).mpr canonical
    exact absurd written (by decide +kernel)

/-- It is accepted, and is not how the key is written. -/
theorem spared_key_accepted :
    decodePublicKey sparedKey = .ok (List.replicate 32 0) ∧
      encodePrefixed (List.replicate 32 0) ≠ sparedKey := by
  decide +kernel

end SovereignInference.SipProtocol
