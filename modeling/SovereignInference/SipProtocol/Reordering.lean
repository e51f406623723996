import SovereignInference.Python.SchemaMembers
import SovereignInference.SipProtocol.CanonicalJson
import SovereignInference.SipProtocol.Verification

/-!
# Verification does not depend on the order of members

A document that was written and read again has the members of its objects in
another order.  Schemas see the members through their keys, and signatures
are made over canonical JSON, so a verifier accepts such a document exactly if
it accepts the first one.
-/

namespace SovereignInference.SipProtocol

open Python Python.Json Effects

variable {P : Platform} {document other : Dict}

/-- When a verifier accepts. -/
theorem Verifier.accepts_iff (verifier : Verifier) :
    verifier.run P document = .ok true ↔
      P.schemaErrors verifier.schema (.obj document) = [] ∧
        verifyDocument P document verifier.pubkeyField = .ok true := by
  have signed : ∀ schema pubkeyField signer, (do
      return (← verifySigned P schema pubkeyField signer document).valid :
        Except PyExc Bool) = .ok true ↔
          P.schemaErrors schema (.obj document) = [] ∧
            verifyDocument P document pubkeyField = .ok true := by
    intro schema pubkeyField signer
    cases verified : verifySigned P schema pubkeyField signer document with
    | error error =>
        refine iff_of_false nofun ?_
        rintro ⟨_, isTrue⟩
        unfold verifySigned at verified
        rw [isTrue] at verified
        cases verified
    | ok result =>
        rw [← verifySigned_valid verified]
        simp
  have first : ∀ schema pubkeyField,
      (if (iterErrors P schema (.obj document)).isEmpty then
        verifyDocument P document pubkeyField else .ok false) = .ok true ↔
          P.schemaErrors schema (.obj document) = [] ∧
            verifyDocument P document pubkeyField = .ok true := by
    intro schema pubkeyField
    rw [← iterErrors_isEmpty]
    split_ifs with empty
    · simp [empty]
    · simp [empty]
  cases verifier with
  | providerManifest => exact first _ _
  | receipt => exact signed _ _ _
  | quote => exact signed _ _ _
  | voucher => exact signed _ _ _
  | attestation => exact first _ _

theorem get_sameMembers (same : SameMembers (.obj document) (.obj other))
    {key s : Text} (holds : document.get key = .str s) :
    other.get key = .str s := by
  have field := sameMembers_obj.mp same key
  unfold Dict.get at holds ⊢
  cases found : document.find key with
  | none => simp [found] at holds
  | some value =>
      rw [found] at holds field
      cases found' : other.find key with
      | none => simp [found', SameField] at field
      | some value' =>
          rw [found'] at field
          obtain rfl : value = .str s := holds
          cases field
          rfl

theorem verifyDocument_sameMembers
    (distinct : (Json.obj document).DistinctKeys)
    (distinct' : (Json.obj other).DistinctKeys)
    (same : SameMembers (.obj document) (.obj other)) {pubkeyField : Text}
    (verified : verifyDocument P document pubkeyField = .ok true) :
    verifyDocument P other pubkeyField = .ok true := by
  obtain ⟨publicKey, signature, message, isKey, isSignature, bytes, accepted⟩ :=
    verifyDocument_true verified
  have clean : (Json.obj (document.without signatureField)).Clean :=
    (dumpBytes_isOk true _).mp ⟨message, bytes⟩
  have bytes' : signingBytes other = .ok message := by
    rw [← bytes, eq_comm, signingBytes_eq_iff distinct distinct' clean]
    exact fun key _ => sameMembers_obj.mp same key
  unfold verifyDocument
  rw [get_sameMembers same isKey, get_sameMembers same isSignature]
  dsimp only
  rw [bytes']
  exact congrArg Except.ok accepted

/-- What is decoded is ASCII. -/
theorem decodePrefixed_encodable {length : Nat} {encoded : Text} {raw : Bytes}
    (decoded : decodePrefixed length encoded = .ok raw) :
    Encodable encoded := by
  unfold decodePrefixed at decoded
  by_cases starts : startsWith encoded ed25519Prefix = true
  · obtain ⟨rest, rfl⟩ := List.isPrefixOf_iff_prefix.mp starts
    simp only [starts, Bool.not_true, Bool.false_eq_true, if_false,
      List.drop_left] at decoded
    rw [encodable_append]
    refine ⟨by decide, ?_⟩
    unfold b64uDecode urlsafeB64Decode at decoded
    by_cases ascii : (rest ++ b64Padding rest).all (·.val < 0x80) = true
    · intro c member
      have small := List.all_eq_true.mp ascii c
        (List.mem_append_left _ member)
      have small' := of_decide_eq_true small
      simp only [isSurrogate, Bool.and_eq_false_iff, decide_eq_false_iff_not]
      omega
    · rw [if_neg ascii] at decoded
      cases decoded
  · rw [Bool.not_eq_true] at starts
    simp only [starts, Bool.not_false, if_true] at decoded
    cases decoded

/-- A document that verifies can be written. -/
theorem verifyDocument_clean (distinct : (Json.obj document).DistinctKeys)
    {pubkeyField : Text}
    (verified : verifyDocument P document pubkeyField = .ok true) :
    (Json.obj document).Clean := by
  obtain ⟨publicKey, signature, message, _, isSignature, bytes, accepted⟩ :=
    verifyDocument_true verified
  have clean : (Json.obj (document.without signatureField)).Clean :=
    (dumpBytes_isOk true _).mp ⟨message, bytes⟩
  have encodable : Encodable signature := by
    unfold verify at accepted
    split at accepted
    · rename_i decoded
      exact decodePrefixed_encodable decoded
    · cases accepted
  rw [clean_obj] at clean ⊢
  intro field member
  by_cases same : field.1 = signatureField
  · cases distinct with
    | obj _ nodup _ =>
        have found := find_of_mem nodup member
        unfold Dict.get at isSignature
        rw [same] at found
        rw [found] at isSignature
        obtain ⟨key, value⟩ := field
        cases isSignature
        cases same
        exact ⟨(by decide : Encodable signatureField), encodable⟩
  · exact clean field (List.mem_filter.mpr ⟨member, by simpa using same⟩)

/-- A verifier that accepts a document accepts each of its reorderings. -/
theorem Verifier.accepts_reordered (sound : P.SchemaSound)
    (verifier : Verifier) (distinct : (Json.obj document).DistinctKeys)
    (distinct' : (Json.obj other).DistinctKeys)
    (same : SameMembers (.obj document) (.obj other))
    (accepted : verifier.run P document = .ok true) :
    verifier.run P other = .ok true := by
  rw [accepts_iff, sound] at accepted ⊢
  refine ⟨?_, verifyDocument_sameMembers distinct distinct' same accepted.2⟩
  rw [← Schema.valid_sameMembers _ same]
  exact accepted.1

/-- **Verification does not depend on the order of members**, at any depth. -/
theorem reordered_accepted_iff (sound : P.SchemaSound) (verifier : Verifier)
    (distinct : (Json.obj document).DistinctKeys)
    (distinct' : (Json.obj other).DistinctKeys)
    (same : SameMembers (.obj document) (.obj other)) :
    verifier.run P document = .ok true ↔ verifier.run P other = .ok true :=
  ⟨verifier.accepts_reordered sound distinct distinct' same,
    verifier.accepts_reordered sound distinct' distinct same.symm⟩

/-- An attestation that is signed in the table below. -/
def attested : Dict :=
  [("schema", .str "sip-ai.attestation.v1"),
    ("provider_pubkey", .str shapedKey), ("tee_type", .str "none"),
    ("measurement", .str "00"), ("issued_at", .str "2026-01-01T00:00:00Z"),
    ("signature", .str shapedSignature)]

theorem attested_distinct : (Json.obj attested).DistinctKeys := by
  refine .obj _ (by decide +kernel) ?_
  unfold attested
  simp only [List.forall_mem_cons]
  exact ⟨.str _, .str _, .str _, .str _, .str _, .str _,
    List.forall_mem_nil _⟩

theorem attested_clean : (Json.obj attested).Clean := by
  have plain : isSurrogate 0x41 = false := by decide
  simp [attested, shapedKey, shapedSignature, plain]

def attestedTable : SignatureTable :=
  ⟨[], [(shapedKey, attested.without signatureField, shapedSignature)]⟩

theorem reordered_accepted_attested :
    Verifier.attestation.run attestedTable.platform attested.reverse =
      .ok true := by
  obtain ⟨distinct', same⟩ :=
    sameMembers_of_perm attested_distinct (List.reverse_perm attested).symm
  have accepted : Verifier.attestation.run attestedTable.platform attested =
      .ok true := by decide +kernel
  exact (reordered_accepted_iff attestedTable.platform_schemaSound _
    attested_distinct distinct' same).mp accepted

end SovereignInference.SipProtocol
