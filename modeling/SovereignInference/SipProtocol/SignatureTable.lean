import SovereignInference.SipProtocol.Documents

/-!
# Platforms given by tables

A platform whose key pairs and signatures are those of finite tables, whose
validator is the meaning of the schemas, and whose clock zone is UTC.
-/

namespace SovereignInference.SipProtocol

open Python

/-- Public keys of private keys, and the signatures made with them: the public
key, the document without its signature, and the signature. -/
structure SignatureTable where
  keys : List (Bytes × Text)
  signatures : List (Text × Dict × Text)

namespace SignatureTable

variable (table : SignatureTable)

/-- The bytes behind the prefix of an encoded key or signature. -/
def rawBytes (encoded : Text) : Bytes :=
  match b64uDecode (encoded.drop ed25519Prefix.length) with
  | .ok raw => raw
  | .error _ => []

def publicKey (privateKey : Bytes) : Bytes :=
  ((table.keys.find? fun entry => entry.1 = privateKey).map
    fun entry => rawBytes entry.2).getD []

def sign (privateKey message : Bytes) : Bytes :=
  let key := encodePrefixed (table.publicKey privateKey)
  ((table.signatures.find? fun entry =>
    entry.1 = key ∧ canonicalJson (.obj entry.2.1) = .ok message).map
      fun entry => rawBytes entry.2.2).getD []

def verifySignature (publicKey message signature : Bytes) : Bool :=
  table.signatures.any fun entry =>
    entry.1 = encodePrefixed publicKey ∧
      canonicalJson (.obj entry.2.1) = .ok message ∧
      entry.2.2 = encodePrefixed signature

def platform : Platform where
  publicKey := table.publicKey
  sign := table.sign
  verifySignature := table.verifySignature
  schemaErrors := fun schema document =>
    if schema.valid document then [] else ["<root>: invalid"]
  isPrintable := fun c => 0xA1 ≤ c.val && c.val ≤ 0xFF
  localOffset := fun _ => .ok 0
  precision := .exact

theorem platform_schemaSound : table.platform.SchemaSound := by
  intro schema document
  simp [platform]

end SignatureTable

end SovereignInference.SipProtocol
