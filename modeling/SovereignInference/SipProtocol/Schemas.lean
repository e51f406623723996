import SovereignInference.Python.Schema

/-!
# The bundled schemas

The receipt, quote, voucher, provider-manifest and attestation schemas, with
the keywords that validation uses.
-/

namespace SovereignInference.SipProtocol

open Python

namespace Schemas

/-- `^ed25519:[A-Za-z0-9+/=_-]{least,most}$`. -/
def ed25519Pattern (least most : Nat) : Schema :=
  .pattern (.seq (.literal "ed25519:") (.repeated
    [(0x41, 0x5A), (0x61, 0x7A), (0x30, 0x39), (0x2B, 0x2B), (0x2F, 0x2F),
      (0x3D, 0x3D), (0x5F, 0x5F), (0x2D, 0x2D)] least (some most)))

/-- `^sha256:[0-9a-f]{64}$`. -/
def sha256Pattern : Schema :=
  .pattern (.seq (.literal "sha256:")
    (.repeated [(0x30, 0x39), (0x61, 0x66)] 64 (some 64)))

/-- `^[0-9]+(\.[0-9]+)?$`. -/
def amountRegex : Regex :=
  .seq (.repeated [(0x30, 0x39)] 1 none)
    (.optional (.seq (.literal ".") (.repeated [(0x30, 0x39)] 1 none)))

def publicKey : Schema := .string [ed25519Pattern 43 46]

def signature : Schema := .string [ed25519Pattern 86 88]

def sha256 : Schema := .string [sha256Pattern]

def amount : Schema := .string [.pattern amountRegex]

def name : Schema := .string [.minLength 1, .maxLength 256]

def units : Schema := .string [.enum ["pic", "usdc", "x402", "test"]]

def privacyMode : Schema :=
  .string [.enum ["local-only", "direct", "relay", "private-payment",
    "private-payment-relay", "confidential", "batch"]]

def integerFrom (bound : Int) : Schema :=
  .all [.type .integer, .minimum bound]

def numberFrom (bound : Int) : Schema := .all [.type .number, .minimum bound]

def receipt : Schema :=
  .record
    ["receipt_version", "request_id", "provider_pubkey",
      "model_manifest_hash", "model_alias", "runtime", "input_tokens",
      "output_tokens", "price_units", "price_amount", "privacy_mode",
      "started_at", "completed_at", "response_hash", "signature"]
    [("receipt_version", .string [.const "sip-ai.receipt.v1"]),
      ("request_id", name),
      ("provider_pubkey", publicKey),
      ("model_manifest_hash", sha256),
      ("model_alias", name),
      ("runtime", .string [.enum ["llama.cpp", "ollama", "vllm", "sglang",
        "localai", "lmstudio", "ramalama"]]),
      ("runtime_version", .string [.maxLength 128]),
      ("input_tokens", integerFrom 0),
      ("output_tokens", integerFrom 0),
      ("price_units", units),
      ("price_amount", amount),
      ("privacy_mode", privacyMode),
      ("started_at", .string []),
      ("completed_at", .string []),
      ("response_hash", sha256),
      ("request_hash", sha256),
      ("signature", signature)]

def quote : Schema :=
  .record
    ["quote_version", "request_id", "provider_pubkey", "model_alias",
      "price_units", "input_per_1m", "output_per_1m", "max_output_tokens",
      "max_price", "issued_at", "expires_at", "signature"]
    [("quote_version", .string [.const "sip-ai.quote.v1"]),
      ("request_id", name),
      ("provider_pubkey", publicKey),
      ("model_alias", name),
      ("price_units", units),
      ("input_per_1m", amount),
      ("output_per_1m", amount),
      ("max_output_tokens", integerFrom 1),
      ("max_price", amount),
      ("privacy_mode", privacyMode),
      ("issued_at", .string []),
      ("expires_at", .string []),
      ("signature", signature)]

/-- `^[A-Za-z0-9_-]{43,86}$`. -/
def voucherIdRegex : Regex :=
  .repeated [(0x41, 0x5A), (0x61, 0x7A), (0x30, 0x39), (0x5F, 0x5F),
    (0x2D, 0x2D)] 43 (some 86)

def voucher : Schema :=
  .record
    ["voucher_version", "voucher_id", "denomination", "unit",
      "issuer_pubkey", "issued_at", "expires_at", "signature"]
    [("voucher_version", .string [.const "sip-ai.voucher.v1"]),
      ("voucher_id", .string [.pattern voucherIdRegex]),
      ("denomination", amount),
      ("unit", .string [.enum ["pic", "usdc", "test"]]),
      ("issuer_pubkey", publicKey),
      ("issued_at", .string []),
      ("expires_at", .string []),
      ("signature", signature)]

def providerManifest : Schema :=
  .record
    ["schema", "provider_pubkey", "node_type", "models", "runtime_adapters",
      "pricing", "max_context", "logging_policy", "privacy_modes",
      "published_at", "signature"]
    [("schema", .string [.const "sip-ai.provider_manifest.v1"]),
      ("provider_pubkey", publicKey),
      ("node_type", .string [.enum ["sovereign-node", "vllm-server",
        "external-adapter", "relay"]]),
      ("models", .all [.type .array, .items (.string []), .minItems 1]),
      ("runtime_adapters",
        .all [.type .array, .items (.string []), .minItems 1]),
      ("pricing", .record ["unit"]
        [("unit", units), ("input_per_1m", numberFrom 0),
          ("output_per_1m", numberFrom 0)]),
      ("max_context", integerFrom 1),
      ("max_concurrency", integerFrom 1),
      ("logging_policy", .string [.enum ["no_prompt_logging",
        "metadata_only", "full_logging"]]),
      ("retention_policy", .string []),
      ("privacy_modes",
        .all [.type .array,
          .items (.string [.enum ["direct", "relay", "private-payment",
            "private-payment-relay", "confidential", "batch"]]),
          .minItems 1]),
      ("benchmark", .all [.type .object,
        .property "tokens_per_second" (numberFrom 0),
        .property "ttft_ms" (numberFrom 0)]),
      ("tee_attestation", .string []),
      ("attestation", .type .object),
      ("manifest_uri", .string []),
      ("published_at", .string []),
      ("signature", signature)]

def attestation : Schema :=
  .record
    ["schema", "provider_pubkey", "tee_type", "measurement", "issued_at",
      "signature"]
    [("schema", .string [.const "sip-ai.attestation.v1"]),
      ("provider_pubkey", publicKey),
      ("tee_type", .string [.enum ["intel-tdx", "amd-sev-snp", "nvidia-cc",
        "aws-nitro", "none"]]),
      ("measurement", .string []),
      ("quote_ref", .string []),
      ("issued_at", .string []),
      ("signature", signature)]

end Schemas

end SovereignInference.SipProtocol
