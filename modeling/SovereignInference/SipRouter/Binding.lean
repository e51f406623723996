import SovereignInference.SipProtocol.Reordering
import SovereignInference.SipRouter.Answers
import SovereignInference.SipRouter.QuoteCeiling

/-!
# Receipts and quotes of the request at hand

The client checks that a receipt is over the content and that a quote
verifies, but not which request they were made for.  So what it accepts is
bound to its request where nobody forges a signature, a receipt or a quote is
signed for the request that it names, and a provider answers with nothing that
was signed for another request.
-/

namespace SovereignInference.SipRouter

open Python Python.Json Effects SipProtocol SipPic

def requestIdHeader : Text := "X-SIP-Request-Id"

/-- The receipt names the request id and the hash of the request. -/
def ReceiptBound (requestId model messages receipt : Json) : Prop :=
  ∃ (fields : Dict) (hash : Text), receipt = .obj fields ∧
    fields.get "request_id" = requestId ∧
    hashRequest model messages = .ok hash ∧
    fields.get "request_hash" = .str hash

/-- A number that is at least the other one. -/
def AtLeast (value : Json) (least : Json) : Prop :=
  ∃ n m : Int, value.pyEq (.int n) = true ∧ least = .int m ∧ m ≤ n

/-- The quote names the request id and the model, and covers the tokens. -/
structure QuoteBound (requestId model maxTokens : Json) (quote : Dict) :
    Prop where
  request : quote.get "request_id" = requestId
  model : quote.get "model_alias" = model
  tokens : AtLeast (quote.get "max_output_tokens") maxTokens

/-- A request to a provider. -/
structure Request where
  path : Text
  headers : Dict
  body : Dict

/-- A document that was signed, and the request that it was signed for, if it
was signed for one. -/
structure Signing where
  document : Dict
  distinct : (Json.obj document).DistinctKeys
  request : Option Request

/-- A receipt is signed for the completion that it names, and a quote for the
quote request that it names. -/
def Signing.Honest (signing : Signing) : Prop :=
  ∀ request, signing.request = some request →
    (request.path = completionsPath →
      ReceiptBound (request.headers.get requestIdHeader)
        (request.body.get "model") (request.body.get "messages")
        (.obj signing.document)) ∧
    (request.path = quotePath →
      QuoteBound (request.body.get "request_id") (request.body.get "model")
        (request.body.get "max_output_tokens") signing.document)

/-- The signature is one of the document. -/
def Signing.Covers (signing : Signing) (document : Dict) : Prop :=
  ∃ message, signingBytes signing.document = .ok message ∧
    signingBytes document = .ok message

/-- Whatever verifies under the key was signed. -/
def Unforged (P : Platform) (log : List Signing) (key : Text) : Prop :=
  ∀ message signature, verify P key message signature = true →
    ∃ signing ∈ log, signingBytes signing.document = .ok message

/-- The receipt or the quote that an answer carries, and the request that it
answers. -/
def documentAnswered : RouterEvent → Option (Request × Dict)
  | ⟨.post _ path headers body, .ok response⟩ =>
      (objectOf 200 response).bind fun fields =>
        if path = completionsPath then
          (fields.get "sip_receipt").asDict.map fun receipt =>
            (⟨path, headers, body⟩, receipt)
        else if path = quotePath then some (⟨path, headers, body⟩, fields)
        else none
  | _ => none

/-- What an answer carries is a dict, and was signed for the request that is
answered, if it was signed. -/
structure Fresh (log : List Signing) (event : RouterEvent) : Prop where
  distinct : ∀ request document,
    documentAnswered event = some (request, document) →
      (Json.obj document).DistinctKeys
  own : ∀ request document,
    documentAnswered event = some (request, document) →
      (∃ signing ∈ log, signing.Covers document) →
        ∃ signing ∈ log, signing.Covers document ∧
          signing.request = some request

variable {P : Platform} {options : ChatOptions} {client : HttpClient}
  {candidate : ProviderEntry} {requestId : Text} {trace : List RouterEvent}
  {meets : NetworkState → RouterEvent → Prop} {log : List Signing}
  {document : Dict}

/-- All fields but the signature are those that were signed. -/
theorem Signing.Covers.sameField {signing : Signing}
    (covers : signing.Covers document)
    (distinct : (Json.obj document).DistinctKeys) {key : Text}
    (isOther : key ≠ signatureField) :
    SameMembers (signing.document.get key) (document.get key) := by
  obtain ⟨message, written, written'⟩ := covers
  have clean : (Json.obj (signing.document.without signatureField)).Clean :=
    (dumpBytes_isOk true _).mp ⟨message, written⟩
  have same := (signingBytes_eq_iff signing.distinct distinct clean).mp
    (written.trans written'.symm) key isOther
  unfold Dict.get
  cases found : signing.document.find key with
  | none =>
      cases found' : document.find key with
      | none => exact .null
      | some other => simp [found, found', SameField] at same
  | some value =>
      cases found' : document.find key with
      | none => simp [found, found', SameField] at same
      | some other =>
          rw [found, found'] at same
          exact same

theorem str_of_sameMembers {s : Text} {value other : Json}
    (same : SameMembers value other) (holds : value = .str s) :
    other = .str s := by
  subst holds
  cases same
  rfl

theorem AtLeast.of_sameMembers {value other least : Json}
    (same : SameMembers value other) (holds : AtLeast value least) :
    AtLeast other least := by
  obtain ⟨n, m, equal, isLeast, atMost⟩ := holds
  refine ⟨n, m, ?_, isLeast, atMost⟩
  cases same with
  | arr => simp [Json.pyEq, Json.numberEq] at equal
  | obj => simp [Json.pyEq, Json.numberEq] at equal
  | _ => exact equal

/-- What verifies under a key was signed. -/
theorem Unforged.signed {key : Text} (unforged : Unforged P log key)
    (verified : verifyDocument P document "provider_pubkey" = .ok true)
    (named : document.get "provider_pubkey" = .str key) :
    ∃ signing ∈ log, signing.Covers document := by
  obtain ⟨publicKey, signature, message, isKey, _, bytes, accepted⟩ :=
    verifyDocument_true verified
  obtain rfl : publicKey = key := Json.str.inj (isKey.symm.trans named)
  obtain ⟨signing, member, written⟩ := unforged message signature accepted
  exact ⟨signing, member, message, written, bytes⟩

/-- A receipt that was signed for a completion is bound to it. -/
theorem Signing.Honest.receipt {signing : Signing} {headers body : Dict}
    {id model : Text} (honest : signing.Honest)
    (covers : signing.Covers document)
    (distinct : (Json.obj document).DistinctKeys)
    (signedFor : signing.request = some ⟨completionsPath, headers, body⟩)
    (named : headers.get requestIdHeader = .str id)
    (isModel : body.get "model" = .str model) :
    ReceiptBound (.str id) (.str model) (body.get "messages")
      (.obj document) := by
  obtain ⟨fields, hash, ⟨⟩, sameId, hashed, sameHash⟩ :=
    (honest _ signedFor).1 rfl
  rw [isModel] at hashed
  have field := @covers.sameField _ _ distinct
  refine ⟨document, hash, rfl, ?_, hashed, ?_⟩
  · exact str_of_sameMembers (field (by decide)) (sameId.trans named)
  · exact str_of_sameMembers (field (by decide)) sameHash

/-- A quote that was signed for a quote request is bound to it. -/
theorem Signing.Honest.quote {signing : Signing} {headers body : Dict}
    {id model : Text} (honest : signing.Honest)
    (covers : signing.Covers document)
    (distinct : (Json.obj document).DistinctKeys)
    (signedFor : signing.request = some ⟨quotePath, headers, body⟩)
    (named : body.get "request_id" = .str id)
    (isModel : body.get "model" = .str model) :
    QuoteBound (.str id) (.str model) (body.get "max_output_tokens")
      document := by
  obtain ⟨sameId, sameModel, tokens⟩ := (honest _ signedFor).2 rfl
  have field := @covers.sameField _ _ distinct
  refine ⟨?_, ?_, ?_⟩
  · exact str_of_sameMembers (field (by decide)) (sameId.trans named)
  · exact str_of_sameMembers (field (by decide)) (sameModel.trans isModel)
  · exact tokens.of_sameMembers (field (by decide))

end SovereignInference.SipRouter
