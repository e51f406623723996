import SovereignInference.Python.Json

/-!
# The ledger of a provider

An append-only record of the value credited to providers.
-/

namespace SovereignInference.SipPic

open Python Effects

/-- Credit `provider_pubkey` with `amount` of `unit`, citing `refs`. -/
structure LedgerEntry where
  providerPubkey : Text
  amount : Text
  unit : Text
  refs : List Text
  deriving DecidableEq

/-- `record`: the entry is appended in memory before the file is written, and
stays there if writing it raises. -/
def Ledger.record {ε : Type} (entries : List ε) (entry : ε)
    (saved : Except PyExc Unit) : Except PyExc Unit × List ε :=
  (saved, entries ++ [entry])

end SovereignInference.SipPic
