import SovereignInference.SipOpenaiProxy.Sources

/-!
# The guard of the relay

The relay forwards to a host by the rules of the desktop app, whatever the
scheme of the URL.
-/

namespace SovereignInference.SipRelay

open Python
open SipOpenaiProxy (endsWith isInternal)

def blockedHostnames : List Text :=
  ["localhost", "metadata", "metadata.google.internal"]

def isSafeForwardUrl (U : Unicode) (baseUrl : Text) : Bool :=
  match Url.urlsplit U baseUrl with
  | none => false
  | some (_, host) =>
      if host = [] then false
      else
        let lowered := U.lower host
        if lowered ∈ blockedHostnames ∨ endsWith lowered ".localhost" then false
        else
          match IpAddress.parse host with
          | none => true
          | some ip => !isInternal ip

/-- The desktop app adds the check of the scheme. -/
theorem isSafeRemoteUrl_eq (U : Unicode) (url : Text) :
    SipOpenaiProxy.isSafeRemoteUrl U url =
      match Url.urlsplit U url with
      | none => false
      | some (scheme, _) =>
          decide (scheme = "http" ∨ scheme = "https") &&
            isSafeForwardUrl U url := by
  unfold SipOpenaiProxy.isSafeRemoteUrl isSafeForwardUrl
  cases Url.urlsplit U url with
  | none => rfl
  | some parts =>
      obtain ⟨scheme, host⟩ := parts
      by_cases web : scheme = "http" ∨ scheme = "https"
      · have known : ¬ (scheme ≠ "http" ∧ scheme ≠ "https") := by tauto
        simp only [if_neg known, decide_eq_true web, Bool.true_and]
        rfl
      · have unknown : scheme ≠ "http" ∧ scheme ≠ "https" := by tauto
        simp only [if_pos unknown, decide_eq_false web, Bool.false_and]

end SovereignInference.SipRelay
