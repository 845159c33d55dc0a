/-
  `verify_attestation_jwt` and `fetch_decoding_key` (`crates/client/src/attest.rs`).

  A script whose calls are the two documents of the issuer and the two functions of the token
  library: `decodeHeader`, which reads the key id, and `decode`, which checks the signature, the
  issuer, the audience, `exp` and `nbf`. An error is its outermost text.

  `verifyAttestationJwt_decoded`: what it returns was accepted by `decode` for the issuer of the
  organisation and the expected audience.
-/
import FlyVault.Client.ValidateAttestation
import FlyVault.Lib.Monitor

namespace FlyVault.Client.Attest

open FlyVault.Lib FlyVault.Lib.Script
open FlyVault.Client.ValidateAttestation (AttestationClaims issuer)

/-- The outcome of a request for a document. -/
inductive Fetched (α : Type)
  | unsent
  | errorStatus
  | unparsable
  | parsed (document : α)

/-- `Jwk`; a key that cannot be built has no number. -/
structure Jwk where
  keyId : Option String
  decodingKey : Option Nat
  deriving DecidableEq, Repr

/-- `Validation`, for RS256. -/
structure Validation where
  issuers : List String
  audiences : List String
  validateExp : Bool
  validateNbf : Bool
  requiredSpecClaims : List String
  deriving DecidableEq, Repr

inductive AttestCall
  | discovery (url : String)
  | jwks (uri : String)
  | decodeHeader (jwt : String)
  | decode (jwt : String) (key : Nat) (validation : Validation)
  deriving DecidableEq

def AttestAnswer : AttestCall → Type
  | .discovery _ => Fetched String
  | .jwks _ => Fetched (List Jwk)
  | .decodeHeader _ => Except String (Option String)
  | .decode _ _ _ => Except String AttestationClaims

abbrev AttestM := Script AttestCall AttestAnswer

abbrev Fallible (α : Type) := ExceptT String AttestM α

/-- `send`, `error_for_status` and `json`, each with its text. -/
def fetched {α : Type} (send status parse : String) : Fetched α → Fallible α
  | .unsent => throw send
  | .errorStatus => throw status
  | .unparsable => throw parse
  | .parsed document => pure document

/-- `ok_or_else`. -/
def okOr {α : Type} (text : String) : Option α → Fallible α
  | some a => pure a
  | none => throw text

/-- `context`. -/
def context {α : Type} (text : String) : Except String α → Fallible α
  | .ok a => pure a
  | .error _ => throw text

/-- `fetch_decoding_key`. -/
def fetchDecodingKey (jwt org : String) : Fallible (String × Nat) := do
  let discoveryUrl := issuer org ++ "/.well-known/openid-configuration"
  let answer ← liftM (ask (AttestCall.discovery discoveryUrl) : AttestM (Fetched String))
  let jwksUri ← fetched "fetch oidc discovery" "oidc discovery error status"
    "parse oidc discovery" answer
  let answer ← liftM (ask (AttestCall.jwks jwksUri) : AttestM (Fetched (List Jwk)))
  let jwks ← fetched "fetch jwks" "jwks error status" "parse jwks" answer
  let header ← liftM (ask (AttestCall.decodeHeader jwt) :
    AttestM (Except String (Option String)))
  let header ← context "decode jwt header" header
  let kid ← okOr "jwt header missing kid" header
  let jwk ← okOr ("jwk with kid " ++ kid ++ " not found")
    (jwks.find? fun jwk => jwk.keyId = some kid)
  let decodingKey ← okOr "build decoding key from jwk" jwk.decodingKey
  pure (issuer org, decodingKey)

/-- `trim_end_matches('\n')`. -/
def trimEndNewlines (s : String) : String :=
  String.ofList (s.toList.reverse.dropWhile (· = '\n')).reverse

/-- The validation of an attestation. -/
def validationFor (issuer expectedAud : String) : Validation :=
  ⟨[issuer], [expectedAud], true, true, ["exp", "iss", "aud"]⟩

/-- `verify_attestation_jwt`. -/
def verifyAttestationJwt (jwt org expectedAud : String) : Fallible AttestationClaims := do
  let (issuer, decodingKey) ← fetchDecodingKey (trimEndNewlines jwt) org
  let decoded ← liftM (ask (AttestCall.decode (trimEndNewlines jwt) decodingKey
    (validationFor issuer expectedAud)) : AttestM (Except String AttestationClaims))
  context "verify jwt" decoded

theorem fetchDecodingKey_obeys {jwt org : String} (s : List (Event AttestCall AttestAnswer)) :
    Obeys history (OnResult (fun _ found => found.1 = issuer org) fun _ _ => True) s
      (fetchDecodingKey jwt org).run := by
  refine (history_run _ s).run_bind fun s _ _ => ?_
  refine (history_run _ s).run_bind fun s _ _ => ?_
  refine (history_run _ s).run_bind fun s _ _ => ?_
  refine (history_run _ s).run_bind fun s _ _ => ?_
  refine (history_run _ s).run_bind fun s _ _ => ?_
  refine (history_run _ s).run_bind fun s _ _ => ?_
  refine (history_run _ s).run_bind fun s _ _ => ?_
  refine (history_run _ s).run_bind fun s _ _ => ?_
  exact (history_run _ s).run_bind fun _ _ _ => rfl

theorem verifyAttestationJwt_obeys {jwt org expectedAud : String} :
    Obeys history (OnResult (fun t claims => ∃ key, (⟨.decode (trimEndNewlines jwt) key
        (validationFor (issuer org) expectedAud), Except.ok claims⟩ : Event _ AttestAnswer) ∈ t)
      fun _ _ => True) [] (verifyAttestationJwt jwt org expectedAud).run := by
  refine (fetchDecodingKey_obeys []).run_bind fun s found hfound => ?_
  obtain ⟨iss, key⟩ := found
  obtain rfl : iss = issuer org := hfound
  refine ⟨trivial, fun decoded => ?_⟩
  cases decoded with
  | error e => trivial
  | ok claims => exact ⟨key, List.mem_append_right _ List.mem_cons_self⟩

/-- Whatever is fetched and decoded, the claims it returns are those of the token, accepted for
    the issuer of the organisation and for the expected audience. -/
theorem verifyAttestationJwt_decoded {jwt org expectedAud : String} {claims : AttestationClaims}
    {t : List (Event AttestCall AttestAnswer)}
    (hexec : Exec (verifyAttestationJwt jwt org expectedAud).run t (some (.ok claims))) :
    ∃ key, (⟨.decode (trimEndNewlines jwt) key (validationFor (issuer org) expectedAud),
      Except.ok claims⟩ : Event _ AttestAnswer) ∈ t := by
  have hdecoded := verifyAttestationJwt_obeys.returns hexec
  rw [history_foldl] at hdecoded
  exact hdecoded

end FlyVault.Client.Attest
