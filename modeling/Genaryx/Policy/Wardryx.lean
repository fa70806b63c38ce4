import Genaryx.Base.Base64
import Genaryx.Base.Words
import Genaryx.Money.Cloud

/-!
# The client of wardryx

One call decides an approval, with the console's statement if one was made. A grant comes back
with a token, whose claims are read to be shown and never verified.

## Implementation notes

`WardryxWire` holds what serde reads of the answers and of a token's claims. Times are in
nanoseconds since the epoch.
-/

namespace Genaryx.Policy

open Json Money

variable {F α : Type}

inductive WardryxError
  | transport (e : Text)
  | json (e : Text)
  | invalidPathSegment (e : PathSegmentError)
  | api (status : UInt16) (body : Text)
  | approvalNotFound
  | approvalAlreadyDecided
  | noApprovalSecret
  | forbidden
  | badToken (why : Text)

namespace WardryxError

def display : WardryxError → Text
  | transport e => "http transport: ".toList ++ e
  | json e => "json: ".toList ++ e
  | invalidPathSegment e => "invalid id for a URL path segment: ".toList ++ e.display
  | api status body =>
      "wardryx returned HTTP ".toList ++ Text.decimal status.toNat ++ ": ".toList ++ body
  | approvalNotFound => "approval not found".toList
  | approvalAlreadyDecided => "approval was already decided".toList
  | noApprovalSecret =>
      "WARDRYX_APPROVAL_SECRET is not configured on the server; grant refused".toList
  | forbidden => "admin role required".toList
  | badToken why => "could not decode approval_token: ".toList ++ why

/-- The status that a failed call implies, and 0 where there is none. -/
def statusOf : WardryxError → UInt16
  | api status _ => status
  | approvalNotFound => 404
  | approvalAlreadyDecided => 409
  | forbidden => 403
  | noApprovalSecret => 500
  | transport _ | json _ | invalidPathSegment _ | badToken _ => 0

end WardryxError

/-- The answer to a decision. -/
structure ApprovalDecideResponse where
  approvalId : Text
  decision : Text
  approvalToken : Option Text
  deriving DecidableEq

/-- What a token says it authorizes. -/
structure ApprovalTokenClaims (F : Type) where
  agentId : Text
  runId : Text
  tools : List Text
  maxCostUsd : F
  exp : Int
  nonce : Text
  toolCallDigest : Option Text

/-- What serde reads of wardryx's answers. -/
structure WardryxWire (F : Type) where
  errorField : Bytes → Option Text
  decideResponse : Bytes → Except Text ApprovalDecideResponse
  claims : Bytes → Option (ApprovalTokenClaims F)

variable (W : WardryxWire F)

/-- The most specific error that a status and a body stand for. -/
def classifyError (status : UInt16) (body : Bytes) : WardryxError :=
  let message := (W.errorField body).getD []
  if status = 404 ∧ message = "approval not found" then .approvalNotFound
  else if status = 409 then .approvalAlreadyDecided
  else if status = 403 then .forbidden
  else if status = 500 ∧ Text.contains message "WARDRYX_APPROVAL_SECRET" then .noApprovalSecret
  else .api status (Utf8.fromUtf8Lossy body)

def parseResponse (decode : Bytes → Except Text α) : Reply → Except WardryxError α
  | .failed e => .error (.transport e)
  | .answered status body =>
      if isSuccess status then (decode body).mapError .json
      else .error (classifyError W status body)

inductive ApprovalVerdict
  | grant
  | deny
  deriving DecidableEq

def ApprovalVerdict.asWire : ApprovalVerdict → Text
  | grant => "grant".toList
  | deny => "deny".toList

/-- A request that decides an approval. -/
structure DecideRequest where
  url : Text
  bearer : Text
  decision : Text
  decidedBy : Text
  approverStatement : Option Text

structure WardryxClient where
  baseUrl : Text
  bearerToken : Text

/-- Where an approval is decided. -/
def WardryxClient.decideUrl (client : WardryxClient) (segment : Text) : Text :=
  client.baseUrl ++ "/v1/approvals/".toList ++ segment ++ "/decide".toList

/-- `POST /v1/approvals/{id}/decide`, with the statement when one was made. -/
def WardryxClient.decideApprovalWithStatement (client : WardryxClient) (id : Text)
    (verdict : ApprovalVerdict) (decidedBy : Text) (approverStatement : Option Text)
    (reply : Reply) : Except WardryxError ApprovalDecideResponse × List DecideRequest :=
  match pathSegment id with
  | .error e => (.error (.invalidPathSegment e), [])
  | .ok segment => (parseResponse W W.decideResponse reply,
      [{ url := client.decideUrl segment
         bearer := client.bearerToken
         decision := verdict.asWire
         decidedBy := decidedBy
         approverStatement := approverStatement }])

namespace ApprovalTokenClaims

/-- The claims of a token, without a word of the token where they cannot be read. -/
def decode (token : Text) : Except WardryxError (ApprovalTokenClaims F) := do
  let payload ← match token.splitOnP (· = '.') with
    | [_] => Except.error (WardryxError.badToken "missing '.' separator".toList)
    | [payload, _] | [_, payload, _] => Except.ok payload
    | _ => Except.error (.badToken "too many segments".toList)
  if payload.isEmpty then .error (.badToken "empty claims payload".toList)
  else
    match Base64.decodeUrl payload with
    | none => .error (.badToken "invalid base64url payload".toList)
    | some decoded =>
        match W.claims decoded with
        | none => .error (.badToken "invalid claims JSON".toList)
        | some claims => .ok claims

def nanosPerSec : Nat := 1000000000

/-- How long a token still lives, in nanoseconds. -/
def ttlRemaining (c : ApprovalTokenClaims F) (now : Nat) : Nat := c.exp.toNat * nanosPerSec - now

end ApprovalTokenClaims

end Genaryx.Policy
