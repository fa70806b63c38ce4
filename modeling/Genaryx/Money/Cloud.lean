import Genaryx.Base.Utf8
import Genaryx.Json.Value

/-!
# The Cloud's client

One call is one request and its answer. A mutation names its target in one segment of the path
and is signed over that path, so an id that can be no segment is refused before anything is
sent.

## Implementation notes

`CloudWire` holds what serde does: each answer's body read as the type that is asked for, and
the body of a budget. The base address and the headers of a signature are left out. A call
gives its result together with the requests that were sent.
-/

namespace Genaryx.Money

open Json

variable {F α : Type}

/-! ## Path segments -/

/-- An id that cannot be one segment of a path. -/
inductive PathSegmentError
  | empty
  | dotSegment (id : Text)
  deriving DecidableEq

def PathSegmentError.display : PathSegmentError → Text
  | empty => "an empty id cannot address a resource".toList
  | dotSegment id => "`".toList ++ id ++ "` is a relative path segment, not an id".toList

/-- A byte that may stand in a segment as it is. -/
def isLiteralPchar (b : UInt8) : Bool :=
  let c := Char.ofNat b.toNat
  b < 0x80 && (Text.isAsciiAlphanumeric c || "-._~!$&'()*+,;=:@".toList.contains c)

/-- One percent-encoded byte, in uppercase. -/
def percentEncode (b : UInt8) : Text :=
  ['%', (Nat.digitChar (b.toNat / 16)).toUpper, (Nat.digitChar (b.toNat % 16)).toUpper]

/-- An id as exactly one segment. -/
def pathSegment (id : Text) : Except PathSegmentError Text :=
  if id = [] then .error .empty
  else if id = "." ∨ id = ".." then .error (.dotSegment id)
  else .ok ((Utf8.encode id).flatMap fun b =>
    if isLiteralPchar b then [Char.ofNat b.toNat] else percentEncode b)

/-! ## Calls -/

inductive ConnectorError
  | transport (e : Text)
  | json (e : Text)
  | api (status : UInt16) (body : Text)
  | planRequired (feature org upgradeUrl : Text)
  | noDeviceSigner
  | invalidPathSegment (e : PathSegmentError)
  | signing (e : Text)
  | signatureRejected

namespace ConnectorError

def display : ConnectorError → Text
  | transport e => "http transport: ".toList ++ e
  | json e => "json: ".toList ++ e
  | api status body => "cloud returned HTTP ".toList ++ Text.decimal status.toNat ++ ": ".toList ++ body
  | planRequired feature org upgradeUrl => "plan required: feature=".toList ++ feature ++
      " org=".toList ++ org ++ " (upgrade: ".toList ++ upgradeUrl ++ ")".toList
  | noDeviceSigner =>
      "mutation requires a paired device signer; call attach_device (or pair) first".toList
  | invalidPathSegment e => "invalid id for a URL path segment: ".toList ++ e.display
  | signing e => "signing failed: ".toList ++ e
  | signatureRejected => "device signature rejected (403 signature_invalid)".toList

/-- The status that a failed call implies, and 0 where there is none. -/
def statusOf : ConnectorError → UInt16
  | api status _ => status
  | signatureRejected => 403
  | planRequired .. => 402
  | noDeviceSigner | invalidPathSegment _ | signing _ | transport _ | json _ => 0

end ConnectorError

/-- What comes back for a request that was sent. -/
inductive Reply
  | failed (e : Text)
  | answered (status : UInt16) (body : Bytes)

/-- One run, as far as a stop reads it. -/
structure RunAgg where
  runId : Text
  agentId : Text
  lastSeenMillis : Int
  killed : Bool
  deriving DecidableEq

/-- What serde reads of the Cloud's answers, and what it writes of a budget. -/
structure CloudWire (F : Type) where
  planRequired : Bytes → Option (Text × Text × Text)
  errorField : Bytes → Option Text
  runs : Bytes → Except Text (List RunAgg)
  killResponse : Bytes → Except Text Text
  budgetResponse : Bytes → Except Text (Text × Int)
  ackResponse : Bytes → Except Text Text
  budgetBody : F → Except Text Bytes

/-- A request to the Cloud. -/
inductive CloudRequest
  | get (path : Text)
  | post (path : Text) (body : Bytes)
  deriving DecidableEq

/-- What one call meets: whether it can be signed, and what is answered. -/
structure Exchange where
  signing : Option Text := none
  reply : Reply

/-- The client, with or without a paired device. -/
structure CloudClient where
  hasDevice : Bool := true

variable (W : CloudWire F)

/-- The most specific error that a status and a body stand for. -/
def classifyError (status : UInt16) (body : Bytes) : ConnectorError :=
  let plain := .api status (Utf8.fromUtf8Lossy body)
  if status = 402 then
    match W.planRequired body with
    | some (feature, org, upgradeUrl) => .planRequired feature org upgradeUrl
    | none => plain
  else if status = 403 ∧ W.errorField body = some "signature_invalid".toList then .signatureRejected
  else plain

/-- `StatusCode::is_success`. -/
def isSuccess (status : UInt16) : Bool := 200 ≤ status && status ≤ 299

def parseResponse (decode : Bytes → Except Text α) : Reply → Except ConnectorError α
  | .failed e => .error (.transport e)
  | .answered status body =>
      if isSuccess status then (decode body).mapError .json
      else .error (classifyError W status body)

namespace CloudClient

variable (client : CloudClient)

/-- `GET /v1/runs`. -/
def runs (x : Exchange) : Except ConnectorError (List RunAgg) × List CloudRequest :=
  (parseResponse W W.runs x.reply, [.get "/v1/runs".toList])

/-- Sign and post one mutation. -/
def signedPost (path : Text) (body : Bytes) (decode : Bytes → Except Text α) (x : Exchange) :
    Except ConnectorError α × List CloudRequest :=
  if client.hasDevice then
    match x.signing with
    | some e => (.error (.signing e), [])
    | none => (parseResponse W decode x.reply, [.post path body])
  else (.error .noDeviceSigner, [])

/-- The path of a mutation of one resource. -/
def mutationPath (collection segment verb : Text) : Text :=
  "/v1/".toList ++ collection ++ "/".toList ++ segment ++ "/".toList ++ verb

/-- `POST /v1/runs/{run_id}/kill`. -/
def killRun (runId : Text) (x : Exchange) : Except ConnectorError Text × List CloudRequest :=
  match pathSegment runId with
  | .error e => (.error (.invalidPathSegment e), [])
  | .ok run => client.signedPost W (mutationPath "runs".toList run "kill".toList) [] W.killResponse x

/-- `POST /v1/runs/{run_id}/budget`. -/
def setBudget (runId : Text) (budgetUsd : F) (x : Exchange) :
    Except ConnectorError (Text × Int) × List CloudRequest :=
  match pathSegment runId with
  | .error e => (.error (.invalidPathSegment e), [])
  | .ok run =>
      match W.budgetBody budgetUsd with
      | .error e => (.error (.json e), [])
      | .ok body =>
          client.signedPost W (mutationPath "runs".toList run "budget".toList) body W.budgetResponse x

/-- `POST /v1/incidents/{incident_id}/ack`. -/
def ackIncident (incidentId : Text) (x : Exchange) :
    Except ConnectorError Text × List CloudRequest :=
  match pathSegment incidentId with
  | .error e => (.error (.invalidPathSegment e), [])
  | .ok incident =>
      client.signedPost W (mutationPath "incidents".toList incident "ack".toList) [] W.ackResponse x

end CloudClient

/-! ## What an answer says -/

namespace Reply

/-- The status that a request was answered with, and 0 if it was not. -/
def status : Reply → UInt16
  | failed _ => 0
  | answered status _ => status

/-- The value that a 2xx answer reads as. -/
def read (decode : Bytes → Except Text α) : Reply → Option α
  | failed _ => none
  | answered status body =>
      if 200 ≤ status ∧ status ≤ 299 then (decode body).toOption else none

/-- What an operator reads of an answer that cannot be used. -/
inductive FailsAs (decode : Bytes → Except Text α) : Reply → Text → Prop
  | transport (e : Text) : FailsAs decode (failed e) ("http transport: ".toList ++ e)
  | unread {status : UInt16} {body : Bytes} {e : Text} (h200 : 200 ≤ status) (h299 : status ≤ 299)
      (h : decode body = .error e) : FailsAs decode (answered status body) ("json: ".toList ++ e)
  | plan {body : Bytes} {feature org upgradeUrl : Text}
      (h : W.planRequired body = some (feature, org, upgradeUrl)) :
      FailsAs decode (answered 402 body) ("plan required: feature=".toList ++ feature ++
        " org=".toList ++ org ++ " (upgrade: ".toList ++ upgradeUrl ++ ")".toList)
  | signature {body : Bytes} (h : W.errorField body = some "signature_invalid".toList) :
      FailsAs decode (answered 403 body) "device signature rejected (403 signature_invalid)".toList
  | refused {status : UInt16} {body : Bytes} (h : ¬ (200 ≤ status ∧ status ≤ 299))
      (hplan : status = 402 → W.planRequired body = none)
      (hsignature : status = 403 → W.errorField body ≠ some "signature_invalid".toList) :
      FailsAs decode (answered status body) ("cloud returned HTTP ".toList ++
        Text.decimal status.toNat ++ ": ".toList ++ Utf8.fromUtf8Lossy body)

/-- An answer that is told with its own status: none, no 2xx, or a 200 that is read. -/
def Plain (decode : Bytes → Except Text α) (reply : Reply) : Prop :=
  ∀ status body, reply = answered status body → 200 ≤ status → status ≤ 299 →
    status = 200 ∧ (decode body).toOption.isSome = true

end Reply

section Answers

variable {W} {decode : Bytes → Except Text α} {reply : Reply} {e : ConnectorError}

theorem isSuccess_iff {status : UInt16} : isSuccess status = true ↔ 200 ≤ status ∧ status ≤ 299 := by
  rw [isSuccess, Bool.and_eq_true, decide_eq_true_eq, decide_eq_true_eq]

/-- A status that is no success is told as it is. -/
theorem statusOf_classifyError (status : UInt16) (body : Bytes) :
    (classifyError W status body).statusOf = status := by
  unfold classifyError
  split
  · next h =>
      split
      · exact h.symm
      · rfl
  · split
    · next h => exact h.1.symm
    · rfl

variable (decode reply) in
/-- A call gives what its answer reads as. -/
theorem toOption_parseResponse : (parseResponse W decode reply).toOption = reply.read decode := by
  unfold parseResponse Reply.read
  cases reply with
  | failed e => rfl
  | answered status body =>
      dsimp only
      by_cases hsuccess : isSuccess status = true
      · rw [if_pos hsuccess, if_pos (isSuccess_iff.mp hsuccess)]
        cases decode body <;> rfl
      · rw [if_neg hsuccess, if_neg (mt isSuccess_iff.mpr hsuccess)]
        rfl

/-- A call that failed is told with the reason. -/
theorem failsAs_of_parseResponse (h : parseResponse W decode reply = .error e) :
    reply.FailsAs W decode e.display := by
  unfold parseResponse at h
  cases reply with
  | failed detail =>
      cases h
      exact .transport detail
  | answered status body =>
      dsimp only at h
      split at h
      · next hsuccess =>
          obtain ⟨h200, h299⟩ := isSuccess_iff.mp hsuccess
          cases hdecode : decode body with
          | ok value => rw [hdecode] at h; cases h
          | error detail =>
              rw [hdecode] at h
              cases h
              exact .unread h200 h299 hdecode
      · next hsuccess =>
          have hnot : ¬ (200 ≤ status ∧ status ≤ 299) := mt isSuccess_iff.mpr hsuccess
          cases h
          unfold classifyError
          by_cases hplan : status = 402
          · subst hplan
            rw [if_pos rfl]
            cases hbody : W.planRequired body with
            | some plan => exact .plan hbody
            | none => exact .refused hnot (fun _ => hbody) fun h => absurd h (by decide)
          · rw [if_neg hplan]
            split
            · next hsignature =>
                obtain ⟨rfl, herror⟩ := hsignature
                exact .signature herror
            · next hsignature =>
                exact .refused hnot (fun h => absurd h hplan) fun h herror =>
                  hsignature ⟨h, herror⟩

/-- The status that a call is told with. -/
def resultStatus : Except ConnectorError α → UInt16
  | .ok _ => 200
  | .error e => e.statusOf

variable (decode reply) in
/-- A call is told with the status it was answered with exactly if the answer is plain. -/
theorem resultStatus_parseResponse :
    resultStatus (parseResponse W decode reply) = reply.status ↔ reply.Plain decode := by
  unfold parseResponse Reply.Plain
  cases reply with
  | failed e => exact iff_of_true rfl fun status body heq => by cases heq
  | answered status body =>
      dsimp only
      split
      · next hsuccess =>
          obtain ⟨h200, h299⟩ := isSuccess_iff.mp hsuccess
          have hpos : (0 : UInt16) ≠ status := by
            rintro rfl
            exact absurd h200 (by decide)
          cases hdecode : decode body with
          | ok value =>
              constructor
              · rintro hstatus _ _ heq _ _
                cases heq
                exact ⟨hstatus.symm, by rw [hdecode]; rfl⟩
              · exact fun h => (h status body rfl h200 h299).1.symm
          | error e =>
              refine iff_of_false hpos fun h => ?_
              obtain ⟨_, hok⟩ := h status body rfl h200 h299
              rw [hdecode] at hok
              cases hok
      · next hsuccess =>
          refine iff_of_true (statusOf_classifyError status body) ?_
          rintro _ _ heq h200 h299
          cases heq
          exact absurd (isSuccess_iff.mpr ⟨h200, h299⟩) hsuccess

end Answers

end Genaryx.Money
