import Genaryx.Command.Journal
import Genaryx.Money.Cloud

/-!
# Revoking at vouchryx

One post revokes a delegation, by its id or by its subject. Only a body that says so confirms
it, and what came back is journaled as it is, under the operator's reason.

## Implementation notes

The bearer key and the address are part of what is sent. The body that comes back is read as
JSON, or kept as a text where it is none.
-/

namespace Genaryx.Delegation

open Base Json Genaryx.Core Command Money

variable {F : Type}

/-- `Value::as_bool`. -/
def asBool : Value F → Option Bool
  | .bool b => some b
  | _ => none

/-- Whether a member of an answer is `true`. -/
def confirms (answer : Value F) (key : Text) : Bool := (answer.get key).bind asBool = some true

/-- Where a revocation is sent. -/
inductive RevokeConfig
  | notConfigured
  | configured (vouchryxUrl revokeKey : Text)

/-- One post to vouchryx. -/
structure Post (F : Type) where
  url : Text
  bearer : Text
  body : Value F

/-- A request that a command sent to a plane. -/
inductive Sent (F : Type)
  | cloud (request : CloudRequest)
  | vouchryx (post : Post F)

def maxResponseBytes : Nat := 64 * 1024

def maxReasonLen : Nat := 500

/-- The status and the body of an answer, unless none came or it was too long. -/
def postCapped (C : Codec F recursionLimit) : Reply → Except Text (UInt16 × Value F)
  | .failed e => .error e
  | .answered status raw =>
      if raw.length > maxResponseBytes then
        .error ("vouchryx's response exceeded ".toList ++ Text.decimal maxResponseBytes ++
          " bytes; refused to read further".toList)
      else .ok (status, ((Utf8.fromUtf8 raw).bind C.reader.fromStr).getD (.string (Utf8.fromUtf8Lossy raw)))

inductive DelegationError (F : Type)
  | notConfigured
  | exactlyOneTarget
  | invalidSubject (subject : Text)
  | invalidReason (chars : Nat)
  | refused (status : UInt16) (error : Text)
  | notDurable
  | unreachable (detail : Text)
  | unconfirmed (body : Value F)

/-- A revocation names exactly one target. -/
inductive RevokeTarget
  | jti (j : Text)
  | subject (s : Text)
  deriving DecidableEq

namespace RevokeTarget

/-- The fields of the request that name the target. -/
def jtiField : RevokeTarget → Text
  | jti j => j
  | subject _ => []

def subjectField : RevokeTarget → Text
  | jti _ => []
  | subject s => s

/-- What the journal calls the target. -/
def label : RevokeTarget → Text
  | jti j => "jti:".toList ++ j
  | subject s => s

end RevokeTarget

/-- What a vouchryx that accepted a revocation is reported with. -/
structure RevokeOutcome (F : Type) where
  httpStatus : UInt16
  verifyResult : Text
  vouchryxResponse : Value F
  busRecorded : Bool
  busError : Option Text

def validateArgs (subject jti : Option Text) (reason : Text) :
    Except (DelegationError F) (RevokeTarget × Text) := do
  let target ← match subject, jti with
    | some s, none =>
        if Text.startsWith s "agent://" || Text.startsWith s "user://" then
          Except.ok (RevokeTarget.subject s)
        else Except.error (.invalidSubject s)
    | none, some j => Except.ok (RevokeTarget.jti j)
    | _, _ => Except.error .exactlyOneTarget
  let trimmed := Text.trim reason
  if trimmed.length = 0 || trimmed.length > maxReasonLen then
    Except.error (.invalidReason trimmed.length)
  else Except.ok (target, trimmed)

/-- What calling vouchryx gave when it is no confirmed revocation. -/
inductive CallOutcome (F : Type)
  | http (status : UInt16) (body : Value F)
  | unconfirmed (body : Value F)
  | unreachable (detail : Text)

/-- The confirmed body of an answer. -/
def callVouchryx (C : Codec F recursionLimit) (reply : Reply) :
    Except (CallOutcome F) (Value F) :=
  match postCapped C reply with
  | .error detail => .error (.unreachable detail)
  | .ok (status, parsed) =>
      if status ≠ 200 then .error (.http status parsed)
      else if confirms parsed "revoked".toList then .ok parsed
      else .error (.unconfirmed parsed)

/-- The code that vouchryx refuses with. -/
def errorCode (body : Value F) : Text :=
  ((body.get "error".toList).bind Value.asStr).getD "unknown".toList

namespace CallOutcome

def status : CallOutcome F → UInt16
  | http status _ => status
  | unconfirmed _ => 200
  | unreachable _ => 0

def verifyResult : CallOutcome F → Text
  | http status body =>
      if status = 503 then "not_durable".toList else "refused:".toList ++ errorCode body
  | unconfirmed _ => "200 without revoked:true confirmation".toList
  | unreachable detail => "unreachable: ".toList ++ detail

def error : CallOutcome F → DelegationError F
  | http status body => if status = 503 then .notDurable else .refused status (errorCode body)
  | unconfirmed body => .unconfirmed body
  | unreachable detail => .unreachable detail

end CallOutcome

variable (J : Journaling F) (a : Ambient)

/-- Who acts, by default the operator of the organisation. -/
def actor : Text := a.operatorOr ("user://".toList ++ a.org ++ "/operator".toList)

/-- The record of a revocation. -/
def revokeRecord (target : RevokeTarget) (reason : Text) (httpStatus : UInt16)
    (verifyResult : Text) : CommandRecord F :=
  let signature := a.signatureOr "software-signed" "software-signed"
  { operator := actor a
    env := a.org
    action := "console.revoke_delegation".toList
    target := target.label
    params := .object (ofMembers [("reason", .string reason)])
    decision := "break_glass".toList
    sigAlg := signature.1
    sigFpr := signature.2
    httpStatus := httpStatus
    verifyResult := verifyResult }

/-- The request of a revocation. -/
def revokePost (vouchryxUrl revokeKey : Text) (target : RevokeTarget) (reason : Text) : Post F where
  url := vouchryxUrl ++ "/v1/revoke".toList
  bearer := revokeKey
  body := .object (ofMembers [("jti", .string target.jtiField),
    ("subject", .string target.subjectField), ("actor", .string (actor a)),
    ("reason", .string reason)])

/-- `delegation_revoke`: its answer, what it sent, and the journal after it. -/
def delegationRevoke (config : RevokeConfig) (reply : Reply) (subject jti : Option Text)
    (reason : Text) (c : Chronicle F) :
    (Except (DelegationError F) (RevokeOutcome F) × List (Post F)) × Chronicle F :=
  match validateArgs subject jti reason with
  | .error e => ((.error e, []), c)
  | .ok (target, reason) =>
      match config with
      | .notConfigured => ((.error .notConfigured, []), c)
      | .configured vouchryxUrl revokeKey =>
          let sent := [revokePost a vouchryxUrl revokeKey target reason]
          match callVouchryx J.codec reply with
          | .ok answer =>
              let (journaled, c) := c.journal J a.org a.host
                (revokeRecord a target reason 200 "revoked:true".toList)
              ((.ok ⟨200, "revoked:true".toList, answer, journaled.1, journaled.2⟩, sent), c)
          | .error outcome =>
              let (_, c) := c.journal J a.org a.host
                (revokeRecord a target reason outcome.status outcome.verifyResult)
              ((.error outcome.error, sent), c)

/-! ## What vouchryx answered -/

/-- An answer of at most 64 KiB, and its body as JSON or else as a text. -/
def Replied (C : Codec F recursionLimit) (reply : Reply) (status : UInt16) (answer : Value F) :
    Prop :=
  ∃ raw, reply = .answered status raw ∧ raw.length ≤ 65536 ∧
    answer = ((Utf8.fromUtf8 raw).bind C.reader.fromStr).getD (.string (Utf8.fromUtf8Lossy raw))

/-- Why no answer was read. -/
inductive Unread : Reply → Text → Prop
  | failed (e : Text) : Unread (.failed e) e
  | tooLong {status : UInt16} {raw : Bytes} (h : 65536 < raw.length) : Unread (.answered status raw)
      ("vouchryx's response exceeded ".toList ++ "65536".toList ++
        " bytes; refused to read further".toList)

variable {C : Codec F recursionLimit} {reply : Reply}

/-- Either an answer was read, and it is the only one, or there is a reason why none was. -/
theorem postCapped_cases (C : Codec F recursionLimit) (reply : Reply) :
    (∃ detail, postCapped C reply = .error detail ∧ Unread reply detail ∧
      ∀ status answer, ¬ Replied C reply status answer) ∨
    ∃ status answer, postCapped C reply = .ok (status, answer) ∧
      ∀ status' answer', Replied C reply status' answer' ↔ status' = status ∧ answer' = answer := by
  cases reply with
  | failed e =>
      refine .inl ⟨e, rfl, .failed e, ?_⟩
      rintro status answer ⟨raw, heq, _⟩
      cases heq
  | answered status raw =>
      by_cases hlong : raw.length > maxResponseBytes
      · have hlimit : Text.decimal maxResponseBytes = "65536".toList := by decide
        refine .inl ⟨_, by rw [postCapped, if_pos hlong], ?_, ?_⟩
        · rw [hlimit]
          exact .tooLong hlong
        · rintro status' answer ⟨raw', heq, hle, _⟩
          cases heq
          exact absurd hlong (Nat.not_lt.mpr hle)
      · refine .inr ⟨status, _, by rw [postCapped, if_neg hlong], fun status' answer' => ?_⟩
        constructor
        · rintro ⟨raw', heq, _, rfl⟩
          cases heq
          exact ⟨rfl, rfl⟩
        · rintro ⟨rfl, rfl⟩
          exact ⟨raw, rfl, Nat.not_lt.mp hlong, rfl⟩

theorem confirms_iff {answer : Value F} {key : Text} :
    confirms answer key = true ↔ answer.get key = some (.bool true) := by
  unfold confirms
  rw [decide_eq_true_eq, Option.bind_eq_some_iff]
  constructor
  · rintro ⟨v, hget, hbool⟩
    cases v with
    | bool b => cases hbool; exact hget
    | _ => cases hbool
  · exact fun h => ⟨_, h, rfl⟩

end Genaryx.Delegation
