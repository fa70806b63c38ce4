import Genaryx.Command.Journal
import Genaryx.Policy.Statement
import Genaryx.Policy.Wardryx

/-!
# Deciding an approval

A person grants or denies a pending approval. Where an approver key is configured, the decision
goes out with a statement of the passkey that confirmed it, or not at all; each decision is
journaled, refused, failed or answered.

## Implementation notes

The clocks, the random bytes of a statement's id and wardryx's answer are parameters of a
setting.
-/

namespace Genaryx.Policy

open Json Genaryx.Core Command Money

variable {F : Type}

/-- The console's approver key. -/
inductive ApproverKey
  | notConfigured
  | ready (signer : Es256Signer)
  | failed (reason : Text)

def statementLifetimeSecs : Int64 := 120

/-- What a statement is made for. -/
structure StatementRequest where
  approvalId : Text
  decision : Text
  approver : Text
  passkeyCredential : Option Text

/-- Why a decision was refused before anything was sent. -/
inductive Refusal
  | noPasskeyConfirmed
  | keyUnusable (reason : Text)
  | statement (reason : Text)

def Refusal.display : Refusal → Text
  | noPasskeyConfirmed => ("a key file is configured for approver statements, and no passkey " ++
      "confirmed this decision").toList
  | keyUnusable reason => "the approver key file cannot be used: ".toList ++ reason
  | statement reason => "the approver statement could not be made: ".toList ++ reason

/-- The operator's verdict. -/
inductive DecisionDto
  | grant
  | deny
  deriving DecidableEq

namespace DecisionDto

def wire : DecisionDto → Text
  | grant => "grant".toList
  | deny => "deny".toList

def toVerdict : DecisionDto → ApprovalVerdict
  | grant => .grant
  | deny => .deny

def action : DecisionDto → Text
  | grant => "console.grant_approval".toList
  | deny => "console.deny_approval".toList

theorem asWire_toVerdict (d : DecisionDto) : d.toVerdict.asWire = d.wire := by
  cases d <;> rfl

end DecisionDto

inductive PolicyError
  | bootstrapping
  | approverStatement (reason : Text)
  | noEnvironment
  | unreachable (reason : Text)
  | wardryx (status : Option UInt16) (message : Text)

/-- What the panel says of a failed call. -/
def PolicyError.ofWardryx : WardryxError → PolicyError
  | .transport e => .wardryx none ("could not reach wardryx: ".toList ++ e)
  | .json e => .wardryx none ("unexpected response shape from wardryx: ".toList ++ e)
  | .api status body => .wardryx (some status) body
  | .approvalNotFound => .wardryx (some 404) "approval not found".toList
  | .approvalAlreadyDecided => .wardryx (some 409) "approval was already decided".toList
  | .noApprovalSecret => .wardryx (some 500)
      "WARDRYX_APPROVAL_SECRET is not configured on the server; grant refused".toList
  | .forbidden => .wardryx (some 403) "admin role required".toList
  | .badToken why => .wardryx none ("could not decode approval_token: ".toList ++ why)
  | .invalidPathSegment e => .wardryx none
      ("this id cannot be used in a request path: ".toList ++ e.display)

/-- A client that is ready, and what its records carry. -/
structure PolicyClient where
  client : WardryxClient
  orgDomain : Text
  operator : Text
  host : Text
  sigAlg : Text
  sigFpr : Text

/-- The state of the panel. -/
inductive PolicyState
  | bootstrapping
  | noEnvironment
  | unreachable (reason : Text)
  | ready (client : PolicyClient)

def PolicyState.readyClient : PolicyState → Except PolicyError PolicyClient
  | ready client => .ok client
  | bootstrapping => .error .bootstrapping
  | noEnvironment => .error .noEnvironment
  | unreachable reason => .error (.unreachable reason)

/-- The claims of a token, as the operator is shown them. -/
structure DecodedTokenDto (F : Type) where
  agentId : Text
  runId : Text
  tools : List Text
  costCeilingUsd : F
  expUnix : Int
  toolCallDigest : Option Text

def DecodedTokenDto.ofClaims (c : ApprovalTokenClaims F) : DecodedTokenDto F :=
  ⟨c.agentId, c.runId, c.tools, c.maxCostUsd, c.exp, c.toolCallDigest⟩

/-- What a decision that wardryx accepted is reported with. -/
structure DecideOutcome (F : Type) where
  summary : Text
  httpStatus : UInt16
  verifyResult : Text
  sigAlg : Text
  sigFpr : Text
  token : Option (DecodedTokenDto F)
  approvalToken : Option Text
  busRecorded : Bool
  busError : Option Text

/-- The token to hand the operator: a grant's, and no other. -/
def rawTokenOf (decision : DecisionDto) (resp : ApprovalDecideResponse) : Option Text :=
  match decision with
  | .grant => resp.approvalToken.filter (!·.isEmpty)
  | .deny => none

/-- The console around one decision: its configuration, and what it meets. -/
structure DecideSetting (F : Type) where
  journaling : Journaling F
  ambient : Ambient
  signing : SigningLibraries
  wire : WardryxWire F
  fixed2 : F → Text
  state : PolicyState
  approver : ApproverKey
  entropy : Except Text Bytes
  nowUnix : Int64
  now : Nat
  reply : Reply

/-- What a decision answers, what it sent, and the journal after it. -/
abbrev Decided (F : Type) :=
  (Except PolicyError (DecideOutcome F) × List DecideRequest) × Chronicle F

/-- What a result comes to: the status and the text of its record, the decoded token, and the
summary. -/
structure Description (F : Type) where
  httpStatus : UInt16
  verifyResult : Text
  token : Option (DecodedTokenDto F)
  summary : Text

namespace DecideSetting

variable (S : DecideSetting F)

/-- `random_hex`. -/
def randomHex : Except SigningError Text := (S.entropy.map hexLower).mapError .entropy

/-- The statement to send with a decision, or none where no key file is configured. -/
def statementFor (request : StatementRequest) : Except Refusal (Option Text) :=
  match S.approver with
  | .notConfigured => .ok none
  | .failed reason => .error (.keyUnusable reason)
  | .ready signer =>
      match request.passkeyCredential with
      | none => .error .noPasskeyConfirmed
      | some credential =>
          match S.randomHex with
          | .error e => .error (.statement e.display)
          | .ok jti =>
              let claims :=
                { sub := request.approver, cred := credential, aid := request.approvalId
                  dec := request.decision, iat := S.nowUnix
                  exp := S.nowUnix + statementLifetimeSecs, jti := jti }
              match sign S.journaling.codec S.signing signer claims with
              | .error e => .error (.statement e.display)
              | .ok statement => .ok (some statement)

/-- What is journaled and shown of wardryx's answer. -/
def describeDecisionResult (decision : DecisionDto) (id : Text)
    (result : Except WardryxError ApprovalDecideResponse) : Description F :=
  let approval := "approval ".toList ++ id
  match result with
  | .error e => ⟨e.statusOf, "error: ".toList ++ e.display, none, []⟩
  | .ok resp =>
      match decision with
      | .deny => ⟨200, "denied".toList, none, approval ++ " denied".toList⟩
      | .grant =>
          match resp.approvalToken with
          | none => ⟨200, "granted (no token returned)".toList, none,
              approval ++ " granted (no token returned)".toList⟩
          | some token =>
              match ApprovalTokenClaims.decode S.wire token with
              | .error e => ⟨200, "granted (token undecodable: ".toList ++ e.display ++ ")".toList,
                  none, approval ++ " granted (token undecodable)".toList⟩
              | .ok claims =>
                  let ttl := claims.ttlRemaining S.now / ApprovalTokenClaims.nanosPerSec
                  ⟨200, "granted ceiling_usd:".toList ++ S.fixed2 claims.maxCostUsd ++
                    " ttl_s:".toList ++ Text.decimal ttl, some (.ofClaims claims),
                    approval ++ " granted".toList⟩

/-- The record of a decision. -/
def decisionRecord (client : PolicyClient) (operator : Text) (decision : DecisionDto) (id : Text)
    (verdict : Text) (httpStatus : UInt16) (verifyResult : Text) : CommandRecord F :=
  let signature := S.ambient.signatureOr client.sigAlg client.sigFpr
  { operator := operator
    env := "local".toList
    action := decision.action
    target := id
    params := .object []
    decision := verdict
    sigAlg := signature.1
    sigFpr := signature.2
    httpStatus := httpStatus
    verifyResult := verifyResult }

/-- The passkey that confirmed this request. -/
def confirmed : Option Text :=
  (S.ambient.signature.filter fun sig => sig.1 = "webauthn-es256".toList).map Prod.snd

/-- `policy_decide_approval`. -/
def policyDecideApproval (id : Text) (decision : DecisionDto) (c : Chronicle F) : Decided F :=
  match S.state.readyClient with
  | .error e => ((.error e, []), c)
  | .ok client =>
      let operator := S.ambient.operatorOr client.operator
      match S.statementFor ⟨id, decision.wire, operator, S.confirmed⟩ with
      | .error refusal =>
          let reason := refusal.display
          let (_, c) := c.journal S.journaling client.orgDomain client.host
            (S.decisionRecord client operator decision id "refused".toList 0
              ("refused before wardryx: ".toList ++ reason))
          ((.error (.approverStatement reason), []), c)
      | .ok statement =>
          let (result, sent) := client.client.decideApprovalWithStatement S.wire id
            decision.toVerdict operator statement S.reply
          let d := S.describeDecisionResult decision id result
          let (journaled, c) := c.journal S.journaling client.orgDomain client.host
            (S.decisionRecord client operator decision id "allow".toList d.httpStatus d.verifyResult)
          match result with
          | .error e => ((.error (.ofWardryx e), sent), c)
          | .ok resp =>
              ((.ok
                { summary := d.summary, httpStatus := d.httpStatus, verifyResult := d.verifyResult
                  sigAlg := client.sigAlg, sigFpr := client.sigFpr, token := d.token
                  approvalToken := rawTokenOf decision resp
                  busRecorded := journaled.1, busError := journaled.2 }, sent), c)

end DecideSetting

end Genaryx.Policy
