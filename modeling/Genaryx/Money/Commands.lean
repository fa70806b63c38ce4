import Genaryx.Command.Journal
import Genaryx.Money.Cloud

/-!
# Mutations on the money plane

A mutation asks the Cloud, journals what came of it whatever that was, and tells the operator.
The overrides of governance need a reason before the Cloud is asked.

## Implementation notes

`Amounts` is how an amount in dollars is written: as a JSON number and with four decimals.
-/

namespace Genaryx.Money

open Base Json Genaryx.Core Command

variable {F α : Type}

inductive MoneyError
  | bootstrapping
  | noEnvironment
  | pairingFailed (reason : Text)
  | planRequired (feature org upgradeUrl : Text)
  | breakGlassMissingReason
  | cloud (status : Option UInt16) (message : Text)

/-- What the panel says of a failed call. -/
def MoneyError.ofConnector : ConnectorError → MoneyError
  | .planRequired feature org upgradeUrl => .planRequired feature org upgradeUrl
  | .signatureRejected => .cloud (some 403)
      "device signature rejected by the Cloud (signature_invalid)".toList
  | .api status body => .cloud (some status) body
  | .noDeviceSigner => .cloud none "no paired device signer attached (internal state error)".toList
  | .invalidPathSegment e => .cloud none
      ("this id cannot be used in a request path: ".toList ++ e.display)
  | .signing e => .cloud none ("signing failed: ".toList ++ e)
  | .transport e => .cloud none ("could not reach the Cloud: ".toList ++ e)
  | .json e => .cloud none ("unexpected response shape from the Cloud: ".toList ++ e)

/-- A client that is paired, and what its records carry. -/
structure MoneyClient where
  client : CloudClient
  orgDomain : Text
  operator : Text
  host : Text
  sigFpr : Text

/-- The state of the panel. -/
inductive MoneyState
  | bootstrapping
  | noEnvironment
  | pairingFailed (reason : Text)
  | ready (client : MoneyClient)

def MoneyState.readyClient : MoneyState → Except MoneyError MoneyClient
  | ready client => .ok client
  | bootstrapping => .error .bootstrapping
  | noEnvironment => .error .noEnvironment
  | pairingFailed reason => .error (.pairingFailed reason)

/-- How an amount is written. -/
structure Amounts (F : Type) where
  toValue : F → Value F
  fixed4 : F → Text

structure MutationOutcome where
  summary : Text
  httpStatus : UInt16
  verifyResult : Text
  sigAlg : Text
  sigFpr : Text
  busRecorded : Bool
  busError : Option Text

/-- A reason that is not blank. -/
def requireBreakGlassReason (reason : Text) : Except MoneyError Unit :=
  if (Text.trim reason).isEmpty then .error .breakGlassMissingReason else .ok ()

variable (J : Journaling F) (a : Ambient) (client : MoneyClient)

/-- The record of a mutation. -/
def mutationRecord (action target : Text) (params : Value F) (decision : Text)
    (httpStatus : UInt16) (verifyResult : Text) : CommandRecord F :=
  let signature := a.signatureOr "es256" client.sigFpr
  { operator := a.operatorOr client.operator
    env := "local".toList
    action := action
    target := target
    params := params
    decision := decision
    sigAlg := signature.1
    sigFpr := signature.2
    httpStatus := httpStatus
    verifyResult := verifyResult }

/-- Journal what came of a mutation, and tell of it. -/
def finishMutation (action target : Text) (params : Value F) (decision : Text)
    (cloudResult : Except ConnectorError α) (onOk : α → Text × Text) (c : Chronicle F) :
    Except MoneyError MutationOutcome × Chronicle F :=
  match cloudResult with
  | .ok value =>
      let (summary, verifyResult) := onOk value
      let (journaled, c) := c.journal J client.orgDomain client.host
        (mutationRecord a client action target params decision 200 verifyResult)
      (.ok ⟨summary, 200, verifyResult, "es256".toList, client.sigFpr, journaled.1, journaled.2⟩, c)
  | .error e =>
      let (_, c) := c.journal J client.orgDomain client.host
        (mutationRecord a client action target params decision e.statusOf
          ("error: ".toList ++ e.display))
      (.error (.ofConnector e), c)

variable (W : CloudWire F) (A : Amounts F) (state : MoneyState) (x : Exchange)

/-- What a command answers, what it sent, and the journal after it. -/
abbrev Performed (F : Type) :=
  (Except MoneyError MutationOutcome × List CloudRequest) × Chronicle F

/-- Kill a run. -/
def moneyKillRun (runId reason : Text) (c : Chronicle F) : Performed F :=
  match requireBreakGlassReason reason with
  | .error e => ((.error e, []), c)
  | .ok () =>
      match state.readyClient with
      | .error e => ((.error e, []), c)
      | .ok client =>
          let (result, sent) := client.client.killRun W runId x
          let (outcome, c) := finishMutation J a client "console.kill_run".toList runId
            (.object (ofMembers [("reason", .string reason)])) "break_glass".toList result
            (fun killed => ("run ".toList ++ runId ++ " killed".toList,
              "killed:".toList ++ Text.displayBool (killed = runId))) c
          ((outcome, sent), c)

/-- Set a run's budget. -/
def moneySetBudget (runId : Text) (budgetUsd : F) (reason : Text) (c : Chronicle F) :
    Performed F :=
  match requireBreakGlassReason reason with
  | .error e => ((.error e, []), c)
  | .ok () =>
      match state.readyClient with
      | .error e => ((.error e, []), c)
      | .ok client =>
          let (result, sent) := client.client.setBudget W runId budgetUsd x
          let (outcome, c) := finishMutation J a client "console.set_budget".toList runId
            (.object (ofMembers [("reason", .string reason), ("budget_usd", A.toValue budgetUsd)]))
            "break_glass".toList result
            (fun answer => ("run ".toList ++ runId ++ " budget set to $".toList ++ A.fixed4 budgetUsd,
              "budget_micros:".toList ++ Text.displayInt answer.2)) c
          ((outcome, sent), c)

/-- Acknowledge an incident, which overrides nothing. -/
def moneyAckIncident (id : Text) (c : Chronicle F) : Performed F :=
  match state.readyClient with
  | .error e => ((.error e, []), c)
  | .ok client =>
      let (result, sent) := client.client.ackIncident W id x
      let (outcome, c) := finishMutation J a client "console.ack_incident".toList id (.object [])
        "allow".toList result
        (fun acknowledged => ("incident ".toList ++ id ++ " acknowledged".toList,
          "acknowledged:".toList ++ Text.displayBool (acknowledged = id))) c
      ((outcome, sent), c)

end Genaryx.Money
