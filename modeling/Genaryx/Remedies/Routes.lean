import Genaryx.Case.Gather
import Genaryx.Ceremony.Roles
import Genaryx.Delegation.Stopped
import Genaryx.Replay.Slots

/-!
# Typed remedies

What an operator may do about an incident: a policy, a limit, a stop or a revocation. A remedy is
checked before anything else, says how it is proved and where it is applied, and the class of the
incident says which kinds are offered.

## Implementation notes

The proof of a remedy is an answer that is given. Of the commands that a shell dispatches there are
the two that a remedy is routed to, with the arguments that they read. `Setting` has what they meet.
-/

namespace Genaryx.Remedies

open Base Json Text
open Replay (Request Answer ProofError PolicyProof BudgetProof BudgetCandidate AmountError Data)

variable {F : Type}

/-- Why a stop or a revocation has no proof. -/
def noHistoryReplaysAnAct : Text :=
  ("a stop or a revocation is an act on one subject; no recorded history replays one, so it is " ++
    "unproven").toList

/-- Why an identity incident is offered no remedy. -/
def identityIsFiledUnderTheKey : Text :=
  ("a refusal is filed under the key that made the call; stopping or revoking the agent it " ++
    "claimed would charge it with an attempt it did not make").toList

/-- Why an incident of an unknown type is offered nothing. -/
def notClassified : Text :=
  "the console does not know this type of incident, so it offers no remedy for it".toList

inductive IncidentClass
  | spend
  | loop
  | policy
  | approval
  | data
  | identity
  | quality
  | unclassified
  deriving DecidableEq

/-- A type of event, its class, and the scenario that rehearses it. -/
structure Entry where
  eventType : Text
  incidentClass : IncidentClass
  scenario : Option Text

def entry (eventType : Text) (incidentClass : IncidentClass) (scenario : Option Text) : Entry :=
  ⟨eventType, incidentClass, scenario⟩

def runaway : Text := "runaway-budget.yaml"

def deniedTool : Text := "wardryx-denied-tool.yaml"

def approval : Text := "approval-required.yaml"

def pii : Text := "pii-in-prompt.yaml"

def secret : Text := "dlp-secret-leak.yaml"

/-- The types that mean something to a remedy. -/
def table : List Entry :=
  [ entry "budget_exhausted" .spend (some runaway),
    entry "budget_exceeded" .spend (some runaway),
    entry "budget_threshold" .spend (some runaway),
    entry "loop_detected" .loop (some runaway),
    entry "policy_deny" .policy (some deniedTool),
    entry "policy_hold" .approval (some approval),
    entry "approval_requested" .approval (some approval),
    entry "approval_unanswered" .approval (some approval),
    entry "approval_denied" .approval (some approval),
    entry "dlp_pii" .data (some pii),
    entry "dlp_shadow" .data (some pii),
    entry "dlp_block" .data (some secret),
    entry Core.identityMismatch .identity none,
    entry "quality_drift" .quality none ]

/-- The class of an event type, and the scenario that rehearses it. -/
def classify (eventType : Text) : IncidentClass × Option Text :=
  match table.find? fun e => e.eventType = eventType with
  | some e => (e.incidentClass, e.scenario)
  | none => (.unclassified, none)

inductive RemedyKind
  | policyCandidate
  | budgetLimit
  | stopAgent
  | revokeDelegation
  deriving DecidableEq

/-- The kinds that are offered for a class. -/
def offered : IncidentClass → List RemedyKind
  | .spend | .loop => [.budgetLimit, .stopAgent]
  | .policy | .approval | .data => [.policyCandidate, .stopAgent]
  | .quality => [.stopAgent]
  | .identity | .unclassified => []

/-- Why a class is offered nothing, if it is not. -/
def whyNone : IncidentClass → Option Text
  | .identity => some identityIsFiledUnderTheKey
  | .unclassified => some notClassified
  | _ => none

/-- A remedy as it was typed. -/
inductive Remedy
  | policyCandidate (candidate : Text)
  | budgetLimit (perRunUsd perStepUsd : Option Text) (maxSteps : Option UInt32)
  | stopAgent (subject : Text)
  | revokeDelegation (subject : Text)

/-- Where a remedy is applied. -/
inductive ApplyRoute (F : Type)
  | command (command : Text) (arguments : Value F) (personSupplies : List Text)
  | outside (place : Text)

/-- The commands that a remedy can be routed to. -/
def routedCommands : List Text := ["agent_stop", "delegation_revoke"]

/-- A byte of a user's id. -/
def isUserByte (b : UInt8) : Bool := 0x21 ≤ b && b ≤ 0x7e && b ≠ 0x5c && b ≠ 0x22

def isUserId (s : Text) : Bool :=
  match stripPrefix "user://" s with
  | none => false
  | some rest => !rest.isEmpty && (Utf8.encode rest).all isUserByte

/-- The text of a refused amount. -/
def refusalOf : AmountError → Text
  | .refused reason => reason
  -- The decimals of an amount never overflow.
  | .overflowed => []

namespace Remedy

def kind : Remedy → RemedyKind
  | policyCandidate _ => .policyCandidate
  | budgetLimit _ _ _ => .budgetLimit
  | stopAgent _ => .stopAgent
  | revokeDelegation _ => .revokeDelegation

/-- Whether a remedy is well formed. -/
def check : Remedy → Except Text Unit
  | policyCandidate candidate =>
      match Replay.checkCandidate candidate with
      | .error (.candidateRefused reason) => .error reason
      | _ => .ok ()
  | budgetLimit perRunUsd perStepUsd maxSteps =>
      match BudgetCandidate.fromParts perRunUsd perStepUsd maxSteps with
      | .error e => .error (refusalOf e)
      | .ok _ => .ok ()
  | stopAgent subject =>
      if Delegation.isAgentId subject then .ok ()
      else .error "an agent to stop is named by its agent:// id".toList
  | revokeDelegation subject =>
      if Delegation.isAgentId subject || isUserId subject then .ok ()
      else .error "a delegation to revoke is named by an agent:// or user:// id".toList

/-- The arguments that a route fills in. -/
def named (subject : Text) : Value F := .object (ofMembers [("subject".toList, .string subject)])

/-- How a remedy is applied. -/
def route : Remedy → ApplyRoute F
  | policyCandidate _ =>
      .outside ("the policy plane: this console decides approvals and writes block policies, and " ++
        "has no command that loads a policy").toList
  | budgetLimit _ _ _ =>
      .outside ("the gateway's own configuration: this console sets one run's budget and a unit's " ++
        "month cap, and has no command that sets a limit for every run").toList
  | stopAgent subject => .command "agent_stop" (named subject) ["reason"]
  | revokeDelegation subject => .command "delegation_revoke" (named subject) ["reason"]

/-- The proof that is asked for against an incident, if the kind of remedy has one. -/
def request (incidentId : Text) : Remedy → Option Request
  | policyCandidate candidate => some (.policy incidentId candidate)
  | budgetLimit perRunUsd perStepUsd maxSteps =>
      some (.budget incidentId perRunUsd perStepUsd maxSteps)
  | stopAgent _ | revokeDelegation _ => none

end Remedy

/-! ## The check of a remedy against an incident -/

/-- Why no check was made. -/
inductive RemedyError
  | refused (reason : Text)
  | incident (reason : Text)

/-- What was done to prove a remedy. -/
inductive ProofOutcome
  | policy (proof : PolicyProof)
  | budget (proof : BudgetProof)
  | unproven (reason : Text)
  | failed (error : ProofError)

/-- A scenario that rehearses the failure, and whether the box has it. -/
structure DrillSuggestion where
  scenario : Text
  inScenarioDir : Option Bool

/-- The check of one remedy against one incident. -/
structure RemedyCheck (F : Type) where
  incidentId : Text
  eventType : Data
  incidentClass : IncidentClass
  offered : List RemedyKind
  whyNone : Option Text
  remedy : Remedy
  fitsClass : Bool
  proof : ProofOutcome
  drill : Option DrillSuggestion
  apply : ApplyRoute F

/-- Why an incident has no event, in words. -/
def describe : Case.CaseError → Text
  | .noStore _ => "No case: the console has no readable event store on this box.".toList
  | .badIncidentId _ => "No case: this is not an incident id the case command reads.".toList
  | .unsupportedSource source =>
      "No case: a ".toList ++ source ++ " incident has no event row to start from.".toList
  | .notFound eventId =>
      "No case: the console's store holds no event row ".toList ++ decimal eventId ++ ".".toList

/-- The event row an incident is, from the console's own store. -/
def eventOf (bus : Case.Bus F) (incidentId : Text) : Except Text (Case.StoredEvent F) := do
  let eventId ← (Case.eventIdOf incidentId).mapError describe
  let _ ← bus.opened.mapError fun reason => describe (.noStore reason)
  match ← (bus.eventById eventId).mapError fun reason => describe (.noStore reason) with
  | some event => .ok event
  | none => .error (describe (.notFound eventId))

def drillFor (scenario : Option Text) (dir : Option (Text → Bool)) : Option DrillSuggestion :=
  scenario.map fun scenario => ⟨scenario, dir.map fun isFile => isFile scenario⟩

/-- The proof that the kind of remedy has, as it was answered, or that it has none. -/
def prove (answer : Request → Answer) (incidentId : Text) (remedy : Remedy) : ProofOutcome :=
  match remedy.request incidentId with
  | none => .unproven noHistoryReplaysAnAct
  | some request =>
      match answer request with
      | .ok (.policy proof) => .policy proof
      | .ok (.budget proof) => .budget proof
      | .error error => .failed error

def remedyCheckIn (bus : Case.Bus F) (answer : Request → Answer) (dir : Option (Text → Bool))
    (incidentId : Text) (remedy : Remedy) : Except RemedyError (RemedyCheck F) := do
  remedy.check.mapError .refused
  let event ← (eventOf bus incidentId).mapError .incident
  let classified := classify event.eventType
  return {
    incidentId
    eventType := .bounded event.eventType
    incidentClass := classified.1
    offered := offered classified.1
    whyNone := whyNone classified.1
    remedy
    fitsClass := (offered classified.1).contains remedy.kind
    proof := prove answer incidentId remedy
    drill := drillFor classified.2 dir
    apply := remedy.route }

/-! ## The commands a remedy is routed to -/

/-- A text that the arguments must have. -/
def textField (members : List (Text × Value F)) (name : Text) : Option Text :=
  (members.lookup name).bind Value.asStr

/-- A text that the arguments may have. -/
def optionalText : Option (Value F) → Option (Option Text)
  | none | some .null => some none
  | some v => v.asStr.map some

/-- The arguments of `agent_stop`: an object, or a list in the order of the fields. -/
def decodeStop : Value F → Option (Text × Text)
  | .object members => do
      return (← textField members "subject", ← textField members "reason")
  | .array [subject, reason] => do return (← subject.asStr, ← reason.asStr)
  | _ => none

/-- The arguments of `delegation_revoke`. -/
def decodeRevoke : Value F → Option (Option Text × Option Text × Text)
  | .object members => do
      let subject ← optionalText (members.lookup "subject".toList)
      let jti ← optionalText (members.lookup "jti".toList)
      return (subject, jti, ← textField members "reason")
  | .array [subject, jti, reason] => do
      return (← optionalText (some subject), ← optionalText (some jti), ← reason.asStr)
  | _ => none

/-- What a dispatched command meets. -/
structure Setting (F : Type) extends Delegation.StopSetting F where
  revokeReply : Money.Reply

/-- What a command sends, and the journal after it. Arguments that cannot be read give nothing. -/
def dispatch (S : Setting F) (name : Text) (args : Value F) (c : Command.Chronicle F) :
    Option (List (Delegation.Sent F) × Command.Chronicle F) :=
  if name = "delegation_revoke".toList then do
    let (subject, jti, reason) ← decodeRevoke args
    let done := Delegation.delegationRevoke S.journaling S.ambient S.config S.revokeReply subject jti
      reason c
    return (done.1.2.map .vouchryx, done.2)
  else if name = "agent_stop".toList then do
    let (subject, reason) ← decodeStop args
    let done := S.stop subject reason c
    return (done.1.2, done.2)
  else none

end Genaryx.Remedies
