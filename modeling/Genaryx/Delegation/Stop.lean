import Genaryx.Delegation.Vouchryx
import Genaryx.Money.Commands
import Mathlib.Data.List.Sort

/-!
# Stopping an agent

One action bans an agent at its issuer, lists the runs the Cloud knows, kills those of the
agent that are open and says whether all of that was done. Every step is journaled as it
happens.

## Implementation notes

`StopAnswers` says what each call gets; the kills are numbered in the order they are tried. A
stop gives its result with all that was sent and the journal after it.
-/

namespace Genaryx.Delegation

open Base Json Genaryx.Core Command Money

variable {F : Type}

def ceremonyAlg : Text := "webauthn-es256".toList

/-- The most runs one stop kills. -/
def maxRunsPerStop : Nat := 500

/-- One step of a stop, as it was journaled. -/
structure StopStep where
  step : Text
  target : Text
  ok : Bool
  httpStatus : UInt16
  verifyResult : Text
  journaled : Bool
  journalError : Option Text

/-- What a stop did. -/
structure StopOutcome where
  subject : Text
  stopped : Bool
  banDurable : Option Bool
  openRuns : Option Nat
  runsKilled : Nat
  warnings : List Text
  steps : List StopStep

inductive StopError
  | invalidSubject (subject : Text)
  | invalidReason (chars : Nat)
  | notStopped (outcome : StopOutcome)

/-- The estate's agent id grammar. -/
def isAgentId (s : Text) : Bool :=
  match Text.stripPrefix "agent://" s with
  | none => false
  | some rest =>
      match Text.splitOnce '/' rest with
      | none => false
      | some (domain, path) =>
          let letter := fun c : Char => ('a' ≤ c && c ≤ 'z') || ('0' ≤ c && c ≤ '9')
          !domain.isEmpty && !path.isEmpty &&
            domain.all (fun c => letter c || c = '.' || c = '-') &&
            path.all (fun c => letter c || c = '.' || c = '_' || c = '/' || c = '-')

def validate (subject reason : Text) : Except StopError (Text × Text) :=
  if isAgentId subject then
    let trimmed := Text.trim reason
    if trimmed.length = 0 || trimmed.length > maxReasonLen then
      .error (.invalidReason trimmed.length)
    else .ok (subject, trimmed)
  else .error (.invalidSubject subject)

/-- The steps of one action: what they share, the list so far and the journal. -/
structure Steps (F : Type) where
  orgDomain : Text
  actor : Text
  reason : Text
  sigAlg : Text
  sigFpr : Text
  action : Text
  list : List StopStep
  chronicle : Chronicle F

variable (J : Journaling F) (a : Ambient)

namespace Steps

/-- The record of one step. -/
def recordOf (s : Steps F) (step target : Text) (httpStatus : UInt16) (verify : Text) :
    CommandRecord F where
  operator := s.actor
  env := s.orgDomain
  action := if step = "verdict" then s.action else s.action ++ ".".toList ++ step
  target := target
  params := .object (ofMembers [("reason", .string s.reason), ("step", .string step)])
  decision := "break_glass".toList
  sigAlg := s.sigAlg
  sigFpr := s.sigFpr
  httpStatus := httpStatus
  verifyResult := verify

def record (s : Steps F) (step target : Text) (ok : Bool) (httpStatus : UInt16) (verify : Text) :
    Steps F :=
  let (journaled, chronicle) :=
    s.chronicle.journal J s.orgDomain a.host (s.recordOf step target httpStatus verify)
  { s with
    list := s.list ++ [⟨step, target, ok, httpStatus, verify, journaled.1, journaled.2⟩]
    chronicle := chronicle }

end Steps

def stepsFor (action reason : Text) (c : Chronicle F) : Steps F :=
  let signature := a.signatureOr "software-signed" "software-signed"
  { orgDomain := a.org
    actor := actor a
    reason := reason
    sigAlg := signature.1
    sigFpr := signature.2
    action := action
    list := []
    chronicle := c }

/-- What confirmed the action, and what to warn of if no passkey did. -/
def ceremonyVerify (sigAlg : Text) : Text × List Text :=
  if sigAlg = ceremonyAlg then ("confirmed:".toList ++ ceremonyAlg, [])
  else ("not_confirmed:no_passkey_enrolled".toList,
    [("no passkey confirmed this action: the caller has none enrolled, so it ran on the session " ++
      "alone (GENARYX_WEB_ALLOW_SOFTWARE_CEREMONY is set; the default refuses such an " ++
      "action)").toList])

/-- One answer from vouchryx, folded into a step. -/
structure Answer where
  ok : Bool
  httpStatus : UInt16
  verify : Text
  durable : Option Bool

def refusedAnswer (status : UInt16) (body : Value F) : Answer :=
  let code := errorCode body
  ⟨false, status, if status = 503 then "not_durable:".toList ++ code else "refused:".toList ++ code,
    none⟩

def revokedNotBanned : Text :=
  ("revoked_not_banned: vouchryx revoked the tokens the agent holds and did not confirm a ban, so " ++
    "new tokens can still be issued").toList

/-- What an answer to a ban comes to. -/
def banAnswer (status : UInt16) (answer : Value F) : Answer :=
  if status = 200 then
    match confirms answer "revoked".toList, confirms answer "banned".toList with
    | true, true =>
        let durable := confirms answer "durable".toList
        ⟨true, 200, if durable then "banned:durable".toList else "banned:not_durable".toList,
          some durable⟩
    | true, false => ⟨false, 200, revokedNotBanned, none⟩
    | _, _ => ⟨false, 200, "200 without revoked:true confirmation".toList, none⟩
  else refusedAnswer status answer

/-- The request of a ban. -/
def banPost (vouchryxUrl revokeKey subject actor reason : Text) : Post F where
  url := vouchryxUrl ++ "/v1/revoke".toList
  bearer := revokeKey
  body := .object (ofMembers [("jti", .string []), ("subject", .string subject),
    ("actor", .string actor), ("reason", .string reason), ("ban", .bool true)])

/-- What a ban comes to, and what was sent for it. -/
def banAtVouchryx (C : Codec F recursionLimit) (config : RevokeConfig) (reply : Reply)
    (subject actor reason : Text) : Answer × List (Post F) :=
  match config with
  | .notConfigured => (⟨false, 0,
      ("not_configured: GENARYX_VOUCHRYX_URL and GENARYX_VOUCHRYX_REVOKE_KEY_FILE are " ++
        "unset").toList, none⟩, [])
  | .configured vouchryxUrl revokeKey =>
      let answer : Answer :=
        match postCapped C reply with
        | .error detail => ⟨false, 0, "unreachable: ".toList ++ detail, none⟩
        | .ok (status, answer) => banAnswer status answer
      (answer, [banPost vouchryxUrl revokeKey subject actor reason])

/-- The Cloud client of a panel, or why there is none. -/
def cloudClient : MoneyState → Except Text CloudClient
  | .ready client => .ok client.client
  | .bootstrapping => .error "the Cloud connection is still starting".toList
  | .noEnvironment => .error "no TokenFuse Cloud is configured".toList
  | .pairingFailed reason => .error ("the Cloud connection failed: ".toList ++ reason)

/-- The agent's open runs, the newest first. -/
def openRunsOf (subject : Text) (runs : List RunAgg) : List RunAgg :=
  (runs.filter fun r => r.agentId = subject && !r.killed).insertionSort
    fun r s => s.lastSeenMillis ≤ r.lastSeenMillis

variable (W : CloudWire F)

/-- What one kill comes to. -/
def killAnswer (runId : Text) (result : Except ConnectorError Text) : Bool × UInt16 × Text :=
  match result with
  | .ok killed =>
      if killed = runId then (true, 200, "killed:true".toList)
      else (false, 200, "unconfirmed: the Cloud answered killed=".toList ++ J.debug killed)
  | .error e => (false, e.statusOf, "error: ".toList ++ e.display)

/-- The kills so far. -/
structure Kills (F : Type) where
  killed : Nat
  failed : Nat
  steps : Steps F
  sent : List CloudRequest

/-- Kill the runs of a list, one by one. -/
def killRuns (client : CloudClient) (kills : Nat → Exchange) :
    Nat → List RunAgg → Kills F → Kills F
  | _, [], k => k
  | i, run :: rest, k =>
      let (result, sent) := client.killRun W run.runId (kills i)
      let (ok, status, verify) := killAnswer J run.runId result
      killRuns client kills (i + 1) rest
        { killed := if ok then k.killed + 1 else k.killed
          failed := if ok then k.failed else k.failed + 1
          steps := k.steps.record J a "kill_run".toList run.runId ok status verify
          sent := k.sent ++ sent }

/-- What each call of a stop gets. -/
structure StopAnswers where
  ban : Reply
  runs : Exchange
  kills : Nat → Exchange

/-- What the runs of a stop come to: how many were open, and what the kills did. -/
structure RunsStopped (F : Type) where
  openRuns : Option Nat
  notAttempted : Nat
  kills : Kills F

/-- List the agent's runs and kill those that are open. -/
def stopRuns (money : MoneyState) (answers : StopAnswers) (subject : Text) (s : Steps F) :
    RunsStopped F :=
  match cloudClient money with
  | .error why => ⟨none, 0, 0, 0,
      s.record J a "list_runs".toList subject false 0 ("error: ".toList ++ why), []⟩
  | .ok client =>
      let listed := CloudClient.runs W answers.runs
      match listed.1 with
      | .error e => ⟨none, 0, 0, 0, s.record J a "list_runs".toList subject false e.statusOf
          ("error: ".toList ++ e.display), listed.2⟩
      | .ok runs =>
          let «open» := openRunsOf subject runs
          let s := s.record J a "list_runs".toList subject true 200
            ("listed:".toList ++ Text.decimal «open».length ++ " open".toList)
          ⟨some «open».length, «open».length - maxRunsPerStop,
            killRuns J a W client answers.kills 0 («open».take maxRunsPerStop)
              ⟨0, 0, s, listed.2⟩⟩

/-- Why an agent was not stopped. -/
def notStoppedReasons (ban : Answer) (r : RunsStopped F) : List Text :=
  (if ban.ok then [] else ["ban ".toList ++ ban.verify]) ++
    match r.openRuns with
    | none => ["runs not listed".toList]
    | some n =>
        (if r.kills.failed > 0 then
          [Text.decimal r.kills.failed ++ " of ".toList ++ Text.decimal n ++
            " run kill(s) failed".toList] else []) ++
        (if r.notAttempted > 0 then
          [Text.decimal r.notAttempted ++ " run(s) over the limit of ".toList ++
            Text.decimal maxRunsPerStop ++ " not attempted".toList] else [])

/-- The verdict on a stop. -/
def verdict (ban : Answer) (r : RunsStopped F) : Bool × Text :=
  let stopped := ban.ok && r.openRuns = some r.kills.killed
  (stopped,
    if stopped then
      if ban.durable = some true then "stopped".toList else "stopped:ban_not_durable".toList
    else "not_stopped: ".toList ++ "; ".toList.intercalate (notStoppedReasons ban r))

/-- `agent_stop`: its answer, what it sent, and the journal after it. -/
def agentStop (config : RevokeConfig) (money : MoneyState) (answers : StopAnswers)
    (subject reason : Text) (c : Chronicle F) :
    (Except StopError StopOutcome × List (Sent F)) × Chronicle F :=
  match validate subject reason with
  | .error e => ((.error e, []), c)
  | .ok (subject, reason) =>
      let s := stepsFor a "console.stop_agent".toList reason c
      let (verify, warnings) := ceremonyVerify s.sigAlg
      let s := s.record J a "ceremony".toList subject true 0 verify
      let (ban, posts) := banAtVouchryx J.codec config answers.ban subject s.actor s.reason
      let s := s.record J a "ban".toList subject ban.ok ban.httpStatus ban.verify
      let warnings := warnings ++
        if ban.durable = some false then
          [("the ban is not durable: vouchryx keeps no revocation store, so restarting it lifts " ++
            "the ban").toList] else []
      let r := stopRuns J a W money answers subject s
      let (stopped, verdict) := verdict ban r
      let s := r.kills.steps.record J a "verdict".toList subject stopped 0 verdict
      let outcome : StopOutcome :=
        ⟨subject, stopped, ban.durable, r.openRuns, r.kills.killed, warnings, s.list⟩
      let sent := posts.map .vouchryx ++ r.kills.sent.map .cloud
      ((if stopped then .ok outcome else .error (.notStopped outcome), sent), s.chronicle)

end Genaryx.Delegation
