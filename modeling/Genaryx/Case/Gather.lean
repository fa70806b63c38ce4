import Genaryx.Base.Words
import Genaryx.Case.File
import Genaryx.Core.Attribution
import Mathlib.Data.List.Sort

/-!
# Gathering a case

Which questions an event allows, what each plane is asked, and the case of the answers.

## Implementation notes

The answers of the planes are parameters, each a list or the error text of a read that
failed. A record of a plane has the fields that are read here and in `rest` the other members
of its JSON. A row id and an amount are what the planes give, an unsigned and a signed number.
-/

namespace Genaryx.Case

open Json Genaryx.Core

variable {F : Type}

def timelineCap : Nat := 200

def similarLimit : Nat := 5

def rulingsLimit : Nat := 5

/-- The most downstream identities a blast radius names. -/
def blastListCap : Nat := 20

/-- A row of the event store. -/
structure StoredEvent (F : Type) where
  id : Nat
  ts : Text
  eventType : Text
  agentId : Text
  runId : Option Text := none
  data : Option (Value F) := none
  rest : List (Text × Value F) := []

def StoredEvent.toJson (e : StoredEvent F) : Value F :=
  objectOf (e.rest ++ [("id".toList, usize e.id), ("ts".toList, .string e.ts),
    ("type_".toList, .string e.eventType), ("agent_id".toList, .string e.agentId),
    ("run_id".toList, optionText e.runId), ("data".toList, e.data.getD .null)])

/-- The console's own store, and whether it opens. -/
structure Bus (F : Type) where
  opened : Except Text Unit
  eventById : Nat → Except Text (Option (StoredEvent F))
  eventsForRun : Text → Nat → Except Text (List (StoredEvent F))
  similarEvents : Text → Nat → Nat → Except Text (List (StoredEvent F))

/-- A run as the Cloud reports it. -/
structure RunAgg (F : Type) where
  runId : Text
  rest : List (Text × Value F) := []

/-- A row of the runs table. -/
structure RunDto (F : Type) where
  runId : Text
  budgetUsd : Option (Value F)
  budgetsRead : Bool
  rest : List (Text × Value F)

def RunDto.toJson (r : RunDto F) : Value F :=
  objectOf (r.rest ++ [("run_id".toList, .string r.runId),
    ("budget_usd".toList, r.budgetUsd.getD .null), ("budgets_read".toList, .bool r.budgetsRead)])

/-- The money plane: the runs, the budget of each run, and the runs near their budgets. -/
structure MoneyPlane (F : Type) where
  runs : Except Text (List (RunAgg F))
  budgets : Except Text (List (Text × Int))
  alerts : Except Text (List (Text × Int))
  microsToUsd : Int → Value F

structure Permission where
  name : Text
  admin : Bool
  used : Bool

def Permission.toJson (p : Permission) : Value F :=
  objectOf [("name".toList, .string p.name), ("admin".toList, .bool p.admin),
    ("used".toList, .bool p.used)]

/-- An identity as idryx records it. -/
structure Identity (F : Type) where
  id : Text
  identityType : Text
  privileged : Bool
  onBehalfOf : List Text := []
  permissions : List Permission := []
  rest : List (Text × Value F) := []

def Identity.toJson (i : Identity F) : Value F :=
  objectOf (i.rest ++ [("id".toList, .string i.id), ("type".toList, .string i.identityType),
    ("privileged".toList, .bool i.privileged),
    ("on_behalf_of".toList, .array (i.onBehalfOf.map .string)),
    ("permissions".toList, .array (i.permissions.map Permission.toJson))])

structure Alert (F : Type) where
  detector : Text
  identity : Text
  time : Text
  rest : List (Text × Value F) := []

def Alert.toJson (a : Alert F) : Value F :=
  objectOf (a.rest ++ [("detector".toList, .string a.detector),
    ("identity".toList, .string a.identity), ("time".toList, .string a.time)])

structure IdentityPlane (F : Type) where
  identities : Except Text (List (Identity F))
  alerts : Except Text (List (Alert F))

structure WardryxStatus (F : Type) where
  policyVersion : Text
  rest : List (Text × Value F) := []

def WardryxStatus.toJson (s : WardryxStatus F) : Value F :=
  objectOf (s.rest ++ [("policy_version".toList, .string s.policyVersion)])

structure Approval (F : Type) where
  approvalId : Text
  runId : Text
  rest : List (Text × Value F) := []

def Approval.toJson (a : Approval F) : Value F :=
  objectOf (a.rest ++ [("approval_id".toList, .string a.approvalId),
    ("run_id".toList, .string a.runId)])

structure PolicyPlane (F : Type) where
  status : Except Text (WardryxStatus F)
  approvals : Except Text (List (Approval F))

structure Memory (F : Type) where
  id : Text
  rest : List (Text × Value F) := []

def Memory.toJson (m : Memory F) : Value F := objectOf (m.rest ++ [("id".toList, .string m.id)])

/-- What engram recalls for a query, up to a limit. -/
structure MemoryPlane (F : Type) where
  recalled : Text → Nat → Except Text (List (Memory F))

/-- The planes a case reads. -/
structure CasePlanes (F : Type) where
  bus : Bus F
  money : MoneyPlane F
  policy : PolicyPlane F
  identity : IdentityPlane F
  memory : MemoryPlane F
  parseTsMs : Text → Option Int

/-- Why no case could be started. -/
inductive CaseError where
  | noStore (reason : Text)
  | badIncidentId (incidentId : Text)
  | unsupportedSource (source : Text)
  | notFound (eventId : Nat)
  deriving DecidableEq

/-- The row id that a number names, if it fits `i64`. -/
def rowIdOf (digits : Text) : Option Nat :=
  if digits ≠ [] ∧ digits.all Char.isDigit then
    if digitsValue digits < 2 ^ 63 then some (digitsValue digits) else none
  else none

/-- The store row id an incident id names. -/
def eventIdOf (incidentId : Text) : Except CaseError Nat :=
  let rowId (digits : Text) : Except CaseError Nat :=
    match rowIdOf digits with
    | some id => .ok id
    | none => .error (.badIncidentId (incidentId.take 80))
  match Text.splitOnce ':' incidentId with
  | none => rowId incidentId
  | some (source, rest) =>
      if source = "bus".toList ∨ source = "verdryx".toList then rowId rest
      else if source = "money".toList ∨ source = "idryx".toList ∨ source = "posture".toList then
        .error (.unsupportedSource source)
      else .error (.badIncidentId (incidentId.take 80))

/-- What to ask, and about whom. -/
structure Questions where
  eventId : Nat
  eventType : Text
  subject : Text
  claimedAgent : Option Text
  agent : Option Text
  runId : Option Text
  notAsked : List (Section × Text)

/-- What to ask for an event. -/
def questionsFor (event : StoredEvent F) : Questions :=
  let subject := filedUnder event.eventType event.agentId event.data
  let isKey := Text.startsWith subject keyPrefix
  let agent := if isKey then none else some subject
  let runId := event.runId.filter fun run => !run.isEmpty
  { eventId := event.id
    eventType := event.eventType
    subject
    claimedAgent := if isKey then some event.agentId else none
    agent
    runId
    notAsked :=
      (if agent.isNone then
        [(.identity, Words.filedUnderAKey), (.blastRadius, Words.filedUnderAKey)] else []) ++
      (if runId.isNone then
        [(.runTimeline, Words.noRun), (.spend, Words.noRun), (.decisions, Words.noRun)] else []) }

/-- The console's sentence for a question that cannot be asked. -/
def Questions.reasonFor (q : Questions) (sec : Section) : Option Text :=
  (q.notAsked.find? fun n => n.1 == sec).map Prod.snd

/-- The plane answered with one row. -/
def one (row : Row F) : Answer F := .rows [row] none

/-- The plane answered and holds nothing. -/
def nothing : Answer F := .rows [] none

/-- A read as an answer. -/
def answerOf {α : Type} (read : Except Text α) (shown : α → Answer F) : Answer F :=
  match read with
  | .error reason => .unavailable reason
  | .ok found => shown found

variable (planes : CasePlanes F)

/-- An event's time comes first, and then its row id; an unreadable time is the earliest. -/
def timelineLe (a b : StoredEvent F) : Bool :=
  let time (e : StoredEvent F) : Int := (planes.parseTsMs e.ts).getD (-2 ^ 63)
  time a < time b || time a == time b && a.id ≤ b.id

def timelineAnswer (events : List (StoredEvent F)) : Answer F :=
  .rows ((events.mergeSort (timelineLe planes)).map fun e =>
      ⟨.bus, Text.decimal e.id, Label.timeline, e.toJson⟩)
    (if timelineCap ≤ events.length then some Words.timelineCapped else none)

def similarAnswer (q : Questions) (events : List (StoredEvent F)) : Answer F :=
  .rows (events.map fun e =>
      ⟨.bus, Text.decimal e.id,
        if filedUnder e.eventType e.agentId e.data = q.subject then Label.similarSameSubject
        else Label.similarOtherSubject,
        e.toJson⟩)
    none

/-- The three sections the console's own store answers. -/
def storeSections (event : StoredEvent F) (q : Questions) : List (Section × Answer F) :=
  [(.event, one ⟨.bus, Text.decimal event.id, Label.event, event.toJson⟩),
    (.runTimeline,
      match q.runId with
      | none => .notAsked Words.noRun
      | some run => answerOf (planes.bus.eventsForRun run timelineCap) (timelineAnswer planes)),
    (.similarIncidents,
      answerOf (planes.bus.similarEvents q.eventType q.eventId similarLimit) (similarAnswer q))]

/-- The identities that act through an identity. -/
def delegatesOf (me : Identity F) (all : List (Identity F)) : List Text :=
  ((all.filter fun i => i.id != me.id && i.onBehalfOf.elem me.id).map Identity.id).mergeSort
    fun a b => a ≤ b

/-- What an identity can reach, computed from idryx's own records. -/
def blastRadius (me : Identity F) (all : List (Identity F)) (alerts : Nat) : Value F :=
  let delegates := delegatesOf me all
  objectOf [("identity".toList, .string me.id), ("identity_type".toList, .string me.identityType),
    ("privileged".toList, .bool me.privileged),
    ("permissions".toList, usize me.permissions.length),
    ("admin_permissions".toList, usize (me.permissions.countP (·.admin))),
    ("unused_permissions".toList, usize (me.permissions.countP (!·.used))),
    ("delegated_by".toList, .array (me.onBehalfOf.map .string)),
    ("delegates_to".toList, .array ((delegates.take blastListCap).map .string)),
    ("delegates_to_total".toList, usize delegates.length),
    ("alerts".toList, usize alerts)]

/-- The runs table: the budgets are those of the budget map, or where it could not be read
those of the alerts. -/
def moneyRuns (money : MoneyPlane F) : Except Text (List (RunDto F)) :=
  let known : List (Text × Int) × Bool :=
    match money.budgets with
    | .ok budgets => (budgets, true)
    | .error _ =>
        match money.alerts with
        | .ok alerts => (alerts, false)
        | .error _ => ([], false)
  money.runs.map fun runs => runs.map fun r =>
    -- The last entry of a run is the one a hash map keeps.
    { runId := r.runId
      budgetUsd := (known.1.reverse.lookup r.runId).map money.microsToUsd
      budgetsRead := known.2
      rest := r.rest }

def spendAnswer (run : Text) : Answer F :=
  answerOf (moneyRuns planes.money) fun runs =>
    match runs.find? fun r => r.runId == run with
    | none => nothing
    | some r => one ⟨.tokenfuse, r.runId, Label.spend, r.toJson⟩

/-- The record of an agent in the list of identities. -/
def findIdentity (identities : List (Identity F)) (agent : Text) : Option (Identity F) :=
  identities.find? fun i => i.id == agent

/-- The alerts on an agent. -/
def alertsOn (alerts : List (Alert F)) (agent : Text) : List (Alert F) :=
  alerts.filter fun a => a.identity == agent

/-- The rows of an identity record and of its alerts. -/
def identityRows (me : Identity F) (alerts : List (Alert F)) : List (Row F) :=
  ⟨.idryx, me.id, Label.identity, me.toJson⟩ :: alerts.map fun a =>
    ⟨.idryx, a.detector ++ ':' :: a.time, Label.identityAlert, a.toJson⟩

/-- The answers about an agent's identity and what it can reach. -/
def identityAnswers (agent : Text) : Answer F × Answer F :=
  match planes.identity.identities with
  | .error reason => (.unavailable reason, .unavailable reason)
  | .ok identities =>
      match findIdentity identities agent with
      | none => (nothing, nothing)
      | some me =>
          let read : List (Alert F) × Option Text :=
            match planes.identity.alerts with
            | .ok alerts => (alertsOn alerts agent, none)
            | .error _ => ([], some Words.alertsUnread)
          (.rows (identityRows me read.1) read.2,
            one ⟨.idryx, me.id ++ "#blast_radius".toList, Label.blastRadius,
              blastRadius me identities read.1.length⟩)

def policyAnswer : Answer F :=
  answerOf planes.policy.status fun status =>
    one ⟨.wardryx, status.policyVersion, Label.policy, status.toJson⟩

def decisionsAnswer (run : Text) : Answer F :=
  answerOf planes.policy.approvals fun approvals =>
    .rows ((approvals.filter fun a => a.runId == run).map fun a =>
      ⟨.wardryx, a.approvalId, Label.decision, a.toJson⟩) none

def rulingsQuery (eventType : Text) : Text := "decision about ".toList ++ eventType

def rulingsAnswer (eventType : Text) : Answer F :=
  answerOf (planes.memory.recalled (rulingsQuery eventType) rulingsLimit) fun memories =>
    .rows (memories.map fun m => ⟨.engram, m.id, Label.ruling, m.toJson⟩) none

/-- A question about the run, if it can be asked. -/
def aboutRun (q : Questions) (sec : Section) (asked : Text → Answer F) : Answer F :=
  match q.reasonFor sec with
  | some reason => .notAsked reason
  | none =>
      match q.runId with
      | some run => asked run
      | none => .notAsked Words.noRun

/-- The answers about the subject, which is asked about only if it is an agent. -/
def aboutAgent (q : Questions) : Answer F × Answer F :=
  match q.agent with
  | some agent => identityAnswers planes agent
  | none =>
      (.notAsked ((q.reasonFor .identity).getD Words.filedUnderAKey),
        .notAsked ((q.reasonFor .blastRadius).getD Words.filedUnderAKey))

/-- Every answer of a case. -/
def gather (event : StoredEvent F) (q : Questions) : List (Section × Answer F) :=
  storeSections planes event q ++
    [(.spend, aboutRun q .spend (spendAnswer planes)), (.identity, (aboutAgent planes q).1),
      (.blastRadius, (aboutAgent planes q).2), (.policy, policyAnswer planes),
      (.decisions, aboutRun q .decisions (decisionsAnswer planes)),
      (.priorRulings, rulingsAnswer planes q.eventType)]

/-- The event an incident id names. -/
def eventOf (incidentId : Text) : Except CaseError (StoredEvent F) :=
  match eventIdOf incidentId with
  | .error e => .error e
  | .ok eventId =>
      match planes.bus.opened with
      | .error reason => .error (.noStore reason)
      | .ok () =>
          match planes.bus.eventById eventId with
          | .error reason => .error (.noStore reason)
          | .ok none => .error (.notFound eventId)
          | .ok (some event) => .ok event

/-- Assemble the case for one incident. -/
def caseFile (D : Digester F) (incidentId : Text) : Except CaseError (CaseFile F) :=
  (eventOf planes incidentId).map fun event =>
    let q := questionsFor event
    assemble D ⟨incidentId, q.subject, q.claimedAgent, q.runId⟩ (gather planes event q)

end Genaryx.Case
