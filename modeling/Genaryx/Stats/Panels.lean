import Genaryx.Stats.Vocabulary

/-!
# The two views of stops

The list of one agent's stops, and the counts of every agent over a window. Both read the
console's store, and say so when they could not.

## Implementation notes

The rows of a panel's agents are the entries of an ordered map. Opening the store and each
query may be refused.
-/

namespace Genaryx.Stats

open Base Json Genaryx.Core Std

variable {F : Type}

/-- Which queries of the store are refused. -/
structure QueryFaults where
  counts : Option Text := none
  details : Option Text := none
  span : Bool := false
  undated : Bool := false

/-- The event store as a panel finds it. -/
inductive EventStore (F : Type)
  | absent
  | refused (message : Text)
  | opened (store : Store F) (faults : QueryFaults)

/-- The answer of a query, or its refusal. -/
def queried {α : Type} (fault : Option Text) (answer : Except Error α) : Except Error α :=
  match fault with
  | some message => .error (.store message)
  | none => answer

/-- What the panels use beside the store: the debug form of a text, the values of doubles, and
the clock. -/
structure Host (F : Type) extends Engine F where
  debug : Text → Text
  double : F → ℚ
  msToRfc3339 : Int → Text
  nowMs : Int

/-- What amounts in dollars come to in this process. -/
def Host.usdOvershoot (H : Host F) : Number F → Number F → Int := Stats.usdOvershoot H.double

/-- One time an agent was stopped. -/
structure StopEntry where
  ts : Text
  eventType : Text
  source : Text
  actor : Option Text
  reason : Option Text
  byOperator : Bool
  deriving DecidableEq

structure StopsPanel where
  measured : Bool
  note : Option Text
  total : Nat := 0
  byOperator : Nat := 0
  entries : List StopEntry := []
  deriving DecidableEq

/-- Whether a row is a stop of an agent: filed under it, or a console block that halted it. -/
def isStopOf (agentId : Text) (e : EventDetail F) : Bool :=
  if e.eventType = consoleCommand then agentId ∈ agentsHaltedBy e.data
  else e.filedUnder = agentId

/-- The person that a row names. -/
def actorOf (data : Option (Value F)) : Option Text :=
  nonblank ((field data "actor").or ((field data "decided_by").or (field data "operator")))

def reasonOf (data : Option (Value F)) : Option Text :=
  reasonKeys.findSome? fun key => nonblank (field data key)

def stopEntry (e : EventDetail F) : StopEntry where
  ts := e.ts
  eventType := e.eventType
  source := e.source
  actor := actorOf e.data
  reason := reasonOf e.data
  byOperator := e.eventType = consoleCommand || isOperatorStop e.eventType e.data ||
    (actorOf e.data).isSome

/-- The types that the list of stops reads. -/
def stopTypes : List Text := blockedTypes ++ [consoleCommand]

def stopsNote (total byOperator : Nat) : Text :=
  Text.decimal total ++ " stop(s) on the bus for this agent, ".toList ++
    Text.decimal byOperator ++ " of them named a person.".toList ++
      " An operator FREEZE is enforced as an ordinary deny-all policy, so the refusals that follow it arrive as plain policy_deny and are listed on the system side: the freeze itself is here, its consequences are not attributed to it.".toList

def StopsPanel.unmeasured (note : Text) : StopsPanel := { measured := false, note := some note }

section Panels

variable [DecidableEq F] (H : Host F)

/-- When, why and by whom an agent was stopped, newest first. -/
def agentStops (agentId : Text) (limit : Nat) : EventStore F → StopsPanel
  | .absent => .unmeasured
      "The console has no event store on this box, so nothing here was read.              This is not a report that this agent was never stopped."
  | .refused message => .unmeasured <| "The event store could not be opened (" ++ message ++
      "), so nothing here was read.                  This is not a report that this agent was never stopped.".toList
  | .opened store faults =>
      match queried faults.details
          (H.eventsOfTypesSince stopTypes [] none (max limit 1) store) with
      | .error e => .unmeasured <| "The event store could not be queried (" ++ e.display H.debug ++
          "), so nothing here was read.                  This is not a report that this agent was never stopped.".toList
      | .ok rows =>
          let entries := ((rows.filter (isStopOf agentId)).map stopEntry).mergeSort
            fun a b => b.ts ≤ a.ts
          let byOperator := entries.countP StopEntry.byOperator
          { measured := true
            note := some (stopsNote entries.length byOperator)
            total := entries.length
            byOperator := byOperator
            entries := entries }

end Panels

/-- One agent's counts. -/
structure AgentStats where
  agentId : Text
  blocked : Nat := 0
  blockedByOperator : Nat := 0
  anomalies : Nat := 0
  budgetEvents : Nat := 0
  worstOvershootMicrousd : Option Int := none
  byType : TreeMap Text Nat := ∅
  byDetector : TreeMap Text Nat := ∅
  lastSeen : Text := []

namespace AgentStats

/-- The row of an agent that nothing was counted for yet. -/
def new (agentId : Text) : AgentStats := { agentId := agentId }

/-- One more count under a name. -/
def addTo (counts : TreeMap Text Nat) (name : Text) (n : Nat) : TreeMap Text Nat :=
  bump (fun _ => 0) counts name (· + n)

/-- Pass one: the count of one type. -/
def addCount (c : AgentTypeCount) (a : AgentStats) : AgentStats :=
  { a with
    byType := addTo a.byType c.eventType c.count
    blocked := if c.eventType ∈ blockedTypes then a.blocked + c.count else a.blocked
    anomalies := if c.eventType ∈ anomalyTypes then a.anomalies + c.count else a.anomalies
    budgetEvents := if c.eventType ∈ budgetTypes then a.budgetEvents + c.count
      else a.budgetEvents
    lastSeen := if a.lastSeen < c.lastTs then c.lastTs else a.lastSeen }

/-- Pass two: what the data of one row says. -/
def describe (usdOvershoot : Number F → Number F → Int) (e : EventDetail F) (a : AgentStats) :
    AgentStats :=
  { a with
    blockedByOperator := if operatorStopped e then a.blockedByOperator + 1
      else a.blockedByOperator
    byDetector := match if e.eventType = identityFinding then
        nonblank (field e.data "detector") else none with
      | some detector => addTo a.byDetector detector 1
      | none => a.byDetector
    worstOvershootMicrousd := match e.data.bind (overshootOf usdOvershoot) with
      | some exceeded => some (max (a.worstOvershootMicrousd.getD 0) exceeded)
      | none => a.worstOvershootMicrousd }

/-- An operator's stop of the agent. -/
def halted (a : AgentStats) : AgentStats :=
  { a with blocked := a.blocked + 1, blockedByOperator := a.blockedByOperator + 1 }

end AgentStats

/-- The rows of every agent, from the counts and from the detailed rows. -/
def tally (usdOvershoot : Number F → Number F → Int) (counts : List AgentTypeCount)
    (rows : List (EventDetail F)) : TreeMap Text AgentStats :=
  let counted : TreeMap Text AgentStats := counts.foldl
    (fun m c => bump .new m c.agentId (AgentStats.addCount c)) ∅
  let described := rows.foldl
    (fun m e => bump .new m e.filedUnder (AgentStats.describe usdOvershoot e)) counted
  (rows.flatMap halts).foldl (fun m agent => bump .new m agent AgentStats.halted) described

structure StatsPanel where
  measured : Bool
  note : Option Text
  scanned : Nat := 0
  detailScanned : Nat := 0
  detailTruncated : Bool := false
  windowDays : UInt32 := 0
  historyFrom : Option Text := none
  undated : Nat := 0
  agents : List AgentStats := []

def StatsPanel.unmeasured (note : Text) : StatsPanel := { measured := false, note := some note }

def dayMs : Int := 86400000

/-- What the note says about how far back the store reaches. -/
def historyNote (windowDays : UInt32) (oldestMs : Option Int) (nowMs : Int)
    (msToRfc3339 : Int → Text) : Text :=
  match oldestMs with
  | none => " This box holds no dated events yet."
  | some oldest =>
      let daysHeld := (max (nowMs - oldest) 0 / dayMs).toNat
      let short : Text := if 0 < windowDays ∧ daysHeld < windowDays.toNat then
          " The window is longer than the history, so this is everything there is, not a quiet period."
        else []
      " This box holds " ++ Text.decimal daysHeld ++ " day(s) of history, from ".toList ++
        msToRfc3339 oldest ++ ".".toList ++ short

/-- The sentence under the number. -/
def windowNote (windowDays : UInt32) (scanned : Nat) (oldestMs : Option Int) (undated : Nat)
    (nowMs : Int) (detailCapped : Option Nat) (msToRfc3339 : Int → Text) : Text :=
  let window : Text := if windowDays = 0 then
      "Counted from all " ++ Text.decimal scanned ++ " event(s) on the bus, of any age.".toList
    else
      "Counted from all " ++ Text.decimal scanned ++ " event(s) in the last ".toList ++
        Text.decimal windowDays.toNat ++ " day(s), by each event's own timestamp.".toList
  let clockless : Text := if 0 < undated then
      " " ++ Text.decimal undated ++
        " stored event(s) carry a timestamp this build cannot read and are in no window; a number that climbs means a producer's clock format changed.".toList
    else []
  let capped : Text := match detailCapped with
    | some rows =>
        " The counts above are complete. The columns that need each event's own detail (which detector fired, the budget amounts, who halted whom) were read from the " ++
          Text.decimal rows ++
            " most recent such events and may understate a longer window.".toList
    | none => []
  window ++ historyNote windowDays oldestMs nowMs msToRfc3339 ++ clockless ++ capped

section Panels

variable [DecidableEq F] (H : Host F)

/-- The cutoff of a window, with none for the whole store. -/
def cutoffOf (windowDays : UInt32) : Option Int :=
  if 0 < windowDays then some (H.nowMs - windowDays.toNat * dayMs) else none

/-- The counts of every agent over a window. -/
def statsCounts (detailScan : Nat) (windowDays : UInt32) : EventStore F → StatsPanel
  | .absent => .unmeasured
      "The console has no event store on this box, so nothing here was counted. This is not a report that your agents were never stopped."
  | .refused message => .unmeasured <| "The event store could not be opened (" ++ message ++
      "), so nothing here was counted. This is not a report that your agents were never stopped.".toList
  | .opened store faults =>
      let unqueried := fun e : Error => StatsPanel.unmeasured <|
        "The event store could not be queried (" ++ e.display H.debug ++
          "), so nothing here was counted. This is not a report that your agents were never stopped.".toList
      let cutoff := cutoffOf H windowDays
      match queried faults.counts (H.typeCountsSince cutoff store) with
      | .error e => unqueried e
      | .ok counts =>
          match queried faults.details
              (H.eventsOfTypesSince detailTypes amountFields cutoff detailScan store) with
          | .error e => unqueried e
          | .ok rows =>
              let oldestMs := if faults.span then none else (H.tsSpan store).map Prod.fst
              let undated := if faults.undated then 0 else H.undatedCount store
              let scanned := (counts.map AgentTypeCount.count).sum
              let truncated := 0 < detailScan && detailScan ≤ rows.length
              { measured := true
                note := some (windowNote windowDays scanned oldestMs undated H.nowMs
                  (if truncated then some rows.length else none) H.msToRfc3339)
                scanned := scanned
                detailScanned := rows.length
                detailTruncated := truncated
                windowDays := windowDays
                historyFrom := oldestMs.map H.msToRfc3339
                undated := undated
                agents := (tally H.usdOvershoot counts rows).toList.map Prod.snd }

end Panels

/-- The row of an agent in a panel, which has nothing counted if it is not there. -/
def StatsPanel.agent (p : StatsPanel) (agentId : Text) : AgentStats :=
  (p.agents.find? fun a => a.agentId = agentId).getD (.new agentId)

end Genaryx.Stats
