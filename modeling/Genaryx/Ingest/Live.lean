import Genaryx.Base.Broadcast
import Genaryx.Core.Queries
import Genaryx.Ingest.Cycle

/-!
# The live rows

A panel shows an event in one shape, whether it was read from the store or arrived on the live
stream. The tailer polls its service and hands each event that the service announces, with a
number of its own, to the channel that the pages of the console read.

## Implementation notes

The numbers of the live rows count down from -1 and are integers here. The pages of the console
are told apart by a number that the console does not know.
-/

namespace Genaryx.Ingest

open Base Genaryx.Core

variable {F : Type}

/-- A row of the event table with every column that a panel is given. -/
structure StoredRow (F : Type) extends StoredEvent F where
  id : Nat
  env : Text
  severity : Option Text
  schema : Text
  prevHash : Option Text
  raw : Text
  file : Option Text
  off : Option Nat

/-- The row that an event was stored as, under the number that the table gave it. -/
def storedRow [DecidableEq F] (E : Engine F) (id : Nat) (e : ConsoleEvent F) :
    Except Error (StoredRow F) :=
  match E.storedEventFromRow e with
  | .ok columns => .ok {
      columns with
      id := id
      env := e.provenance.env
      severity := e.event.severity
      schema := e.event.schema
      prevHash := e.event.prevHash
      raw := e.raw
      file := e.provenance.file
      off := e.provenance.offset }
  | .error err => .error err

/-- One event as a panel shows it. -/
@[ext]
structure UiEvent (F : Type) where
  id : Int
  env : Text
  ts : Text
  source : Text
  eventType : Text
  agentId : Text
  runId : Option Text
  severity : Option Text
  schema : Text
  onBehalfOf : List Text
  data : Option (Json.Value F)
  prevHash : Option Text
  raw : Text
  file : Option Text
  off : Option Nat

namespace UiEvent

/-- `From<StoredEvent>` -/
def ofStored (e : StoredRow F) : UiEvent F where
  id := e.id
  env := e.env
  ts := e.ts
  source := e.source
  eventType := e.eventType
  agentId := e.agentId
  runId := e.runId
  severity := e.severity
  schema := e.schema
  onBehalfOf := e.onBehalfOf
  data := e.data
  prevHash := e.prevHash
  raw := e.raw
  file := e.file
  off := e.off

/-- `From<ConsoleEvent>`, with the number that the event is given. -/
def ofConsole (id : Int) (e : ConsoleEvent F) : UiEvent F where
  id := id
  env := e.provenance.env
  ts := e.event.ts
  source := e.event.source
  eventType := e.event.eventType
  agentId := e.event.agentId
  runId := e.event.runId
  severity := e.event.severity
  schema := e.event.schema
  onBehalfOf := e.event.onBehalfOf
  data := e.event.data
  prevHash := e.event.prevHash
  raw := e.raw
  file := e.provenance.file
  off := e.provenance.offset

end UiEvent

/-- How many announced events the service holds for its receivers. -/
def broadcastCapacity : Nat := 1024

/-- How many live rows the console holds for its pages. -/
def eventsCapacity : Nat := 512

/-- What the tailer is about. The poll at the start of the process seeds the store, and its events
stay in the channel until the next poll. -/
inductive Phase
  | starting
  | failed
  | seeded
  | draining
  | idle
  deriving DecidableEq

/-- The first poll ends the start of the process, or the feed. A later one is drained if it
returned `Ok`. -/
def Phase.after (phase : Phase) (ok : Bool) : Phase :=
  match phase with
  | .starting => if ok then .seeded else .failed
  | phase => if ok then .draining else phase

/-- A console process with its bus. `inherited` is what the store held when the process started,
and `unannounced` what cycles stored that failed before they announced it. -/
structure Bus (F : Type) where
  service : IngestService F
  phase : Phase := .starting
  channel : Channel (ConsoleEvent F) := ⟨broadcastCapacity, []⟩
  feeder : Receiver (ConsoleEvent F) := ⟨0, 0, [], 0⟩
  nextLiveId : Int := -1
  hub : Channel (UiEvent F) := ⟨eventsCapacity, []⟩
  pages : Nat → Option (Receiver (UiEvent F)) := fun _ => none
  inherited : List (ConsoleEvent F) := service.store.events
  unannounced : List (ConsoleEvent F) := []

/-- What happens to the process: a source is taken up, the tailer polls or looks into its channel,
a page opens the stream, reads from it or leaves, and the process is started anew over the events
that retention keeps. -/
inductive BusAction (F : Type)
  | addFileSource (disk : Disk) (id : Text) (path : FilePath)
  | addPinnedFileSource (disk : Disk) (id : Text) (path : FilePath) (source : Text)
  | poll (out : Outside)
  | drain
  | connect (page : Nat)
  | read (page : Nat)
  | leave (page : Nat)
  | restart (keeps : ConsoleEvent F → Bool)

namespace Bus

variable (sha256Hex : Bytes → Text)

/-- One cycle of the service. -/
def poll (out : Outside) (w : Bus F) : Bus F :=
  let polled := w.service.pollOnce sha256Hex out
  { w with
    service := polled.service
    phase := w.phase.after polled.outcome.isOk
    channel := w.channel.sendAll polled.sent
    unannounced := if polled.outcome.isOk then w.unannounced
      else w.unannounced ++ polled.service.store.events.drop w.service.store.events.length }

/-- One turn of `drain_and_emit`. -/
def drain (w : Bus F) : Bus F :=
  match w.channel.tryRecv w.feeder with
  | (.empty, feeder) => { w with feeder := feeder, phase := .idle }
  | (.lagged _, feeder) => { w with feeder := feeder }
  | (.value e, feeder) =>
      { w with
        feeder := feeder
        nextLiveId := w.nextLiveId - 1
        hub := w.hub.send (UiEvent.ofConsole w.nextLiveId e) }

/-- A new process over a store. -/
def start (parseValid : Text → Except ConformReport (AgentEvent F)) (env : Text) (store : Store F) :
    Bus F where
  service := ⟨store, parseValid, env, [], ∅⟩

def setPage (page : Nat) (r : Option (Receiver (UiEvent F))) (w : Bus F) : Bus F :=
  { w with pages := Function.update w.pages page r }

/-- The thread that owns the service is between two cycles. -/
def canPoll (w : Bus F) : Bool := w.phase ≠ .failed && w.phase ≠ .draining

/-- One step, if it is possible. A page that has read everything waits. -/
def step (w : Bus F) : BusAction F → Option (Bus F)
  | .addFileSource disk id path =>
      if w.canPoll then
        some { w with service := w.service.addFileSource sha256Hex disk id path }
      else none
  | .addPinnedFileSource disk id path source =>
      if w.canPoll then
        some { w with service := w.service.addPinnedFileSource sha256Hex disk id path source }
      else none
  | .poll out => if w.canPoll then some (w.poll sha256Hex out) else none
  | .drain => if w.phase = .draining then some w.drain else none
  | .connect page =>
      match w.pages page with
      | none => some (w.setPage page (some w.hub.subscribe))
      | some _ => none
  | .read page =>
      match w.pages page with
      | none => none
      | some r =>
          match w.hub.tryRecv r with
          | (.empty, _) => none
          | (_, r) => some (w.setPage page (some r))
  | .leave page => some (w.setPage page none)
  | .restart keeps =>
      some (start w.service.parseValid w.service.env
        { w.service.store with events := w.service.store.events.filter keeps })

end Bus

end Genaryx.Ingest
