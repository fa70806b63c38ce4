import Genaryx.Command.Journal
import Genaryx.Core.Conform
import Genaryx.Ingest.Pinned
import Genaryx.Stats.Totals

/-!
# An operator's block in the two views

A block that wardryx accepted is journaled as one line, which is ingested as one event. The
line does not name the agents that were blocked, so the views show the halt only where the
blocked entity is itself the one agent.

## Implementation notes

A run holds one block on its way from the command to the store, with everything it meets.
-/

namespace Genaryx.Stats

open Base Json Genaryx.Core Command Lifecycle Ingest

variable {F : Type}

/-- A block that was accepted, journaled and ingested. -/
structure HaltRun (H : Host F) (K : Conformer H.codec.toCodec) (sha256 : Bytes → Bytes)
    (sha256Hex : Bytes → Text) where
  kind : Text
  key : Text
  members : List Text
  members_ne : members ≠ []
  members_agent : ∀ m ∈ members, Text.startsWith m "agent://" = true
  plan : Plan
  box : Box
  box' : Box
  action : ConsoleAction
  accepted : applyBlock plan kind key true members box = (.ok action, box')
  ambient : Ambient
  faults : JournalFaults
  ts : Text
  bus : CommandBus F
  bus' : CommandBus F
  journaled : journalAction H.codec.toCodec sha256 H.debug ambient faults ts (some bus) action =
    ((true, none), some bus')
  record : RawRecord
  written : bus'.written = bus.written ++ [record.raw]
  service : IngestService F
  conforms : service.parseValid = K.parseValid
  outside : Outside
  connector : Text
  nth : Nat
  before : Store F
  readable : before.Readable
  cycle : Ingest.Cycle F
  processed : service.processRecord outside connector nth { store := before } record =
    (.ok (), cycle)
  after : Store F
  inserted : cycle.store.insertBatch sha256Hex none cycle.validEvents = (.ok 1, after)

/-- Every block is journaled as an action that halts. -/
theorem blockAction_mem (kind : Text) : blockAction kind true ∈ operatorBlockActions := by
  unfold blockAction
  split
  · decide
  · split <;> decide

/-- What is journaled of an accepted block. -/
theorem action_of_applyBlock {plan : Plan} {kind key : Text} {members : List Text}
    {box box' : Box} {action : ConsoleAction}
    (h : applyBlock plan kind key true members box = (.ok action, box')) :
    ∃ affected, action = journalBlock kind key true affected members := by
  unfold applyBlock at h
  dsimp only at h
  split at h
  · cases h
  · next affected _ _ =>
      cases h
      exact ⟨affected, rfl⟩

/-- A line that is ingested is stored as the event it is parsed as. -/
theorem exists_event_of_ingested {sha256Hex : Bytes → Text} {svc : IngestService F}
    {out : Outside} {connector : Text} {i : Nat} {before after : Store F} {record : RawRecord}
    {cycle : Ingest.Cycle F}
    (hprocessed : svc.processRecord out connector i { store := before } record = (.ok (), cycle))
    (hinserted : cycle.store.insertBatch sha256Hex none cycle.validEvents = (.ok 1, after)) :
    ∃ e : ConsoleEvent F, svc.parseValid record.raw = .ok e.event ∧
      after.events = before.events ++ [e] := by
  have hparsed := svc.parsed_processRecord out connector i (c := { store := before }) record
    fun e he => absurd he List.not_mem_nil
  have hstep := svc.processRecord_step out connector i { store := before } record
  rw [hprocessed] at hparsed hstep
  dsimp only at hparsed hstep
  cases hstep with
  | batched e haccepts he =>
      have hbatch : (({ store := before } : Ingest.Cycle F).noted record |>.batched e).validEvents = [e] :=
        rfl
      have hevent := hparsed e (hbatch ▸ List.mem_singleton_self e)
      rw [IngestService.Parsed, he.2.2.2] at hevent
      refine ⟨e, hevent, ?_⟩
      rw [hbatch, Store.insertBatch, if_neg (by simp), Store.insertEvents, Store.insertEvent]
        at hinserted
      split at hinserted
      · cases hinserted
      · cases hinserted
        rfl
  | quarantined q haccepts hq => cases hinserted

section Data

variable (rec : CommandRecord F)

theorem get_commandData_action : (commandData rec).get "action" = some (.string rec.action) :=
  lookup_ofMembers_append_cons [] "action" _ (by simp)

theorem get_commandData_target : (commandData rec).get "target" = some (.string rec.target) :=
  lookup_ofMembers_append_cons [("action", .string rec.action)] "target" _ (by simp)

/-- The envelope of a command has no members. -/
theorem get_commandData_members : (commandData rec).get "members" = none :=
  lookup_ofMembers_of_notMem (by simp)

/-- The line of a command is parsed as its type and its data. -/
theorem event_of_parseValid {C : Codec F recursionLimit} {K : Conformer C}
    {rec : CommandRecord F} {orgDomain host ts : Text} {prevHash : Option Text} {e : AgentEvent F}
    (h : K.parseValid (consoleCommandLine C orgDomain host rec ts prevHash) = .ok e) :
    e.eventType = consoleCommand ∧ e.data = some (commandData rec) := by
  have hplain := plain_commandValue orgDomain host rec ts prevHash
  have hvalue := K.ofValue_of_parseValid hplain.ordered hplain.integer
    (hplain.mono (by decide)).depth_le h
  have htype := AgentEvent.eventType_ofValue hvalue
  have hdata := AgentEvent.data_ofValue hvalue
  rw [AgentEvent.requiredText, get_commandValue_type] at htype
  rw [AgentEvent.dataOf, get_commandValue_data] at hdata
  exact ⟨(Option.some.inj htype).symm, hdata⟩

end Data

namespace HaltRun

variable [DecidableEq F] {H : Host F} {K : Conformer H.codec.toCodec} {sha256 : Bytes → Bytes}
  {sha256Hex : Bytes → Text} (r : HaltRun H K sha256 sha256Hex)

/-- The panel of an agent's counts over the whole store. -/
def statsOf (H : Host F) (detailScan : Nat) (s : Store F) (agentId : Text) : AgentStats :=
  (statsCounts H detailScan 0 (.opened s {})).agent agentId

/-- Both views show the halt: one more operator stop of every blocked agent, and nothing more
of any other. -/
structure ShowsHalt (limit detailScan : Nat) : Prop where
  listed : ∀ m ∈ r.members,
    (agentStops H m limit (.opened r.after {})).byOperator =
      (agentStops H m limit (.opened r.before {})).byOperator + 1
  blocked : ∀ a, (statsOf H detailScan r.after a).blocked =
    (statsOf H detailScan r.before a).blocked + if a ∈ r.members then 1 else 0
  blockedByOperator : ∀ a, (statsOf H detailScan r.after a).blockedByOperator =
    (statsOf H detailScan r.before a).blockedByOperator + if a ∈ r.members then 1 else 0

/-- The blocked entity is itself the one agent, the detailed rows are read at all, and no
operator stop is pushed out of the rows that are read. -/
structure NamesItself (limit detailScan : Nat) : Prop where
  itself : ∀ m ∈ r.members, m = r.key
  detailed : 0 < detailScan
  stops_kept : ∀ e, pushedOut (max limit 1) (stopRows H r.before) = some e →
    operatorStopOf r.key e = false
  details_kept : ∀ e, pushedOut detailScan (detailRows H 0 r.before) = some e →
    halts e = [] ∧ operatorStopped e = false

/-- The agents that the views read from the line of the block. -/
def named : List Text := if Text.startsWith r.key "agent://" then [r.key] else []

omit [DecidableEq F] in
/-- The event of a block is stored with the data of its command. -/
theorem exists_event : ∃ (e : ConsoleEvent F) (rec : CommandRecord F),
    r.after.events = r.before.events ++ [e] ∧ e.event.eventType = consoleCommand ∧
      e.event.data = some (commandData rec) ∧ rec.action ∈ operatorBlockActions ∧
        rec.target = r.key := by
  obtain ⟨affected, haction⟩ := action_of_applyBlock r.accepted
  obtain ⟨prevHash, hwritten⟩ := written_of_journalAction r.journaled
  rw [r.written, List.append_cancel_left_eq] at hwritten
  obtain ⟨e, hparse, hevents⟩ := exists_event_of_ingested r.processed r.inserted
  rw [r.conforms, List.singleton_inj.mp hwritten] at hparse
  obtain ⟨htype, hdata⟩ := event_of_parseValid hparse
  refine ⟨e, _, hevents, htype, hdata, ?_, ?_⟩
  · rw [haction]
    exact blockAction_mem r.kind
  · rw [haction]
    rfl

omit [DecidableEq F] in
theorem named_nodup : r.named.Nodup := by
  unfold named
  split
  · exact List.nodup_singleton _
  · exact List.nodup_nil

omit [DecidableEq F] in
/-- The store stays readable, and its newest row is the block, which names the entity only. -/
theorem exists_detail : r.after.Readable ∧ ∃ e : ConsoleEvent F,
    r.after.events = r.before.events ++ [e] ∧ e.event.eventType = consoleCommand ∧
      halts (H.detail e) = r.named := by
  obtain ⟨e, rec, hevents, htype, hdata, haction, htarget⟩ := r.exists_event
  refine ⟨?_, e, hevents, htype, ?_⟩
  · have hplain := plain_commandData rec
    rw [Store.Readable, hevents, List.forall_mem_append, List.forall_mem_singleton, hdata]
    refine ⟨r.readable, fun v hv => ?_⟩
    obtain rfl := Option.some.inj hv
    exact ⟨hplain.ordered, (hplain.mono (by decide)).depth_le⟩
  · have hfield : ∀ key, field (H.detail e).data key =
        ((commandData rec).get key).map (Value.mapNumbers H.codec.reread) := by
      intro key
      rw [Engine.detail, hdata, field, Option.map_some, Option.bind_some, Value.get_mapNumbers]
    have hcommand : (H.detail e).eventType = consoleCommand := htype
    rw [halts, if_pos hcommand, named, ← htarget]
    refine agentsHaltedBy_of_no_members ?_ haction ?_ ?_
    · rw [hfield, get_commandData_action]
      rfl
    · rw [hfield, get_commandData_members]
      rfl
    · rw [hfield, get_commandData_target]
      rfl

/-- What the block changes in the list of an agent's stops. -/
theorem byOperator_after (limit : Nat) (agentId : Text) :
    (agentStops H agentId limit (.opened r.after {})).byOperator +
        (pushedOut (max limit 1) (stopRows H r.before)).toList.countP (operatorStopOf agentId) =
      (agentStops H agentId limit (.opened r.before {})).byOperator + r.named.count agentId := by
  obtain ⟨hreadable, e, hevents, htype, hhalts⟩ := r.exists_detail
  have hrows := stopRows_append (H := H) hevents (htype ▸ by decide)
  have hnew : [H.detail e].countP (operatorStopOf agentId) = r.named.count agentId := by
    have hcommand : (H.detail e).eventType = consoleCommand := htype
    have hstop : operatorStopOf agentId (H.detail e) = decide (agentId ∈ r.named) := by
      rw [halts, if_pos hcommand] at hhalts
      rw [operatorStopOf, stopEntry, isStopOf, if_pos hcommand, hhalts, decide_eq_true hcommand]
      rfl
    rw [List.countP_singleton, hstop, r.named_nodup.count]
    simp only [decide_eq_true_eq]
  rw [byOperator_agentStops hreadable, byOperator_agentStops r.readable, hrows,
    ← List.countP_append, newest_cons (by omega), ← List.singleton_append, List.countP_append,
    hnew, Nat.add_comm]

omit [DecidableEq F] in
/-- The block itself is not counted as a service's stop. -/
theorem countP_after {e : ConsoleEvent F} (agentId : Text)
    (htype : e.event.eventType = consoleCommand)
    (hevents : r.after.events = r.before.events ++ [e]) :
    (r.after.events.filter (H.inWindow (cutoffOf H 0))).countP (fun e =>
      e.subject = agentId && e.event.eventType ∈ blockedTypes) =
        (r.before.events.filter (H.inWindow (cutoffOf H 0))).countP fun e =>
          e.subject = agentId && e.event.eventType ∈ blockedTypes := by
  rw [hevents, List.filter_append, List.countP_append, Nat.add_eq_left]
  refine List.countP_eq_zero.mpr fun x hx => ?_
  rw [List.mem_singleton.mp (List.mem_of_mem_filter hx), htype,
    decide_eq_false consoleCommand_notMem_blockedTypes, Bool.and_false]
  exact Bool.false_ne_true

/-- What the block changes in an agent's counts. -/
theorem statsOf_after {detailScan : Nat} (h : 0 < detailScan) (agentId : Text) :
    (statsOf H detailScan r.after agentId).blocked +
        ((pushedOut detailScan (detailRows H 0 r.before)).toList.flatMap halts).count agentId =
      (statsOf H detailScan r.before agentId).blocked + r.named.count agentId ∧
    (statsOf H detailScan r.after agentId).blockedByOperator +
        (((pushedOut detailScan (detailRows H 0 r.before)).toList.countP fun e =>
          operatorStopped e && e.filedUnder = agentId) +
        ((pushedOut detailScan (detailRows H 0 r.before)).toList.flatMap halts).count agentId) =
      (statsOf H detailScan r.before agentId).blockedByOperator + r.named.count agentId := by
  obtain ⟨hreadable, e, hevents, htype, hhalts⟩ := r.exists_detail
  obtain ⟨hblocked, hoperator⟩ := agent_statsCounts (H := H) hreadable detailScan 0 agentId
  obtain ⟨hblocked', hoperator'⟩ := agent_statsCounts (H := H) r.readable detailScan 0 agentId
  have hrows := detailRows_append (H := H) hevents (htype ▸ by decide)
  have hnewest := newest_cons h (H.detail e) (detailRows H 0 r.before)
  have hblockedType : e.event.eventType ∉ blockedTypes :=
    htype ▸ consoleCommand_notMem_blockedTypes
  -- the halts and the operator stops of the newest rows, with those of the row given up
  have hhalted := congrArg (fun rows => (rows.flatMap halts).count agentId) hnewest
  have hstopped := congrArg (fun rows =>
    rows.countP fun e => operatorStopped e && e.filedUnder = agentId) hnewest
  have hnotStopped : operatorStopped (H.detail e) = false := by
    rw [operatorStopped, Engine.detail, decide_eq_false hblockedType, Bool.false_and]
  simp only [List.flatMap_append, List.count_append, List.flatMap_cons, hhalts] at hhalted
  simp only [List.countP_append, List.countP_cons, hnotStopped, Bool.false_and,
    Bool.false_eq_true, if_false, Nat.add_zero] at hstopped
  have hcounted := r.countP_after agentId htype hevents
  rw [hrows] at hblocked hoperator
  rw [statsOf, statsOf, hblocked, hblocked', hoperator, hoperator', hcounted]
  constructor <;> omega

/-- Without detailed rows no block shows in the counts. -/
theorem blocked_of_detailScan_zero (agentId : Text) :
    (statsOf H 0 r.after agentId).blocked = (statsOf H 0 r.before agentId).blocked := by
  obtain ⟨hreadable, e, hevents, htype, -⟩ := r.exists_detail
  have hnone : ∀ rows : List (EventDetail F), newest 0 rows = [] := fun rows => by
    rw [newest, Nat.zero_min, List.take_zero]
  rw [statsOf, statsOf, (agent_statsCounts hreadable 0 0 agentId).1,
    (agent_statsCounts r.readable 0 0 agentId).1, hnone, hnone, r.countP_after agentId htype hevents]

omit [DecidableEq F] in
/-- A line names the blocked agents when they are the blocked entity itself. -/
theorem count_named (h : ∀ m ∈ r.members, m = r.key) (a : Text) :
    r.named.count a = if a ∈ r.members then 1 else 0 := by
  obtain ⟨m, hm⟩ := List.exists_mem_of_ne_nil r.members r.members_ne
  have hkey : r.key ∈ r.members := h m hm ▸ hm
  have hnamed : r.named = [r.key] := if_pos (r.members_agent r.key hkey)
  have hmem : a ∈ r.members ↔ a = r.key := ⟨h a, fun ha => ha ▸ hkey⟩
  rw [hnamed, (List.nodup_singleton r.key).count]
  simp only [List.mem_singleton, hmem]

/-- Both views show the halt exactly when the blocked entity is itself the one agent and the
reads give up no operator stop for it. -/
theorem showsHalt_iff (limit detailScan : Nat) :
    r.ShowsHalt limit detailScan ↔ r.NamesItself limit detailScan := by
  obtain ⟨m₀, hm₀⟩ := List.exists_mem_of_ne_nil r.members r.members_ne
  constructor
  · intro h
    have hdetailed : 0 < detailScan := by
      refine Nat.pos_of_ne_zero fun hzero => ?_
      subst hzero
      have hblocked := h.blocked m₀
      rw [if_pos hm₀, r.blocked_of_detailScan_zero] at hblocked
      omega
    -- a blocked agent is one that the line names
    have hitself : ∀ m ∈ r.members, m = r.key := by
      intro m hm
      have hstats := (r.statsOf_after hdetailed m).1
      rw [h.blocked m, if_pos hm] at hstats
      have hmem : m ∈ r.named := List.count_pos_iff.mp (by omega)
      unfold named at hmem
      split at hmem
      · exact List.mem_singleton.mp hmem
      · cases hmem
    refine ⟨hitself, hdetailed, fun e he => ?_, fun e he => ?_⟩
    · have hkey : r.key ∈ r.members := hitself m₀ hm₀ ▸ hm₀
      have hstops := r.byOperator_after limit r.key
      rw [h.listed r.key hkey, r.count_named hitself, if_pos hkey, he, Option.toList_some,
        List.countP_singleton] at hstops
      by_contra hstop
      rw [if_pos (by simpa using hstop)] at hstops
      omega
    · have hcounts := fun a => (r.statsOf_after hdetailed a).1
      have hoperator := (r.statsOf_after hdetailed e.filedUnder).2
      simp only [h.blocked, h.blockedByOperator, r.count_named hitself, he, Option.toList_some,
        List.flatMap_singleton, List.countP_singleton, Nat.add_eq_left] at hcounts hoperator
      refine ⟨List.eq_nil_iff_forall_not_mem.mpr fun a => List.count_eq_zero.mp (hcounts a), ?_⟩
      by_contra hstopped
      rw [if_pos (by simpa using hstopped)] at hoperator
      omega
  · intro h
    have hkept : ∀ a, ((pushedOut detailScan (detailRows H 0 r.before)).toList.flatMap
        halts).count a = 0 ∧ ((pushedOut detailScan (detailRows H 0 r.before)).toList.countP
          fun e => operatorStopped e && e.filedUnder = a) = 0 := by
      intro a
      cases hpushed : pushedOut detailScan (detailRows H 0 r.before) with
      | none => exact ⟨rfl, rfl⟩
      | some e =>
          obtain ⟨hhalts, hstopped⟩ := h.details_kept e hpushed
          simp [hhalts, hstopped]
    refine ⟨fun m hm => ?_, fun a => ?_, fun a => ?_⟩
    · have hstops := r.byOperator_after limit m
      rw [r.count_named h.itself, if_pos hm] at hstops
      rw [← hstops, Nat.left_eq_add]
      cases hpushed : pushedOut (max limit 1) (stopRows H r.before) with
      | none => rfl
      | some e =>
          rw [h.itself m hm, Option.toList_some, List.countP_singleton, h.stops_kept e hpushed]
          rfl
    · have hstats := (r.statsOf_after h.detailed a).1
      rwa [r.count_named h.itself, (hkept a).1] at hstats
    · have hstats := (r.statsOf_after h.detailed a).2
      rwa [r.count_named h.itself, (hkept a).1, (hkept a).2] at hstats

end HaltRun

section Sample

/-- A box without doubles, at one moment. -/
def sampleHost : Host Empty where
  sqlite := sqliteWithoutDoubles
  codec := FullCodec.ofEmpty recursionLimit
  jsonError _ := "expected value at line 1 column 1"
  columnError := "Invalid column type"
  parseTsMs _ := some 1789898400000
  debug := quote
  double := Empty.elim
  msToRfc3339 _ := "2026-09-20T10:00:00+00:00"
  nowMs := 1789898400000

/-- Validators that accept every line, with the decoder of the envelope. -/
def sampleConformer : Conformer sampleHost.codec.toCodec where
  isValid _ _ := true
  iterErrors _ _ := []
  debug := quote
  jsonError _ := "expected value at line 1 column 1"
  decode line :=
    match (sampleHost.codec.reader.fromStr line).bind AgentEvent.ofValue with
    | some e => .ok e
    | none => .error "missing field"
  decode_toText v hordered hinteger hdepth := by
    rw [sampleHost.codec.toCodec.fromStr_toText hordered hinteger hdepth, Option.bind_some]
    cases AgentEvent.ofValue v <;> rfl

def unitAction : ConsoleAction :=
  journalBlock "unit" "payments" true 1 ["agent://acme/payments/bot"]

def unitBus : CommandBus Empty :=
  (journalAction sampleHost.codec.toCodec id quote {} {} "2026-09-20T10:00:00.000Z" (some {})
    unitAction).2.getD {}

def unitRecord : RawRecord := ⟨unitBus.written.headD [], some "console-events.ndjson", some 0⟩

def unitService : IngestService Empty where
  store := {}
  parseValid := sampleConformer.parseValid
  env := "local"

def unitOutside : Outside where
  disk _ := none
  now _ := "2026-09-20T10:00:01.000Z"

def unitProcessed : Except Error Unit × Ingest.Cycle Empty :=
  unitService.processRecord unitOutside "filetail:console" 0 { store := {} } unitRecord

def unitInserted : Except Error Nat × Store Empty :=
  unitProcessed.2.store.insertBatch hexLower none unitProcessed.2.validEvents

theorem pair_of_toOption {α ε σ : Type} {p : Except ε α × σ} {a : α}
    (h : p.1.toOption = some a) : p = (.ok a, p.2) := by
  obtain ⟨outcome, s⟩ := p
  cases outcome with
  | error e => cases h
  | ok b => rw [Option.some.inj h]

/-- The stop of a unit with one agent. -/
def unitHalt : HaltRun sampleHost sampleConformer id hexLower where
  kind := "unit"
  key := "payments"
  members := ["agent://acme/payments/bot"]
  members_ne := List.cons_ne_nil _ _
  members_agent := by decide
  plan := accepting
  box := ⟨{}, ∅⟩
  box' := (applyBlock accepting "unit" "payments" true ["agent://acme/payments/bot"] ⟨{}, ∅⟩).2
  action := unitAction
  accepted := rfl
  ambient := {}
  faults := {}
  ts := "2026-09-20T10:00:00.000Z"
  bus := {}
  bus' := unitBus
  journaled := rfl
  record := unitRecord
  written := rfl
  service := unitService
  conforms := rfl
  outside := unitOutside
  connector := "filetail:console"
  nth := 0
  before := {}
  readable := fun _ he => absurd he List.not_mem_nil
  cycle := unitProcessed.2
  processed := pair_of_toOption (by decide +kernel)
  after := unitInserted.2
  inserted := pair_of_toOption (by decide +kernel)

/-- The stop of a unit shows in neither view. -/
theorem unit_halt_not_shown :
    ¬ ∀ r : HaltRun sampleHost sampleConformer id hexLower, r.ShowsHalt 200 5000 := by
  intro h
  have hlisted := (h unitHalt).listed "agent://acme/payments/bot" List.mem_cons_self
  have hafter := unitHalt.byOperator_after 200 "agent://acme/payments/bot"
  have hnamed : unitHalt.named.count "agent://acme/payments/bot".toList = 0 := by decide
  omega

end Sample

end Genaryx.Stats
