import Genaryx.Base.Items
import Genaryx.Base.Tally
import Genaryx.Core.Attribution
import Genaryx.Core.Graph
import Genaryx.Core.Store

/-!
# What the statistics read from the store

How many events of each type are filed under each subject, and the rows of the events whose
own data is needed, newest first and up to a limit.

## Implementation notes

SQLite groups rows in no particular order. A count stays below what a row id can be, so it
is a natural number here.
-/

namespace Genaryx.Core

open Base Json

variable {F : Type}

/-- What the store's reads use of the libraries under them. -/
structure Engine (F : Type) where
  sqlite : Sqlite F
  codec : FullCodec F recursionLimit
  jsonError : Text → Text
  columnError : Text
  parseTsMs : Text → Option Int

/-- One subject's count of one event type, with the newest timestamp in that group. -/
structure AgentTypeCount where
  agentId : Text
  eventType : Text
  count : Nat
  lastTs : Text
  deriving DecidableEq

/-- The columns of an event that the statistics read in full. -/
structure EventDetail (F : Type) where
  ts : Text
  agentId : Text
  filedUnder : Text
  eventType : Text
  source : Text
  data : Option (Value F)

/-- The greatest integer that SQLite holds. -/
def i64Max : Nat := 2 ^ 63 - 1

/-- `MAX(ts)` over the rows of a group. -/
def maxTs (rows : List (ConsoleEvent F)) : Text :=
  rows.foldl (fun newest e => max newest e.event.ts) []

/-- Who a stored event is filed under. -/
def ConsoleEvent.subject (e : ConsoleEvent F) : Text :=
  filedUnder e.event.eventType e.event.agentId e.event.data

/-- Every stored datum is one that a line can carry. -/
def Store.Readable (s : Store F) : Prop :=
  ∀ e ∈ s.events, ∀ v, e.event.data = some v → v.Ordered ∧ v.depth ≤ recursionLimit

namespace Engine

variable [DecidableEq F] (E : Engine F)

def dataOf (e : ConsoleEvent F) : SqlValue F := dataColumn E.codec e.event.data

def subjectOf (e : ConsoleEvent F) : SqlValue F :=
  filedUnderSql E.sqlite e.event.eventType e.event.agentId (E.dataOf e)

/-- The window of a query: everything, or the dated events from a cutoff on. -/
def inWindow (cutoff : Option Int) (e : ConsoleEvent F) : Bool :=
  cutoff.all fun since => (E.parseTsMs e.event.ts).any fun ms => since ≤ ms

/-- A column that is read as a text. -/
def textColumn : SqlValue F → Except Error Text
  | .text t => .ok t
  | _ => .error (.store E.columnError)

/-- A column that is read as a JSON text, or NULL. -/
def jsonColumn : SqlValue F → Except Error (Option (Value F))
  | .null => .ok none
  | .text t =>
      match E.codec.reader.fromStr t with
      | some v => .ok (some v)
      | none => .error (.store (E.jsonError t))
  | _ => .error (.store E.columnError)

/-- What rows are grouped by. -/
def groupKey (e : ConsoleEvent F) : SqlValue F × Text := (E.subjectOf e, e.event.eventType)

/-- The number of events of each subject and type in a window. -/
def typeCountsSince (cutoff : Option Int) (s : Store F) : Except Error (List AgentTypeCount) :=
  let rows := s.events.filter (E.inWindow cutoff)
  (groupCounts E.groupKey rows).mapM fun group =>
    match E.textColumn group.1.1 with
    | .error e => .error e
    | .ok subject =>
        .ok ⟨subject, group.1.2, group.2, maxTs (rows.filter fun e => E.groupKey e = group.1)⟩

/-- Whether `data` holds a JSON text with both fields of a pair. -/
def carriesPair (data : SqlValue F) (pair : Text × Text) : Bool :=
  data ≠ .null && (E.sqlite.jsonValid data).isTrue &&
    E.sqlite.jsonExtract data pair.1 ≠ .null && E.sqlite.jsonExtract data pair.2 ≠ .null

/-- Whether an event is of one of the types or carries one of the pairs. -/
def wants (types : List Text) (pairs : List (Text × Text)) (e : ConsoleEvent F) : Bool :=
  e.event.eventType ∈ types || pairs.any (E.carriesPair (E.dataOf e))

def detailOf (e : ConsoleEvent F) : Except Error (EventDetail F) :=
  match E.textColumn (E.subjectOf e), E.jsonColumn (E.dataOf e) with
  | .ok subject, .ok data =>
      .ok ⟨e.event.ts, e.event.agentId, subject, e.event.eventType, e.event.source, data⟩
  | .error e, _ => .error e
  | .ok _, .error e => .error e

/-- The events of some types or with some pairs of fields, newest first. -/
def eventsOfTypesSince (types : List Text) (pairs : List (Text × Text)) (cutoff : Option Int)
    (limit : Nat) (s : Store F) : Except Error (List (EventDetail F)) :=
  if types.isEmpty && pairs.isEmpty then .ok []
  else
    ((s.events.reverse.filter fun e => E.wants types pairs e && E.inWindow cutoff e).take
      (min limit i64Max)).mapM E.detailOf

/-- How many events are in no window. -/
def undatedCount (s : Store F) : Nat :=
  s.events.countP fun e => (E.parseTsMs e.event.ts).isNone

/-- The oldest and the newest instant in the store. -/
def tsSpan (s : Store F) : Option (Int × Int) :=
  match s.events.filterMap fun e => E.parseTsMs e.event.ts with
  | [] => none
  | ms :: rest => some (rest.foldl min ms, rest.foldl max ms)

end Engine

section Readable

variable [DecidableEq F] (E : Engine F)

/-- A row of a readable store as the statistics read it. -/
def Engine.detail (e : ConsoleEvent F) : EventDetail F :=
  ⟨e.event.ts, e.event.agentId, e.subject, e.event.eventType, e.event.source,
    e.event.data.map (Value.mapNumbers E.codec.reread)⟩

/-- The text of a SQL value that is one. -/
def SqlValue.asText : SqlValue F → Text
  | .text t => t
  | _ => []

variable {E} {s : Store F}

theorem Store.Readable.subjectOf_eq (hs : s.Readable) {e : ConsoleEvent F} (he : e ∈ s.events) :
    E.subjectOf e = .text e.subject :=
  filedUnderSql_dataColumn E.sqlite E.codec e.event.eventType e.event.agentId
    (fun v hv => (hs e he v hv).1) (fun v hv => (hs e he v hv).2)

theorem Store.Readable.detailOf_eq (hs : s.Readable) {e : ConsoleEvent F} (he : e ∈ s.events) :
    E.detailOf e = .ok (E.detail e) := by
  have hdata : E.jsonColumn (E.dataOf e) =
      .ok (e.event.data.map (Value.mapNumbers E.codec.reread)) := by
    rw [Engine.dataOf]
    cases hd : e.event.data with
    | none => rfl
    | some v =>
        obtain ⟨hordered, hdepth⟩ := hs e he v hd
        rw [dataColumn, Engine.jsonColumn, E.codec.fromStr_toText hordered hdepth]
        rfl
  rw [Engine.detailOf, hs.subjectOf_eq he, hdata]
  rfl

omit [DecidableEq F] in
theorem Engine.textColumn_eq_ok {v : SqlValue F} {t : Text} (h : E.textColumn v = .ok t) :
    v = .text t := by
  cases v with
  | text t' => cases h; rfl
  | _ => cases h

/-- The detailed rows of a readable store are all read. -/
theorem Store.Readable.eventsOfTypesSince_eq (hs : s.Readable) {types : List Text}
    (htypes : types ≠ []) (pairs : List (Text × Text)) (cutoff : Option Int) (limit : Nat) :
    E.eventsOfTypesSince types pairs cutoff limit s =
      .ok (((s.events.reverse.filter fun e =>
        E.wants types pairs e && E.inWindow cutoff e).map E.detail).take (min limit i64Max)) := by
  have hne : (types.isEmpty && pairs.isEmpty) = false := by simp [htypes]
  rw [Engine.eventsOfTypesSince, hne, if_neg Bool.false_ne_true, ← List.map_take]
  refine mapM_eq_ok fun e he => hs.detailOf_eq ?_
  exact List.mem_reverse.mp (List.mem_of_mem_filter (List.mem_of_mem_take he))

/-- The counts of a readable store add up, by subject and type, to its rows. -/
theorem Store.Readable.typeCountsSince_eq (hs : s.Readable) (cutoff : Option Int) :
    ∃ counts, E.typeCountsSince cutoff s = .ok counts ∧
      ∀ p : Text × Text → Bool,
        ((counts.filter fun c => p (c.agentId, c.eventType)).map AgentTypeCount.count).sum =
          (s.events.filter (E.inWindow cutoff)).countP fun e => p (e.subject, e.event.eventType) := by
  let rows := s.events.filter (E.inWindow cutoff)
  have hkey : ∀ e ∈ rows, E.groupKey e = (.text e.subject, e.event.eventType) := fun e he => by
    rw [Engine.groupKey, hs.subjectOf_eq (List.mem_of_mem_filter he)]
  let count := fun group : (SqlValue F × Text) × Nat =>
    (⟨group.1.1.asText, group.1.2, group.2,
      maxTs (rows.filter fun e => E.groupKey e = group.1)⟩ : AgentTypeCount)
  refine ⟨(groupCounts E.groupKey rows).map count, mapM_eq_ok fun group hgroup => ?_, fun p => ?_⟩
  · -- a group is the group of one of its rows
    obtain ⟨e, he, hgroup⟩ := exists_key_of_mem_groupCounts hgroup
    have htext : group.1.1 = .text e.subject := by rw [← hgroup, hkey e he]
    simp only [htext, Engine.textColumn, count, SqlValue.asText]
    rfl
  · have hsum := sum_groupCounts E.groupKey (fun key => p (key.1.asText, key.2)) rows
    rw [List.filter_map, List.map_map]
    refine hsum.trans (List.countP_congr fun e he => ?_)
    rw [hkey e he]
    rfl

end Readable

end Genaryx.Core

/-!
## The newest events of the store

Rows of the event table as they are read back, newest first and up to a limit.
-/

namespace Genaryx.Core

open Base

variable {F : Type}

/-- A row of the event table, with the columns that a panel shows. -/
structure StoredEvent (F : Type) where
  ts : Text
  source : Text
  eventType : Text
  agentId : Text
  runId : Option Text
  onBehalfOf : List Text
  data : Option (Json.Value F)

namespace Engine

variable (E : Engine F)

/-- `serde_json::from_str` of the `on_behalf_of` column, which is NULL for an empty chain. -/
def chainColumn (column : Option Text) : Except Error (List Text) :=
  match column with
  | none => .ok []
  | some text =>
      match textsOf E.codec text with
      | some chain => .ok chain
      | none => .error (.store (E.jsonError text))

def storedEventFromRow (e : ConsoleEvent F) : Except Error (StoredEvent F) := do
  let onBehalfOf ← E.chainColumn (onBehalfOfColumn E.codec e.event.onBehalfOf)
  let data ← E.jsonColumn (E.dataOf e)
  return ⟨e.event.ts, e.event.source, e.event.eventType, e.event.agentId, e.event.runId,
    onBehalfOf, data⟩

/-- The most recent events, newest first. -/
def recentEvents (limit : Nat) (s : Store F) : Except Error (List (StoredEvent F)) :=
  (s.events.reverse.take (min limit i64Max)).mapM E.storedEventFromRow

variable {E} {s : Store F} {slice : List (StoredEvent F)} {limit : Nat}

theorem length_recentEvents (h : E.recentEvents limit s = .ok slice) :
    slice.length = min (min limit i64Max) s.events.length := by
  rw [length_mapM h, List.length_take, List.length_reverse]

/-- Of each size there is one slice of newest events. -/
theorem recentEvents_unique {limit' : Nat} {slice' : List (StoredEvent F)}
    (h : E.recentEvents limit s = .ok slice) (h' : E.recentEvents limit' s = .ok slice')
    (hlength : slice.length = slice'.length) : slice = slice' := by
  rw [length_recentEvents h, length_recentEvents h', ← List.length_reverse] at hlength
  have htake : ∀ n, s.events.reverse.take n =
      s.events.reverse.take (min n s.events.reverse.length) := fun n => by
    rw [List.take_eq_take_min]
  have hrows : s.events.reverse.take (min limit i64Max) =
      s.events.reverse.take (min limit' i64Max) := by
    rw [htake (min limit i64Max), hlength, ← htake]
  rw [recentEvents, hrows] at h
  exact Except.ok.inj (h.symm.trans h')

end Engine

end Genaryx.Core

/-!
## Days of an agent

The store's reads of the events of one agent by day: how many there are of each type on each day,
and the day of the first one.

### Implementation notes

SQLite divides toward zero, so the day of a time is not always that of the calendar. A count stays
below what a row id can be, so it is a natural number here.
-/

namespace Genaryx.Core

open Base

variable {F : Type}

/-- Milliseconds in a day. -/
def dayMs : Int := 86400000

/-- One day's count of one event type. -/
structure DayTypeCount where
  day : Int
  eventType : Text
  count : Nat
  deriving DecidableEq

namespace Engine

variable [DecidableEq F] (E : Engine F)

/-- The times and the types of the dated events that are filed under an agent. -/
def datedOf (agentId : Text) (s : Store F) : List (Int × Text) :=
  (s.events.filter fun e =>
    subjectIs E.sqlite e.event.eventType e.event.agentId (E.dataOf e) agentId).filterMap fun e =>
      (E.parseTsMs e.event.ts).map fun ms => (ms, e.event.eventType)

/-- An agent's events by day and by type, oldest day first. -/
def dailyTypeCounts (agentId : Text) (sinceMs : Int) (s : Store F) : List DayTypeCount :=
  let rows := (E.datedOf agentId s).filter fun d => sinceMs ≤ d.1
  ((groupCounts (fun d => (d.1.tdiv dayMs, d.2)) rows).map fun g =>
    (⟨g.1.1, g.1.2, g.2⟩ : DayTypeCount)).mergeSort fun a b => a.day ≤ b.day

/-- The day of an agent's first event. -/
def firstDayForAgent (agentId : Text) (s : Store F) : Option Int :=
  ((E.datedOf agentId s).map Prod.fst).min?.map fun ms => ms.tdiv dayMs

variable {E}

/-- The counts of the days that meet a condition add up to the events of these days. -/
theorem sum_dailyTypeCounts (agentId : Text) (sinceMs : Int) (s : Store F) (p : Int → Bool) :
    (((E.dailyTypeCounts agentId sinceMs s).filter fun r => p r.day).map DayTypeCount.count).sum =
      (((E.datedOf agentId s).map Prod.fst).filter (sinceMs ≤ ·)).countP
        fun ms => p (ms.tdiv dayMs) := by
  have hgroups := sum_groupCounts (fun d : Int × Text => (d.1.tdiv dayMs, d.2)) (fun k => p k.1)
    ((E.datedOf agentId s).filter fun d => sinceMs ≤ d.1)
  have hperm := List.mergeSort_perm ((groupCounts (fun d : Int × Text => (d.1.tdiv dayMs, d.2))
    ((E.datedOf agentId s).filter fun d => sinceMs ≤ d.1)).map fun g =>
      (⟨g.1.1, g.1.2, g.2⟩ : DayTypeCount)) fun a b => a.day ≤ b.day
  rw [dailyTypeCounts, ((hperm.filter _).map _).sum_eq, List.filter_map, List.map_map]
  refine hgroups.trans ?_
  rw [List.filter_map, List.countP_map]
  rfl

/-- Each day that is counted is that of an event. -/
theorem mem_dailyTypeCounts {agentId : Text} {sinceMs : Int} {s : Store F} {day : Int} :
    (∃ r ∈ E.dailyTypeCounts agentId sinceMs s, r.day = day) ↔
      ∃ ms ∈ (E.datedOf agentId s).map Prod.fst, sinceMs ≤ ms ∧ ms.tdiv dayMs = day := by
  have hperm := List.mergeSort_perm ((groupCounts (fun d : Int × Text => (d.1.tdiv dayMs, d.2))
    ((E.datedOf agentId s).filter fun d => sinceMs ≤ d.1)).map fun g =>
      (⟨g.1.1, g.1.2, g.2⟩ : DayTypeCount)) fun a b => a.day ≤ b.day
  constructor
  · rintro ⟨r, hr, rfl⟩
    rw [dailyTypeCounts, hperm.mem_iff] at hr
    obtain ⟨g, hg, rfl⟩ := List.mem_map.mp hr
    obtain ⟨d, hd, hkey⟩ := exists_key_of_mem_groupCounts hg
    obtain ⟨hmem, hsince⟩ := List.mem_filter.mp hd
    exact ⟨d.1, List.mem_map_of_mem hmem, of_decide_eq_true hsince, congrArg Prod.fst hkey⟩
  · rintro ⟨ms, hms, hsince, rfl⟩
    obtain ⟨d, hd, rfl⟩ := List.mem_map.mp hms
    have hrow : d ∈ (E.datedOf agentId s).filter fun d => sinceMs ≤ d.1 :=
      List.mem_filter.mpr ⟨hd, decide_eq_true hsince⟩
    obtain ⟨g, hg, hday⟩ : ∃ g ∈ groupCounts (fun d : Int × Text => (d.1.tdiv dayMs, d.2))
        ((E.datedOf agentId s).filter fun d => sinceMs ≤ d.1), g.1.1 = d.1.tdiv dayMs :=
      ⟨_, List.mem_map_of_mem (List.mem_dedup.mpr (List.mem_map_of_mem hrow)), rfl⟩
    refine ⟨⟨g.1.1, g.1.2, g.2⟩, ?_, hday⟩
    rw [dailyTypeCounts, hperm.mem_iff]
    exact List.mem_map_of_mem hg

end Engine

end Genaryx.Core
