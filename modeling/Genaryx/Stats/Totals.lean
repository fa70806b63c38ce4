import Genaryx.Stats.Panels

/-!
# What the two views add up to

Over a store that can be read, the stops of one view are rows of the newest ones, and the
counts of the other view are all stored stops with what the newest detailed rows say.
-/

namespace Genaryx.Stats

open Base Json Genaryx.Core Std

variable {F : Type}

section Tally

variable (usdOvershoot : Number F → Number F → Int) (counts : List AgentTypeCount)
  (rows : List (EventDetail F)) (agentId : Text)

theorem tally_namedBy : NamedBy AgentStats.agentId (tally usdOvershoot counts rows) := by
  have hnew : ∀ k, (AgentStats.new k).agentId = k := fun _ => rfl
  refine NamedBy.foldl_bump (NamedBy.foldl_bump (NamedBy.foldl_bump namedBy_empty hnew ?_ counts)
    hnew ?_ rows) hnew ?_ _
  all_goals exact fun _ _ => rfl

/-- The blocks that halted an agent count for one each. -/
theorem measure_halted (measure : AgentStats → Nat)
    (hadd : ∀ a : AgentStats, measure a.halted = measure a + 1) (m : TreeMap Text AgentStats)
    (agents : List Text) :
    measure (entryOf .new (agents.foldl (fun m agent => bump .new m agent AgentStats.halted) m)
      agentId) = measure (entryOf .new m agentId) + agents.count agentId := by
  have hsum := measure_foldl_bump AgentStats.new (fun agent => agent) (fun (_ : Text) a => hadd a) m
    agents agentId
  rw [hsum, List.map_const', List.sum_replicate_nat, Nat.mul_one,
    ← List.countP_eq_length_filter, List.count]
  exact congrArg _ (List.countP_congr fun agent _ => by simp)

/-- An agent's stops are its counted stops and the blocks that halted it. -/
theorem blocked_tally : (entryOf .new (tally usdOvershoot counts rows) agentId).blocked =
    ((counts.filter fun c => c.agentId = agentId && c.eventType ∈ blockedTypes).map
      AgentTypeCount.count).sum + (rows.flatMap halts).count agentId := by
  have hcounted : ∀ (c : AgentTypeCount) (a : AgentStats), (AgentStats.addCount c a).blocked =
      a.blocked + if c.eventType ∈ blockedTypes then c.count else 0 := by
    intro c a
    rw [AgentStats.addCount]
    split <;> rfl
  have hdescribed : ∀ (e : EventDetail F) (a : AgentStats),
      (AgentStats.describe usdOvershoot e a).blocked = a.blocked + 0 := fun _ _ => rfl
  rw [tally, measure_halted agentId AgentStats.blocked fun _ => rfl,
    measure_foldl_bump AgentStats.new _ hdescribed, measure_foldl_bump AgentStats.new _ hcounted,
    entryOf_empty, sum_map_ite, List.filter_filter, List.map_const', List.sum_replicate_nat, Nat.mul_zero]
  simp only [AgentStats.new, Nat.zero_add, Nat.add_zero, Bool.and_comm]

/-- An agent's operator stops are those of its detailed rows and the blocks that halted it. -/
theorem blockedByOperator_tally :
    (entryOf .new (tally usdOvershoot counts rows) agentId).blockedByOperator =
      (rows.countP fun e => operatorStopped e && e.filedUnder = agentId) +
        (rows.flatMap halts).count agentId := by
  have hcounted : ∀ (c : AgentTypeCount) (a : AgentStats),
      (AgentStats.addCount c a).blockedByOperator = a.blockedByOperator + 0 := fun _ _ => rfl
  have hdescribed : ∀ (e : EventDetail F) (a : AgentStats),
      (AgentStats.describe usdOvershoot e a).blockedByOperator =
        a.blockedByOperator + if operatorStopped e then 1 else 0 := by
    intro e a
    rw [AgentStats.describe]
    split <;> rfl
  rw [tally, measure_halted agentId AgentStats.blockedByOperator fun _ => rfl,
    measure_foldl_bump AgentStats.new _ hdescribed, measure_foldl_bump AgentStats.new _ hcounted,
    entryOf_empty, sum_map_ite, List.filter_filter, List.map_const', List.sum_replicate_nat, List.map_const', List.sum_replicate_nat, Nat.mul_zero,
    Nat.mul_one, ← List.countP_eq_length_filter]
  simp only [AgentStats.new, Nat.zero_add, Bool.decide_eq_true]

end Tally

variable [DecidableEq F]

/-- The newest rows that a read stops at. -/
def newest (limit : Nat) (rows : List (EventDetail F)) : List (EventDetail F) :=
  rows.take (min limit i64Max)

variable (H : Host F)

/-- The rows that the list of stops reads, newest first. -/
def stopRows (s : Store F) : List (EventDetail F) :=
  (s.events.reverse.filter (H.wants stopTypes [])).map H.detail

/-- The rows of a window that the counts read in full, newest first. -/
def detailRows (windowDays : UInt32) (s : Store F) : List (EventDetail F) :=
  (s.events.reverse.filter fun e =>
    H.wants detailTypes amountFields e && H.inWindow (cutoffOf H windowDays) e).map H.detail

/-- The row that a read gives up for one more newer row. -/
def pushedOut (limit : Nat) (rows : List (EventDetail F)) : Option (EventDetail F) :=
  rows[min limit i64Max - 1]?

/-- A row that the list of an agent's stops shows at a person's name. -/
def operatorStopOf (agentId : Text) (e : EventDetail F) : Bool :=
  (stopEntry e).byOperator && isStopOf agentId e

omit [DecidableEq F] in
theorem newest_cons {limit : Nat} (h : 0 < limit) (e : EventDetail F)
    (rows : List (EventDetail F)) :
    newest limit (e :: rows) ++ (pushedOut limit rows).toList = e :: newest limit rows := by
  obtain ⟨n, hn⟩ : ∃ n, min limit i64Max = n + 1 :=
    ⟨min limit i64Max - 1, by have hmax : 0 < i64Max := (by decide); omega⟩
  rw [newest, newest, pushedOut, hn, List.take_succ_cons, List.cons_append, Nat.add_sub_cancel,
    List.take_add_one]

variable {H} {s s' : Store F} {e : ConsoleEvent F}

theorem stopRows_append (h : s'.events = s.events ++ [e]) (he : e.event.eventType ∈ stopTypes) :
    stopRows H s' = H.detail e :: stopRows H s := by
  have hwants : H.wants stopTypes [] e = true := by
    rw [Engine.wants, decide_eq_true he, Bool.true_or]
  rw [stopRows, h, List.reverse_append, List.reverse_singleton, List.singleton_append,
    List.filter_cons_of_pos hwants, List.map_cons, stopRows]

/-- The whole store's detailed rows. -/
theorem detailRows_append (h : s'.events = s.events ++ [e])
    (he : e.event.eventType ∈ detailTypes) :
    detailRows H 0 s' = H.detail e :: detailRows H 0 s := by
  have hwants : (H.wants detailTypes amountFields e && H.inWindow (cutoffOf H 0) e) = true := by
    rw [Engine.wants, decide_eq_true he, Bool.true_or]
    rfl
  rw [detailRows, h, List.reverse_append, List.reverse_singleton, List.singleton_append,
    List.filter_cons, if_pos hwants, List.map_cons, detailRows]

/-- An agent's operator stops are those among the newest stops. -/
theorem byOperator_agentStops (hs : s.Readable) (agentId : Text) (limit : Nat) :
    (agentStops H agentId limit (.opened s {})).byOperator =
      (newest (max limit 1) (stopRows H s)).countP (operatorStopOf agentId) := by
  have hread := hs.eventsOfTypesSince_eq (E := H.toEngine) (show stopTypes ≠ [] by decide) []
    none (max limit 1)
  have hwindow : (fun e => H.wants stopTypes [] e && H.inWindow none e) =
      H.wants stopTypes [] := by
    funext e
    exact Bool.and_true _
  rw [hwindow] at hread
  simp only [agentStops, queried, hread]
  rw [(List.mergeSort_perm _ _).countP_eq, List.countP_map, List.countP_filter]
  rfl

/-- The panel of a store that can be read counts all its stops, and reads the newest rows. -/
theorem agent_statsCounts (hs : s.Readable) (detailScan : Nat) (windowDays : UInt32)
    (agentId : Text) :
    let stats := (statsCounts H detailScan windowDays (.opened s {})).agent agentId
    let rows := newest detailScan (detailRows H windowDays s)
    stats.blocked = (s.events.filter (H.inWindow (cutoffOf H windowDays))).countP (fun e =>
        e.subject = agentId && e.event.eventType ∈ blockedTypes) +
          (rows.flatMap halts).count agentId ∧
      stats.blockedByOperator = (rows.countP fun e =>
        operatorStopped e && e.filedUnder = agentId) + (rows.flatMap halts).count agentId := by
  obtain ⟨counts, hcounts, hsum⟩ := hs.typeCountsSince_eq (E := H.toEngine)
    (cutoffOf H windowDays)
  have hread := hs.eventsOfTypesSince_eq (E := H.toEngine) (show detailTypes ≠ [] by decide)
    amountFields (cutoffOf H windowDays) detailScan
  intro stats rows
  have hstats : stats = entryOf .new (tally H.usdOvershoot counts rows) agentId := by
    simp only [stats, statsCounts, queried, hcounts, hread, StatsPanel.agent]
    rw [(tally_namedBy _ _ _).find?_entries]
    rfl
  refine ⟨?_, ?_⟩
  · rw [hstats, blocked_tally,
      hsum fun key => key.1 = agentId && key.2 ∈ blockedTypes]
  · rw [hstats, blockedByOperator_tally]

end Genaryx.Stats

/-!
## What a measured panel has read

A panel that is measured has the answer of each of its queries. Whatever the store holds, the
rows of such an answer are the stored events as their columns are read, and its counts add up
to the stored events.
-/

namespace Genaryx.Stats

open Base Json Genaryx.Core Std

variable {F : Type} [DecidableEq F]

section Engine

variable (E : Engine F)

/-- The data of an event as it is read back, with none for a column that is not. -/
def dataRead (e : ConsoleEvent F) : Option (Value F) :=
  match E.jsonColumn (E.dataOf e) with
  | .ok data => data
  | .error _ => none

/-- An event as the statistics read it. -/
def readOf (e : ConsoleEvent F) : EventDetail F :=
  ⟨e.event.ts, e.event.agentId, (E.subjectOf e).asText, e.event.eventType, e.event.source,
    dataRead E e⟩

variable {E}

theorem detailOf_eq_ok {e : ConsoleEvent F} {d : EventDetail F} (h : E.detailOf e = .ok d) :
    d = readOf E e := by
  rw [Engine.detailOf] at h
  cases hsubject : E.textColumn (E.subjectOf e) with
  | error err => rw [hsubject] at h; cases h
  | ok subject =>
      rw [hsubject] at h
      cases hdata : E.jsonColumn (E.dataOf e) with
      | error err => rw [hdata] at h; cases h
      | ok data =>
          rw [hdata] at h
          cases h
          rw [readOf, dataRead, hdata, E.textColumn_eq_ok hsubject]
          rfl

/-- Detailed rows are the newest wanted events, as they are read. -/
theorem eventsOfTypesSince_eq_ok {types : List Text} (htypes : types ≠ [])
    {pairs : List (Text × Text)} {cutoff : Option Int} {limit : Nat} {s : Store F}
    {rows : List (EventDetail F)}
    (h : E.eventsOfTypesSince types pairs cutoff limit s = .ok rows) :
    rows = newest limit ((s.events.reverse.filter fun e =>
      E.wants types pairs e && E.inWindow cutoff e).map (readOf E)) := by
  have hne : (types.isEmpty && pairs.isEmpty) = false := by simp [htypes]
  rw [Engine.eventsOfTypesSince, hne, if_neg Bool.false_ne_true] at h
  rw [newest, ← List.map_take]
  exact eq_map_of_mapM h fun e _ d hd => detailOf_eq_ok hd

/-- Counts add up, by subject and type, to the events of the window. -/
theorem typeCountsSince_eq_ok {cutoff : Option Int} {s : Store F} {counts : List AgentTypeCount}
    (h : E.typeCountsSince cutoff s = .ok counts) (p : Text × Text → Bool) :
    ((counts.filter fun c => p (c.agentId, c.eventType)).map AgentTypeCount.count).sum =
      (s.events.filter (E.inWindow cutoff)).countP fun e =>
        p ((E.subjectOf e).asText, e.event.eventType) := by
  let rows := s.events.filter (E.inWindow cutoff)
  let count := fun group : (SqlValue F × Text) × Nat =>
    (⟨group.1.1.asText, group.1.2, group.2,
      maxTs (rows.filter fun e => E.groupKey e = group.1)⟩ : AgentTypeCount)
  have hcounts : counts = (groupCounts E.groupKey rows).map count := by
    refine eq_map_of_mapM h fun group _ c hc => ?_
    cases htext : E.textColumn group.1.1 with
    | error err => rw [htext] at hc; cases hc
    | ok subject =>
        rw [htext] at hc
        cases hc
        simp only [count, E.textColumn_eq_ok htext, SqlValue.asText]
        rfl
  have hsum := sum_groupCounts E.groupKey (fun key => p (key.1.asText, key.2)) rows
  rw [hcounts, List.filter_map, List.map_map]
  exact hsum

end Engine

variable {H : Host F} {store : EventStore F}

theorem queried_eq_ok {α : Type} {fault : Option Text} {answer : Except Error α} {a : α}
    (h : queried fault answer = .ok a) : answer = .ok a := by
  cases fault with
  | none => exact h
  | some message => cases h

/-- A measured list of stops is made from the rows it read. -/
theorem agentStops_of_measured {agentId : Text} {limit : Nat}
    (h : (agentStops H agentId limit store).measured = true) :
    ∃ s faults rows, store = .opened s faults ∧
      H.eventsOfTypesSince stopTypes [] none (max limit 1) s = .ok rows ∧
        (agentStops H agentId limit store).total = rows.countP (isStopOf agentId) ∧
          (agentStops H agentId limit store).byOperator =
            rows.countP (operatorStopOf agentId) := by
  cases store with
  | absent => cases h
  | refused message => cases h
  | opened s faults =>
      rw [agentStops] at h
      cases hread : queried faults.details
          (H.eventsOfTypesSince stopTypes [] none (max limit 1) s) with
      | error err => rw [hread] at h; cases h
      | ok rows =>
          refine ⟨s, faults, rows, rfl, queried_eq_ok hread, ?_, ?_⟩
          · simp only [agentStops, hread]
            rw [(List.mergeSort_perm _ _).length_eq, List.length_map,
              ← List.countP_eq_length_filter]
          · simp only [agentStops, hread]
            rw [(List.mergeSort_perm _ _).countP_eq, List.countP_map, List.countP_filter]
            rfl

/-- A measured panel is made from the counts and the rows it read. -/
theorem statsCounts_of_measured {detailScan : Nat} {windowDays : UInt32}
    (h : (statsCounts H detailScan windowDays store).measured = true) :
    ∃ s faults counts rows, store = .opened s faults ∧
      H.typeCountsSince (cutoffOf H windowDays) s = .ok counts ∧
        H.eventsOfTypesSince detailTypes amountFields (cutoffOf H windowDays) detailScan s =
          .ok rows ∧
          (statsCounts H detailScan windowDays store).scanned =
            (counts.map AgentTypeCount.count).sum ∧
          (statsCounts H detailScan windowDays store).detailScanned = rows.length ∧
          (statsCounts H detailScan windowDays store).detailTruncated =
            (0 < detailScan && detailScan ≤ rows.length : Bool) ∧
          (statsCounts H detailScan windowDays store).agents =
            (tally H.usdOvershoot counts rows).toList.map Prod.snd := by
  cases store with
  | absent => cases h
  | refused message => cases h
  | opened s faults =>
      rw [statsCounts] at h
      cases hcounts : queried faults.counts (H.typeCountsSince (cutoffOf H windowDays) s) with
      | error err => rw [hcounts] at h; cases h
      | ok counts =>
          rw [hcounts] at h
          cases hread : queried faults.details (H.eventsOfTypesSince detailTypes amountFields
              (cutoffOf H windowDays) detailScan s) with
          | error err => rw [hread] at h; cases h
          | ok rows =>
              refine ⟨s, faults, counts, rows, rfl, queried_eq_ok hcounts, queried_eq_ok hread, ?_⟩
              simp only [statsCounts, hcounts, hread, and_self]

end Genaryx.Stats
