import Genaryx.Base.Timestamp
import Genaryx.Core.GraphCounts
import Genaryx.Core.Queries

/-!
# When an agent was last seen

The graph and the counts report the timestamp of an agent that sorts last as a text. It is the
newest one unless another gives its second with further digits, or is spelled in another form
and later.
-/

namespace Genaryx.Core

open Base Json

variable {F : Type}

section Times

/-- A timestamp among these is of the greatest instant. -/
structure NewestOf (times : List Text) (t : Text) : Prop where
  mem : t ∈ times
  latest : ∃ s, Spelling.read t = some s ∧
    ∀ t' ∈ times, ∃ s', Spelling.read t' = some s' ∧ s'.instant ≤ s.instant

/-- No timestamp refines the one that sorts last, and none in another form is later. -/
def LastInOrder (times : List Text) : Prop :=
  ∀ t ∈ times, (∀ t' ∈ times, t' ≤ t) → ∀ t' ∈ times, ∀ s s',
    Spelling.read t = some s → Spelling.read t' = some s' →
      (Spelling.SameForm s' s → ¬Spelling.Refines s' s) ∧
        (¬Spelling.SameForm s' s → s'.instant ≤ s.instant)

/-- The timestamp that sorts last is the newest just when the spellings are in order. -/
theorem newestOf_iff {times : List Text} (hdated : ∀ t ∈ times, (Spelling.read t).isSome = true)
    {t : Text} (h : IsGreatest {t | t ∈ times} t) : NewestOf times t ↔ LastInOrder times := by
  obtain ⟨hmem, hlast⟩ := h
  obtain ⟨s, hs⟩ := Option.isSome_iff_exists.mp (hdated t hmem)
  obtain ⟨hvalid, htext⟩ := Spelling.of_read hs
  -- what is said of one other timestamp, in each of the two cases of the forms
  have hother : ∀ t' ∈ times, ∀ s', Spelling.read t' = some s' → (s'.instant ≤ s.instant ↔
      (Spelling.SameForm s' s → ¬Spelling.Refines s' s) ∧
        (¬Spelling.SameForm s' s → s'.instant ≤ s.instant)) := by
    intro t' ht' s' hs'
    obtain ⟨hvalid', htext'⟩ := Spelling.of_read hs'
    by_cases hform : Spelling.SameForm s' s
    · have hle : s'.text ≤ s.text := by
        rw [htext, htext']
        exact hlast ht'
      rw [Spelling.instant_le_iff hvalid' hvalid hform hle]
      exact ⟨fun h => ⟨fun _ => h, fun hnot => absurd hform hnot⟩, fun h => h.1 hform⟩
    · exact ⟨fun h => ⟨fun hsame => absurd hsame hform, fun _ => h⟩, fun h => h.2 hform⟩
  constructor
  · rintro ⟨-, s₁, hs₁, hlatest⟩ t₁ ht₁ hlast₁ t' ht' s₂ s' hs₂ hs'
    obtain rfl : t₁ = t := le_antisymm (hlast ht₁) (hlast₁ t hmem)
    obtain rfl : s₁ = s := Option.some.inj (hs₁.symm.trans hs)
    obtain rfl : s₂ = s₁ := Option.some.inj (hs₂.symm.trans hs)
    obtain ⟨s'', hs'', hle⟩ := hlatest t' ht'
    obtain rfl : s'' = s' := Option.some.inj (hs''.symm.trans hs')
    exact (hother t' ht' s'' hs').mp hle
  · intro horder
    refine ⟨hmem, s, hs, fun t' ht' => ?_⟩
    obtain ⟨s', hs'⟩ := Option.isSome_iff_exists.mp (hdated t' ht')
    exact ⟨s', hs', (hother t' ht' s' hs').mpr
      (horder t hmem (fun t' ht' => hlast ht') t' ht' s s' hs hs')⟩

/-- What starts as the empty text and is raised to each timestamp ends as the last of them. -/
theorem isGreatest_of_le {times : List Text} {t : Text} (hne : times ≠ [])
    (hmem : t = [] ∨ t ∈ times) (hle : ∀ t' ∈ times, t' ≤ t) : IsGreatest {t | t ∈ times} t := by
  refine ⟨?_, hle⟩
  obtain rfl | hmem := hmem
  · obtain ⟨t, ht⟩ := List.exists_mem_of_ne_nil times hne
    have hempty : t = [] := le_antisymm (hle t ht) (le_of_not_gt (List.not_lt_nil _))
    exact hempty ▸ ht
  · exact hmem

/-- The newest timestamp of some rows is that which sorts last. -/
theorem isGreatest_maxTs {rows : List (ConsoleEvent F)} (h : rows ≠ []) :
    IsGreatest {t | t ∈ rows.map fun e => e.event.ts} (maxTs rows) := by
  have hfold : ∀ (rows : List (ConsoleEvent F)) (start : Text),
      let newest := rows.foldl (fun newest e => max newest e.event.ts) start
      (newest = start ∨ newest ∈ rows.map fun e => e.event.ts) ∧ start ≤ newest ∧
        ∀ e ∈ rows, e.event.ts ≤ newest := by
    intro rows
    induction rows with
    | nil => exact fun start => ⟨.inl rfl, le_rfl, fun e he => absurd he List.not_mem_nil⟩
    | cons e rows ih =>
        intro start
        obtain ⟨hmem, hstart, hle⟩ := ih (max start e.event.ts)
        refine ⟨?_, (le_max_left _ _).trans hstart, fun e' he' => ?_⟩
        · obtain heq | hrest := hmem
          · obtain hmax | hmax := max_choice start e.event.ts
            · exact .inl (heq.trans hmax)
            · exact .inr (List.mem_cons.mpr (.inl (heq.trans hmax)))
          · exact .inr (List.mem_cons_of_mem _ hrest)
        · obtain rfl | hrest := List.mem_cons.mp he'
          · exact (le_max_right _ _).trans hstart
          · exact hle e' hrest
  obtain ⟨hmem, -, hle⟩ := hfold rows []
  exact isGreatest_of_le (by simpa using h) hmem (List.forall_mem_map.mpr hle)

/-- When an agent's rows are stamped. -/
def timesOf (rows : List DelegationRow) (id : Text) : List Text :=
  (rows.filter fun row => row.agentId = id).map DelegationRow.ts

theorem isGreatest_lastTs {rows : List DelegationRow} {g : DelegationGraph} (h : Shows rows g)
    {id : Text} (hid : id ≠ []) (hacted : timesOf rows id ≠ []) :
    IsGreatest {t | t ∈ timesOf rows id} (g.nodeAt id).lastTs := by
  have hmem : ∀ {t}, t ∈ timesOf rows id ↔ ∃ key ∈ g.seen, key.agentId = id ∧ key.ts = t := by
    intro t
    rw [timesOf, List.mem_map]
    constructor
    · rintro ⟨row, hrow, rfl⟩
      obtain ⟨hrow, hagent⟩ := List.mem_filter.mp hrow
      exact ⟨row.key, (h.seen _).mpr ⟨row, hrow, rfl⟩, of_decide_eq_true hagent, rfl⟩
    · rintro ⟨key, hkey, hagent, rfl⟩
      obtain ⟨row, hrow, rfl⟩ := (h.seen key).mp hkey
      exact ⟨row, List.mem_filter.mpr ⟨hrow, decide_eq_true hagent⟩, rfl⟩
  obtain ⟨hlast, hle⟩ := h.latest id hid
  refine isGreatest_of_le hacted (hlast.imp_right hmem.mpr) fun t ht => ?_
  obtain ⟨key, hkey, hagent, rfl⟩ := hmem.mp ht
  exact hle key hkey hagent

end Times

/-- A store and the events that were folded into its graph after it was built, all stamped with
timestamps. -/
structure DatedBus (F : Type) where
  store : Store F
  live : List (AgentEvent F)
  store_dated : ∀ e ∈ store.events, (Spelling.read e.event.ts).isSome = true
  live_dated : ∀ event ∈ live, (Spelling.read event.ts).isSome = true

namespace DatedBus

variable [DecidableEq F] (bus : DatedBus F) (E : Engine F) (cutoff : Option Int)

/-- The rows of the graph: those of the store, then the live ones. -/
def rows (stored : List DelegationRow) : List DelegationRow :=
  stored ++ bus.live.map AgentEvent.delegationRow

/-- The graph of the store with the live events folded in. -/
def graph (g : DelegationGraph) : DelegationGraph :=
  bus.live.foldl (fun g event => (g.addEvent event).2) g

/-- The stored events of a window that are counted together. -/
def counted (agentId eventType : Text) : List (ConsoleEvent F) :=
  (bus.store.events.filter (E.inWindow cutoff)).filter fun e =>
    E.groupKey e = (.text agentId, eventType)

/-- An agent's last timestamp in the graph and in the counts is the newest one. -/
structure LastSeenNewest : Prop where
  graph : ∀ stored g, bus.store.delegationEvents E.sqlite E.codec = some stored →
    DelegationGraph.fromStore E.sqlite E.codec bus.store = some g →
    ∀ id node, (bus.graph g).nodes.lookup id = some node → timesOf (bus.rows stored) id ≠ [] →
      NewestOf (timesOf (bus.rows stored) id) node.lastTs
  counts : ∀ counts, E.typeCountsSince cutoff bus.store = .ok counts → ∀ c ∈ counts,
    NewestOf ((bus.counted E cutoff c.agentId c.eventType).map fun e => e.event.ts) c.lastTs

/-- The spellings that the graph and the counts compare are in order. -/
structure SpelledInOrder : Prop where
  graph : ∀ stored, bus.store.delegationEvents E.sqlite E.codec = some stored →
    ∀ id, id ≠ [] → LastInOrder (timesOf (bus.rows stored) id)
  counts : (∃ counts, E.typeCountsSince cutoff bus.store = .ok counts) → ∀ agentId eventType,
    LastInOrder ((bus.counted E cutoff agentId eventType).map fun e => e.event.ts)

variable {bus E cutoff}

/-- Every row of the graph is stamped with a timestamp. -/
theorem dated_timesOf {stored : List DelegationRow}
    (h : bus.store.delegationEvents E.sqlite E.codec = some stored) (id : Text) :
    ∀ t ∈ timesOf (bus.rows stored) id, (Spelling.read t).isSome = true := by
  intro t ht
  obtain ⟨row, hrow, rfl⟩ := List.mem_map.mp ht
  obtain hstored | hlive := List.mem_append.mp (List.mem_of_mem_filter hrow)
  · rw [(mapM_eq_some_iff.mp h).2] at hstored
    obtain ⟨e, he, heq⟩ := List.mem_filterMap.mp hstored
    have hts : row.ts = e.event.ts := by
      rw [delegationRowOf] at heq
      split at heq
      · cases heq
        rfl
      · cases heq
    exact hts ▸ bus.store_dated e he
  · obtain ⟨event, hevent, rfl⟩ := List.mem_map.mp hlive
    exact bus.live_dated event hevent

theorem dated_counted (agentId eventType : Text) :
    ∀ t ∈ (bus.counted E cutoff agentId eventType).map fun e => e.event.ts,
      (Spelling.read t).isSome = true := by
  intro t ht
  obtain ⟨e, he, rfl⟩ := List.mem_map.mp ht
  exact bus.store_dated e (List.mem_of_mem_filter (List.mem_of_mem_filter he))

/-- The graph is the one of its rows. -/
theorem shows_graph {stored : List DelegationRow} {g : DelegationGraph}
    (h : bus.store.delegationEvents E.sqlite E.codec = some stored)
    (hg : DelegationGraph.fromStore E.sqlite E.codec bus.store = some g) :
    Shows (bus.rows stored) (bus.graph g) := by
  rw [DelegationGraph.fromStore, h, Option.map_some] at hg
  have hlive : bus.graph g =
      (bus.live.map AgentEvent.delegationRow).foldl DelegationGraph.ingestRow g := by
    rw [List.foldl_map]
    rfl
  have hshows := Shows.empty.foldl (bus.rows stored)
  rw [List.nil_append, rows, List.foldl_append, Option.some.inj hg, ← hlive] at hshows
  exact hshows

/-- The counts have one row for every subject and type that is counted, with the timestamp of
its events that sorts last. -/
theorem mem_counts {counts : List AgentTypeCount}
    (h : E.typeCountsSince cutoff bus.store = .ok counts) :
    (∀ c ∈ counts, bus.counted E cutoff c.agentId c.eventType ≠ [] ∧
        c.lastTs = maxTs (bus.counted E cutoff c.agentId c.eventType)) ∧
      ∀ agentId eventType, bus.counted E cutoff agentId eventType ≠ [] →
        ∃ c ∈ counts, c.agentId = agentId ∧ c.eventType = eventType := by
  have hmem := mem_iff_of_mapM h
  constructor
  · intro c hc
    obtain ⟨group, hgroup, hcount⟩ := (hmem c).mp hc
    obtain ⟨e, he, hkey⟩ := exists_key_of_mem_groupCounts hgroup
    cases htext : E.textColumn group.1.1 with
    | error err => rw [htext] at hcount; cases hcount
    | ok subject =>
        rw [htext] at hcount
        cases hcount
        have hgroup' : group.1 = (.text subject, group.1.2) := by
          rw [← E.textColumn_eq_ok htext]
        constructor
        · refine List.ne_nil_of_mem (a := e) (List.mem_filter.mpr ⟨he, decide_eq_true ?_⟩)
          exact hkey.trans hgroup'
        · rw [counted]
          exact congrArg (fun key => maxTs ((bus.store.events.filter (E.inWindow cutoff)).filter
            fun e => E.groupKey e = key)) hgroup'
  · intro agentId eventType hne
    obtain ⟨e, he⟩ := List.exists_mem_of_ne_nil _ hne
    obtain ⟨hwindow, hkey⟩ := List.mem_filter.mp he
    obtain ⟨⟨key, n⟩, hgroup, rfl⟩ : ∃ group ∈ groupCounts E.groupKey
        (bus.store.events.filter (E.inWindow cutoff)), group.1 = (.text agentId, eventType) :=
      ⟨_, List.mem_map.mpr ⟨_, List.mem_dedup.mpr (List.mem_map_of_mem hwindow), rfl⟩,
        of_decide_eq_true hkey⟩
    exact ⟨_, (hmem _).mpr ⟨_, hgroup, rfl⟩, rfl, rfl⟩

end DatedBus

/-- An agent's last timestamp is the newest one just when the spellings that are compared are
in order. -/
theorem lastSeenWhen : ∀ (F : Type) [DecidableEq F] (bus : DatedBus F) (E : Engine F)
    (cutoff : Option Int), bus.LastSeenNewest E cutoff ↔ bus.SpelledInOrder E cutoff := by
  intro F _ bus E cutoff
  constructor
  · intro hnewest
    refine ⟨fun stored hstored id hid => ?_, fun ⟨counts, hcounts⟩ agentId eventType => ?_⟩
    · by_cases hacted : timesOf (bus.rows stored) id = []
      · rw [hacted]
        exact fun t ht => absurd ht List.not_mem_nil
      · obtain ⟨g, hg⟩ : ∃ g, DelegationGraph.fromStore E.sqlite E.codec bus.store = some g :=
          ⟨_, by rw [DelegationGraph.fromStore, hstored]; rfl⟩
        have hshows := DatedBus.shows_graph hstored hg
        have hmem : id ∈ (bus.graph g).nodes := by
          obtain ⟨t, ht⟩ := List.exists_mem_of_ne_nil _ hacted
          obtain ⟨row, hrow, -⟩ := List.mem_map.mp ht
          obtain ⟨hrow', hagent⟩ := List.mem_filter.mp hrow
          obtain rfl := of_decide_eq_true hagent
          refine (hshows.nodes _).mpr ⟨row, hrow', ?_⟩
          exact List.mem_filter.mpr ⟨List.mem_append_right _ (List.mem_singleton_self _),
            by simpa using hid⟩
        have hlookup := (bus.graph g).lookup_nodes id
        rw [if_pos hmem] at hlookup
        exact (newestOf_iff (DatedBus.dated_timesOf hstored id)
          (isGreatest_lastTs hshows hid hacted)).mp
            (hnewest.graph stored g hstored hg id _ hlookup hacted)
    · by_cases hne : bus.counted E cutoff agentId eventType = []
      · rw [hne]
        exact fun t ht => absurd ht List.not_mem_nil
      · obtain ⟨hrows, hall⟩ := DatedBus.mem_counts hcounts
        obtain ⟨c, hc, rfl, rfl⟩ := hall agentId eventType hne
        have hlast := hnewest.counts counts hcounts c hc
        rw [(hrows c hc).2] at hlast
        exact (newestOf_iff (DatedBus.dated_counted _ _) (isGreatest_maxTs hne)).mp hlast
  · intro horder
    refine ⟨fun stored g hstored hg id node hnode hacted => ?_, fun counts hcounts c hc => ?_⟩
    · have hshows := DatedBus.shows_graph hstored hg
      have hmem := Finmap.mem_of_lookup_eq_some hnode
      have hid : id ≠ [] := by
        obtain ⟨row, -, hpath⟩ := (hshows.nodes id).mp hmem
        simpa using (List.mem_filter.mp hpath).2
      rw [(bus.graph g).lookup_nodes, if_pos hmem, Option.some.injEq] at hnode
      rw [← hnode]
      exact (newestOf_iff (DatedBus.dated_timesOf hstored id)
        (isGreatest_lastTs hshows hid hacted)).mpr (horder.graph stored hstored id hid)
    · obtain ⟨hrows, -⟩ := DatedBus.mem_counts hcounts
      obtain ⟨hne, hlast⟩ := hrows c hc
      rw [hlast]
      exact (newestOf_iff (DatedBus.dated_counted _ _) (isGreatest_maxTs hne)).mpr
        (horder.counts ⟨counts, hcounts⟩ _ _)

section Example

/-- A denial half a second after the other. -/
def laterDenial : AgentEvent Empty := { denial with ts := "2026-09-01T10:00:00.5Z" }

/-- A bus with a denial to the second and one half a second later. -/
def halfSecondBus : DatedBus Empty where
  store := { events := [denialAt 0, { denialAt 7 with event := laterDenial }] }
  live := []
  store_dated := by decide
  live_dated _ h := absurd h List.not_mem_nil

def sampleEngine : Engine Empty where
  sqlite := sqliteWithoutDoubles
  codec := FullCodec.ofEmpty recursionLimit
  jsonError _ := "expected value at line 1 column 1"
  columnError := "Invalid column type"
  parseTsMs _ := none

/-- The later denial is not when the agent was last seen, as `Z` sorts after a point. -/
theorem half_second_not_seen :
    ¬ ∀ (bus : DatedBus Empty) (E : Engine Empty) (cutoff : Option Int),
      bus.LastSeenNewest E cutoff := by
  intro hnewest
  let reported : Text := "2026-09-01T10:00:00Z"
  obtain ⟨counts, hcounts, hc⟩ : ∃ counts,
      sampleEngine.typeCountsSince none halfSecondBus.store = .ok counts ∧
        ⟨"agent://acme/pay/bot", "policy_deny", 2, reported⟩ ∈ counts := by
    have hread : (sampleEngine.typeCountsSince none halfSecondBus.store).toOption =
        some [⟨"agent://acme/pay/bot", "policy_deny", 2, reported⟩] := by decide
    cases hcounts : sampleEngine.typeCountsSince none halfSecondBus.store with
    | error err => rw [hcounts] at hread; cases hread
    | ok counts =>
        rw [hcounts] at hread
        cases hread
        exact ⟨_, rfl, List.mem_singleton_self _⟩
  obtain ⟨-, s, hs, hlatest⟩ :=
    (hnewest halfSecondBus sampleEngine none).counts counts hcounts _ hc
  obtain ⟨s', hs', hle⟩ := hlatest laterDenial.ts (by decide)
  have hlater : ∀ s ∈ Spelling.read reported, ∀ s' ∈ Spelling.read laterDenial.ts,
      s.instant < s'.instant := by decide +kernel
  exact absurd hle (not_le_of_gt (hlater s hs s' hs'))

end Example

end Genaryx.Core
