import Genaryx.Core.GraphCounts
import Genaryx.Stats.Halts
import Genaryx.Stats.Totals
import Mathlib.Algebra.Order.BigOperators.Group.List

/-!
# Where the two views of stops agree

The list of an agent's stops and its counts over the whole store, where both are measured and
the rows of the counts were all read. The list ends at its limit and does not say so, takes a
block that names the agent twice for one, and takes every stop that names a person for a
person's.
-/

namespace Genaryx.Stats

open Base Json Genaryx.Core Std

variable {F : Type}

section Rows

variable (agentId : Text) (d : EventDetail F)

/-- A service's stop of the agent. -/
def serviceStop : Bool := d.filedUnder = agentId && d.eventType ∈ blockedTypes

/-- A service's stop of the agent at a person's decision. -/
def decidedStop : Bool := operatorStopped d && d.filedUnder = agentId

/-- How often a block names the agent again. -/
def repeated : Nat := (halts d).count agentId - 1

/-- A service's stop of the agent that names a person who did not decide it. -/
def misnamed : Bool :=
  serviceStop agentId d && (actorOf d.data).isSome && !isOperatorStop d.eventType d.data

variable {agentId d}

theorem mem_stopTypes_iff : d.eventType ∈ stopTypes ↔
    d.eventType ∈ blockedTypes ∨ d.eventType = consoleCommand := by
  rw [stopTypes, List.mem_append, List.mem_singleton]

/-- What the two views make of one row. -/
theorem row_counts (h : d.eventType ∈ stopTypes) :
    (if isStopOf agentId d then 1 else 0) + repeated agentId d =
        (if serviceStop agentId d then 1 else 0) + (halts d).count agentId ∧
      (if operatorStopOf agentId d then 1 else 0) + repeated agentId d =
        (if decidedStop agentId d then 1 else 0) + (halts d).count agentId +
          if misnamed agentId d then 1 else 0 := by
  by_cases hconsole : d.eventType = consoleCommand
  · -- A block of the console: only the agents it halted are its stops.
    have hnot : d.eventType ∉ blockedTypes := hconsole ▸ consoleCommand_notMem_blockedTypes
    have hservice : serviceStop agentId d = false := by
      rw [serviceStop, decide_eq_false hnot, Bool.and_false]
    have hdecided : decidedStop agentId d = false := by
      rw [decidedStop, operatorStopped, decide_eq_false hnot, Bool.false_and, Bool.false_and]
    have hmisnamed : misnamed agentId d = false := by
      rw [misnamed, hservice, Bool.false_and, Bool.false_and]
    have hbyOperator : (stopEntry d).byOperator = true := by
      rw [stopEntry, decide_eq_true hconsole, Bool.true_or, Bool.true_or]
    have hstop : isStopOf agentId d = decide (0 < (halts d).count agentId) := by
      rw [isStopOf, if_pos hconsole, halts, if_pos hconsole]
      exact decide_eq_decide.mpr List.count_pos_iff.symm
    rw [operatorStopOf, hbyOperator, Bool.true_and, hservice, hdecided, hmisnamed, hstop, repeated]
    simp only [decide_eq_true_eq, Bool.false_eq_true, if_false]
    split <;> omega
  · -- A stop of a service is one of the agent it is filed under.
    have hblocked : d.eventType ∈ blockedTypes :=
      (mem_stopTypes_iff.mp h).resolve_right hconsole
    have hhalts : halts d = [] := if_neg hconsole
    have hstop : isStopOf agentId d = serviceStop agentId d := by
      rw [isStopOf, if_neg hconsole, serviceStop, decide_eq_true hblocked, Bool.and_true]
    have hbyOperator : (stopEntry d).byOperator =
        (isOperatorStop d.eventType d.data || (actorOf d.data).isSome) := by
      rw [stopEntry, decide_eq_false hconsole, Bool.false_or]
    have hdecided : decidedStop agentId d =
        (isOperatorStop d.eventType d.data && serviceStop agentId d) := by
      rw [decidedStop, operatorStopped, serviceStop, decide_eq_true hblocked, Bool.true_and,
        Bool.and_true]
    rw [operatorStopOf, hbyOperator, hstop, hdecided, misnamed, repeated, hhalts, List.count_nil]
    constructor
    · rfl
    · cases serviceStop agentId d <;> cases isOperatorStop d.eventType d.data <;>
        cases (actorOf d.data).isSome <;> rfl

/-- What the two views make of rows that are all stops. -/
theorem rows_counts {rows : List (EventDetail F)} (h : ∀ d ∈ rows, d.eventType ∈ stopTypes) :
    rows.countP (isStopOf agentId) + (rows.map (repeated agentId)).sum =
        rows.countP (serviceStop agentId) + (rows.flatMap halts).count agentId ∧
      rows.countP (operatorStopOf agentId) + (rows.map (repeated agentId)).sum =
        rows.countP (decidedStop agentId) + (rows.flatMap halts).count agentId +
          rows.countP (misnamed agentId) := by
  induction rows with
  | nil => exact ⟨rfl, rfl⟩
  | cons d rows ih =>
      obtain ⟨htotal, hoperator⟩ := ih fun x hx => h x (List.mem_cons_of_mem d hx)
      obtain ⟨hrow, hrow'⟩ := @row_counts F agentId d (h d List.mem_cons_self)
      simp only [List.countP_cons, List.map_cons, List.sum_cons, List.flatMap_cons,
        List.count_append]
      constructor <;> omega

/-- Rows of which none is a stop of the agent count nothing for it. -/
theorem counts_of_no_stop {rows : List (EventDetail F)}
    (h : ∀ d ∈ rows, d.eventType ∈ stopTypes) (hnone : rows.countP (isStopOf agentId) = 0) :
    rows.countP (serviceStop agentId) = 0 ∧ rows.countP (decidedStop agentId) = 0 ∧
      (rows.flatMap halts).count agentId = 0 := by
  have hnone' : ∀ d ∈ rows, isStopOf agentId d = false := fun d hd =>
    Bool.not_eq_true _ ▸ List.countP_eq_zero.mp hnone d hd
  have hrow : ∀ d ∈ rows, serviceStop agentId d = false ∧ decidedStop agentId d = false ∧
      (halts d).count agentId = 0 := by
    intro d hd
    obtain ⟨htotal, hoperator⟩ := @row_counts F agentId d (h d hd)
    rw [operatorStopOf, hnone' d hd, Bool.and_false, if_neg Bool.false_ne_true, repeated] at *
    refine ⟨?_, ?_, ?_⟩
    · by_contra hservice
      rw [if_pos (Bool.eq_true_of_not_eq_false hservice)] at htotal
      omega
    · by_contra hdecided
      rw [if_pos (Bool.eq_true_of_not_eq_false hdecided)] at hoperator
      omega
    · omega
  refine ⟨List.countP_eq_zero.mpr fun d hd => ?_, List.countP_eq_zero.mpr fun d hd => ?_, ?_⟩
  · rw [(hrow d hd).1]
    exact Bool.false_ne_true
  · rw [(hrow d hd).2.1]
    exact Bool.false_ne_true
  · rw [List.count_flatMap, List.sum_eq_zero_iff]
    intro n hn
    obtain ⟨d, hd, rfl⟩ := List.mem_map.mp hn
    exact (hrow d hd).2.2

/-- The list of the first rows gives the counts of all of them just when no stop of the agent
is among the others, no block names the agent twice, and no stop names a person who did not
decide it. -/
theorem lists_agree_iff {front back : List (EventDetail F)}
    (hfront : ∀ d ∈ front, d.eventType ∈ stopTypes) (hback : ∀ d ∈ back, d.eventType ∈ stopTypes) :
    (front.countP (isStopOf agentId) = (front ++ back).countP (serviceStop agentId) +
          ((front ++ back).flatMap halts).count agentId ∧
        front.countP (operatorStopOf agentId) = (front ++ back).countP (decidedStop agentId) +
          ((front ++ back).flatMap halts).count agentId) ↔
      (∀ d ∈ back, isStopOf agentId d = false) ∧ (∀ d ∈ front, (halts d).count agentId ≤ 1) ∧
        ∀ d ∈ front, misnamed agentId d = false := by
  obtain ⟨htotal, hoperator⟩ := @rows_counts F agentId front hfront
  obtain ⟨hbacktotal, -⟩ := @rows_counts F agentId back hback
  have hlate : (∀ d ∈ back, isStopOf agentId d = false) ↔ back.countP (isStopOf agentId) = 0 := by
    rw [List.countP_eq_zero]
    simp only [Bool.not_eq_true]
  have honce : (∀ d ∈ front, (halts d).count agentId ≤ 1) ↔
      (front.map (repeated agentId)).sum = 0 := by
    rw [List.sum_eq_zero_iff, List.forall_mem_map]
    simp only [repeated, Nat.sub_eq_zero_iff_le]
  have hnamed : (∀ d ∈ front, misnamed agentId d = false) ↔
      front.countP (misnamed agentId) = 0 := by
    rw [List.countP_eq_zero]
    simp only [Bool.not_eq_true]
  rw [hlate, honce, hnamed]
  simp only [List.countP_append, List.flatMap_append, List.count_append]
  constructor
  · rintro ⟨hsame, hsame'⟩
    have hnone : back.countP (isStopOf agentId) = 0 := by omega
    obtain ⟨hservice, hdecided, hhalts⟩ := counts_of_no_stop hback hnone
    omega
  · rintro ⟨hnone, hrepeated, hmisnamed⟩
    obtain ⟨hservice, hdecided, hhalts⟩ := counts_of_no_stop hback hnone
    omega

end Rows

variable [DecidableEq F] (H : Host F)

/-- The stored events that a stop can be read from, as they are read, newest first. -/
def stopReads (s : Store F) : List (EventDetail F) :=
  (s.events.reverse.map (readOf H.toEngine)).filter fun d => d.eventType ∈ stopTypes

/-- How many rows the list of stops reads. -/
def stopLimit (limit : Nat) : Nat := min (max limit 1) i64Max

/-- The rows of a list of stops show an agent's stops as they are counted. -/
structure ListedAsCounted (s : Store F) (agentId : Text) (limit : Nat) : Prop where
  /-- No stop of the agent is older than the rows the list reads. -/
  reached : ∀ d ∈ (stopReads H s).drop (stopLimit limit), isStopOf agentId d = false
  /-- No block names the agent twice. -/
  once : ∀ d ∈ (stopReads H s).take (stopLimit limit), (halts d).count agentId ≤ 1
  /-- Only a stop that a person decided names a person. -/
  named : ∀ d ∈ (stopReads H s).take (stopLimit limit), misnamed agentId d = false

/-- Both views are measured, and the counts read every row whose data they need. -/
structure BothRead (store : EventStore F) (s : Store F) (agentId : Text)
    (limit detailScan : Nat) : Prop where
  opened : ∃ faults, store = .opened s faults
  /-- Every row has a row id. -/
  numbered : s.events.length ≤ i64Max
  stops : (agentStops H agentId limit store).measured = true
  stats : (statsCounts H detailScan 0 store).measured = true
  uncapped : (statsCounts H detailScan 0 store).detailScanned < detailScan

/-- An agent's stops in the list are those in the counts. -/
def ViewsAgree (store : EventStore F) (agentId : Text) (limit detailScan : Nat) : Prop :=
  (agentStops H agentId limit store).total =
      ((statsCounts H detailScan 0 store).agent agentId).blocked ∧
    (agentStops H agentId limit store).byOperator =
      ((statsCounts H detailScan 0 store).agent agentId).blockedByOperator

variable {H} {s : Store F} {store : EventStore F} {agentId : Text} {limit detailScan : Nat}

section Filters

variable {α β γ : Type} {p : α → Bool} {g : α → β} {q : β → Bool} {xs : List α}

/-- What is counted in the rows of one choice is counted in those of another if both choose
every row that counts. -/
theorem countP_filter_map {r : β → Bool} (h : ∀ x, r (g x) = true → p x = true ∧ q (g x) = true) :
    ((xs.filter p).map g).countP r = ((xs.map g).filter q).countP r := by
  rw [List.countP_map, List.countP_filter, List.countP_filter, List.countP_map]
  refine List.countP_congr fun x _ => ?_
  simp only [Function.comp_apply, Bool.and_eq_true]
  constructor
  · exact fun hx => ⟨hx.1, (h x hx.1).2⟩
  · exact fun hx => ⟨hx.1, (h x hx.1).1⟩

theorem flatMap_filter_of_nil {f : α → List γ} (h : ∀ x, p x = false → f x = []) :
    (xs.filter p).flatMap f = xs.flatMap f := by
  induction xs with
  | nil => rfl
  | cons x xs ih =>
      cases hp : p x with
      | true => rw [List.filter_cons_of_pos hp, List.flatMap_cons, List.flatMap_cons, ih]
      | false =>
          rw [List.filter_cons_of_neg (by rw [hp]; exact Bool.false_ne_true), List.flatMap_cons,
            h x hp, List.nil_append, ih]

end Filters

/-- The rows whose data the counts need hold what is counted of a stop. -/
theorem detail_counts (s : Store F) :
    let rows := (s.events.reverse.filter fun e => H.wants detailTypes amountFields e).map
      (readOf H.toEngine)
    rows.countP (decidedStop agentId) = (stopReads H s).countP (decidedStop agentId) ∧
      (rows.flatMap halts).count agentId = ((stopReads H s).flatMap halts).count agentId ∧
        (s.events.countP fun e => (H.subjectOf e).asText = agentId &&
            e.event.eventType ∈ blockedTypes) =
          (stopReads H s).countP (serviceStop agentId) := by
  have hwants : ∀ e : ConsoleEvent F, e.event.eventType ∈ detailTypes →
      H.wants detailTypes amountFields e = true := fun e he => by
    rw [Engine.wants, decide_eq_true he, Bool.true_or]
  have hhalts : ∀ d : EventDetail F, d.eventType ≠ consoleCommand → halts d = [] :=
    fun d hd => if_neg hd
  intro rows
  refine ⟨?_, ?_, ?_⟩
  · -- A decided stop is one of the two types that are read for it.
    refine countP_filter_map fun e he => ?_
    rw [decidedStop, operatorStopped, Bool.and_eq_true, Bool.and_eq_true, decide_eq_true_eq] at he
    obtain ⟨⟨hblocked, hoperator⟩, -⟩ := he
    refine ⟨hwants e ?_, decide_eq_true (mem_stopTypes_iff.mpr (.inl hblocked))⟩
    have htype : (readOf H.toEngine e).eventType = e.event.eventType := rfl
    rw [isOperatorStop, htype] at hoperator
    split at hoperator
    · next hkilled => rw [hkilled]; decide
    · split at hoperator
      · next hdenied => rw [hdenied]; decide
      · cases hoperator
  · have hleft : rows.flatMap halts =
        s.events.reverse.flatMap fun e => halts (readOf H.toEngine e) := by
      rw [List.flatMap_map]
      refine flatMap_filter_of_nil fun e he => hhalts _ fun hconsole => ?_
      have hdetail : e.event.eventType ∈ detailTypes := by
        rw [show e.event.eventType = consoleCommand from hconsole]
        decide
      rw [hwants e hdetail] at he
      cases he
    have hright : (stopReads H s).flatMap halts =
        s.events.reverse.flatMap fun e => halts (readOf H.toEngine e) := by
      rw [stopReads, flatMap_filter_of_nil, List.flatMap_map]
      intro d hd
      refine hhalts d fun hconsole => ?_
      rw [decide_eq_true (mem_stopTypes_iff.mpr (.inr hconsole))] at hd
      cases hd
    rw [hleft, hright]
  · rw [stopReads, List.countP_filter, List.countP_map, List.countP_reverse]
    refine List.countP_congr fun e _ => ?_
    simp only [serviceStop, Function.comp_apply, readOf, Bool.and_eq_true]
    constructor
    · exact fun he => ⟨he, decide_eq_true (List.mem_append_left _ (of_decide_eq_true he.2))⟩
    · exact fun he => he.1

/-- The counts of an agent where every row they need is read. -/
theorem agent_of_bothRead (h : BothRead H store s agentId limit detailScan) :
    ((statsCounts H detailScan 0 store).agent agentId).blocked =
        (stopReads H s).countP (serviceStop agentId) +
          ((stopReads H s).flatMap halts).count agentId ∧
      ((statsCounts H detailScan 0 store).agent agentId).blockedByOperator =
        (stopReads H s).countP (decidedStop agentId) +
          ((stopReads H s).flatMap halts).count agentId := by
  obtain ⟨s', faults, counts, rows, hstore, hcounts, hread, -, hscanned, -, hagents⟩ :=
    statsCounts_of_measured h.stats
  obtain ⟨faults', hstore'⟩ := h.opened
  obtain rfl : s' = s := by
    rw [hstore'] at hstore
    cases hstore
    rfl
  have huncapped := h.uncapped
  rw [hscanned] at huncapped
  -- A read below its cap is of every row.
  have hall : rows = (s'.events.reverse.filter fun e => H.wants detailTypes amountFields e).map
      (readOf H.toEngine) := by
    have hrows := eventsOfTypesSince_eq_ok (show detailTypes ≠ [] by decide) hread
    have hwindow : (fun e => H.wants detailTypes amountFields e && H.inWindow (cutoffOf H 0) e) =
        fun e => H.wants detailTypes amountFields e := by
      funext e
      exact Bool.and_true _
    rw [hwindow, newest] at hrows
    rw [hrows]
    refine List.take_of_length_le ?_
    have hlength := congrArg List.length hrows
    rw [List.length_take, List.length_map] at hlength
    have hle := List.length_filter_le (fun e => H.wants detailTypes amountFields e)
      s'.events.reverse
    rw [List.length_reverse] at hle
    have hnumbered := h.numbered
    rw [List.length_map]
    omega
  have hentry : (statsCounts H detailScan 0 store).agent agentId =
      entryOf .new (tally H.usdOvershoot counts rows) agentId := by
    rw [StatsPanel.agent, hagents, (tally_namedBy _ _ _).find?_entries]
    rfl
  have hevents : s'.events.filter (H.inWindow (cutoffOf H 0)) = s'.events :=
    List.filter_eq_self.mpr fun _ _ => rfl
  have hsum := typeCountsSince_eq_ok hcounts fun key => key.1 = agentId && key.2 ∈ blockedTypes
  rw [hevents] at hsum
  obtain ⟨hdecided, hhalts, hservice⟩ := @detail_counts F _ H agentId s'
  rw [hentry, blocked_tally, blockedByOperator_tally, hsum, hall, hhalts, hservice]
  exact ⟨rfl, congrArg (· + _) hdecided⟩

/-- The list of an agent's stops over the rows it reads. -/
theorem stops_of_bothRead (h : BothRead H store s agentId limit detailScan) :
    (agentStops H agentId limit store).total =
        ((stopReads H s).take (stopLimit limit)).countP (isStopOf agentId) ∧
      (agentStops H agentId limit store).byOperator =
        ((stopReads H s).take (stopLimit limit)).countP (operatorStopOf agentId) := by
  obtain ⟨s', faults, rows, hstore, hread, htotal, hoperator⟩ := agentStops_of_measured h.stops
  obtain ⟨faults', hstore'⟩ := h.opened
  obtain rfl : s' = s := by
    rw [hstore'] at hstore
    cases hstore
    rfl
  have hrows : rows = (stopReads H s').take (stopLimit limit) := by
    have hwants : (fun e => H.wants stopTypes [] e && H.inWindow none e) =
        (fun d : EventDetail F => decide (d.eventType ∈ stopTypes)) ∘ readOf H.toEngine := by
      funext e
      exact (Bool.and_true _).trans (Bool.or_false _)
    rw [eventsOfTypesSince_eq_ok (show stopTypes ≠ [] by decide) hread, newest, stopReads,
      stopLimit, List.filter_map, hwants]
  rw [htotal, hoperator, hrows]
  exact ⟨rfl, rfl⟩

/-- The two views of an agent's stops agree just when the list shows them as they are
counted. -/
theorem viewsAgreeWhen : ∀ (F : Type) [DecidableEq F] (H : Host F) (store : EventStore F)
    (agentId : Text) (limit detailScan : Nat),
    (∀ s, BothRead H store s agentId limit detailScan → ViewsAgree H store agentId limit detailScan) ↔
      ∀ s, BothRead H store s agentId limit detailScan → ListedAsCounted H s agentId limit := by
  intro F _ H store agentId limit detailScan
  refine forall_congr' fun s => forall_congr' fun h => ?_
  obtain ⟨hblocked, hoperator⟩ := agent_of_bothRead h
  obtain ⟨htotal, hbyOperator⟩ := stops_of_bothRead h
  have htypes : ∀ d ∈ stopReads H s, d.eventType ∈ stopTypes := fun d hd =>
    of_decide_eq_true (List.mem_filter.mp hd).2
  have hagree := @lists_agree_iff F agentId ((stopReads H s).take (stopLimit limit))
    ((stopReads H s).drop (stopLimit limit)) (fun d hd => htypes d (List.mem_of_mem_take hd))
    (fun d hd => htypes d (List.mem_of_mem_drop hd))
  rw [List.take_append_drop] at hagree
  rw [ViewsAgree, hblocked, hoperator, htotal, hbyOperator, hagree]
  constructor
  · rintro ⟨hreached, honce, hnamed⟩
    exact ⟨hreached, honce, hnamed⟩
  · rintro ⟨hreached, honce, hnamed⟩
    exact ⟨hreached, honce, hnamed⟩

section Example

/-- The console's store with two denials of one agent. -/
def denialsStore : EventStore Empty := .opened twoDenials {}

theorem bothRead_denials :
    BothRead sampleHost denialsStore twoDenials "agent://acme/pay/bot".toList 1 10 where
  opened := ⟨{}, rfl⟩
  numbered := by decide
  stops := by decide
  stats := by decide
  uncapped := by decide

/-- A list of one stop, where two are counted, does not say that it was cut short. -/
theorem stops_cut_short :
    ¬ ∀ (H : Host Empty) (store : EventStore Empty) (agentId : Text) (limit detailScan : Nat) s,
      BothRead H store s agentId limit detailScan →
        ViewsAgree H store agentId limit detailScan := by
  intro hagree
  obtain ⟨htotal, -⟩ := hagree _ _ _ _ _ _ bothRead_denials
  rw [(agent_of_bothRead bothRead_denials).1, (stops_of_bothRead bothRead_denials).1] at htotal
  exact absurd htotal (by decide)

end Example

end Genaryx.Stats
