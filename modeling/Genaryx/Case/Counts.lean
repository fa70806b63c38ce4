import Genaryx.Case.Gather

/-!
# What a case counts

A case counts the rows of the lists that were read and names each list that was not. There are
two exceptions: the alerts of a blast radius are counted as none where they were not read, and the
budgets are not named where no run says so, nor ever the alerts that stand in for them.
-/

namespace Genaryx.Case

open Json Genaryx.Core

variable {F : Type}

/-- The error of a read that failed. -/
def errorOf {α : Type} : Except Text α → Option Text
  | .error reason => some reason
  | .ok _ => none

section Claims

variable (planes : CasePlanes F) (q : Questions)

/-- The error of the read that a section needs, if it is asked and fails. -/
def failedRead : Section → Option Text
  | .event => none
  | .runTimeline => q.runId.bind fun run => errorOf (planes.bus.eventsForRun run timelineCap)
  | .spend => q.runId.bind fun _ => errorOf planes.money.runs
  | .identity | .blastRadius => q.agent.bind fun _ => errorOf planes.identity.identities
  | .policy => errorOf planes.policy.status
  | .decisions => q.runId.bind fun _ => errorOf planes.policy.approvals
  | .similarIncidents =>
      errorOf (planes.bus.similarEvents q.eventType q.eventId similarLimit)
  | .priorRulings => errorOf (planes.memory.recalled (rulingsQuery q.eventType) rulingsLimit)

/-- The record of the agent that is asked about, in the list it was read in. -/
def Recorded (agent : Text) (me : Identity F) (identities : List (Identity F)) : Prop :=
  q.agent = some agent ∧ planes.identity.identities = .ok identities ∧
    findIdentity identities agent = some me

/-- The counts that a blast radius states are those of the lists it names. -/
structure CountsRows (row : Value F) (me : Identity F) (identities : List (Identity F))
    (alerts : List (Alert F)) : Prop where
  permissions : row.get "permissions".toList = some (usize me.permissions.length)
  admin : row.get "admin_permissions".toList = some (usize (me.permissions.countP (·.admin)))
  unused : row.get "unused_permissions".toList = some (usize (me.permissions.countP (!·.used)))
  delegates : row.get "delegates_to_total".toList =
    some (usize (identities.countP fun i => i.id != me.id && i.onBehalfOf.elem me.id))
  alerts : row.get "alerts".toList = some (usize (alerts.countP fun a => a.identity == me.id))

/-- What a case owes its reader. -/
structure Accounted (D : Digester F) (case : CaseFile F) : Prop where
  /-- One line for each section, in the fixed order. -/
  sections : case.lines.map CaseLine.sec = Section.all
  /-- A line counts the facts of its section. -/
  lines : ∀ line ∈ case.lines, line.facts = case.facts.countP fun fact => fact.sec == line.sec
  /-- A line says that its plane did not answer just when the read failed, and shows the
  error. -/
  failed : ∀ line ∈ case.lines,
    (line.state = .unavailable ↔ (failedRead planes q line.sec).isSome = true) ∧
      line.upstream = (failedRead planes q line.sec).map Data.bounded
  /-- An alert list that could not be read is named on the identity line. -/
  alerts : ∀ agent me identities reason, Recorded planes q agent me identities →
    planes.identity.alerts = .error reason →
    ∃ line ∈ case.lines, line.sec = .identity ∧ line.reason = some Words.alertsUnread
  /-- A run says whether the budget map was read. -/
  budgets : ∀ fact ∈ case.facts, fact.sec = .spend →
    fact.row.get "budgets_read".toList = some (.bool (errorOf planes.money.budgets).isNone)
  /-- A budget map that could not be read is named, unless the line names the runs. -/
  unread : ∀ run runs reason, q.runId = some run → planes.money.runs = .ok runs →
    planes.money.budgets = .error reason →
    ∃ fact ∈ case.facts, fact.sec = .spend ∧
      fact.row.get "budgets_read".toList = some (.bool false)
  /-- What is counted was read. -/
  counts : ∀ fact ∈ case.facts, fact.label = Label.blastRadius →
    ∃ agent me identities alerts, Recorded planes q agent me identities ∧
      planes.identity.alerts = .ok alerts ∧ CountsRows fact.row me identities alerts
  /-- The digest is the one of the case without it. -/
  digest : case.digest = digestOf D ({ case with digest := [] } : CaseFile F).toJson

end Claims

/-- The planes with other budget alerts read. -/
def CasePlanes.withAlerts (planes : CasePlanes F) (alerts : List (Text × Int)) : CasePlanes F :=
  { planes with money := { planes.money with alerts := .ok alerts } }

/-- The budget alerts stand in for the budget map. Where neither could be read, the case is not
that of any alerts that were. -/
def NamesAlerts (planes : CasePlanes F) (D : Digester F) (incidentId : Text) (q : Questions) : Prop :=
  ∀ run runs reason reason', q.runId = some run → planes.money.runs = .ok runs →
    planes.money.budgets = .error reason → planes.money.alerts = .error reason' →
    ∀ alerts, caseFile (planes.withAlerts alerts) D incidentId ≠ caseFile planes D incidentId

/-- The case of an incident, if there is one, is accounted for. -/
def CountsWhatWasRead (planes : CasePlanes F) (D : Digester F) (incidentId : Text) : Prop :=
  ∀ event case, eventOf planes incidentId = .ok event → caseFile planes D incidentId = .ok case →
    Accounted planes (questionsFor event) D case ∧
      NamesAlerts planes D incidentId (questionsFor event)

/-- The incident is filed under an agent that idryx has a record of, and its alert list could
not be read. -/
def AlertsUnread (planes : CasePlanes F) (incidentId : Text) : Prop :=
  ∃ event agent me identities reason, eventOf planes incidentId = .ok event ∧
    Recorded planes (questionsFor event) agent me identities ∧
    planes.identity.alerts = .error reason

/-- The incident has a run, the runs were read and the budget map was not, and either no run has
the incident's id or the alerts in place of the map were not read either. -/
def BudgetsUnread (planes : CasePlanes F) (incidentId : Text) : Prop :=
  ∃ event run runs reason, eventOf planes incidentId = .ok event ∧
    (questionsFor event).runId = some run ∧ planes.money.runs = .ok runs ∧
    planes.money.budgets = .error reason ∧
    ((∀ r ∈ runs, r.runId ≠ run) ∨ ∃ reason', planes.money.alerts = .error reason')

section Answers

variable {planes : CasePlanes F} {event : StoredEvent F} {q : Questions}

theorem answerFor_gather (sec : Section) :
    answerFor (gather planes event q) sec =
      some (match sec with
        | .event => one ⟨.bus, Text.decimal event.id, Label.event, event.toJson⟩
        | .runTimeline =>
            match q.runId with
            | none => .notAsked Words.noRun
            | some run =>
                answerOf (planes.bus.eventsForRun run timelineCap) (timelineAnswer planes)
        | .spend => aboutRun q .spend (spendAnswer planes)
        | .identity => (aboutAgent planes q).1
        | .blastRadius => (aboutAgent planes q).2
        | .policy => policyAnswer planes
        | .decisions => aboutRun q .decisions (decisionsAnswer planes)
        | .similarIncidents =>
            answerOf (planes.bus.similarEvents q.eventType q.eventId similarLimit)
              (similarAnswer q)
        | .priorRulings => rulingsAnswer planes q.eventType) := by
  cases sec <;> rfl

theorem reasonFor_questionsFor {sec : Section} (hsec : sec = .spend ∨ sec = .decisions) :
    (questionsFor event).reasonFor sec =
      if (questionsFor event).runId.isNone then some Words.noRun else none := by
  have hlist : (questionsFor event).notAsked =
      (if (questionsFor event).agent.isNone then
        [(.identity, Words.filedUnderAKey), (.blastRadius, Words.filedUnderAKey)] else []) ++
      (if (questionsFor event).runId.isNone then
        [(.runTimeline, Words.noRun), (.spend, Words.noRun), (.decisions, Words.noRun)]
      else []) := rfl
  rw [Questions.reasonFor, hlist]
  cases (questionsFor event).agent <;> cases (questionsFor event).runId <;>
    obtain rfl | rfl := hsec <;> rfl

/-- An ordinary event is asked about the agent it names, unless that is spelled as a key. -/
theorem agent_questionsFor (hplain : event.eventType ≠ identityMismatch)
    (hkey : Text.startsWith event.agentId keyPrefix = false) :
    (questionsFor event).agent = some event.agentId := by
  have hfiled : filedUnder event.eventType event.agentId event.data = event.agentId :=
    if_pos hplain
  simp only [questionsFor, hfiled, hkey, Bool.false_eq_true, if_false]

/-- A question about the run is asked just when there is a run. -/
theorem aboutRun_questionsFor {sec : Section} (hsec : sec = .spend ∨ sec = .decisions)
    (asked : Text → Answer F) :
    aboutRun (questionsFor event) sec asked =
      match (questionsFor event).runId with
      | some run => asked run
      | none => .notAsked Words.noRun := by
  rw [aboutRun, reasonFor_questionsFor hsec]
  cases (questionsFor event).runId <;> rfl

/-- The error of an answer that was not given. -/
def Answer.failure : Answer F → Option Text
  | .unavailable reason => some reason
  | _ => none

theorem state_lineOf (sec : Section) (a : Answer F) :
    ((lineOf sec (some a)).state = .unavailable ↔ a.failure.isSome = true) ∧
      (lineOf sec (some a)).upstream = a.failure.map Data.bounded := by
  cases a with
  | rows rows note => cases rows <;> simp [lineOf, Answer.failure]
  | unavailable reason => simp [lineOf, Answer.failure]
  | notAsked reason => simp [lineOf, Answer.failure]

theorem failure_answerOf {α : Type} (read : Except Text α) {shown : α → Answer F}
    (hshown : ∀ found, (shown found).failure = none) :
    (answerOf read shown).failure = errorOf read := by
  cases read with
  | error reason => rfl
  | ok found => exact hshown found

theorem errorOf_moneyRuns (money : MoneyPlane F) :
    errorOf (moneyRuns money) = errorOf money.runs := by
  unfold moneyRuns
  cases money.runs <;> rfl

theorem failure_identityAnswers (agent : Text) :
    (identityAnswers planes agent).1.failure = errorOf planes.identity.identities ∧
      (identityAnswers planes agent).2.failure = errorOf planes.identity.identities := by
  unfold identityAnswers
  cases planes.identity.identities with
  | error reason => exact ⟨rfl, rfl⟩
  | ok identities =>
      dsimp only
      cases findIdentity identities agent with
      | none => exact ⟨rfl, rfl⟩
      | some me => exact ⟨rfl, rfl⟩

/-- An answer was not given just when the read it needs failed. -/
theorem failure_gather (sec : Section) :
    ((answerFor (gather planes event (questionsFor event)) sec).bind Answer.failure) =
      failedRead planes (questionsFor event) sec := by
  have hagent : ∀ half : Answer F × Answer F → Answer F,
      (∀ agent, (half (identityAnswers planes agent)).failure =
        errorOf planes.identity.identities) →
      (∀ r r', (half (.notAsked r, .notAsked r')).failure = none) →
      (half (aboutAgent planes (questionsFor event))).failure =
        (questionsFor event).agent.bind fun _ => errorOf planes.identity.identities := by
    intro half hasked hnot
    rw [aboutAgent]
    cases (questionsFor event).agent with
    | none => exact hnot _ _
    | some agent => exact hasked agent
  rw [answerFor_gather, Option.bind_some]
  cases sec with
  | event => rfl
  | runTimeline =>
      rw [failedRead]
      cases (questionsFor event).runId with
      | none => rfl
      | some run => exact failure_answerOf _ fun _ => rfl
  | spend =>
      dsimp only
      rw [failedRead, aboutRun_questionsFor (.inl rfl)]
      cases (questionsFor event).runId with
      | none => rfl
      | some run =>
          refine (failure_answerOf _ fun runs => ?_).trans (errorOf_moneyRuns planes.money)
          split <;> rfl
  | identity => exact hagent Prod.fst (fun a => (failure_identityAnswers a).1) fun _ _ => rfl
  | blastRadius => exact hagent Prod.snd (fun a => (failure_identityAnswers a).2) fun _ _ => rfl
  | policy => exact failure_answerOf _ fun _ => rfl
  | decisions =>
      dsimp only
      rw [failedRead, aboutRun_questionsFor (.inr rfl)]
      cases (questionsFor event).runId with
      | none => rfl
      | some run => exact failure_answerOf _ fun _ => rfl
  | similarIncidents => exact failure_answerOf _ fun _ => rfl
  | priorRulings => exact failure_answerOf _ fun _ => rfl

/-- No row of an answer is labelled as a blast radius. -/
def Plain (a : Answer F) : Prop :=
  ∀ rows note, a = .rows rows note → ∀ row ∈ rows, row.label ≠ Label.blastRadius

theorem plain_answerOf {α : Type} (read : Except Text α) {shown : α → Answer F}
    (hshown : ∀ found, Plain (shown found)) : Plain (answerOf read shown) := by
  cases read with
  | error reason => rintro rows note ⟨⟩
  | ok found => exact hshown found

theorem plain_map {α : Type} (found : List α) (note : Option Text) {row : α → Row F}
    (hrow : ∀ x, (row x).label ≠ Label.blastRadius) : Plain (.rows (found.map row) note) := by
  rintro rows note' ⟨⟩ r hr
  obtain ⟨x, -, rfl⟩ := List.mem_map.mp hr
  exact hrow x

theorem plain_one {row : Row F} (hrow : row.label ≠ Label.blastRadius) : Plain (one row) := by
  rintro rows note ⟨⟩ r hr
  rwa [List.mem_singleton.mp hr]

theorem plain_nothing : Plain (nothing : Answer F) := by
  rintro rows note ⟨⟩ r hr
  cases hr

theorem plain_notAsked (reason : Text) : Plain (.notAsked reason : Answer F) := by
  rintro rows note ⟨⟩

theorem plain_identityAnswers (agent : Text) : Plain (identityAnswers planes agent).1 := by
  unfold identityAnswers
  cases planes.identity.identities with
  | error reason => rintro rows note ⟨⟩
  | ok identities =>
      dsimp only
      cases findIdentity identities agent with
      | none => exact plain_nothing
      | some me =>
          rintro rows note ⟨⟩ row hrow
          obtain rfl | hrow := List.mem_cons.mp hrow
          · exact (by decide : Label.identity ≠ Label.blastRadius)
          · obtain ⟨a, -, rfl⟩ := List.mem_map.mp hrow
            exact (by decide : Label.identityAlert ≠ Label.blastRadius)

/-- Only the section of the blast radius has one. -/
theorem plain_gather {sec : Section} {a : Answer F} (hsec : sec ≠ .blastRadius)
    (h : answerFor (gather planes event (questionsFor event)) sec = some a) : Plain a := by
  rw [answerFor_gather, Option.some.injEq] at h
  subst h
  cases sec with
  | event => exact plain_one (by decide : Label.event ≠ Label.blastRadius)
  | runTimeline =>
      dsimp only
      cases (questionsFor event).runId with
      | none => exact plain_notAsked _
      | some run =>
          exact plain_answerOf _ fun _ =>
            plain_map _ _ fun _ => (by decide : Label.timeline ≠ Label.blastRadius)
  | spend =>
      dsimp only
      rw [aboutRun_questionsFor (.inl rfl)]
      cases (questionsFor event).runId with
      | none => exact plain_notAsked _
      | some run =>
          refine plain_answerOf _ fun runs => ?_
          split
          · exact plain_nothing
          · exact plain_one (by decide : Label.spend ≠ Label.blastRadius)
  | identity =>
      rw [aboutAgent]
      cases (questionsFor event).agent with
      | none => exact plain_notAsked _
      | some agent => exact plain_identityAnswers agent
  | blastRadius => exact absurd rfl hsec
  | policy =>
      exact plain_answerOf _ fun _ =>
        plain_one (by decide : Label.policy ≠ Label.blastRadius)
  | decisions =>
      dsimp only
      rw [aboutRun_questionsFor (.inr rfl)]
      cases (questionsFor event).runId with
      | none => exact plain_notAsked _
      | some run =>
          exact plain_answerOf _ fun _ =>
            plain_map _ _ fun _ => (by decide : Label.decision ≠ Label.blastRadius)
  | similarIncidents =>
      refine plain_answerOf _ fun _ => plain_map _ _ fun e => ?_
      dsimp only
      split
      · exact (by decide : Label.similarSameSubject ≠ Label.blastRadius)
      · exact (by decide : Label.similarOtherSubject ≠ Label.blastRadius)
  | priorRulings =>
      exact plain_answerOf _ fun _ =>
        plain_map _ _ fun _ => (by decide : Label.ruling ≠ Label.blastRadius)

/-- What is answered about an agent that idryx has a record of. -/
theorem aboutAgent_recorded {agent : Text} {me : Identity F} {identities : List (Identity F)}
    (h : Recorded planes q agent me identities) :
    aboutAgent planes q =
      (match planes.identity.alerts with
      | .ok alerts =>
          (.rows (identityRows me (alertsOn alerts agent)) none,
            one ⟨.idryx, me.id ++ "#blast_radius".toList, Label.blastRadius,
              blastRadius me identities (alertsOn alerts agent).length⟩)
      | .error _ =>
          (.rows (identityRows me []) (some Words.alertsUnread),
            one ⟨.idryx, me.id ++ "#blast_radius".toList, Label.blastRadius,
              blastRadius me identities 0⟩)) := by
  obtain ⟨hagent, hread, hfind⟩ := h
  rw [aboutAgent, hagent]
  dsimp only
  rw [identityAnswers, hread]
  dsimp only
  rw [hfind]
  cases planes.identity.alerts <;> rfl

/-- A blast radius is only computed for a recorded agent. -/
theorem recorded_of_blast {rows : List (Row F)} {note : Option Text} {row : Row F}
    (h : (aboutAgent planes q).2 = .rows rows note) (hrow : row ∈ rows) :
    ∃ agent me identities, Recorded planes q agent me identities := by
  rw [aboutAgent] at h
  cases hagent : q.agent with
  | none => rw [hagent] at h; cases h
  | some agent =>
      rw [hagent] at h
      dsimp only at h
      rw [identityAnswers] at h
      cases hread : planes.identity.identities with
      | error reason => rw [hread] at h; cases h
      | ok identities =>
          rw [hread] at h
          dsimp only at h
          cases hfind : findIdentity identities agent with
          | none => rw [hfind] at h; cases h; cases hrow
          | some me => exact ⟨agent, me, identities, hagent, hread, hfind⟩

/-- The counts of a blast radius are those of the record, of the other records and of the
alerts it was given. -/
theorem countsRows_blastRadius {me : Identity F} {identities : List (Identity F)}
    {alerts : List (Alert F)} {agent : Text} (hagent : me.id = agent) :
    CountsRows (blastRadius me identities (alertsOn alerts agent).length) me identities
      alerts := by
  have hlookup : ∀ name, (blastRadius me identities (alertsOn alerts agent).length).get name =
      _ := fun name =>
    lookup_ofMembers_of_nodup (by simp only [List.map_cons, List.map_nil]; decide) name
  constructor
  · exact hlookup "permissions".toList
  · exact hlookup "admin_permissions".toList
  · exact hlookup "unused_permissions".toList
  · refine (hlookup "delegates_to_total".toList).trans ?_
    have hlength : (delegatesOf me identities).length =
        identities.countP fun i => i.id != me.id && i.onBehalfOf.elem me.id := by
      rw [delegatesOf, List.length_mergeSort, List.length_map, List.countP_eq_length_filter]
    rw [← hlength]
    rfl
  · refine (hlookup "alerts".toList).trans ?_
    rw [alertsOn, ← List.countP_eq_length_filter, hagent]
    rfl

/-- Every row of the runs table says whether the budgets were read. -/
theorem budgetsRead_moneyRuns {money : MoneyPlane F} {runs : List (RunDto F)} {r : RunDto F}
    (h : moneyRuns money = .ok runs) (hr : r ∈ runs) :
    r.toJson.get "budgets_read".toList = some (.bool (errorOf money.budgets).isNone) := by
  have hread : r.budgetsRead = (errorOf money.budgets).isNone := by
    unfold moneyRuns at h
    cases hruns : money.runs with
    | error reason => rw [hruns] at h; cases h
    | ok found =>
        rw [hruns] at h
        cases h
        obtain ⟨agg, -, rfl⟩ := List.mem_map.mp hr
        cases money.budgets with
        | ok budgets => rfl
        | error reason => cases money.alerts <;> rfl
  have hlast := lookup_ofMembers_concat (r.rest ++ [("run_id".toList, .string r.runId),
    ("budget_usd".toList, r.budgetUsd.getD .null)]) "budgets_read".toList (.bool r.budgetsRead)
  rw [List.append_assoc] at hlast
  rw [← hread]
  exact hlast

/-- The row of a run is in the table that the case looks it up in. -/
theorem find?_moneyRuns {money : MoneyPlane F} {found : List (RunAgg F)} (run : Text)
    (hfound : money.runs = .ok found) :
    ∃ runs, moneyRuns money = .ok runs ∧
      ((runs.find? fun r => r.runId == run) = none ↔ ∀ r ∈ found, r.runId ≠ run) := by
  unfold moneyRuns
  rw [hfound]
  refine ⟨_, rfl, ?_⟩
  rw [List.find?_eq_none, List.forall_mem_map]
  exact forall_congr' fun r => imp_congr_right fun _ => not_congr beq_iff_eq

variable (planes) in
/-- What the case is told of a run. -/
theorem answerFor_spend {run : Text} (hrun : (questionsFor event).runId = some run) :
    answerFor (gather planes event (questionsFor event)) .spend = some (spendAnswer planes run) := by
  rw [answerFor_gather]
  dsimp only
  rw [aboutRun_questionsFor (.inl rfl), hrun]

/-- Alerts that were not read stand in for the budgets as none at all do. -/
theorem gather_withAlerts {reason reason' : Text} (hbudgets : planes.money.budgets = .error reason)
    (halerts : planes.money.alerts = .error reason') :
    gather (planes.withAlerts []) event q = gather planes event q := by
  have hruns : moneyRuns (planes.withAlerts []).money = moneyRuns planes.money := by
    unfold moneyRuns CasePlanes.withAlerts
    dsimp only
    rw [hbudgets, halerts]
  have hspend : spendAnswer (planes.withAlerts []) = spendAnswer planes := by
    funext run
    rw [spendAnswer, spendAnswer, hruns]
  rw [gather, gather, hspend]
  rfl

end Answers

section Cases

variable {planes : CasePlanes F} {event : StoredEvent F} {D : Digester F} {head : Head}

/-- A fact of a case comes from a row of the answer of its section. -/
theorem exists_row_of_fact {fact : Fact F}
    (h : fact ∈ (assemble D head (gather planes event (questionsFor event))).facts) :
    ∃ rows note row,
      answerFor (gather planes event (questionsFor event)) fact.sec = some (.rows rows note) ∧
        row ∈ rows ∧ row.label = fact.label ∧ row.value = fact.row := by
  obtain ⟨rows, note, row, hanswer, hrow, heq⟩ :=
    mem_factsOf_iff.mp (mem_facts_assemble_iff.mp h)
  refine ⟨rows, note, row, hanswer, hrow, ?_, ?_⟩
  · rw [heq]
  · rw [heq]

/-- An alert list that could not be read is named on the identity line. -/
theorem exists_line_of_unread {agent : Text} {me : Identity F} {identities : List (Identity F)}
    {reason : Text} (h : Recorded planes (questionsFor event) agent me identities)
    (herror : planes.identity.alerts = .error reason) :
    ∃ line ∈ (assemble D head (gather planes event (questionsFor event))).lines,
      line.sec = .identity ∧ line.reason = some Words.alertsUnread := by
  refine ⟨_, mem_lines_assemble .identity, ?_⟩
  rw [answerFor_gather]
  dsimp only
  rw [aboutAgent_recorded h, herror]
  exact ⟨rfl, rfl⟩

/-- A budget map that could not be read is named on the run, and where there is none, nowhere. -/
theorem unread_named_iff {run : Text} {found : List (RunAgg F)} {reason : Text}
    (hrun : (questionsFor event).runId = some run) (hfound : planes.money.runs = .ok found)
    (hbudgets : planes.money.budgets = .error reason) :
    (∃ fact ∈ (assemble D head (gather planes event (questionsFor event))).facts,
        fact.sec = .spend ∧ fact.row.get "budgets_read".toList = some (.bool false)) ↔
      ∃ r ∈ found, r.runId = run := by
  obtain ⟨runs, hruns, hnone⟩ := find?_moneyRuns run hfound
  have hanswer := answerFor_spend planes hrun
  rw [spendAnswer, hruns, answerOf] at hanswer
  cases hfind : runs.find? fun r => r.runId == run with
  | none =>
      rw [hfind] at hanswer
      refine iff_of_false ?_ ?_
      · rintro ⟨fact, hfact, hsec, -⟩
        obtain ⟨rows, note, row, hrows, hrow, -⟩ := exists_row_of_fact hfact
        rw [hsec, hanswer] at hrows
        cases hrows
        cases hrow
      · rintro ⟨r, hr, heq⟩
        exact hnone.mp hfind r hr heq
  | some r =>
      rw [hfind] at hanswer
      refine iff_of_true ?_ ?_
      · let row : Row F := ⟨.tokenfuse, r.runId, Label.spend, r.toJson⟩
        refine ⟨⟨.spend, row.plane, row.rowId, digestOf D row.value, row.label, row.value⟩,
          mem_facts_assemble_iff.mpr (mem_factsOf_iff.mpr
            ⟨[row], none, row, hanswer, List.mem_singleton_self row, rfl⟩), rfl, ?_⟩
        have hread := budgetsRead_moneyRuns hruns (List.mem_of_find?_eq_some hfind)
        rw [hbudgets] at hread
        exact hread
      · by_contra hnot
        have hno := hnone.mpr fun r hr heq => hnot ⟨r, hr, heq⟩
        rw [hfind] at hno
        cases hno

/-- The case of the answers is accounted for if the alerts of a recorded agent were read, and the
run is in the table or its budgets were read. -/
theorem accounted_assemble
    (hread : ∀ agent me identities reason, Recorded planes (questionsFor event) agent me identities →
      planes.identity.alerts ≠ .error reason)
    (hrun : ∀ run found reason, (questionsFor event).runId = some run →
      planes.money.runs = .ok found → planes.money.budgets = .error reason →
      ∃ r ∈ found, r.runId = run) :
    Accounted planes (questionsFor event) D
      (assemble D head (gather planes event (questionsFor event))) where
  sections := sections_assemble
  lines := fun line hline => by
    rw [countP_facts_assemble, ← eq_of_mem_lines hline]
  failed := fun line hline => by
    rw [← @failure_gather F planes event line.sec, answerFor_gather, Option.bind_some]
    have heq := eq_of_mem_lines hline
    rw [answerFor_gather] at heq
    rw [congrArg CaseLine.state heq, congrArg CaseLine.upstream heq]
    exact state_lineOf (F := F) line.sec _
  alerts := fun agent me identities reason hrecorded herror =>
    exists_line_of_unread hrecorded herror
  budgets := fun fact hfact hsec => by
    obtain ⟨rows, note, row, hanswer, hrow, -, hvalue⟩ := exists_row_of_fact hfact
    rw [hsec, answerFor_gather, Option.some.injEq] at hanswer
    dsimp only at hanswer
    rw [aboutRun_questionsFor (.inl rfl)] at hanswer
    rw [← hvalue]
    cases hrun : (questionsFor event).runId with
    | none => rw [hrun] at hanswer; cases hanswer
    | some run =>
        rw [hrun] at hanswer
        dsimp only at hanswer
        rw [spendAnswer] at hanswer
        cases hruns : moneyRuns planes.money with
        | error reason => rw [hruns] at hanswer; cases hanswer
        | ok runs =>
            rw [hruns, answerOf] at hanswer
            cases hfind : runs.find? fun r => r.runId == run with
            | none => rw [hfind] at hanswer; cases hanswer; cases hrow
            | some r =>
                rw [hfind] at hanswer
                cases hanswer
                cases List.mem_singleton.mp hrow
                exact budgetsRead_moneyRuns hruns (List.mem_of_find?_eq_some hfind)
  unread := fun run found reason hasked hfound hbudgets =>
    (unread_named_iff hasked hfound hbudgets).mpr (hrun run found reason hasked hfound hbudgets)
  counts := fun fact hfact hlabel => by
    obtain ⟨rows, note, row, hanswer, hrow, hlabel', hvalue⟩ := exists_row_of_fact hfact
    have hsec : fact.sec = .blastRadius := by
      by_contra hsec
      exact plain_gather hsec hanswer rows note rfl row hrow (hlabel'.trans hlabel)
    rw [hsec, answerFor_gather, Option.some.injEq] at hanswer
    obtain ⟨agent, me, identities, hrecorded⟩ := recorded_of_blast hanswer hrow
    cases halerts : planes.identity.alerts with
    | error reason => exact absurd halerts (hread agent me identities reason hrecorded)
    | ok alerts =>
        dsimp only at hanswer
        rw [aboutAgent_recorded hrecorded, halerts] at hanswer
        cases hanswer
        cases List.mem_singleton.mp hrow
        refine ⟨agent, me, identities, alerts, hrecorded, rfl, ?_⟩
        rw [← hvalue]
        have hid := List.find?_some hrecorded.2.2
        exact countsRows_blastRadius (beq_iff_eq.mp hid)
  digest := digest_assemble

/-- The case of an agent whose alerts were not read counts none of them. -/
theorem exists_blast_of_unread {agent : Text} {me : Identity F} {identities : List (Identity F)}
    {reason : Text} (h : Recorded planes (questionsFor event) agent me identities)
    (herror : planes.identity.alerts = .error reason) :
    ∃ fact ∈ (assemble D head (gather planes event (questionsFor event))).facts,
      fact.label = Label.blastRadius := by
  refine ⟨⟨.blastRadius, .idryx, me.id ++ "#blast_radius".toList,
    digestOf D (blastRadius me identities 0), Label.blastRadius, blastRadius me identities 0⟩,
    ?_, rfl⟩
  let row : Row F := ⟨.idryx, me.id ++ "#blast_radius".toList, Label.blastRadius,
    blastRadius me identities 0⟩
  refine mem_facts_assemble_iff.mpr
    (mem_factsOf_iff.mpr ⟨[row], none, row, ?_, List.mem_singleton_self row, rfl⟩)
  rw [answerFor_gather]
  dsimp only
  rw [aboutAgent_recorded h, herror]
  rfl

theorem caseFile_of_eventOf {incidentId : Text} (h : eventOf planes incidentId = .ok event) :
    caseFile planes D incidentId = .ok (assemble D ⟨incidentId, (questionsFor event).subject,
      (questionsFor event).claimedAgent, (questionsFor event).runId⟩
        (gather planes event (questionsFor event))) := by
  rw [caseFile, h]
  rfl

theorem eventOf_withAlerts (alerts : List (Text × Int)) (incidentId : Text) :
    eventOf (planes.withAlerts alerts) incidentId = eventOf planes incidentId := rfl

/-- Where neither the budget map nor the alerts in its place were read, the case is the one of
alerts that were read and are empty. -/
theorem caseFile_withAlerts {incidentId : Text} {reason reason' : Text}
    (hevent : eventOf planes incidentId = .ok event)
    (hbudgets : planes.money.budgets = .error reason)
    (halerts : planes.money.alerts = .error reason') :
    caseFile (planes.withAlerts []) D incidentId = caseFile planes D incidentId := by
  have hevent' : eventOf (planes.withAlerts []) incidentId = .ok event :=
    (eventOf_withAlerts [] incidentId).trans hevent
  rw [caseFile_of_eventOf hevent, caseFile_of_eventOf hevent',
    gather_withAlerts hbudgets halerts]

/-- A case counts what was read just when no alert list of a recorded agent failed to be, and no
budget list failed to be where no run shows it. -/
theorem countsWhen : ∀ (F : Type) (planes : CasePlanes F) (D : Digester F) (incidentId : Text),
    CountsWhatWasRead planes D incidentId ↔
      ¬ AlertsUnread planes incidentId ∧ ¬ BudgetsUnread planes incidentId := by
  intro F planes D incidentId
  constructor
  · intro hcounts
    constructor
    · rintro ⟨event, agent, me, identities, reason, hevent, hrecorded, herror⟩
      have hcase := (hcounts event _ hevent (caseFile_of_eventOf hevent)).1
      obtain ⟨fact, hfact, hlabel⟩ := exists_blast_of_unread hrecorded herror
      obtain ⟨-, -, -, alerts, -, hread, -⟩ := hcase.counts fact hfact hlabel
      rw [herror] at hread
      cases hread
    · rintro ⟨event, run, runs, reason, hevent, hrun, hruns, hbudgets, hnone | ⟨reason', halerts⟩⟩
      · have hcase := (hcounts event _ hevent (caseFile_of_eventOf hevent)).1
        obtain ⟨r, hr, heq⟩ := (unread_named_iff hrun hruns hbudgets).mp
          (hcase.unread run runs reason hrun hruns hbudgets)
        exact hnone r hr heq
      · have hnames := (hcounts event _ hevent (caseFile_of_eventOf hevent)).2
        exact hnames run runs reason reason' hrun hruns hbudgets halerts []
          (caseFile_withAlerts hevent hbudgets halerts)
  · rintro ⟨halerts, hbudgets⟩ event case hevent hcase
    rw [caseFile_of_eventOf hevent] at hcase
    cases hcase
    constructor
    · refine accounted_assemble (fun agent me identities reason hrecorded herror => ?_)
        fun run runs reason hrun hruns herror => ?_
      · exact halerts ⟨event, agent, me, identities, reason, hevent, hrecorded, herror⟩
      · by_contra hnone
        exact hbudgets ⟨event, run, runs, reason, hevent, hrun, hruns, herror,
          .inl fun r hr heq => hnone ⟨r, hr, heq⟩⟩
    · intro run runs reason reason' hrun hruns herror herror'
      exact absurd ⟨event, run, runs, reason, hevent, hrun, hruns, herror, .inr ⟨reason', herror'⟩⟩
        hbudgets

end Cases

section Example

/-- An event of an agent. -/
def flintEvent : StoredEvent Empty where
  id := 42
  ts := "2026-10-07T10:00:00Z"
  eventType := "spend_spike"
  agentId := "agent://x/flint"

/-- The record of the agent. -/
def flintRecord : Identity Empty where
  id := flintEvent.agentId
  identityType := "agent"
  privileged := true

/-- Idryx gives its identities and not its alerts. -/
def silentPlanes : CasePlanes Empty where
  bus := ⟨.ok (), fun _ => .ok (some flintEvent), fun _ _ => .ok [], fun _ _ _ => .ok []⟩
  money := ⟨.ok [], .ok [], .ok [], fun _ => .null⟩
  policy := ⟨.ok ⟨"v7".toList, []⟩, .ok []⟩
  identity := ⟨.ok [flintRecord], .error "timed out".toList⟩
  memory := ⟨fun _ _ => .ok []⟩
  parseTsMs := fun _ => none

def plainDigester : Digester Empty where
  toText := fun _ => []
  sha256Hex := fun _ => []

theorem eventOf_silentPlanes : eventOf silentPlanes "bus:42".toList = .ok flintEvent := by
  have hid : eventIdOf "bus:42".toList = .ok 42 := by decide
  rw [eventOf, hid]
  rfl

theorem recorded_flint : Recorded silentPlanes (questionsFor flintEvent) flintEvent.agentId
    flintRecord [flintRecord] := by
  have hplain : flintEvent.eventType ≠ identityMismatch := by decide
  have hkey : Text.startsWith flintEvent.agentId keyPrefix = false := by decide
  refine And.intro (agent_questionsFor hplain hkey) (And.intro rfl ?_)
  rw [findIdentity, List.find?_cons_of_pos]
  exact beq_self_eq_true _

/-- The alerts of an agent were not read, and its case counts none of them. -/
theorem unread_alerts_counted :
    ¬ ∀ (F : Type) (planes : CasePlanes F) (D : Digester F) (incidentId : Text),
      CountsWhatWasRead planes D incidentId := by
  intro hcounts
  have hevent := eventOf_silentPlanes
  have hcase := (hcounts Empty silentPlanes plainDigester "bus:42".toList flintEvent _ hevent
    (caseFile_of_eventOf hevent)).1
  obtain ⟨fact, hfact, hlabel⟩ := exists_blast_of_unread recorded_flint rfl
  obtain ⟨-, -, -, alerts, -, hread, -⟩ := hcase.counts fact hfact hlabel
  cases hread

end Example

end Genaryx.Case
