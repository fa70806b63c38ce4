import Genaryx.Remedies.Routes
import Genaryx.Replay.Answered

/-!
# A checked remedy is carried out as it says

A remedy that passes its check is one that the rest of the console takes. If it is routed to a
command, the command is for admins and has the ceremony, and with the arguments filled in and any
reason a person may give it acts on the subject that the remedy names and on no other. If it has a
proof, no run of proofs refuses its candidate. Its check against an incident says whether the type of
the incident's event is one that its kind is for.

## Implementation notes

The answer to a remedy's proof is one that some run of requests gives, whatever else is asked there.
-/

namespace Genaryx.Remedies

open Base Base.Transition Json Text Delegation
open Replay (Request ProofError ProofConfig)

variable {F : Type}

/-! ## The commands -/

/-- A remedy that passed its check. -/
structure Checked where
  remedy : Remedy
  check_eq : remedy.check = .ok ()

example : (Remedy.stopAgent "agent://acme.example/bot/a").check = .ok () := by decide

/-- Arguments that are filled in, with what a person supplies. -/
def Completes (arguments args : Value F) (supplies : List Text) (reason : Text) : Prop :=
  ∃ members, args = .object members ∧ ∀ name, members.lookup name =
    if name ∈ supplies then some (.string reason) else arguments.get name

/-- A reason that a person may give. -/
def Reasonable (reason : Text) : Prop :=
  trim reason ≠ [] ∧ (trim reason).length ≤ maxReasonLen

/-- A request that is about one subject: it cuts the subject off at vouchryx, asks for the list of
runs, or kills an open run of the subject that is in the list. -/
inductive ActsOn (S : Setting F) (subject : Text) : Sent F → Prop
  | cutOff {post : Post F} (hsubject : post.body.get "subject".toList = some (.string subject))
      (hjti : post.body.get "jti".toList = some (.string [])) : ActsOn S subject (.vouchryx post)
  | list : ActsOn S subject (.cloud (.get "/v1/runs".toList))
  | kill {runs : List Money.RunAgg} {run : Money.RunAgg} {path : Text}
      (hlisted : S.listed = some runs) (hrun : run ∈ runs) (hagent : run.agentId = subject)
      (hopen : run.killed = false) (hpath : Money.Addresses "runs" "kill" run.runId path) :
      ActsOn S subject (.cloud (.post path []))

section Texts

variable {s reason : Text}

theorem startsWith_of_isAgentId (h : isAgentId s = true) : startsWith s "agent://" = true := by
  rw [isAgentId] at h
  split at h
  · cases h
  · next rest hrest =>
      apply (startsWith_iff _ _).mpr
      exact ⟨rest, ((stripPrefix_eq_some_iff _ _ _).mp hrest).symm⟩

theorem startsWith_of_isUserId (h : isUserId s = true) : startsWith s "user://" = true := by
  rw [isUserId] at h
  split at h
  · cases h
  · next rest hrest =>
      apply (startsWith_iff _ _).mpr
      exact ⟨rest, ((stripPrefix_eq_some_iff _ _ _).mp hrest).symm⟩

theorem not_badLength (h : Reasonable reason) :
    ¬ ((trim reason).length = 0 || (trim reason).length > maxReasonLen) = true := by
  obtain ⟨hne, hlength⟩ := h
  have hpos := List.length_pos_iff.mpr hne
  simp only [Bool.or_eq_true, decide_eq_true_eq]
  omega

theorem validateArgs_subject
    (hs : startsWith s "agent://" = true ∨ startsWith s "user://" = true)
    (hreason : Reasonable reason) :
    (validateArgs (some s) none reason : Except (DelegationError F) _) =
      .ok (.subject s, trim reason) := by
  rw [validateArgs]
  dsimp only
  rw [if_pos ((Bool.or_eq_true _ _).mpr hs)]
  exact if_neg (not_badLength hreason)

end Texts

section Arguments

variable {args : Value F} {subject reason : Text}

theorem get_named (name : Text) :
    (Remedy.named subject : Value F).get name =
      if name = "subject".toList then some (.string subject) else none := by
  change List.lookup name [("subject".toList, Value.string subject)] = _
  rw [List.lookup_cons]
  split
  next h => rw [if_pos (eq_of_beq h)]
  next h => rw [if_neg (ne_of_beq_false h)]; rfl

/-- What the routed commands read in completed arguments. -/
theorem lookup_completes (h : Completes (Remedy.named subject) args ["reason".toList] reason) :
    ∃ members, args = .object members ∧
      members.lookup "subject".toList = some (.string subject) ∧
      members.lookup "jti".toList = none ∧
      members.lookup "reason".toList = some (.string reason) := by
  obtain ⟨members, rfl, hlookup⟩ := h
  refine ⟨members, rfl, ?_, ?_, ?_⟩
  · rw [hlookup, if_neg (by decide), get_named, if_pos rfl]
  · rw [hlookup, if_neg (by decide), get_named, if_neg (by decide)]
  · rw [hlookup, if_pos (List.mem_singleton.mpr rfl)]

theorem decodeStop_completes (h : Completes (Remedy.named subject) args ["reason".toList] reason) :
    decodeStop args = some (subject, reason) := by
  obtain ⟨members, rfl, hsubject, -, hreason⟩ := lookup_completes h
  rw [decodeStop, textField, textField, hsubject, hreason]
  rfl

theorem decodeRevoke_completes
    (h : Completes (Remedy.named subject) args ["reason".toList] reason) :
    decodeRevoke args = some (some subject, none, reason) := by
  obtain ⟨members, rfl, hsubject, hjti, hreason⟩ := lookup_completes h
  rw [decodeRevoke, textField, hsubject, hjti, hreason]
  rfl

end Arguments

section Sending

variable (S : Setting F) {subject reason : Text} (c : Command.Chronicle F)

/-- The request of a ban. -/
theorem sent_ban : (S.ban subject reason).2 =
    match S.config with
    | .notConfigured => []
    | .configured url key => [banPost url key subject (actor S.ambient) reason] := by
  unfold StopSetting.ban banAtVouchryx
  cases S.config <;> rfl

theorem actsOn_revokePost (url key : Text) :
    ActsOn S subject (.vouchryx (revokePost S.ambient url key (.subject subject) reason)) := by
  have hnodup : ["jti".toList, "subject".toList, "actor".toList, "reason".toList].Nodup := by decide
  apply ActsOn.cutOff
  · exact (lookup_ofMembers_of_nodup (by exact hnodup) _).trans rfl
  · exact (lookup_ofMembers_of_nodup (by exact hnodup) _).trans rfl

theorem actsOn_banPost (url key actor : Text) :
    ActsOn S subject (.vouchryx (banPost url key subject actor reason)) := by
  have hnodup : ["jti".toList, "subject".toList, "actor".toList, "reason".toList,
      "ban".toList].Nodup := by decide
  apply ActsOn.cutOff
  · exact (lookup_ofMembers_of_nodup (by exact hnodup) _).trans rfl
  · exact (lookup_ofMembers_of_nodup (by exact hnodup) _).trans rfl

/-- What a revocation of valid arguments sends. -/
theorem sent_delegationRevoke {s : Text}
    (hs : startsWith s "agent://" = true ∨ startsWith s "user://" = true)
    (hreason : Reasonable reason) :
    (delegationRevoke S.journaling S.ambient S.config S.revokeReply (some s) none reason c).1.2 =
      match S.config with
      | .notConfigured => []
      | .configured url key => [revokePost S.ambient url key (.subject s) (trim reason)] := by
  rw [delegationRevoke, validateArgs_subject hs hreason]
  dsimp only
  cases S.config with
  | notConfigured => rfl
  | configured url key => dsimp only; split <;> rfl

theorem actsOn_ban : ∀ request ∈ (S.ban subject reason).2.map Sent.vouchryx,
    ActsOn S subject request := by
  rw [sent_ban]
  cases S.config with
  | notConfigured => exact fun _ h => absurd h List.not_mem_nil
  | configured url key =>
      exact List.forall_mem_singleton.mpr (actsOn_banPost S url key (actor S.ambient))

theorem actsOn_listSent : ∀ request ∈ S.listSent.map Sent.cloud, ActsOn S subject request := by
  rw [StopSetting.listSent]
  split
  · exact List.forall_mem_singleton.mpr .list
  · exact fun _ h => absurd h List.not_mem_nil

/-- A run that is tried is an open run of the subject that was listed. -/
theorem actsOn_kill {p : Money.RunAgg × Nat} (hp : p ∈ S.tried subject) :
    ∀ request ∈ (S.kill p).2.map Sent.cloud, ActsOn S subject request := by
  have hclient := StopSetting.client_of_tried (S := S.toStopSetting) hp
  have hkill := (StopSetting.killSpec (p := p) hclient).sent
  by_cases hgoes : S.Goes p
  · obtain ⟨path, hpath, hsent⟩ := hkill.goes hgoes
    rw [hsent]
    refine List.forall_mem_singleton.mpr ?_
    cases hlisted : S.listed with
    | none =>
        rw [(StopSetting.tried_of_not_listed subject hlisted).2] at hp
        exact absurd hp List.not_mem_nil
    | some runs =>
        have hopen : p.1 ∈ S.openRuns subject :=
          List.mem_of_mem_take (List.fst_mem_of_mem_zipIdx hp)
        obtain ⟨hrun, hfilter⟩ :=
          List.mem_filter.mp ((StopSetting.openRuns_spec hlisted).1.mem_iff.mp hopen)
        obtain ⟨hagent, hnot⟩ := (Bool.and_eq_true _ _).mp hfilter
        exact .kill hlisted hrun (of_decide_eq_true hagent) ((Bool.not_eq_true' _).mp hnot) hpath
  · rw [hkill.withheld hgoes]
    exact fun _ h => absurd h List.not_mem_nil

/-- What a stop of a valid subject sends. -/
theorem sent_stop (hsubject : isAgentId subject = true) (hreason : Reasonable reason) :
    (S.stop subject reason c).1.2 = (S.ban subject (trim reason)).2.map .vouchryx ++
      (S.listSent ++ (S.tried subject).flatMap fun p => (S.kill p).2).map .cloud := by
  obtain ⟨_, -, hstop⟩ := StopSetting.stop_of_valid (S := S.toStopSetting) (c := c)
    ⟨hsubject, hreason⟩
  rw [hstop, (StopSetting.runsSpec subject (S.stepsToBan subject (trim reason) c)).sent]

theorem actsOn_stop (hsubject : isAgentId subject = true) (hreason : Reasonable reason) :
    ∀ request ∈ (S.stop subject reason c).1.2, ActsOn S subject request := by
  rw [sent_stop S c hsubject hreason, List.map_append]
  intro request hrequest
  rcases List.mem_append.mp hrequest with hban | hrest
  · exact actsOn_ban S request hban
  rcases List.mem_append.mp hrest with hlist | hkill
  · exact actsOn_listSent S request hlist
  obtain ⟨sent, hsent, rfl⟩ := List.mem_map.mp hkill
  obtain ⟨p, hp, hsent⟩ := List.mem_flatMap.mp hsent
  exact actsOn_kill S hp _ (List.mem_map_of_mem hsent)

end Sending

/-! ## Routes -/

/-- Who a remedy is about. -/
def Remedy.subject : Remedy → Option Text
  | stopAgent subject | revokeDelegation subject => some subject
  | policyCandidate _ | budgetLimit _ _ _ => none

/-- A route to a command that does what the remedy says: the command is for admins and has the
ceremony, and with its arguments completed it acts on the subject alone and cuts it off. -/
structure Routed (subject name : Text) (arguments : Value F) (supplies : List Text) : Prop where
  listed : name ∈ routedCommands
  gate : Ceremony.gateOf name = some ⟨name, .admin, true⟩
  applied : ∀ (S : Setting F) (args : Value F) (reason : Text) (c : Command.Chronicle F),
    Completes arguments args supplies reason → Reasonable reason →
      ∃ sent c', dispatch S name args c = some (sent, c') ∧
        (∀ request ∈ sent, ActsOn S subject request) ∧
        (S.config ≠ .notConfigured → ∃ post, Sent.vouchryx post ∈ sent)

/-- Each command that a remedy can be routed to is one that the console has, for admins and with
the ceremony. -/
theorem gate_of_routed :
    ∀ name ∈ routedCommands, Ceremony.gateOf name = some ⟨name, .admin, true⟩ := by
  decide +kernel

section Dispatch

variable (S : Setting F) {args : Value F} {subject reason : Text} (c : Command.Chronicle F)

theorem dispatch_agentStop (h : Completes (Remedy.named subject) args ["reason".toList] reason) :
    dispatch S "agent_stop" args c =
      some ((S.stop subject reason c).1.2, (S.stop subject reason c).2) := by
  rw [dispatch, if_neg (by decide), if_pos rfl, decodeStop_completes h]
  rfl

theorem dispatch_delegationRevoke
    (h : Completes (Remedy.named subject) args ["reason".toList] reason) :
    dispatch S "delegation_revoke" args c =
      let done := delegationRevoke S.journaling S.ambient S.config S.revokeReply (some subject) none
        reason c
      some (done.1.2.map .vouchryx, done.2) := by
  rw [dispatch, if_pos rfl, decodeRevoke_completes h]
  rfl

end Dispatch

variable {subject : Text}

theorem routed_stopAgent (h : isAgentId subject = true) :
    Routed (F := F) subject "agent_stop" (Remedy.named subject) ["reason"] where
  listed := by decide
  gate := gate_of_routed _ (by decide)
  applied := by
    intro S args reason c hargs hreason
    refine ⟨_, _, dispatch_agentStop S c hargs, actsOn_stop S c h hreason, ?_⟩
    · intro hconfig
      rw [sent_stop S c h hreason, sent_ban]
      cases hset : S.config with
      | notConfigured => exact absurd hset hconfig
      | configured url key => exact ⟨_, List.mem_cons_self⟩

theorem routed_revokeDelegation
    (h : startsWith subject "agent://" = true ∨ startsWith subject "user://" = true) :
    Routed (F := F) subject "delegation_revoke" (Remedy.named subject) ["reason"] where
  listed := by decide
  gate := gate_of_routed _ (by decide)
  applied := by
    intro S args reason c hargs hreason
    refine ⟨_, _, dispatch_delegationRevoke S c hargs, ?_, ?_⟩
    · rw [sent_delegationRevoke S c h hreason]
      cases S.config with
      | notConfigured => exact fun _ h => absurd h List.not_mem_nil
      | configured url key =>
          exact List.forall_mem_singleton.mpr (actsOn_revokePost S url key)
    · intro hconfig
      rw [sent_delegationRevoke S c h hreason]
      cases hset : S.config with
      | notConfigured => exact absurd hset hconfig
      | configured url key => exact ⟨_, List.mem_cons_self⟩

/-- The subject of a checked remedy is one that its command takes. -/
theorem Checked.routed (r : Checked) {name : Text} {arguments : Value F} {supplies : List Text}
    (hroute : r.remedy.route = .command name arguments supplies) :
    ∃ subject, r.remedy.subject = some subject ∧ Routed subject name arguments supplies := by
  obtain ⟨remedy, hcheck⟩ := r
  cases remedy with
  | policyCandidate candidate | budgetLimit perRunUsd perStepUsd maxSteps => cases hroute
  | stopAgent subject =>
      cases hroute
      rw [Remedy.check] at hcheck
      split at hcheck
      · next h => exact ⟨subject, rfl, routed_stopAgent h⟩
      · cases hcheck
  | revokeDelegation subject =>
      cases hroute
      rw [Remedy.check] at hcheck
      split at hcheck
      · next h =>
          refine ⟨subject, rfl, routed_revokeDelegation ?_⟩
          exact ((Bool.or_eq_true _ _).mp h).imp startsWith_of_isAgentId startsWith_of_isUserId
      · cases hcheck

/-! ## Proofs -/

/-- An answer that some run of requests gives. -/
def Given (config : ProofConfig) (limit : UInt64) (request : Request) (answer : Replay.Answer) :
    Prop :=
  ∃ actions w, run Replay.step (Replay.World.start config limit) actions = some w ∧
    ∃ n : Nat, (Replay.requestsOf actions)[n]? = some request ∧
      w.threads[n]? = some (.answered answer)

theorem Given.own {config : ProofConfig} {limit : UInt64} {request : Request}
    {answer : Replay.Answer} (h : Given config limit request answer) :
    ∃ met, Replay.OwnAnswer config limit met request answer := by
  obtain ⟨actions, w, hrun, n, hrequest, hanswer⟩ := h
  exact ⟨_, Replay.ownAnswer_of_answered ((Replay.own_of_run hrun).own n request _ hrequest hanswer)⟩

/-- The candidate of a checked remedy is not refused. -/
theorem Checked.not_refuses (r : Checked) {incidentId : Text} {request : Request}
    (hrequest : r.remedy.request incidentId = some request) (reason : Text) :
    ¬ request.Refuses reason := by
  obtain ⟨remedy, hcheck⟩ := r
  intro hrefuses
  cases remedy with
  | policyCandidate candidate =>
      cases hrequest
      rw [Remedy.check, show Replay.checkCandidate candidate = _ from hrefuses] at hcheck
      cases hcheck
  | budgetLimit perRunUsd perStepUsd maxSteps =>
      cases hrequest
      rw [Remedy.check, show Replay.BudgetCandidate.fromParts _ _ _ = _ from hrefuses] at hcheck
      cases hcheck
  | stopAgent subject | revokeDelegation subject => cases hrequest

/-! ## The check against an incident -/

/-- The types of event that a limit is for. -/
def spendTypes : List Text :=
  ["budget_exhausted", "budget_exceeded", "budget_threshold", "loop_detected"]

/-- The types of event that a policy is for. -/
def policyTypes : List Text :=
  ["policy_deny", "policy_hold", "approval_requested", "approval_unanswered", "approval_denied",
    "dlp_pii", "dlp_shadow", "dlp_block"]

/-- The types of event that a kind of remedy is for. A revocation is for none. -/
def typesFor : RemedyKind → List Text
  | .budgetLimit => spendTypes
  | .policyCandidate => policyTypes
  | .stopAgent => spendTypes ++ policyTypes ++ ["quality_drift".toList]
  | .revokeDelegation => []

/-- Why nothing is offered for a type of event, if nothing is. -/
def reasonFor (eventType : Text) : Option Text :=
  if eventType = Core.identityMismatch then some identityIsFiledUnderTheKey
  else if eventType ∈ typesFor .stopAgent then none
  else some notClassified

def tableTypes : List Text := table.map Entry.eventType

theorem classify_of_notMem {eventType : Text} (h : eventType ∉ tableTypes) :
    classify eventType = (.unclassified, none) := by
  have hnone : (table.find? fun e => e.eventType = eventType) = none := by
    rw [List.find?_eq_none]
    intro e he heq
    exact h (List.mem_map.mpr ⟨e, he, of_decide_eq_true heq⟩)
  rw [classify, hnone]

theorem typesFor_subset (kind : RemedyKind) : ∀ t ∈ typesFor kind, t ∈ tableTypes := by
  cases kind <;> decide

theorem classify_identityMismatch : classify Core.identityMismatch = (.identity, none) := by
  decide

/-- A class offers just the kinds that its types of event have. -/
theorem mem_offered_iff (eventType : Text) (kind : RemedyKind) :
    kind ∈ offered (classify eventType).1 ↔ eventType ∈ typesFor kind := by
  by_cases h : eventType ∈ tableTypes
  · have htable : ∀ t ∈ tableTypes, (kind ∈ offered (classify t).1 ↔ t ∈ typesFor kind) := by
      cases kind <;> decide
    exact htable eventType h
  · rw [classify_of_notMem h]
    exact iff_of_false List.not_mem_nil fun hmem => h (typesFor_subset kind eventType hmem)

theorem whyNone_classify (eventType : Text) :
    whyNone (classify eventType).1 = reasonFor eventType := by
  by_cases h : eventType ∈ tableTypes
  · have htable : ∀ t ∈ tableTypes, t = Core.identityMismatch ∨
        t ≠ Core.identityMismatch ∧ t ∈ typesFor .stopAgent ∧
          (classify t).1 ∉ [IncidentClass.identity, .unclassified] := by decide
    rcases htable eventType h with rfl | ⟨hother, hstop, hclass⟩
    · rw [classify_identityMismatch, reasonFor, if_pos rfl]
      rfl
    · rw [reasonFor, if_neg hother, if_pos hstop]
      revert hclass
      cases (classify eventType).1 <;> decide
  · have hidentity : eventType ≠ Core.identityMismatch := fun heq =>
      h (heq ▸ (by decide : Core.identityMismatch ∈ tableTypes))
    rw [classify_of_notMem h, reasonFor, if_neg hidentity,
      if_neg fun hmem => h (typesFor_subset .stopAgent eventType hmem)]
    rfl

/-- What the check of a remedy says of the incident's event. -/
structure Fitting (event : Case.StoredEvent F) (answer : Request → Replay.Answer)
    (incidentId : Text) (remedy : Remedy) (check : RemedyCheck F) : Prop where
  about : check.incidentId = incidentId ∧ check.remedy = remedy
  /-- A kind is offered just for the types of event that it is for. -/
  offered : ∀ kind, kind ∈ check.offered ↔ event.eventType ∈ typesFor kind
  fits : check.fitsClass = true ↔ event.eventType ∈ typesFor remedy.kind
  /-- Where nothing is offered, the check says why. -/
  whyNone : check.whyNone = reasonFor event.eventType
  /-- An event that is not filed under the agent it names has no remedy against that agent. -/
  identity : Core.filedUnder event.eventType event.agentId event.data ≠ event.agentId →
    check.fitsClass = false ∧ check.whyNone = some identityIsFiledUnderTheKey
  apply : check.apply = remedy.route
  /-- A remedy that is routed to a command has no proof. -/
  unproven : (∃ reason, check.proof = .unproven reason) ↔
    ∃ name arguments supplies, check.apply = .command name arguments supplies
  /-- Another has the one its own request is answered with. -/
  proved : ∀ request, remedy.request incidentId = some request →
    (∀ proof, check.proof = .policy proof ↔ answer request = .ok (.policy proof)) ∧
      (∀ proof, check.proof = .budget proof ↔ answer request = .ok (.budget proof)) ∧
      ∀ e, check.proof = .failed e ↔ answer request = .error e

section Prove

variable {answer : Request → Replay.Answer} {incidentId : Text} {remedy : Remedy}

theorem unproven_iff :
    (∃ reason, prove answer incidentId remedy = .unproven reason) ↔
      remedy.request incidentId = none := by
  rw [prove]
  split
  next hnone => exact iff_of_true ⟨_, rfl⟩ hnone
  next request hsome =>
      apply iff_of_false
      · rintro ⟨reason, h⟩
        split at h <;> cases h
      · rw [hsome]
        exact Option.some_ne_none request

/-- A remedy is either replayed or routed to a command. -/
theorem request_eq_none_iff : remedy.request incidentId = none ↔
    ∃ name arguments supplies, (remedy.route : ApplyRoute F) = .command name arguments supplies := by
  cases remedy with
  | policyCandidate candidate | budgetLimit perRunUsd perStepUsd maxSteps =>
      exact iff_of_false (Option.some_ne_none _) fun ⟨_, _, _, h⟩ => nomatch h
  | stopAgent subject | revokeDelegation subject => exact iff_of_true rfl ⟨_, _, _, rfl⟩

theorem prove_of_request {request : Request} (h : remedy.request incidentId = some request) :
    (∀ proof, prove answer incidentId remedy = .policy proof ↔
        answer request = .ok (.policy proof)) ∧
      (∀ proof, prove answer incidentId remedy = .budget proof ↔
        answer request = .ok (.budget proof)) ∧
      ∀ e, prove answer incidentId remedy = .failed e ↔ answer request = .error e := by
  rw [prove, h]
  dsimp only
  cases answer request with
  | error e => simp
  | ok proof => cases proof <;> simp

end Prove

theorem fitting_of_remedyCheckIn {bus : Case.Bus F} {answer : Request → Replay.Answer}
    {dir : Option (Text → Bool)} {incidentId : Text} {remedy : Remedy} {check : RemedyCheck F}
    (h : remedyCheckIn bus answer dir incidentId remedy = .ok check) :
    ∃ event, eventOf bus incidentId = .ok event ∧
      Fitting event answer incidentId remedy check := by
  obtain ⟨_, -, h⟩ := bind_eq_ok h
  obtain ⟨event, hevent, h⟩ := bind_eq_ok h
  cases h
  have hfits : (offered (classify event.eventType).1).contains remedy.kind = true ↔
      event.eventType ∈ typesFor remedy.kind :=
    List.contains_iff_mem.trans (mem_offered_iff event.eventType remedy.kind)
  refine ⟨event, mapError_eq_ok hevent, ⟨rfl, rfl⟩, mem_offered_iff event.eventType, hfits,
    whyNone_classify event.eventType, ?_, rfl, unproven_iff.trans request_eq_none_iff,
    fun request hrequest => prove_of_request hrequest⟩
  intro hfiled
  have htype : event.eventType = Core.identityMismatch := by
    by_contra hother
    exact hfiled (if_pos hother)
  dsimp only
  rw [whyNone_classify, htype]
  refine ⟨Bool.eq_false_iff.mpr (mt (htype ▸ hfits).mp ?_), if_pos rfl⟩
  cases remedy.kind <;> decide

/-- What holds of a checked remedy. -/
structure Kept (F : Type) (r : Checked) : Prop where
  routed : ∀ (name : Text) (arguments : Value F) (supplies : List Text),
    r.remedy.route = .command name arguments supplies →
      ∃ subject, r.remedy.subject = some subject ∧ Routed subject name arguments supplies
  proved : ∀ (config : ProofConfig) (limit : UInt64) (incidentId : Text) (request : Request)
    (answer : Replay.Answer), r.remedy.request incidentId = some request →
      Given config limit request answer → ∀ reason, answer ≠ .error (.candidateRefused reason)
  checked : ∀ (bus : Case.Bus F) (answer : Request → Replay.Answer) (dir : Option (Text → Bool))
    (incidentId : Text) (event : Case.StoredEvent F), eventOf bus incidentId = .ok event →
      ∃ check, remedyCheckIn bus answer dir incidentId r.remedy = .ok check ∧
        Fitting event answer incidentId r.remedy check

/-- **A remedy that passes its check is carried out as it says.** -/
theorem checked_remedies_kept (r : Checked) : Kept F r where
  routed := fun _ _ _ => r.routed
  proved := by
    rintro config limit incidentId request answer hrequest hgiven reason rfl
    obtain ⟨met, hown⟩ := hgiven.own
    exact r.not_refuses hrequest reason (hown.refused reason rfl)
  checked := by
    intro bus answer dir incidentId event hevent
    have hok : ∃ check, remedyCheckIn bus answer dir incidentId r.remedy = .ok check := by
      rw [remedyCheckIn, r.check_eq, hevent]
      exact ⟨_, rfl⟩
    obtain ⟨check, hcheck⟩ := hok
    obtain ⟨event', hevent', hfitting⟩ := fitting_of_remedyCheckIn hcheck
    cases hevent.symm.trans hevent'
    exact ⟨check, hcheck, hfitting⟩

end Genaryx.Remedies
