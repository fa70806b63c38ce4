import Genaryx.Json.Double
import Genaryx.Policy.Approvals

/-!
# Decided as confirmed

With an approver key configured, what wardryx is sent carries a statement of the very decision
and of the passkey that confirmed it. Each decision of a panel that is ready is one attempt in
the journal, and neither the journal nor the summary tells two tokens apart that are read alike.

## Implementation notes

Two tokens are read alike if both are read, with one ceiling and one time left, or neither is,
for one fault: the fault is on record, without the token.
-/

namespace Genaryx.Policy

open Json Genaryx.Core Command Money

variable {F : Type}

namespace DecideSetting

variable (S : DecideSetting F)

/-- Whether two tokens are read alike: with one ceiling and one time left, or for one fault. -/
def ReadAlike (token token' : Text) : Prop :=
  match ApprovalTokenClaims.decode S.wire token, ApprovalTokenClaims.decode S.wire token' with
  | .ok c, .ok c' => c.maxCostUsd = c'.maxCostUsd ∧ c.ttlRemaining S.now = c'.ttlRemaining S.now
  | .error e, .error e' => e = e'
  | _, _ => False

/-- A request that carries a statement of its own approval, decision and person, and of the
passkey that confirmed it. -/
structure States (client : PolicyClient) (id : Text) (decision : DecisionDto)
    (request : DecideRequest) : Prop where
  decided : request.decision = decision.wire
  decidedBy : request.decidedBy = S.ambient.operatorOr client.operator
  addressed : ∃ segment, pathSegment id = .ok segment ∧
    request.url = client.client.decideUrl segment
  carries : ∃ statement claims, request.approverStatement = some statement ∧
    carriedClaims S.journaling.codec statement = some claims ∧ claims.aid = id ∧
    claims.dec = request.decision ∧ claims.sub = request.decidedBy ∧
    S.ambient.signature = some ("webauthn-es256".toList, claims.cred)

/-- The record of a decision: who gave it, which it was and of what approval, and whether the
console kept it back for want of a statement or passed it on. -/
structure Records (client : PolicyClient) (id : Text) (decision : DecisionDto)
    (answer : Except PolicyError (DecideOutcome F) × List DecideRequest) (rec : CommandRecord F) :
    Prop where
  operator : rec.operator = S.ambient.operatorOr client.operator
  action : rec.action =
    match decision with
    | .grant => "console.grant_approval".toList
    | .deny => "console.deny_approval".toList
  target : rec.target = id
  decision : ((∃ reason, answer = (.error (.approverStatement reason), [])) ∧
      rec.decision = "refused".toList) ∨
    ((∀ reason, answer.1 ≠ .error (.approverStatement reason)) ∧ rec.decision = "allow".toList)

variable {S}

/-- The passkey that confirmed a request signed it. -/
theorem signature_of_confirmed {credential : Text} (h : S.confirmed = some credential) :
    S.ambient.signature = some ("webauthn-es256".toList, credential) := by
  obtain ⟨signature, hsignature, rfl⟩ := Option.map_eq_some_iff.mp h
  obtain ⟨hsome, halg⟩ := Option.filter_eq_some_iff.mp hsignature
  rw [hsome]
  exact congrArg some (Prod.ext (of_decide_eq_true halg) rfl)

/-- With a key configured, a statement is made of the request it is for, or none is. -/
theorem statementFor_eq_ok {request : StatementRequest} {made : Option Text}
    (hkey : S.approver ≠ .notConfigured) (h : S.statementFor request = .ok made) :
    ∃ statement claims, made = some statement ∧
      carriedClaims S.journaling.codec statement = some claims ∧ claims.aid = request.approvalId ∧
      claims.dec = request.decision ∧ claims.sub = request.approver ∧
      request.passkeyCredential = some claims.cred := by
  unfold statementFor at h
  split at h
  · next hnone => exact absurd hnone hkey
  · cases h
  · split at h
    · cases h
    · next credential hcredential =>
        split at h
        · cases h
        · dsimp only at h
          split at h
          · cases h
          · next statement hsign =>
              cases h
              exact ⟨statement, _, rfl, carriedClaims_sign hsign, rfl, rfl, rfl, hcredential⟩

/-- What is sent of a decision is one request at most, to the approval it is about. -/
theorem of_mem_sent {W : WardryxWire F} {client : WardryxClient} {id : Text}
    {verdict : ApprovalVerdict} {decidedBy : Text} {statement : Option Text} {reply : Reply}
    {request : DecideRequest}
    (h : request ∈ (client.decideApprovalWithStatement W id verdict decidedBy statement reply).2) :
    ∃ segment, pathSegment id = .ok segment ∧ request =
      ⟨client.decideUrl segment, client.bearerToken, verdict.asWire, decidedBy, statement⟩ := by
  unfold WardryxClient.decideApprovalWithStatement at h
  split at h
  · cases h
  · next segment hsegment => exact ⟨segment, hsegment, List.mem_singleton.mp h⟩

/-- A panel that is ready. -/
theorem ready_of_readyClient {client : PolicyClient} (h : S.state.readyClient = .ok client) :
    S.state = .ready client := by
  cases hstate : S.state with
  | ready client' => rw [hstate] at h; cases h; rfl
  | _ => rw [hstate] at h; cases h

/-- What is sent on a decision, where a key is configured. -/
theorem states_of_sent {id : Text} {decision : DecisionDto} {before : Chronicle F}
    {request : DecideRequest} (hkey : S.approver ≠ .notConfigured)
    (h : request ∈ (S.policyDecideApproval id decision before).1.2) :
    ∃ client, S.state = .ready client ∧ S.States client id decision request := by
  unfold policyDecideApproval at h
  split at h
  · cases h
  · next client hready =>
      dsimp only at h
      split at h
      · cases h
      · next made hmade =>
          have hsent : request ∈ (client.client.decideApprovalWithStatement S.wire id
              decision.toVerdict (S.ambient.operatorOr client.operator) made S.reply).2 := by
            split at h <;> exact h
          obtain ⟨segment, hsegment, rfl⟩ := of_mem_sent hsent
          obtain ⟨statement, claims, hstatement, hclaims, haid, hdec, hsub, hcred⟩ :=
            statementFor_eq_ok hkey hmade
          exact ⟨client, ready_of_readyClient hready, decision.asWire_toVerdict, rfl,
            ⟨segment, hsegment, rfl⟩, statement, claims, hstatement, hclaims, haid,
            hdec.trans decision.asWire_toVerdict.symm, hsub, signature_of_confirmed hcred⟩

/-- No answer of wardryx is a refusal of the console's own. -/
theorem ofWardryx_ne_approverStatement (e : WardryxError) (reason : Text) :
    PolicyError.ofWardryx e ≠ .approverStatement reason := by
  cases e <;> (intro h; cases h)

/-- A decision of a panel that is ready is one attempt. -/
theorem attempts_policyDecideApproval {client : PolicyClient} (hstate : S.state = .ready client)
    (id : Text) (decision : DecisionDto) (before : Chronicle F) :
    ∃ rec, (S.policyDecideApproval id decision before).2.attempts = before.attempts ++ [rec] ∧
      S.Records client id decision (S.policyDecideApproval id decision before).1 rec := by
  have hready : S.state.readyClient = .ok client := by rw [hstate]; rfl
  unfold policyDecideApproval
  rw [hready]
  dsimp only
  split
  · exact ⟨_, Chronicle.attempts_journal .., rfl, rfl, rfl, Or.inl ⟨⟨_, rfl⟩, rfl⟩⟩
  · split
    · refine ⟨_, Chronicle.attempts_journal .., rfl, rfl, rfl, Or.inr ⟨fun reason h => ?_, rfl⟩⟩
      exact ofWardryx_ne_approverStatement _ reason (Except.error.inj h)
    · refine ⟨_, Chronicle.attempts_journal .., rfl, rfl, rfl, Or.inr ⟨fun reason h => ?_, rfl⟩⟩
      cases h

/-- Two tokens that are read alike are described alike. -/
theorem describe_readAlike (decision : DecisionDto) (id : Text) {token token' : Text}
    {resp resp' : ApprovalDecideResponse} (htoken : resp.approvalToken = some token)
    (htoken' : resp'.approvalToken = some token') (h : S.ReadAlike token token') :
    let d := S.describeDecisionResult decision id (.ok resp)
    let d' := S.describeDecisionResult decision id (.ok resp')
    d.httpStatus = d'.httpStatus ∧ d.verifyResult = d'.verifyResult ∧ d.summary = d'.summary := by
  unfold ReadAlike at h
  cases decision with
  | deny => exact ⟨rfl, rfl, rfl⟩
  | grant =>
      simp only [describeDecisionResult, htoken, htoken']
      cases hread : ApprovalTokenClaims.decode S.wire token with
      | error e =>
          cases hread' : ApprovalTokenClaims.decode S.wire token' with
          | error e' =>
              rw [hread, hread'] at h
              exact ⟨rfl, by rw [show e = e' from h], rfl⟩
          | ok c' => rw [hread, hread'] at h; exact h.elim
      | ok c =>
          cases hread' : ApprovalTokenClaims.decode S.wire token' with
          | error e' => rw [hread, hread'] at h; exact h.elim
          | ok c' =>
              rw [hread, hread'] at h
              dsimp only at h ⊢
              exact ⟨rfl, by rw [h.1, h.2], rfl⟩

/-- A setting in which wardryx answers otherwise. -/
def answering (S : DecideSetting F) (reply : Reply) : DecideSetting F := { S with reply := reply }

/-- The summary that an operator is shown. -/
def summaryOf (d : Decided F) : Option Text := d.1.1.toOption.map (·.summary)

/-- A decision that wardryx accepted is journaled and shown as its answer is described. -/
theorem policyDecideApproval_accepted {client : PolicyClient} {id segment : Text}
    {decision : DecisionDto} (before : Chronicle F) {made : Option Text}
    {resp : ApprovalDecideResponse} (hready : S.state.readyClient = .ok client)
    (hmade : S.statementFor ⟨id, decision.wire, S.ambient.operatorOr client.operator, S.confirmed⟩ =
      .ok made)
    (hsegment : pathSegment id = .ok segment)
    (hresp : parseResponse S.wire S.wire.decideResponse S.reply = .ok resp) :
    let d := S.describeDecisionResult decision id (.ok resp)
    (S.policyDecideApproval id decision before).2 =
        (before.journal S.journaling client.orgDomain client.host
          (S.decisionRecord client (S.ambient.operatorOr client.operator) decision id "allow".toList
            d.httpStatus d.verifyResult)).2 ∧
      summaryOf (S.policyDecideApproval id decision before) = some d.summary := by
  unfold policyDecideApproval WardryxClient.decideApprovalWithStatement
  simp only [hready, hmade, hsegment, hresp]
  exact ⟨trivial, rfl⟩

/-- A decision that is not sent does not wait for an answer. -/
theorem policyDecideApproval_answering {id : Text} {decision : DecisionDto} (before : Chronicle F)
    (h : ¬∃ client made segment, S.state.readyClient = .ok client ∧
      S.statementFor ⟨id, decision.wire, S.ambient.operatorOr client.operator, S.confirmed⟩ =
        .ok made ∧ pathSegment id = .ok segment) (reply : Reply) :
    (S.answering reply).policyDecideApproval id decision before =
      S.policyDecideApproval id decision before := by
  have hstate : (S.answering reply).state = S.state := rfl
  have hambient : (S.answering reply).ambient = S.ambient := rfl
  have hconfirmed : (S.answering reply).confirmed = S.confirmed := rfl
  have hmade : ∀ request, (S.answering reply).statementFor request = S.statementFor request :=
    fun _ => rfl
  unfold policyDecideApproval WardryxClient.decideApprovalWithStatement
  rw [hstate]
  cases hready : S.state.readyClient with
  | error e => rfl
  | ok client =>
      simp only [hmade, hambient, hconfirmed]
      cases hstatement : S.statementFor
          ⟨id, decision.wire, S.ambient.operatorOr client.operator, S.confirmed⟩ with
      | error refusal => rfl
      | ok made =>
          cases hsegment : pathSegment id with
          | error e => rfl
          | ok segment => exact absurd ⟨client, made, segment, hready, hstatement, hsegment⟩ h

end DecideSetting

open DecideSetting in
/-- What holds of a decision. -/
structure DecidedAsConfirmed (S : DecideSetting F) (id : Text) (decision : DecisionDto)
    (before : Chronicle F) : Prop where
  stated : S.approver ≠ .notConfigured →
    ∀ request ∈ (S.policyDecideApproval id decision before).1.2,
      ∃ client, S.state = .ready client ∧ S.States client id decision request
  journaled : ∀ client, S.state = .ready client →
    ∃ rec, (S.policyDecideApproval id decision before).2.attempts = before.attempts ++ [rec] ∧
      S.Records client id decision (S.policyDecideApproval id decision before).1 rec
  withheld : ∀ reply resp resp' token token',
    parseResponse S.wire S.wire.decideResponse S.reply = .ok resp →
      parseResponse S.wire S.wire.decideResponse reply = .ok resp' →
        resp.approvalToken = some token → resp'.approvalToken = some token' →
          S.ReadAlike token token' →
            ((S.answering reply).policyDecideApproval id decision before).2 =
                (S.policyDecideApproval id decision before).2 ∧
              summaryOf ((S.answering reply).policyDecideApproval id decision before) =
                summaryOf (S.policyDecideApproval id decision before)

open DecideSetting in
/-- A decision goes out as the person confirmed it, is journaled once, and keeps its token to
the answer. -/
theorem decidedAsConfirmed (S : DecideSetting F) (id : Text) (decision : DecisionDto)
    (before : Chronicle F) : DecidedAsConfirmed S id decision before := by
  refine ⟨fun hkey request hrequest => states_of_sent hkey hrequest,
    fun client hstate => attempts_policyDecideApproval hstate id decision before, ?_⟩
  intro reply resp resp' token token' hresp hresp' htoken htoken' halike
  by_cases hsent : ∃ client made segment, S.state.readyClient = .ok client ∧
      S.statementFor ⟨id, decision.wire, S.ambient.operatorOr client.operator, S.confirmed⟩ =
        .ok made ∧ pathSegment id = .ok segment
  · obtain ⟨client, made, segment, hready, hmade, hsegment⟩ := hsent
    obtain ⟨hstatus, hverify, hsummary⟩ :=
      describe_readAlike decision id htoken htoken' halike
    obtain ⟨hjournal, hshown⟩ := policyDecideApproval_accepted before hready hmade hsegment
      hresp
    obtain ⟨hjournal', hshown'⟩ := policyDecideApproval_accepted (S := S.answering reply)
      before hready hmade hsegment hresp'
    rw [hjournal, hjournal', hshown, hshown', hstatus, hverify, hsummary]
    exact ⟨rfl, rfl⟩
  · rw [policyDecideApproval_answering before hsent]
    exact ⟨rfl, rfl⟩

section Example

/-- What wardryx answers to a grant. -/
def grantAnswer (token : Text) : Reply :=
  .answered 200 (Utf8.encode ("\x7b\"approval_id\":\"ap_1\",\"decision\":\"grant\",".toList ++
    "\"approval_token\":\"".toList ++ token ++ "\"\x7d".toList))

/-- The answers of a wardryx that is asked to decide. -/
def plainWardryx : WardryxWire Decimal where
  errorField := fun _ => none
  decideResponse := fun body =>
    let field := fun name : Text => (((Utf8.fromUtf8 body).bind
      CommandBus.sampleCodec.reader.fromStr).bind (·.get name)).bind Value.asStr
    match field "approval_id".toList, field "decision".toList with
    | some approvalId, some decision => .ok ⟨approvalId, decision, field "approval_token".toList⟩
    | _, _ => .error "missing field".toList
  claims := fun _ => none

/-- A console without an approver key, and a grant whose token cannot be read. -/
def undividedToken : DecideSetting Decimal where
  journaling :=
    { codec := CommandBus.sampleCodec
      sha256 := id
      debug := id
      moments := fun _ => ({}, "2026-01-01T00:00:00Z".toList) }
  ambient := {}
  signing := ⟨id, fun _ => true⟩
  wire := plainWardryx
  fixed2 := fun _ => []
  state := .ready ⟨⟨"http://127.0.0.1:8090".toList, "key".toList⟩, "local".toList,
    "user://local/ops".toList, "box".toList, "bearer".toList, "bearer".toList⟩
  approver := .notConfigured
  entropy := .ok []
  nowUnix := 0
  now := 0
  reply := grantAnswer "abc".toList

theorem eq_ok_of_toOption {ε α : Type} {x : Except ε α} {a : α} (h : x.toOption = some a) :
    x = .ok a := by
  cases x with
  | error e => cases h
  | ok b => exact congrArg Except.ok (Option.some_inj.mp h)

/-- Two tokens that cannot be read, for two faults, are told apart on record. -/
theorem faults_told_apart : ¬ ∀ (reply : Reply) (resp resp' : ApprovalDecideResponse)
    (token token' : Text),
    parseResponse plainWardryx plainWardryx.decideResponse undividedToken.reply = .ok resp →
      parseResponse plainWardryx plainWardryx.decideResponse reply = .ok resp' →
        resp.approvalToken = some token → resp'.approvalToken = some token' →
          (ApprovalTokenClaims.decode plainWardryx token).toOption.isSome =
            (ApprovalTokenClaims.decode plainWardryx token').toOption.isSome →
          (∀ c c', ApprovalTokenClaims.decode plainWardryx token = .ok c →
            ApprovalTokenClaims.decode plainWardryx token' = .ok c' →
              c.maxCostUsd = c'.maxCostUsd ∧
                c.ttlRemaining undividedToken.now = c'.ttlRemaining undividedToken.now) →
          ((undividedToken.answering reply).policyDecideApproval "ap_1".toList .grant
              ⟨none, []⟩).2.attempts =
            (undividedToken.policyDecideApproval "ap_1".toList .grant ⟨none, []⟩).2.attempts := by
  intro h
  have hsame := h (grantAnswer "a.b.c.d".toList)
    ⟨"ap_1".toList, "grant".toList, some "abc".toList⟩
    ⟨"ap_1".toList, "grant".toList, some "a.b.c.d".toList⟩ "abc".toList "a.b.c.d".toList
    (eq_ok_of_toOption (by decide +kernel)) (eq_ok_of_toOption (by decide +kernel)) rfl rfl
    (by decide +kernel) (fun c c' hc _ => by
      have hnone : (ApprovalTokenClaims.decode plainWardryx "abc".toList).toOption.isSome = false := by
        decide +kernel
      rw [hc] at hnone
      cases hnone)
  exact absurd (congrArg (List.map CommandRecord.verifyResult) hsame) (by decide +kernel)

end Example

end Genaryx.Policy
