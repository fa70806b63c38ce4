import Genaryx.Delegation.Stop
import Genaryx.Money.Segments

/-!
# A stop that is earned

A stop ends well exactly if the ban was confirmed and every open run of the agent was killed by
name. Its calls are the ban, the list and one kill for each run that is tried, and its journal
has one line for each step, in order, with what the step came to.

## Implementation notes

`StepFact` is a step without what became of its journal line.
-/

namespace Genaryx.Delegation

open Base Json Genaryx.Core Command Money

variable {F : Type} {J : Journaling F} {a : Ambient} {W : CloudWire F}

/-! ## Steps and their records -/

/-- A step of a stop and what it came to. -/
structure StepFact where
  step : Text
  target : Text
  ok : Bool
  httpStatus : UInt16
  verifyResult : Text
  deriving DecidableEq

def StopStep.fact (s : StopStep) : StepFact :=
  ⟨s.step, s.target, s.ok, s.httpStatus, s.verifyResult⟩

namespace Steps

variable {s t u : Steps F}

/-- The record of a step. -/
def recordOfFact (s : Steps F) (f : StepFact) : CommandRecord F :=
  s.recordOf f.step f.target f.httpStatus f.verifyResult

/-- Some steps were taken after others: each is in the list and was handed to the journal. -/
structure Took (s : Steps F) (facts : List StepFact) (t : Steps F) : Prop where
  same : t.recordOfFact = s.recordOfFact
  list : t.list.map StopStep.fact = s.list.map StopStep.fact ++ facts
  attempts : t.chronicle.attempts = s.chronicle.attempts ++ facts.map s.recordOfFact

theorem Took.refl (s : Steps F) : s.Took [] s :=
  ⟨rfl, (List.append_nil _).symm, (List.append_nil _).symm⟩

theorem Took.trans {facts facts' : List StepFact} (h : s.Took facts t) (h' : t.Took facts' u) :
    s.Took (facts ++ facts') u where
  same := h'.same.trans h.same
  list := by rw [h'.list, h.list, List.append_assoc]
  attempts := by rw [h'.attempts, h.attempts, h.same, List.map_append, List.append_assoc]

theorem took_record (s : Steps F) (step target : Text) (ok : Bool) (httpStatus : UInt16)
    (verify : Text) :
    s.Took [⟨step, target, ok, httpStatus, verify⟩]
      (s.record J a step target ok httpStatus verify) where
  same := rfl
  list := by
    rw [record, List.map_append]
    rfl
  attempts := Chronicle.attempts_journal ..

end Steps

/-! ## The kills -/

section Kills

variable (J W) (client : CloudClient) (kills : Nat → Exchange)

/-- What the kill of a run with its number came to. -/
def killResult (p : RunAgg × Nat) : Except ConnectorError Text × List CloudRequest :=
  client.killRun W p.1.runId (kills p.2)

/-- The step of one kill. -/
def killFact (p : RunAgg × Nat) : StepFact :=
  let answer := killAnswer J p.1.runId (killResult W client kills p).1
  ⟨"kill_run".toList, p.1.runId, answer.1, answer.2.1, answer.2.2⟩

variable {J W client kills}

variable (client kills) in
/-- What the kills of some runs add to the steps, the counts and what was sent. -/
theorem killRuns_spec (i : Nat) (runs : List RunAgg) (k : Kills F) :
    let done := killRuns J a W client kills i runs k
    k.steps.Took ((runs.zipIdx i).map (killFact J W client kills)) done.steps ∧
      done.killed = k.killed + (runs.zipIdx i).countP (fun p => (killFact J W client kills p).ok) ∧
      done.failed + done.killed = k.failed + k.killed + runs.length ∧
      done.sent = k.sent ++ (runs.zipIdx i).flatMap fun p => (killResult W client kills p).2 := by
  induction runs generalizing i k with
  | nil => exact ⟨.refl _, rfl, rfl, (List.append_nil _).symm⟩
  | cons run runs ih =>
      obtain ⟨htook, hkilled, hfailed, hsent⟩ := ih (i + 1)
        { killed := if (killFact J W client kills (run, i)).ok then k.killed + 1 else k.killed
          failed := if (killFact J W client kills (run, i)).ok then k.failed else k.failed + 1
          steps := k.steps.record J a "kill_run".toList run.runId
            (killFact J W client kills (run, i)).ok (killFact J W client kills (run, i)).httpStatus
              (killFact J W client kills (run, i)).verifyResult
          sent := k.sent ++ (killResult W client kills (run, i)).2 }
      refine ⟨(Steps.took_record k.steps _ _ _ _ _).trans htook, hkilled.trans ?_,
        hfailed.trans ?_, hsent.trans ?_⟩
      · rw [List.zipIdx_cons, List.countP_cons]
        cases (killFact J W client kills (run, i)).ok with
        | true => simp only [if_true]; omega
        | false => simp only [Bool.false_eq_true, if_false]; omega
      · rw [List.length_cons]
        cases (killFact J W client kills (run, i)).ok with
        | true => simp only [if_true]; omega
        | false => simp only [Bool.false_eq_true, if_false]; omega
      · rw [List.zipIdx_cons, List.flatMap_cons, List.append_assoc]

variable (kills) in
/-- The kill of a run that goes out is told as it was answered. -/
theorem killResult_of_goes {p : RunAgg × Nat} (h : client.Goes p.1.runId (kills p.2)) :
    ∃ path, Addresses "runs".toList "kill".toList p.1.runId path ∧ killResult W client kills p =
      (parseResponse W W.killResponse (kills p.2).reply, [.post path []]) := by
  obtain ⟨segment, path, hsegment, hpath, hcall⟩ := mutation_of_goes (W := W)
    W.killResponse h "runs".toList "kill".toList []
  refine ⟨path, hpath, ?_⟩
  rw [killResult, CloudClient.killRun, hsegment]
  exact hcall

/-- The kill of a run that does not go out fails with no status. -/
theorem killResult_of_not_goes {p : RunAgg × Nat} (h : ¬ client.Goes p.1.runId (kills p.2)) :
    ∃ e, killResult W client kills p = (.error e, []) ∧
      client.WithheldAs (kills p.2) p.1.runId e.display ∧ e.statusOf = 0 :=
  mutation_of_not_goes _ h _ []

end Kills

/-- Every item of a list counts exactly if the first of them do and there are no others. -/
theorem length_eq_countP_take_iff {α : Type} (p : α × Nat → Bool) (l : List α) (n : Nat) :
    l.length = ((l.take n).zipIdx).countP p ↔
      ∀ k x, l[k]? = some x → k < n ∧ p (x, k) = true := by
  have hle : ((l.take n).zipIdx).countP p ≤ (l.take n).length := by
    simpa using List.countP_le_length (p := p) (l := (l.take n).zipIdx)
  have htake : (l.take n).length = min n l.length := List.length_take
  constructor
  · intro h k x hk
    have hlen : l.length ≤ n := by omega
    rw [List.take_of_length_le hlen] at h
    have hall := List.countP_eq_length.mp (h.symm.trans List.length_zipIdx.symm)
    have hk' : k < l.length := (List.getElem?_eq_some_iff.mp hk).1
    refine ⟨by omega, hall (x, k) ?_⟩
    exact List.mem_zipIdx_iff_getElem?.mpr hk
  · intro h
    have hshort : l.length ≤ n := by
      by_contra hlong
      have hn : n < l.length := by omega
      exact absurd (h n l[n] (List.getElem?_eq_getElem hn)).1 (Nat.lt_irrefl n)
    rw [List.take_of_length_le hshort]
    have hall : l.zipIdx.countP p = l.zipIdx.length := List.countP_eq_length.mpr fun y hmem =>
      (h y.2 y.1 (List.mem_zipIdx_iff_getElem?.mp hmem)).2
    rw [hall, List.length_zipIdx]

/-! ## What a stop should come to -/

/-- What one stop works with. -/
structure StopSetting (F : Type) where
  journaling : Journaling F
  ambient : Ambient
  wire : CloudWire F
  config : RevokeConfig
  money : MoneyState
  answers : StopAnswers

/-- The steps of a stop. A kill has its run and its number. -/
inductive Step
  | ceremony
  | ban
  | listRuns
  | killRun (run : RunAgg × Nat)
  | verdict

namespace Step

def name : Step → Text
  | ceremony => "ceremony".toList
  | ban => "ban".toList
  | listRuns => "list_runs".toList
  | killRun _ => "kill_run".toList
  | verdict => "verdict".toList

/-- What the journal calls the step. -/
def action : Step → Text
  | ceremony => "console.stop_agent.ceremony".toList
  | ban => "console.stop_agent.ban".toList
  | listRuns => "console.stop_agent.list_runs".toList
  | killRun _ => "console.stop_agent.kill_run".toList
  | verdict => "console.stop_agent".toList

/-- What the step is about. -/
def target (subject : Text) : Step → Text
  | killRun p => p.1.runId
  | _ => subject

end Step

namespace StopSetting

variable (S : StopSetting F)

/-- `agent_stop` in a setting. -/
def stop (subject reason : Text) (c : Chronicle F) :
    (Except StopError StopOutcome × List (Sent F)) × Chronicle F :=
  agentStop S.journaling S.ambient S.wire S.config S.money S.answers subject reason c

/-- Vouchryx was asked, and answered with a body that was read. -/
def Answers (status : UInt16) (answer : Value F) : Prop :=
  S.config ≠ .notConfigured ∧ Replied S.journaling.codec S.answers.ban status answer

/-- Vouchryx answered 200 with `revoked:true` and `banned:true`. -/
def Banned : Prop :=
  ∃ answer, S.Answers 200 answer ∧ answer.get "revoked".toList = some (.bool true) ∧
    answer.get "banned".toList = some (.bool true)

/-- Vouchryx says that the ban outlives it. -/
def Durable : Prop :=
  ∃ answer, S.Answers 200 answer ∧ answer.get "durable".toList = some (.bool true)

/-- The Cloud's client, if the panel has one. -/
def client? : Option CloudClient :=
  match S.money with
  | .ready c => some c.client
  | _ => none

/-- The runs that the Cloud listed, if the list was read. -/
def listed : Option (List RunAgg) :=
  S.client?.bind fun _ => S.answers.runs.reply.read S.wire.runs

/-- The agent's open runs, the most recently seen first. -/
def openRuns (subject : Text) : List RunAgg :=
  openRunsOf subject (S.listed.getD [])

/-- The runs that are tried, with their numbers. -/
def tried (subject : Text) : List (RunAgg × Nat) :=
  ((S.openRuns subject).take 500).zipIdx

/-- The kill of a run goes out. -/
def Goes (p : RunAgg × Nat) : Prop :=
  ∃ client, S.client? = some client ∧ client.Goes p.1.runId (S.answers.kills p.2)

/-- The kill of a run went out, and its answer named that run. -/
def Killed (p : RunAgg × Nat) : Prop :=
  S.Goes p ∧ (S.answers.kills p.2).reply.read S.wire.killResponse = some p.1.runId

/-- The list was read, every open run was tried, and the answer to its kill named it. -/
def AllKilled (subject : Text) : Prop :=
  S.listed.isSome = true ∧ ∀ k run, (S.openRuns subject)[k]? = some run →
    k < 500 ∧ S.Killed (run, k)

/-! The text of each step. -/

/-- What the journal should say of the ban. -/
inductive BanTold : Text → Prop
  | notConfigured (h : S.config = .notConfigured) : BanTold
      ("not_configured: GENARYX_VOUCHRYX_URL and GENARYX_VOUCHRYX_REVOKE_KEY_FILE are " ++
        "unset").toList
  | unreachable {detail : Text} (h : S.config ≠ .notConfigured)
      (h' : Unread S.answers.ban detail) : BanTold ("unreachable: ".toList ++ detail)
  | durable (h : S.Banned) (h' : S.Durable) : BanTold "banned:durable".toList
  | notDurable (h : S.Banned) (h' : ¬ S.Durable) : BanTold "banned:not_durable".toList
  | revoked {answer : Value F} (h : S.Answers 200 answer)
      (hrevoked : answer.get "revoked".toList = some (.bool true))
      (hbanned : answer.get "banned".toList ≠ some (.bool true)) : BanTold
      ("revoked_not_banned: vouchryx revoked the tokens the agent holds and did not confirm a ban, so " ++
        "new tokens can still be issued").toList
  | unconfirmed {answer : Value F} (h : S.Answers 200 answer)
      (hrevoked : answer.get "revoked".toList ≠ some (.bool true)) :
      BanTold "200 without revoked:true confirmation".toList
  | notKept {answer : Value F} (h : S.Answers 503 answer) :
      BanTold ("not_durable:".toList ++
        ((answer.get "error".toList).bind Value.asStr).getD "unknown".toList)
  | refused {status : UInt16} {answer : Value F} (h : S.Answers status answer) (h200 : status ≠ 200)
      (h503 : status ≠ 503) : BanTold ("refused:".toList ++
        ((answer.get "error".toList).bind Value.asStr).getD "unknown".toList)

/-- What the journal should say of the list. -/
inductive ListTold (subject : Text) : Text → Prop
  | listed {runs : List RunAgg} (h : S.listed = some runs) : ListTold subject
      ("listed:".toList ++ Text.decimal
        (runs.countP fun r => r.agentId = subject && !r.killed) ++ " open".toList)
  | failed {client : CloudClient} {detail : Text} (h : S.client? = some client)
      (h' : S.answers.runs.reply.FailsAs S.wire S.wire.runs detail) :
      ListTold subject ("error: ".toList ++ detail)
  | bootstrapping (h : S.money = .bootstrapping) :
      ListTold subject ("error: ".toList ++ "the Cloud connection is still starting".toList)
  | noEnvironment (h : S.money = .noEnvironment) :
      ListTold subject ("error: ".toList ++ "no TokenFuse Cloud is configured".toList)
  | pairingFailed {reason : Text} (h : S.money = .pairingFailed reason) :
      ListTold subject ("error: ".toList ++ ("the Cloud connection failed: ".toList ++ reason))

/-- What the journal should say of a kill. -/
inductive KillTold (p : RunAgg × Nat) : Text → Prop
  | killed (h : S.Killed p) : KillTold p "killed:true".toList
  | another {other : Text} (h : S.Goes p)
      (h' : (S.answers.kills p.2).reply.read S.wire.killResponse = some other)
      (hne : other ≠ p.1.runId) : KillTold p
        ("unconfirmed: the Cloud answered killed=".toList ++ S.journaling.debug other)
  | failed {detail : Text} (h : S.Goes p)
      (h' : (S.answers.kills p.2).reply.FailsAs S.wire S.wire.killResponse detail) :
      KillTold p ("error: ".toList ++ detail)
  | withheld {client : CloudClient} {detail : Text} (h : S.client? = some client)
      (h' : client.WithheldAs (S.answers.kills p.2) p.1.runId detail) :
      KillTold p ("error: ".toList ++ detail)

open Classical in
/-- Why the agent was not stopped, the ban having been told with a text. -/
noncomputable def reasons (subject ban : Text) : List Text :=
  let opened := (S.openRuns subject).length
  let failed := (S.tried subject).countP fun p => ¬ S.Killed p
  (if S.Banned then [] else ["ban ".toList ++ ban]) ++
    if S.listed = none then ["runs not listed".toList]
    else
      (if failed > 0 then [Text.decimal failed ++ " of ".toList ++ Text.decimal opened ++
        " run kill(s) failed".toList] else []) ++
      (if opened > 500 then [Text.decimal (opened - 500) ++ " run(s) over the limit of ".toList ++
        "500".toList ++ " not attempted".toList] else [])

/-- What the journal should say at the end. -/
inductive VerdictTold (subject : Text) : Text → Prop
  | stopped (h : S.Banned ∧ S.AllKilled subject) (h' : S.Durable) :
      VerdictTold subject "stopped".toList
  | notDurable (h : S.Banned ∧ S.AllKilled subject) (h' : ¬ S.Durable) :
      VerdictTold subject "stopped:ban_not_durable".toList
  | notStopped {ban : Text} (h : ¬ (S.Banned ∧ S.AllKilled subject)) (h' : S.BanTold ban) :
      VerdictTold subject
        ("not_stopped: ".toList ++ "; ".toList.intercalate (S.reasons subject ban))

/-- What the journal should say of a step. -/
def Told (subject : Text) : Step → Text → Prop
  | .ceremony, t => t =
      if S.ambient.signature.map Prod.fst = some "webauthn-es256".toList then
        "confirmed:".toList ++ "webauthn-es256".toList
      else "not_confirmed:no_passkey_enrolled".toList
  | .ban, t => S.BanTold t
  | .listRuns, t => S.ListTold subject t
  | .killRun p, t => S.KillTold p t
  | .verdict, t => S.VerdictTold subject t

/-- The status that a step was answered with, 0 where no call was made or no answer was read. -/
def Answered : Step → UInt16 → Prop
  | .ceremony, status => status = 0
  | .ban, status =>
      (∀ answer answered, S.Answers answered answer → status = answered) ∧
        ((∀ answer answered, ¬ S.Answers answered answer) → status = 0)
  | .listRuns, status =>
      if S.client?.isSome then status = S.answers.runs.reply.status else status = 0
  | .killRun p, status =>
      (S.Goes p → status = (S.answers.kills p.2).reply.status) ∧ (¬ S.Goes p → status = 0)
  | .verdict, status => status = 0

/-- Whether a step went well. -/
def Went (subject : Text) : Step → Prop
  | .ceremony => True
  | .ban => S.Banned
  | .listRuns => S.listed.isSome = true
  | .killRun p => S.Killed p
  | .verdict => S.Banned ∧ S.AllKilled subject

/-- The steps of a stop, in order. -/
def steps (subject : Text) : List Step :=
  [.ceremony, .ban, .listRuns] ++ (S.tried subject).map .killRun ++ [.verdict]

/-- A record tells of a step as it went. -/
structure Tells (subject reason : Text) (step : Step) (rec : CommandRecord F) : Prop where
  action : rec.action = step.action
  target : rec.target = step.target subject
  told : S.Told subject step rec.verifyResult
  status : S.Answered step rec.httpStatus
  reason : rec.params.get "reason".toList = some (.string reason)
  step : rec.params.get "step".toList = some (.string step.name)
  decision : rec.decision = "break_glass".toList
  operator : rec.operator =
    S.ambient.operatorOr ("user://".toList ++ S.ambient.org ++ "/operator".toList)
  env : rec.env = S.ambient.org
  signed : (rec.sigAlg, rec.sigFpr) =
    S.ambient.signature.getD ("software-signed".toList, "software-signed".toList)

/-- The operator is shown of a step what the journal was given. -/
structure Shows (subject : Text) (step : Step) (rec : CommandRecord F) (s : StopStep) : Prop where
  name : s.step = step.name
  target : s.target = rec.target
  ok : s.ok = true ↔ S.Went subject step
  httpStatus : s.httpStatus = rec.httpStatus
  verifyResult : s.verifyResult = rec.verifyResult

/-- The post that asks for the ban. -/
structure AsksBan (url key subject reason : Text) (post : Post F) : Prop where
  url : post.url = url ++ "/v1/revoke".toList
  bearer : post.bearer = key
  subject : post.body.get "subject".toList = some (.string subject)
  reason : post.body.get "reason".toList = some (.string reason)
  ban : post.body.get "ban".toList = some (.bool true)

/-- What is sent for the ban. -/
def BanSent (subject reason : Text) (posts : List (Post F)) : Prop :=
  match S.config with
  | .notConfigured => posts = []
  | .configured url key => ∃ post, posts = [post] ∧ AsksBan url key subject reason post

/-- The request for the list of runs. -/
def listSent : List CloudRequest :=
  if S.client?.isSome then [.get "/v1/runs".toList] else []

/-- What is sent for the kill of a run. -/
structure KillSent (p : RunAgg × Nat) (requests : List CloudRequest) : Prop where
  goes : S.Goes p → ∃ path, Addresses "runs".toList "kill".toList p.1.runId path ∧
    requests = [.post path []]
  withheld : ¬ S.Goes p → requests = []

/-- The steps that the operator is shown. -/
def shownSteps : Except StopError StopOutcome → List StopStep
  | .ok outcome | .error (.notStopped outcome) => outcome.steps
  | .error _ => []

/-- What is so of a stop whose subject and reason are valid. -/
structure EarnedValid (subject reason : Text) (c : Chronicle F)
    (out : (Except StopError StopOutcome × List (Sent F)) × Chronicle F) : Prop where
  /-- It ends well if the ban was confirmed and every open run was killed by name. -/
  ok_iff : out.1.1.toOption.isSome = true ↔ S.Banned ∧ S.AllKilled subject
  /-- It tries the agent's open runs, those that were seen last first. -/
  tried : ∀ runs, S.listed = some runs →
    (S.openRuns subject).Perm (runs.filter fun r => r.agentId = subject && !r.killed) ∧
      (S.openRuns subject).Pairwise fun r s => s.lastSeenMillis ≤ r.lastSeenMillis
  /-- It sends the ban, the request for the list and the kills of the runs it tries. -/
  sent : ∃ posts requests, S.BanSent subject reason posts ∧
    List.Forall₂ S.KillSent (S.tried subject) requests ∧
      out.1.2 = posts.map .vouchryx ++ (S.listSent ++ requests.flatten).map .cloud
  /-- Each step is journaled once, in order, and is shown as it was journaled. -/
  journaled : ∃ records, out.2.attempts = c.attempts ++ records ∧
    List.Forall₂ (S.Tells subject reason) (S.steps subject) records ∧
      List.Forall₂ (fun told s => S.Shows subject told.1 told.2 s)
        ((S.steps subject).zip records) (shownSteps out.1.1)

/-- An agent id, and a reason of 1 to 500 characters. -/
def Valid (subject reason : Text) : Prop :=
  isAgentId subject = true ∧ Text.trim reason ≠ [] ∧ (Text.trim reason).length ≤ 500

/-- What is so of any stop: one that is not valid sends and journals nothing. -/
structure Earned (subject reason : Text) (c : Chronicle F)
    (out : (Except StopError StopOutcome × List (Sent F)) × Chronicle F) : Prop where
  valid : Valid subject reason → S.EarnedValid subject (Text.trim reason) c out
  invalid : ¬ Valid subject reason → out.1.1.toOption = none ∧ out.1.2 = [] ∧ out.2 = c

/-- The Cloud answers the list and the kills without a 2xx other than 200, and with no 2xx that
cannot be read. -/
structure AnsweredPlainly (subject : Text) : Prop where
  runs : S.client?.isSome = true → S.answers.runs.reply.Plain S.wire.runs
  kills : ∀ p ∈ S.tried subject, S.Goes p →
    (S.answers.kills p.2).reply.Plain S.wire.killResponse

/-! ## The ban -/

/-- The ban as it was answered. -/
def ban (subject reason : Text) : Answer × List (Post F) :=
  banAtVouchryx S.journaling.codec S.config S.answers.ban subject (actor S.ambient) reason

variable {S}

/-- What is so of the ban's step. -/
structure BanSpec (S : StopSetting F) (answer : Answer) : Prop where
  ok : answer.ok = true ↔ S.Banned
  told : S.BanTold answer.verify
  status : S.Answered .ban answer.httpStatus
  durable : S.Banned → (answer.durable = some true ↔ S.Durable)

/-- A ban that was not asked for, or whose answer was not read. -/
theorem banSpec_of_unread {text : Text} (h : ∀ status answer, ¬ S.Answers status answer)
    (htold : S.BanTold text) : S.BanSpec ⟨false, 0, text, none⟩ where
  ok := iff_of_false Bool.false_ne_true fun ⟨answer, hanswer, _⟩ => h 200 answer hanswer
  told := htold
  status := ⟨fun answer answered hanswer => absurd hanswer (h answered answer), fun _ => rfl⟩
  durable := fun ⟨answer, hanswer, _⟩ => absurd hanswer (h 200 answer)

/-- A ban whose answer was read. -/
theorem banSpec_banAnswer {status : UInt16} {answer : Value F}
    (h : ∀ answered answer', S.Answers answered answer' ↔ answered = status ∧ answer' = answer) :
    S.BanSpec (banAnswer status answer) := by
  have hanswers := (h status answer).mpr ⟨rfl, rfl⟩
  have hstatus : S.Answered .ban status :=
    ⟨fun _ _ hanswer => ((h _ _).mp hanswer).1.symm, fun hno => absurd hanswers (hno _ _)⟩
  have hbanned : S.Banned ↔ status = 200 ∧ confirms answer "revoked".toList = true ∧
      confirms answer "banned".toList = true := by
    simp only [Banned, confirms_iff]
    constructor
    · rintro ⟨answer', hanswer, hrevoked, hbanned⟩
      obtain ⟨rfl, rfl⟩ := (h _ _).mp hanswer
      exact ⟨rfl, hrevoked, hbanned⟩
    · rintro ⟨rfl, hrevoked, hbanned⟩
      exact ⟨answer, hanswers, hrevoked, hbanned⟩
  have hdurable : S.Durable ↔ status = 200 ∧ confirms answer "durable".toList = true := by
    simp only [Durable, confirms_iff]
    constructor
    · rintro ⟨answer', hanswer, hdurable⟩
      obtain ⟨rfl, rfl⟩ := (h _ _).mp hanswer
      exact ⟨rfl, hdurable⟩
    · rintro ⟨rfl, hdurable⟩
      exact ⟨answer, hanswers, hdurable⟩
  unfold banAnswer
  split
  · next h200 =>
      subst h200
      cases hrevoked : confirms answer "revoked".toList with
      | false =>
          have hnot : ¬ S.Banned := fun hb => by
            have := (hbanned.mp hb).2.1
            rw [hrevoked] at this
            cases this
          have hne := mt confirms_iff.mpr (Bool.eq_false_iff.mp hrevoked)
          cases confirms answer "banned".toList <;>
            exact ⟨iff_of_false Bool.false_ne_true hnot, .unconfirmed hanswers hne, hstatus,
              fun hb => absurd hb hnot⟩
      | true =>
          cases hban : confirms answer "banned".toList with
          | false =>
              have hnot : ¬ S.Banned := fun hb => by
                have := (hbanned.mp hb).2.2
                rw [hban] at this
                cases this
              refine ⟨iff_of_false Bool.false_ne_true hnot, ?_, hstatus, fun hb => absurd hb hnot⟩
              dsimp only [revokedNotBanned]
              exact .revoked hanswers (confirms_iff.mp hrevoked)
                (mt confirms_iff.mpr (Bool.eq_false_iff.mp hban))
          | true =>
              have hholds : S.Banned := hbanned.mpr ⟨rfl, hrevoked, hban⟩
              refine ⟨iff_of_true rfl hholds, ?_, hstatus, fun _ => ?_⟩
              · dsimp only
                split
                · next hkept => exact .durable hholds (hdurable.mpr ⟨rfl, hkept⟩)
                · next hkept => exact .notDurable hholds fun hd => hkept (hdurable.mp hd).2
              · rw [hdurable, Option.some.injEq]
                exact (and_iff_right rfl).symm
  · next h200 =>
      have hnot : ¬ S.Banned := fun hb => h200 (hbanned.mp hb).1
      refine ⟨iff_of_false Bool.false_ne_true hnot, ?_, hstatus, fun hb => absurd hb hnot⟩
      unfold refusedAnswer
      dsimp only
      split
      · next h503 =>
          subst h503
          exact .notKept hanswers
      · next h503 => exact .refused hanswers h200 h503

theorem banSpec (subject reason : Text) : S.BanSpec (S.ban subject reason).1 := by
  unfold ban banAtVouchryx
  cases hconfig : S.config with
  | notConfigured => exact banSpec_of_unread (fun _ _ h => h.1 hconfig) (.notConfigured hconfig)
  | configured url key =>
      have hasked : S.config ≠ .notConfigured := by
        rw [hconfig]
        exact fun h => by cases h
      dsimp only
      rcases postCapped_cases S.journaling.codec S.answers.ban with
        ⟨detail, hpost, hunread, hno⟩ | ⟨status, answer, hpost, hreplied⟩
      · rw [hpost]
        exact banSpec_of_unread (fun status answer h => hno status answer h.2)
          (.unreachable hasked hunread)
      · rw [hpost]
        exact banSpec_banAnswer fun status' answer' =>
          (and_iff_right hasked).trans (hreplied status' answer')

theorem banSent (subject reason : Text) : S.BanSent subject reason (S.ban subject reason).2 := by
  unfold BanSent ban banAtVouchryx
  cases S.config with
  | notConfigured => rfl
  | configured url key => exact ⟨_, rfl, rfl, rfl, rfl, rfl, rfl⟩

/-! ## The list and the kills -/

variable (S) in
/-- What a run's kill came to. -/
def kill (p : RunAgg × Nat) : Except ConnectorError Text × List CloudRequest :=
  match S.client? with
  | none => (.error .noDeviceSigner, [])
  | some client => killResult S.wire client S.answers.kills p

variable (S) in
/-- The step of a run's kill. -/
def killFact (p : RunAgg × Nat) : StepFact :=
  let answer := killAnswer S.journaling p.1.runId (S.kill p).1
  ⟨"kill_run".toList, p.1.runId, answer.1, answer.2.1, answer.2.2⟩

variable (S) in
/-- The step of the list. -/
def listFact (subject : Text) : StepFact :=
  match cloudClient S.money with
  | .error why => ⟨"list_runs".toList, subject, false, 0, "error: ".toList ++ why⟩
  | .ok _ =>
      match (CloudClient.runs S.wire S.answers.runs).1 with
      | .error e => ⟨"list_runs".toList, subject, false, e.statusOf, "error: ".toList ++ e.display⟩
      | .ok runs => ⟨"list_runs".toList, subject, true, 200,
          "listed:".toList ++ Text.decimal (openRunsOf subject runs).length ++ " open".toList⟩

theorem listFact_step (subject : Text) : (S.listFact subject).step = "list_runs".toList := by
  unfold listFact
  split
  · rfl
  · split <;> rfl

theorem listFact_target (subject : Text) : (S.listFact subject).target = subject := by
  unfold listFact
  split
  · rfl
  · split <;> rfl

theorem killAnswer_status (runId : Text) (r : Except ConnectorError Text) :
    (killAnswer S.journaling runId r).2.1 = resultStatus r := by
  unfold killAnswer
  cases r with
  | error e => rfl
  | ok killed => dsimp only; split <;> rfl

/-- A kill that goes out is what its answer reads as. -/
theorem kill_of_goes {p : RunAgg × Nat} (h : S.Goes p) :
    ∃ path, Addresses "runs".toList "kill".toList p.1.runId path ∧ S.kill p =
      (parseResponse S.wire S.wire.killResponse (S.answers.kills p.2).reply, [.post path []]) := by
  obtain ⟨client, hclient, hgoes⟩ := h
  obtain ⟨path, hpath, hkill⟩ := killResult_of_goes (W := S.wire) S.answers.kills hgoes
  refine ⟨path, hpath, ?_⟩
  rw [kill, hclient]
  exact hkill

/-- A kill that does not go out fails with no status. -/
theorem kill_of_not_goes {p : RunAgg × Nat} {client : CloudClient}
    (hclient : S.client? = some client) (h : ¬ S.Goes p) :
    ∃ e, S.kill p = (.error e, []) ∧
      client.WithheldAs (S.answers.kills p.2) p.1.runId e.display ∧ e.statusOf = 0 := by
  rw [kill, hclient]
  exact killResult_of_not_goes fun hgoes => h ⟨client, hclient, hgoes⟩

/-- What is so of the step of a kill. -/
structure KillSpec (S : StopSetting F) (p : RunAgg × Nat) : Prop where
  ok : (S.killFact p).ok = true ↔ S.Killed p
  told : S.KillTold p (S.killFact p).verifyResult
  status : S.Answered (.killRun p) (S.killFact p).httpStatus ↔
    (S.Goes p → (S.answers.kills p.2).reply.Plain S.wire.killResponse)
  sent : S.KillSent p (S.kill p).2

theorem killSpec {p : RunAgg × Nat} (hclient : S.client?.isSome = true) : S.KillSpec p := by
  obtain ⟨client, hclient⟩ := Option.isSome_iff_exists.mp hclient
  by_cases hgoes : S.Goes p
  · obtain ⟨path, hpath, hkill⟩ := kill_of_goes hgoes
    have hread := toOption_parseResponse (W := S.wire) S.wire.killResponse
      (S.answers.kills p.2).reply
    have hstatus : (S.killFact p).httpStatus =
        resultStatus (parseResponse S.wire S.wire.killResponse (S.answers.kills p.2).reply) := by
      dsimp only [killFact]
      rw [hkill]
      exact killAnswer_status ..
    have hok : ((S.killFact p).ok = true ↔ S.Killed p) ∧
        S.KillTold p (S.killFact p).verifyResult := by
      dsimp only [killFact]
      rw [hkill]
      dsimp only
      cases hparse : parseResponse S.wire S.wire.killResponse (S.answers.kills p.2).reply with
      | error e =>
          rw [hparse] at hread
          dsimp only [killAnswer]
          refine ⟨iff_of_false Bool.false_ne_true fun h => ?_,
            .failed hgoes (failsAs_of_parseResponse hparse)⟩
          rw [Killed, ← hread] at h
          cases h.2
      | ok killed =>
          rw [hparse] at hread
          by_cases hsame : killed = p.1.runId
          · have hkilled : S.Killed p := ⟨hgoes, hread.symm.trans (congrArg some hsame)⟩
            rw [killAnswer, if_pos hsame]
            dsimp only
            exact ⟨iff_of_true rfl hkilled, .killed hkilled⟩
          · rw [killAnswer, if_neg hsame]
            dsimp only
            refine ⟨iff_of_false Bool.false_ne_true fun h => hsame ?_,
              .another hgoes hread.symm hsame⟩
            exact Option.some.inj (hread.trans h.2)
    refine ⟨hok.1, hok.2, ?_, ⟨fun _ => ⟨path, hpath, by rw [hkill]⟩, fun h => absurd hgoes h⟩⟩
    rw [hstatus, ← resultStatus_parseResponse (W := S.wire)]
    exact ⟨fun h _ => h.1 hgoes, fun h => ⟨fun _ => h hgoes, fun hnot => absurd hgoes hnot⟩⟩
  · obtain ⟨e, hkill, hwithheld, hstatus⟩ := kill_of_not_goes hclient hgoes
    have hfact : S.killFact p =
        ⟨"kill_run".toList, p.1.runId, false, e.statusOf, "error: ".toList ++ e.display⟩ := by
      dsimp only [killFact]
      rw [hkill]
      dsimp only [killAnswer]
    refine ⟨?_, ?_, ?_, ⟨fun h => absurd h hgoes, fun _ => by rw [hkill]⟩⟩
    · rw [hfact]
      exact iff_of_false Bool.false_ne_true fun h => hgoes h.1
    · rw [hfact]
      dsimp only
      exact .withheld hclient hwithheld
    · rw [hfact, hstatus]
      exact iff_of_true ⟨fun h => absurd h hgoes, fun _ => rfl⟩ fun h => absurd h hgoes

theorem length_openRunsOf (subject : Text) (runs : List RunAgg) :
    (openRunsOf subject runs).length =
      runs.countP fun r => r.agentId = subject && !r.killed := by
  rw [openRunsOf, List.length_insertionSort, List.countP_eq_length_filter]

/-- What is so of the step of the list. -/
structure ListSpec (S : StopSetting F) (subject : Text) : Prop where
  ok : (S.listFact subject).ok = true ↔ S.listed.isSome = true
  told : S.ListTold subject (S.listFact subject).verifyResult
  status : S.Answered .listRuns (S.listFact subject).httpStatus ↔
    (S.client?.isSome = true → S.answers.runs.reply.Plain S.wire.runs)

/-- The list is not asked for without a client. -/
theorem listSpec_of_no_client (subject : Text) {why : Text} (h : cloudClient S.money = .error why)
    (htold : S.ListTold subject ("error: ".toList ++ why)) : S.ListSpec subject := by
  have hclient : S.client? = none := by
    unfold client?
    cases hmoney : S.money with
    | ready c => rw [hmoney] at h; cases h
    | _ => rfl
  have hlisted : S.listed = none := by rw [listed, hclient, Option.bind_none]
  have hfact : S.listFact subject =
      ⟨"list_runs".toList, subject, false, 0, "error: ".toList ++ why⟩ := by
    rw [listFact, h]
  refine ⟨?_, ?_, ?_⟩
  · rw [hfact, hlisted]
    exact iff_of_false Bool.false_ne_true Bool.false_ne_true
  · rw [hfact]
    exact htold
  · rw [hfact, Answered, hclient]
    exact iff_of_true rfl fun h => absurd h Bool.false_ne_true

theorem listSpec (subject : Text) : S.ListSpec subject := by
  cases hmoney : S.money with
  | ready c =>
      have hclient : S.client? = some c.client := by rw [client?, hmoney]
      have hread := toOption_parseResponse (W := S.wire) S.wire.runs S.answers.runs.reply
      have hplain := resultStatus_parseResponse (W := S.wire) S.wire.runs
        S.answers.runs.reply
      have hlisted : S.listed = S.answers.runs.reply.read S.wire.runs := by
        rw [listed, hclient, Option.bind_some]
      have hanswered : ∀ status, S.Answered .listRuns status ↔
          status = S.answers.runs.reply.status := fun status => by
        rw [Answered, hclient]
        rfl
      cases hparse : parseResponse S.wire S.wire.runs S.answers.runs.reply with
      | error e =>
          rw [hparse] at hread hplain
          have hfact : S.listFact subject =
              ⟨"list_runs".toList, subject, false, e.statusOf, "error: ".toList ++ e.display⟩ := by
            rw [listFact, hmoney]
            dsimp only [cloudClient, CloudClient.runs]
            rw [hparse]
          refine ⟨?_, ?_, ?_⟩
          · rw [hfact, hlisted, ← hread]
            rfl
          · rw [hfact]
            dsimp only
            exact .failed hclient (failsAs_of_parseResponse hparse)
          · rw [hfact, hanswered, hclient]
            exact hplain.trans (imp_iff_right rfl).symm
      | ok runs =>
          rw [hparse] at hread hplain
          have hsome : S.listed = some runs := hlisted.trans hread.symm
          have hfact : S.listFact subject = ⟨"list_runs".toList, subject, true, 200,
              "listed:".toList ++ Text.decimal (openRunsOf subject runs).length ++
                " open".toList⟩ := by
            rw [listFact, hmoney]
            dsimp only [cloudClient, CloudClient.runs]
            rw [hparse]
          refine ⟨?_, ?_, ?_⟩
          · rw [hfact, hsome]
            rfl
          · rw [hfact, length_openRunsOf]
            dsimp only
            exact .listed hsome
          · rw [hfact, hanswered, hclient]
            exact hplain.trans (imp_iff_right rfl).symm
  | bootstrapping =>
      have h := congrArg cloudClient hmoney
      rw [cloudClient] at h
      exact listSpec_of_no_client subject h (.bootstrapping hmoney)
  | noEnvironment =>
      have h := congrArg cloudClient hmoney
      rw [cloudClient] at h
      exact listSpec_of_no_client subject h (.noEnvironment hmoney)
  | pairingFailed reason =>
      have h := congrArg cloudClient hmoney
      rw [cloudClient] at h
      exact listSpec_of_no_client subject h (.pairingFailed hmoney)

/-- What listing and killing add to the steps, the counts and what was sent. -/
structure RunsSpec (S : StopSetting F) (subject : Text) (s : Steps F) (r : RunsStopped F) :
    Prop where
  took : s.Took (S.listFact subject :: (S.tried subject).map S.killFact) r.kills.steps
  openRuns : r.openRuns = S.listed.map fun _ => (S.openRuns subject).length
  notAttempted : r.notAttempted = (S.openRuns subject).length - 500
  killed : r.kills.killed = (S.tried subject).countP fun p => (S.killFact p).ok
  failed : r.kills.failed + r.kills.killed = (S.tried subject).length
  sent : r.kills.sent = S.listSent ++ (S.tried subject).flatMap fun p => (S.kill p).2

theorem tried_of_not_listed (subject : Text) (h : S.listed = none) :
    S.openRuns subject = [] ∧ S.tried subject = [] := by
  have hopen : S.openRuns subject = [] := by
    rw [StopSetting.openRuns, h]
    rfl
  exact ⟨hopen, by rw [tried, hopen]; rfl⟩

/-- Nothing is tried when no runs were listed. -/
theorem runsSpec_of_not_listed (subject : Text) (s : Steps F) (h : S.listed = none) :
    RunsSpec S subject s ⟨none, 0, 0, 0, s.record S.journaling S.ambient (S.listFact subject).step
      (S.listFact subject).target (S.listFact subject).ok (S.listFact subject).httpStatus
        (S.listFact subject).verifyResult, S.listSent⟩ := by
  obtain ⟨hopen, htried⟩ := tried_of_not_listed subject h
  constructor
  · rw [htried]
    exact Steps.took_record ..
  · rw [h]
    rfl
  · rw [hopen]
    rfl
  · rw [htried]
    rfl
  · rw [htried]
    rfl
  · rw [htried, List.flatMap_nil, List.append_nil]

theorem runsSpec (subject : Text) (s : Steps F) : RunsSpec S subject s
    (stopRuns S.journaling S.ambient S.wire S.money S.answers subject s) := by
  unfold stopRuns
  cases hcloud : cloudClient S.money with
  | error why =>
      have hclient : S.client? = none := by
        unfold client?
        cases hmoney : S.money with
        | ready c => rw [hmoney] at hcloud; cases hcloud
        | _ => rfl
      have hspec := runsSpec_of_not_listed (S := S) subject s
        (by rw [listed, hclient, Option.bind_none])
      rw [listSent, hclient, listFact, hcloud] at hspec
      exact hspec
  | ok client =>
      have hclient : S.client? = some client := by
        unfold client?
        cases hmoney : S.money with
        | ready c => rw [hmoney] at hcloud; cases hcloud; rfl
        | _ => rw [hmoney] at hcloud; cases hcloud
      have hsent : S.listSent = [.get "/v1/runs".toList] := by
        rw [listSent, hclient]
        rfl
      have hlisted : S.listed = (parseResponse S.wire S.wire.runs S.answers.runs.reply).toOption := by
        rw [listed, hclient, Option.bind_some, toOption_parseResponse]
      dsimp only [CloudClient.runs]
      cases hparse : parseResponse S.wire S.wire.runs S.answers.runs.reply with
      | error e =>
          have hspec := runsSpec_of_not_listed (S := S) subject s
            (by rw [hlisted, hparse]; rfl)
          rw [hsent, listFact, hcloud] at hspec
          dsimp only [CloudClient.runs] at hspec
          rw [hparse] at hspec
          exact hspec
      | ok runs =>
          have hruns : S.listed = some runs := by
            rw [hlisted, hparse]
            rfl
          have hopen : S.openRuns subject = openRunsOf subject runs := by
            rw [StopSetting.openRuns, hruns]
            rfl
          have htried : S.tried subject = ((openRunsOf subject runs).take maxRunsPerStop).zipIdx := by
            rw [tried, hopen]
            rfl
          have hkill : S.kill = killResult S.wire client S.answers.kills := by
            funext p
            rw [kill, hclient]
          have hkillFact : S.killFact = Delegation.killFact S.journaling S.wire client
              S.answers.kills := by
            funext p
            dsimp only [StopSetting.killFact, Delegation.killFact]
            rw [hkill]
          have hfact : S.listFact subject = ⟨"list_runs".toList, subject, true, 200,
              "listed:".toList ++ Text.decimal (openRunsOf subject runs).length ++
                " open".toList⟩ := by
            rw [listFact, hcloud]
            dsimp only [CloudClient.runs]
            rw [hparse]
          dsimp only
          obtain ⟨htook, hkilled, hfailed, hsentKills⟩ := killRuns_spec (a := S.ambient)
            (J := S.journaling) (W := S.wire) client S.answers.kills 0
            ((openRunsOf subject runs).take maxRunsPerStop)
            ⟨0, 0, s.record S.journaling S.ambient "list_runs".toList subject true 200
              ("listed:".toList ++ Text.decimal (openRunsOf subject runs).length ++ " open".toList),
              [.get "/v1/runs".toList]⟩
          have hstep := (Steps.took_record (J := S.journaling) (a := S.ambient) s
            "list_runs".toList subject true 200 ("listed:".toList ++
              Text.decimal (openRunsOf subject runs).length ++ " open".toList)).trans htook
          constructor
          · rw [hfact, hkillFact, htried]
            exact hstep
          · rw [hruns, hopen]
            rfl
          · rw [hopen]
            rfl
          · rw [hkillFact, htried]
            exact hkilled.trans (Nat.zero_add _)
          · rw [htried, List.length_zipIdx]
            exact hfailed.trans (Nat.zero_add _)
          · rw [hsent, htried, hkill]
            exact hsentKills

/-- A run is tried only if the panel has a client. -/
theorem client_of_tried {subject : Text} {p : RunAgg × Nat} (h : p ∈ S.tried subject) :
    S.client?.isSome = true := by
  cases hclient : S.client? with
  | some client => rfl
  | none =>
      have hlisted : S.listed = none := by rw [listed, hclient, Option.bind_none]
      rw [(tried_of_not_listed _ hlisted).2] at h
      exact absurd h List.not_mem_nil

/-! ## The verdict -/

/-- Every open run was counted as killed exactly if all of them were. -/
theorem allKilled_iff {subject : Text} {s : Steps F} {r : RunsStopped F}
    (h : RunsSpec S subject s r) : r.openRuns = some r.kills.killed ↔ S.AllKilled subject := by
  rw [h.openRuns, h.killed, AllKilled]
  cases hlisted : S.listed with
  | none => exact iff_of_false (fun h => by cases h) fun h => Bool.false_ne_true h.1
  | some runs =>
      rw [Option.map_some, Option.some.injEq, tried, length_eq_countP_take_iff, Option.isSome_some,
        eq_self_iff_true, true_and]
      have hclient : S.client?.isSome = true := by
        unfold listed at hlisted
        obtain ⟨client, hclient, _⟩ := Option.bind_eq_some_iff.mp hlisted
        rw [hclient]
        rfl
      exact forall₃_congr fun k run _ => and_congr_right fun _ => (killSpec hclient).ok

open Classical in
/-- What is told of a stop that did not go well. -/
theorem notStoppedReasons_eq {subject : Text} {s : Steps F} {r : RunsStopped F} {ban : Answer}
    (h : RunsSpec S subject s r) (hban : S.BanSpec ban) :
    notStoppedReasons ban r = S.reasons subject ban.verify := by
  have hfailed : r.kills.failed = (S.tried subject).countP fun p => ¬ S.Killed p := by
    have hsum := List.length_eq_countP_add_countP (fun p => (S.killFact p).ok) (l := S.tried subject)
    have hnot : (S.tried subject).countP (fun p => ¬ (S.killFact p).ok = true) =
        (S.tried subject).countP fun p => ¬ S.Killed p :=
      List.countP_congr fun p hp => by
        rw [decide_eq_true_eq, decide_eq_true_eq, (killSpec (client_of_tried hp)).ok]
    have hcount := h.failed
    rw [h.killed] at hcount
    omega
  unfold notStoppedReasons reasons
  rw [h.openRuns, h.notAttempted, hfailed]
  congr 1
  · by_cases hb : S.Banned
    · rw [if_pos hb, if_pos (hban.ok.mpr hb)]
    · rw [if_neg hb, if_neg (mt hban.ok.mp hb)]
  · cases S.listed with
    | none => rfl
    | some runs =>
        have hlimit : Text.decimal maxRunsPerStop = "500".toList := by decide
        dsimp only [Option.map_some]
        rw [if_neg (Option.some_ne_none runs), hlimit]
        by_cases hmany : (S.openRuns subject).length > 500
        · rw [if_pos hmany, if_pos (Nat.sub_pos_of_lt hmany)]
        · rw [if_neg hmany, if_neg fun h => hmany (Nat.lt_of_sub_pos h)]

/-- What is so of the verdict. -/
theorem verdict_spec {subject : Text} {s : Steps F} {r : RunsStopped F} {ban : Answer}
    (h : RunsSpec S subject s r) (hban : S.BanSpec ban) :
    ((verdict ban r).1 = true ↔ S.Banned ∧ S.AllKilled subject) ∧
      S.VerdictTold subject (verdict ban r).2 := by
  have hok : (verdict ban r).1 = true ↔ S.Banned ∧ S.AllKilled subject := by
    dsimp only [verdict]
    rw [Bool.and_eq_true, decide_eq_true_eq, hban.ok, allKilled_iff h]
  refine ⟨hok, ?_⟩
  dsimp only [verdict] at hok ⊢
  by_cases hstopped : S.Banned ∧ S.AllKilled subject
  · rw [if_pos (hok.mpr hstopped)]
    by_cases hdurable : S.Durable
    · rw [if_pos ((hban.durable hstopped.1).mpr hdurable)]
      exact .stopped hstopped hdurable
    · rw [if_neg (mt (hban.durable hstopped.1).mp hdurable)]
      exact .notDurable hstopped hdurable
  · rw [if_neg (mt hok.mp hstopped), notStoppedReasons_eq h hban]
    exact .notStopped hstopped hban.told

/-! ## A whole stop -/

theorem validate_of_valid {subject reason : Text} (h : Valid subject reason) :
    validate subject reason = .ok (subject, Text.trim reason) := by
  obtain ⟨hid, hne, hlen⟩ := h
  have hzero : (Text.trim reason).length ≠ 0 := mt List.length_eq_zero_iff.mp hne
  rw [validate, if_pos hid]
  dsimp only
  rw [if_neg]
  rw [Bool.or_eq_true, decide_eq_true_eq, decide_eq_true_eq]
  rintro (h | h)
  · exact hzero h
  · exact absurd h (Nat.not_lt.mpr hlen)

theorem validate_of_not_valid {subject reason : Text} (h : ¬ Valid subject reason) :
    ∃ e, validate subject reason = .error e := by
  unfold validate
  split
  · next hid =>
      dsimp only
      split
      · exact ⟨_, rfl⟩
      · next hlen =>
          rw [Bool.or_eq_true, decide_eq_true_eq, decide_eq_true_eq, not_or] at hlen
          exact absurd ⟨hid, mt List.length_eq_zero_iff.mpr hlen.1, Nat.not_lt.mp hlen.2⟩ h
  · exact ⟨_, rfl⟩

variable (S) in
/-- The steps up to the ban. -/
def stepsToBan (subject reason : Text) (c : Chronicle F) : Steps F :=
  let s := stepsFor S.ambient "console.stop_agent".toList reason c
  let s := s.record S.journaling S.ambient "ceremony".toList subject true 0
    (ceremonyVerify s.sigAlg).1
  s.record S.journaling S.ambient "ban".toList subject (S.ban subject reason).1.ok
    (S.ban subject reason).1.httpStatus (S.ban subject reason).1.verify

variable (S) in
/-- What a stop says at its end. -/
def verdictOf (subject reason : Text) (c : Chronicle F) : Bool × Text :=
  verdict (S.ban subject reason).1 (stopRuns S.journaling S.ambient S.wire S.money S.answers subject
    (S.stepsToBan subject reason c))

variable (S) in
/-- What the code makes of a step. -/
def factOf (subject reason : Text) (c : Chronicle F) : Step → StepFact
  | .ceremony => ⟨"ceremony".toList, subject, true, 0,
      (ceremonyVerify (stepsFor S.ambient "console.stop_agent".toList reason c).sigAlg).1⟩
  | .ban => ⟨"ban".toList, subject, (S.ban subject reason).1.ok,
      (S.ban subject reason).1.httpStatus, (S.ban subject reason).1.verify⟩
  | .listRuns => S.listFact subject
  | .killRun p => S.killFact p
  | .verdict => ⟨"verdict".toList, subject, (S.verdictOf subject reason c).1, 0,
      (S.verdictOf subject reason c).2⟩

variable (S) in
/-- The answer of a step is told with its own status. -/
def StepPlain : Step → Prop
  | .listRuns => S.client?.isSome = true → S.answers.runs.reply.Plain S.wire.runs
  | .killRun p => S.Goes p → (S.answers.kills p.2).reply.Plain S.wire.killResponse
  | _ => True

theorem answeredPlainly_iff (subject : Text) :
    S.AnsweredPlainly subject ↔ ∀ step ∈ S.steps subject, S.StepPlain step := by
  unfold steps
  constructor
  · rintro ⟨hruns, hkills⟩ step hmem
    cases step with
    | listRuns => exact hruns
    | killRun p =>
        have hp : p ∈ S.tried subject := by simpa using hmem
        exact hkills p hp
    | _ => trivial
  · intro h
    exact ⟨h .listRuns (by simp), fun p hp => h (.killRun p) (by simp [hp])⟩

/-- What is so of one step of a stop. -/
structure StepSpec (S : StopSetting F) (subject reason : Text) (c : Chronicle F) (step : Step) :
    Prop where
  name : (S.factOf subject reason c step).step = step.name
  target : (S.factOf subject reason c step).target = step.target subject
  ok : (S.factOf subject reason c step).ok = true ↔ S.Went subject step
  told : S.Told subject step (S.factOf subject reason c step).verifyResult
  status : S.Answered step (S.factOf subject reason c step).httpStatus ↔ S.StepPlain step

/-- A passkey confirmed the stop exactly if the request's signature says so. -/
theorem sigAlg_eq_iff (reason : Text) (c : Chronicle F) :
    (stepsFor S.ambient "console.stop_agent".toList reason c).sigAlg = ceremonyAlg ↔
      S.ambient.signature.map Prod.fst = some "webauthn-es256".toList := by
  dsimp only [stepsFor, Ambient.signatureOr, ceremonyAlg]
  cases S.ambient.signature with
  | none => exact iff_of_false (by decide) (fun h => by cases h)
  | some signature => exact ⟨congrArg some, Option.some.inj⟩

theorem ceremony_told (subject reason : Text) (c : Chronicle F) :
    S.Told subject .ceremony
      (ceremonyVerify (stepsFor S.ambient "console.stop_agent".toList reason c).sigAlg).1 := by
  rw [Told, ceremonyVerify]
  by_cases halg : (stepsFor S.ambient "console.stop_agent".toList reason c).sigAlg = ceremonyAlg
  · rw [if_pos halg, if_pos ((sigAlg_eq_iff reason c).mp halg)]
    rfl
  · rw [if_neg halg, if_neg (mt (sigAlg_eq_iff reason c).mpr halg)]

theorem stepSpec {subject : Text} (reason : Text) (c : Chronicle F) {step : Step}
    (h : step ∈ S.steps subject) : S.StepSpec subject reason c step := by
  cases step with
  | ceremony =>
      exact ⟨rfl, rfl, iff_of_true rfl trivial, ceremony_told subject reason c,
        iff_of_true rfl trivial⟩
  | ban =>
      have hban := banSpec (S := S) subject reason
      constructor
      · rfl
      · rfl
      · exact hban.ok
      · exact hban.told
      · exact iff_of_true hban.status trivial
  | listRuns =>
      have hlist := listSpec (S := S) subject
      have hfact : S.factOf subject reason c .listRuns = S.listFact subject := rfl
      constructor
      · rw [hfact]
        exact listFact_step subject
      · rw [hfact]
        exact listFact_target subject
      · rw [hfact]
        exact hlist.ok
      · rw [hfact]
        exact hlist.told
      · rw [hfact]
        exact hlist.status
  | killRun p =>
      have hp : p ∈ S.tried subject := by simpa [steps] using h
      have hkill := killSpec (p := p) (client_of_tried hp)
      exact ⟨rfl, rfl, hkill.ok, hkill.told, hkill.status⟩
  | verdict =>
      have hruns := runsSpec (S := S) subject (S.stepsToBan subject reason c)
      have hverdict := verdict_spec hruns (banSpec subject reason)
      exact ⟨rfl, rfl, hverdict.1, hverdict.2, iff_of_true rfl trivial⟩

/-- What the journal was given of a step. -/
theorem tells_iff {subject reason : Text} {c : Chronicle F} {step : Step}
    (h : step ∈ S.steps subject) : S.Tells subject reason step
      ((stepsFor S.ambient "console.stop_agent".toList reason c).recordOfFact
        (S.factOf subject reason c step)) ↔ S.StepPlain step := by
  have hspec := stepSpec reason c h
  constructor
  · exact fun htells => hspec.status.mp htells.status
  · intro hplain
    constructor
    · rw [Steps.recordOfFact, Steps.recordOf, hspec.name]
      cases step <;> rfl
    · exact hspec.target
    · exact hspec.told
    · exact hspec.status.mpr hplain
    · rfl
    · rw [← hspec.name]
      rfl
    · rfl
    · rfl
    · rfl
    · rfl

variable (S) in
/-- The steps of a whole stop. -/
def stepsOf (subject reason : Text) (c : Chronicle F) : Steps F :=
  (stopRuns S.journaling S.ambient S.wire S.money S.answers subject
    (S.stepsToBan subject reason c)).kills.steps.record S.journaling S.ambient "verdict".toList
      subject (S.verdictOf subject reason c).1 0 (S.verdictOf subject reason c).2

/-- A whole stop took its steps, in order. -/
theorem took_stepsOf (subject reason : Text) (c : Chronicle F) :
    (stepsFor S.ambient "console.stop_agent".toList reason c).Took
      ((S.steps subject).map (S.factOf subject reason c)) (S.stepsOf subject reason c) := by
  have hruns := runsSpec (S := S) subject (S.stepsToBan subject reason c)
  have hsteps : (stepsFor S.ambient "console.stop_agent".toList reason c).Took
      [S.factOf subject reason c .ceremony, S.factOf subject reason c .ban]
      (S.stepsToBan subject reason c) :=
    (Steps.took_record ..).trans (Steps.took_record ..)
  have hfacts : (S.steps subject).map (S.factOf subject reason c) =
      [S.factOf subject reason c .ceremony, S.factOf subject reason c .ban] ++
        (S.listFact subject :: (S.tried subject).map S.killFact) ++
          [S.factOf subject reason c .verdict] := by
    rw [steps, List.map_append, List.map_append, List.map_map]
    rfl
  rw [hfacts]
  exact (hsteps.trans hruns.took).trans (Steps.took_record ..)

/-- What a valid stop gives, by its steps. -/
theorem stop_of_valid {subject reason : Text} {c : Chronicle F} (h : Valid subject reason) :
    let steps := S.stepsOf subject (Text.trim reason) c
    ∃ outcome : StopOutcome, outcome.steps = steps.list ∧ S.stop subject reason c =
      ((if (S.verdictOf subject (Text.trim reason) c).1 then .ok outcome
        else .error (.notStopped outcome),
        (S.ban subject (Text.trim reason)).2.map .vouchryx ++
          (stopRuns S.journaling S.ambient S.wire S.money S.answers subject
            (S.stepsToBan subject (Text.trim reason) c)).kills.sent.map .cloud), steps.chronicle) := by
  unfold stop agentStop
  rw [validate_of_valid h]
  exact ⟨_, rfl, rfl⟩

theorem openRuns_spec {subject : Text} {runs : List RunAgg} (h : S.listed = some runs) :
    (S.openRuns subject).Perm (runs.filter fun r => r.agentId = subject && !r.killed) ∧
      (S.openRuns subject).Pairwise fun r s => s.lastSeenMillis ≤ r.lastSeenMillis := by
  have : Std.Total fun r s : RunAgg => s.lastSeenMillis ≤ r.lastSeenMillis :=
    ⟨fun r s => le_total s.lastSeenMillis r.lastSeenMillis⟩
  have : IsTrans RunAgg fun r s => s.lastSeenMillis ≤ r.lastSeenMillis :=
    ⟨fun _ _ _ h h' => h'.trans h⟩
  rw [StopSetting.openRuns, h]
  exact ⟨List.perm_insertionSort _ _, List.pairwise_insertionSort _ _⟩

/-- The steps that are shown are those that were taken. -/
theorem shownSteps_stop {subject reason : Text} {c : Chronicle F} (h : Valid subject reason) :
    shownSteps (S.stop subject reason c).1.1 = (S.stepsOf subject (Text.trim reason) c).list := by
  obtain ⟨outcome, hlist, hstop⟩ := stop_of_valid (S := S) (c := c) h
  rw [hstop, ← hlist]
  dsimp only
  split <;> rfl

/-- A valid stop is earned if the Cloud's answers are plain, and only then. -/
theorem earnedValid_iff {subject reason : Text} {c : Chronicle F} (h : Valid subject reason) :
    S.EarnedValid subject (Text.trim reason) c (S.stop subject reason c) ↔
      S.AnsweredPlainly subject := by
  have htook := took_stepsOf (S := S) subject (Text.trim reason) c
  have hshown := shownSteps_stop (S := S) (c := c) h
  obtain ⟨outcome, hlist, hstop⟩ := stop_of_valid (S := S) (c := c) h
  have hattempts : (S.stop subject reason c).2.attempts = c.attempts ++
      ((S.steps subject).map (S.factOf subject (Text.trim reason) c)).map
        (stepsFor S.ambient "console.stop_agent".toList (Text.trim reason) c).recordOfFact := by
    rw [hstop]
    exact htook.attempts
  rw [answeredPlainly_iff]
  constructor
  · intro hearned step hmem
    obtain ⟨records, hrecords, htells, _⟩ := hearned.journaled
    rw [hattempts] at hrecords
    rw [← List.append_cancel_left hrecords, List.map_map, List.forall₂_map_right_iff] at htells
    exact (tells_iff hmem).mp (List.forall₂_same.mp htells step hmem)
  · intro hplain
    have hruns := runsSpec (S := S) subject (S.stepsToBan subject (Text.trim reason) c)
    have hverdict := verdict_spec hruns (banSpec subject (Text.trim reason))
    refine ⟨?_, ?_, ?_, ⟨_, hattempts, ?_, ?_⟩⟩
    · rw [hstop, ← hverdict.1]
      by_cases hok : (S.verdictOf subject (Text.trim reason) c).1 = true
      · rw [if_pos hok]
        exact iff_of_true rfl hok
      · rw [if_neg hok]
        exact iff_of_false Bool.false_ne_true hok
    · exact fun runs => openRuns_spec
    · refine ⟨_, (S.tried subject).map fun p => (S.kill p).2, banSent subject (Text.trim reason),
        ?_, ?_⟩
      · rw [List.forall₂_map_right_iff]
        exact List.forall₂_same.mpr fun p hp => (killSpec (client_of_tried hp)).sent
      · rw [hstop, hruns.sent, List.flatMap_def]
    · rw [List.map_map, List.forall₂_map_right_iff]
      exact List.forall₂_same.mpr fun step hmem => (tells_iff hmem).mpr (hplain step hmem)
    · have hpairs : List.Forall₂ (fun step s =>
          S.factOf subject (Text.trim reason) c step = StopStep.fact s) (S.steps subject)
          (shownSteps (S.stop subject reason c).1.1) := by
        have hmaps : List.Forall₂ (· = ·)
            ((S.steps subject).map (S.factOf subject (Text.trim reason) c))
            ((shownSteps (S.stop subject reason c).1.1).map StopStep.fact) := by
          rw [List.forall₂_eq_eq_eq, hshown]
          exact htook.list.symm
        exact List.forall₂_map_right_iff.mp (List.forall₂_map_left_iff.mp hmaps)
      rw [List.map_map, ← List.map_prod_left_eq_zip, List.forall₂_map_left_iff]
      refine ((List.forall₂_and_left _ _).mpr ⟨fun step hmem => hmem, hpairs⟩).imp ?_
      rintro step s ⟨hmem, hfact⟩
      have hspec := stepSpec (Text.trim reason) c hmem
      exact
        { name := (congrArg StepFact.step hfact).symm.trans hspec.name
          target := (congrArg StepFact.target hfact).symm
          ok := by
            rw [← hspec.ok, hfact]
            rfl
          httpStatus := (congrArg StepFact.httpStatus hfact).symm
          verifyResult := (congrArg StepFact.verifyResult hfact).symm }

/-- A stop is earned exactly if it is not valid or the Cloud answers plainly. -/
theorem stop_earned_iff (S : StopSetting F) (subject reason : Text) (c : Chronicle F) :
    S.Earned subject reason c (S.stop subject reason c) ↔
      (Valid subject reason → S.AnsweredPlainly subject) := by
  constructor
  · exact fun hearned hvalid => (earnedValid_iff hvalid).mp (hearned.valid hvalid)
  · intro hplain
    refine ⟨fun hvalid => (earnedValid_iff hvalid).mpr (hplain hvalid), fun hnot => ?_⟩
    obtain ⟨e, hvalidate⟩ := validate_of_not_valid hnot
    unfold stop agentStop
    rw [hvalidate]
    exact ⟨rfl, rfl, rfl⟩

section Example

/-- One open run of an agent. -/
def openRun : RunAgg := ⟨"run-1".toList, "agent://acme/bot".toList, 0, false⟩

/-- A Cloud that lists one run and accepts its kill with a 202. -/
def acceptedKill : StopSetting Decimal where
  journaling :=
    { codec := CommandBus.sampleCodec
      sha256 := id
      debug := id
      moments := fun _ => ({}, "2026-01-01T00:00:00Z".toList) }
  ambient := {}
  wire :=
    { planRequired := fun _ => none
      errorField := fun _ => none
      runs := fun _ => .ok [openRun]
      killResponse := fun _ => .ok "run-1".toList
      budgetResponse := fun _ => .error "not asked for".toList
      ackResponse := fun _ => .error "not asked for".toList
      budgetBody := fun _ => .error "not asked for".toList }
  config := .configured "http://vouchryx".toList "key".toList
  money := .ready ⟨{}, "local".toList, "user://local/ops".toList, "box".toList,
    "software-signed".toList⟩
  answers :=
    { ban := .answered 200 (Utf8.encode "\x7b\"revoked\":true,\"banned\":true\x7d".toList)
      runs := { reply := .answered 200 (Utf8.encode
        ("[\x7b\"run_id\":\"run-1\",\"model\":\"m\",\"agent_id\":\"agent://acme/bot\"," ++
          "\"spent_microusd\":0,\"calls\":1,\"cache_hits\":0,\"steps\":1," ++
          "\"last_seen_millis\":0,\"killed\":false\x7d]").toList) }
      kills := fun _ => { reply := .answered 202 (Utf8.encode
        "\x7b\"killed\":\"run-1\"\x7d".toList) } }

/-- The kill is answered with 202 and journaled as 200. -/
theorem accepted_journaled_as_200 :
    ¬ acceptedKill.Earned "agent://acme/bot".toList "loop".toList ⟨none, []⟩
      (acceptedKill.stop "agent://acme/bot".toList "loop".toList ⟨none, []⟩) := by
  intro hearned
  have hvalid : Valid "agent://acme/bot".toList "loop".toList :=
    ⟨by decide, by decide, by decide⟩
  have hplain := (earnedValid_iff hvalid).mp (hearned.valid hvalid)
  have hgoes : acceptedKill.Goes (openRun, 0) :=
    ⟨{}, rfl, ⟨by decide, by decide, by decide⟩, rfl, rfl⟩
  have h200 := (hplain.kills (openRun, 0) (List.mem_singleton_self _) hgoes 202 _ rfl (by decide)
    (by decide)).1
  exact absurd h200 (by decide)

end Example

end StopSetting

end Genaryx.Delegation
