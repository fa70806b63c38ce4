import Genaryx.Base.Items
import Genaryx.Replay.Bounded

/-!
# Each request gets its own answer

Requests for proofs share the slots and the disk, and their steps come in any order. Still each is
answered from its own check and from what its own children said, read one after another, and a proof
is about the candidate that its own request asked about and the run of that request's incident, as the
store had it when the request was checked.

## Implementation notes

`Pc.Of` says how a request came to where it stands, from the chances its own steps met so far.
-/

namespace Genaryx.Replay

open Base Base.Transition Text

/-- The requests that were made, in order. -/
def requestsOf (actions : List Action) : List Request :=
  actions.filterMap fun
    | .request request => some request
    | _ => none

/-- What the steps of one request met, in order. Its check is the first. -/
def metBy (thread : Nat) (actions : List Action) : List Chance :=
  actions.filterMap fun
    | .advance i chance => if i = thread then some chance else none
    | _ => none

/-- What the children of a request left, as far as its steps met them exited. -/
def exitsOf (met : List Chance) : List Finished :=
  met.filterMap fun chance =>
    match chance.wait with
    | .exited done => some done
    | _ => none

/-- What follows when one more child has finished. -/
def Next.after : Next → Finished → Next
  | .stage s, done => s.next done
  | .answer a, _ => .answer a

/-- What a proof comes to when its children leave these outputs, one after another. -/
def Stage.outcome (first : Stage) (outputs : List Finished) : Next :=
  outputs.foldl Next.after (.stage first)

theorem outcome_concat (first : Stage) (outputs : List Finished) (done : Finished) :
    first.outcome (outputs ++ [done]) = (first.outcome outputs).after done := by
  rw [Stage.outcome, List.foldl_append]
  rfl

/-! ## One request alone -/

/-- A request was checked, against the store as its first step met it, and came to this. -/
def Request.Checks (config : ProofConfig) (met : List Chance) (request : Request)
    (checked : Except ProofError Plan) : Prop :=
  ∃ chance, met.head? = some chance ∧ request.check config chance.store = checked

/-- Why a proof that was planned is not made, whatever its children say. -/
inductive Interrupts (config : ProofConfig) (limit : UInt64) : ProofError → Prop
  | busy : Interrupts config limit (.busy limit)
  | timeout : Interrupts config limit (.timeout config.seconds)
  | spawn (detail : Data) : Interrupts config limit (.spawn detail)
  | runRefused (reason : Text) : Interrupts config limit (.runRefused reason)

/-- How a request comes to its answer: it is refused, it is interrupted, or its children are read to
the end. -/
inductive Request.Answered (config : ProofConfig) (limit : UInt64) (met : List Chance)
    (request : Request) : Answer → Prop
  | refused {e : ProofError} (h : request.Checks config met (.error e)) :
      request.Answered config limit met (.error e)
  | interrupted {e : ProofError} (h : Interrupts config limit e) :
      request.Answered config limit met (.error e)
  | finished {plan : Plan} {path : Bytes} {first : Stage} {outputs : List Finished}
      {answer : Answer} (hplan : request.Checks config met (.ok plan))
      (hfirst : plan.first path none = .ok first) (hread : outputs.Sublist (exitsOf met))
      (houtcome : first.outcome outputs = .answer answer) :
      request.Answered config limit met answer

/-- A proof of this plan has come to this stage. -/
def Plan.Reaches (met : List Chance) (plan : Plan) (path : Bytes) (stage : Stage) : Prop :=
  ∃ first outputs, plan.first path none = .ok first ∧ outputs.Sublist (exitsOf met) ∧
    first.outcome outputs = .stage stage

/-- How a request came to where it stands. -/
def Pc.Of (config : ProofConfig) (limit : UInt64) (met : List Chance) (request : Request) :
    Pc → Prop
  | .check asked => asked = request ∧ met = []
  | .acquire plan | .makeScratch plan | .prepare plan _ => request.Checks config met (.ok plan)
  | .spawn dir stage | .wait dir stage _ =>
      ∃ plan, request.Checks config met (.ok plan) ∧ plan.Reaches met dir.path stage
  | .removeScratch _ answer | .release answer | .answered answer =>
      request.Answered config limit met answer

variable {config : ProofConfig} {limit : UInt64} {met : List Chance} {request : Request}
  {w v : World} {pc next : Pc} {chance : Chance} {message : Text} {plan : Plan} {path : Bytes}

theorem answered_spawnFailed (message : Text) :
    request.Answered config limit met (spawnFailed message) := .interrupted (.spawn _)

/-! One more step of a request leaves what it met before. -/

theorem exitsOf_concat (met : List Chance) (chance : Chance) :
    exitsOf (met ++ [chance]) = exitsOf met ++ exitsOf [chance] := List.filterMap_append

theorem sublist_exitsOf_concat {outputs : List Finished} (h : outputs.Sublist (exitsOf met))
    (chance : Chance) : outputs.Sublist (exitsOf (met ++ [chance])) := by
  rw [exitsOf_concat]
  exact h.trans (List.sublist_append_left _ _)

theorem Request.Checks.concat {checked : Except ProofError Plan}
    (h : request.Checks config met checked) (chance : Chance) :
    request.Checks config (met ++ [chance]) checked := by
  obtain ⟨first, hfirst, hcheck⟩ := h
  refine ⟨first, ?_, hcheck⟩
  rw [List.head?_append, hfirst, Option.some_or]

theorem Plan.Reaches.concat {stage : Stage} (h : plan.Reaches met path stage) (chance : Chance) :
    plan.Reaches (met ++ [chance]) path stage := by
  obtain ⟨first, outputs, hfirst, hread, houtcome⟩ := h
  exact ⟨first, outputs, hfirst, sublist_exitsOf_concat hread chance, houtcome⟩

theorem Request.Answered.concat {answer : Answer} (h : request.Answered config limit met answer)
    (chance : Chance) : request.Answered config limit (met ++ [chance]) answer := by
  cases h with
  | refused hcheck => exact .refused (hcheck.concat chance)
  | interrupted hinterrupts => exact .interrupted hinterrupts
  | finished hplan hfirst hread houtcome =>
      exact .finished (hplan.concat chance) hfirst (sublist_exitsOf_concat hread chance) houtcome

/-- A first stage that comes with a failure would have come without. -/
theorem first_none {ioError : Option Text} {stage : Stage}
    (h : plan.first path ioError = .ok stage) : plan.first path none = .ok stage := by
  cases plan with
  | policy plan =>
      cases ioError with
      | none => exact h
      | some message => cases h
  | budget plan => exact h

/-- Why no first stage comes. -/
theorem interrupts_of_first {ioError : Option Text} {e : ProofError}
    (h : plan.first path ioError = .error e) : Interrupts config limit e := by
  cases plan with
  | policy plan =>
      cases ioError with
      | none => cases h
      | some message => cases h; exact .spawn _
  | budget plan =>
      rw [Plan.first] at h
      split at h
      · cases h
        exact .runRefused _
      · next part hpart =>
          cases hstatement : copyStatement plan.run part with
          | error reason => rw [hstatement] at h; cases h; exact .runRefused _
          | ok statement => rw [hstatement] at h; cases h

/-- The output of a child that was met exited is one that was read. -/
theorem sublist_exitsOf_exited {outputs : List Finished} {done : Finished}
    (hdone : chance.wait = .exited done) (h : outputs.Sublist (exitsOf met)) :
    (outputs ++ [done]).Sublist (exitsOf (met ++ [chance])) := by
  have hlast : exitsOf [chance] = [done] := by
    rw [exitsOf, List.filterMap_cons, hdone]
    rfl
  rw [exitsOf_concat, hlast]
  exact h.append_right [done]

/-- One more output takes a proof on. -/
theorem reaches_next {stage next : Stage} {done : Finished} (hdone : chance.wait = .exited done)
    (h : plan.Reaches met path stage) (hnext : stage.next done = .stage next) :
    plan.Reaches (met ++ [chance]) path next := by
  obtain ⟨first, outputs, hfirst, hread, houtcome⟩ := h
  refine ⟨first, outputs ++ [done], hfirst, sublist_exitsOf_exited hdone hread, ?_⟩
  rw [outcome_concat, houtcome]
  exact hnext

/-- One more output ends a proof. -/
theorem answered_next {stage : Stage} {done : Finished} {answer : Answer}
    (hdone : chance.wait = .exited done) (hplan : request.Checks config met (.ok plan))
    (h : plan.Reaches met path stage) (hnext : stage.next done = .answer answer) :
    request.Answered config limit (met ++ [chance]) answer := by
  obtain ⟨first, outputs, hfirst, hread, houtcome⟩ := h
  have hlast : first.outcome (outputs ++ [done]) = .answer answer := by
    rw [outcome_concat, houtcome]
    exact hnext
  exact .finished (hplan.concat chance) hfirst (sublist_exitsOf_exited hdone hread) hlast

/-! ## One step -/

theorem of_advancePc (hconfig : w.config = config) (hlimit : w.slots.limit = limit)
    (hpc : pc.Of config limit met request) (h : advancePc w chance pc = some (v, next)) :
    next.Of config limit (met ++ [chance]) request := by
  cases pc with
  | check asked =>
      obtain ⟨rfl, rfl⟩ := hpc
      rw [advancePc, hconfig] at h
      split at h
      next hcheck => cases h; exact .refused ⟨chance, rfl, hcheck⟩
      next plan hcheck => cases h; exact ⟨chance, rfl, hcheck⟩
  | acquire plan =>
      rw [advancePc] at h
      split at h <;> cases h
      · exact .interrupted (hlimit ▸ .busy)
      · exact hpc.concat chance
  | makeScratch plan =>
      rw [advancePc] at h
      split at h <;> cases h
      · exact answered_spawnFailed _
      · exact hpc.concat chance
  | prepare plan dir =>
      rw [advancePc] at h
      split at h
      next hfirst => cases h; exact .interrupted (interrupts_of_first hfirst)
      next stage hfirst =>
          cases h
          exact ⟨plan, hpc.concat chance, stage, [], first_none hfirst, List.nil_sublist _, rfl⟩
  | spawn dir stage =>
      obtain ⟨plan, hplan, hreaches⟩ := hpc
      rw [advancePc] at h
      split at h <;> cases h
      · exact answered_spawnFailed _
      · exact ⟨plan, hplan.concat chance, hreaches.concat chance⟩
  | wait dir stage child =>
      obtain ⟨plan, hplan, hreaches⟩ := hpc
      rw [advancePc] at h
      split at h
      next done hdone =>
          split at h
          · cases h
          · dsimp only at h
            split at h
            next stage' hnext =>
                cases h
                exact ⟨plan, hplan.concat chance, reaches_next hdone hreaches hnext⟩
            next answer hnext => cases h; exact answered_next hdone hplan hreaches hnext
      next expired _ =>
          split at h
          · cases h
          · split at h <;> cases h
            · exact .interrupted (hconfig ▸ .timeout)
            · exact ⟨plan, hplan.concat chance, hreaches.concat chance⟩
      next message _ =>
          cases h
          exact answered_spawnFailed _
  | removeScratch dir answer | release answer =>
      cases h
      exact Request.Answered.concat hpc chance
  | answered answer => cases h

theorem of_unwindPc (h : unwindPc w message pc = some (v, next)) :
    next.Of config limit met request := by
  cases pc with
  | check _ | acquire _ | makeScratch _ | prepare _ _ | spawn _ _ | wait _ _ _ =>
      cases h
      exact answered_spawnFailed _
  | removeScratch _ _ | release _ | answered _ => cases h

theorem config_advancePc (h : advancePc w chance pc = some (v, next)) : v.config = w.config := by
  cases pc with
  | wait dir stage child =>
      rw [advancePc] at h
      split at h
      · split at h
        · cases h
        · dsimp only at h
          split at h <;> cases h <;> rfl
      · split at h
        · cases h
        · split at h <;> cases h <;> rfl
      · cases h
        rfl
  | removeScratch dir answer | release answer =>
      cases h
      rfl
  | answered answer => cases h
  | _ =>
      rw [advancePc] at h
      split at h <;> cases h <;> rfl

theorem config_unwindPc (h : unwindPc w message pc = some (v, next)) : v.config = w.config := by
  cases pc with
  | check _ | acquire _ | makeScratch _ | prepare _ _ | spawn _ _ | wait _ _ _ => cases h; rfl
  | removeScratch _ _ | release _ | answered _ => cases h

/-! ## All requests -/

/-- Each request has one thread, and stands where its own course led it. -/
structure Own (config : ProofConfig) (limit : UInt64) (actions : List Action) (w : World) :
    Prop where
  config_eq : w.config = config
  limit_eq : w.slots.limit = limit
  length_eq : w.threads.length = (requestsOf actions).length
  /-- No step was one of a thread that is not there yet. -/
  unmet : ∀ n, w.threads.length ≤ n → metBy n actions = []
  own : ∀ (n : Nat) (request : Request) (pc : Pc), (requestsOf actions)[n]? = some request →
    w.threads[n]? = some pc → pc.Of config limit (metBy n actions) request

variable {actions : List Action} {i : Nat}

theorem requestsOf_concat (actions : List Action) (a : Action) :
    requestsOf (actions ++ [a]) =
      requestsOf actions ++ (match a with | .request request => [request] | _ => []) := by
  rw [requestsOf, List.filterMap_append]
  cases a <;> rfl

theorem metBy_concat (n : Nat) (actions : List Action) (a : Action) :
    metBy n (actions ++ [a]) = metBy n actions ++ metBy n [a] := List.filterMap_append

theorem metBy_advance (n i : Nat) (chance : Chance) :
    metBy n [.advance i chance] = if i = n then [chance] else [] := by
  by_cases h : i = n <;> simp [metBy, h]

/-- One thread goes on, and the others stand where they stood. -/
theorem Own.setPc {a : Action} (hw : Own config limit actions w) (hpc : w.threads[i]? = some pc)
    (hconfig : v.config = w.config) (hlimit : v.slots.limit = w.slots.limit)
    (hthreads : v.threads = w.threads)
    (hrequests : requestsOf (actions ++ [a]) = requestsOf actions)
    (hothers : ∀ n, n ≠ i → metBy n [a] = [])
    (hnext : ∀ request, pc.Of config limit (metBy i actions) request →
      next.Of config limit (metBy i (actions ++ [a])) request) :
    Own config limit (actions ++ [a]) (v.setPc i next) := by
  have hlength : (v.setPc i next).threads.length = w.threads.length := by
    rw [World.setPc, List.length_set, hthreads]
  refine ⟨hconfig.trans hw.config_eq, hlimit.trans hw.limit_eq, ?_, ?_, ?_⟩
  · rw [hlength, hrequests]
    exact hw.length_eq
  · intro n hn
    rw [hlength] at hn
    have hi : i < w.threads.length := (List.getElem?_eq_some_iff.mp hpc).1
    rw [metBy_concat, hw.unmet n hn, hothers n (by omega), List.append_nil]
  · intro n request pc' hrequest hget
    rw [hrequests] at hrequest
    rw [World.setPc, hthreads, List.getElem?_set] at hget
    split at hget
    next hi =>
        subst hi
        split at hget
        · cases hget
          exact hnext request (hw.own i request pc hrequest hpc)
        · cases hget
    next hi =>
        rw [metBy_concat, hothers n (Ne.symm hi), List.append_nil]
        exact hw.own n request pc' hrequest hget

theorem own_step {a : Action} (hw : Own config limit actions w) (h : step w a = some v) :
    Own config limit (actions ++ [a]) v := by
  cases a with
  | request asked =>
      cases h
      have hmet : ∀ n, metBy n (actions ++ [.request asked]) = metBy n actions := fun n => by
        rw [metBy_concat]
        exact List.append_nil _
      refine ⟨hw.config_eq, hw.limit_eq, ?_, ?_, ?_⟩
      · rw [requestsOf_concat, List.length_append, List.length_append, hw.length_eq]
        rfl
      · intro n hn
        rw [hmet]
        rw [List.length_append] at hn
        exact hw.unmet n (Nat.le_of_add_right_le hn)
      · intro n request pc hrequest hget
        rw [hmet]
        rw [requestsOf_concat] at hrequest
        rw [List.getElem?_append] at hrequest hget
        rw [← hw.length_eq] at hrequest
        split at hrequest
        next hlt =>
            rw [if_pos hlt] at hget
            exact hw.own n request pc hrequest hget
        next hlt =>
            -- The thread of the new request is the last one, like the request.
            rw [if_neg hlt] at hget
            rw [List.getElem?_singleton] at hrequest hget
            split at hrequest
            next hzero =>
                rw [if_pos hzero] at hget
                cases hrequest
                cases hget
                exact ⟨rfl, hw.unmet n (not_lt.mp hlt)⟩
            next => cases hrequest
  | advance thread chance =>
      obtain ⟨pc, hpc, hadvance⟩ := Option.bind_eq_some_iff.mp h
      obtain ⟨⟨u, next⟩, hnext, rfl⟩ := Option.map_eq_some_iff.mp hadvance
      have hstep := pcStep_of_advancePc hpc hnext
      refine hw.setPc hpc (config_advancePc hnext) (slots_limit hstep.slots) hstep.threads ?_
        (fun n hn => (metBy_advance n thread chance).trans (if_neg (Ne.symm hn))) ?_
      · rw [requestsOf_concat, List.append_nil]
      · intro request hrequest
        rw [metBy_concat, metBy_advance, if_pos rfl]
        exact of_advancePc hw.config_eq hw.limit_eq hrequest hnext
  | unwind thread message =>
      obtain ⟨pc, hpc, hunwind⟩ := Option.bind_eq_some_iff.mp h
      obtain ⟨⟨u, next⟩, hnext, rfl⟩ := Option.map_eq_some_iff.mp hunwind
      have hstep := pcStep_of_unwindPc hpc hnext
      refine hw.setPc hpc (config_unwindPc hnext) (slots_limit hstep.slots) hstep.threads ?_
        (fun n _ => rfl) fun request _ => of_unwindPc hnext
      rw [requestsOf_concat, List.append_nil]
  | exitChild child =>
      rw [step] at h
      split at h <;> cases h
      have hmet : ∀ n, metBy n (actions ++ [.exitChild child]) = metBy n actions := fun n => by
        rw [metBy_concat]
        exact List.append_nil _
      refine ⟨hw.config_eq, hw.limit_eq, ?_, fun n hn => (hmet n).trans (hw.unmet n hn), ?_⟩
      · rw [requestsOf_concat, List.append_nil]
        exact hw.length_eq
      · intro n request pc hrequest hget
        rw [requestsOf_concat, List.append_nil] at hrequest
        rw [hmet]
        exact hw.own n request pc hrequest hget

theorem own_of_run (h : run step (World.start config limit) actions = some w) :
    Own config limit actions w := by
  apply run_invariant_history (I := Own config limit) _ _ h
  · exact ⟨rfl, rfl, rfl, fun _ _ => rfl, fun n request pc hrequest _ => nomatch hrequest⟩
  · intro before a t u _ ht hstep
    exact own_step ht hstep

/-! ## What an answer is about -/

/-- Why the candidate of a request is refused, if it is. -/
def Request.Refuses : Request → Text → Prop
  | .policy _ candidate, reason => checkCandidate candidate = .error (.candidateRefused reason)
  | .budget _ perRun perStep maxSteps, reason =>
      BudgetCandidate.fromParts perRun perStep maxSteps = .error (.refused reason)

theorem mapM_ne_overflowed (text : Option Text) : text.mapM parseUsd ≠ .error .overflowed := by
  intro h
  cases text with
  | none => cases h
  | some t =>
      rw [Option.mapM_some] at h
      obtain hread | ⟨n, -, hnone⟩ := bind_eq_error h
      · exact parseUsd_ne_overflowed t hread
      · cases hnone

theorem fromParts_ne_overflowed (perRun perStep : Option Text) (maxSteps : Option UInt32) :
    BudgetCandidate.fromParts perRun perStep maxSteps ≠ .error .overflowed := by
  intro h
  obtain hrun | ⟨runMicros, -, h⟩ := bind_eq_error h
  · exact mapM_ne_overflowed perRun hrun
  obtain hstep | ⟨stepMicros, -, h⟩ := bind_eq_error h
  · exact mapM_ne_overflowed perStep hstep
  split at h
  · cases h
  · split at h <;> cases h

variable {store : Lookup} {incidentId candidate : Text} {perRun perStep : Option Text}
  {maxSteps : Option UInt32} {reason : Text}

theorem runOfIncident_ne_refused :
    runOfIncident store incidentId ≠ .error (.candidateRefused reason) := by
  intro h
  obtain hevent | ⟨run, -, h⟩ := bind_eq_error h
  · obtain ⟨_, -, hincident⟩ := mapError_eq_error hevent
    cases hincident
  · split at h <;> cases h

theorem configured_ne_refused {missing : Text} {path : Option Bytes} :
    configured missing path ≠ .error (.candidateRefused reason) := by
  intro h
  cases path <;> cases h

/-- What a policy request that passes its check plans. -/
theorem check_policy_ok
    (h : (Request.policy incidentId candidate).check config store = .ok plan) :
    checkCandidate candidate = .ok () ∧ ∃ p, plan = .policy p ∧ p.candidate = candidate ∧
      runOfIncident store incidentId = .ok p.run := by
  obtain ⟨_, hcandidate, h⟩ := bind_eq_ok h
  obtain ⟨archive, -, h⟩ := bind_eq_ok h
  obtain ⟨events, -, h⟩ := bind_eq_ok h
  obtain ⟨run, hrun, h⟩ := bind_eq_ok h
  cases h
  exact ⟨hcandidate, _, rfl, rfl, hrun⟩

/-- What a budget request that passes its check plans. -/
theorem check_budget_ok
    (h : (Request.budget incidentId perRun perStep maxSteps).check config store = .ok plan) :
    ∃ p, plan = .budget p ∧
      BudgetCandidate.fromParts perRun perStep maxSteps = .ok p.candidate ∧
        p.candidate.args = .ok p.flags ∧ runOfIncident store incidentId = .ok p.run := by
  obtain ⟨candidate, hcandidate, h⟩ := bind_eq_ok h
  obtain ⟨flags, hflags, h⟩ := bind_eq_ok h
  obtain ⟨trace, -, h⟩ := bind_eq_ok h
  obtain ⟨run, hrun, h⟩ := bind_eq_ok h
  obtain ⟨-, -, h⟩ := bind_eq_ok h
  cases h
  exact ⟨_, rfl, mapError_eq_ok hcandidate, mapError_eq_ok hflags, hrun⟩

/-- A check that refuses a candidate refuses the one that was asked for. -/
theorem refuses_of_check (h : request.check config store = .error (.candidateRefused reason)) :
    request.Refuses reason := by
  cases request with
  | policy incidentId candidate =>
      obtain hcandidate | ⟨-, -, h⟩ := bind_eq_error h
      · exact hcandidate
      obtain harchive | ⟨_, -, h⟩ := bind_eq_error h
      · exact absurd harchive configured_ne_refused
      obtain hevents | ⟨_, -, h⟩ := bind_eq_error h
      · exact absurd hevents configured_ne_refused
      obtain hrun | ⟨_, -, h⟩ := bind_eq_error h
      · exact absurd hrun runOfIncident_ne_refused
      · cases h
  | budget incidentId perRun perStep maxSteps =>
      obtain hcandidate | ⟨c, hcandidate, h⟩ := bind_eq_error h
      · obtain ⟨e, hparts, he⟩ := mapError_eq_error hcandidate
        cases e with
        | refused text => cases he; exact hparts
        | overflowed => exact absurd hparts (fromParts_ne_overflowed perRun perStep maxSteps)
      obtain hflags | ⟨_, -, h⟩ := bind_eq_error h
      · -- The flags of a candidate that can be asked for are all written.
        obtain ⟨flags, hargs, -⟩ := readFlags_args ⟨_, _, _, mapError_eq_ok hcandidate⟩
        rw [hargs] at hflags
        cases hflags
      obtain htrace | ⟨_, -, h⟩ := bind_eq_error h
      · exact absurd htrace configured_ne_refused
      obtain hrun | ⟨_, -, h⟩ := bind_eq_error h
      · exact absurd hrun runOfIncident_ne_refused
      obtain hsafe | ⟨_, -, h⟩ := bind_eq_error h
      · obtain ⟨_, -, he⟩ := mapError_eq_error hsafe
        cases he
      · cases h

/-- What is at this point of a proof is about its plan. -/
def Next.About (plan : Plan) : Next → Prop
  | .stage (.replay p) => plan = .policy p
  | .stage (.copy p _) | .stage (.count p _) | .stage (.alone p _ _) | .stage (.whole p _ _ _) =>
      plan = .budget p
  | .answer (.ok (.policy proof)) => ∃ p report, plan = .policy p ∧ proof = judge report p.run
  | .answer (.ok (.budget proof)) => ∃ p run trace copied tied, plan = .budget p ∧
      judgeBudget p.run p.candidate run trace copied tied = .ok proof
  | .answer (.error e) => ∀ reason, e ≠ .candidateRefused reason

theorem about_first {ioError : Option Text} {stage : Stage}
    (h : plan.first path ioError = .ok stage) : Next.About plan (.stage stage) := by
  cases plan with
  | policy p => cases ioError <;> cases h; rfl
  | budget p =>
      rw [Plan.first] at h
      split at h
      · cases h
      · obtain ⟨statement, -, h⟩ := bind_eq_ok h
        cases h
        rfl

theorem failed_ne_refused (done : Finished) (reason : Text) :
    done.failed ≠ .candidateRefused reason := nofun

theorem readReport_ne_refused {done : Finished} {asked : BudgetCandidate} :
    readReport done asked ≠ .error (.candidateRefused reason) := by
  rw [readReport]
  split <;> intro h <;> cases h

/-- Whatever a child says, what follows is about the plan. -/
theorem about_next {stage : Stage} (h : Next.About plan (.stage stage)) (done : Finished) :
    (stage.next done).About plan := by
  cases stage with
  | replay p =>
      rw [Stage.next]
      split
      next report hreport => exact ⟨p, report, h, rfl⟩
      next => exact nofun
      next => exact nofun
  | copy p statement =>
      rw [Stage.next]
      split
      next => exact failed_ne_refused done
      next => exact nofun
      next => exact h
  | count p copied =>
      rw [Stage.next]
      split
      next => exact failed_ne_refused done
      next =>
          split
          · exact nofun
          · exact h
  | alone p copied tied =>
      rw [Stage.next]
      split
      next e he => exact fun reason hreason => readReport_ne_refused (hreason ▸ he)
      next report hreport => exact h
  | whole p copied tied run =>
      rw [Stage.next]
      split
      next e he => exact fun reason hreason => readReport_ne_refused (hreason ▸ he)
      next trace htrace =>
          rw [BudgetPlan.judge]
          split
          next proof hproof => exact ⟨p, run, trace, copied, tied, h, hproof⟩
          next => exact nofun
          next => exact nofun

theorem about_outcome {first : Stage} (h : Next.About plan (.stage first))
    (outputs : List Finished) : (first.outcome outputs).About plan := by
  induction outputs using List.reverseRecOn with
  | nil => exact h
  | append_singleton outputs done ih =>
      rw [outcome_concat]
      cases hstage : first.outcome outputs with
      | stage stage =>
          rw [hstage] at ih
          exact about_next ih done
      | answer answer =>
          rw [hstage] at ih
          exact ih

/-- A request's answer is its own. -/
structure OwnAnswer (config : ProofConfig) (limit : UInt64) (met : List Chance)
    (request : Request) (answer : Answer) : Prop where
  /-- It comes from the request's own check and its own children. -/
  course : request.Answered config limit met answer
  /-- A proof of a policy is one of the candidate policy, about the run that the store had for the
  request's own incident when it was checked. -/
  policy : ∀ proof, answer = .ok (.policy proof) → ∃ incidentId candidate checked run report,
    request = .policy incidentId candidate ∧ checkCandidate candidate = .ok () ∧
      met.head? = some checked ∧ checked.store incidentId = .ok (some run) ∧ run ≠ [] ∧
        proof = judge report run
  /-- A proof of a budget names the candidate that was typed and the run of its own incident. -/
  budget : ∀ proof, answer = .ok (.budget proof) →
    ∃ incidentId perRun perStep maxSteps checked run,
      request = .budget incidentId perRun perStep maxSteps ∧
        BudgetCandidate.fromParts perRun perStep maxSteps = .ok proof.candidate ∧
          met.head? = some checked ∧ checked.store incidentId = .ok (some run) ∧ run ≠ [] ∧
            proof.run = .bounded run
  /-- Only a candidate that its own check refuses is said to be refused. -/
  refused : ∀ reason, answer = .error (.candidateRefused reason) → request.Refuses reason

theorem named_of_judgeBudget {runId : Text} {c : BudgetCandidate} {run trace : BacktestReport}
    {copied : Nat} {tied : Bool} {proof : BudgetProof}
    (h : judgeBudget runId c run trace copied tied = .ok proof) :
    proof.candidate = c ∧ proof.run = .bounded runId := by
  rw [judgeBudget] at h
  iterate 5
    split at h
    · cases h
  obtain ⟨elsewhere, -, rfl⟩ := map_eq_ok_iff.mp h
  exact ⟨rfl, rfl⟩

/-- The run that is found is the one of the incident's event, and is not empty. -/
theorem runOfIncident_eq_ok {run : Text} (h : runOfIncident store incidentId = .ok run) :
    store incidentId = .ok (some run) ∧ run ≠ [] := by
  obtain ⟨found, hfound, h⟩ := bind_eq_ok h
  split at h
  next run' hrun =>
      cases h
      obtain ⟨rfl, hne⟩ := Option.filter_eq_some_iff.mp hrun
      exact ⟨mapError_eq_ok hfound, by simpa using hne⟩
  next => cases h

theorem ownAnswer_of_answered {answer : Answer} (h : request.Answered config limit met answer) :
    OwnAnswer config limit met request answer := by
  have habout : ∀ {plan path first outputs}, plan.first path none = .ok first →
      first.outcome outputs = .answer answer → Next.About plan (.answer answer) := by
    intro plan path first outputs hfirst houtcome
    exact houtcome ▸ about_outcome (about_first hfirst) outputs
  refine ⟨h, ?_, ?_, ?_⟩
  · rintro proof rfl
    cases h with | finished hplan hfirst hread houtcome =>
    obtain ⟨checked, hchecked, hplan⟩ := hplan
    obtain ⟨p, report, rfl, hproof⟩ := habout hfirst houtcome
    cases request with
    | policy incidentId candidate =>
        obtain ⟨hcandidate, _, hp, -, hrun⟩ := check_policy_ok hplan
        cases hp
        obtain ⟨hstore, hne⟩ := runOfIncident_eq_ok hrun
        exact ⟨incidentId, candidate, checked, p.run, report, rfl, hcandidate, hchecked, hstore, hne,
          hproof⟩
    | budget incidentId perRun perStep maxSteps =>
        obtain ⟨_, hp, -⟩ := check_budget_ok hplan
        cases hp
  · rintro proof rfl
    cases h with | finished hplan hfirst hread houtcome =>
    obtain ⟨checked, hchecked, hplan⟩ := hplan
    obtain ⟨p, run, trace, copied, tied, rfl, hproof⟩ := habout hfirst houtcome
    obtain ⟨hcandidate, hnamed⟩ := named_of_judgeBudget hproof
    cases request with
    | policy incidentId candidate =>
        obtain ⟨-, _, hp, -⟩ := check_policy_ok hplan
        cases hp
    | budget incidentId perRun perStep maxSteps =>
        obtain ⟨_, hp, hparts, -, hrun⟩ := check_budget_ok hplan
        cases hp
        obtain ⟨hstore, hne⟩ := runOfIncident_eq_ok hrun
        exact ⟨incidentId, perRun, perStep, maxSteps, checked, p.run, rfl, hcandidate ▸ hparts,
          hchecked, hstore, hne, hnamed⟩
  · rintro reason rfl
    cases h with
    | refused hcheck =>
        obtain ⟨_, -, hcheck⟩ := hcheck
        exact refuses_of_check hcheck
    | interrupted hinterrupts => cases hinterrupts
    | finished hplan hfirst hread houtcome => exact absurd rfl (habout hfirst houtcome reason)

end Genaryx.Replay
