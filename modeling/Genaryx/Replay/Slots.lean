import Genaryx.Base.Custody
import Genaryx.Base.Transition
import Genaryx.Replay.Arguments
import Genaryx.Replay.Halves
import Genaryx.Replay.Query
import Genaryx.Replay.Table

/-!
# Proofs in slots

Any viewer may ask for a proof, and a proof runs one child process after another, for up to thirty
seconds. So each holds one of a few slots, which every kind of proof shares: a request is checked
first, then takes a slot or is told that none is free, and gives its slot back on every path out.
Each request is a thread, and the threads run in any order.

## Implementation notes

Paths and arguments are bytes. Children and scratch directories are numbered in the order they are
made, and removing a directory is taken to work. `World.strays` is history: it has the children that
a proof has let go of while they may still run.
-/

namespace Genaryx.Replay

open Base Json Text

/-! ## Slots -/

/-- How many proofs the console process runs at once. -/
def maxConcurrentProofs : UInt64 := 2

/-- A set of slots, with the count of those that are taken. -/
structure Slots where
  limit : UInt64
  inUse : UInt64 := 0

/-- Take a slot, if one is free. -/
def Slots.tryAcquire (s : Slots) : Option Slots :=
  if s.inUse < s.limit then some { s with inUse := s.inUse + 1 } else none

/-- Give a slot back. -/
def Slots.release (s : Slots) : Slots := { s with inUse := s.inUse - 1 }

/-! ## What a proof asks and runs -/

/-- Why no proof was made. -/
inductive ProofError
  | notConfigured (missing : Text)
  | incident (reason : Text)
  | noRun
  | candidateRefused (reason : Text)
  | runRefused (reason : Text)
  | notInTrace (run : Data)
  | spawn (detail : Data)
  | busy (limit : UInt64)
  | timeout (seconds : Nat)
  | replayFailed (exit : Option Int) (detail : Data)
  | unreadable (reason : Text)
  deriving DecidableEq

inductive Proof
  | policy (proof : PolicyProof)
  | budget (proof : BudgetProof)

abbrev Answer := Except ProofError Proof

/-- Where proofs run from. -/
structure ProofConfig where
  wardryxBin : Bytes
  archive : Option Bytes
  events : Option Bytes
  tokenfuseBin : Bytes
  traceDir : Option Bytes
  seconds : Nat

/-- A request for a proof, with the incident it is about. -/
inductive Request
  | policy (incidentId candidate : Text)
  | budget (incidentId : Text) (perRun perStep : Option Text) (maxSteps : Option UInt32)

/-- What the store says of incidents: why one has no event, or the run its event names. -/
abbrev Lookup := Text → Except Text (Option Text)

/-- What a finished child left. -/
structure Finished where
  exit : Option Int
  stdout : Text
  stderr : Text

/-- A child process: its program, its arguments, and the trace it is pointed at. -/
structure Command where
  bin : Bytes
  args : List Bytes
  dataDir : Option Bytes

structure PolicyPlan where
  bin : Bytes
  events : Bytes
  archive : Bytes
  candidate : Text
  run : Text

structure BudgetPlan where
  bin : Bytes
  trace : Bytes
  candidate : BudgetCandidate
  flags : List Text
  run : Text

/-- A request that was checked. -/
inductive Plan
  | policy (plan : PolicyPlan)
  | budget (plan : BudgetPlan)

def candidateMaxBytes : Nat := 64 * 1024

def checkCandidate (candidate : Text) : Except ProofError Unit :=
  if (trim candidate).isEmpty then
    .error (.candidateRefused "the candidate policy is empty".toList)
  else if candidateMaxBytes < Utf8.len candidate then
    .error (.candidateRefused "the candidate policy is larger than 64 KiB".toList)
  else if candidate.contains [Char.ofNat 0] then
    .error (.candidateRefused "the candidate policy holds a NUL byte".toList)
  else .ok ()

/-- The run an incident happened in, from the console's own store. -/
def runOfIncident (store : Lookup) (incidentId : Text) : Except ProofError Text := do
  match (← (store incidentId).mapError .incident).filter fun run => !run.isEmpty with
  | some run => .ok run
  | none => .error .noRun

def configured (missing : Text) : Option Bytes → Except ProofError Bytes
  | some path => .ok path
  | none => .error (.notConfigured missing)

def traceMissing : Text := "the gateway's trace directory (TOKENFUSE_DATA_DIR)".toList

def refusal : AmountError → ProofError
  | .refused reason => .candidateRefused reason
  -- The decimals of an amount never overflow.
  | .overflowed => .candidateRefused []

/-- Everything that is checked before a slot is taken. -/
def Request.check (config : ProofConfig) (store : Lookup) : Request → Except ProofError Plan
  | .policy incidentId candidate => do
      checkCandidate candidate
      let archive ← configured "the policy archive (WARDRYX_POLICY_ARCHIVE)".toList config.archive
      let events ← configured "the directory wardryx records its decisions in".toList config.events
      let run ← runOfIncident store incidentId
      return .policy { bin := config.wardryxBin, events, archive, candidate, run }
  | .budget incidentId perRun perStep maxSteps => do
      let candidate ← (BudgetCandidate.fromParts perRun perStep maxSteps).mapError refusal
      let flags ← candidate.args.mapError .candidateRefused
      let trace ← configured traceMissing config.traceDir
      let run ← runOfIncident store incidentId
      (querySafeRun run).mapError .runRefused
      return .budget { bin := config.tokenfuseBin, trace, candidate, flags, run }

/-- Which child of a proof is next, with what those before it have said. -/
inductive Stage
  | replay (plan : PolicyPlan)
  | copy (plan : BudgetPlan) (statement : Text)
  | count (plan : BudgetPlan) (copied : Nat)
  | alone (plan : BudgetPlan) (copied : Nat) (tied : Bool)
  | whole (plan : BudgetPlan) (copied : Nat) (tied : Bool) (run : BacktestReport)

inductive Next
  | stage (stage : Stage)
  | answer (answer : Answer)

/-- A file in the scratch directory. -/
def scratchFile (dir : Bytes) (name : Text) : Bytes := dir ++ Utf8.encode ('/' :: name)

/-- The first child. A candidate policy is written to a file before, which can fail. -/
def Plan.first (dir : Bytes) (ioError : Option Text) : Plan → Except ProofError Stage
  | .policy plan =>
      match ioError with
      | some message => .error (.spawn (.bounded message))
      | none => .ok (.replay plan)
  | .budget plan =>
      match Utf8.fromUtf8 (scratchFile dir "part.parquet".toList) with
      | none => .error (.runRefused "the scratch path is not text".toList)
      | some part => do
          let statement ← (copyStatement plan.run part).mapError .runRefused
          return .copy plan statement

def BudgetPlan.sql (plan : BudgetPlan) (statement : Text) (dataDir : Bytes) : Command where
  bin := plan.bin
  args := [Utf8.encode "sql".toList, Utf8.encode statement]
  dataDir := some dataDir

def BudgetPlan.backtest (plan : BudgetPlan) (dataDir : Bytes) : Command where
  bin := plan.bin
  args := ("backtest".toList :: plan.flags).map Utf8.encode
  dataDir := some dataDir

def Stage.command (dir : Bytes) : Stage → Command
  | .replay plan =>
      { bin := plan.bin
        args :=
          [Utf8.encode "replay".toList, Utf8.encode "-events".toList, plan.events,
            Utf8.encode "-archive".toList, plan.archive, Utf8.encode "-policy".toList,
            scratchFile dir "candidate.yaml".toList]
        dataDir := none }
  | .copy plan statement => plan.sql statement plan.trace
  | .count plan _ => plan.sql stepCountStatement dir
  | .alone plan _ _ => plan.backtest dir
  | .whole plan _ _ _ => plan.backtest plan.trace

/-- What a child that said something other than what was expected leaves. -/
def Finished.failed (done : Finished) : ProofError :=
  .replayFailed done.exit
    (.bounded (if (trim done.stderr).isEmpty then done.stdout else done.stderr))

/-- A backtest report, or the cause it could not be read. -/
def readReport (done : Finished) (asked : BudgetCandidate) : Except ProofError BacktestReport :=
  match parseBacktest done.stdout asked with
  | .ok report => .ok report
  | .error (.inconsistent reason) => .error (.unreadable reason)
  | .error .noCalls =>
      .error (.unreadable "tokenfuse found no calls in a trace that holds some".toList)
  | .error .unrecognised => .error done.failed

def BudgetPlan.judge (plan : BudgetPlan) (run trace : BacktestReport) (copied : Nat) (tied : Bool) :
    Answer :=
  match judgeBudget plan.run plan.candidate run trace copied tied with
  | .ok proof => .ok (.budget proof)
  | .error (.refused reason) => .error (.unreadable reason)
  -- No subtraction of counters underflows.
  | .error .underflowed => .error (.unreadable [])

/-- What follows from a child that has finished: the next one, or an answer. -/
def Stage.next (done : Finished) : Stage → Next
  | .replay plan =>
      match parseReport done.stdout with
      | .ok report => .answer (.ok (.policy (judge report plan.run)))
      | .error (.inconsistent reason) => .answer (.error (.unreadable reason.toList))
      | .error .unrecognised =>
          .answer (.error (.replayFailed done.exit (.bounded done.stderr)))
  | .copy plan _ =>
      match parseCopyCount done.stdout with
      | none => .answer (.error done.failed)
      | some 0 => .answer (.error (.notInTrace (.bounded plan.run)))
      | some copied => .stage (.count plan copied)
  | .count plan copied =>
      match parseStepCounts done.stdout with
      | none => .answer (.error done.failed)
      | some (rows, steps) =>
          if rows ≠ copied then
            .answer (.error (.unreadable "the copy of the run and a count of it disagree".toList))
          else .stage (.alone plan copied (decide (steps < rows)))
  | .alone plan copied tied =>
      match readReport done plan.candidate with
      | .error e => .answer (.error e)
      | .ok report => .stage (.whole plan copied tied report)
  | .whole plan copied tied run =>
      match readReport done plan.candidate with
      | .error e => .answer (.error e)
      | .ok report => .answer (plan.judge run report copied tied)

/-! ## Requests in any order -/

/-- A scratch directory, with its path. -/
structure Scratch where
  index : Nat
  path : Bytes

/-- Where a request stands. The directory goes before the slot is given back. -/
inductive Pc
  | check (request : Request)
  | acquire (plan : Plan)
  | makeScratch (plan : Plan)
  | prepare (plan : Plan) (dir : Scratch)
  | spawn (dir : Scratch) (stage : Stage)
  | wait (dir : Scratch) (stage : Stage) (child : Nat)
  | removeScratch (dir : Scratch) (answer : Answer)
  | release (answer : Answer)
  | answered (answer : Answer)

def Pc.holdsSlot : Pc → Bool
  | .check _ | .acquire _ | .answered _ => false
  | _ => true

/-- The scratch directory that a request has. -/
def Pc.scratch : Pc → Option Nat
  | .prepare _ dir | .spawn dir _ | .wait dir _ _ | .removeScratch dir _ => some dir.index
  | _ => none

/-- The child that a request waits for. -/
def Pc.child : Pc → Option Nat
  | .wait _ _ child => some child
  | _ => none

/-- What asking after a child may say. -/
inductive Wait
  | exited (done : Finished)
  | running (expired : Bool)
  | failed (message : Text)

/-- What one step meets by chance: what the store says of incidents, what making a directory, a
file or a process reports, the path of the directory, and how the child is. -/
structure Chance where
  store : Lookup := fun _ => .error []
  ioError : Option Text := none
  path : Bytes := []
  wait : Wait := .running false

structure World where
  config : ProofConfig
  slots : Slots
  threads : List Pc := []
  dirs : Pool := {}
  children : Pool := {}
  strays : List Nat := []

inductive Action
  | request (request : Request)
  | advance (thread : Nat) (chance : Chance)
  | unwind (thread : Nat) (message : Text)
  | exitChild (child : Nat)

def spawnFailed (message : Text) : Answer := .error (.spawn (.bounded message))

/-- The next step of one request. -/
def advancePc (w : World) (chance : Chance) : Pc → Option (World × Pc)
  | .check request =>
      match request.check w.config chance.store with
      | .error e => some (w, .answered (.error e))
      | .ok plan => some (w, .acquire plan)
  | .acquire plan =>
      match w.slots.tryAcquire with
      | none => some (w, .answered (.error (.busy w.slots.limit)))
      | some slots => some ({ w with slots }, .makeScratch plan)
  | .makeScratch plan =>
      match chance.ioError with
      | some message => some (w, .release (spawnFailed message))
      | none =>
          some ({ w with dirs := w.dirs.make }, .prepare plan ⟨w.dirs.made, chance.path⟩)
  | .prepare plan dir =>
      match plan.first dir.path chance.ioError with
      | .error e => some (w, .removeScratch dir (.error e))
      | .ok stage => some (w, .spawn dir stage)
  | .spawn dir stage =>
      match chance.ioError with
      | some message => some (w, .removeScratch dir (spawnFailed message))
      | none => some ({ w with children := w.children.make }, .wait dir stage w.children.made)
  | .wait dir stage child =>
      match chance.wait with
      | .exited done =>
          if w.children.live child then none
          else
            let w := { w with children := w.children.finish (some child) }
            match stage.next done with
            | .stage next => some (w, .spawn dir next)
            | .answer answer => some (w, .removeScratch dir answer)
      | .running expired =>
          if !w.children.live child then none
          else if expired then
            -- The child is killed and waited for.
            some
              ({ w with children := w.children.finish (some child) },
                .removeScratch dir (.error (.timeout w.config.seconds)))
          else some (w, .wait dir stage child)
      | .failed message =>
          some ({ w with strays := child :: w.strays }, .removeScratch dir (spawnFailed message))
  | .removeScratch dir answer =>
      some ({ w with dirs := w.dirs.finish (some dir.index) }, .release answer)
  | .release answer => some ({ w with slots := w.slots.release }, .answered answer)
  | .answered _ => none

/-- A request panics, and what it has is dropped. Dropping a child does not end it. -/
def unwindPc (w : World) (message : Text) : Pc → Option (World × Pc)
  | .check _ | .acquire _ => some (w, .answered (spawnFailed message))
  | .makeScratch _ => some (w, .release (spawnFailed message))
  | .prepare _ dir | .spawn dir _ => some (w, .removeScratch dir (spawnFailed message))
  | .wait dir _ child =>
      some ({ w with strays := child :: w.strays }, .removeScratch dir (spawnFailed message))
  | .removeScratch _ _ | .release _ | .answered _ => none

def World.setPc (w : World) (thread : Nat) (pc : Pc) : World :=
  { w with threads := w.threads.set thread pc }

def step (w : World) : Action → Option World
  | .request request => some { w with threads := w.threads ++ [.check request] }
  | .advance thread chance =>
      w.threads[thread]?.bind fun pc =>
        (advancePc w chance pc).map fun next => next.1.setPc thread next.2
  | .unwind thread message =>
      w.threads[thread]?.bind fun pc =>
        (unwindPc w message pc).map fun next => next.1.setPc thread next.2
  | .exitChild child =>
      if w.children.live child then some { w with children := w.children.vanish child } else none

/-- No proof was asked for yet. -/
def World.start (config : ProofConfig) (limit : UInt64) : World := { config, slots := { limit } }

end Genaryx.Replay
