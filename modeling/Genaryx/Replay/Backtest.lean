import Genaryx.Base.Binary64
import Genaryx.Replay.Amounts
import Genaryx.Replay.Report

/-!
# The budget proof

A candidate budget is replayed over the recorded calls, once over the whole trace and once over
the incident's own run. Both reports are read for the candidate that was asked, and the rest of
the trace is the one less the other.

## Implementation notes

Counters are natural numbers below `2 ^ 64`. Their subtractions are unchecked in the source, so
one that goes below zero ends in `underflowed`. Dollars are printed through doubles.
-/

namespace Genaryx.Replay

open Json Text

/-- The most steps one limit may name. -/
def maxStepsLimit : Nat := 1000000

/-- A candidate budget, in the units the trace keeps. -/
structure BudgetCandidate where
  /-- The most one run may spend. A run that would pass it is stopped there. -/
  perRunMicros : Option Int
  /-- The most one call may cost. A call that passes it is blocked alone. -/
  perStepMicros : Option Int
  /-- The most calls one run may make before it is stopped. -/
  maxSteps : Option UInt32
  deriving DecidableEq

/-- Micro-dollars in ten-thousandths of a dollar, rounded as their double is printed. -/
def tenThousandths (micros : Int) : Int :=
  roundEven (toDouble (toDouble micros / 1000000) * 10000)

/-- Micro-dollars as dollars with four decimals. -/
def fourDecimals (micros : Int) : Text :=
  let printed := (tenThousandths micros).natAbs
  (if micros < 0 then ['-'] else []) ++
    (decimal (printed / 10000) ++ '.' :: padded 4 (printed % 10000))

namespace BudgetCandidate

def stepLimitRange : Text := "the step limit is between 1 and 1,000,000".toList

def noLimit : Text := "the candidate sets no limit".toList

/-- A candidate from what an operator typed. At least one limit, each valid. -/
def fromParts (perRun perStep : Option Text) (maxSteps : Option UInt32) :
    Except AmountError BudgetCandidate := do
  let perRunMicros ← perRun.mapM parseUsd
  let perStepMicros ← perStep.mapM parseUsd
  if maxSteps.any fun n => n.toNat == 0 || decide (maxStepsLimit < n.toNat) then
    .error (.refused stepLimitRange)
  else if perRunMicros.isNone && perStepMicros.isNone && maxSteps.isNone then
    .error (.refused noLimit)
  else .ok { perRunMicros, perStepMicros, maxSteps }

variable (c : BudgetCandidate)

/-- The limits of a candidate as the command line prints them. -/
def parts : List Text :=
  (c.perRunMicros.map fun micros => "budget/run $".toList ++ fourDecimals micros).toList ++
    ((c.perStepMicros.map fun micros => "budget/step $".toList ++ fourDecimals micros).toList ++
      (c.maxSteps.map fun n => "max_steps ".toList ++ decimal n.toNat).toList)

/-- The line that the command line prints for a candidate. -/
def describe : Text := ", ".toList.intercalate c.parts

end BudgetCandidate

/-- What a backtest reported over one trace. -/
structure BacktestReport where
  runsTotal : Nat
  runsAffected : Nat
  callsTotal : Nat
  callsBlocked : Nat
  spentMicros : Int
  savedMicros : Int
  deriving DecidableEq

inductive BacktestParseError
  | noCalls
  | unrecognised
  | inconsistent (reason : Text)
  deriving DecidableEq

def headLine : Text := "TokenFuse backtest".toList

def candidateLine : Text := "  candidate policy   : ".toList

def runsLine : Text := "  runs               : ".toList

def callsLine : Text := "  calls              : ".toList

def spendLine : Text := "  spend in trace     : ".toList

def savedLine : Text := "  would have saved   : ".toList

def projectedLine : Text := "  projected spend    : ".toList

def countOf (cell : Text) : Option Nat :=
  if cell.isEmpty || !cell.all Char.isDigit then none else parseU64 cell

/-- The saved amount, with a percentage that is only a number. -/
def savedAmount (text : Text) : Option Int := do
  let (amount, rest) ← splitOnceAt " (".toList text
  let percent ← stripSuffix "%)".toList rest
  if percent.isEmpty || !percent.all fun b => b.isDigit || b == '.' || b == '-' then none
  else money amount

/-- A total and the part of it that is named behind. -/
def pair (tail text : Text) : Option (Nat × Nat) := do
  let (total, rest) ← splitOnceAt " (".toList text
  let part ← stripSuffix tail rest
  let total ← countOf total
  let part ← countOf part
  some (total, part)

def otherCandidate : Text :=
  "the report is for another candidate than the one that was asked".toList

def affectsMore : Text := "the report affects more runs or calls than it holds".toList

def blocksInNoRun : Text :=
  "the report blocks calls in no run, or affects a run with none".toList

def notProjected : Text := "the projected spend is not the spend less the saving".toList

/-- What the labelled lines of a report say: the echo, the report and the projected spend. -/
def readLines (l1 l2 l3 l4 l5 l6 : Text) : Option (Text × BacktestReport × Int) := do
  let echoed ← stripPrefix candidateLine l1
  let (runsTotal, runsAffected) ← (stripPrefix runsLine l2).bind (pair " affected)".toList)
  let (callsTotal, callsBlocked) ←
    (stripPrefix callsLine l3).bind (pair " would be blocked)".toList)
  let spentMicros ← (stripPrefix spendLine l4).bind money
  let savedMicros ← (stripPrefix savedLine l5).bind savedAmount
  let projected ← (stripPrefix projectedLine l6).bind money
  some (echoed, ⟨runsTotal, runsAffected, callsTotal, callsBlocked, spentMicros, savedMicros⟩,
    projected)

/-- The checks on what a report says. -/
def checkReport (asked : BudgetCandidate) (echoed : Text) (r : BacktestReport) (projected : Int) :
    Except BacktestParseError BacktestReport :=
  if echoed ≠ asked.describe then .error (.inconsistent otherCandidate)
  else if r.runsAffected > r.runsTotal ∨ r.callsBlocked > r.callsTotal ∨
      r.runsAffected > r.callsBlocked then .error (.inconsistent affectsMore)
  else if decide (r.runsAffected > 0) ≠ decide (r.callsBlocked > 0) then
    .error (.inconsistent blocksInNoRun)
  else if some projected ≠ checkedI64 (r.spentMicros - r.savedMicros) then
    .error (.inconsistent notProjected)
  else .ok r

/-- Read a backtest report for the candidate that was asked. -/
def parseBacktest (text : Text) (asked : BudgetCandidate) :
    Except BacktestParseError BacktestReport :=
  match Text.lines text with
  | [only] =>
      if only.startsWith "no calls in the trace at ".toList then .error .noCalls
      else .error .unrecognised
  | [l0, l1, l2, l3, l4, l5, l6] =>
      if l0 ≠ headLine then .error .unrecognised
      else
        match readLines l1 l2 l3 l4 l5 l6 with
        | none => .error .unrecognised
        | some (echoed, report, projected) => checkReport asked echoed report projected
  | _ => .error .unrecognised

/-- The incident's own run, replayed alone. -/
structure RunEffect where
  calls : Nat
  callsBlocked : Nat
  spentMicros : Int
  savedMicros : Int
  /-- What the run would have spent under the candidate. -/
  spentAfterMicros : Int
  deriving DecidableEq

/-- The rest of the trace: the whole-trace report less the incident's own run. -/
structure BudgetElsewhere where
  runs : Nat
  runsAffected : Nat
  calls : Nat
  callsBlocked : Nat
  savedMicros : Int
  deriving DecidableEq

/-- A budget proof, in both halves. -/
structure BudgetProof where
  run : Data
  candidate : BudgetCandidate
  stopsThisIncident : Bool
  incident : RunEffect
  elsewhere : BudgetElsewhere
  elsewhereExact : Bool
  trace : BacktestReport
  covers : Text
  deriving DecidableEq

/-- What a budget proof replays, stated with the proof. -/
def budgetCovers : Text :=
  "the budget per run, the budget per step and the step limit, replayed over the calls the gateway recorded".toList

inductive JudgeError
  | refused (reason : Text)
  | underflowed
  deriving DecidableEq

def ranTogether : Text := "the incident's run was replayed together with other runs".toList

def copyDisagrees : Text :=
  "the copy of the run and its replay disagree about how many calls it has".toList

def holdsNoRun : Text :=
  "the whole trace holds no run, and the incident's run was copied from it".toList

def holdsFewerCalls : Text :=
  "the whole trace holds fewer calls than the incident's own run".toList

def blocksLess : Text := "the whole trace blocks less than the incident's own run".toList

/-- A subtraction of counters. -/
def subtract (a b : Nat) : Except JudgeError Nat :=
  if b ≤ a then .ok (a - b) else .error .underflowed

/-- `i64::saturating_sub`. -/
def saturatingSub (a b : Int) : Int := max (-2 ^ 63) (min (a - b) (2 ^ 63 - 1))

/-- The whole trace without one run. -/
def elsewhereOf (run trace : BacktestReport) : Except JudgeError BudgetElsewhere := do
  let runs ← subtract trace.runsTotal run.runsTotal
  let runsAffected ← subtract trace.runsAffected run.runsAffected
  let calls ← subtract trace.callsTotal run.callsTotal
  let callsBlocked ← subtract trace.callsBlocked run.callsBlocked
  return { runs, runsAffected, calls, callsBlocked,
           savedMicros := saturatingSub trace.savedMicros run.savedMicros }

/-- Turn the two reports into a proof about the incident that ran as `runId`. -/
def judgeBudget (runId : Text) (candidate : BudgetCandidate) (run trace : BacktestReport)
    (copied : Nat) (tied : Bool) : Except JudgeError BudgetProof :=
  if run.runsTotal ≠ 1 then .error (.refused ranTogether)
  else if run.callsTotal ≠ copied then .error (.refused copyDisagrees)
  else if trace.runsTotal < 1 then .error (.refused holdsNoRun)
  else if trace.callsTotal < run.callsTotal then .error (.refused holdsFewerCalls)
  else if trace.runsAffected < run.runsAffected ∨ trace.callsBlocked < run.callsBlocked then
    .error (.refused blocksLess)
  else
    (elsewhereOf run trace).map fun elsewhere =>
      { run := .bounded runId
        candidate
        stopsThisIncident := decide (run.callsBlocked > 0)
        incident :=
          { calls := run.callsTotal
            callsBlocked := run.callsBlocked
            spentMicros := run.spentMicros
            savedMicros := run.savedMicros
            spentAfterMicros := saturatingSub run.spentMicros run.savedMicros }
        elsewhere
        elsewhereExact := !tied
        trace
        covers := budgetCovers }

end Genaryx.Replay
