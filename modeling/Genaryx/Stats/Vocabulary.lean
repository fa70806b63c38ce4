import Genaryx.Base.Binary64
import Genaryx.Core.Queries

/-!
# What the statistics read in an event

Which event types are stops, anomalies and budget events, and what a stop's own data says
about who caused it, which agents it halted and how far it went over budget.

## Implementation notes

`double` is the value of a double that was read. The arithmetic of doubles has no largest and no
smallest one here: an overshoot that a box holds as infinite is beyond 64 bits, and one that it
rounds to zero is below half a millionth.
-/

namespace Genaryx.Stats

open Json Genaryx.Core

variable {F : Type}

/-- The events that mean an agent was stopped by a service. -/
def blockedTypes : List Text :=
  ["policy_deny", "approval_denied", "approval_timeout", "approval_unanswered",
    "breaker_tripped", "dlp_block", "taint_block", "mcp_drift", "identity_mismatch",
    "run_killed", "unit_cap_exceeded", "web_blocked"]

/-- The events that mean an agent did something odd. -/
def anomalyTypes : List Text :=
  ["sustained_loop", "spend_spike", "fanout_explosion", "run_stalled", "quality_drift",
    "contradiction_found", "sim_finding", "calibration_drift", "identity_finding"]

def identityFinding : Text := "identity_finding"

def budgetTypes : List Text := ["budget_exhausted", "budget_threshold"]

/-- The console's own actions that mean an operator halted something. -/
def operatorBlockActions : List Text :=
  ["console.block_agent", "console.block_unit", "console.block_user"]

/-- The console's own event type, whose agent is the console. -/
def consoleCommand : Text := "console_command"

/-- The types whose rows are read in full. -/
def detailTypes : List Text := [identityFinding, "run_killed", "approval_denied", consoleCommand]

/-- The names of a budget and of what was spent of it. -/
def amountFields : List (Text × Text) :=
  [("budget_micros", "spent_micros"), ("budget_usd", "spent_usd")]

/-- The fields that producers write their reason under, in the order they are read. -/
def reasonKeys : List Text := ["reason", "detail", "summary", "policy_id", "wrongdoing"]

/-- The text that a value is, unless it is blank. -/
def nonblank (value : Option (Value F)) : Option Text :=
  (value.bind Value.asStr).filter fun s => !(Text.trim s).isEmpty

/-- A field of an event's data. -/
def field (data : Option (Value F)) (key : Text) : Option (Value F) :=
  data.bind fun d => d.get key

/-- Every agent that one console block halted, read from the record it wrote. -/
def agentsHaltedBy (data : Option (Value F)) : List Text :=
  let action := ((field data "action").bind Value.asStr).getD []
  if action ∉ operatorBlockActions then []
  else
    let members := ((((field data "members").bind Value.asArray).getD []).filterMap
      Value.asStr).filter fun m => Text.startsWith m "agent://"
    if members ≠ [] then members
    else
      (((field data "target").bind Value.asStr).filter fun t =>
        Text.startsWith t "agent://").toList

/-- Whether a stop was a person's decision. -/
def isOperatorStop (eventType : Text) (data : Option (Value F)) : Bool :=
  if eventType = "run_killed".toList then (nonblank (field data "actor")).isSome
  else if eventType = "approval_denied".toList then (nonblank (field data "decided_by")).isSome
  else false

/-- `Value::as_i64`. -/
def asI64 : Value F → Option Int
  | .number (.posInt n _) => if n < 2 ^ 63 then some n else none
  | .number (.negInt m _) => some (-m)
  | _ => none

/-- A number that is read as a double. -/
def asNumber : Value F → Option (Number F)
  | .number n => some n
  | _ => none

/-- An integer as 64 bits hold it. -/
def wrapI64 (n : Int) : Int := n.bmod (2 ^ 64)

/-- The value of a number. -/
def valueOf (double : F → ℚ) : Number F → ℚ
  | .posInt n _ => n
  | .negInt m _ => -m
  | .float x => double x

/-- `Value::as_f64`. -/
def numberAsF64 (double : F → ℚ) : Number F → ℚ
  | .posInt n _ => toDouble n
  | .negInt m _ => toDouble (-m)
  | .float x => double x

/-- How far amounts in dollars went over budget: in doubles, rounded to millionths, and as far
as 64 bits go. -/
def usdOvershoot (double : F → ℚ) (budget spent : Number F) : Int :=
  let excess := toDouble
    (max (toDouble (numberAsF64 double spent - numberAsF64 double budget)) 0 * 1000000)
  min (roundAway excess) (2 ^ 63 - 1)

/-- How far over budget one event says the agent went, in millionths of a dollar, where
`usdOvershoot` is what amounts in dollars come to. -/
def overshootOf (usdOvershoot : Number F → Number F → Int) (data : Value F) : Option Int :=
  match (data.get "budget_micros").bind asI64, (data.get "spent_micros").bind asI64 with
  | some budget, some spent => some (max (wrapI64 (spent - budget)) 0)
  | _, _ =>
      match (data.get "budget_usd").bind asNumber, (data.get "spent_usd").bind asNumber with
      | some budget, some spent => some (usdOvershoot budget spent)
      | _, _ => none

/-- The agents that a row halted: only a console command names them. -/
def halts (e : EventDetail F) : List Text :=
  if e.eventType = consoleCommand then agentsHaltedBy e.data else []

/-- A row that is a service's stop at a person's decision. -/
def operatorStopped (e : EventDetail F) : Bool :=
  e.eventType ∈ blockedTypes && isOperatorStop e.eventType e.data

theorem consoleCommand_notMem_blockedTypes : consoleCommand ∉ blockedTypes := by decide

/-- No blocked agent is read from a record of a block that names none. -/
theorem agentsHaltedBy_of_no_members {data : Option (Value F)} {action target : Text}
    (haction : (field data "action").bind Value.asStr = some action)
    (hblock : action ∈ operatorBlockActions) (hmembers : field data "members" = none)
    (htarget : (field data "target").bind Value.asStr = some target) :
    agentsHaltedBy data = if Text.startsWith target "agent://" then [target] else [] := by
  rw [agentsHaltedBy, haction, Option.getD_some, if_neg (not_not_intro hblock), hmembers,
    htarget, Option.filter_some]
  simp only [Option.bind_none, Option.getD_none, List.filterMap_nil, List.filter_nil,
    ne_eq, not_true_eq_false, if_false]
  split <;> rfl

end Genaryx.Stats
