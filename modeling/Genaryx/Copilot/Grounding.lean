import Genaryx.Base.Offsets
import Genaryx.Copilot.Evidence
import Mathlib.Data.List.Sort

/-!
# The budget check on a draft

A statement about a run's budget, or about the model that a run used, must have a tool result
behind it. A draft is checked clause by clause against the facts that the tools returned.

## Implementation notes

The sets are lists in the order of their texts, which is the order they are gone through. The maps
are only looked up in, so an entry stands before the ones it replaces. Whether a number is one or
more as a double is a parameter.
-/

namespace Genaryx.Copilot

open Json

variable {F : Type}

/-- `BTreeSet::insert`. -/
def insertText (s : Text) : List Text → List Text
  | [] => [s]
  | t :: rest =>
      if s < t then s :: t :: rest else if s = t then t :: rest else t :: insertText s rest

/-- One run's models as the tools returned them. -/
structure RunModels where
  /-- Every model the run used, when a tool returned the list. -/
  models : Option (List Text) := none
  /-- Model changes, when a tool returned the count. -/
  switches : Option Nat := none
  deriving DecidableEq

/-- Budget facts the tools returned during one answer. -/
structure BudgetFacts where
  knownRuns : List Text := []
  /-- Runs that a tool returned with a budget. -/
  budgeted : List Text := []
  /-- Whether `budgets` ran, successfully, this answer. -/
  budgetsRead : Bool := false
  /-- Runs that a tool returned at or over their budget. -/
  runsOver : List Text := []
  runAgent : List (Text × Text) := []
  agents : List Text := []
  runModels : List (Text × RunModels) := []
  knownModels : List Text := []
  deriving DecidableEq

namespace BudgetFacts

/-- A string that is not empty. -/
def nonempty (v : Option (Value F)) : Option Text := (v.bind Value.asStr).filter (!·.isEmpty)

/-- A run row's model facts. A row with none of them is not recorded. -/
def recordModels (facts : BudgetFacts) (id : Text) (row : List (Text × Value F)) : BudgetFacts :=
  let last := nonempty ((row.lookup "last_model".toList).or (row.lookup "model".toList))
  let list := ((row.lookup "models".toList).bind Value.asArray).map fun items =>
    items.filterMap fun m => nonempty (m.get "model".toList)
  let switches :=
    match row.lookup "model_switches".toList with
    | some (.number (.posInt n _)) => some n
    | _ => none
  if last.isNone && list.isNone && switches.isNone then facts
  else
    let entry := (facts.runModels.lookup id).getD {}
    { facts with
      knownModels := (last.toList ++ list.getD []).foldl (fun s m => insertText m s)
        facts.knownModels
      runModels := (id, ⟨list.or entry.models, switches.or entry.switches⟩) :: facts.runModels }

/-- What a row says of the run it names. -/
def recordRun (reachesOne : Number F → Bool) (facts : BudgetFacts) (id : Text)
    (row : List (Text × Value F)) : BudgetFacts :=
  let facts := { facts with knownRuns := insertText id facts.knownRuns }
  let facts :=
    match row.lookup "budget_usd".toList with
    | none => facts
    | some .null => facts
    | some _ => { facts with budgeted := insertText id facts.budgeted }
  let isOver : Bool :=
    (match row.lookup "at_or_over".toList with
      | some (.bool true) => true
      | _ => false) ||
    match row.lookup "fraction".toList with
      | some (.number n) => reachesOne n
      | _ => false
  let facts := if isOver then { facts with runsOver := insertText id facts.runsOver } else facts
  let facts :=
    match nonempty (row.lookup "agent_id".toList) with
    | some agent => { facts with runAgent := (id, agent) :: facts.runAgent }
    | none => facts
  facts.recordModels id row

/-- What a row says of its run and of its agent. -/
def recordRow (reachesOne : Number F → Bool) (facts : BudgetFacts) (row : List (Text × Value F)) :
    BudgetFacts :=
  let facts :=
    match nonempty (row.lookup "run_id".toList) with
    | some id => facts.recordRun reachesOne id row
    | none => facts
  match nonempty (row.lookup "agent_id".toList) with
  | some agent => { facts with agents := insertText agent facts.agents }
  | none => facts

mutual

def walk (reachesOne : Number F → Bool) (facts : BudgetFacts) : Value F → BudgetFacts
  | .object members => walkMembers reachesOne (facts.recordRow reachesOne members) members
  | .array items => walkItems reachesOne facts items
  | _ => facts

def walkItems (reachesOne : Number F → Bool) (facts : BudgetFacts) : List (Value F) → BudgetFacts
  | [] => facts
  | v :: vs => walkItems reachesOne (walk reachesOne facts v) vs

def walkMembers (reachesOne : Number F → Bool) (facts : BudgetFacts) :
    List (Text × Value F) → BudgetFacts
  | [] => facts
  | m :: ms => walkMembers reachesOne (walk reachesOne facts m.2) ms

end

/-- Fold one read tool's result in. -/
def record (reachesOne : Number F → Bool) (facts : BudgetFacts) (tool : Text) (ok : Bool)
    (v : Value F) : BudgetFacts :=
  if ok then
    walk reachesOne { facts with budgetsRead := facts.budgetsRead || tool = "budgets".toList } v
  else facts

end BudgetFacts

variable (L : Letters)

/-- Phrases that make a model claim about a run's last call. -/
def lastModelPhrases : List Text :=
  ["last model", "latest model", "most recent model", "last call", "latest call",
    "most recent call", "last_model"].map String.toList

/-- Whether a text names this id whole, as the clause checks look for it. -/
def namesWhole (text id : Text) : Bool :=
  (Text.occurrences id text).any fun (before, after) =>
    !before.head?.any (isIdChar L) && !after.head?.any (isIdChar L)

/-- Known runs that a clause names. -/
def runsNamed (clause : Text) (known : List Text) : List Text := known.filter (namesWhole L clause)

/-- The label of an agent: the last part of its id. -/
def agentLabel (id : Text) : Text := L.toLowercase (lastSegment id)

/-- Agents that a clause names, by the last part of their id: each label with every agent it may
stand for. -/
def agentsNamed (clause : Text) (agents : List Text) : List (Text × List Text) :=
  let labels := ((agents.map (agentLabel L)).filter (!·.isEmpty)).foldl
    (fun s label => insertText label s) []
  let byLabel := labels.map fun label => (label, agents.filter (agentLabel L · = label))
  byLabel.filter fun entry => namesWhole L (L.toLowercase clause) entry.1

/-- Known models that a clause names: a dot inside an id is part of it, and a dot that ends a
sentence is not. -/
def modelsNamed (clause : Text) (known : List Text) : List Text :=
  let isIdChar (c : Char) : Bool := L.isAlphanumeric c || c = '-' || c = '_' || c = '/'
  known.filter fun id =>
    (Text.occurrences (L.toLowercase id) (L.toLowercase clause)).any fun (before, after) =>
      let continues := after.head?.any isIdChar ||
        (after.head? = some '.' && after.tail.head?.any L.isAlphanumeric)
      !before.head?.any (fun c => isIdChar c || c = '.') && !continues

/-- A clause that names one run and one model, as the model that run used, when the tools did not
return that model as the run's only one. -/
def modelClaim (clause : Text) (facts : BudgetFacts) : Option (Text × Text) :=
  match runsNamed L clause facts.knownRuns with
  | [run] =>
      (facts.runModels.lookup run).bind fun fact =>
        if lastModelPhrases.any fun p => (L.toLowercase clause).contains p then none
        else
          match modelsNamed L clause facts.knownModels with
          | [model] =>
              let opening := "names `".toList ++ model ++ "` as the model run `".toList ++ run ++
                "` used, but the tools return".toList
              let finding : Option Text :=
                match fact.models with
                | some [] => some (opening ++ "ed no model for `".toList ++ run ++ ['\x60'])
                | some [only] =>
                    if only = model && fact.switches.getD 0 = 0 then none
                    else some (opening ++ "ed `".toList ++ only ++ "` for `".toList ++ run ++ ['\x60'])
                | some list =>
                    some (opening ++ "ed ".toList ++ Text.decimal list.length ++
                      " models for `".toList ++ run ++ "`: ".toList ++ ", ".toList.intercalate list)
                | none =>
                    some (opening ++ " only the model of `".toList ++ run ++
                      "`'s last call, so which models `".toList ++ run ++ "` used is not known".toList)
              finding.map fun finding => ("model:".toList ++ run, finding)
          | _ => none
  | _ => none

def budgetWords : List Text :=
  ["budget", "budgets", "budgeted", "cap", "caps", "capped"].map String.toList

/-- Words that claim a budget was reached or passed. -/
def overWords : List Text :=
  ["over", "overage", "overages", "overspent", "overspend", "overrun", "exceed", "exceeds",
    "exceeded", "exceeding", "breach", "breached"].map String.toList

/-- A budget word followed by one of these is about trouble, not about having a budget. -/
def notAbsence : List Text :=
  ["issue", "issues", "problem", "problems", "concern", "concerns", "alert", "alerts", "overage",
    "overages", "warning", "warnings"].map String.toList

/-- Words that may sit between a negator and the budget word it governs. -/
def filler : List Text :=
  ["have", "has", "had", "a", "an", "any", "set", "its", "their", "the", "control", "plane",
    "central", "run", "per"].map String.toList

/-- Whether the words before a budget word, the nearest first, say that there is none. -/
def negated : List Text → Bool
  | [] => false
  | prev :: more => isNegator prev || (prev ∈ filler && negated more)

/-- Whether a budget word among words that stand after others is said not to be there. -/
def saysNoBudgetFrom (before : List Text) : List Text → Bool
  | [] => false
  | w :: rest =>
      (w ∈ budgetWords && !rest.head?.any (fun n => n ∈ notAbsence) && negated before) ||
        saysNoBudgetFrom (w :: before) rest

/-- Whether a clause says its runs have no budget. -/
def saysNoBudget (words : List Text) : Bool :=
  "unbudgeted".toList ∈ words || saysNoBudgetFrom [] words

def contrastWords : List Text := [" but ", " while ", " whereas "].map String.toList

/-- The byte offsets in the lower case of a sentence where it is cut, in order. -/
def contrastCuts (sentence : Text) : List (Nat × Nat) :=
  (contrastWords.flatMap fun word =>
    (Text.occurrences word (L.toLowercase sentence)).map fun found =>
      (Utf8.len found.1, Utf8.len word)).insertionSort fun a b =>
        a.1 < b.1 ∨ a.1 = b.1 ∧ a.2 ≤ b.2

/-- The parts of a sentence from an offset on, cut at each offset of a list that begins and ends
with characters of it. -/
def cutAt (sentence : Text) : Nat → List (Nat × Nat) → List Text
  | start, [] => [Utf8.slice sentence start (Utf8.len sentence)]
  | start, (pos, len) :: rest =>
      if start ≤ pos && Utf8.isCharBoundary sentence pos &&
          Utf8.isCharBoundary sentence (pos + len) then
        Utf8.slice sentence start pos :: cutAt sentence (pos + len) rest
      else cutAt sentence start rest

/-- A sentence split at the contrast words. -/
def splitContrast (sentence : Text) : List Text := cutAt sentence 0 (contrastCuts L sentence)

/-- The sentences of the rest of a text, the first of which has begun. -/
def sentencesFrom (begun : Text) : Text → List Text
  | [] => [begun]
  | c :: rest =>
      if endsStatement c rest.head? then begun :: sentencesFrom [] rest
      else sentencesFrom (begun ++ [c]) rest

/-- The clauses of a text: lines, then sentences, then what stands between contrast words. -/
def clauses (text : Text) : List Text :=
  ((sentencesFrom [] text).flatMap (splitContrast L)).filter fun clause =>
    !(Text.trim clause).isEmpty

/-- The findings of a check, as far as it has gone. -/
structure Grounded where
  findings : List Text := []
  /-- What there is a finding about. -/
  seen : List Text := []
  /-- Whether budget facts were stated without reading them. -/
  unreadFlagged : Bool := false

namespace Grounded

/-- Note a finding, unless there is one about the same. -/
def note (g : Grounded) (key finding : Text) : Grounded :=
  if key ∈ g.seen then g
  else { g with findings := g.findings ++ [finding], seen := key :: g.seen }

variable (facts : BudgetFacts)

/-- What a clause says is over a budget. -/
def checkOver (clause : Text) (runs : List Text) (g : Grounded) : Grounded :=
  let g :=
    match runs with
    | [run] =>
        if run ∈ facts.budgeted ∧ run ∉ facts.runsOver then
          g.note ("over:".toList ++ run) ("says run `".toList ++ run ++
            "` is over its budget, but the tools returned `".toList ++ run ++ "` under it".toList)
        else g
    | _ => g
  (agentsNamed L clause facts.agents).foldl
    (fun g (label, ids) =>
      let anyOver := facts.runsOver.any fun r => (facts.runAgent.lookup r).any fun a => a ∈ ids
      if anyOver then g
      else g.note ("agent-over:".toList ++ label) ("says agent `".toList ++ label ++
        "` is over a budget, but no tool returned a run of `".toList ++ label ++
        "` at or over its budget".toList)) g

/-- What a clause says of having a budget. -/
def checkHas (words runs : List Text) (g : Grounded) : Grounded :=
  if saysNoBudget words then
    runs.foldl (fun g run =>
      if run ∈ facts.budgeted then
        g.note ("none:".toList ++ run) ("says run `".toList ++ run ++
          "` has no budget, but a tool returned a budget for `".toList ++ run ++ ['\x60'])
      else g) g
  else
    match runs with
    | [run] =>
        if run ∈ facts.budgeted then g
        else g.note ("has:".toList ++ run) ("states a budget for run `".toList ++ run ++
          "`, but no tool returned a budget for `".toList ++ run ++ ['\x60'])
    | _ => g

/-- Check one clause. -/
def checkClause (budgetsAvailable : Bool) (g : Grounded) (clause : Text) : Grounded :=
  let g :=
    match modelClaim L clause facts with
    | some (key, finding) => g.note key finding
    | none => g
  let words := words L clause
  if !words.any (fun w => w ∈ budgetWords) then g
  else
    let runs := runsNamed L clause facts.knownRuns
    let g :=
      if budgetsAvailable && !facts.budgetsRead && !g.unreadFlagged &&
          (!runs.isEmpty || '$' ∈ clause) then
        { g with
          unreadFlagged := true
          findings := g.findings ++ [("states budget facts without calling `budgets`, the only " ++
            "tool that says which runs have a budget").toList] }
      else g
    let g :=
      if words.any (fun w => w ∈ overWords) && !words.any isNegator then
        checkOver L facts clause runs g
      else g
    checkHas facts words runs g

end Grounded

/-- Check a draft. Each text of the result names one unsupported statement. -/
def groundingCheck (text : Text) (facts : BudgetFacts) (budgetsAvailable : Bool) : List Text :=
  ((clauses L text).foldl (Grounded.checkClause L facts budgetsAvailable) {}).findings

/-- A list of findings, each on a line that begins the same way. -/
def findingLines (opening : Text) (findings : List Text) : Text :=
  findings.flatMap fun f => '\n' :: '-' :: ' ' :: opening ++ f

/-- The model sentence of the revision request, only when a model claim was found. -/
def modelRule (findings : List Text) : Text :=
  if findings.any fun f => f.contains "as the model run".toList then
    (" A run's `last_model` is the model of its last call only: name it as the last model, and " ++
      "say a run used one model only when `models` lists exactly that one. When `models` is null, " ++
      "say which models the run used is not known.").toList
  else []

/-- The revision request fed back to the model once, as a user turn. -/
def revisionRequest (findings : List Text) : Text :=
  ("Automatic check of your draft against this answer's tool results (this message is from the " ++
    "console, not the operator):").toList ++
  (findings.flatMap fun f => "\n- Your draft ".toList ++ f ++ ['.']) ++
  ("\n\nRevise the answer so every budget statement comes from a tool result. A run has a budget " ++
    "only if `budgets` (or `alerts`) returned one for that run, and a budget returned for one run " ++
    "never belongs to another. If budgets cannot be read, say so.").toList ++
  modelRule findings ++
  (" Reply with only the corrected answer for the operator, written as if it were your first " ++
    "answer. Do not mention this check, apologise, or say that you are revising.").toList

/-- The note appended to an answer whose statements survived the revision. -/
def residualNote (findings : List Text) : Text :=
  ("\n\nCheck: these statements are not supported by any tool result in this answer:").toList ++
    findingLines "the answer ".toList findings

end Genaryx.Copilot
