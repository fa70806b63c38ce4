import Genaryx.Base.Words

/-!
# Reading a replay report

What `wardryx replay` prints is read line by line. The counts come from the lines it writes
about itself, and the changed decisions from groups of three lines after the line that begins
with `Against `.

## Implementation notes

The sums of counters wrap around as `u64` additions do without overflow checks, which is how
the workspace builds its release. The trust marker of `Data` has one value and is left out.
-/

namespace Genaryx.Replay

open Text

/-- Characters that a piece of upstream text is cut to. -/
def upstreamTextMax : Nat := 300

/-- Text a plane wrote. -/
structure Data where
  text : Text
  deriving DecidableEq

def Data.bounded (text : Text) : Data := ⟨text.take upstreamTextMax⟩

/-- The seven rows that the replay counts. -/
structure Outcomes where
  reproduced : Nat := 0
  approvalDecided : Nat := 0
  approvalSpent : Nat := 0
  approvalRefused : Nat := 0
  notArchived : Nat := 0
  unreadable : Nat := 0
  diverged : Nat := 0
  deriving DecidableEq

namespace Outcomes

variable (o : Outcomes)

/-- The seven rows added as integers. -/
def sum : Nat :=
  o.reproduced + o.approvalDecided + o.approvalSpent + o.approvalRefused + o.notArchived +
    o.unreadable + o.diverged

/-- Every decision the run found, as the code adds it. -/
def total : Nat := o.sum % u64Size

/-- The decisions that carried a counterfactual, as the code adds them. -/
def replayable : Nat :=
  (o.reproduced + o.approvalDecided + o.approvalSpent + o.approvalRefused) % u64Size

end Outcomes

/-- One decision the candidate would have taken differently. -/
structure ChangedRow where
  fromVerdict : Text
  toVerdict : Text
  agent : Data
  run : Data
  was : Data
  now : Data
  deriving DecidableEq

structure CandidateResult where
  changed : Nat
  replayable : Nat
  rows : List ChangedRow
  deriving DecidableEq

structure ReplayReport where
  replayed : Nat
  outcomes : Outcomes
  candidate : Option CandidateResult
  deriving DecidableEq

/-- The rows of a report. -/
def ReplayReport.rows (r : ReplayReport) : List ChangedRow :=
  (r.candidate.map CandidateResult.rows).getD []

inductive ParseError where
  | unrecognised
  | inconsistent (reason : String)
  deriving DecidableEq

/-- The integer after a label on a counter line. -/
def counter (label line : Text) : Option Nat := do
  let rest ← stripPrefix label (trimStart line)
  if rest.startsWith " ".toList then (splitWhitespace rest).head?.bind parseU64 else none

/-- The seven counters, each from the first line that is its own. -/
def readOutcomes (lines : List Text) : Option Outcomes := do
  let reproduced ← lines.findSome? (counter "reproduced".toList)
  let approvalDecided ← lines.findSome? (counter "approval-decided".toList)
  let approvalSpent ← lines.findSome? (counter "approval-spent".toList)
  let approvalRefused ← lines.findSome? (counter "approval-refused".toList)
  let notArchived ← lines.findSome? (counter "not archived".toList)
  let unreadable ← lines.findSome? (counter "unreadable".toList)
  let diverged ← lines.findSome? (counter "diverged".toList)
  some ⟨reproduced, approvalDecided, approvalSpent, approvalRefused, notArchived, unreadable,
    diverged⟩

def isVerdict (t : Text) : Bool :=
  t == "allow".toList || t == "deny".toList || t == "hold".toList

/-- The run that the words after an agent name. -/
def runOf : List Text → Text
  | word :: rest => if word = "run".toList then rest.head?.getD [] else []
  | [] => []

/-- The row that three lines spell. -/
def rowAt (header was now : Text) : Option ChangedRow := do
  let (fromVerdict, rest) ← splitOnceAt " -> ".toList (trimStart header)
  let was ← stripPrefix "was: ".toList (trimStart was)
  let now ← stripPrefix "now: ".toList (trimStart now)
  let words := splitWhitespace rest
  let toVerdict := words.head?.getD []
  let agent := words.tail.head?.getD []
  let run := runOf words.tail.tail
  if isVerdict fromVerdict && isVerdict toVerdict then
    some { fromVerdict, toVerdict, agent := .bounded agent, run := .bounded run,
           was := .bounded was, now := .bounded now }
  else none

/-- The rows spelled by lines, each by three of them that no other row uses. -/
def rowsIn : List Text → List ChangedRow
  | header :: was :: now :: rest =>
      match rowAt header was now with
      | some row => row :: rowsIn rest
      | none => rowsIn (was :: now :: rest)
  | _ => []

/-- The section that begins with `Against `, if there is one. -/
def parseCandidate (lines : List Text) : Except ParseError (Option CandidateResult) :=
  match lines.dropWhile fun l => !l.startsWith "Against ".toList with
  | [] => .ok none
  | head :: rest =>
      let counts := do
        let head ← stripSuffix " replayable decision(s) change:".toList head
        let (_, counts) ← rsplitOnceAt ", ".toList head
        let (changed, replayable) ← splitOnceAt " of ".toList counts
        let changed ← parseU64 (trim changed)
        let replayable ← parseU64 (trim replayable)
        some (changed, replayable)
      match counts with
      | none => .error .unrecognised
      | some (changed, replayable) =>
          let rows := rowsIn rest
          if rows.length ≠ changed then
            .error (.inconsistent "the rows listed are not as many as the report says changed")
          else .ok (some { changed, replayable, rows })

/-- How many decisions the first line says were replayed. -/
def replayedOf (first : Text) : Option Nat := do
  let rest ← stripPrefix "Replayed ".toList first
  let word ← (splitWhitespace rest).head?
  parseU64 word

/-- What an empty history says. -/
def noDecisions : Text := "no decisions in this file".toList

/-- Read a report. -/
def parseReport (text : Text) : Except ParseError ReplayReport :=
  match Text.lines text with
  | [] => .error .unrecognised
  | first :: rest =>
      match replayedOf first with
      | none => .error .unrecognised
      | some replayed =>
          if replayed = 0 then
            if (first :: rest).any (·.contains noDecisions) then
              .ok { replayed := 0, outcomes := {}, candidate := none }
            else .error .unrecognised
          else
            match readOutcomes rest with
            | none => .error .unrecognised
            | some outcomes =>
                if outcomes.total ≠ replayed then
                  .error (.inconsistent "the outcomes do not add up to the decisions replayed")
                else
                  match parseCandidate (first :: rest) with
                  | .error e => .error e
                  | .ok candidate =>
                      if candidate.any (·.replayable != outcomes.replayable) then
                        .error (.inconsistent "the replayable decisions differ from the outcomes that carry a counterfactual")
                      else .ok { replayed, outcomes, candidate }

theorem rowAt_was_nil (header now : Text) : rowAt header [] now = none := by
  rw [rowAt]
  cases splitOnceAt " -> ".toList (trimStart header) <;> rfl

theorem rowAt_now_nil (header was : Text) : rowAt header was [] = none := by
  rw [rowAt]
  cases splitOnceAt " -> ".toList (trimStart header) with
  | none => rfl
  | some p => cases stripPrefix "was: ".toList (trimStart was) <;> rfl

theorem rowsIn_blank (rest : List Text) : rowsIn ([] :: rest) = rowsIn rest := by
  match rest with
  | [] => rfl
  | [_] => rfl
  | was :: now :: rest =>
      rw [rowsIn]
      rfl

/-- An empty line ends what a row may be spelled by. -/
theorem rowsIn_append_blank (front rest : List Text) :
    rowsIn (front ++ [] :: rest) = rowsIn front ++ rowsIn rest := by
  fun_induction rowsIn front with
  | case1 header was now tail row hrow ih =>
      rw [List.cons_append, List.cons_append, List.cons_append, rowsIn, hrow]
      exact congrArg (row :: ·) ih
  | case2 header was now tail hrow ih =>
      rw [List.cons_append, List.cons_append, List.cons_append, rowsIn, hrow]
      exact ih
  | case3 lines hshort =>
      match lines with
      | [] => exact rowsIn_blank rest
      | [header] =>
          match rest with
          | [] => rfl
          | next :: rest =>
              change rowsIn (header :: [] :: next :: rest) = rowsIn (next :: rest)
              rw [rowsIn, rowAt_was_nil]
              exact rowsIn_blank (next :: rest)
      | [header, was] =>
          change rowsIn (header :: was :: [] :: rest) = rowsIn rest
          rw [rowsIn, rowAt_now_nil]
          match rest with
          | [] => rfl
          | next :: rest =>
              change rowsIn (was :: [] :: next :: rest) = rowsIn (next :: rest)
              rw [rowsIn, rowAt_was_nil]
              exact rowsIn_blank (next :: rest)
      | header :: was :: now :: tail => exact absurd rfl (hshort header was now tail)

end Genaryx.Replay

/-!
## The report that `wardryx replay` prints

A first line, seven counter lines, the `Against ` line and three lines for each decision that
the candidate changes. The ids and the reasons of a decision are printed as a producer chose
them.

### Implementation notes

The paths of the events and of the candidate are the console's own and hold no newline. The
numbers are any that fit a `u64`.
-/

namespace Genaryx.Replay

open Base Text

inductive Verdict where
  | allow
  | deny
  | hold
  deriving DecidableEq

def Verdict.text : Verdict → Text
  | .allow => "allow".toList
  | .deny => "deny".toList
  | .hold => "hold".toList

/-- A decision that the candidate changes. -/
structure Change where
  fromVerdict : Verdict
  toVerdict : Verdict
  agent : Text
  run : Text
  was : Text
  now : Text
  deriving DecidableEq

namespace Change

variable (c : Change)

def headerLine : Text :=
  "  ".toList ++ (c.fromVerdict.text ++ (" -> ".toList ++ (c.toVerdict.text ++
    ("   ".toList ++ (c.agent ++ ("  run ".toList ++ c.run))))))

def wasLine : Text := "        was: ".toList ++ c.was

def nowLine : Text := "        now: ".toList ++ c.now

/-- The three lines of a decision, if no text in them holds a newline. -/
def text : Text := c.headerLine ++ '\n' :: (c.wasLine ++ '\n' :: (c.nowLine ++ ['\n']))

/-- The row a decision is shown as. -/
def shown : ChangedRow where
  fromVerdict := c.fromVerdict.text
  toVerdict := c.toVerdict.text
  agent := .bounded c.agent
  run := .bounded c.run
  was := .bounded c.was
  now := .bounded c.now

/-- The rows that the lines of a decision spell. -/
def spelled : List ChangedRow := rowsIn (Text.lines c.text)

end Change

/-- What the report is printed from. -/
structure Printed where
  file : Text
  replayed : Nat
  outcomes : Outcomes
  name : Text
  replayable : Nat
  changes : List Change
  file_line : '\n' ∉ file
  name_line : '\n' ∉ name
  replayed_lt : replayed < u64Size
  outcomes_lt : outcomes.reproduced < u64Size ∧ outcomes.approvalDecided < u64Size ∧
    outcomes.approvalSpent < u64Size ∧ outcomes.approvalRefused < u64Size ∧
    outcomes.notArchived < u64Size ∧ outcomes.unreadable < u64Size ∧ outcomes.diverged < u64Size
  replayable_lt : replayable < u64Size
  changes_lt : changes.length < u64Size

def padRight (width : Nat) (t : Text) : Text := t ++ List.replicate (width - t.length) ' '

def padLeft (width : Nat) (t : Text) : Text := List.replicate (width - t.length) ' ' ++ t

/-- One counter with its label, and a note unless it is zero. -/
def counterLine (label note : Text) (n : Nat) : Text :=
  "  ".toList ++ padRight 20 label ++ [' '] ++ padLeft 3 (decimal n) ++
    if n = 0 then [] else note

namespace Printed

variable (r : Printed)

def firstLine : Text :=
  "Replayed ".toList ++ (decimal r.replayed ++ ' ' :: ("decision(s) from ".toList ++ r.file))

/-- The counters in print order, with the note of each. -/
def counters : List (Text × Text × Nat) :=
  [("reproduced".toList, [], r.outcomes.reproduced),
    ("approval-decided".toList, "   the PDP held these and a human answered".toList,
      r.outcomes.approvalDecided),
    ("approval-spent".toList,
      "   held again: the approval a human gave was already used once".toList,
      r.outcomes.approvalSpent),
    ("approval-refused".toList,
      "   denied: what was presented as an approval did not verify".toList,
      r.outcomes.approvalRefused),
    ("not archived".toList, "   the version they name was never kept".toList,
      r.outcomes.notArchived),
    ("unreadable".toList, "   recorded before the emitter carried the question".toList,
      r.outcomes.unreadable),
    ("diverged".toList, "   replaying their OWN version disagrees with the record".toList,
      r.outcomes.diverged)]

def counterLines : List Text :=
  r.counters.map fun entry => counterLine entry.1 entry.2.1 entry.2.2

def againstLine : Text :=
  "Against ".toList ++ (r.name ++ (", ".toList ++ (decimal r.changes.length ++
    (" of ".toList ++ decimal r.replayable)))) ++ " replayable decision(s) change:".toList

/-- The changed decisions, each after an empty line. -/
def changesText : Text :=
  if r.changes = [] then "  none.\n".toList else r.changes.flatMap fun c => '\n' :: c.text

/-- The report. -/
def text : Text :=
  Framing.terminated '\n' ([r.firstLine, []] ++ r.counterLines ++ [[], r.againstLine]) ++
    r.changesText

/-- The rows that the lines of the decisions spell, decision by decision. -/
def spelled : List ChangedRow := r.changes.flatMap Change.spelled

end Printed

end Genaryx.Replay
