import Genaryx.Base.Letters
import Genaryx.Json.Write

/-!
# Plane text, fenced

Every string a tool returns is either a structured field of a known shape, or it is wrapped in a
fence with its markup escaped. What stays plain is what an answer may rest on.

## Implementation notes

A walk returns what it made with the spans and the fields it noted, in the order the source pushes
them. The text of a double is a parameter.
-/

namespace Genaryx.Copilot

open Json

/-- What the copilot uses of the standard library and of `serde_json` without having it. -/
structure Library (F : Type) where
  letters : Letters
  /-- How `serde_json` writes a double. -/
  floatText : F → Text
  /-- A double is written without markup. -/
  floatText_clean : ∀ x, ∀ c ∈ floatText x, c ≠ '<' ∧ c ≠ '>'
  /-- `to_micros` of a number as a double. -/
  toMicros : Number F → Int

/-- Where there are no doubles, none is written with markup. -/
theorem elim_clean (x : Empty) : ∀ c ∈ (x.elim : Text), c ≠ '<' ∧ c ≠ '>' := x.elim

variable {F : Type} (L : Library F)

/-- The name a case file goes by in the evidence. -/
def caseTool : Text := "case_file".toList

/-- The element name of the fence. -/
def fenceTag : Text := "untrusted-data".toList

/-- The fields that hold an identifier, an enumeration or a timestamp. -/
def structuredKeys : List Text :=
  ["run_id", "agent_id", "id", "org", "kind", "severity", "source", "model", "last_model", "unit",
    "month", "owner", "label", "type", "detector", "identity", "time", "runtime", "on_behalf_of",
    "approval_id", "requested_at", "decided_at", "decided_by", "decision", "target", "name",
    "updated_at", "deny_tool", "allow_domains", "started_at", "finished_at", "timestamp",
    "algorithm", "locations"].map String.toList

/-- The fields whose text the tools themselves wrote. -/
def ownProse : List (Text × Text) :=
  [("budgets", "scope"), ("budgets", "showing"), ("budgets", "unit_budgets_unavailable"),
    ("list_runs", "showing"), ("incidents", "showing")].map fun p => (p.1.toList, p.2.toList)

/-- The fields that say which row a text belongs to. -/
def subjectKeys : List Text :=
  ["run_id", "agent_id", "approval_id", "identity", "id"].map String.toList

/-- The longest value that a structured field keeps plain. -/
def maxTokenBytes : Nat := 256

/-- A piece of plane text that a tool returned, as it was before the fence. -/
structure Span where
  tool : Text
  field : Text
  text : Text
  /-- The ids of the row the text sat in. -/
  subjects : List Text
  deriving DecidableEq

/-- A tool result as the model receives it. -/
structure FencedResult where
  content : Text
  spans : List Span := []
  fields : List (Text × Text) := []
  deriving DecidableEq

/-- A character that cannot be seen. -/
def isHidden (c : Char) : Bool :=
  let v := c.toNat
  Text.isControl c || v = 0xAD || (0x200B ≤ v && v ≤ 0x200F) || (0x202A ≤ v && v ≤ 0x202E) ||
    (0x2060 ≤ v && v ≤ 0x2064) || (0x2066 ≤ v && v ≤ 0x206F) || v = 0xFEFF ||
    (0xE0000 ≤ v && v ≤ 0xE007F)

/-- A character as the fence writes it. -/
def escapeMarkup (c : Char) : Text :=
  if c = '&' then "&amp;".toList
  else if c = '<' ∨ c = '\uff1c' ∨ c = '\ufe64' then "&lt;".toList
  else if c = '>' ∨ c = '\uff1e' ∨ c = '\ufe65' then "&gt;".toList
  else if c = '\n' ∨ c = '\t' then [c]
  else if isHidden c then '\\' :: 'u' :: '{' :: Nat.toDigits 16 c.toNat ++ ['}']
  else [c]

/-- Make a text unable to close its fence. -/
def escape (text : Text) : Text := text.flatMap escapeMarkup

/-- The characters of a token that are no letters and no digits. -/
def tokenMarks : Text := "-_.:/@+*?#=~%".toList

/-- One token: no space, no markup, nothing that could read as a sentence. -/
def tokenShaped (s : Text) : Bool :=
  !s.isEmpty && Utf8.len s ≤ maxTokenBytes &&
    s.all fun c => L.letters.isAlphanumeric c || c ∈ tokenMarks

/-- The field name as the tag prints it. -/
def fieldLabel (field : Text) : Text :=
  let label := (field.take 40).map fun c =>
    if Text.isAsciiAlphanumeric c || c = '_' then c else '_'
  if label.isEmpty then "value".toList else label

/-- The tag that opens the fence of a field. -/
def openTag (field : Text) : Text :=
  '<' :: fenceTag ++ " field=".toList ++ fieldLabel field ++ ['>']

/-- The tag that closes every fence. -/
def closeTag : Text := '<' :: '/' :: fenceTag ++ ['>']

/-- Wrap one text. -/
def fenceText (field text : Text) : Text := openTag field ++ escape text ++ closeTag

/-- What a walk makes of a value, with the spans and the fields it notes on the way. -/
structure Walk (α : Type) where
  out : α
  spans : List Span := []
  fields : List (Text × Text) := []

namespace Walk

variable (tool : Text)

/-- Wrap a text and note it. -/
def fence (field text : Text) (subjects : List Text) : Walk Text :=
  { out := fenceText field text, spans := [⟨tool, field, text, subjects⟩] }

/-- A string that stays plain and is noted as a field. -/
def keep (key s : Text) : Walk (Value F) := { out := .string s, fields := [(key, s)] }

/-- A string that is wrapped. -/
def wrap (key s : Text) (subjects : List Text) : Walk (Value F) :=
  let fenced := fence tool key s subjects
  { fenced with out := .string fenced.out }

/-- The ids of a row. -/
def rowSubjects (members : List (Text × Value F)) : List Text :=
  subjectKeys.filterMap fun k =>
    ((members.lookup k).bind Value.asStr).filter (tokenShaped L)

/-- A string under a key. -/
def string (key s : Text) (subjects : List Text) : Walk (Value F) :=
  if s.isEmpty then { out := .string s }
  else if ownProse.contains (tool, key) then { out := .string s }
  else if structuredKeys.contains key && tokenShaped L s then keep key s
  else wrap tool key s subjects

/-- The key of a map, which can be plane text too. -/
def name (key k : Text) (row : List Text) : Walk Text :=
  if tokenShaped L k then { out := k } else fence tool key k row

mutual

/-- Walk a value under a key, in the row of some subjects. -/
def value : Value F → Text → List Text → Walk (Value F)
  | .object members, key, subjects =>
      let walked := valueMembers members key (subjects ++ rowSubjects L members)
      { walked with out := .object (ofMembers walked.out) }
  | .array items, key, subjects =>
      let walked := valueItems items key subjects
      { walked with out := .array walked.out }
  | .string s, key, subjects => string L tool key s subjects
  | .null, _, _ => { out := .null }
  | .bool b, _, _ => { out := .bool b }
  | .number n, _, _ => { out := .number n }

def valueItems : List (Value F) → Text → List Text → Walk (List (Value F))
  | [], _, _ => { out := [] }
  | v :: vs, key, subjects =>
      let shaped := value v key subjects
      let rest := valueItems vs key subjects
      { out := shaped.out :: rest.out
        spans := shaped.spans ++ rest.spans
        fields := shaped.fields ++ rest.fields }

def valueMembers : List (Text × Value F) → Text → List Text → Walk (List (Text × Value F))
  | [], _, _ => { out := [] }
  | m :: ms, key, row =>
      let shaped := value m.2 m.1 row
      let name := name L tool key m.1 row
      let rest := valueMembers ms key row
      { out := (name.out, shaped.out) :: rest.out
        spans := shaped.spans ++ (name.spans ++ rest.spans)
        fields := shaped.fields ++ rest.fields }

end

/-- Walk the members of an object whose keys stay as they are. -/
def eachMember (f : Text → Value F → Walk (Value F)) :
    List (Text × Value F) → Walk (List (Text × Value F))
  | [] => { out := [] }
  | m :: ms =>
      let shaped := f m.1 m.2
      let rest := eachMember f ms
      { out := (m.1, shaped.out) :: rest.out
        spans := shaped.spans ++ rest.spans
        fields := shaped.fields ++ rest.fields }

/-- Walk the items of an array. -/
def eachItem (f : Value F → Walk (Value F)) : List (Value F) → Walk (List (Value F))
  | [] => { out := [] }
  | v :: vs =>
      let shaped := f v
      let rest := eachItem f vs
      { out := shaped.out :: rest.out
        spans := shaped.spans ++ rest.spans
        fields := shaped.fields ++ rest.fields }

/-- Walk an object by position, and what is no object under the name of its position. -/
def byPosition (position : Text) (f : List (Text × Value F) → Text → Value F → Walk (Value F)) :
    Value F → Walk (Value F)
  | .object members =>
      let walked := eachMember (f members) members
      { walked with out := .object (ofMembers walked.out) }
  | v => value L caseTool v position []

/-- An id the console took from a plane or from the incident. -/
def idField (key : Text) (v : Value F) (subjects : List Text) : Walk (Value F) :=
  match v with
  | .string s =>
      if s.isEmpty then { out := .string s }
      else if tokenShaped L s then keep key s
      else wrap caseTool key s subjects
  | v => { out := v }

/-- The text of a plane's own error. -/
def caseUpstream : Value F → Walk (Value F) :=
  byPosition L "upstream".toList fun _ key v =>
    if key = "trust".toList then { out := v }
    else
      match v with
      | .string (c :: s) =>
          if key = "text".toList then wrap caseTool "upstream".toList (c :: s) []
          else value L caseTool v key []
      | v => value L caseTool v key []

/-- One line of a case. -/
def caseLine : Value F → Walk (Value F) :=
  byPosition L "line".toList fun _ key v =>
    if ["section", "plane", "state", "facts", "reason"].map String.toList |>.contains key then
      { out := v }
    else if key = "upstream".toList then caseUpstream L v
    else value L caseTool v key []

/-- One fact of a case. -/
def caseFact : Value F → Walk (Value F) :=
  byPosition L "fact".toList fun members key v =>
    let subjects := (((members.lookup "row_id".toList).bind Value.asStr).filter
      (tokenShaped L)).toList
    if ["section", "plane", "label", "trust", "digest"].map String.toList |>.contains key then
      { out := v }
    else if key = "row_id".toList then idField L key v []
    else if key = "row".toList then value L caseTool v "row".toList subjects
    else value L caseTool v key subjects

/-- Walk the items of a list of the case. -/
def caseEach (key : Text) (one : Value F → Walk (Value F)) : Value F → Walk (Value F)
  | .array items =>
      let walked := eachItem one items
      { walked with out := .array walked.out }
  | v => value L caseTool v key []

/-- The case file, by position. -/
def caseFile : Value F → Walk (Value F) :=
  byPosition L "value".toList fun _ key v =>
    if ["incident_id", "subject", "claimed_agent", "run_id"].map String.toList |>.contains key then
      idField L key v []
    else if key = "digest".toList then { out := v }
    else if key = "lines".toList then caseEach L key (caseLine L) v
    else if key = "facts".toList then caseEach L key (caseFact L) v
    else value L caseTool v key []

/-- The result that a walk comes to. -/
def result (walk : Walk (Value F)) : FencedResult :=
  { content := compact L.floatText walk.out, spans := walk.spans, fields := walk.fields }

end Walk

namespace FencedResult

/-- The result of a read tool. -/
def plane (tool : Text) (v : Value F) : FencedResult :=
  Walk.result L (Walk.value L tool v "value".toList [])

/-- The case file as the model reads it. -/
def case (v : Value F) : FencedResult := Walk.result L (Walk.caseFile L v)

/-- What the console itself says back to the model. -/
def console (v : Value F) : FencedResult := { content := compact L.floatText v }

end FencedResult

end Genaryx.Copilot

/-!
## Texts that ask for an action

Whether a text speaks of taking an action, names a token whole, reads like an instruction, or asks
for an action on a target.
-/

namespace Genaryx.Copilot

open Json

/-- The kinds of action the copilot may propose. -/
inductive ActionKind
  | kill
  | budget
  | grantDeny
  | rescan
  deriving DecidableEq

/-- A recommendation with its evidence. -/
structure ProposedAction (F : Type) where
  kind : ActionKind
  /-- The subject: a run id, an approval id, an agent id. -/
  target : Text
  params : Value F
  rationale : Text
  confidence : Number F
  evidenceRefs : List Text
  policyContext : List Text := []

variable (L : Letters)

/-- A text as it reads: lowercased, hidden characters gone, whitespace single. -/
def plain (text : Text) : Text :=
  let visible := text.filter fun c => Text.isWhitespace c || !isHidden c
  L.toLowercase ([' '].intercalate (Text.splitWhitespace visible))

/-- Phrases of a text that addresses the copilot. -/
def instructionPhrases : List Text :=
  ["ignore previous", "ignore all", "ignore any", "ignore your", "ignore the above",
    "ignore prior", "disregard", "forget your", "forget previous", "override your",
    "new instruction", "system prompt", "system:", "assistant:", "developer:", "you are now",
    "you must", "do not tell", "don't tell", "do not mention", "without telling",
    "operator approved", "operator has approved", "approved by the operator", "pre-approved",
    "preapproved", "propose_"].map String.toList ++ [fenceTag]

/-- Whether a text reads like an instruction to the copilot. -/
def looksLikeInstruction (text : Text) : Bool :=
  instructionPhrases.any fun p => (plain L text).contains p

def killWords : List Text :=
  ["kill", "killing", "terminate", "terminating", "abort", "stop", "stopping",
    "propose_kill"].map String.toList

def budgetVerbs : List Text :=
  ["raise", "raising", "increase", "increasing", "lift", "lifting", "lower", "lowering", "set",
    "setting", "remove", "removing", "reset", "resetting"].map String.toList

def budgetNouns : List Text :=
  ["budget", "budgets", "cap", "caps", "limit", "limits"].map String.toList

def grantWords : List Text :=
  ["grant", "granting", "approve", "approving", "allow", "deny", "denying", "reject", "rejecting",
    "propose_grant_deny"].map String.toList

def rescanWords : List Text := ["rescan", "rescanning", "propose_rescan"].map String.toList

/-- A text as it reads without what only sounds like an action. -/
def withoutSwitches (plain : Text) : Text :=
  Text.replace "re-scan".toList "rescan".toList
    (Text.replace "kill-switch".toList [' '] (Text.replace "kill switch".toList [' '] plain))

/-- The words a text is searched for actions in. -/
def actionWords (text : Text) : List Text :=
  Text.wordsOn (fun c => !(L.isAlphanumeric c || c = '_')) (withoutSwitches (plain L text))

/-- Whether a text speaks of taking this kind of action. -/
def actionNamed (text : Text) (kind : ActionKind) : Bool :=
  let words := actionWords L text
  let any (list : List Text) : Bool := list.any fun w => w ∈ words
  match kind with
  | .kill => any killWords
  | .budget => "propose_budget".toList ∈ words || (any budgetVerbs && any budgetNouns)
  | .grantDeny => any grantWords
  | .rescan => any rescanWords

/-- A character that ids are made of. -/
def isIdChar (c : Char) : Bool := L.isAlphanumeric c || c = '-' || c = '_'

/-- Whether a text names this token whole, in any case. -/
def names (text token : Text) : Bool :=
  let needle := plain L token
  !needle.isEmpty && (Text.occurrences needle (plain L text)).any fun (before, after) =>
    !before.head?.any (isIdChar L) && !after.head?.any (isIdChar L)

/-- `str::eq_ignore_ascii_case`. -/
def eqIgnoreAsciiCase (a b : Text) : Bool := a.map Char.toLower = b.map Char.toLower

/-- Whether a piece of plane text asks for this action on this target. -/
def demands (span : Span) (kind : ActionKind) (target : Text) : Bool :=
  actionNamed L span.text kind &&
    (names L span.text target || span.subjects.any (eqIgnoreAsciiCase · target) ||
      looksLikeInstruction L span.text)

/-- How a text reads does not depend on white space at its ends. -/
theorem ignoresEnds_plain : Text.IgnoresEnds (plain L) :=
  have hwords := Text.ignoresEnds_wordsOn (p := Text.isWhitespace) fun _ h => h
  have hvisible := hwords.filter (p := fun c => Text.isWhitespace c || !isHidden c)
    fun c hc => by rw [hc]; rfl
  hvisible.comp fun words => L.toLowercase ([' '].intercalate words)

theorem ignoresEnds_actionNamed (kind : ActionKind) :
    Text.IgnoresEnds fun text => actionNamed L text kind := by
  have hwords : Text.IgnoresEnds (actionWords L) := (ignoresEnds_plain L).comp fun plain =>
    Text.wordsOn (fun c => !(L.isAlphanumeric c || c = '_')) (withoutSwitches plain)
  cases kind with
  | kill => exact hwords.comp fun words => killWords.any fun w => w ∈ words
  | budget =>
      exact hwords.comp fun words => "propose_budget".toList ∈ words ||
        (budgetVerbs.any (fun w => w ∈ words) && budgetNouns.any fun w => w ∈ words)
  | grantDeny => exact hwords.comp fun words => grantWords.any fun w => w ∈ words
  | rescan => exact hwords.comp fun words => rescanWords.any fun w => w ∈ words

theorem ignoresEnds_names (token : Text) : Text.IgnoresEnds fun text => names L text token :=
  (ignoresEnds_plain L).comp fun hay =>
    !(plain L token).isEmpty && (Text.occurrences (plain L token) hay).any fun (before, after) =>
      !before.head?.any (isIdChar L) && !after.head?.any (isIdChar L)

end Genaryx.Copilot
