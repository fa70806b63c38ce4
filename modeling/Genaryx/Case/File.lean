import Genaryx.Base.Utf8
import Genaryx.Json.Value

/-!
# The case file

What the planes answered about one incident, put in one shape: a line for each section in a
fixed order, and a fact for each row.

## Implementation notes

`Digester` is what writes a JSON value and hashes it. A count of a list is a `usize`, so it
is written as one. The only trust marker there is, `data`, is written out where it is
serialised.
-/

namespace Genaryx.Case

open Json

variable {F : Type}

/-- The longest piece of a plane's own error text that a case keeps. -/
def upstreamTextMax : Nat := 300

namespace Label

def event : Text := "the incident's event row"

def timeline : Text := "an event of the same run"

def spend : Text := "the run's spend and gateway decisions"

def identity : Text := "the identity record"

def identityAlert : Text := "an identity alert on this subject"

def blastRadius : Text := "what the identity can reach, computed from its record"

def policy : Text := "the policy status wardryx reports now"

def decision : Text := "an approval of this run and how it was decided"

def similarSameSubject : Text := "an earlier event of the same type, same subject"

def similarOtherSubject : Text := "an earlier event of the same type, another subject"

def ruling : Text := "a memory recalled for this kind of incident"

end Label

namespace Words

def empty : Text := "the plane answered and holds nothing for this incident"

def unavailable : Text := "the plane did not answer"

def unrecorded : Text := "no answer was recorded for this question"

def noRun : Text := "the event names no run, so there is no run to read"

def filedUnderAKey : Text :=
  "the incident is filed under a key, not an agent: asking about the agent it claimed would charge that agent with the attempt"

def alertsUnread : Text :=
  "the identity record was read; idryx's alert list could not be, so alerts are missing from this line"

def timelineCapped : Text :=
  "the run has at least this many events; the timeline stops at the cap"

end Words

/-- The service that gave a row. -/
inductive Plane where
  | bus
  | tokenfuse
  | idryx
  | wardryx
  | engram
  deriving DecidableEq

def Plane.asStr : Plane → Text
  | .bus => "bus"
  | .tokenfuse => "tokenfuse"
  | .idryx => "idryx"
  | .wardryx => "wardryx"
  | .engram => "engram"

/-- One question the case asks. -/
inductive Section where
  | event
  | runTimeline
  | spend
  | identity
  | blastRadius
  | policy
  | decisions
  | similarIncidents
  | priorRulings
  deriving DecidableEq

namespace Section

/-- Every question, in the order a case lists them. -/
def all : List Section :=
  [event, runTimeline, spend, identity, blastRadius, policy, decisions, similarIncidents,
    priorRulings]

def asStr : Section → Text
  | event => "event"
  | runTimeline => "run_timeline"
  | spend => "spend"
  | identity => "identity"
  | blastRadius => "blast_radius"
  | policy => "policy"
  | decisions => "decisions"
  | similarIncidents => "similar_incidents"
  | priorRulings => "prior_rulings"

/-- The plane that answers a question. -/
def plane : Section → Plane
  | event | runTimeline | similarIncidents => .bus
  | spend => .tokenfuse
  | identity | blastRadius => .idryx
  | policy | decisions => .wardryx
  | priorRulings => .engram

end Section

/-- Text a plane wrote. -/
structure Data where
  text : Text
  deriving DecidableEq

def Data.bounded (text : Text) : Data := ⟨text.take upstreamTextMax⟩

/-- One row a plane gave. -/
structure Row (F : Type) where
  plane : Plane
  rowId : Text
  label : Text
  value : Value F

/-- What a plane gave for one section. -/
inductive Answer (F : Type) where
  | rows (rows : List (Row F)) (note : Option Text)
  | unavailable (reason : Text)
  | notAsked (reason : Text)

/-- Whether the question of a section was answered, and how. -/
inductive LineState where
  | answered
  | empty
  | unavailable
  | notAsked
  deriving DecidableEq

def LineState.asStr : LineState → Text
  | .answered => "answered"
  | .empty => "empty"
  | .unavailable => "unavailable"
  | .notAsked => "not_asked"

/-- One line of the case. -/
structure CaseLine where
  sec : Section
  plane : Plane
  state : LineState
  facts : Nat
  reason : Option Text
  upstream : Option Data
  deriving DecidableEq

/-- One statement in the case and what it rests on. -/
structure Fact (F : Type) where
  sec : Section
  plane : Plane
  rowId : Text
  digest : Text
  label : Text
  row : Value F

structure CaseFile (F : Type) where
  incidentId : Text
  subject : Text
  claimedAgent : Option Text
  runId : Option Text
  lines : List CaseLine
  facts : List (Fact F)
  digest : Text

/-- What a case holds besides the answers. -/
structure Head where
  incidentId : Text
  subject : Text
  claimedAgent : Option Text
  runId : Option Text

/-- A count of a list as JSON. -/
def usize (n : Nat) : Value F := .ofU64 (UInt64.ofNat n)

/-- A text, or null, as JSON. -/
def optionText : Option Text → Value F
  | some t => .string t
  | none => .null

/-- An object with the given members. -/
def objectOf (members : List (Text × Value F)) : Value F := .object (ofMembers members)

def Data.toJson (d : Data) : Value F :=
  objectOf [("trust".toList, .string "data"), ("text".toList, .string d.text)]

def CaseLine.toJson (l : CaseLine) : Value F :=
  objectOf [("section".toList, .string l.sec.asStr), ("plane".toList, .string l.plane.asStr),
    ("state".toList, .string l.state.asStr), ("facts".toList, usize l.facts),
    ("reason".toList, optionText l.reason),
    ("upstream".toList, (l.upstream.map Data.toJson).getD .null)]

def Fact.toJson (f : Fact F) : Value F :=
  objectOf [("section".toList, .string f.sec.asStr), ("plane".toList, .string f.plane.asStr),
    ("row_id".toList, .string f.rowId), ("digest".toList, .string f.digest),
    ("label".toList, .string f.label), ("trust".toList, .string "data"), ("row".toList, f.row)]

def CaseFile.toJson (c : CaseFile F) : Value F :=
  objectOf [("incident_id".toList, .string c.incidentId), ("subject".toList, .string c.subject),
    ("claimed_agent".toList, optionText c.claimedAgent), ("run_id".toList, optionText c.runId),
    ("lines".toList, .array (c.lines.map CaseLine.toJson)),
    ("facts".toList, .array (c.facts.map Fact.toJson)), ("digest".toList, .string c.digest)]

/-- How a value is written and hashed. -/
structure Digester (F : Type) where
  toText : Value F → Text
  sha256Hex : Bytes → Text

variable (D : Digester F)

def digestOf (v : Value F) : Text :=
  "sha256:".toList ++ D.sha256Hex (Utf8.encode (D.toText v))

/-- The facts of one section. -/
def factsOf (sec : Section) : Option (Answer F) → List (Fact F)
  | some (.rows rows _) =>
      rows.map fun row => ⟨sec, row.plane, row.rowId, digestOf D row.value, row.label, row.value⟩
  | _ => []

/-- The line of one section. -/
def lineOf (sec : Section) : Option (Answer F) → CaseLine
  | some (.rows [] note) => ⟨sec, sec.plane, .empty, 0, some (note.getD Words.empty), none⟩
  | some (.rows rows note) => ⟨sec, sec.plane, .answered, rows.length, note, none⟩
  | some (.unavailable reason) =>
      ⟨sec, sec.plane, .unavailable, 0, some Words.unavailable, some (.bounded reason)⟩
  | some (.notAsked reason) => ⟨sec, sec.plane, .notAsked, 0, some reason, none⟩
  | none => ⟨sec, sec.plane, .unavailable, 0, some Words.unrecorded, none⟩

/-- The first answer recorded for a section. -/
def answerFor (answers : List (Section × Answer F)) (sec : Section) : Option (Answer F) :=
  (answers.find? fun a => a.1 == sec).map Prod.snd

/-- Put the answers in the shape of a case. -/
def assemble (head : Head) (answers : List (Section × Answer F)) : CaseFile F :=
  let case : CaseFile F := {
    incidentId := head.incidentId
    subject := head.subject
    claimedAgent := head.claimedAgent
    runId := head.runId
    lines := Section.all.map fun sec => lineOf sec (answerFor answers sec)
    facts := Section.all.flatMap fun sec => factsOf D sec (answerFor answers sec)
    digest := [] }
  { case with digest := digestOf D case.toJson }

variable {D} {head : Head} {answers : List (Section × Answer F)} {sec : Section}

/-- Every section has one line, in the fixed order. -/
theorem sections_assemble : (assemble D head answers).lines.map CaseLine.sec = Section.all := by
  rw [assemble, List.map_map]
  refine (List.map_congr_left fun sec _ => ?_).trans (List.map_id _)
  rw [Function.comp_apply, id_eq]
  unfold lineOf
  split <;> rfl

/-- The digest is the one of the case without it. -/
theorem digest_assemble : (assemble D head answers).digest =
    digestOf D ({ assemble D head answers with digest := [] } : CaseFile F).toJson := rfl

/-- A fact of a section comes from a row of its answer. -/
theorem mem_factsOf_iff {answer : Option (Answer F)} {fact : Fact F} :
    fact ∈ factsOf D sec answer ↔
      ∃ rows note row, answer = some (.rows rows note) ∧ row ∈ rows ∧
        fact = ⟨sec, row.plane, row.rowId, digestOf D row.value, row.label, row.value⟩ := by
  unfold factsOf
  split
  · next rows note =>
      rw [List.mem_map]
      constructor
      · rintro ⟨row, hrow, rfl⟩
        exact ⟨rows, note, row, rfl, hrow, rfl⟩
      · rintro ⟨rows', note', row, h, hrow, rfl⟩
        cases h
        exact ⟨row, hrow, rfl⟩
  · next hnot =>
      simp only [List.not_mem_nil, false_iff]
      rintro ⟨rows, note, row, h, -, -⟩
      exact hnot rows note h

theorem mem_facts_assemble_iff {fact : Fact F} :
    fact ∈ (assemble D head answers).facts ↔
      fact ∈ factsOf D fact.sec (answerFor answers fact.sec) := by
  have hall : fact.sec ∈ Section.all := by
    cases fact.sec <;> decide
  rw [assemble, List.mem_flatMap]
  constructor
  · rintro ⟨sec, -, hfact⟩
    obtain ⟨rows, note, row, -, -, rfl⟩ := mem_factsOf_iff.mp hfact
    exact hfact
  · exact fun hfact => ⟨fact.sec, hall, hfact⟩

theorem mem_lines_assemble (sec : Section) :
    lineOf sec (answerFor answers sec) ∈ (assemble D head answers).lines := by
  have hall : sec ∈ Section.all := by cases sec <;> decide
  exact List.mem_map.mpr ⟨sec, hall, rfl⟩

/-- Every line is the one of its section. -/
theorem eq_of_mem_lines {line : CaseLine} (h : line ∈ (assemble D head answers).lines) :
    line = lineOf line.sec (answerFor answers line.sec) := by
  obtain ⟨sec, -, rfl⟩ := List.mem_map.mp h
  have hsection : (lineOf sec (answerFor answers sec)).sec = sec := by
    unfold lineOf
    split <;> rfl
  rw [hsection]

theorem countP_factsOf (sec sec' : Section) (answer : Option (Answer F)) :
    (factsOf D sec answer).countP (fun fact => fact.sec == sec') =
      if sec = sec' then (factsOf D sec answer).length else 0 := by
  have hsection : ∀ fact ∈ factsOf D sec answer, fact.sec = sec := by
    intro fact hfact
    obtain ⟨rows, note, row, -, -, rfl⟩ := mem_factsOf_iff.mp hfact
    rfl
  split
  · next h =>
      rw [List.countP_eq_length]
      intro fact hfact
      rw [hsection fact hfact, h, beq_self_eq_true]
  · next h =>
      rw [List.countP_eq_zero]
      intro fact hfact
      rw [hsection fact hfact, beq_iff_eq]
      exact h

/-- A line counts the facts of its section. -/
theorem facts_lineOf (sec : Section) (answer : Option (Answer F)) :
    (lineOf sec answer).facts = (factsOf D sec answer).length := by
  unfold lineOf
  split <;> simp [factsOf]

theorem countP_facts_assemble (sec : Section) :
    (assemble D head answers).facts.countP (fun fact => fact.sec == sec) =
      (lineOf sec (answerFor answers sec)).facts := by
  rw [facts_lineOf (D := D), assemble, List.countP_flatMap]
  simp only [Function.comp_def, countP_factsOf]
  cases sec <;> simp [Section.all]

end Genaryx.Case
