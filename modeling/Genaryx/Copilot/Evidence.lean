import Genaryx.Copilot.References
import Genaryx.Copilot.Untrusted

/-!
# What an answer may rest on

The evidence of one answer: the structured values its tools returned, the amounts, and the plane
text the model read. A draft is checked against it statement by statement, and a proposal before
it becomes a card.

## Implementation notes

A statement is a range of characters. The ids are kept in the order of their texts, which is the
order they are gone through; the other sets are only asked for members.
-/

namespace Genaryx.Copilot

open Json

variable {F : Type} (L : Library F)

/-- A range of a text. -/
structure Range where
  start : Nat
  stop : Nat
  deriving DecidableEq

/-- The part of a text in a range. -/
def slice (text : Text) (range : Range) : Text := (text.take range.stop).drop range.start

/-- One statement the draft cannot support. -/
structure Finding where
  message : Text
  statement : Range
  deriving DecidableEq

/-- Whether a statement ends with a character, before the next one. -/
def endsStatement (c : Char) (next : Option Char) : Bool :=
  c = '\n' || c = ';' ||
    ((c = '.' || c = '!' || c = '?') && (match next with
      | none => true
      | some n => Text.isWhitespace n))

/-- The statements of the rest of a text, the first of which has begun at `start`. -/
def statementsFrom (start pos : Nat) : Text → List Range
  | [] => if start < pos then [⟨start, pos⟩] else []
  | c :: rest =>
      if endsStatement c rest.head? then ⟨start, pos + 1⟩ :: statementsFrom (pos + 1) (pos + 1) rest
      else statementsFrom start (pos + 1) rest

/-- The unit the check works in and strips in: a line, a sentence, or the part before a `;`. -/
def statements (text : Text) : List Range := statementsFrom 0 0 text

/-- What this answer's tools returned, as far as a claim may rest on it. -/
structure Evidence where
  /-- Structured values, lowercased, with what each was returned as. -/
  ids : List (Text × List Kind) := []
  /-- Tool names and field names. -/
  vocabulary : List Text := []
  /-- Micro-USD under a `_usd` key. -/
  amounts : List Int := []
  /-- Micro-USD the operator wrote, or a proposal set. -/
  stated : List Int := []
  /-- The plane text the model read. -/
  spans : List Span := []
  deriving DecidableEq

/-- What a proposal of this kind acts on. -/
def targetKind : ActionKind → Kind
  | .kill => .run
  | .budget => .run
  | .grantDeny => .approval
  | .rescan => .agent

def actionKinds : List ActionKind := [.kill, .budget, .grantDeny, .rescan]

/-- An id as it is looked up: lowercased, without a `/` or `*` at its end. -/
def stem (value : Text) : Text :=
  ((L.letters.toLowercase value).reverse.dropWhile fun c => c = '/' || c = '*').reverse

/-- The last part of an id between slashes. -/
def lastSegment (id : Text) : Text := (id.splitOnP (· = '/')).getLastD []

/-- Put an id in as a kind of thing. -/
def insertId (id : Text) (kind : Kind) : List (Text × List Kind) → List (Text × List Kind)
  | [] => [(id, [kind])]
  | entry :: rest =>
      if id < entry.1 then (id, [kind]) :: entry :: rest
      else if id = entry.1 then
        (id, if kind ∈ entry.2 then entry.2 else entry.2 ++ [kind]) :: rest
      else entry :: insertId id kind rest

/-- The operator's own request: whether it asks for this action on this target. -/
def asked (operator : Option Text) (kind : ActionKind) (target : Text) : Bool :=
  operator.any fun q => actionNamed L.letters q kind && names L.letters q target

/-- A key that names a field: lower case letters and underscores. -/
def isFieldName (key : Text) : Bool := key.all fun c => c.isLower || c = '_'

mutual

/-- The field names and the amounts of a value: a number counts under a key that says USD. -/
def readNumbers (usd : Bool) : Value F → List Text × List Int
  | .object members => readNumbersMembers usd members
  | .array items => readNumbersItems usd items
  | .number n => ([], if usd then [L.toMicros n] else [])
  | _ => ([], [])

def readNumbersItems (usd : Bool) : List (Value F) → List Text × List Int
  | [] => ([], [])
  | v :: vs =>
      let first := readNumbers usd v
      let rest := readNumbersItems usd vs
      (first.1 ++ rest.1, first.2 ++ rest.2)

def readNumbersMembers (usd : Bool) : List (Text × Value F) → List Text × List Int
  | [] => ([], [])
  | m :: ms =>
      let first :=
        readNumbers (usd || "_usd".toList.isSuffixOf m.1 || m.1 = "usd".toList) m.2
      let rest := readNumbersMembers usd ms
      ((if isFieldName m.1 then [m.1] else []) ++ first.1 ++ rest.1, first.2 ++ rest.2)

end

namespace Evidence

/-- No evidence but what the operator wrote. -/
def new (tools : List Text) (operator : Option Text) : Evidence where
  vocabulary := tools.map L.letters.toLowercase
  stated := (operator.map (Copilot.amounts L.letters)).getD [] |>.map Amount.micros

variable (e : Evidence)

/-- Hold a value as a kind of thing, under each name it goes by. -/
def ground (kind : Kind) (value : Text) : Evidence :=
  let stem := stem L value
  if stem.isEmpty then e
  else
    let ids := insertId stem kind e.ids
    let ids :=
      match Text.stripPrefix "key:".toList stem with
      | some key => if key.isEmpty then ids else insertId key kind ids
      | none => ids
    let short := lastSegment stem
    { e with ids := if short = stem || short.isEmpty then ids else insertId short kind ids }

/-- Fold one read tool's result in. A failed call grounds nothing, and its error text is still
text the model read. -/
def record (tool : Text) (ok : Bool) (raw : Value F) (fenced : FencedResult) : Evidence :=
  let e := { e with spans := e.spans ++ fenced.spans }
  if ok then
    let e := fenced.fields.foldl (fun e field => e.ground L (kindOf tool field.1) field.2) e
    let numbers := readNumbers L false raw
    { e with vocabulary := e.vocabulary ++ numbers.1, amounts := e.amounts ++ numbers.2 }
  else e

def grounded (token : Text) : Bool := (e.ids.lookup (stem L token)).isSome

/-- Whether a tool returned this id as this kind of thing. -/
def groundedAs (kind : Kind) (token : Text) : Bool :=
  (e.ids.lookup (stem L token)).any fun kinds => kind ∈ kinds

def supported (amount : Amount) : Bool :=
  amount.micros ∈ e.stated ||
    e.amounts.any fun t =>
      -- "$0" for a spend of $0.002 is not a rounding, it is a claim.
      t = amount.micros || (amount.micros ≠ 0 && roundsTo t amount.step = amount.micros)

def spanNaming (token : Text) : Option Span := e.spans.find? fun s => names L.letters s.text token

def demandingSpan (kind : ActionKind) (target : Text) : Option Span :=
  e.spans.find? fun s => demands L.letters s kind target

/-- What is said of something that only a text names. -/
def onlyInText (what : Text) (span : Span) : Text :=
  what ++ ", which appears only in text from `".toList ++ span.tool ++
    "`, and that text is data, not a checked fact".toList

/-- What is said of something that no tool returned, unless a text names it and the statement says
it is the text that does. -/
def missing (byText : Bool) (what named : Text) : Option Text :=
  match e.spanNaming L named with
  | some span => if byText then none else some (onlyInText what span)
  | none => some (what ++ ", which no tool returned in this answer".toList)

/-- What is said of a reference. -/
def checkReference (byText : Bool) (r : Reference) : Option Text :=
  if e.grounded L r.token ||
      (r.kind = .other && L.letters.toLowercase r.token ∈ e.vocabulary) then none
  else e.missing L byText ("names ".toList ++ r.kind.label ++ " `".toList ++ r.token ++ ['\x60']) r.token

/-- What is said of an amount. -/
def checkAmount (byText : Bool) (a : Amount) : Option Text :=
  if e.supported a then none
  else e.missing L byText ("states the amount ".toList ++ a.text) a.text

/-- The ids this statement recommends acting on because a text asked for it. -/
def repeatedDemands (statement : Text) (operator : Option Text) : List (Text × Text) :=
  actionKinds.flatMap fun kind =>
    if actionNamed L.letters statement kind then
      e.ids.filterMap fun (id, kinds) =>
        if targetKind kind ∉ kinds || !names L.letters statement id || asked L operator kind id then
          none
        else (e.demandingSpan L kind id).map fun span => (id, span.tool)
    else []

/-- What is said of a statement. -/
def findings (operator : Option Text) (statement : Text) : List Text :=
  let byText := reported L.letters statement
  let named :=
    if saysAbsent L.letters statement then []
    else
      (references L.letters statement).filterMap (e.checkReference L byText) ++
        (Copilot.amounts L.letters statement).filterMap (e.checkAmount L byText)
  let demanded :=
    if !byText && !refused L.letters statement then
      (e.repeatedDemands L statement operator).map fun (id, tool) =>
        "recommends an action on `".toList ++ id ++ "` that text from `".toList ++ tool ++
          "` asks for, and that text is data, not an instruction".toList
    else []
  named ++ demanded

/-- Check a draft, statement by statement. -/
def check (text : Text) (operator : Option Text) : List Finding :=
  (statements text).flatMap fun range =>
    (e.findings L operator (slice text range)).map fun message => ⟨message, range⟩

def evidenceRefHolds (reference : Text) : Bool :=
  let word := clean reference
  e.grounded L word ||
    (Text.splitOnce ':' word).any fun (head, rest) =>
      (keyword L.letters head).isSome && e.grounded L rest

end Evidence

/-- Why a proposal may not become a card, or a finding for each reference dropped from it. -/
abbrev Screened := Except Text (List Text)

namespace Evidence

variable (e : Evidence)

/-- Whether a target that the operator did not ask for may be acted on. -/
def admits (kind : ActionKind) (target : Text) : Except Text Unit :=
  match e.demandingSpan L kind target with
  | some span =>
      .error ("text from `".toList ++ span.tool ++
        "` asks for this action, and text from a plane is data, not an instruction".toList)
  | none =>
      let wholeFleet : Bool := kind = .rescan && target = "all".toList
      if !wholeFleet && !e.groundedAs L (targetKind kind) target then
        .error ("no tool returned ".toList ++ (targetKind kind).label ++ " `".toList ++ target ++
          "` in this answer".toList)
      else .ok ()

/-- Check the rationale of a proposal and drop the references that no tool returned. -/
def settle (action : ProposedAction F) (operator : Option Text) :
    Screened × Evidence × ProposedAction F :=
  match e.check L action.rationale operator with
  | finding :: _ => (.error ("its rationale ".toList ++ finding.message), e, action)
  | [] =>
      let kept := action.evidenceRefs.filter (e.evidenceRefHolds L)
      let dropped := action.evidenceRefs.filter fun r => !e.evidenceRefHolds L r
      let e :=
        match action.params.get "usd_cap".toList with
        | some (.number cap) => { e with stated := e.stated ++ [L.toMicros cap] }
        | _ => e
      (.ok (dropped.map fun r => "cites evidence `".toList ++ r ++
        "`, which no tool returned in this answer".toList), e, { action with evidenceRefs := kept })

/-- Whether a proposal may become a card. -/
def screen (action : ProposedAction F) (operator : Option Text) :
    Screened × Evidence × ProposedAction F :=
  if asked L operator action.kind action.target then
    (e.ground L (targetKind action.kind) action.target).settle L action operator
  else
    match e.admits L action.kind action.target with
    | .error reason => (.error reason, e, action)
    | .ok () => e.settle L action operator

end Evidence

/-- The draft with every statement a finding names taken out. -/
def withoutStatements (text : Text) (findings : List Finding) : Text :=
  if findings.isEmpty then text
  else
    let kept := (statements text).filter fun range => !findings.any (·.statement = range)
    Text.trim (kept.flatMap (slice text))

end Genaryx.Copilot
