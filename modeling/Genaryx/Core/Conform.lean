import Genaryx.Core.Event
import Genaryx.Json.Schema
import Genaryx.Json.Write

/-!
# Conformance of bus lines

A line is routed to the schema it declares, validated against it, refused if it is about a
claimed subject, and decoded into its envelope.

## Implementation notes

The validators of the three embedded schemas, the texts of the JSON reader's errors and the
debug form of a text are parameters. So is the decoder that is derived from the envelope: of
a line that the writer wrote it makes what the envelope's members say.
-/

namespace Genaryx.Core

open Json

variable {F : Type}

/-- The prefix of the `agent_id` of a claimed subject. -/
def claimedPrefix : Text := "claimed:"

def claimedSubjectRefused : Text :=
  "claimed subject refused: agent_id carries `claimed:` and this console does not model claimed identities (agent-passport SPEC 3.3, 6.4.1)"

namespace AgentEvent

/-- The names of the members that the envelope names. -/
def named : List Text :=
  ["schema", "ts", "source", "type", "agent_id", "severity", "run_id", "on_behalf_of", "data",
    "prev_hash"]

/-- A member that has to be a string. -/
def requiredText (v : Value F) (key : Text) : Option Text := (v.get key).bind Value.asStr

/-- A member that may be absent or null, and is a string otherwise. -/
def optionalText (v : Value F) (key : Text) : Option (Option Text) :=
  match v.get key with
  | none => some none
  | some .null => some none
  | some value => value.asStr.map some

/-- The delegation chain, which may be absent. -/
def chain (v : Value F) : Option (List Text) :=
  match v.get "on_behalf_of" with
  | none => some []
  | some value => value.asArray.bind fun items => items.mapM Value.asStr

/-- The data of an event, where null is no data. -/
def dataOf (v : Value F) : Option (Value F) :=
  match v.get "data" with
  | some .null => none
  | data => data

/-- What the members of an object say as an envelope. -/
def ofValue (v : Value F) : Option (AgentEvent F) :=
  match v with
  | .object members => do
      return {
        schema := ← requiredText v "schema"
        ts := ← requiredText v "ts"
        source := ← requiredText v "source"
        eventType := ← requiredText v "type"
        agentId := ← requiredText v "agent_id"
        severity := ← optionalText v "severity"
        runId := ← optionalText v "run_id"
        onBehalfOf := ← chain v
        data := dataOf v
        prevHash := ← optionalText v "prev_hash"
        extra := members.filter fun m => m.1 ∉ named }
  | _ => none

theorem eventType_ofValue {v : Value F} {e : AgentEvent F} (h : ofValue v = some e) :
    requiredText v "type" = some e.eventType := by
  unfold ofValue at h
  split at h
  · simp only [Option.bind_eq_bind, Option.bind_eq_some_iff, Option.pure_def,
      Option.some.injEq] at h
    obtain ⟨_, _, _, _, _, _, eventType, htype, _, _, _, _, _, _, _, _, _, _, rfl⟩ := h
    exact htype
  · cases h

theorem data_ofValue {v : Value F} {e : AgentEvent F} (h : ofValue v = some e) :
    e.data = dataOf v := by
  unfold ofValue at h
  split at h
  · simp only [Option.bind_eq_bind, Option.bind_eq_some_iff, Option.pure_def,
      Option.some.injEq] at h
    obtain ⟨_, _, _, _, _, _, _, _, _, _, _, _, _, _, _, _, _, _, rfl⟩ := h
    rfl
  · cases h

end AgentEvent

/-- The compiled validators and the decoder of the envelope. -/
structure Conformer (C : Codec F recursionLimit) where
  isValid : SchemaVersion → Value F → Bool
  iterErrors : SchemaVersion → Value F → List Text
  debug : Text → Text
  jsonError : Text → Text
  decode : Text → Except Text (AgentEvent F)
  decode_toText : ∀ v, v.Ordered → v.AllNumbers Number.IsInteger → v.depth ≤ recursionLimit →
    (decode (C.toText v)).toOption = AgentEvent.ofValue v

namespace Conformer

variable {C : Codec F recursionLimit} (K : Conformer C)

def unknownSchema (declared : Option Text) : Text :=
  "unknown or missing `schema` (got " ++ K.debug (declared.getD "<missing>") ++
    "); expected ".toList ++ K.debug SchemaVersion.v0_1.asStr ++ ", ".toList ++
      K.debug SchemaVersion.v0_2.asStr ++ " or ".toList ++ K.debug SchemaVersion.v1_0.asStr

/-- Validate a parsed value. -/
def checkValue (v : Value F) : ConformReport :=
  let declared := (v.get "schema").bind Value.asStr
  match declared.bind SchemaVersion.fromSchemaStr with
  | none => ⟨false, none, [K.unknownSchema declared]⟩
  | some version =>
      if K.isValid version v then
        if ((v.get "agent_id").bind Value.asStr).any fun id => Text.startsWith id claimedPrefix then
          ⟨false, some version, [claimedSubjectRefused]⟩
        else ⟨true, some version, []⟩
      else ⟨false, some version, K.iterErrors version v⟩

/-- Parse and validate one line. -/
def checkLine (line : Text) : ConformReport :=
  match C.reader.fromStr line with
  | some v => K.checkValue v
  | none => ⟨false, none, ["malformed json: " ++ K.jsonError line]⟩

/-- Validate one line and decode it. -/
def parseValid (line : Text) : Except ConformReport (AgentEvent F) :=
  if (K.checkLine line).valid then
    match K.decode line with
    | .ok event => .ok event
    | .error e => .error ⟨false, (K.checkLine line).schemaVersion, ["decode: " ++ e]⟩
  else .error (K.checkLine line)

/-- A line that parses has been decoded. -/
theorem decode_of_parseValid {line : Text} {e : AgentEvent F} (h : K.parseValid line = .ok e) :
    K.decode line = .ok e := by
  unfold parseValid at h
  split at h
  · split at h
    · next event hdecode =>
        cases h
        exact hdecode
    · cases h
  · cases h

/-- What is parsed of a written value is what its members say. -/
theorem ofValue_of_parseValid {v : Value F} (hordered : v.Ordered)
    (hinteger : v.AllNumbers Number.IsInteger) (hdepth : v.depth ≤ recursionLimit)
    {e : AgentEvent F} (h : K.parseValid (C.toText v) = .ok e) :
    AgentEvent.ofValue v = some e := by
  rw [← K.decode_toText v hordered hinteger hdepth, K.decode_of_parseValid h]
  rfl

end Conformer

/-!
## The envelope schema v0.2

The embedded schema that a v0.2 line is validated against, and what its agent ids look like.
-/

namespace AgentEvent

/-- A lowercase ASCII letter or an ASCII digit. -/
def lowerAlnum (c : Char) : Bool := ('a' ≤ c && c ≤ 'z') || ('0' ≤ c && c ≤ '9')

/-- A character of the domain in an agent id. -/
def domainChar (c : Char) : Bool := lowerAlnum c || c = '.' || c = '-'

/-- A character of the path in an agent id. -/
def pathChar (c : Char) : Bool := domainChar c || c = '_' || c = '/'

/-- The pattern of `agent_id`: a domain, a slash and a path. -/
def agentIdPattern (s : Text) : Bool :=
  match (Text.stripPrefix "agent://" s).bind (Text.splitOnce '/') with
  | some (domain, path) =>
      !domain.isEmpty && domain.all domainChar && !path.isEmpty && path.all pathChar
  | none => false

/-- The pattern of a principal in `on_behalf_of`. -/
def principalPattern (s : Text) : Bool :=
  Text.startsWith s "agent://" || Text.startsWith s "user://"

def hexChar (c : Char) : Bool := ('0' ≤ c && c ≤ '9') || ('a' ≤ c && c ≤ 'f')

/-- The pattern of `prev_hash`. -/
def prevHashPattern (s : Text) : Bool :=
  match Text.stripPrefix "sha256:" s with
  | some digest => decide (digest.length = 64) && digest.all hexChar
  | none => false

open Schema in
/-- The schema of the `delegation_proof` member. -/
def delegationProofSchema (integral : F → Bool) : Keyword F := Schema.all [
  typeObject,
  required ["jti", "jkt", "iss", "exp"],
  noOtherThan ["jti", "jkt", "iss", "exp"],
  properties [
    ("jti", Schema.all [typeString, minLength 1]),
    ("jkt", Schema.all [typeString, minLength 1]),
    ("iss", Schema.all [typeString, minLength 1]),
    ("exp", typeInteger integral)]]

open Schema in
/-- `agent-event.v0.2.schema.json` -/
def schemaV0_2 (integral : F → Bool) : Keyword F := Schema.all [
  typeObject,
  required ["schema", "ts", "source", "type", "agent_id"],
  properties [
    ("schema", oneOf ["taipanbox.dev/agent-event/v0.2"]),
    ("ts", typeString),
    ("source", Schema.all [typeString, minLength 1]),
    ("type", Schema.all [typeString, minLength 1]),
    ("agent_id", Schema.all [typeString, pattern agentIdPattern, maxLength 255]),
    ("severity", Schema.all [typeString, oneOf ["info", "low", "medium", "high", "critical"]]),
    ("run_id", typeString),
    ("on_behalf_of", Schema.all [typeArray,
      items (Schema.all [typeString, pattern principalPattern]), maxItems 32]),
    ("delegation_proof", delegationProofSchema integral),
    ("data", typeObject),
    ("prev_hash", Schema.all [typeString, pattern prevHashPattern])]]

theorem pathChar_of_domainChar {c : Char} (h : domainChar c = true) : pathChar c = true := by
  simp only [pathChar, h, Bool.true_or]

/-- An agent id is in the grammar when its two parts are. -/
theorem agentIdPattern_append {domain path : Text} (h : '/' ∉ domain) :
    agentIdPattern ("agent://".toList ++ (domain ++ '/' :: path)) = true ↔
      (domain ≠ [] ∧ ∀ c ∈ domain, domainChar c = true) ∧
        path ≠ [] ∧ ∀ c ∈ path, pathChar c = true := by
  rw [agentIdPattern, Text.stripPrefix_append, Option.bind_some, Text.splitOnce_append _ _ _ h]
  simp only [Bool.and_eq_true, Bool.not_eq_true', List.isEmpty_eq_false_iff, List.all_eq_true,
    and_assoc]

theorem prevHashPattern_append {digest : Text} (hlength : digest.length = 64)
    (hhex : ∀ c ∈ digest, hexChar c = true) :
    prevHashPattern ("sha256:".toList ++ digest) = true := by
  rw [prevHashPattern, Text.stripPrefix_append]
  exact (Bool.and_eq_true _ _).mpr ⟨decide_eq_true hlength, List.all_eq_true.mpr hhex⟩

end AgentEvent

/-- A conformer whose validator of v0.2 is the embedded schema. -/
structure EnvelopeConformer (C : Codec F recursionLimit) extends Conformer C where
  integral : F → Bool
  isValid_v0_2 : ∀ v, isValid .v0_2 v = AgentEvent.schemaV0_2 integral v

end Genaryx.Core
