import Genaryx.Json.Value

/-!
# Agent events and their provenance

The typed envelope of one bus line, and the event as the console keeps it: with the
environment, connector, file and offset it came from and the raw line itself.
-/

namespace Genaryx.Core

variable {F : Type}

inductive SchemaVersion
  | v0_1
  | v0_2
  | v1_0
  deriving DecidableEq

namespace SchemaVersion

/-- The schema name a version is declared by. -/
def asStr : SchemaVersion → Text
  | .v0_1 => "taipanbox.dev/agent-event/v0.1"
  | .v0_2 => "taipanbox.dev/agent-event/v0.2"
  | .v1_0 => "taipanbox.dev/agent-event/v1.0"

def fromSchemaStr (s : Text) : Option SchemaVersion :=
  if s = v0_1.asStr then some .v0_1
  else if s = v0_2.asStr then some .v0_2
  else if s = v1_0.asStr then some .v1_0
  else none

theorem fromSchemaStr_asStr (v : SchemaVersion) : fromSchemaStr v.asStr = some v := by
  cases v <;> decide

end SchemaVersion

/-- The envelope of one event, with the members it does not name kept in `extra`. -/
structure AgentEvent (F : Type) where
  schema : Text
  ts : Text
  source : Text
  eventType : Text
  agentId : Text
  severity : Option Text := none
  runId : Option Text := none
  onBehalfOf : List Text := []
  data : Option (Json.Value F) := none
  prevHash : Option Text := none
  extra : List (Text × Json.Value F) := []

def AgentEvent.schemaVersion (e : AgentEvent F) : Option SchemaVersion :=
  SchemaVersion.fromSchemaStr e.schema

structure Provenance where
  env : Text
  connector : Text
  file : Option Text
  offset : Option Nat
  endpoint : Option Text
  receivedTs : Text

structure ConsoleEvent (F : Type) where
  event : AgentEvent F
  provenance : Provenance
  raw : Text
  schemaVersion : SchemaVersion

/-- The outcome of validating one line. -/
structure ConformReport where
  valid : Bool
  schemaVersion : Option SchemaVersion
  errors : List Text

/-- The errors of the core crate that ingest and the command broker can return. An event that
conformed under a schema name the console does not know is reported with that name. -/
inductive Error
  | io (message : Text)
  | unrecognizedSchema (schema : Text)
  | store (message : Text)
  | breakGlassMissingReason
  deriving DecidableEq

/-- An error as it is displayed, where a schema's name stands in its debug form. -/
def Error.display (debug : Text → Text) : Error → Text
  | io message => "io: " ++ message
  | unrecognizedSchema schema =>
      "conformance failed: event passed conformance under an unrecognized schema: " ++ debug schema
  | store message => "store: " ++ message
  | breakGlassMissingReason => "break-glass requires a non-empty reason"

end Genaryx.Core
