import Genaryx.Base.Digest
import Genaryx.Base.Lines
import Genaryx.Core.Event
import Genaryx.Json.Write

/-!
# The line of a console command

The bus event that a privileged console command is reported as, and the hash that the next
event links to it by. A line the console writes is one line that reads back as its event,
so it always has a hash.

## Implementation notes

The JSON reader and writer are a codec, and `sha256` stands for the digest.
-/

namespace Genaryx.Command

open Base Json Genaryx.Core

variable {F : Type}

/-- The outcome of one privileged console mutation. -/
structure CommandRecord (F : Type) where
  operator : Text
  env : Text
  action : Text
  target : Text
  params : Value F
  decision : Text
  sigAlg : Text
  sigFpr : Text
  httpStatus : UInt16
  verifyResult : Text

/-- A principal that may stand in `on_behalf_of`. -/
def isDelegatablePrincipal (s : Text) : Bool :=
  Text.startsWith s "agent://" || Text.startsWith s "user://"

/-- The host name as it stands in an agent id: lowercase, with a dash for every character
that may not stand there. -/
def sanitizeHost (host : Text) : Text :=
  let sanitized := (Text.trim host).map fun c =>
    let lower := c.toLower
    if Text.isAsciiAlphanumeric lower || lower = '.' || lower = '-' then lower else '-'
  if sanitized.isEmpty then "unknown-host" else sanitized

/-- An override of governance must come with a reason. -/
def requireBreakGlassReason (rec : CommandRecord F) : Except Error Unit :=
  if rec.decision = "break_glass".toList then
    let reason := ((rec.params.get "reason").bind Value.asStr).getD []
    if (Text.trim reason).isEmpty then .error .breakGlassMissingReason else .ok ()
  else .ok ()

/-- The seven outcome fields of a command. -/
def commandData (rec : CommandRecord F) : Value F :=
  .object (ofMembers [
    ("action", .string rec.action),
    ("target", .string rec.target),
    ("decision", .string rec.decision),
    ("sig_alg", .string rec.sigAlg),
    ("sig_fpr", .string rec.sigFpr),
    ("http_status", .number (.posInt rec.httpStatus.toNat
      (lt_trans rec.httpStatus.toNat_lt (by decide)))),
    ("verify_result", .string rec.verifyResult)])

/-- The principal that a command was given for, if it may be named. -/
def onBehalfOf (rec : CommandRecord F) : List (Text × Value F) :=
  if isDelegatablePrincipal rec.operator then
    [("on_behalf_of", .array [.string rec.operator])]
  else []

/-- The link to the event before, if there is one: a head event has no `prev_hash` at all. -/
def linkMember : Option Text → List (Text × Value F)
  | none => []
  | some prev => [("prev_hash", .string prev)]

/-- The members of a `console_command` event in the order they are put in. -/
def commandMembers (orgDomain host : Text) (rec : CommandRecord F) (ts : Text)
    (prevHash : Option Text) : List (Text × Value F) :=
  ("schema", .string SchemaVersion.v0_2.asStr) :: ("ts", .string ts) ::
    ("source", .string "console") :: ("type", .string "console_command") ::
      ("agent_id", .string ("agent://".toList ++ orgDomain ++ "/console/".toList ++
        sanitizeHost host)) ::
        (onBehalfOf rec ++ ("data".toList, commandData rec) :: linkMember prevHash)

/-- The `console_command` event of a command. -/
def commandValue (orgDomain host : Text) (rec : CommandRecord F) (ts : Text)
    (prevHash : Option Text) : Value F :=
  .object (ofMembers (commandMembers orgDomain host rec ts prevHash))

variable (C : Codec F recursionLimit) (sha256 : Bytes → Bytes)

def consoleCommandLine (orgDomain host : Text) (rec : CommandRecord F) (ts : Text)
    (prevHash : Option Text) : Text :=
  C.toText (commandValue orgDomain host rec ts prevHash)

/-- The chain hash of one event line: of the event without its own link. -/
def chainHashOfLine (line : Text) : Option Text :=
  (C.reader.fromStr line).map fun value =>
    "sha256:" ++ hexLower (sha256 (Utf8.encode (C.toText (value.remove "prev_hash"))))

/-- The link that a line carries. -/
def prevHashOfLine (line : Text) : Option Text :=
  ((C.reader.fromStr line).bind fun value => value.get "prev_hash").bind Value.asStr

/-- How the lines of the bus link to each other. -/
def busLinking : Linking Text Text where
  prev := prevHashOfLine C
  hash := chainHashOfLine C sha256

/-- A value of strings and integers at most `n` deep, with its members in order. -/
structure Plain (n : Nat) (v : Value F) : Prop where
  ordered : v.Ordered
  integer : v.AllNumbers Number.IsInteger
  depth_le : v.depth ≤ n

theorem plain_string (s : Text) : Plain 0 (Value.string s : Value F) :=
  ⟨trivial, trivial, le_refl 0⟩

theorem Plain.mono {m n : Nat} {v : Value F} (h : Plain m v) (hmn : m ≤ n) : Plain n v :=
  ⟨h.ordered, h.integer, le_trans h.depth_le hmn⟩

/-- An object of plain members is plain, in whatever order they were inserted. -/
theorem plain_object {n : Nat} {ms : List (Text × Value F)} (h : ∀ m ∈ ms, Plain n m.2) :
    Plain (n + 1) (.object (ofMembers ms)) := by
  have hms : ∀ m ∈ ofMembers ms, Plain n m.2 := fun m hm => h m (mem_of_mem_ofMembers hm)
  refine ⟨⟨ofMembers_pairwise ms, Value.membersOrdered_iff.mpr fun m hm => (hms m hm).ordered⟩,
    Value.allMembers_iff.mpr fun m hm => (hms m hm).integer, ?_⟩
  exact Nat.succ_le_succ (Value.membersDepth_le_iff.mpr fun m hm => (hms m hm).depth_le)

theorem plain_commandData (rec : CommandRecord F) : Plain 1 (commandData rec) := by
  refine plain_object ?_
  simp only [List.forall_mem_cons, List.not_mem_nil, false_imp_iff, implies_true, and_true]
  exact ⟨plain_string _, plain_string _, plain_string _, plain_string _, plain_string _,
    ⟨trivial, trivial, le_refl 0⟩, plain_string _⟩

theorem plain_commandMembers (orgDomain host : Text) (rec : CommandRecord F) (ts : Text)
    (prevHash : Option Text) :
    ∀ m ∈ commandMembers orgDomain host rec ts prevHash, Plain 1 m.2 := by
  have hstring : ∀ s : Text, Plain 1 (Value.string s : Value F) := fun s =>
    (plain_string s).mono (Nat.zero_le 1)
  have hbehalf : ∀ m ∈ onBehalfOf rec, Plain 1 m.2 := by
    intro m hm
    rw [onBehalfOf] at hm
    split at hm
    · cases List.mem_singleton.mp hm
      exact ⟨⟨trivial, trivial⟩, ⟨trivial, trivial⟩, le_refl 1⟩
    · cases hm
  have hlink : ∀ m ∈ (linkMember prevHash : List (Text × Value F)), Plain 1 m.2 := by
    intro m hm
    cases prevHash with
    | none => cases hm
    | some prev => cases List.mem_singleton.mp hm; exact hstring prev
  simp only [commandMembers, List.forall_mem_cons, List.forall_mem_append]
  exact ⟨hstring _, hstring _, hstring _, hstring _, hstring _, hbehalf,
    plain_commandData rec, hlink⟩

theorem plain_commandValue (orgDomain host : Text) (rec : CommandRecord F) (ts : Text)
    (prevHash : Option Text) : Plain 2 (commandValue orgDomain host rec ts prevHash) :=
  plain_object (plain_commandMembers orgDomain host rec ts prevHash)

section Members

variable (orgDomain host : Text) (rec : CommandRecord F) (ts : Text) (prevHash : Option Text)

/-- The names of the members that an event of a command can have. -/
def commandNames : List Text :=
  ["schema", "ts", "source", "type", "agent_id", "on_behalf_of", "data", "prev_hash"]

theorem names_commandMembers :
    ((commandMembers orgDomain host rec ts prevHash).map Prod.fst).Sublist commandNames := by
  unfold commandMembers onBehalfOf
  cases prevHash <;> split <;>
    simp only [linkMember, List.map_cons, List.map_nil, List.nil_append, List.cons_append] <;>
    decide

theorem nodup_commandMembers :
    ((commandMembers orgDomain host rec ts prevHash).map Prod.fst).Nodup :=
  (names_commandMembers orgDomain host rec ts prevHash).nodup (by decide)

/-- The event of a command has the members it was built with. -/
theorem get_commandValue (name : Text) : (commandValue orgDomain host rec ts prevHash).get name =
    (commandMembers orgDomain host rec ts prevHash).lookup name :=
  lookup_ofMembers_of_nodup (nodup_commandMembers orgDomain host rec ts prevHash) name

theorem get_commandValue_of_notMem {name : Text} (h : name ∉ commandNames) :
    (commandValue orgDomain host rec ts prevHash).get name = none :=
  lookup_ofMembers_of_notMem fun _ hm heq => h (heq ▸
    (names_commandMembers orgDomain host rec ts prevHash).subset (List.mem_map_of_mem hm))

theorem get_commandValue_schema : (commandValue orgDomain host rec ts prevHash).get "schema" =
    some (.string SchemaVersion.v0_2.asStr) := by
  rw [get_commandValue]
  rfl

theorem get_commandValue_ts :
    (commandValue orgDomain host rec ts prevHash).get "ts" = some (.string ts) := by
  rw [get_commandValue]
  rfl

theorem get_commandValue_source :
    (commandValue orgDomain host rec ts prevHash).get "source" = some (.string "console") := by
  rw [get_commandValue]
  rfl

theorem get_commandValue_type : (commandValue orgDomain host rec ts prevHash).get "type" =
    some (.string "console_command") := by
  rw [get_commandValue]
  rfl

theorem get_commandValue_agentId : (commandValue orgDomain host rec ts prevHash).get "agent_id" =
    some (.string ("agent://".toList ++ orgDomain ++ "/console/".toList ++
      sanitizeHost host)) := by
  rw [get_commandValue]
  rfl

theorem get_commandValue_onBehalfOf :
    (commandValue orgDomain host rec ts prevHash).get "on_behalf_of" =
      if isDelegatablePrincipal rec.operator then some (.array [.string rec.operator])
      else none := by
  rw [get_commandValue, commandMembers, onBehalfOf]
  cases prevHash <;> split <;> rfl

theorem get_commandValue_data :
    (commandValue orgDomain host rec ts prevHash).get "data" = some (commandData rec) := by
  rw [get_commandValue, commandMembers, onBehalfOf]
  cases prevHash <;> split <;> rfl

theorem get_commandValue_prevHash :
    (commandValue orgDomain host rec ts prevHash).get "prev_hash" = prevHash.map .string := by
  rw [get_commandValue, commandMembers, onBehalfOf]
  cases prevHash <;> split <;> rfl

end Members

section Line

variable {C sha256} (orgDomain host : Text) (rec : CommandRecord F) (ts : Text)
  (prevHash : Option Text)

theorem denotes_consoleCommandLine :
    Denotes C.ofDecimal (consoleCommandLine C orgDomain host rec ts prevHash)
      (commandValue orgDomain host rec ts prevHash) :=
  have hplain := plain_commandValue orgDomain host rec ts prevHash
  C.denotes_toText _ hplain.ordered hplain.integer

/-- The line reads back as its event. -/
theorem fromStr_consoleCommandLine :
    C.reader.fromStr (consoleCommandLine C orgDomain host rec ts prevHash) =
      some (commandValue orgDomain host rec ts prevHash) :=
  have hplain := plain_commandValue orgDomain host rec ts prevHash
  C.fromStr_toText hplain.ordered hplain.integer (hplain.mono (by decide)).depth_le

/-- The line is one line. -/
theorem visible_consoleCommandLine :
    Visible (consoleCommandLine C orgDomain host rec ts prevHash) :=
  (denotes_consoleCommandLine orgDomain host rec ts prevHash).visible

/-- The line is not blank. -/
theorem trim_consoleCommandLine :
    Text.trim (consoleCommandLine C orgDomain host rec ts prevHash) ≠ [] :=
  Text.trim_ne_nil (denotes_consoleCommandLine orgDomain host rec ts prevHash).brace_mem
    (by decide)

/-- The line has a chain hash. -/
theorem isSome_chainHashOfLine :
    (chainHashOfLine C sha256
      (consoleCommandLine C orgDomain host rec ts prevHash)).isSome = true := by
  rw [chainHashOfLine, fromStr_consoleCommandLine]
  rfl

/-- The line carries the link it was built with. -/
theorem prevHashOfLine_consoleCommandLine :
    prevHashOfLine C (consoleCommandLine C orgDomain host rec ts prevHash) = prevHash := by
  rw [prevHashOfLine, fromStr_consoleCommandLine, Option.bind_some, get_commandValue_prevHash]
  cases prevHash <;> rfl

end Line

end Genaryx.Command
