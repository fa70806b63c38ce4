import Genaryx.Command.Chain
import Genaryx.Core.Conform

/-!
# Console lines and the envelope schema

A line that the console appends is read back by its own store when it meets the envelope
schema. All that is left open is its agent id, where the organisation's domain stands as it
was configured and the host name is made to fit only character by character.

## Implementation notes

A recorded command is taken with the run of the bus that led to it, from an events file with
any bytes in it. The console's digest of an event has 32 bytes.
-/

namespace Genaryx.Command

open Base Json Genaryx.Core

variable {F : Type}

section Envelope

variable (orgDomain host : Text) (rec : CommandRecord F) (ts : Text) (prevHash : Option Text)

/-- The agent id of the console on one host. -/
def consoleAgentId : Text :=
  "agent://".toList ++ orgDomain ++ "/console/".toList ++ sanitizeHost host

/-- The event that the line of a command is read as. -/
def commandEvent : AgentEvent F where
  schema := SchemaVersion.v0_2.asStr
  ts := ts
  source := "console"
  eventType := "console_command"
  agentId := consoleAgentId orgDomain host
  onBehalfOf := if isDelegatablePrincipal rec.operator then [rec.operator] else []
  data := some (commandData rec)
  prevHash := prevHash

theorem chain_commandValue : AgentEvent.chain (commandValue orgDomain host rec ts prevHash) =
    some (if isDelegatablePrincipal rec.operator then [rec.operator] else []) := by
  rw [AgentEvent.chain, get_commandValue_onBehalfOf]
  cases isDelegatablePrincipal rec.operator <;> rfl

theorem optionalText_commandValue_prevHash :
    AgentEvent.optionalText (commandValue orgDomain host rec ts prevHash) "prev_hash" =
      some prevHash := by
  rw [AgentEvent.optionalText, get_commandValue_prevHash]
  cases prevHash <;> rfl

theorem optionalText_commandValue (name : Text) (h : name ∉ commandNames) :
    AgentEvent.optionalText (commandValue orgDomain host rec ts prevHash) name = some none := by
  rw [AgentEvent.optionalText, get_commandValue_of_notMem orgDomain host rec ts prevHash h]

/-- The envelope names every member of a command's event. -/
theorem extra_commandValue : (ofMembers (commandMembers orgDomain host rec ts prevHash)).filter
    (fun m => m.1 ∉ AgentEvent.named) = [] := by
  have hnamed : commandNames ⊆ AgentEvent.named := by decide
  refine List.filter_eq_nil_iff.mpr fun m hm => ?_
  have hname := hnamed ((names_commandMembers orgDomain host rec ts prevHash).subset
    (List.mem_map_of_mem (mem_of_mem_ofMembers hm)))
  simp only [hname, not_true_eq_false, decide_false, Bool.false_eq_true, not_false_eq_true]

/-- The members of a command's event say what the event is. -/
theorem ofValue_commandValue :
    AgentEvent.ofValue (commandValue orgDomain host rec ts prevHash) =
      some (commandEvent orgDomain host rec ts prevHash) := by
  have hschema := get_commandValue_schema orgDomain host rec ts prevHash
  have hts := get_commandValue_ts orgDomain host rec ts prevHash
  have hsource := get_commandValue_source orgDomain host rec ts prevHash
  have htype := get_commandValue_type orgDomain host rec ts prevHash
  have hagent := get_commandValue_agentId orgDomain host rec ts prevHash
  have hseverity := optionalText_commandValue orgDomain host rec ts prevHash "severity"
    (by decide)
  have hrun := optionalText_commandValue orgDomain host rec ts prevHash "run_id" (by decide)
  have hchain := chain_commandValue orgDomain host rec ts prevHash
  have hdata : AgentEvent.dataOf (commandValue orgDomain host rec ts prevHash) =
      some (commandData rec) := by
    rw [AgentEvent.dataOf, get_commandValue_data]
    rfl
  have hlink := optionalText_commandValue_prevHash orgDomain host rec ts prevHash
  have hextra := extra_commandValue orgDomain host rec ts prevHash
  unfold commandValue at *
  simp only [AgentEvent.ofValue, AgentEvent.requiredText, hschema, hts, hsource, htype, hagent,
    hseverity, hrun, hchain, hdata, hlink, hextra, Option.bind_some, Value.asStr,
    Option.bind_eq_bind, Option.pure_def]
  rfl

/-- A principal that may be named fits the envelope. -/
theorem onBehalfOf_fits : (if isDelegatablePrincipal rec.operator then
    some (.array [.string rec.operator]) else none : Option (Value F)).all
      (Schema.all [Schema.typeArray, Schema.items (Schema.all [Schema.typeString,
        Schema.pattern AgentEvent.principalPattern]), Schema.maxItems 32]) = true := by
  split
  · next h =>
      have hprincipal : AgentEvent.principalPattern rec.operator = true := h
      simp [Schema.typeArray, Schema.items, Schema.maxItems, Schema.pattern, Value.asArray,
        hprincipal]
  · rfl

omit rec in
/-- A link that is a digest fits the envelope. -/
theorem prevHash_fits {prevHash : Option Text}
    (h : ∀ prev, prevHash = some prev → AgentEvent.prevHashPattern prev = true) :
    (prevHash.map Value.string : Option (Value F)).all (Schema.all [Schema.typeString,
      Schema.pattern AgentEvent.prevHashPattern]) = true := by
  cases prevHash with
  | none => rfl
  | some prev => simp [Schema.pattern, h prev rfl]

/-- All that the envelope schema can find wrong with a command's event is its agent id. -/
theorem schemaV0_2_commandValue (integral : F → Bool)
    (hprev : ∀ prev, prevHash = some prev → AgentEvent.prevHashPattern prev = true) :
    AgentEvent.schemaV0_2 integral (commandValue orgDomain host rec ts prevHash) =
      (AgentEvent.agentIdPattern (consoleAgentId orgDomain host) &&
        decide ((consoleAgentId orgDomain host).length ≤ 255)) := by
  have hnone : ∀ name, name ∉ commandNames →
      (commandValue orgDomain host rec ts prevHash).get name = none :=
    fun _ h => get_commandValue_of_notMem orgDomain host rec ts prevHash h
  have hschema := get_commandValue_schema orgDomain host rec ts prevHash
  have hts := get_commandValue_ts orgDomain host rec ts prevHash
  have hsource := get_commandValue_source orgDomain host rec ts prevHash
  have htype := get_commandValue_type orgDomain host rec ts prevHash
  have hagent := get_commandValue_agentId orgDomain host rec ts prevHash
  have hdata := get_commandValue_data orgDomain host rec ts prevHash
  have hbehalf := get_commandValue_onBehalfOf orgDomain host rec ts prevHash
  have hlink := get_commandValue_prevHash orgDomain host rec ts prevHash
  have hseverity := hnone "severity" (by decide)
  have hrun := hnone "run_id" (by decide)
  have hproof := hnone "delegation_proof" (by decide)
  have hversion : Schema.oneOf ["taipanbox.dev/agent-event/v0.2".toList]
      (.string SchemaVersion.v0_2.asStr : Value F) = true := by
    rw [Schema.oneOf_string]
    exact decide_eq_true (List.mem_singleton_self _)
  have hminimum : ∀ s : Text, s ≠ [] → Schema.minLength 1 (.string s : Value F) = true :=
    fun s hs => decide_eq_true (List.length_pos_iff.mpr hs)
  have hobject : Schema.typeObject (commandData rec) = true := rfl
  unfold commandValue Value.get at *
  simp only [AgentEvent.schemaV0_2, Schema.all_cons, Schema.all_nil, Schema.required,
    Schema.properties, List.all_cons, List.all_nil, hschema, hts, hsource, htype, hagent, hdata,
    hseverity, hrun, hproof, hbehalf, hlink, Option.isSome_some, Option.all_some,
    Option.all_none, Schema.typeString_string, onBehalfOf_fits, prevHash_fits hprev, hversion,
    hobject, Schema.typeObject_object, Bool.true_and, Bool.and_true]
  rw [hminimum _ (by decide), hminimum _ (by decide), Bool.true_and, Bool.true_and]
  rfl

end Envelope

section Host

theorem not_upper_toLower (c : Char) : ¬ ('A' ≤ c.toLower ∧ c.toLower ≤ 'Z') := by
  unfold Char.toLower
  simp only [Char.le_def]
  split
  · next h =>
      have hshift : ('a'.val - 'A'.val).toNat = 32 := rfl
      have hfirst : 'A'.val.toNat = 65 := rfl
      have hlast : 'Z'.val.toNat = 90 := rfl
      simp only [ge_iff_le, UInt32.le_iff_toNat_le, UInt32.toNat_add] at h ⊢
      omega
  · next h => exact h

/-- Every character of a sanitized host name may stand in an agent id. -/
theorem domainChar_sanitizeHost {host : Text} {c : Char} (h : c ∈ sanitizeHost host) :
    AgentEvent.domainChar c = true := by
  have hfallback : ∀ c ∈ "unknown-host".toList, AgentEvent.domainChar c = true := by decide
  rw [sanitizeHost] at h
  split at h
  · exact hfallback c h
  · obtain ⟨d, -, rfl⟩ := List.mem_map.mp h
    have hupper := not_upper_toLower d
    dsimp only
    split
    · next hkept =>
        simp only [Text.isAsciiAlphanumeric, Bool.or_eq_true, Bool.and_eq_true,
          decide_eq_true_eq] at hkept
        simp only [AgentEvent.domainChar, AgentEvent.lowerAlnum, Bool.or_eq_true,
          Bool.and_eq_true, decide_eq_true_eq]
        tauto
    · rfl

theorem sanitizeHost_ne_nil (host : Text) : sanitizeHost host ≠ [] := by
  have hfallback : "unknown-host".toList ≠ [] := by decide
  rw [sanitizeHost]
  split
  · exact hfallback
  · next h => simpa using h

/-- How long a host name is in an agent id. -/
def hostLength (host : Text) : Nat :=
  if (Text.trim host).isEmpty then 12 else (Text.trim host).length

theorem length_sanitizeHost (host : Text) : (sanitizeHost host).length = hostLength host := by
  rw [sanitizeHost, hostLength, List.isEmpty_map]
  split
  · rfl
  · rw [List.length_map]

end Host

/-- The console's agent id on a host fits the envelope: the organisation's domain starts with a
domain, goes on as a path if at all, and leaves room for the host name. -/
structure AgentIdFits (orgDomain host : Text) : Prop where
  domain_ne : orgDomain.takeWhile (· ≠ '/') ≠ []
  domain : ∀ c ∈ orgDomain.takeWhile (· ≠ '/'), AgentEvent.domainChar c = true
  path : ∀ c ∈ orgDomain.dropWhile (· ≠ '/'), AgentEvent.pathChar c = true
  length_le : orgDomain.length + hostLength host ≤ 238

theorem length_consoleAgentId (orgDomain host : Text) :
    (consoleAgentId orgDomain host).length = 8 + orgDomain.length + 9 + hostLength host := by
  have hhost := length_sanitizeHost host
  unfold consoleAgentId
  generalize sanitizeHost host = sanitized at hhost ⊢
  rw [List.length_append, List.length_append, List.length_append, hhost]
  rfl

/-- What follows the domain in the console's agent id is a path when the rest of the
organisation's domain is one. -/
theorem exists_path (host : Text) {rest : Text} (hrest : ∀ c, rest.head? = some c → c = '/') :
    ∃ path, rest ++ "/console/".toList ++ sanitizeHost host = '/' :: path ∧ path ≠ [] ∧
      ((∀ c ∈ path, AgentEvent.pathChar c = true) ↔ ∀ c ∈ rest, AgentEvent.pathChar c = true) := by
  have hconsole : "/console/".toList = '/' :: "console/".toList := by decide
  have hslash : AgentEvent.pathChar '/' = true := by decide
  have hchars : ∀ c ∈ "console/".toList, AgentEvent.pathChar c = true := by decide
  have hhost : ∀ c ∈ sanitizeHost host, AgentEvent.pathChar c = true := fun c hc =>
    AgentEvent.pathChar_of_domainChar (domainChar_sanitizeHost hc)
  cases rest with
  | nil =>
      refine ⟨"console/".toList ++ sanitizeHost host, by rw [hconsole]; rfl, ?_, ?_⟩
      · exact List.append_ne_nil_of_right_ne_nil _ (sanitizeHost_ne_nil host)
      · exact iff_of_true (List.forall_mem_append.mpr ⟨hchars, hhost⟩) (by simp)
  | cons c rest =>
      obtain rfl := hrest c rfl
      refine ⟨rest ++ "/console/".toList ++ sanitizeHost host, rfl, ?_, ?_⟩
      · exact List.append_ne_nil_of_right_ne_nil _ (sanitizeHost_ne_nil host)
      · rw [hconsole]
        simp only [List.forall_mem_append, List.forall_mem_cons, hslash]
        tauto

/-- The console's agent id is in the grammar when the organisation's domain is the start of
one. -/
theorem agentIdPattern_consoleAgentId {orgDomain host : Text} :
    AgentEvent.agentIdPattern (consoleAgentId orgDomain host) = true ↔
      (orgDomain.takeWhile (· ≠ '/') ≠ [] ∧
        ∀ c ∈ orgDomain.takeWhile (· ≠ '/'), AgentEvent.domainChar c = true) ∧
      ∀ c ∈ orgDomain.dropWhile (· ≠ '/'), AgentEvent.pathChar c = true := by
  have hnotMem : '/' ∉ orgDomain.takeWhile (· ≠ '/') := fun hmem => by
    simpa using List.mem_takeWhile_imp hmem
  have hhead : ∀ c, (orgDomain.dropWhile (· ≠ '/')).head? = some c → c = '/' := fun c hc => by
    have hdrop := List.head?_dropWhile_not (· ≠ '/') orgDomain
    rw [hc] at hdrop
    simpa using hdrop
  obtain ⟨path, hpath, hne, hchars⟩ := exists_path host hhead
  have hid : consoleAgentId orgDomain host =
      "agent://".toList ++ (orgDomain.takeWhile (· ≠ '/') ++ '/' :: path) := by
    have hsplit := List.takeWhile_append_dropWhile (p := (· ≠ '/')) (l := orgDomain)
    rw [← hpath]
    unfold consoleAgentId
    generalize sanitizeHost host = sanitized
    conv_lhs => rw [← hsplit]
    simp only [List.append_assoc]
  rw [hid, AgentEvent.agentIdPattern_append hnotMem, ← hchars]
  exact ⟨fun h => ⟨h.1, h.2.2⟩, fun h => ⟨h.1, hne, h.2⟩⟩

theorem agentIdFits_iff {orgDomain host : Text} : AgentIdFits orgDomain host ↔
    AgentEvent.agentIdPattern (consoleAgentId orgDomain host) = true ∧
      (consoleAgentId orgDomain host).length ≤ 255 := by
  rw [agentIdPattern_consoleAgentId, length_consoleAgentId]
  constructor
  · intro h
    have hlength := h.length_le
    exact ⟨⟨⟨h.domain_ne, h.domain⟩, h.path⟩, by omega⟩
  · rintro ⟨⟨⟨hne, hdomain⟩, hpath⟩, hlength⟩
    exact ⟨hne, hdomain, hpath, by omega⟩

section Parse

variable {C : Codec F recursionLimit} (K : EnvelopeConformer C) {orgDomain host : Text}
  {prevHash : Option Text}

theorem not_claimed_consoleAgentId (orgDomain host : Text) :
    Text.startsWith (consoleAgentId orgDomain host) claimedPrefix = false := rfl

/-- A line of the console conforms when its agent id fits. -/
theorem valid_checkLine_iff (rec : CommandRecord F) (ts : Text)
    (hprev : ∀ prev, prevHash = some prev → AgentEvent.prevHashPattern prev = true) :
    (K.checkLine (consoleCommandLine C orgDomain host rec ts prevHash)).valid = true ↔
      AgentIdFits orgDomain host := by
  have hdeclared : ((commandValue orgDomain host rec ts prevHash).get "schema").bind Value.asStr =
      some SchemaVersion.v0_2.asStr := by
    rw [get_commandValue_schema]
    rfl
  have hclaimed : (((commandValue orgDomain host rec ts prevHash).get "agent_id").bind
      Value.asStr).any (fun id => Text.startsWith id claimedPrefix) = false := by
    rw [get_commandValue_agentId]
    exact not_claimed_consoleAgentId orgDomain host
  have hvalid := K.isValid_v0_2 (commandValue orgDomain host rec ts prevHash)
  rw [schemaV0_2_commandValue orgDomain host rec ts prevHash K.integral hprev] at hvalid
  rw [Conformer.checkLine, fromStr_consoleCommandLine]
  simp only [Conformer.checkValue, hdeclared, Option.bind_some,
    SchemaVersion.fromSchemaStr_asStr, hclaimed, hvalid, Bool.false_eq_true, if_false]
  have hfits : AgentIdFits orgDomain host ↔
      (AgentEvent.agentIdPattern (consoleAgentId orgDomain host) &&
        decide ((consoleAgentId orgDomain host).length ≤ 255)) = true := by
    rw [agentIdFits_iff, Bool.and_eq_true, decide_eq_true_eq]
  rw [hfits]
  split
  · next h => exact iff_of_true rfl h
  · next h => exact iff_of_false Bool.false_ne_true h

/-- A line of the console is parsed as its event when its agent id fits, and not at all
otherwise. -/
theorem parseValid_consoleCommandLine_iff {rec : CommandRecord F} {ts : Text}
    {e : AgentEvent F}
    (hprev : ∀ prev, prevHash = some prev → AgentEvent.prevHashPattern prev = true) :
    K.parseValid (consoleCommandLine C orgDomain host rec ts prevHash) = .ok e ↔
      AgentIdFits orgDomain host ∧ e = commandEvent orgDomain host rec ts prevHash := by
  have hplain := plain_commandValue orgDomain host rec ts prevHash
  have hdepth := (hplain.mono (show 2 ≤ recursionLimit by decide)).depth_le
  have hvalid : (K.checkLine (consoleCommandLine C orgDomain host rec ts prevHash)).valid = true ↔
      AgentIdFits orgDomain host := valid_checkLine_iff K rec ts hprev
  constructor
  · intro h
    refine ⟨hvalid.mp ?_, ?_⟩
    · by_contra hinvalid
      rw [Conformer.parseValid, if_neg hinvalid] at h
      cases h
    · have hvalue := K.ofValue_of_parseValid hplain.ordered hplain.integer hdepth h
      rw [ofValue_commandValue] at hvalue
      exact (Option.some.inj hvalue).symm
  · rintro ⟨hfits, rfl⟩
    have hdecode := K.decode_toText _ hplain.ordered hplain.integer hdepth
    rw [ofValue_commandValue] at hdecode
    rw [Conformer.parseValid, if_pos (hvalid.mpr hfits)]
    cases hline : K.decode (C.toText (commandValue orgDomain host rec ts prevHash)) with
    | error message =>
        rw [hline] at hdecode
        cases hdecode
    | ok e =>
        rw [hline] at hdecode
        rw [consoleCommandLine, hline, Option.some.inj hdecode]

end Parse

section Links

variable {C : Codec F recursionLimit} {sha256 : Bytes → Bytes}

theorem hexChar_of_mem_hexLower {bytes : Bytes} {c : Char} (h : c ∈ hexLower bytes) :
    AgentEvent.hexChar c = true :=
  forall_mem_hexLower (p := fun c => AgentEvent.hexChar c = true) (by decide) bytes c h

/-- The chain hash of a line fits the envelope. -/
theorem prevHashPattern_of_chainHashOfLine (hlength : ∀ bytes, (sha256 bytes).length = 32)
    {line hash : Text} (h : chainHashOfLine C sha256 line = some hash) :
    AgentEvent.prevHashPattern hash = true := by
  obtain ⟨value, -, rfl⟩ := Option.map_eq_some_iff.mp h
  refine AgentEvent.prevHashPattern_append ?_ fun c => hexChar_of_mem_hexLower
  rw [length_hexLower, hlength]

/-- The link in memory is a digest, if there is one. -/
def LinkFits (w : CommandBus F) : Prop :=
  ∀ sink, w.sink = some sink → ∀ prev, sink.next = some prev →
    AgentEvent.prevHashPattern prev = true

variable (hlength : ∀ bytes, (sha256 bytes).length = 32)
include hlength

/-- The link that a command gets is a digest, if there is one. -/
theorem prevHashPattern_of_sinkFor {w : CommandBus F} (hw : LinkFits w) {faults : Faults}
    {sink : ChainSink} (h : CommandBus.sinkFor C sha256 faults w = .ok sink) {prev : Text}
    (hprev : sink.next = some prev) : AgentEvent.prevHashPattern prev = true := by
  rw [CommandBus.sinkFor] at h
  split at h
  · cases h
  split at h
  · next existing hsink =>
      cases h
      exact hw _ hsink _ hprev
  split at h
  · cases h
  · cases h
    obtain ⟨line, -, hline⟩ := Option.bind_eq_some_iff.mp hprev
    exact prevHashPattern_of_chainHashOfLine hlength hline

/-- A write leaves a digest in memory. -/
theorem linkFits_appendChained {w : CommandBus F} {fault : Option (Nat × Text)}
    {sink : ChainSink} {build : Option Text → Text}
    (hsink : ∀ prev, sink.next = some prev → AgentEvent.prevHashPattern prev = true) :
    LinkFits (w.appendChained C sha256 fault sink build).2 := by
  rw [CommandBus.appendChained]
  split
  · intro s hs prev hprev
    cases hs
    exact hsink prev hprev
  · intro s hs prev hprev
    cases hs
    exact prevHashPattern_of_chainHashOfLine hlength hprev

/-- Every action leaves a digest in memory. -/
theorem linkFits_step (w : CommandBus F) (a : CommandAction F) (w' : CommandBus F)
    (hw : LinkFits w) (hstep : CommandBus.step C sha256 w a = some w') : LinkFits w' := by
  cases a with
  | restart =>
      cases hstep
      exact fun sink hsink => by cases hsink
  | record orgDomain host rec ts faults =>
      cases hstep
      cases hreach : w.reachesWrite rec faults with
      | false =>
          obtain ⟨rows, hrows⟩ :=
            CommandBus.record_of_not_reachesWrite C sha256 orgDomain host ts hreach
          rw [hrows]
          exact hw
      | true =>
          obtain ⟨sink, hsink, hrecord⟩ :=
            CommandBus.record_of_reachesWrite C sha256 orgDomain host ts hreach
          rw [hrecord]
          exact linkFits_appendChained hlength fun prev hprev =>
            prevHashPattern_of_sinkFor hlength hw hsink hprev

end Links

/-- A command that was recorded, on a bus that any run over any events file led to. -/
structure Recorded (C : Codec F recursionLimit) (sha256 : Bytes → Bytes) where
  digest_length : ∀ bytes, (sha256 bytes).length = 32
  file : Bytes
  actions : List (CommandAction F)
  before : CommandBus F
  reached : Transition.run (CommandBus.step C sha256) { file := file } actions = some before
  orgDomain : Text
  host : Text
  command : CommandRecord F
  ts : Text
  faults : Faults
  after : CommandBus F
  recorded : before.record C sha256 orgDomain host command ts faults = (.ok (), after)

namespace Recorded

variable {C : Codec F recursionLimit} {sha256 : Bytes → Bytes}

/-- What was appended is one line, and the store parses it as the outcome of the command on
the console, with the seven fields of the outcome and no others. -/
def ReachesStore (K : EnvelopeConformer C) (r : Recorded C sha256) : Prop :=
  ∃ line e, r.after.file = r.before.file ++ (Utf8.encode line ++ [10]) ∧
    10 ∉ Utf8.encode line ∧ K.parseValid line = .ok e ∧ e.source = "console".toList ∧
      e.eventType = "console_command".toList ∧ AgentEvent.agentIdPattern e.agentId = true ∧
        e.data = some (.object (ofMembers [
          ("action", .string r.command.action),
          ("target", .string r.command.target),
          ("decision", .string r.command.decision),
          ("sig_alg", .string r.command.sigAlg),
          ("sig_fpr", .string r.command.sigFpr),
          ("http_status", .number (.posInt r.command.httpStatus.toNat
            (lt_trans r.command.httpStatus.toNat_lt (by decide)))),
          ("verify_result", .string r.command.verifyResult)]))

/-- What was appended is the line of the command, with a digest for its link. -/
theorem exists_line (r : Recorded C sha256) : ∃ prevHash,
    r.after.file = r.before.file ++
        (Utf8.encode (consoleCommandLine C r.orgDomain r.host r.command r.ts prevHash) ++ [10]) ∧
      ∀ prev, prevHash = some prev → AgentEvent.prevHashPattern prev = true := by
  have hfits : LinkFits r.before := Transition.run_invariant
    (linkFits_step r.digest_length) r.reached fun sink hsink => by cases hsink
  have hrecorded := r.recorded
  unfold CommandBus.record at hrecorded
  split at hrecorded
  · cases hrecorded
  split at hrecorded
  · cases hrecorded
  split at hrecorded
  · cases hrecorded
  · next sink hsink =>
      -- journaling the command leaves the file and the link as they were
      have hlink : ∀ prev, sink.next = some prev → AgentEvent.prevHashPattern prev = true :=
        fun prev hprev => prevHashPattern_of_sinkFor r.digest_length (w := { r.before with
          commandsJournal := r.before.commandsJournal ++ [(r.ts, r.command)] }) hfits hsink hprev
      unfold CommandBus.appendChained at hrecorded
      dsimp only at hrecorded
      split at hrecorded
      · cases hrecorded
      · refine ⟨sink.next, ?_, hlink⟩
        rw [← (Prod.mk.inj hrecorded).2]

/-- What the console records reaches its store exactly when its agent id fits the envelope. -/
theorem reachesStore_iff (K : EnvelopeConformer C) (r : Recorded C sha256) :
    r.ReachesStore K ↔ AgentIdFits r.orgDomain r.host := by
  obtain ⟨prevHash, hfile, hprev⟩ := r.exists_line
  constructor
  · rintro ⟨line, e, happended, -, hparse, -⟩
    rw [hfile] at happended
    have hline := List.append_cancel_right (List.append_cancel_left happended)
    rw [← Utf8.encode_injective hline] at hparse
    exact ((parseValid_consoleCommandLine_iff K hprev).mp hparse).1
  · intro h
    have hvisible := visible_consoleCommandLine (C := C) r.orgDomain r.host r.command r.ts prevHash
    exact ⟨_, _, hfile, CommandBus.newline_notMem_of_visible hvisible,
      (parseValid_consoleCommandLine_iff K hprev).mpr ⟨h, rfl⟩, rfl, rfl, (agentIdFits_iff.mp h).1,
      rfl⟩

end Recorded

section Sample

/-- A digest of 32 bytes for everything. -/
def zeroDigest : Bytes → Bytes := fun _ => List.replicate 32 0

/-- The embedded schema for every version, with the decoder of the envelope. -/
def sampleEnvelope : EnvelopeConformer CommandBus.sampleCodec where
  isValid _ v := AgentEvent.schemaV0_2 (fun _ => false) v
  iterErrors _ _ := ["not valid under the schema"]
  debug := quote
  jsonError _ := "expected value at line 1 column 1"
  decode line :=
    match (CommandBus.sampleCodec.reader.fromStr line).bind AgentEvent.ofValue with
    | some e => .ok e
    | none => .error "missing field"
  decode_toText v hordered hinteger hdepth := by
    rw [CommandBus.sampleCodec.fromStr_toText hordered hinteger hdepth, Option.bind_some]
    cases AgentEvent.ofValue v <;> rfl
  integral _ := false
  isValid_v0_2 _ := rfl

/-- A killed run, recorded on a new events file under a domain with capital letters. -/
def capitalDomain : Recorded CommandBus.sampleCodec zeroDigest where
  digest_length _ := List.length_replicate
  file := []
  actions := []
  before := {}
  reached := rfl
  orgDomain := "Acme.Example"
  host := "box"
  command := CommandBus.killRun
  ts := "2026-09-20T10:00:00.000Z"
  faults := {}
  after := (CommandBus.record CommandBus.sampleCodec zeroDigest "Acme.Example" "box"
    CommandBus.killRun "2026-09-20T10:00:00.000Z" {} {}).2
  recorded := rfl

end Sample

/-- What is recorded under a domain with capital letters is refused by the console's own
store. -/
theorem capital_domain_refused :
    ¬ ∀ r : Recorded CommandBus.sampleCodec zeroDigest, r.ReachesStore sampleEnvelope := by
  intro h
  obtain ⟨line, e, happended, -, hparse, -⟩ := h capitalDomain
  obtain ⟨prevHash, hfile, hprev⟩ := capitalDomain.exists_line
  rw [hfile] at happended
  have hline := List.append_cancel_right (List.append_cancel_left happended)
  rw [← Utf8.encode_injective hline] at hparse
  have hfits := ((parseValid_consoleCommandLine_iff sampleEnvelope hprev).mp hparse).1
  exact absurd (hfits.domain 'A' (by decide)) (by decide)

end Genaryx.Command
