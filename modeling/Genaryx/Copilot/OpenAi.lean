import Genaryx.Base.Words
import Genaryx.Copilot.Anthropic

/-!
# The chat completions format

A message of a run as one JSON object, and the answer that is read back. In every request of a run
each tool call is followed by its answer, and an assistant's message is what the client would read
of it.

## Implementation notes

An answer is a JSON text of a value with the members that the client reads. The texts of the JSON
reader's errors are a parameter.
-/

namespace Genaryx.Copilot

open Json

variable {F : Type} (C : FullCodec F recursionLimit)

/-- One turn of the provider as it is read. -/
structure ChatTurn (F : Type) where
  content : Option Text
  toolCalls : List (ToolCall F)
  usage : Usage

section Write

/-- A tool call, with its arguments as a JSON text. -/
def ToolCall.toOpenai (c : ToolCall F) : Value F :=
  .object [
    ("function", .object [
      ("arguments", .string (C.toText c.arguments)),
      ("name", .string c.name)]),
    ("id", .string c.id),
    ("type", .string "function")]

def messageToOpenai (m : Message F) : Value F :=
  match m.role with
  | .system => .object [("content", .string m.content), ("role", .string "system")]
  | .user => .object [("content", .string m.content), ("role", .string "user")]
  | .tool =>
      .object [
        ("content", .string m.content),
        ("role", .string "tool"),
        ("tool_call_id", .string (m.toolCallId.getD []))]
  | .assistant =>
      if m.toolCalls.isEmpty then
        .object [("content", .string m.content), ("role", .string "assistant")]
      else
        .object [
          ("content", if m.content.isEmpty then .null else .string m.content),
          ("role", .string "assistant"),
          ("tool_calls", .array (m.toolCalls.map (ToolCall.toOpenai C)))]

/-- The messages of a request, after the system prompt if there is one. -/
def messagesToOpenai (system : Text) (messages : List (Message F)) : List (Value F) :=
  (if system.isEmpty then []
    else [.object [("content", .string system), ("role", .string "system")]]) ++
      messages.map (messageToOpenai C)

end Write

section Read

/-- The index that a token of a pointer is in an array. -/
def arrayIndex (token : Text) : Option Nat :=
  if token.head? = some '+' ∨ (token.head? = some '0' ∧ token.length ≠ 1) then none
  else Text.parseU64 token

/-- `Value::pointer`, by its tokens. -/
def pointer : Value F → List Text → Option (Value F)
  | v, [] => some v
  | .object members, token :: tokens => (members.lookup token).bind fun v => pointer v tokens
  | .array items, token :: tokens =>
      (arrayIndex token).bind fun i => items[i]?.bind fun v => pointer v tokens
  | _, _ :: _ => none

/-- `Value::as_u64`. -/
def asU64 : Value F → Option Nat
  | .number (.posInt n _) => some n
  | _ => none

def parseArguments (v : Value F) : Value F :=
  match v with
  | .string s => if (Text.trim s).isEmpty then .object [] else (C.reader.fromStr s).getD (.object [])
  | other => other

/-- The `i`-th tool call of an answer. -/
def parseCall (i : Nat) (call : Value F) : ToolCall F :=
  let func := call.get "function"
  { id := ((call.get "id").bind Value.asStr).getD ("call_" ++ Text.decimal i)
    name := ((func.bind fun f => f.get "name").bind Value.asStr).getD []
    arguments := ((func.bind fun f => f.get "arguments").map (parseArguments C)).getD (.object []) }

/-- `u32::try_from`, saturating. -/
def clamp (n : Nat) : Nat := if n < 2 ^ 32 then n else 2 ^ 32 - 1

def usageFrom (v : Value F) : Usage :=
  let count := fun field : Text => (pointer v ["usage", field]).bind asU64
  let prompt := (count "prompt_tokens").getD 0
  let completion := (count "completion_tokens").getD 0
  let output :=
    match count "total_tokens" with
    | some total => max completion (total - prompt)
    | none => completion
  ⟨clamp prompt, clamp output⟩

/-- The content and the tool calls of a message. -/
def parseMessage (message : Value F) : Option Text × List (ToolCall F) :=
  (((message.get "content").bind Value.asStr).filter fun s => !s.isEmpty,
    match (message.get "tool_calls").bind Value.asArray with
    | some calls => calls.mapIdx (parseCall C)
    | none => [])

def parseOpenaiResponse (jsonError : Text → Text) (text : Text) :
    Except ProviderError (ChatTurn F) :=
  match C.reader.fromStr text with
  | none => .error (.decode (jsonError text))
  | some v =>
      match pointer v ["choices", "0", "message"] with
      | none => .error (.decode "no choices[0].message")
      | some message =>
          let read := parseMessage C message
          .ok ⟨read.1, read.2, usageFrom v⟩

end Read

/-- The token counts that an answer reports. -/
structure Counts where
  completion : UInt64
  prompt : UInt64
  total : UInt64

/-- An answer with one message. -/
def completionOf (message : Value F) (counts : Counts) : Value F :=
  .object [
    ("choices", .array [.object [("message", message)]]),
    ("usage", .object [
      ("completion_tokens", .ofU64 counts.completion),
      ("prompt_tokens", .ofU64 counts.prompt),
      ("total_tokens", .ofU64 counts.total)])]

/-- What an answer is charged for: the prompt, and of the rest the larger of what is reported as
output and what is left of the total. -/
def Counts.charged (counts : Counts) : Usage where
  promptTokens := clamp counts.prompt.toNat
  completionTokens := clamp (max counts.completion.toNat (counts.total.toNat - counts.prompt.toNat))

/-- The role that a message says it has. -/
def roleOf (v : Value F) : Option Text := (v.get "role").bind Value.asStr

/-- The ids of the calls that a message makes. -/
def callIds (v : Value F) : List Text :=
  (((v.get "tool_calls").bind Value.asArray).getD []).filterMap fun call =>
    (call.get "id").bind Value.asStr

/-- The messages that are still to come answer the calls that are open, in order and before
anything else is said, and answer no other. -/
def Threaded : List Text → List (Value F) → Prop
  | [], [] => True
  | _ :: _, [] => False
  | [], v :: vs => roleOf v ≠ some "tool".toList ∧ Threaded (callIds v) vs
  | id :: ids, v :: vs =>
      roleOf v = some "tool".toList ∧ (v.get "tool_call_id").bind Value.asStr = some id ∧
        Threaded ids vs

section Written

/-- A value that is read back as it is: in order, with no doubles and no deeper than a bound. -/
structure Plainly (n : Nat) (v : Value F) : Prop where
  ordered : v.Ordered
  integer : v.AllNumbers Number.IsInteger
  depth_le : v.depth ≤ n

variable {n : Nat}

theorem plainly_string (s : Text) : Plainly n (.string s : Value F) :=
  ⟨trivial, trivial, Nat.zero_le n⟩

theorem plainly_u64 (k : UInt64) : Plainly n (.ofU64 k : Value F) :=
  ⟨trivial, trivial, Nat.zero_le n⟩

theorem plainly_array {items : List (Value F)} (h : ∀ v ∈ items, Plainly n v) :
    Plainly (n + 1) (.array items) := by
  have hitems : Value.ItemsOrdered items ∧ Value.AllItems Number.IsInteger items ∧
      Value.itemsDepth items ≤ n := by
    induction items with
    | nil => exact ⟨trivial, trivial, Nat.zero_le n⟩
    | cons v vs ih =>
        obtain ⟨hv, hvs⟩ := List.forall_mem_cons.mp h
        obtain ⟨hordered, hinteger, hdepth⟩ := ih hvs
        exact ⟨⟨hv.ordered, hordered⟩, ⟨hv.integer, hinteger⟩, Nat.max_le.mpr ⟨hv.depth_le, hdepth⟩⟩
  exact ⟨hitems.1, hitems.2.1, Nat.succ_le_succ hitems.2.2⟩

theorem plainly_object (keys : List Text) (hsorted : keys.Pairwise (· < ·))
    {members : List (Text × Value F)} (hkeys : members.map Prod.fst = keys)
    (h : ∀ m ∈ members, Plainly n m.2) : Plainly (n + 1) (.object members) where
  ordered := ⟨hkeys.symm ▸ hsorted, Value.membersOrdered_iff.mpr fun m hm => (h m hm).ordered⟩
  integer := Value.allMembers_iff.mpr fun m hm => (h m hm).integer
  depth_le := Nat.succ_le_succ (Value.membersDepth_le_iff.mpr fun m hm => (h m hm).depth_le)

theorem plainly_toOpenai (c : ToolCall F) : Plainly 2 (c.toOpenai C) := by
  apply plainly_object ["function", "id", "type"] (by decide) rfl
  simp only [List.forall_mem_cons]
  refine ⟨?_, plainly_string _, plainly_string _, fun _ h => absurd h List.not_mem_nil⟩
  apply plainly_object ["arguments", "name"] (by decide) rfl
  simp only [List.forall_mem_cons]
  exact ⟨plainly_string _, plainly_string _, fun _ h => absurd h List.not_mem_nil⟩

theorem plainly_messageToOpenai (m : Message F) : Plainly 4 (messageToOpenai C m) := by
  unfold messageToOpenai
  split
  · apply plainly_object ["content", "role"] (by decide) rfl
    simp only [List.forall_mem_cons]
    exact ⟨plainly_string _, plainly_string _, fun _ h => absurd h List.not_mem_nil⟩
  · apply plainly_object ["content", "role"] (by decide) rfl
    simp only [List.forall_mem_cons]
    exact ⟨plainly_string _, plainly_string _, fun _ h => absurd h List.not_mem_nil⟩
  · apply plainly_object ["content", "role", "tool_call_id"] (by decide) rfl
    simp only [List.forall_mem_cons]
    exact ⟨plainly_string _, plainly_string _, plainly_string _,
      fun _ h => absurd h List.not_mem_nil⟩
  · split
    · apply plainly_object ["content", "role"] (by decide) rfl
      simp only [List.forall_mem_cons]
      exact ⟨plainly_string _, plainly_string _, fun _ h => absurd h List.not_mem_nil⟩
    · apply plainly_object ["content", "role", "tool_calls"] (by decide) rfl
      simp only [List.forall_mem_cons]
      refine ⟨?_, plainly_string _, ?_, fun _ h => absurd h List.not_mem_nil⟩
      · split
        · exact ⟨trivial, trivial, Nat.zero_le _⟩
        · exact plainly_string _
      · apply plainly_array
        intro v hv
        obtain ⟨c, -, rfl⟩ := List.mem_map.mp hv
        exact plainly_toOpenai C c

theorem plainly_completionOf {message : Value F} (h : Plainly 4 message) (counts : Counts) :
    Plainly 7 (completionOf message counts) := by
  apply plainly_object ["choices", "usage"] (by decide) rfl
  simp only [List.forall_mem_cons]
  refine ⟨?_, ?_, fun _ h => absurd h List.not_mem_nil⟩
  · apply plainly_array
    simp only [List.forall_mem_cons]
    refine ⟨?_, fun _ h => absurd h List.not_mem_nil⟩
    apply plainly_object ["message"] (by decide) rfl
    simp only [List.forall_mem_cons]
    exact ⟨h, fun _ h => absurd h List.not_mem_nil⟩
  · apply plainly_object ["completion_tokens", "prompt_tokens", "total_tokens"] (by decide) rfl
    simp only [List.forall_mem_cons]
    exact ⟨plainly_u64 _, plainly_u64 _, plainly_u64 _, fun _ h => absurd h List.not_mem_nil⟩

end Written

section ReadBack

/-- What denotes a value is not blank. -/
theorem exists_visible {ofDecimal : OfDecimal F} {t : Text} {v : Value F}
    (h : Denotes ofDecimal t v) : ∃ c ∈ t, Text.isWhitespace c = false := by
  cases h with
  | null => exact ⟨'n', by decide, by decide⟩
  | true => exact ⟨'t', by decide, by decide⟩
  | false => exact ⟨'f', by decide, by decide⟩
  | number l n h =>
      obtain ⟨c, hc⟩ := List.exists_mem_of_ne_nil _ l.whole_digits.1.1
      refine ⟨c, ?_, ?_⟩
      · exact List.mem_append_right _ (List.mem_append_left _ hc)
      · have hdigit := l.whole_digits.1.2 c hc
        simp only [Char.isDigit, Bool.and_eq_true, decide_eq_true_eq, UInt32.le_iff_toNat_le]
          at hdigit
        simp only [Text.isWhitespace, Char.toNat, Bool.or_eq_false_iff, Bool.and_eq_false_iff,
          decide_eq_false_iff_not]
        grind
  | string h => exact ⟨'"', List.mem_cons_self, by decide⟩
  | array items h => exact ⟨'[', List.mem_cons_self, by decide⟩
  | object members hkeys h => exact ⟨'\x7b', List.mem_cons_self, by decide⟩

/-- Arguments that are written are read back. -/
theorem parseArguments_toText {v : Value F} (hordered : v.Ordered)
    (hdepth : v.depth ≤ recursionLimit) :
    parseArguments C (.string (C.toText v)) = v.mapNumbers C.reread := by
  obtain ⟨c, hc, hvisible⟩ := exists_visible (C.denotes_full v hordered)
  rw [parseArguments, List.isEmpty_eq_false_iff.mpr (Text.trim_ne_nil hc hvisible),
    C.fromStr_toText hordered hdepth]
  rfl

/-- The arguments of the calls can be read back. -/
def Rereadable (m : Message F) : Prop :=
  ∀ c ∈ m.toolCalls, c.arguments.Ordered ∧ c.arguments.depth ≤ recursionLimit

/-- A call as it is read back. -/
def ToolCall.reread (c : ToolCall F) : ToolCall F :=
  { c with arguments := c.arguments.mapNumbers C.reread }

theorem parseCall_toOpenai (i : Nat) {c : ToolCall F} (hordered : c.arguments.Ordered)
    (hdepth : c.arguments.depth ≤ recursionLimit) :
    parseCall C i (c.toOpenai C) = c.reread C := by
  have hargs := parseArguments_toText C hordered hdepth
  rw [ToolCall.reread, ← hargs]
  rfl

/-- What the client reads of an assistant's message is the message. -/
theorem parseMessage_messageToOpenai {m : Message F} (hrole : m.role = .assistant)
    (hrereadable : Rereadable m) :
    parseMessage C (messageToOpenai C m) =
      (if m.content.isEmpty then none else some m.content, m.toolCalls.map (ToolCall.reread C)) := by
  rw [messageToOpenai, hrole]
  cases hcalls : m.toolCalls with
  | nil =>
      cases hcontent : m.content with
      | nil => rfl
      | cons c cs => rfl
  | cons call calls =>
      have hread : ((call :: calls).map (ToolCall.toOpenai C)).mapIdx (parseCall C) =
          (call :: calls).map (ToolCall.reread C) := by
        apply List.ext_getElem
        · simp
        · intro i hi _
          rw [List.length_mapIdx, List.length_map] at hi
          have hmem : (call :: calls)[i] ∈ m.toolCalls := by
            rw [hcalls]
            exact List.getElem_mem hi
          obtain ⟨hordered, hdepth⟩ := hrereadable _ hmem
          rw [List.getElem_mapIdx, List.getElem_map, List.getElem_map]
          exact parseCall_toOpenai C i hordered hdepth
      rw [← hread]
      cases hcontent : m.content with
      | nil => rfl
      | cons c cs => rfl

/-- The answer that has an assistant's message is read as that message, and charged by its
counts. -/
theorem parse_completionOf (jsonError : Text → Text) {m : Message F} (hrole : m.role = .assistant)
    (hrereadable : Rereadable m) (counts : Counts) :
    parseOpenaiResponse C jsonError (C.toText (completionOf (messageToOpenai C m) counts)) =
      .ok ⟨if m.content.isEmpty then none else some m.content,
        m.toolCalls.map (ToolCall.reread C), counts.charged⟩ := by
  obtain ⟨hordered, hinteger, hdepth⟩ := plainly_completionOf (plainly_messageToOpenai C m) counts
  have hread := C.toCodec.fromStr_toText hordered hinteger (hdepth.trans (by decide))
  rw [parseOpenaiResponse, hread]
  have hpointer : pointer (completionOf (messageToOpenai C m) counts) ["choices", "0", "message"] =
      some (messageToOpenai C m) := rfl
  simp only [hpointer, parseMessage_messageToOpenai C hrole hrereadable]
  rfl

/-- A value can be written and read back: it is in order, and nests no deeper than the limit. -/
def Within (v : Value F) : Prop := v.Ordered ∧ v.depth ≤ recursionLimit

theorem within_empty : Within (.object [] : Value F) :=
  ⟨⟨.nil, trivial⟩, Nat.le_of_ble_eq_true rfl⟩

theorem within_item {items : List (Value F)} {v : Value F} (h : Within (.array items))
    (hv : v ∈ items) : Within v := by
  have hdepth : Value.itemsDepth items ≤ recursionLimit := (Nat.le_succ _).trans h.2
  exact ⟨Value.itemsOrdered_iff.mp h.1 v hv, Value.itemsDepth_le_iff.mp hdepth v hv⟩

theorem within_get {v w : Value F} {key : Text} (h : Within v) (hw : v.get key = some w) :
    Within w := by
  cases v with
  | object members =>
      obtain ⟨before, after, hmembers, -⟩ := List.lookup_eq_some_iff.mp hw
      have hmem : (key, w) ∈ members := hmembers ▸ by simp
      have hdepth : Value.membersDepth members ≤ recursionLimit := (Nat.le_succ _).trans h.2
      exact ⟨Value.membersOrdered_iff.mp h.1.2 _ hmem, Value.membersDepth_le_iff.mp hdepth _ hmem⟩
  | _ => cases hw

/-- What a pointer leads to is within the limit where the whole is. -/
theorem within_pointer {v w : Value F} {tokens : List Text} (h : Within v)
    (hw : pointer v tokens = some w) : Within w := by
  induction tokens generalizing v with
  | nil =>
      rw [pointer] at hw
      cases hw
      exact h
  | cons token tokens ih =>
      cases v with
      | object members =>
          obtain ⟨u, hu, hw⟩ := Option.bind_eq_some_iff.mp hw
          exact ih (within_get (v := .object members) h hu) hw
      | array items =>
          obtain ⟨i, -, hw⟩ := Option.bind_eq_some_iff.mp hw
          obtain ⟨u, hu, hw⟩ := Option.bind_eq_some_iff.mp hw
          exact ih (within_item h (List.mem_of_getElem? hu)) hw
      | _ => cases hw

theorem within_parseArguments (hreader : C.reader.Bounded) {v : Value F} (h : Within v) :
    Within (parseArguments C v) := by
  cases v with
  | string s =>
      rw [parseArguments]
      split
      · exact within_empty
      · cases hread : C.reader.fromStr s with
        | none => exact within_empty
        | some w => exact hreader s w hread
  | _ => exact h

/-- The calls that the client reads of an answer have arguments that can be written and read
back. -/
theorem within_of_parse (hreader : C.reader.Bounded) {jsonError : Text → Text} {text : Text}
    {turn : ChatTurn F} (h : parseOpenaiResponse C jsonError text = .ok turn) :
    ∀ call ∈ turn.toolCalls, Within call.arguments := by
  unfold parseOpenaiResponse at h
  split at h
  · cases h
  next v hread =>
    split at h
    · cases h
    next message hmessage =>
      cases h
      have hwithin := within_pointer (hreader text v hread) hmessage
      intro call hcall
      dsimp only [parseMessage] at hcall
      split at hcall
      next calls hcalls =>
          obtain ⟨i, hi, rfl⟩ := List.mem_mapIdx.mp hcall
          obtain ⟨w, hw, hcalls⟩ := Option.bind_eq_some_iff.mp hcalls
          obtain rfl : w = .array calls := by
            cases w with
            | array items => cases hcalls; rfl
            | _ => cases hcalls
          have hitem := within_item (within_get hwithin hw) (List.getElem_mem hi)
          rw [parseCall]
          cases hargs : (calls[i].get "function").bind fun f => f.get "arguments" with
          | none => exact within_empty
          | some v =>
              obtain ⟨f, hf, hv⟩ := Option.bind_eq_some_iff.mp hargs
              exact within_parseArguments C hreader (within_get (within_get hitem hf) hv)
      next => exact absurd hcall List.not_mem_nil

/-- A model whose replies are what the client reads of its answers gives only such calls. -/
theorem within_of_answers (hreader : C.reader.Bounded) {jsonError : Text → Text}
    {provider : Nat → Except ProviderError (Reply F)}
    (hanswers : ∀ n reply, provider n = .ok reply → ∃ text turn,
      parseOpenaiResponse C jsonError text = .ok turn ∧ reply.calls.map Prod.fst = turn.toolCalls) :
    ∀ n reply, provider n = .ok reply → ∀ call ∈ reply.calls, Within call.1.arguments := by
  intro n reply hreply call hcall
  obtain ⟨text, turn, hparse, hcalls⟩ := hanswers n reply hreply
  exact within_of_parse C hreader hparse call.1 (hcalls ▸ List.mem_map_of_mem hcall)

end ReadBack

section Runs

theorem Threaded.append {ids : List Text} {a b : List (Value F)} (ha : Threaded ids a)
    (hb : Threaded [] b) : Threaded ids (a ++ b) := by
  induction a generalizing ids with
  | nil =>
      cases ids with
      | nil => exact hb
      | cons id ids => exact ha.elim
  | cons v vs ih =>
      cases ids with
      | nil => exact ⟨ha.1, ih ha.2⟩
      | cons id ids => exact ⟨ha.1, ha.2.1, ih ha.2.2⟩

/-- The answers to calls close them. -/
theorem threaded_results {calls : List (ToolCall F)} {results : List (Message F)}
    (h : List.Forall₂ Message.Answers results calls) :
    Threaded (calls.map ToolCall.id) (results.map (messageToOpenai C)) := by
  induction h with
  | nil => trivial
  | @cons m call results calls hm _ ih =>
      obtain ⟨hrole, hid⟩ := hm
      have hwire : messageToOpenai C m = .object [
          ("content", .string m.content),
          ("role", .string "tool"),
          ("tool_call_id", .string call.id)] := by
        rw [messageToOpenai, hrole, hid]
        rfl
      refine ⟨?_, ?_, ih⟩
      · rw [hwire]
        rfl
      · rw [hwire]
        rfl

theorem callIds_calls (content : Option Text) (calls : List (ToolCall F)) :
    roleOf (messageToOpenai C (.assistantToolCalls content calls)) = some "assistant".toList ∧
      callIds (messageToOpenai C (.assistantToolCalls content calls)) = calls.map ToolCall.id := by
  have hids : ∀ calls : List (ToolCall F), (calls.map (ToolCall.toOpenai C)).filterMap
      (fun call => (call.get "id").bind Value.asStr) = calls.map ToolCall.id := by
    intro calls
    rw [List.filterMap_map]
    exact congrFun List.filterMap_eq_map' calls
  cases calls with
  | nil => exact ⟨rfl, rfl⟩
  | cons call calls =>
      refine ⟨rfl, ?_⟩
      rw [← hids]
      rfl

/-- A turn that calls tools, with the answers. -/
theorem threaded_calls (content : Option Text) {calls : List (ToolCall F)}
    {results : List (Message F)} (h : List.Forall₂ Message.Answers results calls) :
    Threaded []
      ((Message.assistantToolCalls content calls :: results).map (messageToOpenai C)) := by
  obtain ⟨hrole, hids⟩ := callIds_calls C content calls
  refine ⟨?_, ?_⟩
  · rw [hrole]
    decide
  · rw [hids]
    exact threaded_results C h

theorem threaded_user (text : Text) :
    Threaded [] [messageToOpenai C (.user text : Message F)] := by
  refine ⟨?_, trivial⟩
  change some "user".toList ≠ some "tool".toList
  decide

variable {C} {felyx : Felyx F} {brief : Brief} {case : Option (CaseRead F)}

/-- What holds of the messages at the start and is kept by every round that goes on holds of every
request. -/
theorem forall_requests {P : List (Message F) → Prop}
    {provider : Nat → Except ProviderError (Reply F)}
    (hround : ∀ n reply, provider n = .ok reply → ∀ s next : Conversation F, P s.messages →
      felyx.round brief case s reply = .inl next → P next.messages)
    {left n : Nat} {s : Conversation F} (hs : P s.messages) :
    ∀ request ∈ (felyx.rounds brief case provider left n s).requests, P request := by
  induction left generalizing n s with
  | zero => exact fun _ h => absurd h List.not_mem_nil
  | succ left ih =>
      rw [Felyx.rounds]
      split
      · exact List.forall_mem_singleton.mpr hs
      · next reply hreply =>
          split
          · exact List.forall_mem_singleton.mpr hs
          · next next hnext =>
              exact List.forall_mem_cons.mpr ⟨hs, ih (hround n reply hreply s next hs hnext)⟩

/-- A message list that can be sent: its calls are answered, and the arguments that the assistant
gave can be read back. -/
structure Sendable (C : FullCodec F recursionLimit) (messages : List (Message F)) : Prop where
  threaded : Threaded [] (messages.map (messageToOpenai C))
  rereadable : ∀ m ∈ messages, m.role = .assistant → Rereadable m

theorem Sendable.append {a b : List (Message F)} (ha : Sendable C a) (hb : Sendable C b) :
    Sendable C (a ++ b) where
  threaded := by
    rw [List.map_append]
    exact ha.threaded.append hb.threaded
  rereadable := List.forall_mem_append.mpr ⟨ha.rereadable, hb.rereadable⟩

theorem sendable_user (text : Text) : Sendable C [(.user text : Message F)] where
  threaded := threaded_user C text
  rereadable := List.forall_mem_singleton.mpr nofun

/-- A round adds a turn and what answers it. -/
theorem Sendable.round {s next : Conversation F} {reply : Reply F} (h : Sendable C s.messages)
    (hreply : ∀ call ∈ reply.calls,
      call.1.arguments.Ordered ∧ call.1.arguments.depth ≤ recursionLimit)
    (hround : felyx.round brief case s reply = .inl next) : Sendable C next.messages := by
  rcases round_inl hround with ⟨-, request, hmessages, -⟩ | ⟨-, results, hresults, hmessages⟩
  · rw [hmessages]
    apply h.append
    constructor
    · exact Threaded.append (threaded_calls C _ .nil) (threaded_user C request)
    · simp only [List.forall_mem_cons]
      exact ⟨fun _ c hc => absurd hc List.not_mem_nil, nofun, fun _ h => absurd h List.not_mem_nil⟩
  · rw [hmessages]
    apply h.append
    constructor
    · exact threaded_calls C reply.content hresults
    · refine List.forall_mem_cons.mpr ⟨?_, ?_⟩
      · intro _ c hc
        obtain ⟨call, hcall, rfl⟩ := List.mem_map.mp hc
        exact hreply call hcall
      · intro m hm hrole
        obtain ⟨-, -, hroles, -⟩ := blocks_results hresults
        exact absurd (hrole.symm.trans (hroles m hm)) nofun

variable (C)

/-- In every request of a run each tool call is answered, in order and before anything else is
said, and no other call is. And each turn of the assistant in it is what the client reads of an
answer that says it, up to how the numbers in its arguments are read back, whatever the tokens
that the answer reports. -/
theorem openai_transcripts (felyx : Felyx F) (brief : Brief) (case : Option (CaseRead F))
    (question system : Text) {provider : Nat → Except ProviderError (Reply F)}
    (hprovider : ∀ n reply, provider n = .ok reply → ∀ call ∈ reply.calls,
      call.1.arguments.Ordered ∧ call.1.arguments.depth ≤ recursionLimit) :
    ∀ request ∈ (felyx.runWith brief case question provider).requests,
      Threaded [] (messagesToOpenai C system request) ∧
        ∀ m ∈ request, m.role = .assistant → ∀ jsonError counts,
          parseOpenaiResponse C jsonError (C.toText (completionOf (messageToOpenai C m) counts)) =
            .ok ⟨if m.content.isEmpty then none else some m.content,
              m.toolCalls.map (ToolCall.reread C), counts.charged⟩ := by
  have hstart : Sendable C (felyx.start brief case question).messages := by
    rw [messages_start]
    exact sendable_user question
  intro request hrequest
  have hsendable : Sendable C request := by
    apply forall_requests _ hstart request hrequest
    intro n reply hreply s next hs hround
    exact hs.round (hprovider n reply hreply) hround
  constructor
  · rw [messagesToOpenai]
    split
    · exact hsendable.threaded
    · refine ⟨?_, hsendable.threaded⟩
      change some "system".toList ≠ some "tool".toList
      decide
  · intro m hm hrole jsonError counts
    exact parse_completionOf C jsonError hrole (hsendable.rereadable m hm hrole) counts

end Runs

section Sample

/-- A call for the budgets. -/
def budgetsCall : ToolCall Empty := ⟨"call_1", "budgets", .object []⟩

/-- A model that asks for the budgets once and then answers. -/
def askingModel : Nat → Except ProviderError (Reply Empty)
  | 0 => .ok { content := none, calls := [(budgetsCall, .ok (.object []))] }
  | _ => .ok { content := some "There are no budgets." }

/-- What the model replies is what the client reads of its answers. -/
theorem askingModel_answers (n : Nat) (reply : Reply Empty) (h : askingModel n = .ok reply) :
    ∃ text turn, parseOpenaiResponse (FullCodec.ofEmpty recursionLimit) id text = .ok turn ∧
      reply.calls.map Prod.fst = turn.toolCalls := by
  let answer (calls : List (ToolCall Empty)) : Message Empty := .assistantToolCalls none calls
  have hread : ∀ calls : List (ToolCall Empty), (∀ c ∈ calls, c = budgetsCall) → ∃ text turn,
      parseOpenaiResponse (FullCodec.ofEmpty recursionLimit) id text = .ok turn ∧
        calls = turn.toolCalls := by
    intro calls hcalls
    have hrereadable : Rereadable (answer calls) := fun c hc =>
      hcalls c hc ▸ ⟨⟨.nil, trivial⟩, by decide⟩
    refine ⟨_, _, parse_completionOf _ id rfl hrereadable ⟨0, 0, 0⟩, ?_⟩
    have hsame : calls.map (ToolCall.reread (FullCodec.ofEmpty recursionLimit)) = calls.map id :=
      List.map_congr_left fun c hc => by rw [hcalls c hc]; rfl
    exact (hsame.trans (List.map_id calls)).symm
  unfold askingModel at h
  split at h <;> cases h
  · exact hread [budgetsCall] fun c hc => List.mem_singleton.mp hc
  · exact hread [] fun c hc => absurd hc List.not_mem_nil

theorem openai_transcripts_askingModel :
    (sampleFelyx.answer "What are my budgets?" askingModel).requests.length = 2 ∧
      ∀ request ∈ (sampleFelyx.answer "What are my budgets?" askingModel).requests,
        Threaded [] (messagesToOpenai (FullCodec.ofEmpty recursionLimit) "" request) ∧
          ∀ m ∈ request, m.role = .assistant → ∀ jsonError counts,
            parseOpenaiResponse (FullCodec.ofEmpty recursionLimit) jsonError
                ((FullCodec.ofEmpty recursionLimit).toText
                  (completionOf (messageToOpenai (FullCodec.ofEmpty recursionLimit) m) counts)) =
              .ok ⟨if m.content.isEmpty then none else some m.content,
                m.toolCalls.map (ToolCall.reread (FullCodec.ofEmpty recursionLimit)),
                counts.charged⟩ :=
  ⟨by decide +kernel, openai_transcripts (FullCodec.ofEmpty recursionLimit) sampleFelyx _ none
    "What are my budgets?" ""
    (within_of_answers _ (bounded_ofRead recursionLimit) askingModel_answers)⟩

end Sample

end Genaryx.Copilot
