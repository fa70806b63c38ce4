import Genaryx.Copilot.Agent

/-!
# The transcript of the Anthropic Messages API

The message list of a run folds into user and assistant messages of content blocks: a run of tool
results becomes one user message. Along every run the transcript is well formed, except where an
empty draft is sent back for revision.
-/

namespace Genaryx.Copilot

open Json

variable {F : Type}

/-- A content block. -/
inductive Block (F : Type)
  | text (text : Text)
  | toolUse (id name : Text) (input : Value F)
  | toolResult (toolUseId content : Text)

/-- A message as the API takes it. -/
structure WireMessage (F : Type) where
  fromUser : Bool
  content : List (Block F)

def Block.toJson : Block F → Value F
  | text t => .object [("text".toList, .string t), ("type".toList, .string "text".toList)]
  | toolUse id name input =>
      .object [("id".toList, .string id), ("input".toList, input), ("name".toList, .string name),
        ("type".toList, .string "tool_use".toList)]
  | toolResult toolUseId content =>
      .object [("content".toList, .string content), ("tool_use_id".toList, .string toolUseId),
        ("type".toList, .string "tool_result".toList)]

def WireMessage.toJson (w : WireMessage F) : Value F :=
  .object [("content".toList, .array (w.content.map Block.toJson)),
    ("role".toList, .string (if w.fromUser then "user" else "assistant").toList)]

/-- The tool results that wait for a message of another role. -/
def flush (pending : List (Block F)) : List (WireMessage F) :=
  if pending.isEmpty then [] else [⟨true, pending⟩]

/-- The blocks of a message. -/
def Message.blocks (m : Message F) : List (Block F) :=
  match m.role with
  | .system => []
  | .tool => [.toolResult (m.toolCallId.getD []) m.content]
  | .user => [.text m.content]
  | .assistant =>
      (if m.content.isEmpty then [] else [.text m.content]) ++
        m.toolCalls.map fun c => .toolUse c.id c.name c.arguments

/-- Fold the rest of a message list, while tool results wait. -/
def foldMessages : List (Block F) → List (Message F) → List (WireMessage F)
  | pending, [] => flush pending
  | pending, m :: ms =>
      match m.role with
      | .system => foldMessages pending ms
      | .tool => foldMessages (pending ++ m.blocks) ms
      | .user => flush pending ++ ⟨true, m.blocks⟩ :: foldMessages [] ms
      | .assistant => flush pending ++ ⟨false, m.blocks⟩ :: foldMessages [] ms

def messagesToAnthropic (messages : List (Message F)) : List (WireMessage F) :=
  foldMessages [] messages

/-- The ids of the tool calls among blocks. -/
def toolUses (blocks : List (Block F)) : List Text :=
  blocks.filterMap fun
    | .toolUse id _ _ => some id
    | _ => none

/-- The ids of the calls that tool results among blocks answer. -/
def toolResults (blocks : List (Block F)) : List Text :=
  blocks.filterMap fun
    | .toolResult id _ => some id
    | _ => none

/-- Each tool call is answered in the message after it, in order. -/
def Answered : List (WireMessage F) → Prop
  | [] => True
  | w :: rest =>
      (toolUses w.content ≠ [] →
        ∃ next, rest.head? = some next ∧ next.fromUser = true ∧
          toolResults next.content = toolUses w.content) ∧ Answered rest

/-- Whether a message reaches the API as the user's, which tool results do. -/
def Message.isUsers (m : Message F) : Bool := m.role ≠ .assistant

/-- What of a message the API must see, and whether as the user's: the result of a tool under the
id of its call, the text of a user, the text of an assistant if there is one, and after it the
calls. -/
def Message.kept (m : Message F) : List (Bool × Block F) :=
  match m.role with
  | .system => []
  | .tool => [(true, .toolResult (m.toolCallId.getD []) m.content)]
  | .user => [(true, .text m.content)]
  | .assistant =>
      (if m.content = [] then [] else [(false, .text m.content)]) ++
        m.toolCalls.map fun c => (false, .toolUse c.id c.name c.arguments)

theorem Message.kept_eq (m : Message F) : m.kept = m.blocks.map fun b => (m.isUsers, b) := by
  unfold Message.kept Message.blocks Message.isUsers
  cases hrole : m.role with
  | system => rfl
  | user => rfl
  | assistant =>
      cases m.content with
      | nil => simp
      | cons c rest => simp
  | tool => rfl

/-- A transcript is well formed. -/
structure WellFormed (messages : List (Message F)) : Prop where
  /-- Every text, tool call and tool result is kept once and in order. -/
  keeps : (messagesToAnthropic messages).flatMap (fun w => w.content.map fun b => (w.fromUser, b)) =
    messages.flatMap Message.kept
  filled : ∀ w ∈ messagesToAnthropic messages, w.content ≠ []
  answered : Answered (messagesToAnthropic messages)

/-- Whether a reply is a draft without text. -/
def Reply.isEmptyDraft (reply : Reply F) : Bool :=
  reply.calls.isEmpty && (reply.content.getD []).isEmpty

namespace Felyx

variable (felyx : Felyx F) (brief : Brief) (case : Option (CaseRead F))

/-- A draft without text is sent back: it explains an incident that no tool returned, and no draft
was sent back before. -/
def SendsEmpty (s : Conversation F) (reply : Reply F) : Prop :=
  reply.isEmptyDraft = true ∧ s.revised = false ∧
    ∃ id ∈ brief.incident, s.evidence.groundedAs felyx.library .incident id = false

/-- In no round that a request follows is an empty draft sent back. -/
def NeverEmpty (provider : Nat → Except ProviderError (Reply F)) :
    Nat → Nat → Conversation F → Prop
  | 0, _, _ => True
  | left + 1, n, s =>
      match provider n with
      | .error _ => True
      | .ok reply =>
          (left ≠ 0 → ¬ felyx.SendsEmpty brief s reply) ∧
            match felyx.round brief case s reply with
            | .inr _ => True
            | .inl next => NeverEmpty provider left (n + 1) next

end Felyx

section Fold

variable {ms rest : List (Message F)} {m : Message F}

/-- A message of the user or of the assistant begins anew. -/
theorem foldMessages_append (hm : m.role = .user ∨ m.role = .assistant)
    (pending : List (Block F)) :
    foldMessages pending (ms ++ m :: rest) = foldMessages pending ms ++ foldMessages [] (m :: rest) := by
  induction ms generalizing pending with
  | nil =>
      rcases hm with hm | hm <;> simp only [List.nil_append, foldMessages, hm] <;> rfl
  | cons first ms ih =>
      rw [List.cons_append, foldMessages, foldMessages]
      split
      · exact ih pending
      · exact ih _
      · rw [ih, List.append_assoc]
        rfl
      · rw [ih, List.append_assoc]
        rfl

theorem foldMessages_tools (hms : ∀ m ∈ ms, m.role = .tool) (pending : List (Block F)) :
    foldMessages pending ms = flush (pending ++ ms.flatMap Message.blocks) := by
  induction ms generalizing pending with
  | nil => simp [foldMessages]
  | cons first ms ih =>
      obtain ⟨hfirst, hrest⟩ := List.forall_mem_cons.mp hms
      rw [foldMessages, hfirst]
      simp only
      rw [ih hrest, List.flatMap_cons, List.append_assoc]

/-- The blocks of every assistant message are a message of the transcript. -/
theorem exists_wire (hm : m ∈ ms) (hrole : m.role = .assistant) (pending : List (Block F)) :
    ∃ w ∈ foldMessages pending ms, w.content = m.blocks := by
  induction ms generalizing pending with
  | nil => cases hm
  | cons first ms ih =>
      rcases List.mem_cons.mp hm with rfl | hm
      · refine ⟨⟨false, m.blocks⟩, ?_, rfl⟩
        rw [foldMessages, hrole]
        exact List.mem_append_right _ List.mem_cons_self
      · rw [foldMessages]
        split
        · exact ih hm pending
        · exact ih hm _
        · obtain ⟨w, hw, hcontent⟩ := ih hm []
          exact ⟨w, List.mem_append_right _ (List.mem_cons_of_mem _ hw), hcontent⟩
        · obtain ⟨w, hw, hcontent⟩ := ih hm []
          exact ⟨w, List.mem_append_right _ (List.mem_cons_of_mem _ hw), hcontent⟩

theorem Answered.append {a b : List (WireMessage F)} (ha : Answered a) (hb : Answered b) :
    Answered (a ++ b) := by
  induction a with
  | nil => exact hb
  | cons w a ih =>
      obtain ⟨hfirst, hrest⟩ := ha
      refine ⟨fun hcalls => ?_, ih hrest⟩
      obtain ⟨next, hnext, hanswer⟩ := hfirst hcalls
      refine ⟨next, ?_, hanswer⟩
      show (a ++ b).head? = some next
      rw [List.head?_append, hnext]
      rfl

theorem WellFormed.append (h : WellFormed ms) (hm : m.role = .user ∨ m.role = .assistant)
    (hrest : WellFormed (m :: rest)) : WellFormed (ms ++ m :: rest) := by
  have hfold : messagesToAnthropic (ms ++ m :: rest) =
      messagesToAnthropic ms ++ messagesToAnthropic (m :: rest) := foldMessages_append hm []
  constructor
  · rw [hfold, List.flatMap_append, List.flatMap_append, h.keeps, hrest.keeps]
  · rw [hfold]
    exact List.forall_mem_append.mpr ⟨h.filled, hrest.filled⟩
  · rw [hfold]
    exact h.answered.append hrest.answered

/-- A message with one text is a transcript by itself. -/
theorem wellFormed_user (text : Text) : WellFormed [(.user text : Message F)] := by
  constructor
  · rfl
  · exact List.forall_mem_singleton.mpr (List.cons_ne_nil _ _)
  · exact ⟨fun h => absurd rfl h, trivial⟩

/-- A draft with text and the request to revise it. -/
theorem wellFormed_draft {text : Text} (hne : text ≠ []) (request : Text) :
    WellFormed [(.assistantToolCalls (some text) [] : Message F), .user request] := by
  have hblocks : (Message.assistantToolCalls (some text) [] : Message F).blocks = [.text text] := by
    rw [Message.blocks, Message.assistantToolCalls, Option.getD_some,
      List.isEmpty_eq_false_iff.mpr hne]
    rfl
  have hfold : messagesToAnthropic
      [(.assistantToolCalls (some text) [] : Message F), .user request] =
        [⟨false, [.text text]⟩, ⟨true, [.text request]⟩] := by
    rw [← hblocks]
    rfl
  constructor
  · have hmessages : [(.assistantToolCalls (some text) [] : Message F), .user request].flatMap
        Message.kept = (.assistantToolCalls (some text) [] : Message F).kept ++
          [(true, .text request)] := rfl
    rw [hfold, hmessages, Message.kept_eq, hblocks]
    rfl
  · rw [hfold]
    simp
  · rw [hfold]
    exact ⟨fun h => absurd rfl h, fun h => absurd rfl h, trivial⟩

/-- A message that is the result of a call. -/
def Message.Answers (m : Message F) (call : ToolCall F) : Prop :=
  m.role = .tool ∧ m.toolCallId = some call.id

theorem toolUses_calls (content : Option Text) (calls : List (ToolCall F)) :
    toolUses (Message.assistantToolCalls content calls).blocks = calls.map ToolCall.id := by
  have huses : ∀ calls : List (ToolCall F),
      toolUses (calls.map fun c => Block.toolUse c.id c.name c.arguments) =
        calls.map ToolCall.id := by
    intro calls
    rw [toolUses, List.filterMap_map]
    exact congrFun List.filterMap_eq_map' calls
  rw [Message.blocks, Message.assistantToolCalls]
  simp only
  rw [toolUses, List.filterMap_append]
  split
  · exact huses calls
  · exact huses calls

/-- The results of calls, as blocks. -/
theorem blocks_results {calls : List (ToolCall F)} {results : List (Message F)}
    (hresults : List.Forall₂ Message.Answers results calls) :
    toolResults (results.flatMap Message.blocks) = calls.map ToolCall.id ∧
      toolUses (results.flatMap Message.blocks) = [] ∧ (∀ m ∈ results, m.role = .tool) ∧
        results.flatMap Message.kept = (results.flatMap Message.blocks).map fun b => (true, b) := by
  induction hresults with
  | nil => exact ⟨rfl, rfl, fun _ h => absurd h List.not_mem_nil, rfl⟩
  | @cons m call results calls hm _ ih =>
      obtain ⟨hrole, hid⟩ := hm
      obtain ⟨hanswers, huses, hroles, hblocks⟩ := ih
      have hfirst : m.blocks = [.toolResult call.id m.content] := by
        rw [Message.blocks, hrole, hid]
        rfl
      have husers : m.isUsers = true := by
        rw [Message.isUsers, hrole]
        rfl
      refine ⟨?_, ?_, List.forall_mem_cons.mpr ⟨hrole, hroles⟩, ?_⟩
      · rw [List.flatMap_cons, hfirst, toolResults, List.filterMap_append, List.map_cons]
        exact congrArg (call.id :: ·) hanswers
      · rw [List.flatMap_cons, hfirst, toolUses, List.filterMap_append]
        exact huses
      · rw [List.flatMap_cons, List.flatMap_cons, List.map_append, hblocks, Message.kept_eq,
          husers]

/-- A turn that calls tools and their results. -/
theorem wellFormed_calls (content : Option Text) {calls : List (ToolCall F)}
    {results : List (Message F)} (hne : calls ≠ [])
    (hresults : List.Forall₂ Message.Answers results calls) :
    WellFormed (.assistantToolCalls content calls :: results) := by
  obtain ⟨hanswers, hnone, hroles, hblocks⟩ := blocks_results hresults
  have hids : calls.map ToolCall.id ≠ [] := by simpa using hne
  have hsome : results.flatMap Message.blocks ≠ [] := by
    intro h
    rw [h] at hanswers
    exact hids hanswers.symm
  have huses := toolUses_calls content calls
  set asked := Message.assistantToolCalls content calls with hasked
  have hfold : messagesToAnthropic (asked :: results) =
      [⟨false, asked.blocks⟩, ⟨true, results.flatMap Message.blocks⟩] := by
    have htools := foldMessages_tools hroles []
    rw [List.nil_append, flush, List.isEmpty_eq_false_iff.mpr hsome] at htools
    rw [messagesToAnthropic, foldMessages, htools]
    rfl
  constructor
  · rw [hfold, List.flatMap_cons, List.flatMap_singleton, List.flatMap_cons, hblocks,
      Message.kept_eq]
    rfl
  · rw [hfold]
    refine List.forall_mem_cons.mpr ⟨?_, List.forall_mem_singleton.mpr hsome⟩
    intro h
    rw [show asked.blocks = [] from h] at huses
    exact hids huses.symm
  · rw [hfold]
    exact ⟨fun _ => ⟨_, rfl, rfl, hanswers.trans huses.symm⟩, fun h => absurd hnone h, trivial⟩

/-- A transcript with an empty assistant message is not well formed. -/
theorem not_wellFormed_of_empty (hm : m ∈ ms) (hrole : m.role = .assistant)
    (hempty : m.blocks = []) : ¬ WellFormed ms := by
  intro h
  obtain ⟨w, hw, hcontent⟩ := exists_wire hm hrole []
  exact h.filled w hw (hcontent.trans hempty)

end Fold

section Loop

variable {felyx : Felyx F} {brief : Brief} {case : Option (CaseRead F)} {s next : Conversation F}

theorem messages_sayBack (call : ToolCall F) (v : Value F) (done : Bool) (s : Conversation F) :
    ∃ m : Message F, m.Answers call ∧ (felyx.sayBack call v done s).messages = s.messages ++ [m] :=
  ⟨_, ⟨rfl, rfl⟩, rfl⟩

theorem messages_proposed (call : ToolCall F) (v : Value F) (done : Bool) (s : Conversation F) :
    ∃ m : Message F, m.Answers call ∧
      (felyx.proposed brief call v done s).messages = s.messages ++ [m] := by
  unfold Felyx.proposed
  split
  · split
    · exact messages_sayBack call _ _ _
    · exact messages_sayBack call _ _ _
  · exact messages_sayBack call _ _ s

/-- A call that is executed adds its result to the messages. -/
theorem messages_execute (s : Conversation F) (call : ToolCall F × Except Text (Value F)) :
    ∃ m : Message F, m.Answers call.1 ∧
      (felyx.execute brief case s call).messages = s.messages ++ [m] := by
  rw [Felyx.execute]
  by_cases hcase : case.isSome = true
  · rw [if_pos hcase]
    exact messages_sayBack call.1 _ _ s
  · rw [if_neg hcase]
    by_cases hpropose : felyx.isProposeTool call.1.name = true
    · simp only [if_pos hpropose]
      exact messages_proposed call.1 _ _ s
    · simp only [if_neg hpropose]
      exact ⟨_, ⟨rfl, rfl⟩, rfl⟩

theorem messages_foldl_execute (calls : List (ToolCall F × Except Text (Value F)))
    (s : Conversation F) :
    ∃ results : List (Message F), List.Forall₂ Message.Answers results (calls.map Prod.fst) ∧
      (calls.foldl (felyx.execute brief case) s).messages = s.messages ++ results := by
  induction calls generalizing s with
  | nil => exact ⟨[], .nil, (List.append_nil _).symm⟩
  | cons call calls ih =>
      obtain ⟨m, hm, hfirst⟩ := @messages_execute F felyx brief case s call
      obtain ⟨results, hresults, hrest⟩ := ih (felyx.execute brief case s call)
      refine ⟨m :: results, .cons hm hresults, ?_⟩
      rw [List.foldl_cons, hrest, hfirst, List.append_assoc]
      rfl

/-- A draft without text has no findings but that of its incident. -/
theorem findings_empty (s : Conversation F) :
    (felyx.draft brief s []).findings = (felyx.draft brief s []).noIncident.toList := by
  have hclauses : clauses felyx.library.letters [] = [] := by
    have hcuts : contrastCuts felyx.library.letters [] = [] := rfl
    rw [clauses, sentencesFrom, List.flatMap_singleton, splitContrast, hcuts]
    rfl
  have hclaims : (felyx.draft brief s []).claims = [] := by
    rw [Felyx.draft, groundingCheck, hclauses]
    rfl
  have hreferences : (felyx.draft brief s []).references = [] := rfl
  rw [Draft.findings, hclaims, hreferences]
  rfl

theorem sendsEmpty_iff {reply : Reply F} :
    felyx.SendsEmpty brief s reply ↔ reply.isEmptyDraft = true ∧ s.revised = false ∧
      (felyx.draft brief s []).findings ≠ [] := by
  rw [findings_empty, Felyx.SendsEmpty]
  refine and_congr_right fun _ => and_congr_right fun _ => ?_
  cases hincident : brief.incident with
  | none => simp [Felyx.draft, hincident]
  | some id =>
      cases hgrounded : s.evidence.groundedAs felyx.library .incident id <;>
        simp [Felyx.draft, hincident, hgrounded, Option.filter]

/-- What a round that goes on adds to the messages. -/
theorem round_inl {reply : Reply F} (h : felyx.round brief case s reply = .inl next) :
    (reply.calls = [] ∧ ∃ request : Text,
      next.messages = s.messages ++
        [.assistantToolCalls (some (reply.content.getD [])) [], .user request] ∧
      (reply.content.getD [] = [] → felyx.SendsEmpty brief s reply)) ∨
    (reply.calls ≠ [] ∧ ∃ results : List (Message F),
      List.Forall₂ Message.Answers results (reply.calls.map Prod.fst) ∧
      next.messages = s.messages ++
        .assistantToolCalls reply.content (reply.calls.map Prod.fst) :: results) := by
  rw [Felyx.round] at h
  by_cases hcalls : reply.calls.isEmpty = true
  · left
    simp only [if_pos hcalls] at h
    split at h
    · next hback =>
        cases h
        refine ⟨List.isEmpty_iff.mp hcalls, _, rfl, fun hempty => sendsEmpty_iff.mpr ?_⟩
        rw [Bool.and_eq_true, Bool.not_eq_true', Bool.not_eq_true', List.isEmpty_eq_false_iff,
          hempty] at hback
        exact ⟨by rw [Reply.isEmptyDraft, hcalls, hempty]; rfl, hback.2, hback.1⟩
    · cases h
  · right
    simp only [if_neg hcalls] at h
    cases h
    obtain ⟨results, hresults, hmessages⟩ := @messages_foldl_execute F felyx brief case
      reply.calls _
    refine ⟨fun hnil => hcalls (List.isEmpty_iff.mpr hnil), results, hresults, ?_⟩
    rw [hmessages, List.append_assoc]
    rfl

/-- A round in which an empty draft is sent back goes on. -/
theorem round_of_sendsEmpty {reply : Reply F} (h : felyx.SendsEmpty brief s reply) :
    ∃ next, felyx.round brief case s reply = .inl next := by
  obtain ⟨hdraft, hrevised, hfindings⟩ := sendsEmpty_iff.mp h
  rw [Reply.isEmptyDraft, Bool.and_eq_true, List.isEmpty_iff (l := reply.content.getD [])] at hdraft
  have hback : (!(felyx.draft brief s (reply.content.getD [])).findings.isEmpty && !s.revised) =
      true := by
    rw [hdraft.2, hrevised, List.isEmpty_eq_false_iff.mpr hfindings]
    rfl
  rw [Felyx.round, if_pos hdraft.1]
  exact ⟨_, if_pos hback⟩

theorem head_requests (provider : Nat → Except ProviderError (Reply F)) (left n : Nat)
    (s : Conversation F) :
    s.messages ∈ (felyx.rounds brief case provider (left + 1) n s).requests := by
  rw [Felyx.rounds]
  split
  · exact List.mem_cons_self
  · split
    · exact List.mem_cons_self
    · exact List.mem_cons_self

/-- Along a run every request is well formed if and only if no empty draft is sent back before
another request. -/
theorem wellFormed_rounds {provider : Nat → Except ProviderError (Reply F)} {left n : Nat}
    (hs : WellFormed s.messages) :
    (∀ request ∈ (felyx.rounds brief case provider left n s).requests, WellFormed request) ↔
      felyx.NeverEmpty brief case provider left n s := by
  induction left generalizing n s with
  | zero => simp [Felyx.rounds, Felyx.NeverEmpty]
  | succ left ih =>
      rw [Felyx.rounds, Felyx.NeverEmpty]
      cases provider n with
      | error e => simpa using hs
      | ok reply =>
          simp only
          cases hround : felyx.round brief case s reply with
          | inr answer =>
              simp only [List.forall_mem_singleton, hs, and_true, true_iff]
              intro _ hempty
              obtain ⟨next, hnext⟩ := @round_of_sendsEmpty F felyx brief case s reply hempty
              exact absurd (hround.symm.trans hnext) (by simp)
          | inl next =>
              simp only [List.forall_mem_cons, hs, true_and]
              rcases round_inl hround with ⟨hcalls, request, hmessages, hsends⟩ |
                ⟨hcalls, results, hresults, hmessages⟩
              · by_cases hempty : reply.content.getD [] = []
                · -- The next request, if there is one, has an empty message.
                  cases left with
                  | zero => simp [Felyx.rounds, Felyx.NeverEmpty]
                  | succ left =>
                      have hbad : ¬ WellFormed next.messages := by
                        rw [hmessages, hempty]
                        exact not_wellFormed_of_empty
                          (List.mem_append_right _ List.mem_cons_self) rfl rfl
                      constructor
                      · exact fun h => absurd (h _ (head_requests provider left (n + 1) next)) hbad
                      · exact fun h => absurd (hsends hempty) (h.1 (Nat.succ_ne_zero left))
                · have hnext : WellFormed next.messages :=
                    hmessages ▸ hs.append (.inr rfl) (wellFormed_draft hempty request)
                  have hsent : ¬ felyx.SendsEmpty brief s reply := by
                    rintro ⟨hdraft, _⟩
                    rw [Reply.isEmptyDraft, Bool.and_eq_true, List.isEmpty_iff,
                      List.isEmpty_iff] at hdraft
                    exact hempty hdraft.2
                  rw [ih hnext]
                  exact (and_iff_right fun _ => hsent).symm
              · have hnext : WellFormed next.messages :=
                  hmessages ▸ hs.append (.inr rfl) (wellFormed_calls reply.content
                    (by simpa using hcalls) hresults)
                have hsent : ¬ felyx.SendsEmpty brief s reply := by
                  rintro ⟨hdraft, _⟩
                  rw [Reply.isEmptyDraft, Bool.and_eq_true, List.isEmpty_iff] at hdraft
                  exact hcalls hdraft.1
                rw [ih hnext]
                exact (and_iff_right fun _ => hsent).symm

theorem messages_start (felyx : Felyx F) (brief : Brief) (case : Option (CaseRead F))
    (question : Text) : (felyx.start brief case question).messages = [.user question] := by
  cases case <;> rfl

end Loop

/-- Every request of a run is well formed for the API if and only if no empty draft is sent back
before another request. -/
theorem transcriptsWellFormed (felyx : Felyx F) (brief : Brief) (case : Option (CaseRead F))
    (question : Text) (provider : Nat → Except ProviderError (Reply F)) :
    (∀ request ∈ (felyx.runWith brief case question provider).requests, WellFormed request) ↔
      felyx.NeverEmpty brief case provider felyx.maxIterations 0
        (felyx.start brief case question) := by
  refine wellFormed_rounds ?_
  rw [messages_start]
  exact wellFormed_user question

section Example

/-- A copilot with no tools but the propose tools, in a world with ASCII letters and no doubles. -/
def sampleFelyx : Felyx Empty where
  library :=
    { letters := Letters.asciiOnly
      floatText := Empty.elim
      floatText_clean := elim_clean
      toMicros := fun
        | .posInt n _ => n * 1000000
        | .negInt n _ => -n * 1000000
        | .float x => x.elim }
  reachesOne
    | .posInt n _ => decide (1 ≤ n)
    | .negInt _ _ => false
    | .float x => x.elim
  single := id
  toolNames :=
    ["propose_kill", "propose_budget", "propose_grant_deny", "propose_rescan"].map String.toList
  isProposeTool := fun name => "propose_".toList.isPrefixOf name
  maxIterations := 6
  positive := by decide

/-- An explanation whose first draft has no text sends an empty message back. -/
theorem empty_draft_sent_back :
    ¬ (∀ request ∈ (sampleFelyx.explainIncident "i-1".toList
      fun _ => .ok { content := none }).requests, WellFormed request) := by
  intro h
  rw [Felyx.explainIncident, Felyx.runWith, wellFormed_rounds (messages_start .. ▸ wellFormed_user _)]
    at h
  exact h.1 (by decide) ⟨rfl, rfl, "i-1".toList, rfl, by decide⟩

end Example

end Genaryx.Copilot
