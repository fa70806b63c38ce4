import Genaryx.Json.Write
import Genaryx.Mcp.Client

/-!
# A call is answered by its own response

Over a whole session, what a call returns is the content of a response with the call's own id,
wherever no request of the server's own that has this id comes first. Such a request is taken for
the answer.
-/

namespace Genaryx.Mcp

open Json Text

variable {F : Type}

/-! ## Sessions -/

/-- What a call asks the server. -/
inductive Method
  | handshake
  | listTools
  | callTool

/-- What a call returns. -/
inductive Content (F : Type)
  | serverInfo (info : Value F)
  | tools (tools : List (ToolDef F))
  | value (v : Value F)

/-- A call as it went: its id, the lines that came before its deadline, and what it returned. -/
structure Exchange (F : Type) where
  id : Nat
  method : Method
  offered : List Text
  outcome : Except McpError (Content F)

/-- A call after the first one. -/
inductive Call
  | list (a : Attempt)
  | call (a : Attempt)

/-- A client from its start: the server's lines, the first exchange and the calls after it. -/
structure Session where
  lines : List Text
  timeout : Nat
  first : Attempt
  noteFails : Option Text
  calls : List Call

variable (L : Libraries F)

/-- One call, and the client after it. -/
def Call.go (c : Client F) : Call → Exchange F × Client F
  | .list a =>
      let (outcome, after) := c.listTools L a
      (⟨c.nextId, .listTools, c.unread.take a.patience, outcome.map .tools⟩, after)
  | .call a =>
      let (outcome, after) := c.callTool L a
      (⟨c.nextId, .callTool, c.unread.take a.patience, outcome.map .value⟩, after)

/-- The calls, one after another. -/
def exchangesFrom (c : Client F) : List Call → List (Exchange F)
  | [] => []
  | call :: calls => (call.go L c).1 :: exchangesFrom (call.go L c).2 calls

namespace Session

variable (s : Session)

/-- The client that has asked nothing. -/
def fresh : Client F where
  nextId := 0
  unread := s.lines
  timeout := s.timeout
  serverInfo := .null

/-- The first exchange, and the client after it. -/
def opening : Exchange F × Client F :=
  let (outcome, after) := (s.fresh (F := F)).handshake L s.first s.noteFails
  (⟨0, .handshake, s.lines.take s.first.patience, outcome.map fun () => .serverInfo after.serverInfo⟩,
    after)

/-- All exchanges of a session. Where the first one fails there is no client to go on with. -/
def exchanges : List (Exchange F) :=
  match (s.opening L).1.outcome with
  | .error _ => [(s.opening L).1]
  | .ok _ => (s.opening L).1 :: exchangesFrom L (s.opening L).2 s.calls

end Session

/-! ## Answers -/

/-- The messages among some lines, up to a line that is none. -/
def messages : List Text → List (Value F)
  | [] => []
  | line :: rest =>
      if (trim line).isEmpty then messages rest
      else
        match L.fromStr (trim line) with
        | .error _ => []
        | .ok v => v :: messages rest

/-- Whether a message asks for something: a request, or without an id a notification. -/
def Asks (m : Value F) : Prop := (m.get "method").isSome

/-- What the result of a response to a method says. -/
def ofResult (result : Value F) : Method → Except McpError (Content F)
  | .handshake => .ok (.serverInfo result)
  | .listTools => (parseTools L result).map .tools
  | .callTool => (parseToolResult L result).map .value

/-- What a response to a method says. -/
def contentOf (m : Value F) (method : Method) : Except McpError (Content F) := do
  ofResult L (← resultOrRpcErr m) method

/-- Whether a call has returned a value or the error of its server. -/
def FromServer : Except McpError (Content F) → Prop
  | .ok _ => True
  | .error (.rpc _ _) => True
  | .error _ => False

namespace Exchange

variable (e : Exchange F)

/-- What a call returned is the content of a response that has the id of the call. -/
def Answered : Prop :=
  FromServer e.outcome →
    ∃ m ∈ messages L e.offered, hasId e.id m ∧ ¬ Asks m ∧ e.outcome = contentOf L m e.method

/-- Whether a message with the id of a call is no request that reads as its answer, and if the call
is the first one, whether it is no error. -/
def Fits (m : Value F) : Prop :=
  match e.method with
  | .handshake => ¬ Asks m ∧ m.get "error" = none ∧ m.get "result" ≠ none
  | _ => ¬ Asks m ∨ m.get "error" = none ∧ m.get "result" = none

instance (m : Value F) : Decidable (e.Fits m) := by
  unfold Fits Asks
  split <;> infer_instance

/-- The first message with the id of a call fits it. -/
def Quiet : Prop := ∀ m ∈ (messages L e.offered).find? (hasId e.id), e.Fits m

instance : Decidable (e.Quiet L) :=
  match h : (messages L e.offered).find? (hasId e.id) with
  | none => isTrue fun m hm => by rw [h] at hm; cases hm
  | some m =>
      decidable_of_iff (e.Fits m)
        ⟨fun hfits m' hm => by rw [h] at hm; cases hm; exact hfits,
          fun hquiet => hquiet m (by rw [h]; rfl)⟩

end Exchange

/-! ## One call -/

variable {L}

theorem messages_blank {line : Text} (lines : List Text) (h : (trim line).isEmpty) :
    messages L (line :: lines) = messages L lines := by
  rw [messages, if_pos h]

theorem messages_read {line : Text} (lines : List Text) {v : Value F}
    (h : ¬ (trim line).isEmpty) (hread : L.fromStr (trim line) = .ok v) :
    messages L (line :: lines) = v :: messages L lines := by
  rw [messages, if_neg h, hread]

/-- What was received is the first message with the id. -/
theorem find?_of_recvResponse {timeout id patience : Nat} {lines : List Text} {v : Value F}
    (h : (recvResponse L timeout id patience lines).1 = .ok v) :
    (messages L (lines.take patience)).find? (hasId id) = some v := by
  fun_induction recvResponse L timeout id patience lines with
  | case1 lines => cases h
  | case2 patience => cases h
  | case3 patience line rest hblank ih =>
      rw [List.take_succ_cons, messages_blank _ hblank]
      exact ih h
  | case4 patience line rest hblank e hread => cases h
  | case5 patience line rest hblank m hread hid =>
      cases h
      rw [List.take_succ_cons, messages_read _ hblank hread]
      exact List.find?_cons_of_pos hid
  | case6 patience line rest hblank m hread hid ih =>
      rw [List.take_succ_cons, messages_read _ hblank hread]
      exact (List.find?_cons_of_neg hid).trans (ih h)

/-- Waiting ends without an error of the server. -/
theorem not_fromServer_recvResponse {timeout id patience : Nat} {lines : List Text} {e : McpError}
    (h : (recvResponse L timeout id patience lines).1 = .error e) :
    ¬ FromServer (.error e : Except McpError (Content F)) := by
  fun_induction recvResponse L timeout id patience lines with
  | case1 lines => cases h; exact False.elim
  | case2 patience => cases h; exact False.elim
  | case3 patience line rest hblank ih => exact ih h
  | case4 patience line rest hblank e hread => cases h; exact False.elim
  | case5 patience line rest hblank m hread hid => cases h
  | case6 patience line rest hblank m hread hid ih => exact ih h

theorem not_fromServer_contentOf {m : Value F} {method : Method} (herror : m.get "error" = none)
    (hresult : m.get "result" = none) : ¬ FromServer (contentOf L m method) := by
  rw [contentOf, resultOrRpcErr, herror, hresult]
  exact False.elim

namespace Exchange

variable {e : Exchange F}

/-- What fits a call and is taken for its answer is a response. -/
theorem not_asks_of_fits {m : Value F} (hfits : e.Fits m)
    (hserver : FromServer (contentOf L m e.method)) : ¬ Asks m := by
  unfold Fits at hfits
  split at hfits
  · exact hfits.1
  · rcases hfits with hasks | ⟨herror, hresult⟩
    · exact hasks
    · exact absurd hserver (not_fromServer_contentOf herror hresult)

/-- A call that says what the first message with its id says is answered, if this fits. -/
theorem answered_of_find? {m : Value F} (hquiet : e.Quiet L)
    (hfirst : (messages L e.offered).find? (hasId e.id) = some m)
    (hcontent : e.Fits m → e.outcome = contentOf L m e.method) : e.Answered L := by
  intro hserver
  have hfits := hquiet m hfirst
  rw [hcontent hfits] at hserver
  exact ⟨m, List.mem_of_find?_eq_some hfirst, List.find?_some hfirst,
    not_asks_of_fits hfits hserver, hcontent hfits⟩

end Exchange

namespace Client

variable {c : Client F} {a : Attempt}

theorem nextId_request : (c.request L a).2.nextId = c.nextId + 1 := by
  rw [request]
  cases a.sendFails <;> rfl

theorem find?_of_request {m : Value F} (h : (c.request L a).1 = .ok m) :
    (messages L (c.unread.take a.patience)).find? (hasId c.nextId) = some m := by
  rw [request] at h
  cases hsend : a.sendFails with
  | none =>
      rw [hsend] at h
      exact find?_of_recvResponse h
  | some source =>
      rw [hsend] at h
      cases h

theorem not_fromServer_request {e : McpError} (h : (c.request L a).1 = .error e) :
    ¬ FromServer (.error e : Except McpError (Content F)) := by
  rw [request] at h
  cases hsend : a.sendFails with
  | none =>
      rw [hsend] at h
      exact not_fromServer_recvResponse h
  | some source =>
      rw [hsend] at h
      cases h
      exact False.elim

end Client

/-! ## The calls of a session -/

/-- A call is answered if it fails with what it has waited for, or says what it has received. -/
theorem Exchange.answered_of_request {e : Exchange F} {c : Client F} {a : Attempt}
    (hquiet : e.Quiet L) (hid : e.id = c.nextId) (hoffered : e.offered = c.unread.take a.patience)
    (hfails : ∀ error, (c.request L a).1 = .error error → e.outcome = .error error)
    (hcontent : ∀ m, (c.request L a).1 = .ok m → e.Fits m → e.outcome = contentOf L m e.method) :
    e.Answered L := by
  cases hreceived : (c.request L a).1 with
  | error error =>
      intro hserver
      rw [hfails error hreceived] at hserver
      exact absurd hserver (Client.not_fromServer_request hreceived)
  | ok m =>
      refine answered_of_find? hquiet ?_ (hcontent m hreceived)
      rw [hid, hoffered]
      exact Client.find?_of_request hreceived

/-- What is made of a result may be renamed behind the call. -/
theorem map_bind_resultOrRpcErr {α : Type} (resp : Except McpError (Value F))
    (parse : Value F → Except McpError α) (name : α → Content F) :
    (do
      let result ← resultOrRpcErr (← resp)
      parse result).map name =
      resp.bind fun m => resultOrRpcErr m >>= fun result => (parse result).map name := by
  cases resp with
  | error e => rfl
  | ok m =>
      change (resultOrRpcErr m >>= parse).map name = resultOrRpcErr m >>= fun r => (parse r).map name
      cases resultOrRpcErr m with
      | error e => rfl
      | ok result => rfl

theorem outcome_list (c : Client F) (a : Attempt) :
    (Call.go L c (.list a)).1.outcome = (c.request L a).1.bind (contentOf L · .listTools) :=
  map_bind_resultOrRpcErr _ _ _

theorem outcome_call (c : Client F) (a : Attempt) :
    (Call.go L c (.call a)).1.outcome = (c.request L a).1.bind (contentOf L · .callTool) :=
  map_bind_resultOrRpcErr _ _ _

theorem answered_go (c : Client F) (call : Call) (hquiet : (call.go L c).1.Quiet L) :
    (call.go L c).1.Answered L := by
  cases call with
  | list a =>
      refine Exchange.answered_of_request hquiet rfl rfl (fun error h => ?_) fun m h _ => ?_
      · rw [outcome_list, h]
        rfl
      · rw [outcome_list, h]
        rfl
  | call a =>
      refine Exchange.answered_of_request hquiet rfl rfl (fun error h => ?_) fun m h _ => ?_
      · rw [outcome_call, h]
        rfl
      · rw [outcome_call, h]
        rfl

theorem nextId_go (c : Client F) (call : Call) :
    (call.go L c).1.id = c.nextId ∧ (call.go L c).2.nextId = c.nextId + 1 := by
  cases call with
  | list a => exact ⟨rfl, Client.nextId_request⟩
  | call a => exact ⟨rfl, Client.nextId_request⟩

/-- The calls of a client have the ids from its next one on. -/
theorem ids_exchangesFrom (c : Client F) (calls : List Call) :
    (exchangesFrom L c calls).map Exchange.id = List.range' c.nextId calls.length := by
  induction calls generalizing c with
  | nil => rfl
  | cons call calls ih =>
      obtain ⟨hid, hnext⟩ := nextId_go (L := L) c call
      rw [exchangesFrom, List.map_cons, ih, hid, hnext, List.length_cons, List.range'_succ]

theorem answered_exchangesFrom (c : Client F) (calls : List Call)
    (hquiet : ∀ e ∈ exchangesFrom L c calls, e.Quiet L) :
    ∀ e ∈ exchangesFrom L c calls, e.Answered L := by
  induction calls generalizing c with
  | nil => exact nofun
  | cons call calls ih =>
      obtain ⟨hcall, hcalls⟩ := List.forall_mem_cons.mp hquiet
      exact List.forall_mem_cons.mpr ⟨answered_go c call hcall, ih _ hcalls⟩

namespace Session

variable (s : Session)

theorem outcome_opening : (s.opening L).1.outcome =
    (s.fresh.request L s.first).1.bind fun m =>
      match s.noteFails with
      | some source => .error (.io source)
      | none => .ok (.serverInfo ((m.get "result").getD .null)) := by
  rw [opening, Client.handshake]
  rcases s.fresh.request L s.first with ⟨error | m, after⟩
  · rfl
  · cases s.noteFails <;> rfl

theorem answered_opening (hquiet : (s.opening L).1.Quiet L) : (s.opening L).1.Answered L := by
  cases hnote : s.noteFails with
  | some source =>
      intro hserver
      rw [outcome_opening, hnote] at hserver
      cases hreceived : (s.fresh.request L s.first).1 with
      | error error =>
          rw [hreceived] at hserver
          exact absurd hserver (Client.not_fromServer_request hreceived)
      | ok m =>
          rw [hreceived] at hserver
          exact absurd hserver False.elim
  | none =>
      refine Exchange.answered_of_request (c := s.fresh) (a := s.first) hquiet rfl rfl
        (fun error h => ?_) fun m h hfits => ?_
      · rw [outcome_opening, h]
        rfl
      · obtain ⟨-, herror, hresult⟩ := hfits
        obtain ⟨result, hresult⟩ := Option.ne_none_iff_exists'.mp hresult
        have hcontent : resultOrRpcErr m = .ok result := by rw [resultOrRpcErr, herror, hresult]
        rw [outcome_opening, h, hnote]
        change _ = resultOrRpcErr m >>= fun r => ofResult L r .handshake
        rw [hcontent]
        change Except.ok (Content.serverInfo ((m.get "result").getD .null)) = _
        rw [hresult]
        rfl

theorem nextId_opening : (s.opening L).2.nextId = 1 := by
  have hrequest := Client.nextId_request (L := L) (c := s.fresh) (a := s.first)
  rw [opening, Client.handshake]
  rcases h : s.fresh.request L s.first with ⟨error | m, after⟩ <;> rw [h] at hrequest
  · exact hrequest
  · cases s.noteFails <;> exact hrequest

/-- No two calls have one id. -/
theorem nodup_ids : ((s.exchanges L).map Exchange.id).Nodup := by
  rw [exchanges]
  split
  · exact List.nodup_singleton _
  · rw [List.map_cons, ids_exchangesFrom, nextId_opening]
    exact (List.nodup_range' (s := 0) (n := s.calls.length + 1))

end Session

/-- A session in which each call's own response is the first message with its id. -/
structure QuietSession (L : Libraries F) extends Session where
  quiet : ∀ e ∈ toSession.exchanges L, e.Quiet L

/-- Every call is answered by its own response, and no response is the answer of two calls. -/
theorem QuietSession.answered (s : QuietSession L) :
    ((s.exchanges L).map Exchange.id).Nodup ∧ ∀ e ∈ s.exchanges L, e.Answered L := by
  refine ⟨s.nodup_ids, ?_⟩
  have hquiet := s.quiet
  rw [Session.exchanges] at hquiet ⊢
  split at hquiet
  · rw [List.forall_mem_singleton] at hquiet ⊢
    exact s.answered_opening hquiet
  · obtain ⟨hopening, hcalls⟩ := List.forall_mem_cons.mp hquiet
    exact List.forall_mem_cons.mpr ⟨s.answered_opening hopening, answered_exchangesFrom _ _ hcalls⟩

section Sample

/-- A reader of lines, for a server without tools. -/
def sampleLibraries : Libraries Empty where
  fromStr text :=
    match (Json.FullCodec.ofEmpty Json.recursionLimit).reader.fromStr text with
    | some v => .ok v
    | none => .error "expected value at line 1 column 1".toList
  toolsFromValue _ := .ok []

/-- A server that notifies the client of something, and answers the second request too late. -/
def lateAnswer : QuietSession sampleLibraries where
  lines :=
    ["\x7b\"id\":0,\"jsonrpc\":\"2.0\",\"result\":\x7b\"serverInfo\":\"engram\"\x7d\x7d".toList,
      "\x7b\"jsonrpc\":\"2.0\",\"method\":\"notifications/message\"\x7d".toList,
      "\x7b\"id\":1,\"jsonrpc\":\"2.0\",\"result\":\x7b\x7d\x7d".toList,
      "\x7b\"id\":2,\"jsonrpc\":\"2.0\",\"result\":\x7b\x7d\x7d".toList]
  timeout := 60
  first := ⟨none, 1⟩
  noteFails := none
  calls := [.list ⟨none, 1⟩, .list ⟨none, 2⟩]
  quiet := by decide +kernel

theorem answered_lateAnswer :
    (lateAnswer.exchanges sampleLibraries).map (fun e => e.outcome.toOption.isSome) =
        [true, false, true] ∧
      ∀ e ∈ lateAnswer.exchanges sampleLibraries, e.Answered sampleLibraries :=
  ⟨by decide +kernel, lateAnswer.answered.2⟩

/-- A server that asks whether the client is there, with an id of its own, before it answers. -/
def pinged : Session where
  lines :=
    ["\x7b\"id\":0,\"jsonrpc\":\"2.0\",\"method\":\"ping\"\x7d".toList,
      "\x7b\"id\":0,\"jsonrpc\":\"2.0\",\"result\":\x7b\"serverInfo\":\"engram\"\x7d\x7d".toList]
  timeout := 60
  first := ⟨none, 2⟩
  noteFails := none
  calls := []

/-- Whether a call has returned that nothing is known of the server. -/
def saysNothing : Except McpError (Content F) → Bool
  | .ok (.serverInfo .null) => true
  | _ => false

/-- The ping is taken for the answer to the first request. -/
theorem ping_answers : ¬ ∀ e ∈ pinged.exchanges sampleLibraries, e.Answered sampleLibraries := by
  intro hanswered
  have hping : (pinged.exchanges sampleLibraries).any fun e =>
      saysNothing e.outcome && (messages sampleLibraries e.offered).all fun m =>
        (m.get "method".toList).isSome || !saysNothing (contentOf sampleLibraries m e.method) := by
    decide +kernel
  obtain ⟨e, he, hping⟩ := List.any_eq_true.mp hping
  rw [Bool.and_eq_true, List.all_eq_true] at hping
  obtain ⟨hnothing, hothers⟩ := hping
  have hserver : FromServer e.outcome := by
    cases houtcome : e.outcome with
    | ok content => trivial
    | error error =>
        rw [houtcome] at hnothing
        cases hnothing
  obtain ⟨m, hm, -, hresponse, hcontent⟩ := hanswered e he hserver
  have hother := hothers m hm
  rw [← hcontent, hnothing, Bool.not_true, Bool.or_false] at hother
  exact hresponse hother

end Sample

end Genaryx.Mcp
