import Genaryx.Base.Lines
import Genaryx.Json.Value

/-!
# A client of a tool server

The console writes a request with the next id to a server's input, and reads lines of its output
until one is a message with that id, or until the time for it is up.

## Implementation notes

How long a call waits is told by how many lines it reads before its deadline: lines that come
later are there for the next call. The ids count the calls, so they do not overflow. What serde
makes of a tool catalogue is a parameter.
-/

namespace Genaryx.Mcp

open Json Text

variable {F : Type}

/-- One tool the server advertises. -/
structure ToolDef (F : Type) where
  name : Text
  description : Text
  inputSchema : Value F

/-- What can go wrong in a call. -/
inductive McpError
  | io (source : Text)
  | protocol (what : Text)
  | rpc (code : Int64) (message : Text)
  | tool (message : Text)
  | timeout (after : Nat)

/-- What the client uses of other crates: the parser of a line and of a tool catalogue, each with
the text of its error. -/
structure Libraries (F : Type) where
  fromStr : Text → Except Text (Value F)
  toolsFromValue : Value F → Except Text (List (ToolDef F))

/-! ## Results -/

/-- The texts of a result's blocks. -/
def textBlocks (result : Value F) : Text :=
  match (result.get "content").bind Value.asArray with
  | some blocks => ['\n'].intercalate (blocks.filterMap fun b => (b.get "text").bind Value.asStr)
  | none => []

/-- A value that is no object comes wrapped in an object of one member. -/
def unwrapFastmcpStructured (v : Value F) : Value F :=
  match v with
  | .object [(key, .object members)] => .object [(key, .object members)]
  | .object [(key, inner)] => if key = "result".toList then inner else v
  | v => v

variable (L : Libraries F)

/-- Unwrap the envelope of a tool's result. -/
def parseToolResult (result : Value F) : Except McpError (Value F) :=
  match result.get "isError" with
  | some (.bool true) =>
      let message := textBlocks result
      .error (.tool (if message.isEmpty then "tool reported isError with no message" else message))
  | _ =>
      match (result.get "structuredContent").filter fun
        | .null => false
        | _ => true with
      | some structured => .ok (unwrapFastmcpStructured structured)
      | none =>
          let text := textBlocks result
          if text.isEmpty then
            .error (.protocol
              "tools/call result had neither structuredContent nor text content".toList)
          else
            match L.fromStr text with
            | .ok v => .ok (unwrapFastmcpStructured v)
            | .error _ => .ok (.string text)

/-- The result of a response, or its error. -/
def resultOrRpcErr (resp : Value F) : Except McpError (Value F) :=
  match resp.get "error" with
  | some err =>
      .error (.rpc (((err.get "code").bind Value.asI64).getD 0)
        (((err.get "message").bind Value.asStr).getD "<no message>".toList))
  | none =>
      match resp.get "result" with
      | some result => .ok result
      | none => .error (.protocol "response had neither result nor error".toList)

/-- The tools in a result. -/
def parseTools (result : Value F) : Except McpError (List (ToolDef F)) :=
  match L.toolsFromValue ((result.get "tools").getD (.array [])) with
  | .ok tools => .ok tools
  | .error e => .error (.protocol ("tools/list shape: ".toList ++ e))

/-! ## Messages -/

/-- The client: the id of its next request, the lines that it has not read yet, and what the server
said of itself. -/
structure Client (F : Type) where
  nextId : Nat
  unread : List Text
  timeout : Nat
  serverInfo : Value F

/-- Whether a message has an id. -/
def hasId (id : Nat) (v : Value F) : Bool :=
  ((v.get "id").bind Value.asI64).map Int64.toInt = some (id : Int)

/-- Read so many lines at most until a message with an id, and say what is left. -/
def recvResponse (timeout id : Nat) : Nat → List Text → Except McpError (Value F) × List Text
  | 0, lines => (.error (.timeout timeout), lines)
  | _ + 1, [] => (.error (.timeout timeout), [])
  | patience + 1, line :: rest =>
      if (trim line).isEmpty then recvResponse timeout id patience rest
      else
        match L.fromStr (trim line) with
        | .error e => (.error (.protocol ("stdout line not JSON: ".toList ++ e)), rest)
        | .ok v => if hasId id v then (.ok v, rest) else recvResponse timeout id patience rest

/-- Whether the writes of a call fail, and how many lines it reads before its deadline. -/
structure Attempt where
  sendFails : Option Text := none
  patience : Nat

namespace Client

variable (c : Client F)

/-- Send a request and wait for what has its id. -/
def request (a : Attempt) : Except McpError (Value F) × Client F :=
  let id := c.nextId
  let c := { c with nextId := id + 1 }
  match a.sendFails with
  | some source => (.error (.io source), c)
  | none =>
      let received := recvResponse L c.timeout id a.patience c.unread
      (received.1, { c with unread := received.2 })

/-- The first request, and the notification after its answer. -/
def handshake (a : Attempt) (noteFails : Option Text) : Except McpError Unit × Client F :=
  match c.request L a with
  | (.error e, c) => (.error e, c)
  | (.ok resp, c) =>
      let c := { c with serverInfo := (resp.get "result").getD .null }
      match noteFails with
      | some source => (.error (.io source), c)
      | none => (.ok (), c)

/-- The tools of the server. -/
def listTools (a : Attempt) : Except McpError (List (ToolDef F)) × Client F :=
  let (resp, c) := c.request L a
  (do
    let result ← resultOrRpcErr (← resp)
    parseTools L result, c)

/-- The return value of a tool. -/
def callTool (a : Attempt) : Except McpError (Value F) × Client F :=
  let (resp, c) := c.request L a
  (do
    let result ← resultOrRpcErr (← resp)
    parseToolResult L result, c)

end Client

end Genaryx.Mcp
