import Genaryx.Base.Numbers
import Genaryx.Wg.Interface

/-!
# The wire of the daemon

A request names a peer by its key, and an answer is a flat stream of `key=value` lines: a
`public_key` starts a peer, and what follows belongs to it. The check on a key cuts the text it
refuses for its message.

## Implementation notes

`publicOf` stands for the public key of a private one. The first `errno` that is no zero ends a
reading, as does a panic.
-/

namespace Genaryx.Wg

open Json Text

variable (L : Libraries) (publicOf : Bytes → Bytes)

/-! ## Requests -/

/-- A `set=1` that adds or updates one peer and leaves every other peer untouched. -/
def renderAddPeer (publicKeyHex : Text) (allowedIps : List Text) :
    Except (Stop WgUapiError) Text := do
  let _ ← decodeHex32 L publicKeyHex
  return "set=1\n".toList ++ ("public_key=".toList ++ publicKeyHex.trim ++ ['\n']) ++
    "replace_allowed_ips=true\n".toList ++
    (allowedIps.flatMap fun cidr => "allowed_ip=".toList ++ cidr ++ ['\n']) ++ ['\n']

/-- A `set=1` that removes one peer. -/
def renderRemovePeer (publicKeyHex : Text) : Except (Stop WgUapiError) Text := do
  let _ ← decodeHex32 L publicKeyHex
  return "set=1\n".toList ++ ("public_key=".toList ++ publicKeyHex.trim ++ ['\n']) ++
    "remove=true\n".toList ++ ['\n']

/-! ## Answers -/

/-- The keys that an answer is read for. -/
inductive UapiKey
  | errno
  | privateKey
  | interfacePublicKey
  | publicKey
  | listenPort
  | allowedIp
  | endpoint
  | lastHandshakeTimeSec
  | rxBytes
  | txBytes
  deriving DecidableEq

namespace UapiKey

def text : UapiKey → Text
  | errno => "errno".toList
  | privateKey => "private_key".toList
  | interfacePublicKey => "interface_public_key".toList
  | publicKey => "public_key".toList
  | listenPort => "listen_port".toList
  | allowedIp => "allowed_ip".toList
  | endpoint => "endpoint".toList
  | lastHandshakeTimeSec => "last_handshake_time_sec".toList
  | rxBytes => "rx_bytes".toList
  | txBytes => "tx_bytes".toList

def all : List UapiKey :=
  [errno, privateKey, interfacePublicKey, publicKey, listenPort, allowedIp, endpoint,
    lastHandshakeTimeSec, rxBytes, txBytes]

/-- The key that a text is, if an answer is read for it. -/
def ofText (t : Text) : Option UapiKey := all.find? fun k => k.text = t

end UapiKey

/-- `str::parse::<u16>`. -/
def parseU16 (t : Text) : Option UInt16 :=
  ((parseU64 t).filter (· < 65536)).map UInt16.ofNat

/-- What was read so far, and the peer that the next lines belong to. -/
structure Reading where
  state : InterfaceState
  current : Option PeerState
  sawErrno : Bool
  deriving DecidableEq

namespace Reading

def start : Reading := ⟨⟨none, none, []⟩, none, false⟩

variable (r : Reading)

/-- What is known when the current peer ends. -/
def closed : InterfaceState := { r.state with peers := r.state.peers ++ r.current.toList }

/-- Change the current peer, if there is one. -/
def onPeer (f : PeerState → PeerState) : Reading := { r with current := r.current.map f }

/-- The identity of the interface becomes known. -/
def identified (publicKeyHex : Text) : Reading :=
  { r with state := { r.state with publicKeyHex := some publicKeyHex } }

end Reading

def errnoNotNumber : Text := "errno was not a number".toList

def noEquals : Text := "a line carried no '='".toList

def noErrno : Text := "response carried no errno".toList

/-- Read the value of a key. -/
def readValue (r : Reading) (key : UapiKey) (value : Text) :
    Except (Stop WgUapiError) Reading :=
  match key with
  | .errno =>
      match parseI64 value with
      | none => .error (.failed (.malformed errnoNotNumber))
      | some n => if n ≠ 0 then .error (.failed (.errno n)) else .ok { r with sawErrno := true }
  | .privateKey =>
      if r.state.publicKeyHex.isSome then .ok r
      else
        match decodeHex32 L value with
        | .ok bytes => .ok (r.identified (hexLower (publicOf bytes)))
        | .error (.failed _) => .ok r
        | .error .panicked => .error .panicked
  | .interfacePublicKey =>
      match decodeHex32 L value with
      | .ok _ => .ok (r.identified value.trim)
      | .error (.failed _) => .ok r
      | .error .panicked => .error .panicked
  | .publicKey =>
      .ok { r with
            state := r.closed
            current := some { publicKeyHex := value, allowedIps := [] } }
  | .listenPort => .ok { r with state := { r.state with listenPort := parseU16 value } }
  | .allowedIp => .ok (r.onPeer fun p => { p with allowedIps := p.allowedIps ++ [value] })
  | .endpoint => .ok (r.onPeer fun p => { p with endpoint := some value })
  | .lastHandshakeTimeSec =>
      .ok (r.onPeer fun p =>
        { p with lastHandshakeUnix := (parseU64 value).filter (· ≠ 0) })
  | .rxBytes => .ok (r.onPeer fun p => { p with rxBytes := (parseU64 value).getD 0 })
  | .txBytes => .ok (r.onPeer fun p => { p with txBytes := (parseU64 value).getD 0 })

/-- Read one line of an answer. -/
def readLine (r : Reading) (line : Text) : Except (Stop WgUapiError) Reading :=
  let line := line.trim
  if line.isEmpty then .ok r
  else
    match splitOnce '=' line with
    | none => .error (.failed (.malformed noEquals))
    | some (key, value) =>
        match UapiKey.ofText key with
        | some key => readValue L publicOf r key value
        | none => .ok r

/-- Parse a `get=1` response body. -/
def parseGet (response : Text) : Except (Stop WgUapiError) InterfaceState := do
  let r ← (Text.lines response).foldlM (readLine L publicOf) .start
  if r.sawErrno then .ok r.closed else .error (.failed (.malformed noErrno))

end Genaryx.Wg
