import Genaryx.Base.Path
import Genaryx.Wg.Interface

/-!
# Issuing and revoking an operator's device

A request reads the interface, changes one peer and then shows what it did: the client
configuration with its QR code, or how many peers are left. What changed is journaled when the
request has come to its end.

## Implementation notes

`Deployment` is what the environment and the host say, which no request changes. Both backends
read one interface, so a backend decides only how a failure is reported. A change may be lost:
it is applied, and its answer does not arrive. `Answers` says what every step of one request
gets.
-/

namespace Genaryx.Wg

open Base

/-- The environment and the host of the console. -/
structure Deployment where
  iface : Option Text := none
  uapiSocket : Option Text := none
  uapiCert : Option Text := none
  uapiToken : Option Text := none
  endpointHost : Option Text := none
  webOrigin : Option Text := none
  kubernetes : Bool := false
  containerFile : Bool := false
  /-- Whether the daemon's endpoint is there. -/
  endpointExists : Bool
  /-- Whether a `wg` binary runs. -/
  wgRuns : Bool := false

inductive WgOperatorError
  | serverNotConfigured (iface message : Text)
  | exec (message : Text)
  | misconfigured (message : Text)
  | subnetExhausted (message : Text)
  deriving DecidableEq

/-- Where the daemon answers. -/
inductive Endpoint
  | unix (path : Text)
  | tls (addr certPem token : Text)

namespace Endpoint

def describe : Endpoint → Text
  | unix path => path
  | tls addr _ _ => addr

def isNetwork : Endpoint → Bool
  | unix _ => false
  | tls .. => true

end Endpoint

/-- How the console reaches the server. -/
inductive PeerBackend
  | uapi (sock : Endpoint)
  | shell (iface : Text)

/-- The tunnel's server address. -/
def serverTunnelIp : Text := "10.9.0.1".toList

def consolePort : Nat := 7420

namespace Deployment

variable (d : Deployment)

def consoleTunnelUrl : Text :=
  match d.webOrigin with
  | some origin =>
      if origin.trim ≠ [] then origin.trim
      else "http://".toList ++ serverTunnelIp ++ ":".toList ++ Text.decimal consolePort
  | none => "http://".toList ++ serverTunnelIp ++ ":".toList ++ Text.decimal consolePort

def ifaceName : Text := d.iface.getD "wg-op".toList

def uapiEndpoint : Except WgOperatorError Endpoint :=
  let raw := d.uapiSocket.getD []
  if raw = [] then
    let name := d.ifaceName ++ ".sock".toList
    .ok (.unix (if Path.isAbsolute name then name else "/var/run/wireguard/".toList ++ name))
  else if raw.head? = some '/' || ':' ∉ raw then .ok (.unix raw)
  else
    let cert := d.uapiCert.getD []
    let token := d.uapiToken.getD []
    if cert = [] || token = [] then
      let missing : Text :=
        if cert = [] && token = [] then "GENARYX_WG_UAPI_CERT and GENARYX_WG_UAPI_TOKEN are".toList
        else if cert = [] then "GENARYX_WG_UAPI_CERT is".toList
        else "GENARYX_WG_UAPI_TOKEN is".toList
      .error (.misconfigured ("GENARYX_WG_UAPI_SOCKET is ".toList ++ raw ++
        ", which is a network endpoint rather than a path, but ".toList ++ missing ++
        (" not set. Reaching a tunnel daemon in another pod needs the proxy's certificate to " ++
          "pin and the bearer it checks; both are written into this console's Secret by " ++
          "install.sh.").toList))
    else .ok (.tls raw cert token)

/-- What the console runs in, as the refusal words it. -/
def containerised : Option Text :=
  if d.kubernetes then some "a Kubernetes pod".toList
  else if d.containerFile then some "a container".toList
  else none

def resolveBackend : Except WgOperatorError PeerBackend := do
  let iface := d.ifaceName
  let sock ← d.uapiEndpoint
  if d.endpointExists then return .uapi sock
  if sock.isNetwork then
    throw (.serverNotConfigured iface ("the tunnel daemon at ".toList ++ sock.describe ++
      (" did not answer. It is in another pod, so there is no local interface to fall back to: " ++
        "check that the wg pod is running and that a NetworkPolicy admits this one.").toList))
  if d.wgRuns then return .shell iface
  throw (.serverNotConfigured iface
    ("no WireGuard server this console can reach. It looked for a userspace API socket at ".toList
      ++ sock.describe ++ " (the `wg` sidecar service, which is how ".toList
      ++ d.containerised.getD "this host".toList
      ++ (" is meant to reach one) and for a `wg` binary on PATH (a kernel interface on this " ++
        "host). Neither answered. On a single-box install: `docker compose up -d wg`.").toList))

/-- The address a device dials back on. -/
def resolveEndpointHost : Except WgOperatorError Text :=
  let refusal : WgOperatorError := .misconfigured
    ("GENARYX_WG_ENDPOINT_HOST is not set, so there is no address to put in the client config. " ++
      "It is the public address of THIS box, the one a phone dials from outside; nothing on the " ++
      "interface can report it. install.sh writes it into .env; set it there and restart the " ++
      "console.").toList
  match d.endpointHost with
  | some h => if h.trim ≠ [] then .ok h.trim else .error refusal
  | none => .error refusal

end Deployment

/-! ## The backend's operations -/

/-- What an exchange with the daemon fails with, by each backend. -/
structure Fault where
  uapi : WgUapiError
  shell : Text

/-- What becomes of a change that a request sends. -/
inductive Change
  | refused (f : Fault)
  | applied
  | lost (f : Fault)

/-- Whether the interface has the change. -/
def Change.took : Change → Bool
  | refused _ => false
  | applied | lost _ => true

variable (d : Deployment)

def ofUapiError : WgUapiError → WgOperatorError
  | .noSocket p => .serverNotConfigured d.ifaceName
      ("the WireGuard tunnel is not running: no UAPI socket at ".toList ++ p ++
        (". On a single-box install this is the `wg` service in compose.yaml; start it with " ++
          "`docker compose up -d wg`.").toList)
  | other => .exec other.display

/-- A failed read, by the backend that was asked. -/
def readError (f : Fault) : PeerBackend → WgOperatorError
  | .uapi _ => ofUapiError d f.uapi
  | .shell iface => .serverNotConfigured iface
      ("interface '".toList ++ iface ++ "' is not up (".toList ++ f.shell ++ ")".toList)

/-- A failed change, by the backend that was asked. -/
def changeError (f : Fault) : PeerBackend → WgOperatorError
  | .uapi _ => ofUapiError d f.uapi
  | .shell _ => .exec f.shell

/-- What a blocking call gives. -/
abbrev Blocking := Except (Stop WgOperatorError)

def readState (backend : PeerBackend) (fault : Option Fault) (w : Interface) :
    Blocking InterfaceState :=
  match fault with
  | some f => .error (.failed (readError d f backend))
  | none => .ok w.state

variable (L : Libraries)

/-- A bad key, by the backend that was asked. -/
def keyError (backend : PeerBackend) : Stop WgUapiError → Stop WgOperatorError
  | .failed e =>
      match backend with
      | .uapi _ => .failed (ofUapiError d e)
      | .shell _ => .failed (.exec e.display)
  | .panicked => .panicked

/-- Send a change of the peer with a key, which is checked before. -/
def sendChange (backend : PeerBackend) (publicKeyHex : Text) (change : Change) (w u : Interface) :
    Blocking Unit × Interface :=
  match decodeHex32 L publicKeyHex with
  | .error e => (.error (keyError d backend e), w)
  | .ok _ =>
      match change with
      | .refused f => (.error (.failed (changeError d f backend)), w)
      | .applied => (.ok (), u)
      | .lost f => (.error (.failed (changeError d f backend)), u)

def addPeer (backend : PeerBackend) (publicKeyHex clientIp : Text) (change : Change)
    (w : Interface) : Blocking Unit × Interface :=
  sendChange d L backend publicKeyHex change w (w.addPeer publicKeyHex (single clientIp))

def removePeer (backend : PeerBackend) (publicKeyHex : Text) (change : Change) (w : Interface) :
    Blocking Unit × Interface :=
  sendChange d L backend publicKeyHex change w (w.removePeer publicKeyHex)

/-! ## Issuing -/

/-- What an issued device is shown. -/
structure RemoteWgOperatorConfigDto where
  conf : Text
  qrSvg : Text
  clientIp : Text
  endpoint : Text
  serverPublicKey : Text
  peerPublicKey : Text
  consoleTunnelUrl : Text
  deriving DecidableEq

/-- What an issue has settled before it adds its peer. -/
structure Chosen where
  serverPublicKey : Text
  listenPort : UInt16
  clientIp : Text
  publicHex : Text
  privateB64 : Text
  publicB64 : Text

def liftKey {α : Type} (r : Except (Stop WgUapiError) α) : Blocking α :=
  match r with
  | .ok a => .ok a
  | .error (.failed e) => .error (.failed (.exec e.display))
  | .error .panicked => .error .panicked

/-- Choose an address on the interface as it was read, and a key. -/
def choose (state : InterfaceState) (drawn : Except Text WgKeypair) : Blocking Chosen := do
  let iface := d.ifaceName
  let some serverPublicKey := ← state.publicKeyB64 L
    | throw (.failed (.serverNotConfigured iface ("interface '".toList ++ iface ++
        "' reports no public key, so it is not a running server".toList)))
  let some listenPort := state.listenPort
    | throw (.failed (.serverNotConfigured iface ("interface '".toList ++ iface ++
        "' reports no listen port".toList)))
  let some clientIp := nextFreeClientIp state
    | throw (.failed (.subnetExhausted
        ("every address in 10.9.0.0/24 is already assigned (".toList ++
          Text.decimal state.peers.length ++
          (" peers). Revoke a device before issuing another; handing out a duplicate address " ++
            "would break a working device to serve a new one.").toList)))
  match drawn with
  | .error e =>
      throw (.failed (.exec ("could not generate a client keypair: wg keygen: ".toList ++ e)))
  | .ok keypair =>
      let privateB64 ← liftKey (hexToB64 L keypair.privateHex)
      let publicB64 ← liftKey (hexToB64 L keypair.publicHex)
      return ⟨serverPublicKey, listenPort, clientIp, keypair.publicHex, privateB64, publicB64⟩

def renderConf (clientPrivateKeyB64 clientIp serverPublicKeyB64 endpoint : Text) : Text :=
  "[Interface]\nPrivateKey = ".toList ++ clientPrivateKeyB64 ++ "\nAddress = ".toList ++ clientIp
    ++ "/32\n\n[Peer]\nPublicKey = ".toList ++ serverPublicKeyB64 ++ "\nEndpoint = ".toList
    ++ endpoint ++ "\nAllowedIPs = ".toList ++ serverTunnelIp
    ++ "/32\nPersistentKeepalive = 25\n".toList

/-- The QR code without the prolog before its `<svg` element. -/
def renderQrSvg (text : Text) : Except WgOperatorError Text :=
  match L.qrDocument (Utf8.encode text) with
  | .error e => .error (.exec ("could not encode the config as a QR: ".toList ++ e))
  | .ok doc => .ok ((doc.tails.find? fun rest => Text.startsWith rest "<svg".toList).getD doc)

/-- The client configuration of a chosen peer. -/
def Chosen.conf (chosen : Chosen) (host : Text) : Text :=
  renderConf chosen.privateB64 chosen.clientIp chosen.serverPublicKey
    (host ++ ":".toList ++ Text.decimal chosen.listenPort.toNat)

/-- Show what was issued. -/
def render (host : Text) (chosen : Chosen) : Blocking RemoteWgOperatorConfigDto :=
  match renderQrSvg L (chosen.conf host) with
  | .error e => .error (.failed e)
  | .ok qrSvg => .ok
      { conf := chosen.conf host
        qrSvg := qrSvg
        clientIp := chosen.clientIp
        endpoint := host ++ ":".toList ++ Text.decimal chosen.listenPort.toNat
        serverPublicKey := chosen.serverPublicKey
        peerPublicKey := chosen.publicB64
        consoleTunnelUrl := d.consoleTunnelUrl }

/-- What the steps of one issue get from outside. -/
structure IssueAnswers where
  read : Option Fault := none
  drawn : Except Text WgKeypair
  add : Change := .applied

/-- What an issue settles before it adds its peer: the backend, the host and the rest. -/
def prepareIssue (answers : IssueAnswers) (w : Interface) :
    Blocking (PeerBackend × Text × Chosen) := do
  let backend ← d.resolveBackend.mapError .failed
  let host ← d.resolveEndpointHost.mapError .failed
  let state ← readState d backend answers.read w
  let chosen ← choose d L state answers.drawn
  return (backend, host, chosen)

def issueBlocking (answers : IssueAnswers) (w : Interface) :
    Blocking RemoteWgOperatorConfigDto × Interface :=
  match prepareIssue d L answers w with
  | .error e => (.error e, w)
  | .ok (backend, host, chosen) =>
      match addPeer d L backend chosen.publicHex chosen.clientIp answers.add w with
      | (.error e, u) => (.error e, u)
      | (.ok (), u) => (render d L host chosen, u)

/-! ## Revoking -/

structure RemoteWgRevokeDto where
  publicKey : Text
  wasPresent : Bool
  remainingPeers : Nat
  deriving DecidableEq

/-- What the steps of one revoke get from outside. -/
structure RevokeAnswers where
  read : Option Fault := none
  remove : Change := .applied
  reread : Option Fault := none

/-- What a revoke settles before it removes the peer: the backend, the key and whether it is
there. -/
def prepareRevoke (publicKeyB64 : Text) (answers : RevokeAnswers) (w : Interface) :
    Blocking (PeerBackend × Text × Bool) := do
  let backend ← d.resolveBackend.mapError .failed
  let hex ← (b64ToHex L publicKeyB64).mapError fun e =>
    .failed (.misconfigured ("not a WireGuard public key: ".toList ++ e.display))
  let before ← readState d backend answers.read w
  return (backend, hex, before.hasPeer hex)

def revokeBlocking (publicKeyB64 : Text) (answers : RevokeAnswers) (w : Interface) :
    Blocking RemoteWgRevokeDto × Interface :=
  match prepareRevoke d L publicKeyB64 answers w with
  | .error e => (.error e, w)
  | .ok (backend, hex, wasPresent) =>
      match removePeer d L backend hex answers.remove w with
      | (.error e, u) => (.error e, u)
      | (.ok (), u) =>
          match readState d backend answers.reread u with
          | .error e => (.error e, u)
          | .ok after => (.ok ⟨publicKeyB64, wasPresent, after.peers.length⟩, u)

/-! ## The requests -/

/-- One action on a peer that is journaled. -/
structure PeerAction where
  action : Text
  target : Text
  detail : Text
  deriving DecidableEq

/-- What became of the task that ran a blocking call: it ran, or it never did. -/
inductive Task
  | ran (panic : Text)
  | neverRan (why : Text)

/-- The result of a task, where its own failure is an error that names it. -/
def joined {α : Type} (what why : Text) : Blocking α → Except WgOperatorError α
  | .ok a => .ok a
  | .error (.failed e) => .error e
  | .error .panicked => .error (.exec (what ++ " task failed to run: ".toList ++ why))

/-- Run a blocking call on the pool. -/
def spawnBlocking {α : Type} (what : Text) (task : Task)
    (call : Interface → Blocking α × Interface) (w : Interface) :
    Except WgOperatorError α × Interface :=
  match task with
  | .neverRan why => (joined what why (.error .panicked), w)
  | .ran why => (joined what why (call w).1, (call w).2)

/-- `operator_wg_config`: its answer, the interface after it, and what it journals. -/
def operatorWgConfig (task : Task) (answers : IssueAnswers) (w : Interface) :
    (Except WgOperatorError RemoteWgOperatorConfigDto × Interface) × List PeerAction :=
  match spawnBlocking "operator wg config".toList task (issueBlocking d L answers) w with
  | (.error e, u) => ((.error e, u), [])
  | (.ok issued, u) => ((.ok issued, u),
      [{ action := "console.issue_wg_peer".toList
         target := issued.peerPublicKey
         detail := "issued:".toList ++ issued.clientIp }])

/-- `operator_wg_revoke`: its answer, the interface after it, and what it journals. -/
def operatorWgRevoke (publicKeyB64 : Text) (task : Task) (answers : RevokeAnswers)
    (w : Interface) :
    (Except WgOperatorError RemoteWgRevokeDto × Interface) × List PeerAction :=
  match spawnBlocking "operator wg revoke".toList task (revokeBlocking d L publicKeyB64 answers) w
    with
  | (.error e, u) => ((.error e, u), [])
  | (.ok revoked, u) => ((.ok revoked, u),
      [{ action := "console.revoke_wg_peer".toList
         target := publicKeyB64
         detail := "revoked:was_present=".toList ++ Text.displayBool revoked.wasPresent ++
           " remaining=".toList ++ Text.decimal revoked.remainingPeers }])

end Genaryx.Wg
