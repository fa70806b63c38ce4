import Genaryx.Base.Custody
import Genaryx.Base.Transition
import Genaryx.Remote.Ssh

/-!
# The remote panel

Saving an environment, connecting and disconnecting the tunnel, and following a remote log, by any
number of requests at once. Each request is a thread whose steps are the sections it runs under the
lock of one cell, and what it does outside any lock: writing a pin file, bringing a tunnel up,
starting `ssh`. A request can be dropped where it awaits. What it had begun outside then goes on, and
its result is dropped.

## Implementation notes

Tunnel processes, tail processes and pin files are numbered in the order they are made. Killing a
process and removing a file is taken to work. `World.strayTails` and `World.strayPins` are history:
they have what nobody holds any more.
-/

namespace Genaryx.Remote

open Base Base.Transition

/-- The environment that an operator has defined. -/
structure RemoteEnvironment where
  name : Text
  wireguardGoBin : Text
  wgPeerPublicKeyHex : Text
  wgEndpoint : Text
  wgAllowedIps : List Text
  wgPersistentKeepalive : Option Nat
  wgListenPort : Option Nat
  wgLocalIp : Text
  wgPeerIp : Text
  sshTarget : SshTarget

/-- What the tunnel is configured with. -/
structure BringUpArgs where
  bin : Text
  environment : RemoteEnvironment
  privateKeyHex : Text

/-- A tunnel that is up: its process, and what it was brought up with. -/
structure WgTunnel where
  child : Nat
  realName : Text
  args : BringUpArgs

inductive TunnelState
  | disconnected
  | connecting
  | connected (tunnel : WgTunnel)
  | failed (message : Text)

/-- A client that is pinned to a target. Its pin file goes with it. -/
structure SshClient where
  target : SshTarget
  knownHosts : Nat

structure TailSession where
  child : Nat
  path : Text

inductive RemoteError
  | noEnvironment
  | invalid (message : Text)
  | noWireguardGoBinary
  | wg (message : Text)
  | ssh (message : Text)
  deriving DecidableEq

def require (field value : Text) : Except RemoteError Unit :=
  if (Text.trim value).isEmpty then .error (.invalid (field ++ " is required".toList)) else .ok ()

/-- The fields that an environment cannot do without. -/
def RemoteEnvironment.check (e : RemoteEnvironment) : Except RemoteError Unit := do
  require "name".toList e.name
  require "wg_peer_public_key_hex".toList e.wgPeerPublicKeyHex
  require "wg_endpoint".toList e.wgEndpoint
  require "wg_local_ip".toList e.wgLocalIp
  require "wg_peer_ip".toList e.wgPeerIp
  require "ssh_host".toList e.sshTarget.host
  require "ssh_user".toList e.sshTarget.user
  require "ssh_identity_file".toList e.sshTarget.identityFile
  require "ssh_pinned_host_key".toList e.sshTarget.pinnedHostKey

def resolveWireguardGoBin (e : RemoteEnvironment) (defaultBin : Option Text) : Option Text :=
  let overridden := Text.trim e.wireguardGoBin
  if overridden.isEmpty then defaultBin else some overridden

/-- Where a request stands. A request that is not awaited was dropped. -/
inductive Pc
  | setEnvironment (environment : RemoteEnvironment)
  | pin (environment : RemoteEnvironment) (awaited : Bool)
  | saveEnvironment (environment : RemoteEnvironment) (client : SshClient)
  | saveSsh (client : SshClient)
  | resetTunnel
  | connect
  | keypair (environment : RemoteEnvironment) (bin : Text)
  | markConnecting (args : BringUpArgs)
  | bringUp (args : BringUpArgs) (awaited : Bool)
  | configure (child : Nat) (args : BringUpArgs) (awaited : Bool)
  | record (result : Except Text WgTunnel)
  | disconnect
  | tailStart (path : Text) (fromOffset : Nat)
  | stopTail (next : Option (Text × Nat))
  | spawnTail (path : Text) (fromOffset : Nat) (awaited : Bool)
  | storeTail (session : TailSession)
  | answered (refusal : Option RemoteError)

/-- The pcs that a request starts in. -/
def Pc.isEntry : Pc → Bool
  | .setEnvironment _ | .connect | .disconnect | .tailStart _ _ | .stopTail none => true
  | _ => false

structure World where
  defaultWireguardGoBin : Option Text := none
  environment : Option RemoteEnvironment := none
  consoleKeypair : Option Text := none
  tunnel : TunnelState := .disconnected
  ssh : Option SshClient := none
  tail : Option TailSession := none
  tunnels : Pool := {}
  pins : Pool := {}
  tails : Pool := {}
  threads : Nat → Option Pc := fun _ => none
  strayPins : List Nat := []
  strayTails : List Nat := []

/-- What one step meets by chance: the key that is generated, what writing the pin file, starting a
process and configuring a tunnel report, and whether a pin file that could not be written is there. -/
structure Chance where
  keypair : Except Text Text := .error []
  pinError : Option Text := none
  pinCreated : Bool := false
  spawnError : Option Text := none
  configureError : Option Text := none
  realName : Text := []

inductive Action
  | request (thread : Nat) (pc : Pc)
  | advance (thread : Nat) (chance : Chance)
  | drop (thread : Nat) (begun : Bool)
  | exitTunnel (child : Nat)
  | exitTail (child : Nat)

/-- The process of a tunnel state. -/
def TunnelState.child : TunnelState → Option Nat
  | .connected tunnel => some tunnel.child
  | _ => none

/-- The tunnel process that a request holds. -/
def Pc.tunnelChild : Pc → Option Nat
  | .configure child _ _ => some child
  | .record (.ok tunnel) => some tunnel.child
  | _ => none

/-- The pin file that a request holds. -/
def Pc.pinFile : Pc → Option Nat
  | .saveEnvironment _ client | .saveSsh client => some client.knownHosts
  | _ => none

/-- The tail process that a request holds. -/
def Pc.tailChild : Pc → Option Nat
  | .storeTail session => some session.child
  | _ => none

namespace World

variable (w : World)

/-- Replace the tunnel state, which tears down a tunnel that was up. -/
def setTunnel (state : TunnelState) : World :=
  { w with tunnel := state, tunnels := w.tunnels.finish w.tunnel.child }

def setPc (thread : Nat) (pc : Pc) : World :=
  { w with threads := Function.update w.threads thread (some pc) }

end World

/-- A finished request. -/
def finished (w : World) : World × Pc := (w, .answered none)

def refuse (w : World) (e : RemoteError) : World × Pc := (w, .answered (some e))

/-- The next step of one request. -/
def advancePc (w : World) (chance : Chance) : Pc → Option (World × Pc)
  | .setEnvironment environment =>
      match environment.check with
      | .error e => some (refuse w e)
      | .ok () => some (w, .pin environment true)
  | .pin environment awaited =>
      match chance.pinError with
      | some message =>
          -- A file that was opened and not written stays.
          let w :=
            if chance.pinCreated then
              { w with pins := w.pins.make, strayPins := w.pins.made :: w.strayPins }
            else w
          some (refuse w (.ssh message))
      | none =>
          let client : SshClient := ⟨environment.sshTarget, w.pins.made⟩
          if awaited then
            some ({ w with pins := w.pins.make }, .saveEnvironment environment client)
          else some (finished { w with pins := w.pins.make.finish (some client.knownHosts) })
  | .saveEnvironment environment client =>
      some ({ w with environment := some environment }, .saveSsh client)
  | .saveSsh client =>
      some
        ({ w with ssh := some client, pins := w.pins.finish (w.ssh.map SshClient.knownHosts) },
          .resetTunnel)
  | .resetTunnel => some (w.setTunnel .disconnected, .stopTail none)
  | .connect =>
      match w.environment with
      | none => some (refuse w .noEnvironment)
      | some environment =>
          match resolveWireguardGoBin environment w.defaultWireguardGoBin with
          | none => some (refuse w .noWireguardGoBinary)
          | some bin => some (w, .keypair environment bin)
  | .keypair environment bin =>
      -- The identity is made once, and kept.
      match w.consoleKeypair with
      | some key => some (w, .markConnecting ⟨bin, environment, key⟩)
      | none =>
          match chance.keypair with
          | .error message => some (refuse w (.wg message))
          | .ok key =>
              some ({ w with consoleKeypair := some key }, .markConnecting ⟨bin, environment, key⟩)
  | .markConnecting args => some (w.setTunnel .connecting, .bringUp args true)
  | .bringUp args awaited =>
      match chance.spawnError with
      | some message => some (w, if awaited then .record (.error message) else .answered none)
      | none => some ({ w with tunnels := w.tunnels.make }, .configure w.tunnels.made args awaited)
  | .configure child args awaited =>
      match chance.configureError with
      | some message =>
          -- The guard kills the child of a tunnel that is half built.
          some
            ({ w with tunnels := w.tunnels.finish (some child) },
              if awaited then .record (.error message) else .answered none)
      | none =>
          if awaited then some (w, .record (.ok ⟨child, chance.realName, args⟩))
          else some (finished { w with tunnels := w.tunnels.finish (some child) })
  | .record (.ok tunnel) => some (finished (w.setTunnel (.connected tunnel)))
  | .record (.error message) => some (finished (w.setTunnel (.failed message)))
  | .disconnect => some (finished (w.setTunnel .disconnected))
  | .tailStart path fromOffset =>
      match require "path".toList path with
      | .error e => some (refuse w e)
      | .ok () => some (w, .stopTail (some (path, fromOffset)))
  | .stopTail next =>
      let w := { w with tail := none, tails := w.tails.finish (w.tail.map TailSession.child) }
      match next with
      | none => some (finished w)
      | some (path, fromOffset) => some (w, .spawnTail path fromOffset true)
  | .spawnTail path _ awaited =>
      match w.ssh with
      | none => some (refuse w .noEnvironment)
      | some _ =>
          match chance.spawnError with
          | some message => some (refuse w (.ssh message))
          | none =>
              if awaited then some ({ w with tails := w.tails.make }, .storeTail ⟨w.tails.made, path⟩)
              else
                some (finished
                  { w with tails := w.tails.make, strayTails := w.tails.made :: w.strayTails })
  | .storeTail session =>
      -- A session that is there is replaced, and its process is not killed.
      some (finished
        { w with
          tail := some session
          strayTails := (w.tail.map TailSession.child).toList ++ w.strayTails })
  | .answered _ => none

/-- A request is dropped where it awaits. What it awaits goes on if it has begun. -/
def dropPc (w : World) (begun : Bool) : Pc → Option (World × Pc)
  | .pin environment true =>
      some (w, if begun then .pin environment false else .answered none)
  | .bringUp args true => some (w, if begun then .bringUp args false else .answered none)
  | .configure child args true => some (w, .configure child args false)
  | .record (.ok tunnel) =>
      some (finished { w with tunnels := w.tunnels.finish (some tunnel.child) })
  | .record (.error _) => some (finished w)
  | .stopTail (some _) => some (w, if begun then .stopTail none else .answered none)
  | .spawnTail path fromOffset true =>
      some (w, if begun then .spawnTail path fromOffset false else .answered none)
  | .storeTail session => some (finished { w with strayTails := session.child :: w.strayTails })
  | .saveEnvironment _ client =>
      some (finished { w with pins := w.pins.finish (some client.knownHosts) })
  | _ => none

def step (w : World) : Action → Option World
  | .request thread pc =>
      if (w.threads thread).isNone && pc.isEntry then some (w.setPc thread pc) else none
  | .advance thread chance =>
      (w.threads thread).bind fun pc =>
        (advancePc w chance pc).map fun next => next.1.setPc thread next.2
  | .drop thread begun =>
      (w.threads thread).bind fun pc =>
        (dropPc w begun pc).map fun next => next.1.setPc thread next.2
  | .exitTunnel child =>
      if w.tunnels.live child then some { w with tunnels := w.tunnels.vanish child } else none
  | .exitTail child =>
      if w.tails.live child then some { w with tails := w.tails.vanish child } else none

/-- The panel just started. -/
def World.start (defaultBin : Option Text) : World := { defaultWireguardGoBin := defaultBin }

/-!
## What the remote panel leaves behind

Over any run, a tunnel process has one holder: the panel's tunnel cell, or a request that brings a
tunnel up. So it is with pin files, but for those that could not be written. A tail process can be
left behind: by a request that is dropped, and by one that stores its tail over another.

### Implementation notes

Each kind of resource is in the custody of its cell and of the requests. What a step does to a world
is some moves of each custody.
-/

namespace World

variable (w : World)

def tunnelCustody : Custody Holder := custody w.tunnel.child Pc.tunnelChild w.threads w.tunnels []

def pinCustody : Custody Holder :=
  custody (w.ssh.map SshClient.knownHosts) Pc.pinFile w.threads w.pins w.strayPins

def tailCustody : Custody Holder :=
  custody (w.tail.map TailSession.child) Pc.tailChild w.threads w.tails w.strayTails

end World

/-! ## What one step does to each custody -/

/-- What a step does is some moves of each custody. -/
structure Stepped (w v : World) : Prop where
  tunnels : Custody.Moves w.tunnelCustody v.tunnelCustody
  pins : Custody.Moves w.pinCustody v.pinCustody
  tails : Custody.Moves w.tailCustody v.tailCustody

variable {w v : World} {i : Nat} {pc next : Pc} {chance : Chance} {begun : Bool}

/-- A request goes on, and neither the cells nor what there is have changed. -/
theorem Stepped.quiet (hpc : w.threads i = some pc) (htunnel : v.tunnel = w.tunnel := by rfl)
    (hssh : v.ssh = w.ssh := by rfl) (htail : v.tail = w.tail := by rfl)
    (htunnels : v.tunnels = w.tunnels := by rfl) (hpins : v.pins = w.pins := by rfl)
    (htails : v.tails = w.tails := by rfl) (hthreads : v.threads = w.threads := by rfl)
    (hstrayPins : v.strayPins = w.strayPins := by rfl)
    (hstrayTails : v.strayTails = w.strayTails := by rfl)
    (htunnelChild : next.tunnelChild = pc.tunnelChild := by rfl)
    (hpinFile : next.pinFile = pc.pinFile := by rfl)
    (htailChild : next.tailChild = pc.tailChild := by rfl) : Stepped w (v.setPc i next) := by
  constructor
  · rw [World.tunnelCustody, World.tunnelCustody, World.setPc, htunnel, htunnels, hthreads]
    exact moves_same hpc htunnelChild
  · rw [World.pinCustody, World.pinCustody, World.setPc, hssh, hpins, hthreads, hstrayPins]
    exact moves_same hpc hpinFile
  · rw [World.tailCustody, World.tailCustody, World.setPc, htail, htails, hthreads, hstrayTails]
    exact moves_same hpc htailChild

/-- A request sets the tunnel to a state that is not connected. -/
theorem Stepped.setTunnel {state : TunnelState} (hpc : w.threads i = some pc)
    (hstate : state.child = none := by rfl) (hheld : pc.tunnelChild = none := by rfl)
    (htunnelChild : next.tunnelChild = none := by rfl)
    (hpinFile : next.pinFile = pc.pinFile := by rfl)
    (htailChild : next.tailChild = pc.tailChild := by rfl) :
    Stepped w ((w.setTunnel state).setPc i next) := by
  refine ⟨?_, moves_same hpc hpinFile, moves_same hpc htailChild⟩
  rw [World.tunnelCustody, World.tunnelCustody, World.setPc, World.setTunnel, hstate]
  exact moves_finish_cell.trans (moves_same hpc (htunnelChild.trans hheld.symm))

theorem stepped_of_advancePc (hpc : w.threads i = some pc)
    (h : advancePc w chance pc = some (v, next)) : Stepped w (v.setPc i next) := by
  cases pc with
  | setEnvironment environment =>
      rw [advancePc] at h
      split at h <;> cases h <;> exact .quiet hpc
  | pin environment awaited =>
      rw [advancePc] at h
      split at h
      next message _ =>
          dsimp only at h
          split at h <;> cases h
          · exact ⟨moves_same hpc rfl, moves_make_forget hpc rfl rfl, moves_same hpc rfl⟩
          · exact .quiet hpc
      next =>
          dsimp only at h
          split at h <;> cases h
          · exact ⟨moves_same hpc rfl, moves_make hpc rfl rfl, moves_same hpc rfl⟩
          · exact ⟨moves_same hpc rfl, moves_make_finish hpc rfl rfl, moves_same hpc rfl⟩
  | saveEnvironment environment client => cases h; exact .quiet hpc
  | saveSsh client =>
      cases h
      exact ⟨moves_same hpc rfl, moves_finish_cell.trans (moves_store hpc rfl), moves_same hpc rfl⟩
  | resetTunnel => cases h; exact .setTunnel hpc
  | connect =>
      rw [advancePc] at h
      split at h
      next => cases h; exact .quiet hpc
      next => split at h <;> cases h <;> exact .quiet hpc
  | keypair environment bin =>
      rw [advancePc] at h
      split at h
      next => cases h; exact .quiet hpc
      next => split at h <;> cases h <;> exact .quiet hpc
  | markConnecting args => cases h; exact .setTunnel hpc
  | bringUp args awaited =>
      rw [advancePc] at h
      split at h
      next =>
          cases awaited <;> cases h <;> exact .quiet hpc
      next =>
          cases h
          exact ⟨moves_make hpc rfl rfl, moves_same hpc rfl, moves_same hpc rfl⟩
  | configure child args awaited =>
      rw [advancePc] at h
      split at h
      next =>
          cases awaited <;> cases h <;>
            exact ⟨moves_finish hpc rfl, moves_same hpc rfl, moves_same hpc rfl⟩
      next =>
          split at h <;> cases h
          · exact .quiet hpc
          · exact ⟨moves_finish hpc rfl, moves_same hpc rfl, moves_same hpc rfl⟩
  | record result =>
      cases result with
      | ok tunnel =>
          cases h
          exact ⟨moves_finish_cell.trans (moves_store hpc rfl), moves_same hpc rfl,
            moves_same hpc rfl⟩
      | error message => cases h; exact .setTunnel hpc
  | disconnect => cases h; exact .setTunnel hpc
  | tailStart path fromOffset =>
      rw [advancePc] at h
      split at h <;> cases h <;> exact .quiet hpc
  | stopTail start =>
      cases start <;> cases h <;>
        exact ⟨moves_same hpc rfl, moves_same hpc rfl, moves_finish_cell.trans (moves_same hpc rfl)⟩
  | spawnTail path fromOffset awaited =>
      rw [advancePc] at h
      split at h
      next => cases h; exact .quiet hpc
      next =>
          split at h
          next => cases h; exact .quiet hpc
          next =>
              split at h <;> cases h
              · exact ⟨moves_same hpc rfl, moves_same hpc rfl, moves_make hpc rfl rfl⟩
              · exact ⟨moves_same hpc rfl, moves_same hpc rfl, moves_make_forget hpc rfl rfl⟩
  | storeTail session =>
      cases h
      exact ⟨moves_same hpc rfl, moves_same hpc rfl, moves_forget_cell.trans (moves_store hpc rfl)⟩
  | answered refusal => cases h

theorem stepped_of_dropPc (hpc : w.threads i = some pc)
    (h : dropPc w begun pc = some (v, next)) : Stepped w (v.setPc i next) := by
  unfold dropPc at h
  split at h
  next => cases begun <;> cases h <;> exact .quiet hpc
  next => cases begun <;> cases h <;> exact .quiet hpc
  next => cases h; exact .quiet hpc
  next =>
      cases h
      exact ⟨moves_finish hpc rfl, moves_same hpc rfl, moves_same hpc rfl⟩
  next => cases h; exact .quiet hpc
  next => cases begun <;> cases h <;> exact .quiet hpc
  next => cases begun <;> cases h <;> exact .quiet hpc
  next =>
      cases h
      exact ⟨moves_same hpc rfl, moves_same hpc rfl, moves_forget hpc rfl⟩
  next =>
      cases h
      exact ⟨moves_same hpc rfl, moves_finish hpc rfl, moves_same hpc rfl⟩
  next => cases h

/-- A request that arrives holds nothing. -/
theorem stepped_of_request (hfree : w.threads i = none) (hentry : pc.isEntry = true) :
    Stepped w (w.setPc i pc) := by
  have hnone : pc.tunnelChild = none ∧ pc.pinFile = none ∧ pc.tailChild = none := by
    cases pc with
    | setEnvironment _ | connect | disconnect | tailStart _ _ | stopTail _ => exact ⟨rfl, rfl, rfl⟩
    | _ => cases hentry
  exact ⟨moves_arrive hfree hnone.1, moves_arrive hfree hnone.2.1, moves_arrive hfree hnone.2.2⟩

/-- Each step is some moves of each custody, whatever the request. -/
theorem stepped_of_step {a : Action} (h : step w a = some v) : Stepped w v := by
  cases a with
  | request thread pc =>
      rw [step] at h
      split at h
      next hentry =>
          cases h
          rw [Bool.and_eq_true, Option.isNone_iff_eq_none] at hentry
          exact stepped_of_request hentry.1 hentry.2
      next => cases h
  | advance thread chance =>
      obtain ⟨pc, hpc, hadvance⟩ := Option.bind_eq_some_iff.mp h
      obtain ⟨⟨u, next⟩, hnext, rfl⟩ := Option.map_eq_some_iff.mp hadvance
      exact stepped_of_advancePc hpc hnext
  | drop thread begun =>
      obtain ⟨pc, hpc, hdrop⟩ := Option.bind_eq_some_iff.mp h
      obtain ⟨⟨u, next⟩, hnext, rfl⟩ := Option.map_eq_some_iff.mp hdrop
      exact stepped_of_dropPc hpc hnext
  | exitTunnel child =>
      rw [step] at h
      split at h <;> cases h
      exact ⟨.vanish _ child, .refl _, .refl _⟩
  | exitTail child =>
      rw [step] at h
      split at h <;> cases h
      exact ⟨.refl _, .refl _, .vanish _ child⟩

/-- Every reachable world has each custody sound. -/
structure Kept (w : World) : Prop where
  tunnels : w.tunnelCustody.Sound
  pins : w.pinCustody.Sound
  tails : w.tailCustody.Sound

theorem kept_of_run {defaultBin : Option Text} {actions : List Action}
    (h : run step (World.start defaultBin) actions = some w) : Kept w := by
  apply run_invariant (I := Kept) _ h
  · have hnobody : ∀ (held : Pc → Option Nat) (k : Holder),
        (custody none held (fun _ => none) {} []).holds k = none := by
      intro held k
      cases k <;> rfl
    exact ⟨.start (hnobody _), .start (hnobody _), .start (hnobody _)⟩
  · intro w a v hw hstep
    have hstepped := stepped_of_step hstep
    exact ⟨hw.tunnels.moves hstepped.tunnels, hw.pins.moves hstepped.pins,
      hw.tails.moves hstepped.tails⟩

end Genaryx.Remote
