import Genaryx.Base.Transition
import Genaryx.Wg.Journaled

/-!
# Requests side by side

Issues and revokes run at the same time. Each reads the interface, settles what it will do,
changes a peer and ends, and any other request may do any of its own steps in between.

## Implementation notes

`Tunnel.drawn` and `Tunnel.revoked` are kept for the statements: the keys that were drawn so
far, and those that a request took off the interface and none has put there since. A key pair
is random, so no key is drawn twice.
-/

namespace Genaryx.Wg

open Base

/-- Where a request is. -/
inductive Pc
  | read
  | choose (backend : PeerBackend) (host : Text) (state : InterfaceState)
  | add (backend : PeerBackend) (host : Text) (chosen : Chosen)
  | render (host : Text) (chosen : Chosen)
  | issued (result : Blocking RemoteWgOperatorConfigDto)
  | readPeer (publicKeyB64 : Text)
  | remove (publicKeyB64 : Text) (backend : PeerBackend) (hex : Text) (wasPresent : Bool)
  | reread (publicKeyB64 : Text) (backend : PeerBackend) (wasPresent : Bool)
  | revoked (result : Blocking RemoteWgRevokeDto)

/-- What the next step of a request gets from outside. -/
structure Answer where
  read : Option Fault := none
  drawn : Except Text WgKeypair := .error []
  change : Change := .applied

variable (d : Deployment) (L : Libraries)

/-- The next step of a request, unless it has ended. -/
def advance (answer : Answer) : Pc → Interface → Option (Pc × Interface)
  | .read, w =>
      let settled : Blocking (PeerBackend × Text × InterfaceState) := do
        let backend ← d.resolveBackend.mapError .failed
        let host ← d.resolveEndpointHost.mapError .failed
        return (backend, host, ← readState d backend answer.read w)
      match settled with
      | .error e => some (.issued (.error e), w)
      | .ok (backend, host, state) => some (.choose backend host state, w)
  | .choose backend host state, w =>
      match choose d L state answer.drawn with
      | .error e => some (.issued (.error e), w)
      | .ok chosen => some (.add backend host chosen, w)
  | .add backend host chosen, w =>
      match addPeer d L backend chosen.publicHex chosen.clientIp answer.change w with
      | (.error e, u) => some (.issued (.error e), u)
      | (.ok (), u) => some (.render host chosen, u)
  | .render host chosen, w => some (.issued (render d L host chosen), w)
  | .readPeer publicKeyB64, w =>
      match prepareRevoke d L publicKeyB64 { read := answer.read } w with
      | .error e => some (.revoked (.error e), w)
      | .ok (backend, hex, wasPresent) => some (.remove publicKeyB64 backend hex wasPresent, w)
  | .remove publicKeyB64 backend hex wasPresent, w =>
      match removePeer d L backend hex answer.change w with
      | (.error e, u) => some (.revoked (.error e), u)
      | (.ok (), u) => some (.reread publicKeyB64 backend wasPresent, u)
  | .reread publicKeyB64 backend wasPresent, w =>
      match readState d backend answer.read w with
      | .error e => some (.revoked (.error e), w)
      | .ok after => some (.revoked (.ok ⟨publicKeyB64, wasPresent, after.peers.length⟩), w)
  | .issued _, _ | .revoked _, _ => none

/-- A request that runs on, with an answer for each step. -/
def runOn (pc : Pc) (w : Interface) (answers : List Answer) : Pc × Interface :=
  answers.foldl (fun s answer => (advance d L answer s.1 s.2).getD s) (pc, w)

/-- The interface and the requests on it. -/
structure Tunnel where
  interface : Interface
  calls : Nat → Option Pc := fun _ => none
  drawn : List Text := []
  revoked : List Text := []

/-- A request arrives, or one takes its next step. -/
inductive Action
  | issue (i : Nat)
  | revoke (i : Nat) (publicKeyB64 : Text)
  | advance (i : Nat) (answer : Answer)

/-- The public key that a step draws. -/
def drawnKey (answer : Answer) : Pc → Option Text
  | .choose .. => answer.drawn.toOption.map WgKeypair.publicHex
  | _ => none

/-- The keys that are off the interface after a step. -/
def revokedAfter (answer : Answer) (revoked : List Text) : Pc → List Text
  | .add _ _ chosen =>
      if answer.change.took then revoked.filter (· ≠ chosen.publicHex) else revoked
  | .remove _ _ hex _ => if answer.change.took then hex :: revoked else revoked
  | _ => revoked

namespace Tunnel

variable (w : Tunnel)

/-- A call comes to stand at a place. -/
def setCall (i : Nat) (pc : Pc) : Tunnel :=
  { w with calls := fun j => if j = i then some pc else w.calls j }

def step : Action → Option Tunnel
  | .issue i => if (w.calls i).isNone then some (w.setCall i .read) else none
  | .revoke i publicKeyB64 =>
      if (w.calls i).isNone then some (w.setCall i (.readPeer publicKeyB64)) else none
  | .advance i answer =>
      match w.calls i with
      | none => none
      | some pc =>
          if (drawnKey answer pc).any (· ∈ w.drawn) then none
          else (Wg.advance d L answer pc w.interface).map fun next =>
            ({ w with
                interface := next.2
                drawn := (drawnKey answer pc).toList ++ w.drawn
                revoked := revokedAfter answer w.revoked pc }).setCall i next.1

/-- A step that gives a peer its address finds no other peer that has it. -/
def givesFree : Action → Bool
  | .advance i answer =>
      match w.calls i with
      | some (.add _ _ chosen) =>
          !answer.change.took || w.interface.peers.all fun p =>
            p.has chosen.publicHex || !p.allowedIps.contains (single chosen.clientIp)
      | _ => true
  | _ => true

/-- Each peer that was issued, and not revoked since, has the address that its request gave. -/
def KeepsIssued : Prop :=
  ∀ i dto key, w.calls i = some (.issued (.ok dto)) → b64ToHex L dto.peerPublicKey = .ok key →
    key ∉ w.revoked → allowedIps w.interface.peers key = some [single dto.clientIp]

end Tunnel

variable {d L}

/-! ## A request on its own -/

/-- An issue that nothing comes between is the blocking call. -/
theorem runOn_issue (answers : IssueAnswers) (w : Interface) :
    runOn d L .read w [{ read := answers.read }, { drawn := answers.drawn },
      { change := answers.add }, {}] =
      (.issued (issueBlocking d L answers w).1, (issueBlocking d L answers w).2) := by
  unfold issueBlocking prepareIssue
  simp only [runOn, List.foldl_cons, List.foldl_nil]
  cases hbackend : d.resolveBackend with
  | error e => simp [advance, hbackend, Except.mapError, bind, Except.bind]
  | ok backend =>
      cases hhost : d.resolveEndpointHost with
      | error e => simp [advance, hbackend, hhost, Except.mapError, bind, Except.bind]
      | ok host =>
          cases hread : readState d backend answers.read w with
          | error e => simp [advance, hbackend, hhost, hread, Except.mapError, bind, Except.bind]
          | ok state =>
              cases hchoose : choose d L state answers.drawn with
              | error e =>
                  simp [advance, hbackend, hhost, hread, hchoose, Except.mapError, bind,
                    Except.bind, pure, Except.pure]
              | ok chosen =>
                  cases hadd : addPeer d L backend chosen.publicHex chosen.clientIp answers.add w
                    with
                  | mk r u =>
                      cases r <;> simp [advance, hbackend, hhost, hread, hchoose, hadd,
                        Except.mapError, bind, Except.bind, pure, Except.pure]

/-- A revoke that nothing comes between is the blocking call. -/
theorem runOn_revoke (publicKeyB64 : Text) (answers : RevokeAnswers) (w : Interface) :
    runOn d L (.readPeer publicKeyB64) w [{ read := answers.read },
      { change := answers.remove }, { read := answers.reread }] =
      (.revoked (revokeBlocking d L publicKeyB64 answers w).1,
        (revokeBlocking d L publicKeyB64 answers w).2) := by
  have hread : prepareRevoke d L publicKeyB64 { read := answers.read } w =
      prepareRevoke d L publicKeyB64 answers w := rfl
  unfold revokeBlocking
  simp only [runOn, List.foldl_cons, List.foldl_nil]
  cases hprepared : prepareRevoke d L publicKeyB64 answers w with
  | error e => simp [advance, hread, hprepared]
  | ok prepared =>
      obtain ⟨backend, hex, wasPresent⟩ := prepared
      cases hremove : removePeer d L backend hex answers.remove w with
      | mk r u =>
          cases r with
          | error e => simp [advance, hread, hprepared, hremove]
          | ok _ =>
              cases hreread : readState d backend answers.reread u <;>
                simp [advance, hread, hprepared, hremove, hreread]

end Genaryx.Wg
