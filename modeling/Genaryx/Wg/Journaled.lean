import Genaryx.Base.Base64
import Genaryx.Base.Items
import Genaryx.Wg.Operator

/-!
# What is journaled of a change

A request that ends well has changed the peer that its journal line names, and no other. A
request that ends in an error is not journaled, so it must have changed nothing: that is so
unless a step fails after the change has taken effect.
-/

namespace Genaryx.Wg

open Base

variable {d : Deployment} {L : Libraries} {w : Interface}

/-- One call of a request. -/
inductive Request
  | wgConfig (task : Task) (answers : IssueAnswers)
  | wgRevoke (publicKeyB64 : Text) (task : Task) (answers : RevokeAnswers)

namespace Request

/-- The error of a call, the interface after it, and what it journals. -/
def perform (d : Deployment) (L : Libraries) (w : Interface) :
    Request → (Option WgOperatorError × Interface) × List PeerAction
  | wgConfig task answers =>
      let r := operatorWgConfig d L task answers w
      ((match r.1.1 with | .error e => some e | .ok _ => none, r.1.2), r.2)
  | wgRevoke publicKeyB64 task answers =>
      let r := operatorWgRevoke d L publicKeyB64 task answers w
      ((match r.1.1 with | .error e => some e | .ok _ => none, r.1.2), r.2)

/-- A call that fails changes no peer, and what a call changes is named by its one journal
line. -/
def TellsAll (d : Deployment) (L : Libraries) (w : Interface) (r : Request) : Prop :=
  ((r.perform d L w).1.1.isSome = true → (r.perform d L w).1.2.peers = w.peers) ∧
    ∀ key, allowedIps (r.perform d L w).1.2.peers key ≠ allowedIps w.peers key →
      ∃ act, (r.perform d L w).2 = [act] ∧ b64ToHex L act.target = .ok key

/-- Whether a step fails after the change of a peer has taken effect. -/
def failsAfterChange (d : Deployment) (L : Libraries) (w : Interface) : Request → Bool
  | wgConfig (.neverRan _) _ | wgRevoke _ (.neverRan _) _ => false
  | wgConfig (.ran _) answers =>
      match prepareIssue d L answers w, answers.add with
      | .error _, _ | .ok _, .refused _ => false
      | .ok _, .lost _ => true
      | .ok (_, host, chosen), .applied => (renderQrSvg L (chosen.conf host)).toOption.isNone
  | wgRevoke publicKeyB64 (.ran _) answers =>
      match prepareRevoke d L publicKeyB64 answers w, answers.remove with
      | .error _, _ | .ok _, .refused _ => false
      | .ok (_, _, wasPresent), .lost _ => wasPresent
      | .ok (_, _, wasPresent), .applied => wasPresent && answers.reread.isSome

end Request

/-! ## What a request settles -/

theorem choose_eq_ok {state : InterfaceState} {drawn : Except Text WgKeypair} {chosen : Chosen}
    (h : choose d L state drawn = .ok chosen) :
    nextFreeClientIp state = some chosen.clientIp ∧ ∃ keypair, drawn = .ok keypair ∧
      chosen.publicHex = keypair.publicHex ∧ chosen.publicB64 = L.base64 keypair.publicKey := by
  unfold choose at h
  cases hserver : (state.publicKeyB64 L : Blocking (Option Text)) with
  | error e => rw [hserver] at h; cases h
  | ok server =>
      rw [hserver] at h
      cases server with
      | none => cases h
      | some server =>
          cases hport : state.listenPort with
          | none => rw [hport] at h; cases h
          | some port =>
              rw [hport] at h
              cases hip : nextFreeClientIp state with
              | none => rw [hip] at h; cases h
              | some ip =>
                  rw [hip] at h
                  cases drawn with
                  | error e => cases h
                  | ok keypair =>
                      dsimp only [WgKeypair.privateHex, WgKeypair.publicHex] at h
                      rw [hexToB64_hexLower L keypair.private_length,
                        hexToB64_hexLower L keypair.public_length] at h
                      cases h
                      exact ⟨rfl, keypair, rfl, rfl, rfl⟩

theorem state_of_readState {backend : PeerBackend} {fault : Option Fault} {state : InterfaceState}
    (h : readState d backend fault w = .ok state) : state = w.state := by
  cases fault with
  | none => cases h; rfl
  | some f => cases h

/-- The address that an issue chose is free on the interface that it read. -/
theorem prepareIssue_eq_ok {answers : IssueAnswers} {backend : PeerBackend} {host : Text}
    {chosen : Chosen} (h : prepareIssue d L answers w = .ok (backend, host, chosen)) :
    nextFreeClientIp w.state = some chosen.clientIp ∧ ∃ keypair, answers.drawn = .ok keypair ∧
      chosen.publicHex = keypair.publicHex ∧ chosen.publicB64 = L.base64 keypair.publicKey := by
  obtain ⟨_, _, h⟩ := bind_eq_ok h
  obtain ⟨_, _, h⟩ := bind_eq_ok h
  obtain ⟨state, hread, h⟩ := bind_eq_ok h
  obtain ⟨_, hchoose, h⟩ := bind_eq_ok h
  cases h
  rw [← state_of_readState hread]
  exact choose_eq_ok hchoose

theorem prepareRevoke_eq_ok {publicKeyB64 hex : Text} {answers : RevokeAnswers}
    {backend : PeerBackend} {wasPresent : Bool}
    (h : prepareRevoke d L publicKeyB64 answers w = .ok (backend, hex, wasPresent)) :
    b64ToHex L publicKeyB64 = .ok hex ∧ wasPresent = w.state.hasPeer hex := by
  obtain ⟨_, _, h⟩ := bind_eq_ok h
  obtain ⟨key, hkey, h⟩ := bind_eq_ok h
  obtain ⟨state, hread, h⟩ := bind_eq_ok h
  cases h
  exact ⟨mapError_eq_ok hkey, by rw [state_of_readState hread]⟩

/-- What is sent for a key that was written in hexadecimal. -/
theorem sendChange_of_eq_hexLower (backend : PeerBackend) {key : Bytes} (hkey : key.length = 32)
    {hex : Text} (hhex : hex = hexLower key) (change : Change) (w u : Interface) :
    sendChange d L backend hex change w u =
      match change with
      | .refused f => (.error (.failed (changeError d f backend)), w)
      | .applied => (.ok (), u)
      | .lost f => (.error (.failed (changeError d f backend)), u) := by
  subst hhex
  cases change <;> simp only [sendChange, decodeHex32_hexLower L hkey]

/-- What an issue comes to when all before its change went well. -/
theorem issueBlocking_of_prepared {answers : IssueAnswers} {backend : PeerBackend} {host : Text}
    {chosen : Chosen} (h : prepareIssue d L answers w = .ok (backend, host, chosen)) :
    issueBlocking d L answers w =
      match answers.add with
      | .refused f => (.error (.failed (changeError d f backend)), w)
      | .applied =>
          (render d L host chosen, w.addPeer chosen.publicHex (single chosen.clientIp))
      | .lost f => (.error (.failed (changeError d f backend)),
          w.addPeer chosen.publicHex (single chosen.clientIp)) := by
  obtain ⟨_, keypair, _, hhex, _⟩ := prepareIssue_eq_ok h
  unfold issueBlocking addPeer
  rw [h]
  dsimp only
  rw [sendChange_of_eq_hexLower backend keypair.public_length hhex]
  cases answers.add <;> rfl

/-- What a revoke comes to when all before its change went well. -/
theorem revokeBlocking_of_prepared {publicKeyB64 hex : Text} {answers : RevokeAnswers}
    {backend : PeerBackend} {wasPresent : Bool}
    (h : prepareRevoke d L publicKeyB64 answers w = .ok (backend, hex, wasPresent)) :
    revokeBlocking d L publicKeyB64 answers w =
      match answers.remove with
      | .refused f => (.error (.failed (changeError d f backend)), w)
      | .applied =>
          match answers.reread with
          | some f => (.error (.failed (readError d f backend)), w.removePeer hex)
          | none =>
              (.ok ⟨publicKeyB64, wasPresent, (w.removePeer hex).peers.length⟩, w.removePeer hex)
      | .lost f => (.error (.failed (changeError d f backend)), w.removePeer hex) := by
  obtain ⟨key, hlength, hhex⟩ := exists_of_b64ToHex (prepareRevoke_eq_ok h).1
  unfold revokeBlocking removePeer
  rw [h]
  dsimp only
  rw [sendChange_of_eq_hexLower backend hlength hhex]
  cases answers.remove with
  | refused f => rfl
  | lost f => rfl
  | applied => cases answers.reread <;> rfl

/-! ## What a change does to the peers -/

/-- Giving a peer an address that is free changes that peer and no other. -/
theorem eq_of_changed_addPeer {key ip other : Text} (hfree : nextFreeClientIp w.state = some ip)
    (h : allowedIps (w.addPeer key (single ip)).peers other ≠ allowedIps w.peers other) :
    other = key := by
  by_contra hne
  refine h ((allowedIps_assign_of_ne hne).trans ?_)
  cases hfind : allowedIps w.peers other with
  | none => rfl
  | some ips =>
      obtain ⟨p, hp, rfl⟩ := Option.map_eq_some_iff.mp hfind
      have habsent := notMem_of_nextFreeClientIp hfree p (List.mem_of_find?_eq_some hp)
      refine congrArg some (List.filter_eq_self.mpr fun c hc => decide_eq_true fun heq => ?_)
      exact habsent (heq ▸ hc)

/-- Giving a peer an address that is free does change it. -/
theorem addPeer_changes (key : Text) {ip : Text} (hfree : nextFreeClientIp w.state = some ip) :
    (w.addPeer key (single ip)).peers ≠ w.peers := by
  intro heq
  have hgiven : allowedIps w.peers key = some [single ip] := by
    rw [← heq]
    exact allowedIps_assign
  obtain ⟨p, hp, hips⟩ := Option.map_eq_some_iff.mp hgiven
  refine notMem_of_nextFreeClientIp hfree p (List.mem_of_find?_eq_some hp) ?_
  rw [hips]
  exact List.mem_singleton_self _

theorem eq_of_changed_removePeer {key other : Text}
    (h : allowedIps (w.removePeer key).peers other ≠ allowedIps w.peers other) : other = key := by
  by_contra hne
  exact h (allowedIps_filter_of_ne hne)

theorem hasPeer_iff {key : Bytes} :
    w.state.hasPeer (hexLower key) = true ↔ ∃ p ∈ w.peers, p.has (hexLower key) = true := by
  have htrim : (hexLower key).trim = hexLower key :=
    Text.trim_of_clean (forall_mem_hexLower (by decide) key)
  rw [InterfaceState.hasPeer, htrim]
  exact List.any_eq_true

/-- Removing a peer changes the peers if it was there. -/
theorem removePeer_peers_eq_iff {key : Bytes} :
    (w.removePeer (hexLower key)).peers = w.peers ↔ w.state.hasPeer (hexLower key) = false := by
  rw [← Bool.not_eq_true, hasPeer_iff]
  refine List.filter_eq_self.trans ⟨?_, ?_⟩
  · rintro hkeep ⟨p, hp, hhas⟩
    have hp' := hkeep p hp
    rw [hhas] at hp'
    exact absurd hp' (by decide)
  · intro habsent p hp
    rw [Bool.eq_false_iff.mpr fun hhas => habsent ⟨p, hp, hhas⟩]
    rfl

/-! ## Whole calls -/

namespace Request

/-- A call that leaves the peers alone and a call that has its one line are told. -/
theorem tellsAll_of_peers_eq {r : Request} (h : (r.perform d L w).1.2.peers = w.peers) :
    r.TellsAll d L w :=
  ⟨fun _ => h, fun key hkey => absurd (congrArg (allowedIps · key) h) hkey⟩

theorem not_tellsAll {r : Request} (herror : (r.perform d L w).1.1.isSome = true)
    (h : (r.perform d L w).1.2.peers ≠ w.peers) : ¬ r.TellsAll d L w :=
  fun htells => h (htells.1 herror)

theorem tellsAll_wgConfig_iff (hL : L.Lawful) (task : Task) (answers : IssueAnswers) :
    (wgConfig task answers).TellsAll d L w ↔
      (wgConfig task answers).failsAfterChange d L w = false := by
  cases task with
  | neverRan why => exact iff_of_true (tellsAll_of_peers_eq rfl) rfl
  | ran why =>
      cases hprepared : prepareIssue d L answers w with
      | error e =>
          refine iff_of_true (tellsAll_of_peers_eq ?_) ?_
          · simp only [perform, operatorWgConfig, spawnBlocking, issueBlocking, hprepared]
            cases e <;> rfl
          · simp only [failsAfterChange, hprepared]
      | ok prepared =>
          obtain ⟨backend, host, chosen⟩ := prepared
          obtain ⟨hfree, keypair, _, hhex, hb64⟩ := prepareIssue_eq_ok hprepared
          have hcall := issueBlocking_of_prepared hprepared
          have hchanges := addPeer_changes chosen.publicHex hfree
          cases hadd : answers.add with
          | refused f =>
              rw [hadd] at hcall
              refine iff_of_true (tellsAll_of_peers_eq ?_) ?_
              · simp only [perform, operatorWgConfig, spawnBlocking, hcall, joined]
              · simp only [failsAfterChange, hprepared, hadd]
          | lost f =>
              rw [hadd] at hcall
              refine iff_of_false (not_tellsAll ?_ ?_) ?_
              · simp only [perform, operatorWgConfig, spawnBlocking, hcall, joined,
                  Option.isSome_some]
              · simpa only [perform, operatorWgConfig, spawnBlocking, hcall, joined]
              · simp only [failsAfterChange, hprepared, hadd, Bool.true_eq_false, not_false_eq_true]
          | applied =>
              rw [hadd] at hcall
              cases hqr : renderQrSvg L (chosen.conf host) with
              | error e =>
                  refine iff_of_false (not_tellsAll ?_ ?_) ?_
                  · simp only [perform, operatorWgConfig, spawnBlocking, hcall, render, hqr, joined,
                      Option.isSome_some]
                  · simpa only [perform, operatorWgConfig, spawnBlocking, hcall, render, hqr, joined]
                  · simp [failsAfterChange, hprepared, hadd, hqr, Except.toOption]
              | ok qrSvg =>
                  refine iff_of_true ⟨?_, ?_⟩ ?_
                  · simp only [perform, operatorWgConfig, spawnBlocking, hcall, render, hqr, joined,
                      Option.isSome_none, Bool.false_eq_true, false_implies]
                  · intro key hkey
                    simp only [perform, operatorWgConfig, spawnBlocking, hcall, render, hqr,
                      joined] at hkey ⊢
                    refine ⟨_, rfl, ?_⟩
                    rw [eq_of_changed_addPeer hfree hkey, hb64, hhex]
                    exact b64ToHex_base64 hL keypair.public_length
                  · simp [failsAfterChange, hprepared, hadd, hqr, Except.toOption]

theorem tellsAll_wgRevoke_iff (publicKeyB64 : Text) (task : Task) (answers : RevokeAnswers) :
    (wgRevoke publicKeyB64 task answers).TellsAll d L w ↔
      (wgRevoke publicKeyB64 task answers).failsAfterChange d L w = false := by
  cases task with
  | neverRan why => exact iff_of_true (tellsAll_of_peers_eq rfl) rfl
  | ran why =>
      cases hprepared : prepareRevoke d L publicKeyB64 answers w with
      | error e =>
          refine iff_of_true (tellsAll_of_peers_eq ?_) ?_
          · simp only [perform, operatorWgRevoke, spawnBlocking, revokeBlocking, hprepared]
            cases e <;> rfl
          · simp only [failsAfterChange, hprepared]
      | ok prepared =>
          obtain ⟨backend, hex, wasPresent⟩ := prepared
          obtain ⟨hhex, hpresent⟩ := prepareRevoke_eq_ok hprepared
          obtain ⟨key, _, hkey⟩ := exists_of_b64ToHex hhex
          have hcall := revokeBlocking_of_prepared hprepared
          have hsame : (w.removePeer hex).peers = w.peers ↔ wasPresent = false := by
            rw [hpresent, hkey]
            exact removePeer_peers_eq_iff
          cases hremove : answers.remove with
          | refused f =>
              rw [hremove] at hcall
              refine iff_of_true (tellsAll_of_peers_eq ?_) ?_
              · simp only [perform, operatorWgRevoke, spawnBlocking, hcall, joined]
              · simp only [failsAfterChange, hprepared, hremove]
          | lost f =>
              rw [hremove] at hcall
              simp only [failsAfterChange, hprepared, hremove]
              refine ⟨fun htells => hsame.mp ?_, fun h => tellsAll_of_peers_eq ?_⟩
              · simpa only [perform, operatorWgRevoke, spawnBlocking, hcall, joined,
                  Option.isSome_some, true_implies] using htells.1
              · simpa only [perform, operatorWgRevoke, spawnBlocking, hcall, joined] using
                  hsame.mpr h
          | applied =>
              rw [hremove] at hcall
              cases hreread : answers.reread with
              | some f =>
                  rw [hreread] at hcall
                  simp only [failsAfterChange, hprepared, hremove, hreread, Option.isSome_some,
                    Bool.and_true]
                  refine ⟨fun htells => hsame.mp ?_, fun h => tellsAll_of_peers_eq ?_⟩
                  · simpa only [perform, operatorWgRevoke, spawnBlocking, hcall, joined,
                      Option.isSome_some, true_implies] using htells.1
                  · simpa only [perform, operatorWgRevoke, spawnBlocking, hcall, joined] using
                      hsame.mpr h
              | none =>
                  rw [hreread] at hcall
                  refine iff_of_true ⟨?_, ?_⟩ ?_
                  · simp only [perform, operatorWgRevoke, spawnBlocking, hcall, joined,
                      Option.isSome_none, Bool.false_eq_true, false_implies]
                  · intro changed hchanged
                    simp only [perform, operatorWgRevoke, spawnBlocking, hcall, joined]
                      at hchanged ⊢
                    refine ⟨_, rfl, ?_⟩
                    rw [eq_of_changed_removePeer hchanged]
                    exact hhex
                  · simp only [failsAfterChange, hprepared, hremove, hreread, Option.isSome_none,
                      Bool.and_false]

/-- A call changes a peer without saying so exactly if a step fails after the change has taken
effect. -/
theorem tellsAll_iff (hL : L.Lawful) (r : Request) :
    r.TellsAll d L w ↔ r.failsAfterChange d L w = false := by
  cases r with
  | wgConfig task answers => exact tellsAll_wgConfig_iff hL task answers
  | wgRevoke publicKeyB64 task answers => exact tellsAll_wgRevoke_iff publicKeyB64 task answers

end Request

section Example

/-- Base64 as it is, and a QR code that holds what a code of the largest size does. -/
def plainLibraries : Libraries where
  base64 := Base64.encode
  base64Decode := Base64.decode
  debug := fun t => t
  qrDocument := fun bytes =>
    if bytes.length ≤ 2331 then .ok "<svg/>".toList else .error "data too long".toList

theorem plainLibraries_lawful : plainLibraries.Lawful where
  decode_encode := Base64.decode_encode
  clean := Base64.forall_mem_encode (by decide +kernel) (by decide)

/-- A single box whose tunnel is up. -/
def singleBox : Deployment where
  endpointHost := some "198.51.100.9".toList
  endpointExists := true

/-- The key of a device. -/
def deviceKey : Bytes := List.replicate 32 0xaa

/-- An interface with one device. -/
def oneDevice : Interface where
  publicKeyHex := some (hexLower (List.replicate 32 0x6b))
  listenPort := some 51820
  peers := [{ publicKeyHex := hexLower deviceKey, allowedIps := [single (clientIp 2)] }]
  nodup := List.nodup_singleton _

/-- A device is revoked, and told of. -/
theorem tellsAll_revoke : (Request.wgRevoke (Base64.encode deviceKey) (.ran []) {}).TellsAll
    singleBox plainLibraries oneDevice :=
  (Request.tellsAll_iff plainLibraries_lawful _).mpr (by decide)

/-- The device is gone and the daemon does not answer the second read: the call fails, and
nothing is journaled. -/
theorem revoked_in_silence : ¬ (Request.wgRevoke (Base64.encode deviceKey) (.ran [])
    { reread := some
        ⟨.io "/var/run/wireguard/wg-op.sock".toList "timed out".toList, []⟩ }).TellsAll
      singleBox plainLibraries oneDevice :=
  Request.not_tellsAll (by decide) (by decide)

end Example

end Genaryx.Wg
