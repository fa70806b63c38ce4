import Genaryx.Wg.Requests

/-!
# Who has an address

No two peers ever have one address, since the interface moves it. A peer that was issued keeps
the address its request gave, until it is revoked, as long as no request gives a peer an
address that another peer was given since the request read the interface.
-/

namespace Genaryx.Wg

open Base Transition

variable {d : Deployment} {L : Libraries}

/-! ## What a request holds -/

namespace Pc

/-- The key that a request drew for its peer. -/
def key (L : Libraries) : Pc → Option Text
  | .add _ _ chosen | .render _ chosen => some chosen.publicHex
  | .issued (.ok dto) => (b64ToHex L dto.peerPublicKey).toOption
  | _ => none

/-- The key and the address of the peer that a request has added. -/
def given (L : Libraries) : Pc → Option (Text × Text)
  | .render _ chosen => some (chosen.publicHex, chosen.clientIp)
  | .issued (.ok dto) => (b64ToHex L dto.peerPublicKey).toOption.map (·, dto.clientIp)
  | _ => none

/-- Keys are written as they are drawn or read. -/
def Sound (L : Libraries) : Pc → Prop
  | .add _ _ chosen | .render _ chosen => ∃ keypair : WgKeypair,
      chosen.publicHex = keypair.publicHex ∧ chosen.publicB64 = L.base64 keypair.publicKey
  | .remove _ _ hex _ => ∃ bytes : Bytes, bytes.length = 32 ∧ hex = hexLower bytes
  | _ => True

theorem key_of_given {pc : Pc} {key ip : Text} (h : pc.given L = some (key, ip)) :
    pc.key L = some key := by
  cases pc with
  | render host chosen => cases h; rfl
  | issued result =>
      cases result with
      | error e => cases h
      | ok dto =>
          obtain ⟨hex, hhex, heq⟩ := Option.map_eq_some_iff.mp h
          cases heq
          exact hhex
  | _ => cases h

end Pc

/-- The kinds of steps of one request: it draws a key, gives a peer an address, takes a peer
away, or leaves all that as it is. -/
inductive Moves (L : Libraries) (answer : Answer) (w : Interface) (pc pc' : Pc) :
    Interface → Prop
  | kept (hkey : ∀ key, pc'.key L = some key → pc.key L = some key)
      (hgiven : ∀ g, pc'.given L = some g → pc.given L = some g)
      (hrevoked : ∀ revoked, revokedAfter answer revoked pc = revoked) : Moves L answer w pc pc' w
  | drew (key : Text) (hdrawn : drawnKey answer pc = some key) (hkey : pc'.key L = some key)
      (hgiven : pc'.given L = none) (hrevoked : ∀ revoked, revokedAfter answer revoked pc = revoked) :
      Moves L answer w pc pc' w
  | gave {backend : PeerBackend} {host : Text} {chosen : Chosen} (hpc : pc = .add backend host chosen)
      (hkey : ∀ key, pc'.key L = some key → key = chosen.publicHex)
      (hgiven : ∀ g, pc'.given L = some g → g = (chosen.publicHex, chosen.clientIp))
      (htook : answer.change.took = true) :
      Moves L answer w pc pc' (w.addPeer chosen.publicHex (single chosen.clientIp))
  | took {publicKeyB64 hex : Text} {backend : PeerBackend} {wasPresent : Bool}
      (hpc : pc = .remove publicKeyB64 backend hex wasPresent) (hkey : pc'.key L = none)
      (hgiven : pc'.given L = none) (htook : answer.change.took = true) :
      Moves L answer w pc pc' (w.removePeer hex)

section Steps

variable {answer : Answer} {pc pc' : Pc} {w u : Interface}

theorem moves_of_add {backend : PeerBackend} {host : Text} {chosen : Chosen}
    (hsound : Pc.Sound L (.add backend host chosen))
    (h : advance d L answer (.add backend host chosen) w = some (pc', u)) :
    Moves L answer w (.add backend host chosen) pc' u ∧ pc'.Sound L := by
  obtain ⟨keypair, hhex, hb64⟩ := hsound
  rw [advance, addPeer, sendChange_of_eq_hexLower backend keypair.public_length hhex] at h
  cases hchange : answer.change with
  | refused f =>
      rw [hchange] at h
      cases h
      refine ⟨.kept (fun _ hkey => by cases hkey) (fun _ hgiven => by cases hgiven) ?_, trivial⟩
      intro revoked
      rw [revokedAfter, hchange]
      rfl
  | lost f =>
      rw [hchange] at h
      cases h
      exact ⟨.gave rfl (fun _ hkey => by cases hkey) (fun _ hgiven => by cases hgiven)
        (by rw [hchange]; rfl), trivial⟩
  | applied =>
      rw [hchange] at h
      cases h
      exact ⟨.gave rfl (fun _ hkey => (Option.some.inj hkey).symm)
        (fun _ hgiven => (Option.some.inj hgiven).symm) (by rw [hchange]; rfl),
        keypair, hhex, hb64⟩

theorem moves_of_remove {publicKeyB64 hex : Text} {backend : PeerBackend} {wasPresent : Bool}
    (hsound : Pc.Sound L (.remove publicKeyB64 backend hex wasPresent))
    (h : advance d L answer (.remove publicKeyB64 backend hex wasPresent) w = some (pc', u)) :
    Moves L answer w (.remove publicKeyB64 backend hex wasPresent) pc' u ∧ pc'.Sound L := by
  obtain ⟨key, hlength, hhex⟩ := hsound
  rw [advance, removePeer, sendChange_of_eq_hexLower backend hlength hhex] at h
  cases hchange : answer.change with
  | refused f =>
      rw [hchange] at h
      cases h
      refine ⟨.kept (fun _ hkey => by cases hkey) (fun _ hgiven => by cases hgiven) ?_, trivial⟩
      intro revoked
      rw [revokedAfter, hchange]
      rfl
  | lost f =>
      rw [hchange] at h
      cases h
      exact ⟨.took rfl rfl rfl (by rw [hchange]; rfl), trivial⟩
  | applied =>
      rw [hchange] at h
      cases h
      exact ⟨.took rfl rfl rfl (by rw [hchange]; rfl), trivial⟩

/-- A step that ends its request, or that only looks, holds no more than it did. -/
theorem Moves.of_none (hkey : pc'.key L = none) (hgiven : pc'.given L = none)
    (hrevoked : ∀ revoked, revokedAfter answer revoked pc = revoked) : Moves L answer w pc pc' w :=
  .kept (fun _ h => by rw [hkey] at h; cases h) (fun _ h => by rw [hgiven] at h; cases h) hrevoked

/-- What each step of a request is. -/
theorem moves_of_advance (hL : L.Lawful) (hsound : pc.Sound L)
    (h : advance d L answer pc w = some (pc', u)) : Moves L answer w pc pc' u ∧ pc'.Sound L := by
  cases pc with
  | read =>
      simp only [advance] at h
      split at h
      · cases h
        exact ⟨.of_none rfl rfl fun _ => rfl, trivial⟩
      · cases h
        exact ⟨.of_none rfl rfl fun _ => rfl, trivial⟩
  | choose backend host state =>
      rw [advance] at h
      split at h
      · cases h
        exact ⟨.of_none rfl rfl fun _ => rfl, trivial⟩
      · next chosen hchoose =>
          cases h
          obtain ⟨_, keypair, hdrawn, hhex, hb64⟩ := choose_eq_ok hchoose
          refine ⟨.drew chosen.publicHex ?_ rfl rfl fun _ => rfl, keypair, hhex, hb64⟩
          rw [drawnKey, hdrawn, hhex]
          rfl
  | add backend host chosen => exact moves_of_add hsound h
  | render host chosen =>
      obtain ⟨keypair, hhex, hb64⟩ := hsound
      cases h
      cases hrender : render d L host chosen with
      | error e => exact ⟨.of_none rfl rfl fun _ => rfl, trivial⟩
      | ok dto =>
          obtain ⟨hpeer, hip⟩ : dto.peerPublicKey = chosen.publicB64 ∧
              dto.clientIp = chosen.clientIp := by
            unfold render at hrender
            split at hrender
            · cases hrender
            · cases hrender
              exact ⟨rfl, rfl⟩
          have hback : (b64ToHex L dto.peerPublicKey).toOption = some chosen.publicHex := by
            rw [hpeer, hb64, b64ToHex_base64 hL keypair.public_length, hhex]
            rfl
          refine ⟨.kept (fun key hkey => ?_) (fun g hg => ?_) fun _ => rfl, trivial⟩
          · rw [← hkey, Pc.key, Pc.key, hback]
          · rw [← hg, Pc.given, Pc.given, hback, hip]
            rfl
  | readPeer publicKeyB64 =>
      simp only [advance] at h
      split at h
      · cases h
        exact ⟨.of_none rfl rfl fun _ => rfl, trivial⟩
      · next hprepared =>
          cases h
          exact ⟨.of_none rfl rfl fun _ => rfl, exists_of_b64ToHex (prepareRevoke_eq_ok hprepared).1⟩
  | remove publicKeyB64 backend hex wasPresent => exact moves_of_remove hsound h
  | reread publicKeyB64 backend wasPresent =>
      rw [advance] at h
      split at h
      · cases h
        exact ⟨.of_none rfl rfl fun _ => rfl, trivial⟩
      · cases h
        exact ⟨.of_none rfl rfl fun _ => rfl, trivial⟩
  | issued result => cases h
  | revoked result => cases h

end Steps

/-! ## All requests -/

namespace Tunnel

/-- Every request is where it should be, every key was drawn by one request, and no two peers
have one address. -/
structure Sound (L : Libraries) (w : Tunnel) : Prop where
  calls : ∀ i pc, w.calls i = some pc → pc.Sound L
  drawn : ∀ i pc key, w.calls i = some pc → pc.key L = some key → key ∈ w.drawn
  alone : ∀ i j pc pc' key, w.calls i = some pc → w.calls j = some pc' →
    pc.key L = some key → pc'.key L = some key → i = j
  apart : Apart w.interface.peers

/-- A peer that was added, and not revoked since, has the address it was given. -/
def KeepsGiven (L : Libraries) (w : Tunnel) : Prop :=
  ∀ i pc key ip, w.calls i = some pc → pc.given L = some (key, ip) → key ∉ w.revoked →
    allowedIps w.interface.peers key = some [single ip]

variable {w u : Tunnel} {a : Action}

/-- What one step of the tunnel is: a request arrives, or one advances. -/
theorem step_eq_some (h : w.step d L a = some u) :
    (∃ i pc, w.calls i = none ∧ (pc = .read ∨ ∃ key, pc = .readPeer key) ∧ u = w.setCall i pc) ∨
      ∃ i answer pc next, a = .advance i answer ∧ w.calls i = some pc ∧
        (∀ key, drawnKey answer pc = some key → key ∉ w.drawn) ∧
        advance d L answer pc w.interface = some next ∧
        u = ({ w with
          interface := next.2
          drawn := (drawnKey answer pc).toList ++ w.drawn
          revoked := revokedAfter answer w.revoked pc }).setCall i next.1 := by
  cases a with
  | issue i =>
      rw [step] at h
      split at h
      · next hfree =>
          cases h
          exact .inl ⟨i, .read, Option.isNone_iff_eq_none.mp hfree, .inl rfl, rfl⟩
      · cases h
  | revoke i key =>
      rw [step] at h
      split at h
      · next hfree =>
          cases h
          exact .inl ⟨i, .readPeer key, Option.isNone_iff_eq_none.mp hfree, .inr ⟨key, rfl⟩, rfl⟩
      · cases h
  | advance i answer =>
      rw [step] at h
      split at h
      · cases h
      · next pc hcall =>
          split at h
          · cases h
          · next hfresh =>
              obtain ⟨next, hnext, rfl⟩ := Option.map_eq_some_iff.mp h
              refine .inr ⟨i, answer, pc, next, rfl, hcall, fun key hkey hmem => hfresh ?_, hnext,
                rfl⟩
              rw [hkey]
              exact decide_eq_true hmem

theorem calls_setCall {i j : Nat} {pc pc' : Pc} (h : (w.setCall i pc).calls j = some pc') :
    (j = i ∧ pc' = pc) ∨ (j ≠ i ∧ w.calls j = some pc') := by
  simp only [setCall] at h
  by_cases hj : j = i
  · rw [if_pos hj] at h
    exact .inl ⟨hj, (Option.some.inj h).symm⟩
  · rw [if_neg hj] at h
    exact .inr ⟨hj, h⟩

/-- A request that has just arrived holds nothing. -/
theorem arrived {pc : Pc} (h : pc = .read ∨ ∃ key, pc = .readPeer key) :
    pc.Sound L ∧ pc.key L = none ∧ pc.given L = none := by
  rcases h with rfl | ⟨key, rfl⟩
  · exact ⟨trivial, rfl, rfl⟩
  · exact ⟨trivial, rfl, rfl⟩

/-- The key that a request has after a step is one it had before, or one that was just drawn. -/
theorem key_of_moves {answer : Answer} {pc pc' : Pc} {v v' : Interface}
    (hmoves : Moves L answer v pc pc' v') {key : Text} (hkey : pc'.key L = some key) :
    pc.key L = some key ∨ drawnKey answer pc = some key := by
  cases hmoves with
  | kept hkeys _ _ => exact .inl (hkeys key hkey)
  | drew _ hdrawn hkey' _ _ =>
      rw [hkey'] at hkey
      cases hkey
      exact .inr hdrawn
  | gave hpc hkeys _ _ =>
      rw [hpc, hkeys key hkey]
      exact .inl rfl
  | took _ hnone _ _ =>
      rw [hnone] at hkey
      cases hkey

theorem apart_of_moves {answer : Answer} {pc pc' : Pc} {v v' : Interface}
    (hmoves : Moves L answer v pc pc' v') (h : Apart v.peers) : Apart v'.peers := by
  cases hmoves with
  | kept => exact h
  | drew => exact h
  | gave => exact h.assign v.nodup
  | took => exact h.sublist List.filter_sublist

theorem Sound.step (hL : L.Lawful) (h : w.Sound L) (hstep : w.step d L a = some u) :
    u.Sound L := by
  rcases step_eq_some hstep with ⟨i, pc, _, hpc, rfl⟩ |
    ⟨i, answer, pc, next, _, hcall, hfresh, hnext, rfl⟩
  · obtain ⟨hsound, hkey, _⟩ := arrived (L := L) hpc
    refine ⟨fun j pc' hj => ?_, fun j pc' key hj hk => ?_, fun j k pc₁ pc₂ key hj hk hkey₁ hkey₂ => ?_,
      h.apart⟩
    · rcases calls_setCall hj with ⟨_, rfl⟩ | ⟨_, hj⟩
      · exact hsound
      · exact h.calls j pc' hj
    · rcases calls_setCall hj with ⟨_, rfl⟩ | ⟨_, hj⟩
      · rw [hkey] at hk
        cases hk
      · exact h.drawn j pc' key hj hk
    · rcases calls_setCall hj with ⟨_, rfl⟩ | ⟨_, hj⟩
      · rw [hkey] at hkey₁
        cases hkey₁
      · rcases calls_setCall hk with ⟨_, rfl⟩ | ⟨_, hk⟩
        · rw [hkey] at hkey₂
          cases hkey₂
        · exact h.alone j k pc₁ pc₂ key hj hk hkey₁ hkey₂
  · obtain ⟨hmoves, hsound⟩ := moves_of_advance hL (h.calls i pc hcall) hnext
    -- a key that the request has now is not one that another request has
    have hother : ∀ j pc' key, j ≠ i → w.calls j = some pc' → pc'.key L = some key →
        next.1.key L ≠ some key := by
      intro j pc' key hne hj hk hnew
      rcases key_of_moves hmoves hnew with hold | hdrawn
      · exact hne (h.alone j i pc' pc key hj hcall hk hold)
      · exact hfresh key hdrawn (h.drawn j pc' key hj hk)
    refine ⟨fun j pc' hj => ?_, fun j pc' key hj hk => ?_, fun j k pc₁ pc₂ key hj hk hkey₁ hkey₂ => ?_,
      apart_of_moves hmoves h.apart⟩
    · rcases calls_setCall hj with ⟨_, rfl⟩ | ⟨_, hj⟩
      · exact hsound
      · exact h.calls j pc' hj
    · refine List.mem_append.mpr ?_
      rcases calls_setCall hj with ⟨_, rfl⟩ | ⟨_, hj⟩
      · rcases key_of_moves hmoves hk with hold | hdrawn
        · exact .inr (h.drawn i pc key hcall hold)
        · exact .inl (Option.mem_toList.mpr hdrawn)
      · exact .inr (h.drawn j pc' key hj hk)
    · rcases calls_setCall hj with ⟨hji, hnew⟩ | ⟨hji, hold⟩
      · rcases calls_setCall hk with ⟨hki, _⟩ | ⟨hki, hold'⟩
        · exact hji.trans hki.symm
        · exact absurd (hnew ▸ hkey₁) (hother k pc₂ key hki hold' hkey₂)
      · rcases calls_setCall hk with ⟨_, hnew⟩ | ⟨_, hold'⟩
        · exact absurd (hnew ▸ hkey₂) (hother j pc₁ key hji hold hkey₁)
        · exact h.alone j k pc₁ pc₂ key hold hold' hkey₁ hkey₂

/-- A peer keeps its one address when another is given one that it does not have. -/
theorem allowedIps_addPeer_of_free {v : Interface} {key other ip held : Text} (hne : other ≠ key)
    (hfree : ∀ p ∈ v.peers, p.has key = true ∨ single ip ∉ p.allowedIps)
    (hheld : allowedIps v.peers other = some [single held]) :
    allowedIps (v.addPeer key (single ip)).peers other = some [single held] := by
  obtain ⟨p, hfind, hips⟩ := Option.map_eq_some_iff.mp hheld
  have hother := has_iff.mp (List.find?_some hfind)
  have habsent := (hfree p (List.mem_of_find?_eq_some hfind)).resolve_left fun hkey =>
    hne (hother.symm.trans (has_iff.mp hkey))
  rw [hips, List.mem_singleton] at habsent
  refine (allowedIps_assign_of_ne hne).trans ?_
  rw [hheld, Option.map_some, List.filter_singleton, decide_eq_true (Ne.symm habsent)]
  rfl

theorem KeepsGiven.step (hL : L.Lawful) (hsound : w.Sound L) (h : w.KeepsGiven L)
    (hfree : w.givesFree a = true) (hstep : w.step d L a = some u) : u.KeepsGiven L := by
  intro j pc' key ip hj hgiven hrevoked
  rcases step_eq_some hstep with ⟨i, pc, _, hpc, rfl⟩ |
    ⟨i, answer, pc, next, rfl, hcall, hfresh, hnext, rfl⟩
  · obtain ⟨_, _, hnone⟩ := arrived (L := L) hpc
    rcases calls_setCall hj with ⟨_, rfl⟩ | ⟨_, hj⟩
    · rw [hnone] at hgiven
      cases hgiven
    · exact h j pc' key ip hj hgiven hrevoked
  · obtain ⟨hmoves, _⟩ := moves_of_advance hL (hsound.calls i pc hcall) hnext
    obtain ⟨pcNext, v⟩ := next
    change key ∉ revokedAfter answer w.revoked pc at hrevoked
    change allowedIps v.peers key = some [single ip]
    cases hmoves with
    | kept _ hgivens hsame =>
        rw [hsame] at hrevoked
        rcases calls_setCall hj with ⟨rfl, rfl⟩ | ⟨_, hj⟩
        · exact h j pc key ip hcall (hgivens _ hgiven) hrevoked
        · exact h j pc' key ip hj hgiven hrevoked
    | drew _ _ _ hnone hsame =>
        rw [hsame] at hrevoked
        rcases calls_setCall hj with ⟨_, rfl⟩ | ⟨_, hj⟩
        · rw [hnone] at hgiven
          cases hgiven
        · exact h j pc' key ip hj hgiven hrevoked
    | @gave backend host chosen hpc _ hgivens htook =>
        subst hpc
        rw [revokedAfter, if_pos htook] at hrevoked
        rcases calls_setCall hj with ⟨_, rfl⟩ | ⟨hne, hj⟩
        · cases hgivens _ hgiven
          exact allowedIps_assign
        · have hkey : key ≠ chosen.publicHex := fun heq =>
            hne (hsound.alone j i pc' _ key hj hcall (Pc.key_of_given hgiven) (by rw [heq]; rfl))
          have hheld := h j pc' key ip hj hgiven fun hmem =>
            hrevoked (List.mem_filter.mpr ⟨hmem, decide_eq_true hkey⟩)
          refine allowedIps_addPeer_of_free hkey (fun p hp => ?_) hheld
          rw [givesFree, hcall, htook] at hfree
          have hall := List.all_eq_true.mp hfree p hp
          simpa using hall
    | @took publicKeyB64 hex backend wasPresent hpc _ hnone htook =>
        subst hpc
        rw [revokedAfter, if_pos htook] at hrevoked
        rcases calls_setCall hj with ⟨_, rfl⟩ | ⟨_, hj⟩
        · rw [hnone] at hgiven
          cases hgiven
        · rw [List.mem_cons, not_or] at hrevoked
          exact (allowedIps_filter_of_ne hrevoked.1).trans (h j pc' key ip hj hgiven hrevoked.2)

theorem KeepsGiven.keepsIssued (h : w.KeepsGiven L) : w.KeepsIssued L := by
  intro i dto key hcall hkey hrevoked
  refine h i _ key dto.clientIp hcall ?_ hrevoked
  rw [Pc.given, hkey]
  rfl

theorem sound_of_start (hstart : ∀ i, w.calls i = none) (hapart : Apart w.interface.peers) :
    w.Sound L where
  calls i pc h := by rw [hstart] at h; cases h
  drawn i pc key h := by rw [hstart] at h; cases h
  alone i j pc pc' key h := by rw [hstart] at h; cases h
  apart := hapart

/-- In every interleaving no two peers have one address; and if every address is free when it
is given, each issued peer keeps its own until it is revoked. -/
theorem apart_and_keepsIssued (hL : L.Lawful) {as : List Action}
    (hstart : ∀ i, w.calls i = none) (hapart : Apart w.interface.peers)
    (hrun : run (step d L) w as = some u) :
    Apart u.interface.peers ∧
      (Along (step d L) (fun w a => w.givesFree a = true) w as → u.KeepsIssued L) := by
  have hsound := sound_of_start (L := L) hstart hapart
  refine ⟨(run_invariant (fun _ _ _ h hstep => Sound.step hL h hstep) hrun hsound).apart, ?_⟩
  intro halong
  have hgiven : w.KeepsGiven L := fun i pc key ip hcall => by rw [hstart] at hcall; cases hcall
  have hkeeps := run_invariant_along (I := fun w => w.Sound L ∧ w.KeepsGiven L)
    (fun _ _ _ h hfree hstep => ⟨h.1.step hL hstep, h.2.step hL h.1 hfree hstep⟩)
    halong hrun ⟨hsound, hgiven⟩
  exact hkeeps.2.keepsIssued

section Example

/-- A key pair of two bytes, over and over. -/
def pairOf (privateByte publicByte : UInt8) : WgKeypair where
  privateKey := List.replicate 32 privateByte
  publicKey := List.replicate 32 publicByte
  private_length := List.length_replicate
  public_length := List.length_replicate

/-- The tunnel of a single box, with one device on it. -/
def oneDeviceTunnel : Tunnel := { interface := oneDevice }

/-- The four steps of an issue. -/
def issueSteps (i : Nat) (keypair : WgKeypair) : List Action :=
  [.advance i {}, .advance i { drawn := .ok keypair }, .advance i {}, .advance i {}]

/-- Two devices are issued one after the other, and each keeps its address. -/
theorem keepsIssued_in_turn : ∃ u, run (step singleBox plainLibraries) oneDeviceTunnel
      ([.issue 0] ++ issueSteps 0 (pairOf 0x11 0x22) ++ [.issue 1] ++
        issueSteps 1 (pairOf 0x33 0x44)) = some u ∧
    Apart u.interface.peers ∧ u.KeepsIssued plainLibraries := by
  obtain ⟨u, hu⟩ := Option.isSome_iff_exists.mp (by decide :
    (run (step singleBox plainLibraries) oneDeviceTunnel
      ([.issue 0] ++ issueSteps 0 (pairOf 0x11 0x22) ++ [.issue 1] ++
        issueSteps 1 (pairOf 0x33 0x44))).isSome = true)
  have hapart : Apart oneDeviceTunnel.interface.peers := List.pairwise_singleton _ _
  have h := apart_and_keepsIssued plainLibraries_lawful (fun _ => rfl) hapart hu
  exact ⟨u, hu, h.1, h.2 (along_of_check (by decide))⟩

/-- The steps of two issues that both read the interface before either adds its peer. -/
def crossedIssues : List Action :=
  [.issue 0, .issue 1, .advance 0 {}, .advance 1 {},
    .advance 0 { drawn := .ok (pairOf 0x11 0x22) }, .advance 0 {}, .advance 0 {},
    .advance 1 { drawn := .ok (pairOf 0x33 0x44) }, .advance 1 {}]

/-- What a request that issued a device answered with, and the addresses its peer has now. -/
def answered (L : Libraries) (w : Tunnel) (i : Nat) : Option (Text × Option (List Text)) :=
  match w.calls i with
  | some (.issued (.ok dto)) =>
      (b64ToHex L dto.peerPublicKey).toOption.map fun key =>
        (dto.clientIp, allowedIps w.interface.peers key)
  | _ => none

theorem answered_of_keepsIssued (h : w.KeepsIssued L) (hrevoked : w.revoked = []) {i : Nat}
    {ip : Text} {ips : Option (List Text)} (hi : w.answered L i = some (ip, ips)) :
    ips = some [single ip] := by
  unfold answered at hi
  split at hi
  · next dto hcall =>
      obtain ⟨key, hkey, heq⟩ := Option.map_eq_some_iff.mp hi
      cases heq
      have hback : b64ToHex L dto.peerPublicKey = .ok key := by
        cases hb64 : b64ToHex L dto.peerPublicKey with
        | error e => rw [hb64] at hkey; cases hkey
        | ok key' => rw [hb64] at hkey; cases hkey; rfl
      exact h i dto key hcall hback (by rw [hrevoked]; exact List.not_mem_nil)
  · cases hi

/-- Two issues read the interface, then both add their peer: the first was told that it has an
address, and the second took it. -/
theorem issued_loses_address : ∃ u, run (step singleBox plainLibraries) oneDeviceTunnel
    crossedIssues = some u ∧ ¬ u.KeepsIssued plainLibraries := by
  obtain ⟨u, hu⟩ := Option.isSome_iff_exists.mp (by decide :
    (run (step singleBox plainLibraries) oneDeviceTunnel crossedIssues).isSome = true)
  refine ⟨u, hu, fun hkeeps => ?_⟩
  have hnow : (run (step singleBox plainLibraries) oneDeviceTunnel crossedIssues).map
      (fun u => (u.answered plainLibraries 0, u.revoked)) =
        some (some (clientIp 3, some []), []) := by decide +kernel
  rw [hu, Option.map_some, Option.some.injEq, Prod.mk.injEq] at hnow
  exact absurd (answered_of_keepsIssued hkeeps hnow.2 hnow.1) (by decide)

end Example

end Tunnel

end Genaryx.Wg
