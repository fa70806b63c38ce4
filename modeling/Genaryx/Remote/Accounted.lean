import Genaryx.Remote.Panel

/-!
# Tunnels, pins and tails over whole runs

A tunnel that is shown as connected has its process, unless this ended by itself, and runs under the
one identity of the console. No other tunnel process is there but those that requests are bringing up.
A tail process is left behind just where one is stored over another, or where a request that has one
is dropped.
-/

namespace Genaryx.Remote

open Base Base.Transition

/-! ## The identity of the console -/

/-- What a request brings a tunnel up with. -/
def Pc.bringUpArgs : Pc → Option BringUpArgs
  | .markConnecting args | .bringUp args _ | .configure _ args _ => some args
  | .record (.ok tunnel) => some tunnel.args
  | _ => none

/-- The tunnel, and every tunnel that is being brought up, is under the identity of the console. -/
structure Keyed (w : World) : Prop where
  tunnel : ∀ t, w.tunnel = .connected t → w.consoleKeypair = some t.args.privateKeyHex
  threads : ∀ i pc args, w.threads i = some pc → pc.bringUpArgs = some args →
    w.consoleKeypair = some args.privateKeyHex

/-- The tail process that a step of a request leaves behind: that of the tail it stores its own over,
or the one it has just started where nobody awaits it. -/
def Pc.leaves (w : World) (chance : Chance) : Pc → Option Nat
  | .storeTail _ => w.tail.map TailSession.child
  | .spawnTail _ _ false =>
      if w.ssh.isSome && chance.spawnError.isNone then some w.tails.made else none
  | _ => none

variable {w v : World} {i : Nat} {pc next : Pc} {chance : Chance} {begun : Bool} {left : Option Nat}

/-- What a step of one request does to the identity and to what is left behind: the identity stays
once it is there, what goes on with it is under it, and one tail process is left at most. -/
structure KeyStep (w v : World) (next : Pc) (left : Option Nat) : Prop where
  strays : v.strayTails = left.toList ++ w.strayTails
  gone : v.pins.gone = w.pins.gone
  kept : ∀ key, w.consoleKeypair = some key → v.consoleKeypair = some key
  threads : v.threads = w.threads
  tunnel : ∀ t, v.tunnel = .connected t →
    w.tunnel = .connected t ∨ v.consoleKeypair = some t.args.privateKeyHex
  next : ∀ args, next.bringUpArgs = some args → v.consoleKeypair = some args.privateKeyHex

/-- A step that leaves the identity and the tunnel, and goes on with what it had. -/
theorem KeyStep.quiet (hpc : ∀ args, pc.bringUpArgs = some args →
      w.consoleKeypair = some args.privateKeyHex)
    (hnext : ∀ args, next.bringUpArgs = some args → pc.bringUpArgs = some args)
    (hkey : v.consoleKeypair = w.consoleKeypair := by rfl)
    (hthreads : v.threads = w.threads := by rfl)
    (htunnel : ∀ t, v.tunnel = .connected t → w.tunnel = .connected t)
    (hstrays : v.strayTails = left.toList ++ w.strayTails := by rfl)
    (hgone : v.pins.gone = w.pins.gone := by rfl) : KeyStep w v next left where
  strays := hstrays
  gone := hgone
  kept _ h := hkey.trans h
  threads := hthreads
  tunnel t ht := .inl (htunnel t ht)
  next args hargs := hkey.trans (hpc args (hnext args hargs))

/-- A step that leaves the identity and the tunnel, and goes on without them. -/
theorem KeyStep.away (hnext : next.bringUpArgs = none)
    (hkey : v.consoleKeypair = w.consoleKeypair) (hthreads : v.threads = w.threads)
    (htunnel : ∀ t, v.tunnel = .connected t → w.tunnel = .connected t)
    (hstrays : v.strayTails = left.toList ++ w.strayTails := by rfl)
    (hgone : v.pins.gone = w.pins.gone := by rfl) : KeyStep w v next left where
  strays := hstrays
  gone := hgone
  kept _ h := hkey.trans h
  threads := hthreads
  tunnel t ht := .inl (htunnel t ht)
  next args hargs := by
    rw [hnext] at hargs
    cases hargs

theorem keyStep_of_advancePc
    (hpc : ∀ args, pc.bringUpArgs = some args → w.consoleKeypair = some args.privateKeyHex)
    (h : advancePc w chance pc = some (v, next)) : KeyStep w v next (pc.leaves w chance) := by
  cases pc with
  | setEnvironment environment =>
      rw [advancePc] at h
      split at h <;> cases h <;> exact .away rfl rfl rfl fun _ => id
  | pin environment awaited =>
      rw [advancePc] at h
      split at h
      next => dsimp only at h; split at h <;> cases h <;> exact .away rfl rfl rfl fun _ => id
      next => dsimp only at h; split at h <;> cases h <;> exact .away rfl rfl rfl fun _ => id
  | saveEnvironment environment client => cases h; exact .away rfl rfl rfl fun _ => id
  | saveSsh client => cases h; exact .away rfl rfl rfl fun _ => id
  | resetTunnel => cases h; exact .away rfl rfl rfl (by rintro t ⟨⟩)
  | connect =>
      rw [advancePc] at h
      split at h
      next => cases h; exact .away rfl rfl rfl fun _ => id
      next => split at h <;> cases h <;> exact .away rfl rfl rfl fun _ => id
  | keypair environment bin =>
      rw [advancePc] at h
      split at h
      next key hkey =>
          cases h
          refine ⟨rfl, rfl, fun _ => id, rfl, fun _ => .inl, ?_⟩
          rintro args ⟨⟩
          exact hkey
      next hnone =>
          split at h <;> cases h
          · exact .away rfl rfl rfl fun _ => id
          · refine ⟨rfl, rfl, fun key hkey => ?_, rfl, fun _ => .inl, ?_⟩
            · rw [hnone] at hkey
              cases hkey
            · rintro args ⟨⟩
              rfl
  | markConnecting args => cases h; exact .quiet hpc (fun _ => id) rfl rfl (by rintro t ⟨⟩)
  | bringUp args awaited =>
      rw [advancePc] at h
      split at h
      next => cases awaited <;> cases h <;> exact .away rfl rfl rfl fun _ => id
      next => cases h; exact .quiet hpc (fun _ => id) rfl rfl fun _ => id
  | configure child args awaited =>
      rw [advancePc] at h
      split at h
      next => cases awaited <;> cases h <;> exact .away rfl rfl rfl fun _ => id
      next =>
          split at h <;> cases h
          · exact .quiet hpc (fun _ => id) rfl rfl fun _ => id
          · exact .away rfl rfl rfl fun _ => id
  | record result =>
      cases result with
      | ok tunnel =>
          cases h
          refine ⟨rfl, rfl, fun _ => id, rfl, ?_, ?_⟩
          · rintro t ⟨⟩
            exact .inr (hpc tunnel.args rfl)
          · rintro args ⟨⟩
      | error message => cases h; exact .away rfl rfl rfl (by rintro t ⟨⟩)
  | disconnect => cases h; exact .away rfl rfl rfl (by rintro t ⟨⟩)
  | tailStart path fromOffset =>
      rw [advancePc] at h
      split at h <;> cases h <;> exact .away rfl rfl rfl fun _ => id
  | stopTail start => cases start <;> cases h <;> exact .away rfl rfl rfl fun _ => id
  | spawnTail path fromOffset awaited =>
      rw [advancePc] at h
      split at h
      next hssh =>
          cases h
          cases awaited with
          | true => exact .away rfl rfl rfl fun _ => id
          | false => exact .away rfl rfl rfl (fun _ => id) (by simp [Pc.leaves, hssh])
      next client hssh =>
          split at h
          next message herror =>
              cases h
              cases awaited with
              | true => exact .away rfl rfl rfl fun _ => id
              | false => exact .away rfl rfl rfl (fun _ => id) (by simp [Pc.leaves, herror])
          next herror =>
              cases awaited with
              | true => cases h; exact .away rfl rfl rfl fun _ => id
              | false =>
                  cases h
                  exact .away rfl rfl rfl (fun _ => id) (by simp [Pc.leaves, hssh, herror])
  | storeTail session => cases h; exact .away rfl rfl rfl fun _ => id
  | answered refusal => cases h

theorem keyStep_of_dropPc
    (hpc : ∀ args, pc.bringUpArgs = some args → w.consoleKeypair = some args.privateKeyHex)
    (h : dropPc w begun pc = some (v, next)) : KeyStep w v next pc.tailChild := by
  unfold dropPc at h
  split at h
  next => cases begun <;> cases h <;> exact .away rfl rfl rfl fun _ => id
  next =>
      cases begun <;> cases h
      · exact .away rfl rfl rfl fun _ => id
      · exact .quiet hpc (fun _ => id) rfl rfl fun _ => id
  next => cases h; exact .quiet hpc (fun _ => id) rfl rfl fun _ => id
  next => cases h; exact .away rfl rfl rfl fun _ => id
  next => cases h; exact .away rfl rfl rfl fun _ => id
  next => cases begun <;> cases h <;> exact .away rfl rfl rfl fun _ => id
  next => cases begun <;> cases h <;> exact .away rfl rfl rfl fun _ => id
  next => cases h; exact .away rfl rfl rfl fun _ => id
  next => cases h; exact .away rfl rfl rfl fun _ => id
  next => cases h

theorem Keyed.setPc (hw : Keyed w) (hstep : KeyStep w v next left) : Keyed (v.setPc i next) where
  tunnel t ht := (hstep.tunnel t ht).elim (fun h => hstep.kept _ (hw.tunnel t h)) id
  threads j p args hp hargs := by
    change Function.update v.threads i (some next) j = some p at hp
    change v.consoleKeypair = some args.privateKeyHex
    by_cases hj : j = i
    · rw [hj, Function.update_self] at hp
      cases hp
      exact hstep.next args hargs
    · rw [Function.update_of_ne hj, hstep.threads] at hp
      exact hstep.kept _ (hw.threads j p args hp hargs)

/-- The tail process that an action leaves behind. -/
def Action.leaves (w : World) : Action → Option Nat
  | .advance thread chance => (w.threads thread).bind (Pc.leaves w chance)
  | .drop thread _ => (w.threads thread).bind Pc.tailChild
  | .request _ _ | .exitTunnel _ | .exitTail _ => none

/-- What every step keeps, and what it leaves behind. -/
structure Held (w v : World) (left : Option Nat) : Prop where
  keyed : Keyed v
  kept : ∀ key, w.consoleKeypair = some key → v.consoleKeypair = some key
  gone : v.pins.gone = w.pins.gone
  strays : v.strayTails = left.toList ++ w.strayTails

theorem held_step {a : Action} (hw : Keyed w) (h : step w a = some v) : Held w v (a.leaves w) := by
  cases a with
  | request thread pc =>
      rw [step] at h
      split at h
      next hentry =>
          cases h
          have hpc := (Bool.and_eq_true_iff.mp hentry).2
          have hstep : KeyStep w w pc none := by
            refine ⟨rfl, rfl, fun _ => id, rfl, fun _ => .inl, fun args hargs => ?_⟩
            cases pc with
            | setEnvironment _ | connect | disconnect | tailStart _ _ | stopTail _ => cases hargs
            | _ => cases hpc
          exact ⟨hw.setPc hstep, fun _ => id, rfl, rfl⟩
      next => cases h
  | advance thread chance =>
      obtain ⟨pc, hpc, hadvance⟩ := Option.bind_eq_some_iff.mp h
      obtain ⟨⟨u, next⟩, hnext, rfl⟩ := Option.map_eq_some_iff.mp hadvance
      have hstep := keyStep_of_advancePc (fun args => hw.threads thread pc args hpc) hnext
      rw [Action.leaves, hpc]
      exact ⟨hw.setPc hstep, hstep.kept, hstep.gone, hstep.strays⟩
  | drop thread begun =>
      obtain ⟨pc, hpc, hdrop⟩ := Option.bind_eq_some_iff.mp h
      obtain ⟨⟨u, next⟩, hnext, rfl⟩ := Option.map_eq_some_iff.mp hdrop
      have hstep := keyStep_of_dropPc (fun args => hw.threads thread pc args hpc) hnext
      rw [Action.leaves, hpc]
      exact ⟨hw.setPc hstep, hstep.kept, hstep.gone, hstep.strays⟩
  | exitTunnel child | exitTail child =>
      rw [step] at h
      split at h <;> cases h
      exact ⟨⟨hw.tunnel, hw.threads⟩, fun _ => id, rfl, rfl⟩

theorem keyed_start (defaultBin : Option Text) : Keyed (World.start defaultBin) := ⟨nofun, nofun⟩

theorem keyed_of_run {defaultBin : Option Text} {actions : List Action}
    (h : run step (World.start defaultBin) actions = some w) : Keyed w :=
  run_invariant (fun _ _ _ hw hstep => (held_step hw hstep).keyed) h (keyed_start defaultBin)

/-! ## Pin files that cannot be written -/

/-- The pin file that a step of a request opens and cannot write. -/
def Pc.failedPin (w : World) (chance : Chance) : Pc → Option Nat
  | .pin _ _ =>
      if chance.pinError.isSome && chance.pinCreated then some w.pins.made else none
  | _ => none

/-- The pin file that an action opens and cannot write. -/
def Action.failedPin (w : World) : Action → Option Nat
  | .advance thread chance => (w.threads thread).bind (Pc.failedPin w chance)
  | .drop _ _ | .request _ _ | .exitTunnel _ | .exitTail _ => none

theorem strayPins_of_advancePc (h : advancePc w chance pc = some (v, next)) :
    v.strayPins = (pc.failedPin w chance).toList ++ w.strayPins := by
  cases pc with
  | pin environment awaited =>
      rw [advancePc] at h
      split at h
      next message herror =>
          cases h
          cases hcreated : chance.pinCreated <;> simp [Pc.failedPin, herror, hcreated]
      next herror => split at h <;> cases h <;> simp [Pc.failedPin, herror]
  | record result => cases result <;> cases h <;> rfl
  | stopTail start => cases start <;> cases h <;> rfl
  | answered refusal => cases h
  | setEnvironment _ | tailStart _ _ => rw [advancePc] at h; split at h <;> cases h <;> rfl
  | bringUp args awaited =>
      rw [advancePc] at h
      split at h
      next => cases awaited <;> cases h <;> rfl
      next => cases h; rfl
  | configure child args awaited =>
      rw [advancePc] at h
      split at h
      next => cases awaited <;> cases h <;> rfl
      next => split at h <;> cases h <;> rfl
  | connect | keypair _ _ =>
      rw [advancePc] at h
      split at h
      next => cases h; rfl
      next => split at h <;> cases h <;> rfl
  | spawnTail path fromOffset awaited =>
      rw [advancePc] at h
      split at h
      next => cases h; rfl
      next =>
          split at h
          next => cases h; rfl
          next => cases awaited <;> cases h <;> rfl
  | _ => cases h; rfl

theorem strayPins_of_dropPc (h : dropPc w begun pc = some (v, next)) :
    v.strayPins = w.strayPins := by
  unfold dropPc at h
  split at h <;> cases h <;> rfl

theorem strayPins_step {a : Action} (h : step w a = some v) :
    v.strayPins = (a.failedPin w).toList ++ w.strayPins := by
  cases a with
  | request thread pc =>
      rw [step] at h
      split at h <;> cases h
      rfl
  | advance thread chance =>
      obtain ⟨pc, hpc, hadvance⟩ := Option.bind_eq_some_iff.mp h
      obtain ⟨⟨u, next⟩, hnext, rfl⟩ := Option.map_eq_some_iff.mp hadvance
      have hstrays := strayPins_of_advancePc hnext
      rwa [Action.failedPin, hpc]
  | drop thread begun =>
      obtain ⟨pc, hpc, hdrop⟩ := Option.bind_eq_some_iff.mp h
      obtain ⟨⟨u, next⟩, hnext, rfl⟩ := Option.map_eq_some_iff.mp hdrop
      have hstrays := strayPins_of_dropPc hnext
      exact hstrays
  | exitTunnel child | exitTail child =>
      rw [step] at h
      split at h <;> cases h
      rfl

/-! ## Whole runs -/

section Sample

def sampleEnvironment : RemoteEnvironment where
  name := "campaign".toList
  wireguardGoBin := "/usr/bin/wireguard-go".toList
  wgPeerPublicKeyHex := "aa".toList
  wgEndpoint := "203.0.113.7:51820".toList
  wgAllowedIps := ["10.9.0.1/32".toList]
  wgPersistentKeepalive := some 25
  wgListenPort := none
  wgLocalIp := "10.9.0.2".toList
  wgPeerIp := "10.9.0.1".toList
  sshTarget := ⟨"203.0.113.7".toList, 22, "root".toList, "/key".toList, "ssh-ed25519 AAAA".toList⟩

def sampleChance : Chance := { keypair := .ok "0a".toList, realName := "genaryx0".toList }

/-- An environment is saved and the tunnel is connected. -/
def saveAndConnect : List Action :=
  .request 0 (.setEnvironment sampleEnvironment) :: List.replicate 6 (.advance 0 sampleChance) ++
    .request 1 .connect :: List.replicate 6 (.advance 1 sampleChance)

/-- An environment is saved and two requests start a tail at once. -/
def twoTails : List Action :=
  .request 0 (.setEnvironment sampleEnvironment) :: List.replicate 6 (.advance 0 sampleChance) ++
    [.request 1 (.tailStart "/var/log/a".toList 0), .request 2 (.tailStart "/var/log/b".toList 0),
      .advance 1 sampleChance, .advance 1 sampleChance, .advance 2 sampleChance,
      .advance 2 sampleChance, .advance 1 sampleChance, .advance 2 sampleChance,
      .advance 1 sampleChance, .advance 2 sampleChance]

end Sample

/-- In every run, a tunnel process is that of the connected tunnel, or of one request that brings a
tunnel up. A connected tunnel has its process, unless that ended by itself, and is under the identity
of the console. -/
theorem tunnels_accounted {defaultBin : Option Text} {actions : List Action}
    (hrun : run step (World.start defaultBin) actions = some w) :
    (∀ n, w.tunnels.live n = true →
      (∃ t, w.tunnel = .connected t ∧ t.child = n) ∨
        ∃ i pc, w.threads i = some pc ∧ pc.tunnelChild = some n) ∧
      (∀ i j pc pc' n, w.threads i = some pc → w.threads j = some pc' →
        pc.tunnelChild = some n → pc'.tunnelChild = some n → i = j) ∧
      ∀ t, w.tunnel = .connected t →
        (w.tunnels.live t.child = true ∨ t.child ∈ w.tunnels.gone) ∧
          (∀ i pc, w.threads i = some pc → pc.tunnelChild ≠ some t.child) ∧
          w.consoleKeypair = some t.args.privateKeyHex := by
  have hkept := (kept_of_run hrun).tunnels
  have hholds : ∀ i pc, w.threads i = some pc →
      w.tunnelCustody.holds (.thread i) = pc.tunnelChild := fun i pc hpc => holds_thread hpc
  refine ⟨fun n hn => ?_, fun i j pc pc' n hi hj hpc hpc' => ?_, fun t ht => ?_⟩
  · rcases hkept.accounted n hn with ⟨holder, hholder⟩ | hstray
    · cases holder with
      | cell =>
          refine .inl ?_
          change w.tunnel.child = some n at hholder
          cases htunnel : w.tunnel with
          | connected t =>
              rw [htunnel] at hholder
              exact ⟨t, rfl, Option.some.inj hholder⟩
          | disconnected | connecting | failed _ => rw [htunnel] at hholder; cases hholder
      | thread i => exact .inr ⟨i, Option.bind_eq_some_iff.mp hholder⟩
    · exact nomatch hstray
  · have hone := hkept.one (.thread i) (.thread j) n ((hholds i pc hi).trans hpc)
      ((hholds j pc' hj).trans hpc')
    exact Holder.thread.inj hone
  · have hcell : w.tunnelCustody.holds .cell = some t.child := congrArg TunnelState.child ht
    refine ⟨hkept.held_live .cell t.child hcell, fun i pc hpc hchild => ?_,
      (keyed_of_run hrun).tunnel t ht⟩
    exact nomatch hkept.one .cell (.thread i) t.child hcell ((hholds i pc hpc).trans hchild)

theorem tunnels_accounted_saveAndConnect : ∃ w t,
    run step (World.start none) saveAndConnect = some w ∧ w.tunnel = .connected t ∧
      w.consoleKeypair = some t.args.privateKeyHex := by
  obtain ⟨w, t, hrun, ht⟩ : ∃ w t, run step (World.start none) saveAndConnect = some w ∧
      w.tunnel = .connected t := ⟨_, _, rfl, rfl⟩
  exact ⟨w, t, hrun, ht, ((tunnels_accounted hrun).2.2 t ht).2.2⟩

/-- In every run, the client of the panel has its pin file, and every other pin file is that of a
client about to be stored, or one that could not be written. There is none of these just where no
step of the run fails to write a file that it has opened. -/
theorem pins_accounted {defaultBin : Option Text} {actions : List Action}
    (hrun : run step (World.start defaultBin) actions = some w) :
    (∀ client, w.ssh = some client → w.pins.live client.knownHosts = true) ∧
      (∀ n, w.pins.live n = true →
        (∃ client, w.ssh = some client ∧ client.knownHosts = n) ∨
          (∃ i pc, w.threads i = some pc ∧ pc.pinFile = some n) ∨ n ∈ w.strayPins) ∧
        (w.strayPins = [] ↔
          Along step (fun w a => a.failedPin w = none) (World.start defaultBin) actions) := by
  have hkept := (kept_of_run hrun).pins
  have hgone : Keyed w ∧ w.pins.gone = [] :=
    run_invariant (I := fun u => Keyed u ∧ u.pins.gone = [])
      (fun _ _ _ h hstep => ⟨(held_step h.1 hstep).keyed, (held_step h.1 hstep).gone.trans h.2⟩) hrun
      ⟨keyed_start defaultBin, rfl⟩
  refine ⟨?_, ?_, ?_⟩
  · intro client hclient
    have hcell : w.pinCustody.holds .cell = some client.knownHosts :=
      congrArg (Option.map SshClient.knownHosts) hclient
    rcases hkept.held_live .cell client.knownHosts hcell with hlive | hmem
    · exact hlive
    · change client.knownHosts ∈ w.pins.gone at hmem
      rw [hgone.2] at hmem
      cases hmem
  · intro n hn
    rcases hkept.accounted n hn with ⟨holder, hholder⟩ | hstray
    · cases holder with
      | cell => exact .inl (Option.map_eq_some_iff.mp hholder)
      | thread i => exact .inr (.inl ⟨i, Option.bind_eq_some_iff.mp hholder⟩)
    · exact .inr (.inr hstray)
  · have hstrays : ∀ (u : World) a v, True → step u a = some v →
        v.strayPins = (a.failedPin u).toList ++ u.strayPins := fun _ _ _ _ => strayPins_step
    exact nil_iff_along (fun _ _ _ _ _ => trivial) hstrays hrun trivial rfl

theorem pins_accounted_saveAndConnect : ∃ w client,
    run step (World.start none) saveAndConnect = some w ∧ w.ssh = some client ∧
      w.pins.live client.knownHosts = true := by
  obtain ⟨w, client, hrun, hclient⟩ : ∃ w client,
      run step (World.start none) saveAndConnect = some w ∧ w.ssh = some client := ⟨_, _, rfl, rfl⟩
  exact ⟨w, client, hrun, hclient, (pins_accounted hrun).1 client hclient⟩

/-- In every run, a tail process is that of the panel's tail, or of a request about to store it, or
was left behind. None is left behind just where no step of the run leaves one: none stores a tail
over another, no request is dropped that has started one, and no task starts one for a request that
was dropped before. -/
theorem tails_accounted {defaultBin : Option Text} {actions : List Action}
    (hrun : run step (World.start defaultBin) actions = some w) :
    (∀ n, w.tails.live n = true →
      (∃ session, w.tail = some session ∧ session.child = n) ∨
        (∃ i pc, w.threads i = some pc ∧ pc.tailChild = some n) ∨ n ∈ w.strayTails) ∧
      (w.strayTails = [] ↔
        Along step (fun w a => a.leaves w = none) (World.start defaultBin) actions) := by
  constructor
  · intro n hn
    rcases (kept_of_run hrun).tails.accounted n hn with ⟨holder, hholder⟩ | hstray
    · cases holder with
      | cell => exact .inl (Option.map_eq_some_iff.mp hholder)
      | thread i => exact .inr (.inl ⟨i, Option.bind_eq_some_iff.mp hholder⟩)
    · exact .inr (.inr hstray)
  · exact nil_iff_along (fun _ _ _ hu hstep => (held_step hu hstep).keyed)
      (fun _ _ _ hu hstep => (held_step hu hstep).strays) hrun (keyed_start defaultBin) rfl

/-- Of two tails that are started at once, one is left behind and still runs. -/
theorem tails_accounted_twoTails : ∃ w,
    run step (World.start none) twoTails = some w ∧ w.tails.live 0 = true ∧ w.strayTails = [0] ∧
      ¬ Along step (fun w a => a.leaves w = none) (World.start none) twoTails := by
  obtain ⟨w, hrun, hlive, hstray⟩ : ∃ w, run step (World.start none) twoTails = some w ∧
      w.tails.live 0 = true ∧ w.strayTails = [0] := ⟨_, rfl, rfl, rfl⟩
  refine ⟨w, hrun, hlive, hstray, fun halong => ?_⟩
  have hnone := (tails_accounted hrun).2.mpr halong
  rw [hstray] at hnone
  cases hnone

end Genaryx.Remote
