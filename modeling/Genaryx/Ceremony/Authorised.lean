import Genaryx.Ceremony.Sound
import Mathlib.Data.Set.Function

/-!
# A gated command is authorised for exactly itself

A gated command of a user with a passkey, or on a console that requires one, is dispatched
only under a challenge minted for that user, that command and those arguments, redeemed in
time and once, whose assertion was verified under a key of the user. No two dispatches share
a challenge. The gate reads the passkeys before the command is dispatched, so this takes that
no passkey of the user is added in between.
-/

namespace Genaryx.Ceremony

open Json Base

variable {F : Type} {P : Platform F} {cfg : Config} {initial : PasskeyStore}

theorem hasAny_eq_false_iff {s : PasskeyStore} {user : Text} :
    s.hasAny user = false ↔ ∀ r, r ∉ s.forUser user := by
  rw [PasskeyStore.hasAny, Bool.not_eq_false', List.isEmpty_iff, List.eq_nil_iff_forall_not_mem]

theorem Advance.threads_eq {w next : World F} {user : Text} {pc pc' : Pc F}
    (h : Advance P cfg w user pc next pc') : next.threads = w.threads := by
  cases h with
  | @verified goal envelope challenge record v hverify persistError =>
      exact (World.verifying_fields w user challenge record v.signCount persistError).2.2.2
  | _ => rfl

/-- A step gives a user a first passkey only by adding one for them. -/
theorem Advance.hasAny_eq_false {w next : World F} {owner user : Text} {pc pc' : Pc F}
    (h : Advance P cfg w owner pc next pc') (hnone : w.store.hasAny user = false)
    (hother : user = owner → ∀ challenge record, pc ≠ .registerAdd challenge record) :
    next.store.hasAny user = false := by
  rw [hasAny_eq_false_iff] at hnone ⊢
  cases h with
  | @verified goal envelope challenge record v hverify persistError =>
      rw [(World.verifying_fields w owner challenge record v.signCount persistError).2.2.1]
      intro r hr
      obtain ⟨q, hq, -⟩ := PasskeyStore.mem_of_mem_updateSignCount hr
      exact hnone q hq
  | @enrolled challenge record hnew persistError r =>
      intro q hq
      rcases PasskeyStore.mem_of_mem_add hq with hold | ⟨howner, -⟩
      · exact hnone q hold
      · exact hother howner.symm challenge record rfl
  | removed persistError r => exact fun q hq => hnone q (PasskeyStore.mem_of_mem_remove hq).1
  | _ => exact hnone

/-- A step logs no dispatch but its own. -/
theorem Advance.dispatched_of_mem {w next : World F} {user owner name : Text} {pc pc' : Pc F}
    {args : Value F} {hasPasskey : Bool} {authorisedBy : Option Text}
    (h : Advance P cfg w user pc next pc')
    (hmem : Event.dispatched owner name args hasPasskey authorisedBy ∈ next.trace) :
    Event.dispatched owner name args hasPasskey authorisedBy ∈ w.trace ∨
      owner = user ∧ hasPasskey = w.store.hasAny user ∧
        pc = .dispatch name args authorisedBy := by
  cases h with
  | @verified goal envelope challenge record v hverify persistError =>
      rw [(World.verifying_fields w user challenge record v.signCount persistError).1] at hmem
      exact Or.inl ((List.mem_cons.mp hmem).resolve_left (by simp))
  | removed persistError r =>
      dsimp only [World.removing] at hmem
      split at hmem
      · exact Or.inl ((List.mem_cons.mp hmem).resolve_left (by simp))
      · exact Or.inl hmem
  | dispatched name' args' authorisedBy' =>
      rcases List.mem_cons.mp hmem with heq | hmem
      · cases heq
        exact Or.inr ⟨rfl, rfl, rfl⟩
      · exact Or.inl hmem
  | moved | dropped | found => exact Or.inl hmem
  | _ => exact Or.inl ((List.mem_cons.mp hmem).resolve_left (by simp))

/-- A step that waives the ceremony has read that the user has no passkey. -/
theorem Advance.hasAny_of_waives {w next : World F} {user name : Text} {pc : Pc F}
    {args : Value F} (h : Advance P cfg w user pc next (.dispatch name args none))
    (hname : requiresCeremony name = true) :
    next.store = w.store ∧ w.store.hasAny user = false := by
  generalize hpc' : Pc.dispatch name args none = pc' at h
  cases h with
  | moved hpc =>
      subst hpc'
      exact ⟨rfl, (hpc hname).2⟩
  | @redeemed _ _ challenge pending hlookup hlive huser hnext =>
      generalize pending.purpose = purpose at hnext
      cases hnext <;> cases hpc'
  | @verified goal => cases goal <;> cases hpc'
  | _ => cases hpc'

/-- The gate let a command of the user through because the user had no passkey, and it is not
dispatched yet. -/
def World.Waived (w : World F) (user : Text) : Prop :=
  ∃ i t name args, w.threads i = some t ∧ t.session.user = user ∧
    t.pc = .dispatch name args none ∧ requiresCeremony name = true

/-- The step adds no passkey for a user while a gated command of theirs, which the gate let
through because they had none, is still to be dispatched. -/
def World.AddsOutsideGate (w : World F) (a : Action F) : Prop :=
  ∀ i chance session challenge record, a = .advance i chance →
    w.threads i = some ⟨session, .registerAdd challenge record⟩ → ¬ w.Waived session.user

/-- A user for whom the gate waived the ceremony has no passkey, and no gated command was
dispatched without an assertion for a user who had one. -/
structure GateHeld (w : World F) : Prop where
  waiting : ∀ user, w.Waived user → w.store.hasAny user = false
  sent : ∀ user name args, Event.dispatched user name args true none ∈ w.trace →
    requiresCeremony name = false

theorem gateHeld_step {w w' : World F} {a : Action F} (h : GateHeld w)
    (houtside : w.AddsOutsideGate a) (hstep : w.step P cfg a = some w') : GateHeld w' := by
  cases World.step_cases hstep with
  | tick elapsed => exact ⟨h.waiting, h.sent⟩
  | request thread session pc hentry hfree =>
      refine ⟨?_, h.sent⟩
      rintro user ⟨i, t, name, args, ht, huser, hpc, hname⟩
      refine h.waiting user ?_
      dsimp only at ht
      by_cases hi : i = thread
      · -- a request does not start behind the gate
        subst hi
        rw [Function.update_self] at ht
        cases ht
        dsimp only at hpc
        subst hpc
        cases hentry
      · rw [Function.update_of_ne hi] at ht
        exact ⟨i, t, name, args, ht, huser, hpc, hname⟩
  | @advance thread chance t next pc hthread hnext =>
      refine ⟨?_, ?_⟩
      · rintro user ⟨i, u, name, args, hu, huser, hpc, hname⟩
        rw [World.setPc_threads, hnext.threads_eq] at hu
        rw [World.setPc_store]
        by_cases hi : i = thread
        · subst hi
          rw [Function.update_self] at hu
          cases hu
          dsimp only at hpc huser
          subst hpc huser
          obtain ⟨hstore, hnone⟩ := hnext.hasAny_of_waives hname
          rwa [hstore]
        · rw [Function.update_of_ne hi] at hu
          have hwaived : w.Waived user := ⟨i, u, name, args, hu, huser, hpc, hname⟩
          refine hnext.hasAny_eq_false (h.waiting user hwaived) fun howner challenge record hadd => ?_
          obtain ⟨session, at_⟩ := t
          dsimp only at hadd howner
          subst hadd howner
          exact houtside thread chance session challenge record rfl hthread hwaived
      · intro user name args hmem
        rw [World.setPc_trace] at hmem
        rcases hnext.dispatched_of_mem hmem with hold | ⟨rfl, hany, hpc⟩
        · exact h.sent user name args hold
        · by_contra hname
          rw [Bool.not_eq_false] at hname
          have hnone := h.waiting t.session.user ⟨thread, t, name, args, hthread, rfl, hpc, hname⟩
          rw [← hany] at hnone
          cases hnone

/-- The bytes that are hashed for the arguments of a command. -/
def encodedArgs (P : Platform F) (args : Value F) : Bytes := Utf8.encode (canonicalArgs P args)

/-- What was hashed for the challenges minted for commands. -/
def mintedArgs (P : Platform F) (trace : List (Event F)) : Set Bytes :=
  {bytes | ∃ challenge user name args expires,
    Event.minted challenge user (.action name args) expires ∈ trace ∧ encodedArgs P args = bytes}

/-- Arguments of equal digest are equal, where the digest tells what was hashed apart. -/
theorem canonicalArgs_inj {args minted : Value F} {trace : List (Event F)}
    (hsha : Set.InjOn P.sha256 (insert (encodedArgs P args) (mintedArgs P trace)))
    (hminted : encodedArgs P minted ∈ mintedArgs P trace)
    (h : bodySha256Hex P (canonicalArgs P minted) = bodySha256Hex P (canonicalArgs P args)) :
    canonicalArgs P minted = canonicalArgs P args :=
  Utf8.encode_injective (hsha (Set.mem_insert_of_mem _ hminted) (Set.mem_insert _ _)
    (hexLower_injective h))

variable (P cfg initial) in
/-- How a challenge authorised the dispatch of a command, between what happened before and
what happened after it. -/
structure AuthorisedExactly (before after : List (Event F)) (user name : Text) (args : Value F)
    (challenge : Text) : Prop where
  redeemed : ∃ earlier minted expires at_,
    (Event.redeemed challenge user at_ :: earlier) <:+ before ∧ ¬ Redeemed earlier challenge ∧
      Event.minted challenge user (.action name minted) expires ∈ earlier ∧ at_ < expires ∧
      bodySha256Hex P (canonicalArgs P minted) = bodySha256Hex P (canonicalArgs P args) ∧
      (Set.InjOn P.sha256 (insert (encodedArgs P args) (mintedArgs P before)) →
        canonicalArgs P minted = canonicalArgs P args)
  verified : VerifiedFor P cfg initial before challenge user
  only : ¬ Spent before challenge ∧ ¬ Spent after challenge

variable (P cfg initial) in
/-- Every gated command dispatched on a console that requires a passkey, or for a user who has
one then, was authorised for exactly itself. -/
def AuthorisedForItself (w : World F) : Prop :=
  ∀ after before user name args hasPasskey authorisedBy,
    w.trace = after ++ .dispatched user name args hasPasskey authorisedBy :: before →
      requiresCeremony name = true → cfg.requirePasskey = true ∨ hasPasskey = true →
        ∃ challenge, authorisedBy = some challenge ∧
          AuthorisedExactly P cfg initial before after user name args challenge

/-- No two dispatches of a trace share a challenge. -/
theorem Ledger.not_spent_after {newer older : List (Event F)} {user name challenge : Text}
    {args : Value F} {hasPasskey : Bool}
    (h : Ledger P cfg initial
      (newer ++ .dispatched user name args hasPasskey (some challenge) :: older)) :
    ¬ Spent newer challenge := by
  rintro ⟨user', name', args', hasPasskey', hmem⟩
  obtain ⟨newest, middle, rfl⟩ := List.append_of_mem hmem
  rw [List.append_assoc] at h
  exact h.explained.2 challenge rfl
    ⟨user, name, args, hasPasskey, List.mem_append_right _ List.mem_cons_self⟩

/-- What a ledger says of a dispatch under a challenge. -/
theorem Ledger.authorisedExactly {after before : List (Event F)} {user name challenge : Text}
    {args : Value F} {hasPasskey : Bool}
    (h : Ledger P cfg initial
      (after ++ .dispatched user name args hasPasskey (some challenge) :: before)) :
    AuthorisedExactly P cfg initial before after user name args challenge := by
  obtain ⟨⟨⟨earlier, minted, expires, at_, hredeemed, hfirst, hminted, hargs, hlive⟩, hverified⟩,
    honly⟩ := h.explained
  have hhashed : encodedArgs P minted ∈ mintedArgs P before :=
    ⟨challenge, user, name, minted, expires,
      hredeemed.subset (List.mem_cons_of_mem _ hminted), rfl⟩
  exact ⟨⟨earlier, minted, expires, at_, hredeemed, hfirst, hminted, hlive, hargs,
    fun hsha => canonicalArgs_inj hsha hhashed hargs⟩, hverified, honly challenge rfl,
      h.not_spent_after⟩

/-- In a run that adds no passkey for a user between the gate's reading that they have none and
the dispatch of their command, every gated command is authorised for exactly itself. -/
theorem authorised_of_addsOutsideGate {store : PasskeyStore} {actions : List (Action F)}
    {w : World F}
    (halong : Transition.Along (World.step P cfg) World.AddsOutsideGate (World.start store)
      actions)
    (hrun : Transition.run (World.step P cfg) (World.start store) actions = some w) :
    AuthorisedForItself P cfg store w := by
  have hstart : GateHeld (World.start store : World F) :=
    ⟨fun _ ⟨_, _, _, _, ht, _⟩ => (by cases ht), fun _ _ _ hmem => absurd hmem List.not_mem_nil⟩
  have hheld : GateHeld w := Transition.run_invariant_along
    (fun _ _ _ h houtside hstep => gateHeld_step h houtside hstep) halong hrun hstart
  intro after before user name args hasPasskey authorisedBy htrace hname hgated
  have hledger := (Sound.of_run hrun).ledger
  rw [htrace] at hledger
  cases authorisedBy with
  | none =>
      rcases hgated with hrequired | rfl
      · rw [hledger.explained.1 hname] at hrequired
        cases hrequired
      · have hmem : Event.dispatched user name args true none ∈ w.trace :=
          htrace ▸ List.mem_append_right _ List.mem_cons_self
        rw [hheld.sent user name args hmem] at hname
        cases hname
  | some challenge => exact ⟨challenge, rfl, hledger.authorisedExactly⟩

section Sample

def sampleRp : RpConfig := ⟨"console.example", "https://console.example"⟩

/-- The client data of a ceremony as a browser writes it. -/
def clientJson (c : ClientData) : Text :=
  "\x7b\"type\":\"".toList ++ c.kind ++ "\",\"challenge\":\"".toList ++ c.challenge ++
    "\",\"origin\":\"".toList ++ c.origin ++ "\"\x7d".toList

def sampleClients : List ClientData :=
  ["c0", "c1", "c2", "c3"].flatMap fun challenge =>
    [⟨"webauthn.get", challenge, sampleRp.origin⟩, ⟨"webauthn.create", challenge, sampleRp.origin⟩]

def sampleClientData (bytes : Bytes) : Option ClientData :=
  sampleClients.find? fun c => Utf8.encode (clientJson c) = bytes

def sampleArgs : Value Unit := .object [("runId", .string "run-7")]

def sampleBody : Text := "\x7b\"runId\":\"run-7\"\x7d"

def sampleRpIdHash : Bytes :=
  [0x45, 0x3f, 0xfb, 0xea, 0xf6, 0xf7, 0x40, 0xba, 0x66, 0x14, 0xa8, 0x88, 0xb7, 0x47,
    0xb7, 0x1a, 0xd3, 0xe3, 0xe6, 0x7c, 0xf5, 0x53, 0xa9, 0xdf, 0x08, 0x70, 0x08, 0xfa,
    0xb9, 0x15, 0x57, 0x08]

def sampleBodyHash : Bytes :=
  [0x0a, 0x7b, 0xd6, 0x2f, 0x9f, 0xb6, 0x31, 0xb1, 0x6b, 0xb4, 0x0b, 0xe9, 0x22, 0x34,
    0x64, 0xab, 0x42, 0xc8, 0xb7, 0xc5, 0x66, 0x5d, 0xca, 0x44, 0x76, 0x3e, 0x21, 0x2c,
    0x0d, 0x06, 0x55, 0x9d]

def sampleEmptyHash : Bytes :=
  [0x44, 0x13, 0x6f, 0xa3, 0x55, 0xb3, 0x67, 0x8a, 0x11, 0x46, 0xad, 0x16, 0xf7, 0xe8,
    0x64, 0x9e, 0x94, 0xfb, 0x4f, 0xc2, 0x1f, 0xe7, 0x7e, 0x83, 0x10, 0xc0, 0x60, 0xf6,
    0x1c, 0xaa, 0xff, 0x8a]

/-- The other crates on the inputs of the sample runs. -/
def samplePlatform : Platform Unit where
  sha256 := fun bytes =>
    if bytes = Utf8.encode "console.example" then sampleRpIdHash
    else if bytes = Utf8.encode sampleBody then sampleBodyHash
    else if bytes = Utf8.encode "\x7b\x7d" then sampleEmptyHash
    else []
  fromSlice := fun bytes => (sampleClientData bytes).map fun c =>
    .object [("challenge", .string c.challenge), ("origin", .string c.origin),
      ("type", .string c.kind)]
  clientDataFromSlice := sampleClientData
  toText := fun v =>
    match v with
    | .object [] => "\x7b\x7d"
    | _ => sampleBody
  cborFromReader := fun _ => none
  base64 := fun _ => []
  base64Decode := fun _ => some []
  base64Url := fun _ => []
  derToRawRs := some
  verifyEs256 := fun _ _ _ => true

def sampleKey : PasskeyRecord :=
  ⟨"key-a", "BHgx", 5, "2026-09-01T10:00:00+00:00", "laptop"⟩

/-- One operator with one passkey. -/
def sampleStore : PasskeyStore := (PasskeyStore.empty.add none "ops" sampleKey).2

def sampleSession : SessionInfo := ⟨"ops", .admin⟩

def sampleConfig : Config := ⟨sampleRp, false, some fun password => password = "hunter2", none⟩

/-- An assertion over a challenge, with the last byte of its counter. -/
def sampleEnvelope (challenge : Text) (count : UInt8) : AssertionEnvelope where
  credentialId := "key-a"
  clientData := Utf8.encode (clientJson ⟨"webauthn.get", challenge, sampleRp.origin⟩)
  authenticatorData := sampleRpIdHash ++ [0x05, 0, 0, 0, count]
  signature := []

def sampleChance (challenge : Text) : Chance := ⟨.ok challenge, none, "2026-09-01T11:00:00+00:00"⟩

/-- A challenge is minted for a command, and the command runs through the gate with it. -/
def killRun : List (Action Unit) :=
  [.request 0 sampleSession (.actionStart "money_kill_run" sampleArgs),
    .advance 0 (sampleChance "c0"), .advance 0 (sampleChance "c0"),
    .request 1 sampleSession
      (.command "money_kill_run" (some sampleArgs) (some (.ok (sampleEnvelope "c0" 6)))),
    .advance 1 (sampleChance "c1"), .advance 1 (sampleChance "c1"),
    .advance 1 (sampleChance "c1"), .advance 1 (sampleChance "c1"),
    .advance 1 (sampleChance "c1")]

def sampleX : Bytes :=
  [0x6b, 0x17, 0xd1, 0xf2, 0xe1, 0x2c, 0x42, 0x47, 0xf8, 0xbc, 0xe6, 0xe5, 0x63, 0xa4,
    0x40, 0xf2, 0x77, 0x03, 0x7d, 0x81, 0x2d, 0xeb, 0x33, 0xa0, 0xf4, 0xa1, 0x39, 0x45,
    0xd8, 0x98, 0xc2, 0x96]

def sampleY : Bytes :=
  [0x4f, 0xe3, 0x42, 0xe2, 0xfe, 0x1a, 0x7f, 0x9b, 0x8e, 0xe7, 0xeb, 0x4a, 0x7c, 0x0f,
    0x9e, 0x16, 0x2b, 0xce, 0x33, 0x57, 0x6b, 0x31, 0x5e, 0xce, 0xcb, 0xb6, 0x40, 0x68,
    0x37, 0xbf, 0x51, 0xf5]

/-- The COSE form of the sample point. -/
def sampleCose : Bytes :=
  [0xa5, 0x01, 0x02, 0x03, 0x26, 0x20, 0x01, 0x21, 0x58, 0x20] ++ sampleX ++
    [0x22, 0x58, 0x20] ++ sampleY

/-- The authenticator data of a registration with a one-byte credential id. -/
def sampleAuthData (id : UInt8) : Bytes :=
  sampleRpIdHash ++ [0x45, 0, 0, 0, 0] ++ List.replicate 16 0 ++ [0, 1, id] ++ sampleCose

/-- An attestation object of format "none" up to its authenticator data. -/
def sampleAttestationHead : Bytes :=
  [0xa3, 0x63, 0x66, 0x6d, 0x74, 0x64, 0x6e, 0x6f, 0x6e, 0x65, 0x67, 0x61, 0x74, 0x74, 0x53,
    0x74, 0x6d, 0x74, 0xa0, 0x68, 0x61, 0x75, 0x74, 0x68, 0x44, 0x61, 0x74, 0x61, 0x58, 0x85]

def sampleCbor (bytes : Bytes) : Option Cbor :=
  if bytes = sampleCose then
    some (.map [(.integer 1, .integer 2), (.integer 3, .integer (-7)), (.integer (-1), .integer 1),
      (.integer (-2), .bytes sampleX), (.integer (-3), .bytes sampleY)])
  else if bytes.take 30 = sampleAttestationHead then
    some (.map [(.text "fmt", .text "none"), (.text "attStmt", .map []),
      (.text "authData", .bytes (bytes.drop 30))])
  else none

def samplePlatformWithKeys : Platform Unit :=
  { samplePlatform with
    cborFromReader := sampleCbor
    base64 := fun _ =>
      "BGsX0fLhLEJH+Lzm5WOkQPJ3A32BLeszoPShOUXYmMKWT+NC4v4af5uO5+tKfA+eFivOM1drMV7Oy7ZAaDe/UfU="
    base64Url := fun bytes => if bytes = [0x41] then "QQ" else "Qg" }

def sampleFinish (challenge credentialId : Text) (id : UInt8) : RegisterFinish where
  label := "laptop"
  credentialId := credentialId
  clientData := Utf8.encode (clientJson ⟨"webauthn.create", challenge, sampleRp.origin⟩)
  attestationObject := sampleAttestationHead ++ sampleAuthData id

/-- A passkey is enrolled between the gate's reading and the dispatch. -/
def killBehindGate : List (Action Unit) :=
  [.request 0 sampleSession (.registerStart none (some "hunter2")),
    .advance 0 (sampleChance "c0"), .advance 0 (sampleChance "c0"),
    .request 1 sampleSession (.command "money_kill_run" (some sampleArgs) none),
    .advance 1 (sampleChance "c1"),
    .request 2 sampleSession (.registerFinish (.ok (sampleFinish "c0" "QQ" 0x41))),
    .advance 2 (sampleChance "c2"), .advance 2 (sampleChance "c2"),
    .advance 1 (sampleChance "c1")]

end Sample

/-- The step is not the one that adds a passkey. -/
def World.addsNone (w : World F) : Action F → Bool
  | .advance i _ =>
      match w.threads i with
      | some ⟨_, .registerAdd _ _⟩ => false
      | _ => true
  | _ => true

theorem World.not_registerAdd {w : World F} {i : Nat} {chance : Chance} {session : SessionInfo}
    {challenge : Text} {record : PasskeyRecord} (h : w.addsNone (.advance i chance) = true) :
    w.threads i ≠ some ⟨session, .registerAdd challenge record⟩ := by
  intro hthread
  simp only [addsNone, hthread, Bool.false_eq_true] at h

theorem authorised_of_addsOutsideGate_killRun :
    ∃ w before, Transition.run (World.step samplePlatform sampleConfig) (World.start sampleStore)
        killRun = some w ∧
      w.trace = .dispatched "ops" "money_kill_run" sampleArgs true (some "c0") :: before ∧
      AuthorisedForItself samplePlatform sampleConfig sampleStore w := by
  obtain ⟨w, before, hrun, htrace⟩ : ∃ w before,
      Transition.run (World.step samplePlatform sampleConfig) (World.start sampleStore) killRun =
          some w ∧
        w.trace = .dispatched "ops" "money_kill_run" sampleArgs true (some "c0") :: before :=
    ⟨_, _, rfl, rfl⟩
  have halong : Transition.Along (World.step samplePlatform sampleConfig)
      (fun s a => World.addsNone s a = true) (World.start sampleStore) killRun :=
    Transition.along_of_check (by decide)
  refine ⟨w, before, hrun, htrace, authorised_of_addsOutsideGate (halong.imp ?_) hrun⟩
  rintro v a hnone i chance session challenge record rfl hthread
  exact absurd hthread (World.not_registerAdd hnone)

set_option maxRecDepth 4000 in
theorem kill_dispatched_behind_gate :
    ¬ ∀ w, Transition.run (World.step samplePlatformWithKeys sampleConfig)
      (World.start PasskeyStore.empty) killBehindGate = some w →
        AuthorisedForItself samplePlatformWithKeys sampleConfig PasskeyStore.empty w := by
  intro h
  obtain ⟨challenge, hnone, -⟩ := h _ rfl [] _ "ops" "money_kill_run" sampleArgs true none rfl
    (by decide) (Or.inr rfl)
  cases hnone

end Genaryx.Ceremony
