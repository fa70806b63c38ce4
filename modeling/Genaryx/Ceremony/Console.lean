import Genaryx.Base.Digest
import Genaryx.Ceremony.Roles
import Genaryx.Ceremony.WebAuthn
import Mathlib.Logic.Function.Basic

/-!
# The console's passkey endpoints under concurrent requests

Each request is a thread whose steps are the sections it runs under one lock: reading the
passkey store, minting or redeeming a challenge, changing the store, dispatching. Between
two steps of one thread any other thread may run.

## Implementation notes

The verification of an assertion touches no shared state, so it is one step with the
counter update that follows it. `World.trace` and `World.high` have no counterpart in the
program. The trace lists, newest first, what the results speak about, and `high` is the
highest count ever stored for a credential. A minted challenge is 32 random bytes, taken
here to be one that was never minted before.
-/

namespace Genaryx.Ceremony

open Json

variable {F : Type}

def removePasskeyCeremony : Text := "webauthn_remove_passkey"

def enrollPasskeyCeremony : Text := "webauthn_enroll_passkey"

/-- The signed-in caller. -/
structure SessionInfo where
  user : Text
  role : Role
  deriving DecidableEq

/-- The assertion envelope of the request header, its three binary fields decoded. -/
structure AssertionEnvelope where
  credentialId : Text
  clientData : Bytes
  authenticatorData : Bytes
  signature : Bytes
  deriving DecidableEq

/-- The header, or what its decoding reports. -/
abbrev Header := Except Text AssertionEnvelope

structure RegisterFinish where
  label : Text
  credentialId : Text
  clientData : Bytes
  attestationObject : Bytes

/-- A refused request: the status, the error text and the hint of its `webauthn` field. -/
structure Refusal where
  status : Nat
  error : Text
  webauthn : Option Text := none
  deriving DecidableEq

def badRequest (message : Text) : Refusal := ⟨400, message, none⟩

def ceremonyRefused (e : WebAuthnError) : Refusal := ⟨403, "webauthn: " ++ e.display, none⟩

def storeUnavailable (why : Text) : Refusal := ⟨503, "passkey store unavailable: " ++ why, none⟩

/-- How the console is configured. `operator` checks the operator account's password, if
the box has an account, and `passkeysError` says why the passkey store could not be
opened. -/
structure Config where
  rp : RpConfig
  requirePasskey : Bool
  operator : Option (Text → Bool)
  passkeysError : Option Text := none

def operatorPasswordOk (cfg : Config) (password : Text) : Except Refusal Unit :=
  match cfg.operator with
  | none => .error ⟨403, "this box has no operator account, so there is no password to prove: run `genaryx-web set-password --username <name>` on the box first", some "no_operator_account"⟩
  | some verify =>
      if verify password then .ok ()
      else .error ⟨403, "the operator password was not accepted", none⟩

/-- What an assertion is asked for. -/
inductive Goal (F : Type)
  | command (name : Text) (args : Value F)
  | enroll
  | remove (credentialId : Text)

/-- The ceremony name that an assertion has to be bound to. -/
def Goal.boundTo : Goal F → Text
  | .command name _ => name
  | .enroll => enrollPasskeyCeremony
  | .remove _ => removePasskeyCeremony

/-- The arguments that an assertion has to be bound to. -/
def Goal.args : Goal F → Value F
  | .command _ args => args
  | .enroll => .object []
  | .remove credentialId => .object [("credential_id", .string credentialId)]

/-- Where a request stands. A challenge carried along is the one whose assertion
authorises what follows. -/
inductive Pc (F : Type)
  | actionStart (command : Text) (args : Value F)
  | actionMint (command : Text) (args : Value F)
  | registerStart (header : Option Header) (password : Option Text)
  | registerMint (authorisedBy : Option Text)
  | registerFinish (body : Except Text RegisterFinish)
  | registerAdd (challenge : Text) (record : PasskeyRecord)
  | removeStart (credentialId : Text) (header : Option Header) (password : Option Text)
  | removeDrop (credentialId : Text) (passwordOk : Bool)
  | command (name : Text) (args : Option (Value F)) (header : Option Header)
  | assertTake (goal : Goal F) (envelope : AssertionEnvelope)
  | assertLookup (goal : Goal F) (envelope : AssertionEnvelope) (challenge : Text)
  | assertVerify (goal : Goal F) (envelope : AssertionEnvelope) (challenge : Text)
      (record : PasskeyRecord)
  | dispatch (name : Text) (args : Value F) (authorisedBy : Option Text)
  | finished (refusal : Option Refusal)

structure Thread (F : Type) where
  session : SessionInfo
  pc : Pc F

/-- What a challenge is minted for: a registration, with the assertion that authorised it
if one did, or a command with its arguments. -/
inductive Asked (F : Type)
  | register (authorisedBy : Option Text)
  | action (command : Text) (args : Value F)

/-- What happened: a challenge was minted or redeemed, an assertion was verified while this
count was stored, a passkey was enrolled while the user had others or not, a passkey was
removed, a command was dispatched while the user had a passkey or not. -/
inductive Event (F : Type)
  | minted (challenge user : Text) (asked : Asked F) (expires : Nat)
  | redeemed (challenge user : Text) (at_ : Nat)
  | verified (challenge user : Text) (record : PasskeyRecord) (signCount : Nat)
      (stored : Option Nat)
  | enrolled (challenge user : Text) (record : PasskeyRecord) (hadPasskey : Bool)
  | removed (user credentialId : Text)
  | dispatched (user name : Text) (args : Value F) (hasPasskey : Bool)
      (authorisedBy : Option Text)

structure World (F : Type) where
  now : Nat := 0
  store : PasskeyStore
  pending : PendingCeremonies := ∅
  threads : Nat → Option (Thread F) := fun _ => none
  trace : List (Event F) := []
  high : Text → Text → Nat

/-- What one step meets by chance: the random challenge or the failure to get one, what
writing the passkey file reports, and the time text. -/
structure Chance where
  challenge : Except Text Text
  persistError : Option Text := none
  createdAt : Text

inductive Action (F : Type)
  | tick (elapsed : Nat)
  | request (thread : Nat) (session : SessionInfo) (pc : Pc F)
  | advance (thread : Nat) (chance : Chance)

/-- The pcs that a request starts in. -/
def Pc.isEntry : Pc F → Bool
  | .actionStart _ _ | .registerStart _ _ | .registerFinish _ | .removeStart _ _ _
  | .command _ _ _ => true
  | _ => false

variable (P : Platform F) (cfg : Config)

/-- The serialization that both the mint and the gate hash. -/
def canonicalArgs (args : Value F) : Text := P.toText args

def bodySha256Hex (body : Text) : Text := hexLower (P.sha256 (Utf8.encode body))

/-- The purpose that the pending table keeps. -/
def Asked.purpose : Asked F → Purpose
  | .register _ => .register
  | .action command args => .action command (bodySha256Hex P (canonicalArgs P args))

/-- The challenge that a client data echoes. -/
def challengeOf (clientDataJson : Bytes) : Option Text :=
  ((P.fromSlice clientDataJson).bind fun v => v.get "challenge").bind Value.asStr

/-- The label an operator chose, or a default one. -/
def labelOf (label : Text) : Text :=
  if (Text.trim label).isEmpty then "passkey" else Text.trim label

/-- The record that a verified registration enrolls. -/
def recordOf (createdAt : Text) (body : RegisterFinish) (v : VerifiedRegistration) :
    PasskeyRecord :=
  ⟨v.credentialId, v.publicKeyX963, v.signCount, createdAt, labelOf body.label⟩

/-- The name carries a ceremony that a challenge can be minted for. -/
def ceremonial (command : Text) : Bool :=
  command ∈ ceremonyCommands || command = removePasskeyCeremony ||
    command = enrollPasskeyCeremony

namespace World

variable (w : World F)

def log (e : Event F) : World F := { w with trace := e :: w.trace }

def setPc (thread : Nat) (t : Thread F) (pc : Pc F) : World F :=
  { w with threads := Function.update w.threads thread (some { t with pc := pc }) }

/-- The count stored for a credential that is enrolled. -/
def stored (user credentialId : Text) : Option Nat :=
  (w.store.find user credentialId).map PasskeyRecord.signCount

/-- Remember a count that was stored. -/
def raise (user credentialId : Text) (signCount : Nat) : World F :=
  { w with
    high := Function.update w.high user
      (Function.update (w.high user) credentialId (max (w.high user credentialId) signCount)) }

/-- The challenge was minted before. -/
def mintedBefore (challenge : Text) : Bool :=
  w.trace.any fun
    | .minted c _ _ _ => c = challenge
    | _ => false

/-- The world after a challenge is minted. -/
def minting (user : Text) (asked : Asked F) (challenge : Text) : World F :=
  { w with
    pending := w.pending.mint w.now user (asked.purpose P) challenge
    trace := .minted challenge user asked (w.now + ceremonyTtl) :: w.trace }

/-- The world after a challenge is redeemed. -/
def redeeming (user challenge : Text) : World F :=
  { w with
    pending := w.pending.erase challenge
    trace := .redeemed challenge user w.now :: w.trace }

/-- The world after a passkey is enrolled. -/
def enrolling (user challenge : Text) (record : PasskeyRecord) (persistError : Option Text) :
    World F :=
  { w with
    store := (w.store.add persistError user record).2
    trace := .enrolled challenge user record (w.store.hasAny user) :: w.trace }.raise
      user record.credentialId record.signCount

/-- The world after a passkey is removed, or not. -/
def removing (user credentialId : Text) (passwordOk : Bool) (persistError : Option Text) :
    World F :=
  let store := (w.store.remove persistError user credentialId passwordOk).2
  { w with
    store := store
    trace :=
      if (store.forUser user).length < (w.store.forUser user).length then
        .removed user credentialId :: w.trace
      else w.trace }

/-- The world after an assertion is verified and its counter stored, if the credential is
still enrolled. -/
def verifying (user challenge : Text) (record : PasskeyRecord) (signCount : Nat)
    (persistError : Option Text) : World F :=
  let verified := { w with
    store := (w.store.updateSignCount persistError user record.credentialId signCount).2
    trace := .verified challenge user record signCount (w.stored user record.credentialId) ::
      w.trace }
  if (w.stored user record.credentialId).isSome then
    verified.raise user record.credentialId signCount
  else verified

variable (thread : Nat) (t : Thread F) (pc : Pc F)

@[simp] theorem setPc_trace : (w.setPc thread t pc).trace = w.trace := rfl

@[simp] theorem setPc_store : (w.setPc thread t pc).store = w.store := rfl

@[simp] theorem setPc_pending : (w.setPc thread t pc).pending = w.pending := rfl

@[simp] theorem setPc_threads :
    (w.setPc thread t pc).threads =
      Function.update w.threads thread (some { t with pc := pc }) := rfl

/-- What verifying changes beside the highest count. -/
theorem verifying_fields (user challenge : Text) (record : PasskeyRecord) (signCount : Nat)
    (persistError : Option Text) :
    let next := w.verifying user challenge record signCount persistError
    next.trace = .verified challenge user record signCount
        (w.stored user record.credentialId) :: w.trace ∧
      next.pending = w.pending ∧
      next.store =
        (w.store.updateSignCount persistError user record.credentialId signCount).2 ∧
      next.threads = w.threads := by
  dsimp only [verifying]
  split <;> exact ⟨rfl, rfl, rfl, rfl⟩

/-- Where a step leads: the changed world and the next pc. -/
abbrev Next (F : Type) := World F × Pc F

def refuse (r : Refusal) : Next F := (w, .finished (some r))

/-- Mint a challenge; `none` stands for random bytes that repeat. -/
def mint (user : Text) (asked : Asked F) (chance : Chance) : Option (Next F) :=
  match chance.challenge with
  | .error message => some (w.refuse (ceremonyRefused (.store ("entropy: " ++ message))))
  | .ok challenge =>
      if w.mintedBefore challenge then none
      else some (w.minting P user asked challenge, .finished none)

/-- Redeem the challenge that a client data echoes, and go on with its purpose. -/
def redeem (user : Text) (clientData : Bytes) (next : Text → Purpose → Except Refusal (Pc F)) :
    Next F :=
  match challengeOf P clientData with
  | none => w.refuse (badRequest "clientDataJSON carries no challenge")
  | some challenge =>
      match w.pending.take w.now user challenge with
      | (.error e, pending) => ({ w with pending := pending }, .finished (some (ceremonyRefused e)))
      | (.ok purpose, _) =>
          match next challenge purpose with
          | .error r => (w.redeeming user challenge).refuse r
          | .ok pc => (w.redeeming user challenge, pc)

def actionStart (user command : Text) (args : Value F) : Next F :=
  if !w.store.hasAny user then
    w.refuse (badRequest "no passkey enrolled; enroll one before starting an action ceremony")
  else if !ceremonial command then
    w.refuse (badRequest "this command carries no webauthn ceremony")
  else (w, .actionMint command args)

def registerStart (user : Text) (header : Option Header) (password : Option Text) : Next F :=
  if w.store.hasAny user then
    match header with
    | none => w.refuse ⟨403, "you already have an enrolled passkey: confirm with it before enrolling another, so a session on its own cannot add one", some "assertion_required"⟩
    | some (.error message) => w.refuse (badRequest message)
    | some (.ok envelope) => (w, .assertTake .enroll envelope)
  else
    match password with
    | none => w.refuse ⟨403, "enrolling the first passkey needs the operator password (the one `genaryx-web set-password` set): a session alone is what the ceremony exists to defend against, so it cannot mint the key that would satisfy it", some "password_required"⟩
    | some password =>
        match operatorPasswordOk cfg password with
        | .error r => w.refuse r
        | .ok () => (w, .registerMint none)

/-- What a redeemed registration challenge leads to. -/
def registered (chance : Chance) (body : RegisterFinish) (challenge : Text) (purpose : Purpose) :
    Except Refusal (Pc F) :=
  match purpose with
  | .action _ _ => .error (ceremonyRefused (.mismatch "ceremony purpose"))
  | .register =>
      match verifyRegistration P cfg.rp challenge body.clientData body.attestationObject with
      | .error e => .error (ceremonyRefused e)
      | .ok v =>
          if v.credentialId ≠ body.credentialId then
            .error (ceremonyRefused (.mismatch "credential id"))
          else .ok (.registerAdd challenge (recordOf chance.createdAt body v))

def registerAdd (user challenge : Text) (record : PasskeyRecord) (chance : Chance) : Next F :=
  let refusal := match (w.store.add chance.persistError user record).1 with
    | .error e => some (ceremonyRefused e)
    | .ok () => none
  if record.credentialId ∈ (w.store.forUser user).map PasskeyRecord.credentialId then
    (w, .finished refusal)
  else (w.enrolling user challenge record chance.persistError, .finished refusal)

def removeStart (user credentialId : Text) (header : Option Header) (password : Option Text) :
    Next F :=
  let keys := w.store.forUser user
  if credentialId ∉ keys.map PasskeyRecord.credentialId then
    w.refuse ⟨404, "webauthn: " ++ WebAuthnError.unknownCredential.display, none⟩
  else
    match password with
    | some password =>
        match operatorPasswordOk cfg password with
        | .error r => w.refuse r
        | .ok () => (w, .removeDrop credentialId true)
    | none =>
        if keys.length = 1 then
          w.refuse ⟨403, "this is the last enrolled passkey: removing it needs the operator password (the one `genaryx-web set-password` set), because it is what takes this console back to session-only", some "password_required"⟩
        else
          match header with
          | none => w.refuse ⟨403, "removing a passkey needs a fresh confirmation from an enrolled passkey, or the operator password: a session alone cannot take the ceremony away", some "assertion_required"⟩
          | some (.error message) => w.refuse (badRequest message)
          | some (.ok envelope) => (w, .assertTake (.remove credentialId) envelope)

def removeDrop (user credentialId : Text) (passwordOk : Bool) (chance : Chance) : Next F :=
  let refusal := match (w.store.remove chance.persistError user credentialId passwordOk).1 with
    | .error e => some (ceremonyRefused e)
    | .ok _ => none
  (w.removing user credentialId passwordOk chance.persistError, .finished refusal)

/-- The per-action gate, after the role gate. -/
def webauthnGate (user name : Text) (args : Value F) (header : Option Header) : Next F :=
  match cfg.passkeysError with
  | some why => w.refuse (storeUnavailable why)
  | none =>
      if !w.store.hasAny user then
        if cfg.requirePasskey then
          w.refuse ⟨403, "this console requires a passkey for " ++ name ++ ", and you have none enrolled: enrol one under Session > Passkeys, then run this again".toList, some "enrollment_required"⟩
        else (w, .dispatch name args none)
      else
        match header with
        | none => w.refuse ⟨428, "a webauthn assertion is required for this command", some "required"⟩
        | some (.error message) => w.refuse (badRequest message)
        | some (.ok envelope) => (w, .assertTake (.command name args) envelope)

def command (session : SessionInfo) (name : Text) (args : Option (Value F))
    (header : Option Header) : Next F :=
  let need := requiredRole name
  if session.role.rank < need.rank then
    w.refuse ⟨403, "role " ++ need.asStr ++ " required".toList, none⟩
  else
    let args := args.getD (.object [])
    if requiresCeremony name then w.webauthnGate cfg session.user name args header
    else (w, .dispatch name args none)

/-- What a redeemed challenge of an assertion leads to: it has to be bound to the goal. -/
def asserted (goal : Goal F) (envelope : AssertionEnvelope) (challenge : Text)
    (purpose : Purpose) : Except Refusal (Pc F) :=
  match purpose with
  | .register => .error (ceremonyRefused (.mismatch "ceremony purpose"))
  | .action boundCommand boundArgs =>
      if boundCommand ≠ goal.boundTo then .error (ceremonyRefused (.mismatch "bound command"))
      else if boundArgs ≠ bodySha256Hex P (canonicalArgs P goal.args) then
        .error (ceremonyRefused (.mismatch "bound arguments"))
      else .ok (.assertLookup goal envelope challenge)

def assertLookup (user : Text) (goal : Goal F) (envelope : AssertionEnvelope)
    (challenge : Text) : Next F :=
  match w.store.find user envelope.credentialId with
  | none => w.refuse (ceremonyRefused .wrongUser)
  | some record => (w, .assertVerify goal envelope challenge record)

/-- What a verified assertion leads to. -/
def goalPc (challenge : Text) : Goal F → Pc F
  | .command name args => .dispatch name args (some challenge)
  | .enroll => .registerMint (some challenge)
  | .remove credentialId => .removeDrop credentialId false

/-- Verify the assertion against the record that was read, and store its counter. -/
def assertVerify (user : Text) (goal : Goal F) (envelope : AssertionEnvelope)
    (challenge : Text) (record : PasskeyRecord) (chance : Chance) : Next F :=
  match verifyAssertion P cfg.rp challenge record envelope.clientData envelope.authenticatorData
      envelope.signature with
  | .error e => w.refuse (ceremonyRefused e)
  | .ok v =>
      (w.verifying user challenge record v.signCount chance.persistError, goalPc challenge goal)

/-- One locked section of one request. -/
def advancePc (session : SessionInfo) (pc : Pc F) (chance : Chance) : Option (Next F) :=
  match cfg.passkeysError, pc with
  | _, .finished _ => none
  | _, .command name args header => some (w.command cfg session name args header)
  | _, .dispatch name args authorisedBy =>
      some (w.log (.dispatched session.user name args (w.store.hasAny session.user) authorisedBy),
        .finished none)
  | some why, _ => some (w.refuse (storeUnavailable why))
  | none, .actionStart command args => some (w.actionStart session.user command args)
  | none, .actionMint command args =>
      w.mint P session.user (.action command args) chance
  | none, .registerStart header password =>
      some (w.registerStart cfg session.user header password)
  | none, .registerMint authorisedBy => w.mint P session.user (.register authorisedBy) chance
  | none, .registerFinish (.error message) => some (w.refuse (badRequest message))
  | none, .registerFinish (.ok body) =>
      some (w.redeem P session.user body.clientData (registered P cfg chance body))
  | none, .registerAdd challenge record =>
      some (w.registerAdd session.user challenge record chance)
  | none, .removeStart credentialId header password =>
      some (w.removeStart cfg session.user credentialId header password)
  | none, .removeDrop credentialId passwordOk =>
      some (w.removeDrop session.user credentialId passwordOk chance)
  | none, .assertTake goal envelope =>
      some (w.redeem P session.user envelope.clientData (asserted P goal envelope))
  | none, .assertLookup goal envelope challenge =>
      some (w.assertLookup session.user goal envelope challenge)
  | none, .assertVerify goal envelope challenge record =>
      some (w.assertVerify P cfg session.user goal envelope challenge record chance)

/-- One step of the console. -/
def step : Action F → Option (World F)
  | .tick elapsed => some { w with now := w.now + elapsed }
  | .request thread session pc =>
      if pc.isEntry && (w.threads thread).isNone then
        some { w with threads := Function.update w.threads thread (some ⟨session, pc⟩) }
      else none
  | .advance thread chance =>
      match w.threads thread with
      | none => none
      | some t =>
          match w.advancePc P cfg t.session t.pc chance with
          | none => none
          | some (next, pc) => some (next.setPc thread t pc)

/-- A console that has just started over the enrolled passkeys. -/
def start (store : PasskeyStore) : World F where
  store := store
  high := fun user credentialId =>
    ((store.find user credentialId).map PasskeyRecord.signCount).getD 0

end World

end Genaryx.Ceremony
