import Genaryx.Base.Transition
import Genaryx.Base.Words
import Genaryx.Web.JwksBody
import Genaryx.Web.Sessions
import Genaryx.Web.SignIn

/-!
# Signing in with an ID token

A token is checked under a key that the console holds already, with the algorithms that belong to
the type of that key. What the roles claim names decides the role.

## Implementation notes

`TokenReader` holds what the token library does: the key id of a token's header, the type and the
verifying key of a JWK, and the claims of a token that passes the validation asked for. How the key
source finds a key is an argument, as the live one fetches.
-/

namespace Genaryx.Web.Oidc

open Json
open Ceremony (Role)

inductive Algorithm
  | hs256 | hs384 | hs512
  | es256 | es384
  | rs256 | rs384 | rs512
  | ps256 | ps384 | ps512
  | edDSA
  deriving DecidableEq

/-- The type of a key. -/
inductive AlgorithmParameters
  | ellipticCurve
  | rsa
  | octetKey
  | octetKeyPair
  deriving DecidableEq

/-- The type of the keys that sign with an algorithm. -/
def Algorithm.signedBy : Algorithm → AlgorithmParameters
  | .hs256 | .hs384 | .hs512 => .octetKey
  | .es256 | .es384 => .ellipticCurve
  | .rs256 | .rs384 | .rs512 | .ps256 | .ps384 | .ps512 => .rsa
  | .edDSA => .octetKeyPair

/-- What a token is asked to pass. -/
structure Validation where
  algorithms : List Algorithm
  validateExp : Bool
  requiredSpecClaims : List Text
  issuer : List Text
  audience : List Text
  deriving DecidableEq

/-- The claims of a token. -/
abbrev Claims (F : Type) := List (Text × Value F)

structure TokenReader (F Jwk Key : Type) where
  decodeHeader : Text → Option (Option Text)
  parameters : Jwk → AlgorithmParameters
  fromJwk : Jwk → Option Key
  decode : Text → Key → Validation → Option (Claims F)

structure OidcConfig where
  issuer : Text
  audience : Text
  subClaim : Text
  rolesClaim : Text
  adminRole : Text
  approverRole : Text

/-- A verified token. -/
structure Verified where
  username : Text
  role : Role
  deriving DecidableEq

def nonEmpty (value default : Text) : Text :=
  if (Text.trim value).isEmpty then default else value

/-- A configuration with the names that the environment leaves out. -/
def OidcConfig.finish (issuer audience subClaim rolesClaim adminRole approverRole : Text) :
    OidcConfig where
  issuer := issuer
  audience := audience
  subClaim := nonEmpty subClaim "sub".toList
  rolesClaim := nonEmpty rolesClaim "roles".toList
  adminRole := nonEmpty adminRole "genaryx-admin".toList
  approverRole := nonEmpty approverRole "genaryx-approver".toList

namespace Claims

variable {F : Type} (claims : Claims F)

/-- A claim that is a text and not empty. -/
def string (key : Text) : Option Text :=
  match claims.lookup key with
  | some (.string s) => if s.isEmpty then none else some s
  | _ => none

/-- The roles claim has a role: as an item of its array, or as a word of its text. -/
def hasRole (key role : Text) : Bool :=
  match claims.lookup key with
  | some (.array items) => items.any fun v => v.asStr == some role
  | some (.string s) => (Text.splitWhitespace s).any (· == role)
  | _ => false

end Claims

/-- The algorithms that a key of a type may have signed with. -/
def algorithmsOf : AlgorithmParameters → Option (List Algorithm)
  | .rsa => some [.rs256, .rs384, .rs512]
  | .ellipticCurve => some [.es256, .es384]
  | .octetKey | .octetKeyPair => none

def validation (cfg : OidcConfig) (algorithms : List Algorithm) : Validation where
  algorithms := algorithms
  validateExp := true
  requiredSpecClaims := ["exp".toList, "iss".toList, "aud".toList]
  issuer := [cfg.issuer]
  audience := [cfg.audience]

def roleOf {F : Type} (cfg : OidcConfig) (claims : Claims F) : Role :=
  if claims.hasRole cfg.rolesClaim cfg.adminRole then .admin
  else if claims.hasRole cfg.rolesClaim cfg.approverRole then .approver
  else .viewer

variable {F Jwk Key : Type} (reader : TokenReader F Jwk Key) (cfg : OidcConfig)

/-- Verify a token with the keys that the source has. -/
def verify (find : Text → Option Jwk) (token : Text) : Option Verified := do
  let kid ← (← reader.decodeHeader token)
  let jwk ← find kid
  let algorithms ← algorithmsOf (reader.parameters jwk)
  let key ← reader.fromJwk jwk
  let claims ← reader.decode token key (validation cfg algorithms)
  let username ← claims.string cfg.subClaim
  return ⟨username, roleOf cfg claims⟩

/-- What an accepted token shows: it names a key that the source has, it passes the validation under
that key with algorithms of the key's own type, and its claims name the user and the role. -/
def Shows (find : Text → Option Jwk) (token : Text) (verified : Verified) : Prop :=
  ∃ kid jwk algorithms key claims,
    reader.decodeHeader token = some (some kid) ∧ find kid = some jwk ∧
      (∀ algorithm ∈ algorithms, algorithm.signedBy = reader.parameters jwk) ∧
      reader.fromJwk jwk = some key ∧
      reader.decode token key (validation cfg algorithms) = some claims ∧
      claims.string cfg.subClaim = some verified.username ∧ roleOf cfg claims = verified.role

variable {reader cfg} {find : Text → Option Jwk} {token : Text} {verified : Verified}

/-- A key is asked for no algorithm of another type. -/
theorem signedBy_of_algorithmsOf {parameters : AlgorithmParameters} {algorithms : List Algorithm}
    (h : algorithmsOf parameters = some algorithms) :
    ∀ algorithm ∈ algorithms, algorithm.signedBy = parameters := by
  cases parameters with
  | rsa | ellipticCurve =>
      cases h
      simp [Algorithm.signedBy]
  | octetKey | octetKeyPair => cases h

theorem shows_of_verify (h : verify reader cfg find token = some verified) :
    Shows reader cfg find token verified := by
  simp only [verify, Option.bind_eq_bind, Option.bind_eq_some_iff, Option.pure_def] at h
  obtain ⟨kid?, hheader, kid, rfl, jwk, hfind, algorithms, halgorithms, key, hkey, claims, hdecode,
    username, husername, hverified⟩ := h
  cases hverified
  exact ⟨kid, jwk, algorithms, key, claims, hheader, hfind, signedBy_of_algorithmsOf halgorithms,
    hkey, hdecode, husername, rfl⟩

end Genaryx.Web.Oidc

/-!
## The console's gate

Sign-ins, sign-outs and commands of any number of clients at once. Each request is a thread whose
steps are the sections it runs under one lock: reading or filling the operator cell, recording a
sign-in, minting or resolving a session, dispatching. Between two steps of one thread any other
thread may run, and the operator's file may change.

### Implementation notes

`World.log` has no counterpart in the program: it lists, newest first, what the results speak about.
A password sign-in takes the steps of `handle` on the tables of failed sign-ins. The live key source
fetches when it likes: its own rules are not needed here. Whether the ceremony of a command passes is
left to chance: the gate runs it after the role.
-/

namespace Genaryx.Web.Gate

open Base Base.Transition
open Ceremony (Role requiredRole requiresCeremony)

/-- How long a session survives without being used. -/
def idleTimeout : Nat := 12 * 60 * 60 * 1000000000

/-- How long a session survives at all. -/
def absoluteLifetime : Nat := 24 * 60 * 60 * 1000000000

def limits : Limits := ⟨idleTimeout, absoluteLifetime⟩

/-- The body of a sign-in. -/
structure Credentials where
  username : Option Text := none
  password : Option Text := none
  idToken : Option Text := none

variable {F Jwk Key : Type}

/-- The keys that a token may name. -/
abbrev Keys (Jwk : Type) := Text → Option Jwk

/-- What a sign-in was accepted for: a password under an operator record, or a token under the keys
that it was checked with. -/
inductive Proof (Jwk : Type)
  | password (operator : Operator) (username password : Text)
  | token (keys : Keys Jwk) (token : Text)

/-- What a request needs the operator record for. -/
inductive Wanting
  | signIn (username password : Text) (peer : Option Text)
  | probe (cookie : Option Text)

/-- Where a request stands. -/
inductive Pc (Jwk : Type)
  | login (credentials : Credentials) (peer : Option Text)
  | verifyToken (cfg : Oidc.OidcConfig) (token : Text)
  | operator (wanting : Wanting)
  | operatorLoad (wanting : Wanting)
  | operatorStore (wanting : Wanting) (found : Operator)
  | password (request : Request)
  | mint (session : SessionInfo) (proof : Proof Jwk)
  | logout (cookie : Option Text)
  | session (cookie : Option Text)
  | command (cookie : Option Text) (name : Text)
  | ceremony (id : Text) (session : SessionInfo) (name : Text)
  | dispatch (id : Text) (session : SessionInfo) (name : Text)
  | answered (status : Nat)

/-- The pcs that a request starts in. -/
def Pc.isEntry : Pc Jwk → Bool
  | .login _ _ | .operator (.probe _) | .logout _ | .command _ _ => true
  | _ => false

/-- What happened: the key source fetched its keys, or a session was minted, was resolved, was
dropped on a sign-out, or a command was dispatched under it. -/
inductive Event (Jwk : Type)
  | fetched (keys : Keys Jwk)
  | signedIn (id : Text) (session : SessionInfo) (now : Nat) (proof : Proof Jwk)
  | used (id : Text) (session : SessionInfo) (readings : Readings) (seenAt : Nat)
  | signedOut (id : Text)
  | dispatched (id : Text) (session : SessionInfo) (name : Text)

structure World (Jwk : Type) where
  clock : Nat := 0
  /-- What reading `operator.json` gives. -/
  file : Option Operator := none
  operator : Option Operator := none
  /-- The keys that the source holds. -/
  keys : Keys Jwk := fun _ => none
  signIns : Web.World := {}
  sessions : Sessions := fun _ => none
  threads : Nat → Option (Pc Jwk) := fun _ => none
  log : List (Event Jwk) := []

/-- What one step meets by chance: the random bytes of an id, the readings of the clock, the window
that a full table forgets, and whether the ceremony passes. -/
structure Chance where
  bytes : Bytes := []
  now : Nat := 0
  readings : Text → Readings := fun _ => ⟨0, 0⟩
  done : Nat := 0
  pick : Text := []
  ceremonyPasses : Bool := false

inductive Action (Jwk : Type)
  | tick (elapsed : Nat)
  | writeOperator (record : Option Operator)
  | fetchKeys (keys : Keys Jwk)
  | request (thread : Nat) (pc : Pc Jwk)
  | advance (thread : Nat) (chance : Chance)

/-- The console: how a password and a token are checked, the identity provider if it has one, and
the keys that its key source starts with. A static source keeps them. -/
structure Console (F Jwk Key : Type) where
  passwordMatches : Text → Text → Bool
  reader : Oidc.TokenReader F Jwk Key
  oidc : Option Oidc.OidcConfig
  keys : Keys Jwk
  live : Bool

namespace World

variable (w : World Jwk)

/-- A request goes on with the operator record. -/
def withOperator (wanting : Wanting) (operator : Operator) : Pc Jwk :=
  match wanting with
  | .signIn username password peer =>
      .password { operator, username, password, peer, now := w.clock }
  | .probe cookie => .session cookie

/-- A request goes on without an operator record. -/
def withoutOperator : Wanting → Pc Jwk
  | .signIn _ _ _ => .answered 503
  | .probe cookie => .session cookie

/-- The readings of the clock in one step do not go back. -/
def timely (readings : Readings) (done : Nat) : Bool :=
  w.clock ≤ readings.idleAt && readings.idleAt ≤ readings.lifeAt && readings.lifeAt ≤ done

/-- `Sessions::touch` on the id of a cookie. -/
def touch (cookie : Option Text) (chance : Chance) : Option (Text × SessionInfo) × World Jwk :=
  match cookie with
  | none => (none, w)
  | some id =>
      match w.sessions.touch limits id (chance.readings id) chance.done with
      | (none, sessions) => (none, { w with sessions })
      | (some session, sessions) =>
          (some (id, session),
            { w with
              sessions, clock := chance.done
              log := .used id session (chance.readings id) chance.done :: w.log })

def mint (session : SessionInfo) (proof : Proof Jwk) (chance : Chance) : World Jwk :=
  let (id, sessions) :=
    w.sessions.create limits chance.bytes session.user session.role session.method chance.now
      chance.readings
  { w with
    sessions, clock := chance.done
    log := .signedIn id session chance.now proof :: w.log }

def logout : Option Text → World Jwk
  | none => w
  | some id => { w with sessions := w.sessions.revoke id, log := .signedOut id :: w.log }

end World

variable (console : Console F Jwk Key)

/-- The next step of one request. -/
def advancePc (w : World Jwk) (chance : Chance) : Pc Jwk → Option (World Jwk × Pc Jwk)
  | .login credentials peer =>
      -- A token takes precedence over a password.
      match credentials.idToken.filter fun t => !(Text.trim t).isEmpty with
      | some token =>
          match console.oidc with
          | none => some (w, .answered 503)
          | some cfg => some (w, .verifyToken cfg token)
      | none =>
          some (w, .operator
            (.signIn (credentials.username.getD []) (credentials.password.getD []) peer))
  | .verifyToken cfg token =>
      match Oidc.verify console.reader cfg w.keys token with
      | some v => some (w, .mint ⟨v.username, v.role, .oidc⟩ (.token w.keys token))
      | none => some (w, .answered 401)
  | .operator wanting =>
      match w.operator with
      | some held => some (w, w.withOperator wanting held)
      | none => some (w, .operatorLoad wanting)
  | .operatorLoad wanting =>
      match w.file with
      | some found => some (w, .operatorStore wanting found)
      | none => some (w, World.withoutOperator wanting)
  | .operatorStore wanting found =>
      -- The first record stored wins, and every caller answers from it.
      let held := w.operator.getD found
      some ({ w with operator := some held }, w.withOperator wanting held)
  | .password r =>
      (handle console.passwordMatches w.signIns r chance.pick).map fun (signIns, r) =>
        match r.stage with
        | .answered (.signedIn user) =>
            ({ w with signIns }, .mint ⟨user, .admin, .localAccount⟩
              (.password r.operator r.username r.password))
        | .answered (.tooMany _) => ({ w with signIns }, .answered 429)
        | .answered .refused => ({ w with signIns }, .answered 401)
        | _ => ({ w with signIns }, .password r)
  | .mint session proof =>
      -- The time of birth is read before the lock is taken.
      if chance.now ≤ chance.done ∧ w.clock ≤ chance.done then
        some (w.mint session proof chance, .answered 200)
      else none
  | .logout cookie => some (w.logout cookie, .answered 200)
  | .session cookie =>
      if ∀ id ∈ cookie, w.timely (chance.readings id) chance.done then
        some ((w.touch cookie chance).2, .answered 200)
      else none
  | .command cookie name =>
      if ∀ id ∈ cookie, w.timely (chance.readings id) chance.done then
        match w.touch cookie chance with
        | (none, w) => some (w, .answered 401)
        | (some (id, session), w) =>
            if session.role.rank < (requiredRole name).rank then some (w, .answered 403)
            else if requiresCeremony name then some (w, .ceremony id session name)
            else some (w, .dispatch id session name)
      else none
  | .ceremony id session name =>
      if chance.ceremonyPasses then some (w, .dispatch id session name)
      else some (w, .answered 403)
  | .dispatch id session name =>
      some ({ w with log := .dispatched id session name :: w.log }, .answered 200)
  | .answered _ => none

/-- A request stands somewhere else now. -/
def World.setPc (w : World Jwk) (thread : Nat) (pc : Pc Jwk) : World Jwk :=
  { w with threads := Function.update w.threads thread (some pc) }

def step (w : World Jwk) : Action Jwk → Option (World Jwk)
  | .tick elapsed => some { w with clock := w.clock + elapsed }
  | .writeOperator record => some { w with file := record }
  | .fetchKeys keys =>
      if console.live then some { w with keys, log := .fetched keys :: w.log } else none
  | .request thread pc =>
      if (w.threads thread).isNone && pc.isEntry then some (w.setPc thread pc) else none
  | .advance thread chance =>
      (w.threads thread).bind fun pc =>
        (advancePc console w chance pc).map fun next => next.1.setPc thread next.2

/-- The console just started: the operator record is read once. -/
def World.start (file : Option Operator) : World Jwk :=
  { file, operator := file, keys := console.keys }

end Genaryx.Web.Gate
