import Genaryx.Base.Digest
import Genaryx.Base.Utf8
import Genaryx.Ceremony.Roles
import Mathlib.Logic.Function.Basic

/-!
# The session table

A session is minted at sign-in and resolved on every request. It is idle for a limited time and
lives for a limited time, however much it is used.

## Implementation notes

Instants count nanoseconds of a monotonic clock. Every reading of the clock is an argument of its
own: a call reads it several times, and `create` twice for each session that its sweep looks at.
The table is a partial function, as nothing depends on its order.
-/

namespace Genaryx.Web

open Ceremony (Role)

/-- How an operator authenticated for this session. -/
inductive Method
  | localAccount
  | oidc
  deriving DecidableEq

/-- A resolved live session. -/
structure SessionInfo where
  user : Text
  role : Role
  method : Method
  deriving DecidableEq

@[ext]
structure Session where
  user : Text
  role : Role
  method : Method
  lastSeen : Nat
  created : Nat

/-- What is told of a session. -/
def Session.info (s : Session) : SessionInfo := ⟨s.user, s.role, s.method⟩

/-- The limits of a session table. -/
structure Limits where
  idleTimeout : Nat
  absoluteLifetime : Nat

/-- The sessions by their ids. -/
abbrev Sessions := Text → Option Session

/-- When the clock is read for the two limits of a session. -/
structure Readings where
  idleAt : Nat
  lifeAt : Nat

namespace Limits

variable (L : Limits)

/-- Whether a session is live under both limits. -/
def isLive (s : Session) (readings : Readings) : Bool :=
  readings.idleAt - s.lastSeen < L.idleTimeout && readings.lifeAt - s.created < L.absoluteLifetime

end Limits

namespace Sessions

variable (L : Limits) (table : Sessions)

/-- The table with what is set for an id. -/
def set (id : Text) (s : Option Session) : Sessions := Function.update table id s

/-- `HashMap::retain` of the live sessions. -/
def sweep (readings : Text → Readings) : Sessions := fun id =>
  (table id).filter fun s => L.isLive s (readings id)

/-- Mint a session id of random bytes for a signed-in operator. -/
def create (bytes : Bytes) (user : Text) (role : Role) (method : Method) (now : Nat)
    (readings : Text → Readings) : Text × Sessions :=
  let id := hexLower bytes
  (id, (table.sweep L readings).set id (some ⟨user, role, method, now, now⟩))

/-- Resolve a session id, and refresh its idle clock. -/
def touch (id : Text) (readings : Readings) (seenAt : Nat) : Option SessionInfo × Sessions :=
  match table id with
  | some s =>
      if L.isLive s readings then (some s.info, table.set id (some { s with lastSeen := seenAt }))
      else (none, table.set id none)
  | none => (none, table)

/-- Drop a session. -/
def revoke (id : Text) : Sessions := table.set id none

end Sessions

end Genaryx.Web
