import Genaryx.Base.Numbers
import Genaryx.Policy.Statement
import Genaryx.Wg.Keys

/-!
# Verifying a statement

A statement is taken apart, its header and its signature are checked against the console's key,
and its claims are read and checked again, now against the clock.

## Implementation notes

`Build` says what arithmetic does that does not fit: a debug build stops, a release build wraps.
`sign` is the release build's, and `signIn` is its form for both. Verifying a signature is a
parameter.
-/

namespace Genaryx.Policy

open Json Command Wg

variable {F ε : Type}

/-! ## Arithmetic -/

/-- How the code was built. -/
inductive Build
  | debug
  | release
  deriving DecidableEq

/-- The result of an operation on `i64`, by its exact value. -/
def Build.i64 : Build → Int → Except (Stop ε) Int
  | debug, n => match checkedI64 n with
    | some n => .ok n
    | none => .error .panicked
  | release, n => .ok (n.bmod (2 ^ 64))

/-! ## Making -/

/-- What is checked of the claims before their lifetime. -/
def checkOthers (c : Claims) : Except StatementError Unit := checkClaims { c with iat := 0, exp := 1 }

/-- The rules that wardryx applies to the claims. -/
def checkClaimsIn (build : Build) (c : Claims) : Except (Stop StatementError) Unit := do
  (checkOthers c).mapError .failed
  let lifetime ← build.i64 (c.exp.toInt - c.iat.toInt)
  if lifetime < 1 ∨ maxLifetimeSecs < lifetime then
    .error (.failed (.claims "the lifetime must be positive and at most five minutes".toList))
  else .ok ()

/-- Make a statement, unless its claims are refused. -/
def signIn (build : Build) (C : Codec F recursionLimit) (L : SigningLibraries)
    (signer : Es256Signer) (c : Claims) : Except (Stop StatementError) Text := do
  checkClaimsIn build c
  (sign C L signer c).mapError .failed

/-! ## Verifying -/

def maxFutureSkewSecs : Int := 30

def decode (part : Text) (why : Text) : Except StatementError Bytes :=
  match Base64.decodeUrl part with
  | some bytes => .ok bytes
  | none => .error (.malformed why)

def textClaim (payload : Value F) (name : Text) : Except StatementError Text :=
  match (payload.get name).bind Value.asStr with
  | some t => .ok t
  | none => .error (.malformed "a required text claim is missing".toList)

def numberClaim (payload : Value F) (name : Text) : Except StatementError Int64 :=
  match (payload.get name).bind Value.asI64 with
  | some n => .ok n
  | none => .error (.malformed "a required number claim is missing".toList)

/-- The header has to be this one's, and carry no key of its own. -/
def checkHeader (L : SigningLibraries) (x963 : Bytes) (header : Value F) :
    Except StatementError Unit := do
  let text := fun name : Text => (header.get name).bind Value.asStr
  if text "alg".toList ≠ some "ES256".toList then
    .error (.malformed "the algorithm is not ES256".toList)
  else if text "typ".toList ≠ some typ then
    .error (.malformed "the type is not the approver statement type".toList)
  else if (header.get "jwk".toList).isSome || (header.get "x5c".toList).isSome then
    .error (.malformed "the header carries a key of its own".toList)
  else
    let wantKid ← thumbprint L x963
    if text "kid".toList ≠ some wantKid then
      .error (.malformed "the key id is not the console key's thumbprint".toList)
    else .ok ()

/-- The claims that a payload makes. -/
def readClaims (payload : Value F) : Except StatementError Claims :=
  if (payload.get "v".toList).bind Value.asI64 ≠ some 1 then
    .error (.malformed "the claim version is not 1".toList)
  else do
    .ok { sub := ← textClaim payload "sub".toList, cred := ← textClaim payload "cred".toList
          aid := ← textClaim payload "aid".toList, dec := ← textClaim payload "dec".toList
          iat := ← numberClaim payload "iat".toList, exp := ← numberClaim payload "exp".toList
          jti := ← textClaim payload "jti".toList }

/-- `serde_json::from_slice`. -/
def fromSlice (C : Codec F recursionLimit) (bytes : Bytes) (why : Text) :
    Except StatementError (Value F) :=
  match (Utf8.fromUtf8 bytes).bind C.reader.fromStr with
  | some v => .ok v
  | none => .error (.malformed why)

/-- What verifies a signature over a message under a key. -/
abbrev VerifyEs256 := Bytes → Bytes → Bytes → Except SigningError Unit

/-- The claims of a statement that stands under the key, before they are checked. -/
def signedClaims (C : Codec F recursionLimit) (L : SigningLibraries) (verifyEs256 : VerifyEs256)
    (x963 : Bytes) (statement : Text) : Except StatementError Claims :=
  match statement.splitOnP (· = '.') with
  | [headerB64, payloadB64, sigB64] => do
      let header ← fromSlice C (← decode headerB64 "the header is not base64url".toList)
        "the header is not JSON".toList
      checkHeader L x963 header
      let sig ← decode sigB64 "the signature is not base64url".toList
      (verifyEs256 x963 (Utf8.encode (headerB64 ++ '.' :: payloadB64)) sig).mapError
        fun _ => .unverified
      let payload ← fromSlice C (← decode payloadB64 "the payload is not base64url".toList)
        "the payload is not JSON".toList
      readClaims payload
  | _ => .error (.malformed "not a compact JWS of three parts".toList)

/-- The claims against the clock. -/
def checkWindow (build : Build) (c : Claims) (now : Int64) : Except (Stop StatementError) Unit := do
  let latest ← build.i64 (now.toInt + maxFutureSkewSecs)
  if latest < c.iat.toInt then
    .error (.failed (.claims "the statement is issued in the future".toList))
  else if c.exp ≤ now then .error (.failed (.claims "the statement has expired".toList))
  else .ok ()

/-- Verify a statement at a time, and give its claims. -/
def verify (build : Build) (C : Codec F recursionLimit) (L : SigningLibraries)
    (verifyEs256 : VerifyEs256) (x963 : Bytes) (statement : Text) (now : Int64) :
    Except (Stop StatementError) Claims := do
  let claims ← (signedClaims C L verifyEs256 x963 statement).mapError .failed
  checkClaimsIn build claims
  checkWindow build claims now
  .ok claims

/-! ## The two builds -/

/-- The lifetime is checked last. -/
theorem checkClaims_eq (c : Claims) : checkClaims c = (checkOthers c).bind fun _ =>
    if (c.exp - c.iat).toInt < 1 ∨ maxLifetimeSecs < (c.exp - c.iat).toInt then
      .error (.claims "the lifetime must be positive and at most five minutes".toList)
    else .ok () := by
  have hlegal : ¬ (((1 : Int64) - 0).toInt < 1 ∨ maxLifetimeSecs < ((1 : Int64) - 0).toInt) := by
    decide
  unfold checkOthers checkClaims
  dsimp only
  rw [if_neg hlegal]
  split_ifs <;> rfl

/-- A release build checks as `checkClaims` does. -/
theorem checkClaimsIn_release (c : Claims) :
    checkClaimsIn .release c = (checkClaims c).mapError .failed := by
  rw [checkClaims_eq, checkClaimsIn, Build.i64, ← Int64.toInt_sub]
  cases checkOthers c with
  | error e => rfl
  | ok u =>
      simp only [Except.mapError, bind, Except.bind]
      split_ifs <;> rfl

theorem signIn_release (C : Codec F recursionLimit) (L : SigningLibraries) (signer : Es256Signer)
    (c : Claims) : signIn .release C L signer c = (sign C L signer c).mapError .failed := by
  rw [signIn, checkClaimsIn_release]
  cases hchecked : checkClaims c with
  | error e => simp only [sign, hchecked, Except.mapError, bind, Except.bind]
  | ok u => rfl

end Genaryx.Policy
