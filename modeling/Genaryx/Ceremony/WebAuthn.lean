import Genaryx.Base.Utf8
import Genaryx.Json.Value
import Mathlib.Data.List.AList
import Mathlib.Data.List.Basic

/-!
# WebAuthn: enrolled passkeys, pending challenges, verification

The passkey store keeps a list of enrolled keys for each user, and the pending table maps
each minted challenge to what it is for. Verification binds the response to the challenge,
the origin and the relying party before it checks the signature and the counter.

## Implementation notes

`Platform` holds what other crates do: the digest, JSON, CBOR, base64 and the signature
primitive. A byte past the end of a slice reads as zero, which no branch reaches.
-/

namespace Genaryx.Ceremony

variable {F : Type}

/-- How long a minted challenge stays redeemable, in milliseconds. -/
def ceremonyTtl : Nat := 120 * 1000

/-- A ceremony failure; each one refuses the action. -/
inductive WebAuthnError
  | malformed (what : Text)
  | mismatch (what : Text)
  | userNotPresent
  | userNotVerified
  | unsupportedAttestation
  | unsupportedKey (what : Text)
  | badSignature
  | cloneSuspected
  | unknownChallenge
  | wrongUser
  | unknownCredential
  | lastPasskey
  | store (message : Text)
  deriving DecidableEq

def WebAuthnError.display : WebAuthnError → Text
  | .malformed what => "malformed " ++ what
  | .mismatch what => what ++ " mismatch".toList
  | .userNotPresent => "user presence not asserted"
  | .userNotVerified => "user verification not asserted"
  | .unsupportedAttestation => "unsupported attestation format (only \"none\")"
  | .unsupportedKey what => "unsupported key: " ++ what
  | .badSignature => "signature verification failed"
  | .cloneSuspected => "signature counter regressed (possible cloned authenticator)"
  | .unknownChallenge => "unknown or expired challenge"
  | .wrongUser => "ceremony does not belong to this user"
  | .unknownCredential => "no passkey with that credential id"
  | .lastPasskey => "this is the last enrolled passkey; removing it needs the operator password"
  | .store message => "passkey store: " ++ message

structure RpConfig where
  rpId : Text
  origin : Text
  deriving DecidableEq

/-- One enrolled passkey, public half only. -/
structure PasskeyRecord where
  credentialId : Text
  publicKeyX963 : Text
  signCount : Nat
  createdAt : Text
  label : Text
  deriving DecidableEq

/-- The enrolled passkeys of each user, no credential twice for one user. -/
structure PasskeyStore where
  forUser : Text → List PasskeyRecord
  distinct : ∀ user, ((forUser user).map PasskeyRecord.credentialId).Nodup

namespace PasskeyStore

def empty : PasskeyStore := ⟨fun _ => [], fun _ => List.nodup_nil⟩

def hasAny (s : PasskeyStore) (user : Text) : Bool := !(s.forUser user).isEmpty

/-- The user's passkey with this credential id. -/
def find (s : PasskeyStore) (user credentialId : Text) : Option PasskeyRecord :=
  (s.forUser user).find? fun r => r.credentialId = credentialId

/-- What writing the file after a change reports. -/
def persisted {α : Type} (persistError : Option Text) (value : α) : Except WebAuthnError α :=
  match persistError with
  | some message => .error (.store message)
  | none => .ok value

/-- Enroll a passkey; the change to memory stays when writing the file fails. -/
def add (persistError : Option Text) (user : Text) (record : PasskeyRecord)
    (s : PasskeyStore) : Except WebAuthnError Unit × PasskeyStore :=
  if h : record.credentialId ∈ (s.forUser user).map PasskeyRecord.credentialId then
    (.error (.store "credential already enrolled"), s)
  else
    (persisted persistError (),
      { forUser := Function.update s.forUser user (s.forUser user ++ [record])
        distinct := fun other => by
          by_cases hother : other = user
          · subst hother
            rw [Function.update_self, List.map_append]
            exact (s.distinct other).append (List.nodup_singleton _)
              (by simpa using h)
          · rw [Function.update_of_ne hother]
            exact s.distinct other })

/-- Remove a passkey, and how many the user has left. -/
def remove (persistError : Option Text) (user credentialId : Text) (allowLast : Bool)
    (s : PasskeyStore) : Except WebAuthnError Nat × PasskeyStore :=
  if credentialId ∉ (s.forUser user).map PasskeyRecord.credentialId then
    (.error .unknownCredential, s)
  else if (s.forUser user).length = 1 ∧ allowLast = false then (.error .lastPasskey, s)
  else
    let left := (s.forUser user).eraseP fun r => r.credentialId = credentialId
    (persisted persistError left.length,
      { forUser := Function.update s.forUser user left
        distinct := fun other => by
          by_cases hother : other = user
          · subst hother
            rw [Function.update_self]
            exact (s.distinct other).sublist ((List.eraseP_sublist).map _)
          · rw [Function.update_of_ne hother]
            exact s.distinct other })

/-- The user's list with another count for one credential. -/
def withCount (credentialId : Text) (signCount : Nat) (records : List PasskeyRecord) :
    List PasskeyRecord :=
  records.map fun r => if r.credentialId = credentialId then { r with signCount := signCount } else r

@[simp] theorem map_credentialId_withCount (credentialId : Text) (signCount : Nat)
    (records : List PasskeyRecord) :
    (withCount credentialId signCount records).map PasskeyRecord.credentialId =
      records.map PasskeyRecord.credentialId := by
  rw [withCount, List.map_map]
  apply List.map_congr_left
  intro r _
  simp only [Function.comp_apply]
  split <;> rfl

/-- Store the counter of an accepted assertion, if the credential is still enrolled. -/
def updateSignCount (persistError : Option Text) (user credentialId : Text) (signCount : Nat)
    (s : PasskeyStore) : Except WebAuthnError Unit × PasskeyStore :=
  (persisted persistError (),
    { forUser := Function.update s.forUser user (withCount credentialId signCount (s.forUser user))
      distinct := fun other => by
        by_cases hother : other = user
        · subst hother
          rw [Function.update_self, map_credentialId_withCount]
          exact s.distinct other
        · rw [Function.update_of_ne hother]
          exact s.distinct other })

variable {s : PasskeyStore} {persistError : Option Text} {user other credentialId : Text}
  {r record : PasskeyRecord}

theorem mem_of_find (h : s.find user credentialId = some r) :
    r ∈ s.forUser user ∧ r.credentialId = credentialId :=
  ⟨List.mem_of_find?_eq_some h, by simpa using List.find?_some h⟩

theorem mem_of_mem_add (h : r ∈ (s.add persistError user record).2.forUser other) :
    r ∈ s.forUser other ∨ user = other ∧ r = record := by
  unfold add at h
  split at h
  · exact Or.inl h
  · by_cases hother : other = user
    · subst hother
      simp only [Function.update_self, List.mem_append, List.mem_singleton] at h
      exact h.imp_right fun hr => ⟨rfl, hr⟩
    · simp only [Function.update_of_ne hother] at h
      exact Or.inl h

theorem credentialId_ne_of_mem_eraseP {records : List PasskeyRecord}
    (hnodup : (records.map PasskeyRecord.credentialId).Nodup)
    (h : r ∈ records.eraseP fun q => q.credentialId = credentialId) :
    r.credentialId ≠ credentialId := by
  induction records with
  | nil => cases h
  | cons q rest ih =>
      obtain ⟨hq, hrest⟩ := List.nodup_cons.mp hnodup
      by_cases hid : q.credentialId = credentialId
      · rw [List.eraseP_cons_of_pos (by simpa using hid)] at h
        exact fun heq => hq (hid.trans heq.symm ▸ List.mem_map_of_mem h)
      · rw [List.eraseP_cons_of_neg (by simpa using hid)] at h
        rcases List.mem_cons.mp h with rfl | h
        · exact hid
        · exact ih hrest h

/-- A removal that makes the user's list shorter drops the credential. -/
theorem mem_of_mem_remove {allowLast : Bool}
    (h : r ∈ (s.remove persistError user credentialId allowLast).2.forUser other) :
    r ∈ s.forUser other ∧
      (((s.remove persistError user credentialId allowLast).2.forUser user).length <
        (s.forUser user).length → ¬ (user = other ∧ credentialId = r.credentialId)) := by
  unfold remove at h ⊢
  split at h
  · next hnone =>
      rw [if_pos hnone]
      exact ⟨h, fun hlt => absurd hlt (lt_irrefl _)⟩
  · next hsome =>
      rw [if_neg hsome]
      split at h
      · next hlast =>
          rw [if_pos hlast]
          exact ⟨h, fun hlt => absurd hlt (lt_irrefl _)⟩
      · by_cases hother : other = user
        · subst hother
          simp only [Function.update_self] at h
          refine ⟨List.mem_of_mem_eraseP h, fun _ heq => ?_⟩
          exact credentialId_ne_of_mem_eraseP (s.distinct other) h heq.2.symm
        · simp only [Function.update_of_ne hother] at h
          exact ⟨h, fun _ heq => hother heq.1.symm⟩

/-- The stored count is the only thing that the update changes. -/
theorem mem_updateSignCount_iff {signCount : Nat} :
    r ∈ (s.updateSignCount persistError user credentialId signCount).2.forUser other ↔
      ∃ q ∈ s.forUser other,
        (if other = user ∧ q.credentialId = credentialId then { q with signCount := signCount }
          else q) = r := by
  by_cases hother : other = user
  · subst hother
    simp [updateSignCount, withCount]
  · simp [updateSignCount, hother]

theorem mem_of_mem_updateSignCount {signCount : Nat}
    (h : r ∈ (s.updateSignCount persistError user credentialId signCount).2.forUser other) :
    ∃ q ∈ s.forUser other, q.credentialId = r.credentialId ∧
      q.publicKeyX963 = r.publicKeyX963 := by
  obtain ⟨q, hq, rfl⟩ := mem_updateSignCount_iff.mp h
  refine ⟨q, hq, ?_, ?_⟩ <;> split <;> rfl

theorem signCount_of_mem_updateSignCount {signCount : Nat}
    (h : r ∈ (s.updateSignCount persistError user credentialId signCount).2.forUser other) :
    ∃ q ∈ s.forUser other, q.credentialId = r.credentialId ∧
      r.signCount =
        if other = user ∧ r.credentialId = credentialId then signCount else q.signCount := by
  obtain ⟨q, hq, rfl⟩ := mem_updateSignCount_iff.mp h
  refine ⟨q, hq, ?_⟩
  by_cases hthis : other = user ∧ q.credentialId = credentialId
  · rw [if_pos hthis]
    exact ⟨rfl, (if_pos hthis).symm⟩
  · rw [if_neg hthis]
    exact ⟨rfl, (if_neg hthis).symm⟩

end PasskeyStore

/-- What a minted challenge is for. -/
inductive Purpose
  | register
  | action (command argsSha256 : Text)
  deriving DecidableEq

structure Pending where
  user : Text
  purpose : Purpose
  expires : Nat
  deriving DecidableEq

/-- The one-shot challenges that are not redeemed yet. -/
abbrev PendingCeremonies := AList fun _ : Text => Pending

namespace PendingCeremonies

/-- The entries that are not expired. -/
def retain (now : Nat) (t : PendingCeremonies) : PendingCeremonies :=
  t.entries.foldr (fun entry kept =>
    if now < entry.2.expires then kept.insert entry.1 entry.2 else kept) ∅

/-- Mint a challenge, and drop what is expired. -/
def mint (now : Nat) (user : Text) (purpose : Purpose) (challenge : Text)
    (t : PendingCeremonies) : PendingCeremonies :=
  (retain now t).insert challenge ⟨user, purpose, now + ceremonyTtl⟩

/-- Redeem a challenge, which is gone afterwards either way. -/
def take (now : Nat) (user challenge : Text) (t : PendingCeremonies) :
    Except WebAuthnError Purpose × PendingCeremonies :=
  match t.lookup challenge with
  | none => (.error .unknownChallenge, t)
  | some pending =>
      if pending.expires ≤ now then (.error .unknownChallenge, t.erase challenge)
      else if pending.user ≠ user then (.error .wrongUser, t.erase challenge)
      else (.ok pending.purpose, t.erase challenge)

theorem lookup_of_lookup_retain {now : Nat} {t : PendingCeremonies} {challenge : Text}
    {p : Pending} (h : (retain now t).lookup challenge = some p) :
    t.lookup challenge = some p := by
  have hmem : ∀ entries : List (Sigma fun _ : Text => Pending),
      (entries.foldr (fun entry (kept : PendingCeremonies) =>
        if now < entry.2.expires then kept.insert entry.1 entry.2 else kept) ∅).lookup
          challenge = some p → Sigma.mk challenge p ∈ entries := by
    intro entries hlookup
    induction entries with
    | nil => simp at hlookup
    | cons entry entries ih =>
        rw [List.foldr_cons] at hlookup
        split at hlookup
        · by_cases hkey : challenge = entry.1
          · subst hkey
            rw [AList.lookup_insert] at hlookup
            cases hlookup
            exact List.mem_cons_self
          · rw [AList.lookup_insert_ne hkey] at hlookup
            exact List.mem_cons_of_mem _ (ih hlookup)
        · exact List.mem_cons_of_mem _ (ih hlookup)
  exact AList.mem_lookup_iff.mpr (hmem t.entries h)

theorem lookup_of_lookup_erase {t : PendingCeremonies} {erased challenge : Text} {p : Pending}
    (h : (t.erase erased).lookup challenge = some p) : t.lookup challenge = some p := by
  by_cases hne : challenge = erased
  · rw [hne, AList.lookup_erase] at h
    cases h
  · rwa [AList.lookup_erase_ne hne] at h

end PendingCeremonies

/-- The three fields of the client data that a ceremony binds. -/
structure ClientData where
  kind : Text
  challenge : Text
  origin : Text
  deriving DecidableEq

/-- The CBOR values that a registration reads. -/
inductive Cbor
  | integer (i : Int)
  | bytes (b : Bytes)
  | text (t : Text)
  | map (entries : List (Cbor × Cbor))
  | other

namespace Cbor

def asInteger : Cbor → Option Int
  | integer i => some i
  | _ => none

def asBytes : Cbor → Option Bytes
  | bytes b => some b
  | _ => none

def asText : Cbor → Option Text
  | text t => some t
  | _ => none

def asMap : Cbor → Option (List (Cbor × Cbor))
  | map entries => some entries
  | _ => none

end Cbor

/-- What the console takes from other crates. -/
structure Platform (F : Type) where
  sha256 : Bytes → Bytes
  fromSlice : Bytes → Option (Json.Value F)
  clientDataFromSlice : Bytes → Option ClientData
  toText : Json.Value F → Text
  cborFromReader : Bytes → Option Cbor
  base64 : Bytes → Text
  base64Decode : Text → Option Bytes
  base64Url : Bytes → Text
  derToRawRs : Bytes → Option Bytes
  verifyEs256 : Bytes → Bytes → Bytes → Bool

/-- The flag bits of the authenticator data. -/
def flagUp : UInt8 := 0x01

def flagUv : UInt8 := 0x04

def flagAt : UInt8 := 0x40

structure AttestedCredential where
  credentialId : Bytes
  publicKeyX963 : Bytes

structure AuthData where
  rpIdHash : Bytes
  flags : UInt8
  signCount : Nat
  credential : Option AttestedCredential

/-- A big-endian number. -/
def fromBeBytes (bytes : Bytes) : Nat := bytes.foldl (fun n b => n * 256 + b.toNat) 0

variable (P : Platform F)

/-- The uncompressed point of an ES256 key in its COSE form. -/
def coseKeyToX963 (cose : Cbor) : Except WebAuthnError Bytes :=
  match cose.asMap with
  | none => .error (.malformed "COSE key (not a map)")
  | some entries =>
      let get (label : Int) : Option Cbor :=
        (entries.find? fun e => e.1.asInteger = some label).map Prod.snd
      let intOf (v : Cbor) : Option Int :=
        v.asInteger.filter fun i => -(2 ^ 63) ≤ i && i < 2 ^ 63
      let coordinate (label : Int) : Option Bytes :=
        ((get label).bind Cbor.asBytes).filter fun b => b.length = 32
      if (get 1).bind intOf ≠ some 2 then .error (.unsupportedKey "kty is not EC2")
      else if (get 3).bind intOf ≠ some (-7) then .error (.unsupportedKey "alg is not ES256 (-7)")
      else if (get (-1)).bind intOf ≠ some 1 then .error (.unsupportedKey "crv is not P-256")
      else
        match coordinate (-2), coordinate (-3) with
        | none, _ => .error (.unsupportedKey "x is not 32 bytes")
        | some _, none => .error (.unsupportedKey "y is not 32 bytes")
        | some x, some y => .ok (0x04 :: (x ++ y))

/-- The attested credential after the fixed fields of the authenticator data. -/
def parseAttestedCredential (bytes : Bytes) : Except WebAuthnError AttestedCredential :=
  if bytes.length < 37 + 18 then .error (.malformed "attestedCredentialData (too short)")
  else
    let credEnd := 55 + fromBeBytes ((bytes.drop 53).take 2)
    if bytes.length < credEnd then .error (.malformed "credentialId length")
    else
      match P.cborFromReader (bytes.drop credEnd) with
      | none => .error (.malformed "COSE key CBOR")
      | some cose =>
          (coseKeyToX963 cose).map fun key => ⟨(bytes.take credEnd).drop 55, key⟩

def parseAuthenticatorData (bytes : Bytes) : Except WebAuthnError AuthData :=
  if bytes.length < 37 then .error (.malformed "authenticatorData (too short)")
  else
    let flags := bytes.getD 32 0
    let signCount := fromBeBytes ((bytes.drop 33).take 4)
    if flags &&& flagAt ≠ 0 then
      (parseAttestedCredential P bytes).map fun credential =>
        ⟨bytes.take 32, flags, signCount, some credential⟩
    else .ok ⟨bytes.take 32, flags, signCount, none⟩

/-- The authenticator data of an attestation object of format "none". -/
def parseAttestationObject (bytes : Bytes) : Except WebAuthnError Bytes :=
  match P.cborFromReader bytes with
  | none => .error (.malformed "attestationObject CBOR")
  | some value =>
      match value.asMap with
      | none => .error (.malformed "attestationObject (not a map)")
      | some entries =>
          let field (name : Text) : Option Cbor :=
            (entries.find? fun e => e.1.asText = some name).map Prod.snd
          if (field "fmt").bind Cbor.asText ≠ some "none" then .error .unsupportedAttestation
          else
            match (field "authData").bind Cbor.asBytes with
            | none => .error (.malformed "authData missing")
            | some authData => .ok authData

/-- The checks that a registration and an assertion share: the ceremony type, the challenge
and the origin. -/
def checkClientData (rp : RpConfig) (kind expectedChallenge : Text) (clientDataJson : Bytes) :
    Except WebAuthnError Unit :=
  match P.clientDataFromSlice clientDataJson with
  | none => .error (.malformed "clientDataJSON")
  | some client =>
      if client.kind ≠ kind then .error (.mismatch "ceremony type")
      else if client.challenge ≠ expectedChallenge then .error (.mismatch "challenge")
      else if client.origin ≠ rp.origin then .error (.mismatch "origin")
      else .ok ()

structure VerifiedRegistration where
  credentialId : Text
  publicKeyX963 : Text
  signCount : Nat
  userVerified : Bool

def verifyRegistration (rp : RpConfig) (expectedChallenge : Text) (clientDataJson
    attestationObject : Bytes) : Except WebAuthnError VerifiedRegistration := do
  checkClientData P rp "webauthn.create" expectedChallenge clientDataJson
  let authDataBytes ← parseAttestationObject P attestationObject
  let auth ← parseAuthenticatorData P authDataBytes
  if auth.rpIdHash ≠ P.sha256 (Utf8.encode rp.rpId) then .error (.mismatch "rp id")
  else if auth.flags &&& flagUp = 0 then .error .userNotPresent
  else
    match auth.credential with
    | none => .error (.malformed "attestedCredentialData missing")
    | some cred =>
        .ok ⟨P.base64Url cred.credentialId, P.base64 cred.publicKeyX963, auth.signCount,
          auth.flags &&& flagUv ≠ 0⟩

/-- The new counter of an accepted assertion. -/
structure VerifiedAssertion where
  signCount : Nat
  userVerified : Bool
  deriving DecidableEq

/-- The counter went back, which two devices with one key would show. A count of zero on
either side is taken for an authenticator that does not count. -/
def counterRegressed (stored asserted : Nat) : Bool :=
  0 < stored && 0 < asserted && asserted ≤ stored

/-- Verify an assertion against one enrolled passkey. -/
def verifyAssertion (rp : RpConfig) (expectedChallenge : Text) (record : PasskeyRecord)
    (clientDataJson authenticatorData signatureDer : Bytes) :
    Except WebAuthnError VerifiedAssertion := do
  checkClientData P rp "webauthn.get" expectedChallenge clientDataJson
  let auth ← parseAuthenticatorData P authenticatorData
  if auth.rpIdHash ≠ P.sha256 (Utf8.encode rp.rpId) then .error (.mismatch "rp id")
  else if auth.flags &&& flagUp = 0 then .error .userNotPresent
  else if auth.flags &&& flagUv = 0 then .error .userNotVerified
  else
    match P.base64Decode record.publicKeyX963 with
    | none => .error (.malformed "stored public key")
    | some pubkey =>
        match P.derToRawRs signatureDer with
        | none => .error (.malformed "signature DER")
        | some raw =>
            if !P.verifyEs256 pubkey (authenticatorData ++ P.sha256 clientDataJson) raw then
              .error .badSignature
            else if counterRegressed record.signCount auth.signCount then .error .cloneSuspected
            else .ok ⟨auth.signCount, auth.flags &&& flagUv ≠ 0⟩

/-- What an accepted assertion is: an assertion over this challenge at the console's origin,
by an authenticator that names the relying party and saw a verified user, signed by the
enrolled key, with a count that does not go back. -/
structure Verifies (rp : RpConfig) (challenge : Text) (record : PasskeyRecord)
    (clientDataJson authenticatorData signatureDer : Bytes) (v : VerifiedAssertion) : Prop where
  client : P.clientDataFromSlice clientDataJson = some ⟨"webauthn.get", challenge, rp.origin⟩
  framed : 37 ≤ authenticatorData.length
  attested : authenticatorData.getD 32 0 &&& flagAt ≠ 0 →
    ∃ credential, parseAttestedCredential P authenticatorData = .ok credential
  party : authenticatorData.take 32 = P.sha256 (Utf8.encode rp.rpId)
  present : authenticatorData.getD 32 0 &&& flagUp ≠ 0
  confirmed : authenticatorData.getD 32 0 &&& flagUv ≠ 0
  signed : ∃ pubkey raw, P.base64Decode record.publicKeyX963 = some pubkey ∧
    P.derToRawRs signatureDer = some raw ∧
      P.verifyEs256 pubkey (authenticatorData ++ P.sha256 clientDataJson) raw = true
  counted : v.signCount = fromBeBytes ((authenticatorData.drop 33).take 4)
  advanced : record.signCount = 0 ∨ v.signCount = 0 ∨ record.signCount < v.signCount
  userVerified : v.userVerified = true

variable {P} {rp : RpConfig}

theorem checkClientData_ok_iff {kind challenge : Text} {clientDataJson : Bytes} :
    checkClientData P rp kind challenge clientDataJson = .ok () ↔
      P.clientDataFromSlice clientDataJson = some ⟨kind, challenge, rp.origin⟩ := by
  unfold checkClientData
  cases P.clientDataFromSlice clientDataJson with
  | none => simp
  | some client =>
      obtain ⟨kind', challenge', origin⟩ := client
      dsimp only
      split
      · next hkind => simp [hkind]
      · next hkind =>
          split
          · next hchallenge => simp [hchallenge]
          · next hchallenge =>
              split
              · next horigin => simp [horigin]
              · next horigin => simp [not_not.mp hkind, not_not.mp hchallenge, not_not.mp horigin]

theorem counterRegressed_eq_false_iff {stored asserted : Nat} :
    counterRegressed stored asserted = false ↔ stored = 0 ∨ asserted = 0 ∨ stored < asserted := by
  simp only [counterRegressed, Bool.and_eq_false_iff, decide_eq_false_iff_not]
  omega

/-- The head of an authenticator data is read off its fixed offsets. -/
theorem parseAuthenticatorData_ok {bytes : Bytes} {auth : AuthData}
    (h : parseAuthenticatorData P bytes = .ok auth) :
    37 ≤ bytes.length ∧ auth.rpIdHash = bytes.take 32 ∧ auth.flags = bytes.getD 32 0 ∧
      auth.signCount = fromBeBytes ((bytes.drop 33).take 4) ∧
        (bytes.getD 32 0 &&& flagAt ≠ 0 →
          ∃ credential, parseAttestedCredential P bytes = .ok credential) := by
  unfold parseAuthenticatorData at h
  dsimp only at h
  split at h
  · cases h
  · next hlength =>
      have hframed : 37 ≤ bytes.length := Nat.le_of_not_lt hlength
      split at h
      · cases hparse : parseAttestedCredential P bytes with
        | error e => rw [hparse] at h; cases h
        | ok credential =>
            rw [hparse] at h
            cases h
            exact ⟨hframed, rfl, rfl, rfl, fun _ => ⟨credential, rfl⟩⟩
      · next hplain =>
          cases h
          exact ⟨hframed, rfl, rfl, rfl, fun hat => absurd hat hplain⟩

/-- Every check of a verification that succeeds has passed. -/
theorem verifies_of_verifyAssertion {challenge : Text} {record : PasskeyRecord}
    {clientDataJson authenticatorData signatureDer : Bytes} {v : VerifiedAssertion}
    (h : verifyAssertion P rp challenge record clientDataJson authenticatorData signatureDer =
      .ok v) :
    Verifies P rp challenge record clientDataJson authenticatorData signatureDer v := by
  unfold verifyAssertion at h
  cases hclient : checkClientData P rp "webauthn.get" challenge clientDataJson with
  | error e => rw [hclient] at h; cases h
  | ok u =>
      rw [hclient] at h
      cases hauth : parseAuthenticatorData P authenticatorData with
      | error e => rw [hauth] at h; cases h
      | ok auth =>
          rw [hauth] at h
          obtain ⟨hframed, hparty, hflags, hcount, hattested⟩ := parseAuthenticatorData_ok hauth
          simp only [bind, Except.bind, hparty, hflags] at h
          split at h <;> [cases h; skip]
          split at h <;> [cases h; skip]
          split at h <;> [cases h; skip]
          next hrp hup huv =>
            split at h <;> [cases h; skip]
            next pubkey hpubkey =>
              split at h <;> [cases h; skip]
              next raw hraw =>
                split at h <;> [cases h; skip]
                split at h <;> [cases h; skip]
                next hsigned hcounter =>
                  cases h
                  exact ⟨checkClientData_ok_iff.mp hclient, hframed, hattested, not_not.mp hrp,
                    hup, huv, ⟨pubkey, raw, hpubkey, hraw, by simpa using hsigned⟩, hcount,
                    counterRegressed_eq_false_iff.mp (by simpa using hcounter), by simpa using huv⟩

end Genaryx.Ceremony
