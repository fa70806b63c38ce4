import Genaryx.Base.Base64
import Genaryx.Base.Items
import Genaryx.Command.Line

/-!
# Approver statements

A statement is signed by the console for one decision of one person. It names the person, the
credential, the approval and the decision, and its claims are read back from its middle part.

## Implementation notes

Signing, SHA-256 and the test that bytes are a point on the curve are parameters. What is
written as JSON is read back by the codec.
-/

namespace Genaryx.Policy

open Base Json Command

variable {F : Type}

/-- A failure of a signing ceremony. -/
inductive SigningError
  | keyGeneration (e : Text)
  | keyExport (e : Text)
  | signing (e : Text)
  | entropy (e : Text)
  | malformedPublicKey (e : Text)
  | malformedSignature (e : Text)
  | verificationFailed
  | clockBeforeEpoch

def SigningError.display : SigningError → Text
  | keyGeneration e => "key generation failed: ".toList ++ e
  | keyExport e => "public-key export failed: ".toList ++ e
  | signing e => "signing failed: ".toList ++ e
  | entropy e => "entropy source failed: ".toList ++ e
  | malformedPublicKey e => "malformed public key: ".toList ++ e
  | malformedSignature e => "malformed signature: ".toList ++ e
  | verificationFailed => "signature verification failed".toList
  | clockBeforeEpoch => "system clock is before the unix epoch".toList

/-- A key that signs. -/
structure Es256Signer where
  publicKeyX963 : Except SigningError Bytes
  signRaw : Bytes → Except SigningError Bytes

/-- What the ceremonies take from other libraries. -/
structure SigningLibraries where
  sha256 : Bytes → Bytes
  isPoint : Bytes → Bool

def typ : Text := "approver-statement+jwt".toList

def maxLifetimeSecs : Int := 300

/-- The claims a statement carries. -/
structure Claims where
  sub : Text
  cred : Text
  aid : Text
  dec : Text
  iat : Int64
  exp : Int64
  jti : Text

/-- Why a statement could not be made. -/
inductive StatementError
  | claims (why : Text)
  | malformed (why : Text)
  | unverified
  | key (e : SigningError)

def StatementError.display : StatementError → Text
  | claims why => "the approver statement's claims are refused: ".toList ++ why
  | malformed why => why
  | unverified => "the approver statement does not verify under the console key".toList
  | key e => e.display

/-- Characters that make a label read as something other than what it is. -/
def isBidiControl (c : Char) : Bool :=
  let v := c.toNat
  v = 0x061C || v = 0x200E || v = 0x200F || (0x202A ≤ v && v ≤ 0x202E) ||
    (0x2066 ≤ v && v ≤ 0x2069)

/-- The rules that wardryx applies to the claims. -/
def checkClaims (c : Claims) : Except StatementError Unit :=
  let subOk := !c.sub.isEmpty && Utf8.len c.sub ≤ 256 &&
    !c.sub.any fun ch => Text.isControl ch || isBidiControl ch
  let credOk := !c.cred.isEmpty && Utf8.len c.cred ≤ 512 &&
    c.cred.all fun ch => Text.isAsciiAlphanumeric ch || ch = '-' || ch = '_'
  let lifetime := (c.exp - c.iat).toInt
  if !subOk then
    .error (.claims ("sub must be a non-empty label of at most 256 bytes, with no control or bidi " ++
      "character").toList)
  else if !credOk then .error (.claims "cred must be base64url text of at most 512 bytes".toList)
  else if c.aid.isEmpty then .error (.claims "aid must name the approval".toList)
  else if c.dec ≠ "grant" ∧ c.dec ≠ "deny" then
    .error (.claims "dec must be grant or deny".toList)
  else if c.jti.isEmpty || 128 < Utf8.len c.jti then
    .error (.claims "jti must be a non-empty id of at most 128 bytes".toList)
  else if lifetime < 1 ∨ maxLifetimeSecs < lifetime then
    .error (.claims "the lifetime must be positive and at most five minutes".toList)
  else .ok ()

/-- The affine coordinates of a point. -/
def coordinates (L : SigningLibraries) (x963 : Bytes) : Except StatementError (Text × Text) :=
  if x963.length ≠ 65 ∨ x963.head? ≠ some 4 then
    .error (.malformed "the console key is not an uncompressed P-256 point".toList)
  else if L.isPoint x963 then
    .ok (Base64.encodeUrl ((x963.drop 1).take 32), Base64.encodeUrl ((x963.drop 33).take 32))
  else .error (.malformed "the console key is not a point on P-256".toList)

/-- The thumbprint that names a key. -/
def thumbprint (L : SigningLibraries) (x963 : Bytes) : Except StatementError Text := do
  let (x, y) ← coordinates L x963
  let canonical := "\x7b\"crv\":\"P-256\",\"kty\":\"EC\",\"x\":\"".toList ++ x ++
    "\",\"y\":\"".toList ++ y ++ "\"\x7d".toList
  .ok (Base64.encodeUrl (L.sha256 (Utf8.encode canonical)))

/-- What a statement says, as members. -/
def payloadMembers (c : Claims) : List (Text × Value F) :=
  [("v".toList, Value.ofI64 1), ("sub".toList, .string c.sub), ("cred".toList, .string c.cred),
    ("aid".toList, .string c.aid), ("dec".toList, .string c.dec),
    ("iat".toList, Value.ofI64 c.iat), ("exp".toList, Value.ofI64 c.exp),
    ("jti".toList, .string c.jti)]

/-- Make a statement, unless its claims are refused. -/
def sign (C : Codec F recursionLimit) (L : SigningLibraries) (signer : Es256Signer) (c : Claims) :
    Except StatementError Text := do
  checkClaims c
  let x963 ← signer.publicKeyX963.mapError .key
  let kid ← thumbprint L x963
  let header := Value.object (ofMembers [("alg", .string "ES256".toList), ("kid", .string kid),
    ("typ", .string typ)])
  let part := fun v : Value F => Base64.encodeUrl (Utf8.encode (C.toText v))
  let signingInput := part header ++ '.' :: part (.object (ofMembers (payloadMembers c)))
  let raw ← (signer.signRaw (Utf8.encode signingInput)).mapError .key
  .ok (signingInput ++ '.' :: Base64.encodeUrl raw)

/-- The claims that a payload gives. -/
def claimsOfPayload (payload : Value F) : Option Claims := do
  let text := fun name : Text => (payload.get name).bind Value.asStr
  let number := fun name : Text => (payload.get name).bind Value.asI64
  if number "v".toList ≠ some 1 then none
  some { sub := ← text "sub".toList, cred := ← text "cred".toList, aid := ← text "aid".toList
         dec := ← text "dec".toList, iat := ← number "iat".toList, exp := ← number "exp".toList
         jti := ← text "jti".toList }

/-- The claims that a statement carries, as they are read to verify it. -/
def carriedClaims (C : Codec F recursionLimit) (statement : Text) : Option Claims :=
  match statement.splitOnP (· = '.') with
  | [_, payload, _] => (((Base64.decodeUrl payload).bind Utf8.fromUtf8).bind
      C.reader.fromStr).bind claimsOfPayload
  | _ => none

/-! ## What was signed is carried -/

theorem plain_ofI64 (n : Int64) : Plain 0 (Value.ofI64 n : Value F) := by
  unfold Value.ofI64
  split
  · exact ⟨trivial, trivial, le_refl 0⟩
  · exact ⟨trivial, trivial, le_refl 0⟩

theorem plain_payload (c : Claims) :
    Plain 1 (.object (ofMembers (payloadMembers c)) : Value F) := by
  refine plain_object ?_
  simp only [payloadMembers, List.forall_mem_cons, List.not_mem_nil, false_imp_iff, implies_true,
    and_true]
  exact ⟨plain_ofI64 _, plain_string _, plain_string _, plain_string _, plain_string _,
    plain_ofI64 _, plain_ofI64 _, plain_string _⟩

theorem claimsOfPayload_payload (c : Claims) :
    claimsOfPayload (.object (ofMembers (payloadMembers c)) : Value F) = some c := by
  have hnodup : ((payloadMembers c : List (Text × Value F)).map Prod.fst).Nodup := by
    simp only [payloadMembers, List.map_cons, List.map_nil]
    decide
  have hget : ∀ name, (Value.object (ofMembers (payloadMembers c)) : Value F).get name =
      (payloadMembers c).lookup name := lookup_ofMembers_of_nodup hnodup
  simp only [claimsOfPayload, hget]
  simp [payloadMembers, lookup_cons_eq_ite, Value.asI64_ofI64, Value.asStr]

/-- Three parts without dots are told apart. -/
theorem splitOnP_three {a b c : Text} (ha : '.' ∉ a) (hb : '.' ∉ b) (hc : '.' ∉ c) :
    (a ++ '.' :: b ++ '.' :: c).splitOnP (· = '.') = [a, b, c] := by
  have hclean : ∀ {t : Text}, '.' ∉ t → ∀ ch ∈ t, decide (ch = '.') = false := fun ht ch hch =>
    decide_eq_false fun heq => ht (heq ▸ hch)
  rw [List.splitOnP_append_cons _ _ (by rfl), List.splitOnP_append_cons _ _ (by rfl),
    List.splitOnP_eq_singleton (hclean ha), List.splitOnP_eq_singleton (hclean hb),
    List.splitOnP_eq_singleton (hclean hc)]
  rfl

/-- The header of a statement, as members. -/
def headerMembers (kid : Text) : List (Text × Value F) :=
  [("alg", .string "ES256".toList), ("kid", .string kid), ("typ", .string typ)]

/-- Members as they stand in a statement. -/
def encodedPart (C : Codec F recursionLimit) (members : List (Text × Value F)) : Text :=
  Base64.encodeUrl (Utf8.encode (C.toText (.object (ofMembers members))))

/-- The header and the payload of a statement. -/
def signingInput (C : Codec F recursionLimit) (kid : Text) (c : Claims) : Text :=
  encodedPart C (headerMembers kid) ++ '.' :: encodedPart C (payloadMembers c)

/-- A statement is a header that names the key, the claims, and a signature over both. -/
theorem sign_eq_ok {C : Codec F recursionLimit} {L : SigningLibraries} {signer : Es256Signer}
    {c : Claims} {statement : Text} (h : sign C L signer c = .ok statement) :
    ∃ x963 kid raw, checkClaims c = .ok () ∧ signer.publicKeyX963 = .ok x963 ∧
      thumbprint L x963 = .ok kid ∧ signer.signRaw (Utf8.encode (signingInput C kid c)) = .ok raw ∧
      statement = signingInput C kid c ++ '.' :: Base64.encodeUrl raw := by
  obtain ⟨_, hchecked, h⟩ := bind_eq_ok h
  obtain ⟨x963, hkey, h⟩ := bind_eq_ok h
  obtain ⟨kid, hkid, h⟩ := bind_eq_ok h
  obtain ⟨raw, hraw, h⟩ := bind_eq_ok h
  exact ⟨x963, kid, raw, hchecked, mapError_eq_ok hkey, hkid, mapError_eq_ok hraw,
    (Except.ok.inj h).symm⟩

/-- What is signed carries its claims. -/
theorem carriedClaims_sign {C : Codec F recursionLimit} {L : SigningLibraries}
    {signer : Es256Signer} {c : Claims} {statement : Text}
    (h : sign C L signer c = .ok statement) : carriedClaims C statement = some c := by
  obtain ⟨x963, kid, raw, -, -, -, -, rfl⟩ := sign_eq_ok h
  have hplain := plain_payload (F := F) c
  rw [carriedClaims, signingInput, encodedPart, encodedPart, splitOnP_three (Base64.dot_notMem_encodeUrl _)
    (Base64.dot_notMem_encodeUrl _) (Base64.dot_notMem_encodeUrl _)]
  dsimp only
  rw [Base64.decodeUrl_encodeUrl, Option.bind_some, Utf8.fromUtf8_encode, Option.bind_some,
    C.fromStr_toText hplain.ordered hplain.integer (hplain.mono (by decide)).depth_le,
    Option.bind_some, claimsOfPayload_payload]

end Genaryx.Policy
