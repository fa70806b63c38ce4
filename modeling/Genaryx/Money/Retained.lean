import Genaryx.Base.Digest
import Genaryx.Base.Utf8
import Genaryx.Base.Words
import Genaryx.Delegation.Vouchryx

/-!
# Closure tokens

The gateway closes a retained reservation only for a token that names the reservation, its
revision and an expiry, under a code of the secret that it shares with the console.

## Implementation notes

HMAC-SHA256 is a parameter. A secret carries the proof that it is long enough, so none that is
shorter can be configured.
-/

namespace Genaryx.Money

open Base

def minSecretBytes : Nat := 32

def tokenTtlMillis : Int := 120000

def macDomain : Text := "tokenfuse-closure-v1".toList

/-- The secret that the console shares with the gateway. -/
structure ClosureSecret where
  bytes : Bytes
  enough : minSecretBytes ≤ bytes.length

/-- Whether this console can mint closure tokens. -/
inductive ClosureConfig
  | notConfigured
  | configured (secret : ClosureSecret)

/-- What a token's code is computed of. -/
def tokenMessage (id : UInt64) (revision : Text) (expiryMillis : Int) : Text :=
  macDomain ++ '\n' :: (Text.decimal id.toNat ++ '\n' :: (revision ++ '\n' ::
    Text.displayInt expiryMillis))

/-- The token of a reservation at a revision. -/
def mintToken (hmac : Bytes → Bytes → Bytes) (secret : Bytes) (id : UInt64) (revision : Text)
    (expiryMillis : Int) : Text :=
  "v1.".toList ++ Text.decimal id.toNat ++ '.' :: (revision ++ '.' ::
    (Text.displayInt expiryMillis ++ '.' ::
      hexLower (hmac secret (Utf8.encode (tokenMessage id revision expiryMillis)))))

def i64Max : Int := 2 ^ 63 - 1

/-- The expiry of a token minted now, as far as a signed number goes. -/
def expiryFor (nowMillis : Int) : Int := min (nowMillis + tokenTtlMillis) i64Max

theorem expiryFor_le (nowMillis : Int) : expiryFor nowMillis ≤ nowMillis + tokenTtlMillis :=
  Int.min_le_left _ _

/-- A signed number is written without a line break. -/
theorem newline_notMem_displayInt (n : Int) : '\n' ∉ Text.displayInt n := by
  intro h
  cases n with
  | ofNat n => exact absurd (Text.isDigit_of_mem_decimal h) (by decide)
  | negSucc n =>
      rcases List.mem_cons.mp h with hsign | hdigit
      · exact absurd hsign (by decide)
      · exact absurd (Text.isDigit_of_mem_decimal hdigit) (by decide)

/-- What stands after the last line break. -/
theorem eq_of_append_newline {a a' b b' : Text} (hb : '\n' ∉ b) (hb' : '\n' ∉ b')
    (h : a ++ '\n' :: b = a' ++ '\n' :: b') : a = a' ∧ b = b' := by
  have hreverse : ∀ s t : Text, (s ++ '\n' :: t).reverse = t.reverse ++ '\n' :: s.reverse := by
    simp
  have hsplit := congrArg (fun t => Text.splitOnce '\n' t.reverse) h
  simp only [hreverse] at hsplit
  rw [Text.splitOnce_append _ _ _ (by simpa using hb),
    Text.splitOnce_append _ _ _ (by simpa using hb')] at hsplit
  simp only [Option.some.injEq, Prod.mk.injEq, List.reverse_inj] at hsplit
  exact ⟨hsplit.2, hsplit.1⟩

/-- A message tells the reservation, the revision and the expiry, whatever they are. -/
theorem tokenMessage_inj {id id' : UInt64} {revision revision' : Text}
    {expiryMillis expiryMillis' : Int}
    (h : tokenMessage id revision expiryMillis = tokenMessage id' revision' expiryMillis') :
    id = id' ∧ revision = revision' ∧ expiryMillis = expiryMillis' := by
  have hfields := List.append_cancel_left h
  rw [List.cons_inj_right] at hfields
  -- the number of the reservation ends at the first line break, the expiry begins at the last
  have hfirst := congrArg (Text.splitOnce '\n') hfields
  rw [Text.splitOnce_append _ _ _ (Text.newline_notMem_decimal _),
    Text.splitOnce_append _ _ _ (Text.newline_notMem_decimal _)] at hfirst
  simp only [Option.some.injEq, Prod.mk.injEq] at hfirst
  obtain ⟨hid, hrest⟩ := hfirst
  obtain ⟨hrevision, hexpiry⟩ := eq_of_append_newline (newline_notMem_displayInt _)
    (newline_notMem_displayInt _) hrest
  exact ⟨UInt64.toNat_inj.mp (Text.decimal_injective hid), hrevision,
    Text.displayInt_injective hexpiry⟩

end Genaryx.Money

/-!
## Closing retained reservations

A person closes a reservation that the gateway retains with evidence of what was billed. The
evidence is checked, a token is minted, one request is sent, and the attempt is journaled
whatever becomes of it.

### Implementation notes

A closing gives, beside its outcome, the token that was minted and the request that was sent.
The random bytes of the operation's id, the clock and the gateway's answer are parameters.
-/

namespace Genaryx.Money

open Base Json Genaryx.Core Command Delegation

variable {F : Type}

def maxEvidenceRefBytes : Nat := 512

/-- The two forms a closure may take. -/
inductive EvidenceKind
  | observed
  | noCharge
  deriving DecidableEq

def EvidenceKind.asStr : EvidenceKind → Text
  | observed => "observed".toList
  | noCharge => "no_charge".toList

/-- What the operator supplies to close one reservation. -/
structure CloseRetainedArgs where
  reservationId : UInt64
  expectedRevision : Text
  evidenceKind : EvidenceKind
  observedMicrousd : Option Int64
  evidenceRef : Text

/-- The ways closing can fail. -/
inductive RetainedError (F : Type)
  | notConfigured
  | bootstrapping
  | noEnvironment
  | gatewayUnreachable (reason : Text)
  | invalidArgs (reason : Text)
  | closureOff
  | refused (status : UInt16) (error message : Text)
  | unconfirmed (status : UInt16) (body : Value F)
  | unreachable (detail : Text)

def RetainedError.kindOf : RetainedError F → Text
  | notConfigured => "not_configured".toList
  | bootstrapping => "bootstrapping".toList
  | noEnvironment => "no_environment".toList
  | gatewayUnreachable _ => "gateway_unreachable".toList
  | invalidArgs _ => "invalid_args".toList
  | closureOff => "closure_off".toList
  | refused .. => "refused".toList
  | unconfirmed .. => "unconfirmed".toList
  | unreachable _ => "unreachable".toList

/-- A closure the gateway confirmed. -/
structure CloseOutcome (F : Type) where
  httpStatus : UInt16
  verifyResult : Text
  operationId : Text
  replayed : Bool
  settledMicrousd : Option Int64
  gatewayResponse : Value F
  busRecorded : Bool
  busError : Option Text

/-! ## The evidence -/

def isRevisionByte (b : UInt8) : Bool := (0x30 ≤ b && b ≤ 0x39) || (0x61 ≤ b && b ≤ 0x66)

/-- The evidence rules that the gateway applies. -/
def validate (args : CloseRetainedArgs) : Except Text Unit :=
  if Utf8.len args.expectedRevision ≠ 16 ||
      !(Utf8.encode args.expectedRevision).all isRevisionByte then
    .error "expected_revision must be the 16 lowercase hex digits GET /v1/retained lists".toList
  else if (Text.trim args.evidenceRef).isEmpty ||
      maxEvidenceRefBytes < Utf8.len args.evidenceRef || args.evidenceRef.any Text.isControl then
    .error ("evidence_ref must name the evidence in 1 to ".toList ++
      Text.decimal maxEvidenceRefBytes ++ " bytes with no control characters".toList)
  else
    match args.evidenceKind, args.observedMicrousd with
    | .observed, none => .error
        "an observed closure needs observed_microusd, the cost the evidence shows".toList
    | .observed, some c =>
        if c < 0 then .error "observed_microusd cannot be negative".toList else .ok ()
    | .noCharge, some _ => .error
        "a no_charge closure carries no observed_microusd: it releases at zero".toList
    | .noCharge, none => .ok ()

/-- As much of a text as fits a number of bytes. -/
def fitting : Nat → Text → Text
  | _, [] => []
  | room, c :: t =>
      let width := (Utf8.encodeChar c).length
      if width ≤ room then c :: fitting (room - width) t else []

/-- A text cut to a number of bytes, on a character boundary. -/
def clip (s : Text) (max : Nat) : Text := if Utf8.len s ≤ max then s else fitting max s

/-! ## The gateway -/

inductive GatewayError
  | transport (e : Text)
  | json (e : Text)
  | unauthorized
  | adminKeysRequired
  | api (status : UInt16) (body : Text)
  | responseTooLarge (limit : Nat)

def GatewayError.display : GatewayError → Text
  | transport e => "http transport: ".toList ++ e
  | json e => "json: ".toList ++ e
  | unauthorized => "the gateway refused the presented key (401 unauthorized)".toList
  | adminKeysRequired =>
      "the gateway requires TOKENFUSE_ADMIN_KEYS and refuses every request (403)".toList
  | api status body =>
      "gateway returned HTTP ".toList ++ Text.decimal status.toNat ++ ": ".toList ++ body
  | responseTooLarge limit => "the gateway's response exceeded ".toList ++ Text.decimal limit ++
      " bytes; refused to read further".toList

structure GatewayClient where
  baseUrl : Text
  adminKey : Option Text

/-- The state of the gateway's panel. -/
inductive GatewayState
  | ready (client : GatewayClient)
  | bootstrapping
  | noEnvironment
  | unreachable (reason : Text)

def GatewayState.readyGateway : GatewayState → Except (RetainedError F) GatewayClient
  | ready client => .ok client
  | bootstrapping => .error .bootstrapping
  | noEnvironment => .error .noEnvironment
  | unreachable reason => .error (.gatewayUnreachable reason)

/-- One post that closes a reservation. -/
structure ClosePost (F : Type) where
  url : Text
  bearer : Option Text
  closureToken : Text
  body : Value F

/-- What the gateway answered. -/
structure CloseAnswer (F : Type) where
  status : UInt16
  body : Value F

def maxCloseResponseBytes : Nat := 64 * 1024

/-- What one closing meets: whether the HTTP client can be built, and what is answered. -/
structure CloseExchange where
  build : Option Text := none
  reply : Reply

/-- The answer as it is read, unless none came or it was too long. -/
def CloseExchange.answer (C : Codec F recursionLimit) (x : CloseExchange) :
    Except GatewayError (CloseAnswer F) :=
  match x.build, x.reply with
  | some e, _ | none, .failed e => .error (.transport e)
  | none, .answered status raw =>
      if maxCloseResponseBytes < raw.length then .error (.responseTooLarge maxCloseResponseBytes)
      else .ok ⟨status, if raw.isEmpty then .null else
        ((Utf8.fromUtf8 raw).bind C.reader.fromStr).getD (.string (Utf8.fromUtf8Lossy raw))⟩

/-- `POST /v1/retained/close`. -/
def GatewayClient.closeRetained (client : GatewayClient) (C : Codec F recursionLimit)
    (body : Value F) (token : Text) (x : CloseExchange) :
    Except GatewayError (CloseAnswer F) × Option (ClosePost F) :=
  (x.answer C, if x.build.isSome then none else
    some ⟨client.baseUrl ++ "/v1/retained/close".toList, client.adminKey, token, body⟩)

/-- The gateway's refusal kind and message. -/
def refusalOf (body : Value F) : Option Text × Text :=
  match body.get "error".toList with
  | some (.object o) => ((o.lookup "type".toList).bind Value.asStr,
      ((o.lookup "message".toList).bind Value.asStr).getD [])
  | some (.string s) => (some s, [])
  | _ => (none, [])

/-! ## One attempt -/

/-- The id of one attempt. -/
def newOperationId (bytes : Bytes) : Text := "genaryx-".toList ++ hexLower bytes

/-- The console around one closing: its configuration, and what it meets. -/
structure CloseSetting (F : Type) where
  journaling : Journaling F
  ambient : Ambient
  hmac : Bytes → Bytes → Bytes
  config : ClosureConfig
  gateway : GatewayState
  operationBytes : Bytes
  nowMillis : Int
  exchange : CloseExchange

/-- What a closing did: its outcome, the token it minted, the request it sent, and the journal
after it. -/
structure Closing (F : Type) where
  outcome : Except (RetainedError F) (CloseOutcome F)
  minted : Option Text := none
  sent : Option (ClosePost F) := none
  after : Chronicle F

namespace CloseSetting

variable (S : CloseSetting F) (args : CloseRetainedArgs) (c : Chronicle F)

def operationId : Text := newOperationId S.operationBytes

/-- The evidence as JSON. -/
def evidence (revision ref : Text) : List (Text × Value F) :=
  [("reservation_id".toList, Value.ofU64 args.reservationId),
    ("expected_revision".toList, .string revision),
    ("operation_id".toList, .string S.operationId),
    ("evidence_kind".toList, .string args.evidenceKind.asStr),
    ("observed_microusd".toList, (args.observedMicrousd.map Value.ofI64).getD .null),
    ("evidence_ref".toList, .string ref)]

/-- The record of an attempt. -/
def closeRecord (httpStatus : UInt16) (verifyResult : Text) : CommandRecord F :=
  let signature := S.ambient.signatureOr "software-signed" "software-signed"
  { operator := actor S.ambient
    env := S.ambient.org
    action := "console.close_retained".toList
    target := "reservation:".toList ++ Text.decimal args.reservationId.toNat
    params := .object (ofMembers (S.evidence args (clip args.expectedRevision 64)
      (clip args.evidenceRef maxEvidenceRefBytes)))
    decision := "allow".toList
    sigAlg := signature.1
    sigFpr := signature.2
    httpStatus := httpStatus
    verifyResult := verifyResult }

def journalAttempt (httpStatus : UInt16) (verifyResult : Text) :
    (Bool × Option Text) × Chronicle F :=
  c.journal S.journaling S.ambient.org S.ambient.host (S.closeRecord args httpStatus verifyResult)

/-- A failure and the journal after it. -/
def failed (httpStatus : UInt16) (verifyResult : Text) (e : RetainedError F) :
    Except (RetainedError F) (CloseOutcome F) × Chronicle F :=
  (.error e, (S.journalAttempt args c httpStatus verifyResult).2)

/-- Journal what the gateway answered, and tell it. -/
def settle (answer : Except GatewayError (CloseAnswer F)) :
    Except (RetainedError F) (CloseOutcome F) × Chronicle F :=
  match answer with
  | .error e =>
      let detail := e.display
      S.failed args c 0 ("unreachable: ".toList ++ detail) (.unreachable detail)
  | .ok answer =>
      let status := answer.status
      if isSuccess status then
        if confirms answer.body "closed".toList then
          let replayed := confirms answer.body "replayed".toList
          let verifyResult := if replayed then "closed (replayed)".toList else "closed".toList
          let (journaled, c) := S.journalAttempt args c status verifyResult
          (.ok ⟨status, verifyResult, S.operationId, replayed,
            (answer.body.get "settled_microusd".toList).bind Value.asI64, answer.body, journaled.1,
              journaled.2⟩, c)
        else S.failed args c status
          (Text.decimal status.toNat ++ " without closed:true confirmation".toList)
          (.unconfirmed status answer.body)
      else
        let (error, message) := refusalOf answer.body
        if status = 404 && error.isNone then
          S.failed args c status "refused:closure_off".toList .closureOff
        else
          let error := error.getD "unknown".toList
          S.failed args c status ("refused:".toList ++ error) (.refused status error message)

/-- `money_close_retained`. -/
def moneyCloseRetained : Closing F :=
  match validate args with
  | .error reason =>
      let p := S.failed args c 0 "refused:invalid_args".toList (.invalidArgs reason)
      { outcome := p.1, after := p.2 }
  | .ok () =>
      match S.config with
      | .notConfigured =>
          let p := S.failed args c 0 "refused:not_configured".toList .notConfigured
          { outcome := p.1, after := p.2 }
      | .configured secret =>
          match S.gateway.readyGateway with
          | .error e =>
              let p := S.failed args c 0 ("refused:".toList ++ e.kindOf) e
              { outcome := p.1, after := p.2 }
          | .ok client =>
              let token := mintToken S.hmac secret.bytes args.reservationId args.expectedRevision
                (expiryFor S.nowMillis)
              let body := .object (ofMembers (S.evidence args args.expectedRevision args.evidenceRef))
              let (answer, sent) :=
                client.closeRetained S.journaling.codec body token S.exchange
              let p := S.settle args c answer
              { outcome := p.1, minted := some token, sent := sent, after := p.2 }

end CloseSetting

end Genaryx.Money
