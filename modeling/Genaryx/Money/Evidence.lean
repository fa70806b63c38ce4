import Genaryx.Json.Double
import Genaryx.Money.Retained

/-!
# Closed on evidence

A reservation is closed on confirmed evidence only. Each closing is one attempt in the journal,
a token is minted for evidence that was checked and goes out with the reservation and the
revision it binds, and a closing ends well exactly if the gateway confirms it. The record has
neither the token nor the secret, unless one of them is in a text that the record repeats.

## Implementation notes

What the gateway says is recorded as it is, so a gateway that repeats the token puts it on
record. The console itself does not: its record is the same for any other token and secret.
-/

namespace Genaryx.Money

open Base Json Genaryx.Core Command Delegation

variable {F : Type}

/-! ## The texts of a record -/

mutual

/-- Every text of the value meets the condition. -/
def AllTexts (p : Text → Prop) : Value F → Prop
  | .string s => p s
  | .array items => AllItemTexts p items
  | .object members => AllMemberTexts p members
  | _ => True

def AllItemTexts (p : Text → Prop) : List (Value F) → Prop
  | [] => True
  | v :: vs => AllTexts p v ∧ AllItemTexts p vs

def AllMemberTexts (p : Text → Prop) : List (Text × Value F) → Prop
  | [] => True
  | m :: ms => AllTexts p m.2 ∧ AllMemberTexts p ms

end

theorem allMemberTexts_iff {p : Text → Prop} {ms : List (Text × Value F)} :
    AllMemberTexts p ms ↔ ∀ m ∈ ms, AllTexts p m.2 := by
  induction ms with
  | nil => simp [AllMemberTexts]
  | cons m ms ih => simp [AllMemberTexts, ih]

/-- Every text of a record meets the condition. -/
structure RecordTexts (p : Text → Prop) (rec : CommandRecord F) : Prop where
  operator : p rec.operator
  env : p rec.env
  action : p rec.action
  target : p rec.target
  params : AllTexts p rec.params
  decision : p rec.decision
  sigAlg : p rec.sigAlg
  sigFpr : p rec.sigFpr
  verifyResult : p rec.verifyResult

namespace CloseSetting

variable (S : CloseSetting F) (args : CloseRetainedArgs) (c : Chronicle F)

/-- Whether the gateway's answer says that it closed the reservation. -/
def gatewayConfirms : Bool :=
  match S.exchange.answer S.journaling.codec with
  | .error _ => false
  | .ok answer => isSuccess answer.status && confirms answer.body "closed".toList

/-- The setting with another secret, another code and another clock. -/
def rekeyed (hmac : Bytes → Bytes → Bytes) (secret : ClosureSecret) (nowMillis : Int) :
    CloseSetting F :=
  { S with hmac := hmac, config := .configured secret, nowMillis := nowMillis }

/-- Whether a closing goes as far as the gateway: the arguments pass, and the secret and the
gateway are there. -/
def Reaches : Prop :=
  validate args = .ok () ∧ (∃ secret, S.config = .configured secret) ∧
    ∃ client, S.gateway = .ready client

/-- The token that a closing mints under a secret. -/
def tokenOf (secret : ClosureSecret) : Text :=
  mintToken S.hmac secret.bytes args.reservationId args.expectedRevision (expiryFor S.nowMillis)

/-- A text has neither the token nor the secret in it. -/
structure Clean (t : Text) : Prop where
  token : ∀ secret, S.config = .configured secret → S.Reaches args →
    ¬ S.tokenOf args secret <:+: t
  secret : ∀ secret, S.config = .configured secret → ¬ secret.bytes <:+: Utf8.encode t

/-- The texts that a record has from the request, the environment and the attempt's number. -/
def handed : List Text :=
  let signature := S.ambient.signatureOr "software-signed" "software-signed"
  [actor S.ambient, S.ambient.org, "reservation:".toList ++ Text.decimal args.reservationId.toNat,
    clip args.expectedRevision 64, S.operationId, clip args.evidenceRef maxEvidenceRefBytes,
    signature.1, signature.2]

/-- What the gateway, or the way to it, says that goes on record. -/
def said : List Text :=
  match S.exchange.answer S.journaling.codec with
  | .error e => ["unreachable: ".toList ++ e.display]
  | .ok answer =>
      if isSuccess answer.status then
        if confirms answer.body "closed".toList then []
        else [Text.decimal answer.status.toNat ++ " without closed:true confirmation".toList]
      else
        match (refusalOf answer.body).1 with
        | some kind => ["refused:".toList ++ kind]
        | none => []

/-- Nothing that goes on record repeats the token or the secret. -/
structure Unrepeated : Prop where
  handed : ∀ t ∈ S.handed args, S.Clean args t
  said : S.Reaches args → ∀ t ∈ S.said, S.Clean args t

variable {S args c}

/-- The console's own short words are neither. -/
theorem clean_of_own {t : Text} (hmark : ¬ ['v', '1'] <:+: t) (hshort : (Utf8.encode t).length < 32) :
    S.Clean args t where
  token := fun secret _ _ hinfix => hmark (by
    refine List.IsInfix.trans ?_ hinfix
    exact List.IsPrefix.isInfix ⟨_, rfl⟩)
  secret := fun secret _ hinfix => by
    have hle := hinfix.length_le
    have henough := secret.enough
    unfold minSecretBytes at henough
    omega

theorem clean_refused (e : RetainedError F) : S.Clean args ("refused:".toList ++ e.kindOf) := by
  cases e <;> dsimp only [RetainedError.kindOf] <;> exact clean_of_own (by decide) (by decide)

/-! ## One attempt -/

@[simp]
theorem attempts_failed (httpStatus : UInt16) (verifyResult : Text) (e : RetainedError F) :
    (S.failed args c httpStatus verifyResult e).2.attempts =
      c.attempts ++ [S.closeRecord args httpStatus verifyResult] :=
  Chronicle.attempts_journal ..

variable (S args c) in
/-- What was answered is journaled once, and is as clean as what the gateway said. -/
theorem attempts_settle (hreaches : S.Reaches args) :
    ∃ httpStatus verifyResult,
      (S.settle args c (S.exchange.answer S.journaling.codec)).2.attempts =
        c.attempts ++ [S.closeRecord args httpStatus verifyResult] ∧
      (S.Clean args verifyResult ↔ (S.Reaches args → ∀ t ∈ S.said, S.Clean args t)) := by
  have hone : ∀ t, S.Clean args t ↔ (S.Reaches args → ∀ t' ∈ [t], S.Clean args t') := fun t =>
    ⟨fun h _ _ hmem => List.mem_singleton.mp hmem ▸ h, fun h => h hreaches t (List.mem_singleton_self t)⟩
  have hnone : ∀ t, S.Clean args t →
      (S.Clean args t ↔ (S.Reaches args → ∀ t' ∈ ([] : List Text), S.Clean args t')) :=
    fun t ht => iff_of_true ht fun _ _ hmem => absurd hmem List.not_mem_nil
  unfold said
  cases S.exchange.answer S.journaling.codec with
  | error e => exact ⟨_, _, attempts_failed .., hone _⟩
  | ok answer =>
      simp only [settle]
      split
      · split
        · refine ⟨_, _, Chronicle.attempts_journal .., hnone _ ?_⟩
          split
          · exact clean_of_own (by decide) (by decide)
          · exact clean_of_own (by decide) (by decide)
        · exact ⟨_, _, attempts_failed .., hone _⟩
      · cases hkind : (refusalOf answer.body).1 with
        | none =>
            split
            · exact ⟨_, _, attempts_failed .., hnone _ (clean_of_own (by decide) (by decide))⟩
            · exact ⟨_, _, attempts_failed .., hnone _ (clean_of_own (by decide) (by decide))⟩
        | some kind =>
            simp only [Option.isNone_some, Bool.and_false, Bool.false_eq_true, if_false]
            exact ⟨_, _, attempts_failed .., hone _⟩

/-- An answer settles well exactly if it confirms the closure. -/
theorem settle_ok_iff (answer : CloseAnswer F) :
    (S.settle args c (.ok answer)).1.toOption.isSome = true ↔
      (isSuccess answer.status && confirms answer.body "closed".toList) = true := by
  simp only [settle]
  cases isSuccess answer.status with
  | true =>
      cases confirms answer.body "closed".toList with
      | true => exact iff_of_true rfl rfl
      | false => exact iff_of_false Bool.false_ne_true Bool.false_ne_true
  | false =>
      refine iff_of_false ?_ Bool.false_ne_true
      simp only [Bool.false_eq_true, if_false]
      split <;> exact Bool.false_ne_true

/-- A closing that goes as far as the gateway. -/
theorem moneyCloseRetained_eq {secret : ClosureSecret} {client : GatewayClient}
    (hvalid : validate args = .ok ()) (hconfig : S.config = .configured secret)
    (hgateway : S.gateway = .ready client) :
    S.moneyCloseRetained args c =
      let token := mintToken S.hmac secret.bytes args.reservationId args.expectedRevision
        (expiryFor S.nowMillis)
      let body := .object (ofMembers (S.evidence args args.expectedRevision args.evidenceRef))
      let p := S.settle args c (S.exchange.answer S.journaling.codec)
      { outcome := p.1
        minted := some token
        sent := (client.closeRetained S.journaling.codec body token S.exchange).2
        after := p.2 } := by
  unfold moneyCloseRetained
  rw [hvalid, hconfig, hgateway]
  rfl

/-- A closing that does not get so far is refused, and mints nothing. -/
theorem refused_of_not_reaches (h : ¬S.Reaches args) :
    ∃ verifyResult e, S.moneyCloseRetained args c =
      { outcome := .error e, after := (S.failed args c 0 verifyResult e).2 } ∧
        S.Clean args verifyResult := by
  unfold moneyCloseRetained
  cases hvalid : validate args with
  | error reason => exact ⟨_, _, rfl, clean_of_own (by decide) (by decide)⟩
  | ok checked =>
      cases hconfig : S.config with
      | notConfigured => exact ⟨_, _, rfl, clean_of_own (by decide) (by decide)⟩
      | configured secret =>
          cases hgateway : S.gateway with
          | ready client => exact absurd ⟨hvalid, ⟨secret, hconfig⟩, client, hgateway⟩ h
          | bootstrapping => exact ⟨_, _, rfl, clean_refused .bootstrapping⟩
          | noEnvironment => exact ⟨_, _, rfl, clean_refused .noEnvironment⟩
          | unreachable reason => exact ⟨_, _, rfl, clean_refused (.gatewayUnreachable reason)⟩

/-- An answer is read of a request that went out. -/
theorem sent_of_answer {client : GatewayClient} {C : Codec F recursionLimit} {body : Value F}
    {token : Text} {x : CloseExchange} {answer : CloseAnswer F} (h : x.answer C = .ok answer) :
    (client.closeRetained C body token x).2.isSome = true := by
  unfold CloseExchange.answer at h
  unfold GatewayClient.closeRetained
  cases hbuild : x.build with
  | none => rfl
  | some e => rw [hbuild] at h; cases h

/-- What goes out is what was minted, with the reservation and the revision it binds. -/
theorem sent_closeRetained {client : GatewayClient} {C : Codec F recursionLimit} {body : Value F}
    {token : Text} {x : CloseExchange} {post : ClosePost F}
    (h : (client.closeRetained C body token x).2 = some post) :
    post.closureToken = token ∧ post.body = body := by
  unfold GatewayClient.closeRetained at h
  dsimp only at h
  split at h
  · cases h
  · cases h
    exact ⟨rfl, rfl⟩

variable (S args) in
/-- The body of a request names the reservation and the revision. -/
theorem get_evidence (revision ref : Text) :
    (Value.object (ofMembers (S.evidence args revision ref)) : Value F).get
        "reservation_id".toList = some (Value.ofU64 args.reservationId) ∧
      (Value.object (ofMembers (S.evidence args revision ref)) : Value F).get
        "expected_revision".toList = some (.string revision) := by
  constructor
  · exact lookup_ofMembers_append_cons [] _ _ (by simp)
  · exact lookup_ofMembers_append_cons [("reservation_id".toList, Value.ofU64 args.reservationId)] _ _
      (by simp)

/-- With the gateway's answer given, the journal and the outcome do not tell the secret, the code
or the clock. -/
theorem moneyCloseRetained_rekeyed {secret : ClosureSecret} (hconfig : S.config = .configured secret)
    (hmac : Bytes → Bytes → Bytes) (secret' : ClosureSecret) (nowMillis : Int) :
    ((S.rekeyed hmac secret' nowMillis).moneyCloseRetained args c).after =
        (S.moneyCloseRetained args c).after ∧
      ((S.rekeyed hmac secret' nowMillis).moneyCloseRetained args c).outcome =
        (S.moneyCloseRetained args c).outcome := by
  have hconfig' : (S.rekeyed hmac secret' nowMillis).config = .configured secret' := rfl
  have hgateway' : (S.rekeyed hmac secret' nowMillis).gateway = S.gateway := rfl
  unfold moneyCloseRetained
  rw [hconfig, hconfig', hgateway']
  cases validate args with
  | error reason => exact ⟨rfl, rfl⟩
  | ok checked =>
      cases S.gateway.readyGateway (F := F) with
      | error e => exact ⟨rfl, rfl⟩
      | ok client => exact ⟨rfl, rfl⟩

/-- The texts of a record's evidence. -/
theorem allTexts_evidence {revision ref : Text} :
    AllTexts (S.Clean args) (.object (ofMembers (S.evidence args revision ref)) : Value F) ↔
      S.Clean args revision ∧ S.Clean args S.operationId ∧ S.Clean args ref := by
  have hnodup : ((S.evidence args revision ref).map Prod.fst).Nodup := by
    change ["reservation_id".toList, "expected_revision".toList, "operation_id".toList,
      "evidence_kind".toList, "observed_microusd".toList, "evidence_ref".toList].Nodup
    decide
  have hkind : S.Clean args args.evidenceKind.asStr := by
    cases args.evidenceKind with
    | observed => exact clean_of_own (by decide) (by decide)
    | noCharge => exact clean_of_own (by decide) (by decide)
  have hobserved : AllTexts (S.Clean args)
      ((args.observedMicrousd.map Value.ofI64).getD .null : Value F) := by
    cases args.observedMicrousd with
    | none => exact trivial
    | some cost =>
        rw [Option.map_some, Option.getD_some, Value.ofI64]
        split <;> exact trivial
  rw [AllTexts, allMemberTexts_iff]
  simp only [(ofMembers_perm hnodup).mem_iff]
  simp only [evidence, List.forall_mem_cons, AllTexts, Value.ofU64, hkind, hobserved, true_and]
  simp

/-- The texts of a record are the console's own words, what it was handed and what it tells. -/
theorem recordTexts_closeRecord {httpStatus : UInt16} {verifyResult : Text} :
    RecordTexts (S.Clean args) (S.closeRecord args httpStatus verifyResult) ↔
      (∀ t ∈ S.handed args, S.Clean args t) ∧ S.Clean args verifyResult := by
  unfold handed
  dsimp only
  simp only [List.forall_mem_cons]
  constructor
  · rintro ⟨hoperator, henv, _, htarget, hparams, _, halg, hfpr, hverify⟩
    obtain ⟨hrevision, hid, href⟩ := allTexts_evidence.mp hparams
    exact ⟨⟨hoperator, henv, htarget, hrevision, hid, href, halg, hfpr,
      fun t ht => absurd ht List.not_mem_nil⟩, hverify⟩
  · rintro ⟨⟨hoperator, henv, htarget, hrevision, hid, href, halg, hfpr, _⟩, hverify⟩
    have haction : S.Clean args "console.close_retained".toList :=
      clean_of_own (by decide) (by decide)
    have hdecision : S.Clean args "allow".toList := clean_of_own (by decide) (by decide)
    exact ⟨hoperator, henv, haction, htarget, allTexts_evidence.mpr ⟨hrevision, hid, href⟩,
      hdecision, halg, hfpr, hverify⟩

/-- A closing mints a token exactly if it reaches the gateway, and then the one of its
reservation, revision and time. -/
theorem minted_iff {token : Text} : (S.moneyCloseRetained args c).minted = some token ↔
    S.Reaches args ∧ ∃ secret, S.config = .configured secret ∧ token = S.tokenOf args secret := by
  by_cases hreaches : S.Reaches args
  · obtain ⟨hvalid, ⟨secret, hconfig⟩, client, hgateway⟩ := id hreaches
    rw [moneyCloseRetained_eq hvalid hconfig hgateway, hconfig]
    dsimp only
    rw [Option.some.injEq]
    constructor
    · rintro rfl
      exact ⟨hreaches, secret, rfl, rfl⟩
    · rintro ⟨_, secret', hsecret, rfl⟩
      cases hsecret
      rfl
  · obtain ⟨verifyResult, e, hrefused, _⟩ := refused_of_not_reaches (c := c) hreaches
    rw [hrefused]
    exact iff_of_false (Option.some_ne_none token).symm fun h => hreaches h.1

/-- One attempt is journaled, and its record is clean exactly if nothing on it repeats. -/
theorem attempts_moneyCloseRetained (S : CloseSetting F) (args : CloseRetainedArgs)
    (c : Chronicle F) : ∃ httpStatus verifyResult,
      (S.moneyCloseRetained args c).after.attempts =
        c.attempts ++ [S.closeRecord args httpStatus verifyResult] ∧
      (S.Clean args verifyResult ↔ (S.Reaches args → ∀ t ∈ S.said, S.Clean args t)) := by
  by_cases hreaches : S.Reaches args
  · obtain ⟨hvalid, ⟨secret, hconfig⟩, client, hgateway⟩ := id hreaches
    rw [moneyCloseRetained_eq hvalid hconfig hgateway]
    exact attempts_settle S args c hreaches
  · obtain ⟨verifyResult, e, hrefused, hclean⟩ := refused_of_not_reaches (c := c) hreaches
    rw [hrefused]
    exact ⟨0, verifyResult, attempts_failed 0 verifyResult e,
      iff_of_true hclean fun h => absurd h hreaches⟩

end CloseSetting

/-- What should hold of a closing. -/
structure ClosedOnEvidence (S : CloseSetting F) (args : CloseRetainedArgs)
    (before : Chronicle F) : Prop where
  journaled : ∃ rec, (S.moneyCloseRetained args before).after.attempts = before.attempts ++ [rec] ∧
    rec.action = "console.close_retained".toList ∧
      rec.target = "reservation:".toList ++ Text.decimal args.reservationId.toNat
  minted : (S.moneyCloseRetained args before).minted.isSome = true ↔ S.Reaches args
  bound : ∀ post, (S.moneyCloseRetained args before).sent = some post →
    (S.moneyCloseRetained args before).minted = some post.closureToken ∧
      ∃ secret id revision expiryMillis, S.config = .configured secret ∧
        post.closureToken = mintToken S.hmac secret.bytes id revision expiryMillis ∧
        post.body.get "reservation_id".toList = some (Value.ofU64 id) ∧
        post.body.get "expected_revision".toList = some (.string revision) ∧
        expiryMillis ≤ S.nowMillis + tokenTtlMillis
  confirmed : (S.moneyCloseRetained args before).outcome.toOption.isSome = true ↔
    (S.moneyCloseRetained args before).sent.isSome = true ∧ S.gatewayConfirms = true
  /-- Neither the token nor the secret is in a text of the record. -/
  withheld : ∀ rec, (S.moneyCloseRetained args before).after.attempts = before.attempts ++ [rec] →
    RecordTexts (fun t =>
      (∀ token, (S.moneyCloseRetained args before).minted = some token → ¬ token <:+: t) ∧
        ∀ secret, S.config = .configured secret → ¬ secret.bytes <:+: Utf8.encode t) rec
  /-- The console itself does not write them: with the answer given, the record is the same for
  any other secret, code and clock. -/
  independent : ∀ secret, S.config = .configured secret → ∀ hmac secret' nowMillis,
    ((S.rekeyed hmac secret' nowMillis).moneyCloseRetained args before).after =
        (S.moneyCloseRetained args before).after ∧
      ((S.rekeyed hmac secret' nowMillis).moneyCloseRetained args before).outcome =
        (S.moneyCloseRetained args before).outcome

namespace CloseSetting

variable {S : CloseSetting F} {args : CloseRetainedArgs} {before : Chronicle F}

/-- A text without the minted token and without the secret. -/
theorem clean_iff {t : Text} :
    ((∀ token, (S.moneyCloseRetained args before).minted = some token → ¬ token <:+: t) ∧
      ∀ secret, S.config = .configured secret → ¬ secret.bytes <:+: Utf8.encode t) ↔
      S.Clean args t := by
  simp only [minted_iff]
  constructor
  · rintro ⟨htoken, hsecret⟩
    exact ⟨fun secret hconfig hreaches => htoken _ ⟨hreaches, secret, hconfig, rfl⟩, hsecret⟩
  · rintro ⟨htoken, hsecret⟩
    refine ⟨?_, hsecret⟩
    rintro _ ⟨hreaches, secret, hconfig, rfl⟩
    exact htoken secret hconfig hreaches

/-- The record of a closing has neither the token nor the secret exactly if nothing that goes on
it repeats them. -/
theorem withheld_iff (before : Chronicle F) : (∀ rec, (S.moneyCloseRetained args before).after.attempts =
      before.attempts ++ [rec] → RecordTexts (fun t =>
        (∀ token, (S.moneyCloseRetained args before).minted = some token → ¬ token <:+: t) ∧
          ∀ secret, S.config = .configured secret → ¬ secret.bytes <:+: Utf8.encode t) rec) ↔
    S.Unrepeated args := by
  obtain ⟨httpStatus, verifyResult, hattempts, hsaid⟩ := attempts_moneyCloseRetained S args before
  simp only [clean_iff, hattempts]
  constructor
  · intro h
    obtain ⟨hhanded, hverify⟩ := recordTexts_closeRecord.mp (h _ rfl)
    exact ⟨hhanded, hsaid.mp hverify⟩
  · rintro ⟨hhanded, hunsaid⟩ rec heq
    rw [← List.singleton_inj.mp (List.append_cancel_left heq)]
    exact recordTexts_closeRecord.mpr ⟨hhanded, hsaid.mpr hunsaid⟩

end CloseSetting

open CloseSetting in
/-- A reservation is closed on confirmed evidence only, with neither token nor secret on record,
exactly if nothing that goes on record repeats them; and a token's message tells what the token
is for. -/
theorem closedOnEvidence_iff :
    (∀ (S : CloseSetting F) (args : CloseRetainedArgs) (before : Chronicle F),
      ClosedOnEvidence S args before ↔ S.Unrepeated args) ∧
    ∀ (id id' : UInt64) (revision revision' : Text) (expiryMillis expiryMillis' : Int),
      tokenMessage id revision expiryMillis = tokenMessage id' revision' expiryMillis' →
        id = id' ∧ revision = revision' ∧ expiryMillis = expiryMillis' := by
  refine ⟨fun S args before => ⟨fun h => (withheld_iff before).mp h.withheld, fun hunrepeated => ?_⟩,
    fun _ _ _ _ _ _ => tokenMessage_inj⟩
  obtain ⟨_, _, hattempts, _⟩ := attempts_moneyCloseRetained S args before
  have hwithheld := (withheld_iff before).mpr hunrepeated
  by_cases hreaches : S.Reaches args
  · obtain ⟨hvalid, ⟨secret, hconfig⟩, client, hgateway⟩ := hreaches
    have hclosing := moneyCloseRetained_eq (c := before) hvalid hconfig hgateway
    refine ⟨⟨_, hattempts, rfl, rfl⟩, ?_, fun post hpost => ?_, ?_, hwithheld,
      fun _ h => moneyCloseRetained_rekeyed h⟩
    · rw [hclosing]
      exact iff_of_true rfl ⟨hvalid, ⟨secret, hconfig⟩, client, hgateway⟩
    · rw [hclosing] at hpost ⊢
      obtain ⟨htoken, hbody⟩ := sent_closeRetained (C := S.journaling.codec) hpost
      have hmembers := get_evidence S args args.expectedRevision args.evidenceRef
      rw [htoken, hbody]
      exact ⟨rfl, secret, args.reservationId, args.expectedRevision, expiryFor S.nowMillis, hconfig,
        rfl, hmembers.1, hmembers.2, expiryFor_le _⟩
    · rw [hclosing, gatewayConfirms]
      cases hanswer : S.exchange.answer S.journaling.codec with
      | error e => exact iff_of_false Bool.false_ne_true fun h => Bool.false_ne_true h.2
      | ok answer =>
          rw [settle_ok_iff]
          exact ⟨fun h => ⟨sent_of_answer hanswer, h⟩, fun h => h.2⟩
  · obtain ⟨verifyResult, e, hrefused, _⟩ := refused_of_not_reaches (c := before) hreaches
    refine ⟨⟨_, hattempts, rfl, rfl⟩, ?_, fun post hpost => ?_, ?_, hwithheld,
      fun _ h => moneyCloseRetained_rekeyed h⟩
    · rw [hrefused]
      exact iff_of_false Bool.false_ne_true hreaches
    · rw [hrefused] at hpost
      cases hpost
    · rw [hrefused]
      exact iff_of_false Bool.false_ne_true fun h => Bool.false_ne_true h.1

section Example

/-- The secret of an example. -/
def sampleSecret : ClosureSecret where
  bytes := Utf8.encode "0123456789abcdef0123456789abcdef".toList
  enough := by decide

/-- The code of the message of reservation 1 at one revision, under the secret of the example. -/
def sampleHmac : Bytes → Bytes → Bytes := fun _ _ =>
  [11, 135, 4, 28, 127, 187, 182, 231, 47, 179, 105, 205, 84, 204, 92, 8, 54, 180, 25, 137, 122, 148,
    51, 150, 36, 61, 107, 134, 117, 248, 1, 74]

def sampleToken : Text :=
  mintToken sampleHmac sampleSecret.bytes 1 "aaaaaaaaaaaaaaaa".toList 121000

def repeatingBody : Bytes :=
  Utf8.encode ("\x7b\"error\":\"".toList ++ sampleToken ++ "\"\x7d".toList)

/-- A gateway that refuses a closing with the token it was sent. -/
def repeatedToken : CloseSetting Decimal where
  journaling :=
    { codec := CommandBus.sampleCodec
      sha256 := id
      debug := id
      moments := fun _ => ({}, "2026-01-01T00:00:00Z".toList) }
  ambient := {}
  hmac := sampleHmac
  config := .configured sampleSecret
  gateway := .ready ⟨"http://127.0.0.1:4100".toList, none⟩
  operationBytes := List.replicate 16 0
  nowMillis := 1000
  exchange := { reply := .answered 400 repeatingBody }

def sampleArgs : CloseRetainedArgs where
  reservationId := 1
  expectedRevision := "aaaaaaaaaaaaaaaa".toList
  evidenceKind := .noCharge
  observedMicrousd := none
  evidenceRef := "invoice 7".toList

/-- The token is on record where the gateway repeats it. -/
theorem token_on_record : ¬ ClosedOnEvidence repeatedToken sampleArgs ⟨none, []⟩ := by
  intro hclosed
  have hreaches : repeatedToken.Reaches sampleArgs := ⟨by decide, ⟨_, rfl⟩, _, rfl⟩
  have hsaid : repeatedToken.said = ["refused:".toList ++ sampleToken] := by decide +kernel
  have hclean := ((CloseSetting.withheld_iff _).mp hclosed.withheld).said hreaches
    ("refused:".toList ++ sampleToken) (hsaid ▸ List.mem_singleton_self _)
  exact hclean.token sampleSecret rfl hreaches ⟨"refused:".toList, [], by rw [List.append_nil]; rfl⟩

end Example

end Genaryx.Money
