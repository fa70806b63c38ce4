import Genaryx.Ceremony.Console

/-!
# What one step of a request can do

Every locked section of a request is one of nine kinds of step. Each kind says which pc it
starts from, what it changes and which pc follows, with the checks it has passed.
-/

namespace Genaryx.Ceremony

open Json

variable {F : Type} {P : Platform F} {cfg : Config}

/-- A pc that carries no assertion with it. A first passkey may be enrolled, and a gated command
dispatched, without one only for a user who has no passkey. -/
def Pc.Unauthorised (cfg : Config) (w : World F) (user : Text) : Pc F → Prop
  | .actionMint _ _ | .assertTake _ _ | .removeDrop _ true | .finished _ => True
  | .registerMint none => w.store.hasAny user = false
  | .dispatch name _ none =>
      requiresCeremony name = true → cfg.requirePasskey = false ∧ w.store.hasAny user = false
  | _ => False

/-- Who mints a challenge for what. -/
inductive Mints : Pc F → Asked F → Prop
  | action (command : Text) (args : Value F) :
      Mints (.actionMint command args) (.action command args)
  | register (authorisedBy : Option Text) :
      Mints (.registerMint authorisedBy) (.register authorisedBy)

/-- What a redeemed challenge of a purpose leads to. -/
inductive Redeems (P : Platform F) (challenge : Text) : Purpose → Pc F → Prop
  | refused (purpose : Purpose) (r : Refusal) :
      Redeems P challenge purpose (.finished (some r))
  | register (record : PasskeyRecord) :
      Redeems P challenge .register (.registerAdd challenge record)
  | action (goal : Goal F) (envelope : AssertionEnvelope) :
      Redeems P challenge (.action goal.boundTo (bodySha256Hex P (canonicalArgs P goal.args)))
        (.assertLookup goal envelope challenge)

/-- The steps of one request of a user. -/
inductive Advance (P : Platform F) (cfg : Config) (w : World F) (user : Text) :
    Pc F → World F → Pc F → Prop
  | moved {pc pc' : Pc F} (hpc : pc'.Unauthorised cfg w user) : Advance P cfg w user pc w pc'
  | dropped {pc : Pc F} (challenge : Text) (r : Refusal) :
      Advance P cfg w user pc { w with pending := w.pending.erase challenge }
        (.finished (some r))
  | minted {pc : Pc F} {asked : Asked F} (challenge : Text) (hpc : Mints pc asked)
      (hfresh : w.mintedBefore challenge = false) :
      Advance P cfg w user pc (w.minting P user asked challenge) (.finished none)
  | redeemed {pc pc' : Pc F} {challenge : Text} {pending : Pending}
      (hlookup : w.pending.lookup challenge = some pending) (hlive : w.now < pending.expires)
      (huser : pending.user = user) (hnext : Redeems P challenge pending.purpose pc') :
      Advance P cfg w user pc (w.redeeming user challenge) pc'
  | found {goal : Goal F} {envelope : AssertionEnvelope} {challenge : Text}
      {record : PasskeyRecord}
      (hfind : w.store.find user envelope.credentialId = some record) :
      Advance P cfg w user (.assertLookup goal envelope challenge) w
        (.assertVerify goal envelope challenge record)
  | verified {goal : Goal F} {envelope : AssertionEnvelope} {challenge : Text}
      {record : PasskeyRecord} {v : VerifiedAssertion}
      (hverify : verifyAssertion P cfg.rp challenge record envelope.clientData
        envelope.authenticatorData envelope.signature = .ok v) (persistError : Option Text) :
      Advance P cfg w user (.assertVerify goal envelope challenge record)
        (w.verifying user challenge record v.signCount persistError)
        (World.goalPc challenge goal)
  | enrolled {challenge : Text} {record : PasskeyRecord}
      (hnew : record.credentialId ∉ (w.store.forUser user).map PasskeyRecord.credentialId)
      (persistError : Option Text) (r : Option Refusal) :
      Advance P cfg w user (.registerAdd challenge record)
        (w.enrolling user challenge record persistError) (.finished r)
  | removed {credentialId : Text} {passwordOk : Bool} (persistError : Option Text)
      (r : Option Refusal) :
      Advance P cfg w user (.removeDrop credentialId passwordOk)
        (w.removing user credentialId passwordOk persistError) (.finished r)
  | dispatched (name : Text) (args : Value F) (authorisedBy : Option Text) :
      Advance P cfg w user (.dispatch name args authorisedBy)
        (w.log (.dispatched user name args (w.store.hasAny user) authorisedBy)) (.finished none)

namespace World

variable {w : World F} {user : Text}

theorem advance_refuse (pc : Pc F) (r : Refusal) :
    Advance P cfg w user pc (w.refuse r).1 (w.refuse r).2 :=
  .moved trivial

theorem advance_actionStart (pc : Pc F) (command : Text) (args : Value F) :
    Advance P cfg w user pc (w.actionStart user command args).1
      (w.actionStart user command args).2 := by
  unfold actionStart
  split
  · exact advance_refuse _ _
  · split
    · exact advance_refuse _ _
    · exact .moved trivial

theorem advance_registerStart (pc : Pc F) (header : Option Header) (password : Option Text) :
    Advance P cfg w user pc (w.registerStart cfg user header password).1
      (w.registerStart cfg user header password).2 := by
  unfold registerStart
  split
  · rcases header with _ | _ | _
    · exact advance_refuse _ _
    · exact advance_refuse _ _
    · exact .moved trivial
  · next hnone =>
      cases password with
      | none => exact advance_refuse _ _
      | some password =>
          dsimp only
          split
          · exact advance_refuse _ _
          · exact .moved (by simpa using hnone : w.store.hasAny user = false)

theorem advance_removeStart (pc : Pc F) (credentialId : Text) (header : Option Header)
    (password : Option Text) :
    Advance P cfg w user pc (w.removeStart cfg user credentialId header password).1
      (w.removeStart cfg user credentialId header password).2 := by
  unfold removeStart
  dsimp only
  split
  · exact advance_refuse _ _
  · cases password with
    | some password =>
        dsimp only
        split
        · exact advance_refuse _ _
        · exact .moved trivial
    | none =>
        dsimp only
        split
        · exact advance_refuse _ _
        · rcases header with _ | _ | _
          · exact advance_refuse _ _
          · exact advance_refuse _ _
          · exact .moved trivial

theorem advance_command (pc : Pc F) (session : SessionInfo) (name : Text)
    (args : Option (Value F)) (header : Option Header) :
    Advance P cfg w session.user pc (w.command cfg session name args header).1
      (w.command cfg session name args header).2 := by
  unfold command webauthnGate
  dsimp only
  split
  · exact advance_refuse _ _
  · split
    · split
      · exact advance_refuse _ _
      · split
        · next hnone =>
            split
            · exact advance_refuse _ _
            · next hrequire =>
                exact .moved fun _ => ⟨by simpa using hrequire, by simpa using hnone⟩
        · rcases header with _ | _ | _
          · exact advance_refuse _ _
          · exact advance_refuse _ _
          · exact .moved trivial
    · next hplain => exact .moved fun h => absurd h hplain

theorem advance_mint {pc : Pc F} {asked : Asked F} {chance : Chance} {next : Next F}
    (hpc : Mints pc asked) (h : w.mint P user asked chance = some next) :
    Advance P cfg w user pc next.1 next.2 := by
  unfold mint at h
  split at h
  · cases h; exact advance_refuse _ _
  · split at h
    · cases h
    · next hfresh => cases h; exact .minted _ hpc (by simpa using hfresh)

/-- A redeemed challenge was pending for this user and is not expired. -/
theorem advance_redeem {pc : Pc F} {clientData : Bytes}
    {next : Text → Purpose → Except Refusal (Pc F)}
    (hnext : ∀ challenge purpose pc', next challenge purpose = .ok pc' →
      Redeems P challenge purpose pc') :
    Advance P cfg w user pc (w.redeem P user clientData next).1
      (w.redeem P user clientData next).2 := by
  unfold redeem
  split
  · exact advance_refuse _ _
  · next challenge _ =>
      unfold PendingCeremonies.take
      cases hlookup : w.pending.lookup challenge with
      | none => exact .moved trivial
      | some pending =>
          by_cases hexpired : pending.expires ≤ w.now
          · simp only [if_pos hexpired]
            exact .dropped _ _
          by_cases huser : pending.user = user
          · simp only [if_neg hexpired, huser, ne_eq, not_true_eq_false, if_false]
            cases hres : next challenge pending.purpose with
            | error r =>
                exact .redeemed hlookup (Nat.lt_of_not_le hexpired) huser (.refused _ r)
            | ok pc' =>
                exact .redeemed hlookup (Nat.lt_of_not_le hexpired) huser (hnext _ _ _ hres)
          · simp only [if_neg hexpired, ne_eq, huser, not_false_eq_true, if_true]
            exact .dropped _ _

theorem redeems_registered {chance : Chance} {body : RegisterFinish} {challenge : Text}
    {purpose : Purpose} {pc : Pc F}
    (h : registered P cfg chance body challenge purpose = .ok pc) :
    Redeems P challenge purpose pc := by
  unfold registered at h
  split at h
  · cases h
  · split at h
    · cases h
    · split at h
      · cases h
      · cases h; exact .register _

theorem redeems_asserted {goal : Goal F} {envelope : AssertionEnvelope} {challenge : Text}
    {purpose : Purpose} {pc : Pc F} (h : asserted P goal envelope challenge purpose = .ok pc) :
    Redeems P challenge purpose pc := by
  unfold asserted at h
  split at h
  · cases h
  · split at h
    · cases h
    · split at h
      · cases h
      · next hcommand hargs =>
          cases h
          rw [not_not.mp hcommand, not_not.mp hargs]
          exact .action goal envelope

theorem advance_registerAdd (challenge : Text) (record : PasskeyRecord) (chance : Chance) :
    Advance P cfg w user (.registerAdd challenge record)
      (w.registerAdd user challenge record chance).1
      (w.registerAdd user challenge record chance).2 := by
  unfold registerAdd
  dsimp only
  split
  · exact .moved trivial
  · next hnew => exact .enrolled hnew _ _

theorem advance_removeDrop (credentialId : Text) (passwordOk : Bool) (chance : Chance) :
    Advance P cfg w user (.removeDrop credentialId passwordOk)
      (w.removeDrop user credentialId passwordOk chance).1
      (w.removeDrop user credentialId passwordOk chance).2 :=
  .removed _ _

theorem advance_assertLookup (goal : Goal F) (envelope : AssertionEnvelope) (challenge : Text) :
    Advance P cfg w user (.assertLookup goal envelope challenge)
      (w.assertLookup user goal envelope challenge).1
      (w.assertLookup user goal envelope challenge).2 := by
  unfold assertLookup
  split
  · exact advance_refuse _ _
  · next hfind => exact .found hfind

theorem advance_assertVerify (goal : Goal F) (envelope : AssertionEnvelope) (challenge : Text)
    (record : PasskeyRecord) (chance : Chance) :
    Advance P cfg w user (.assertVerify goal envelope challenge record)
      (w.assertVerify P cfg user goal envelope challenge record chance).1
      (w.assertVerify P cfg user goal envelope challenge record chance).2 := by
  unfold assertVerify
  split
  · exact advance_refuse _ _
  · next hverify => exact .verified hverify _

/-- Every locked section is one of the steps. -/
theorem advance_of_advancePc {session : SessionInfo} {pc : Pc F} {chance : Chance}
    {next : Next F} (h : w.advancePc P cfg session pc chance = some next) :
    Advance P cfg w session.user pc next.1 next.2 := by
  cases hstore : cfg.passkeysError with
  | some why =>
      cases pc <;> simp only [advancePc, hstore, Option.some.injEq, reduceCtorEq] at h
      case dispatch name args authorisedBy => exact h ▸ .dispatched name args authorisedBy
      case command name args header =>
          exact h ▸ advance_command _ session name args header
      all_goals exact h ▸ advance_refuse _ _
  | none =>
      cases pc with
      | actionStart command args =>
          simp only [advancePc, hstore, Option.some.injEq] at h
          exact h ▸ advance_actionStart _ command args
      | actionMint command args =>
          simp only [advancePc, hstore] at h
          exact advance_mint (.action command args) h
      | registerStart header password =>
          simp only [advancePc, hstore, Option.some.injEq] at h
          exact h ▸ advance_registerStart _ header password
      | registerMint authorisedBy =>
          simp only [advancePc, hstore] at h
          exact advance_mint (.register authorisedBy) h
      | registerFinish body =>
          cases body with
          | error message =>
              simp only [advancePc, hstore, Option.some.injEq] at h
              exact h ▸ advance_refuse _ _
          | ok body =>
              simp only [advancePc, hstore, Option.some.injEq] at h
              exact h ▸ advance_redeem fun _ _ _ => redeems_registered
      | registerAdd challenge record =>
          simp only [advancePc, hstore, Option.some.injEq] at h
          exact h ▸ advance_registerAdd challenge record chance
      | removeStart credentialId header password =>
          simp only [advancePc, hstore, Option.some.injEq] at h
          exact h ▸ advance_removeStart _ credentialId header password
      | removeDrop credentialId passwordOk =>
          simp only [advancePc, hstore, Option.some.injEq] at h
          exact h ▸ advance_removeDrop credentialId passwordOk chance
      | command name args header =>
          simp only [advancePc, Option.some.injEq] at h
          exact h ▸ advance_command _ session name args header
      | assertTake goal envelope =>
          simp only [advancePc, hstore, Option.some.injEq] at h
          exact h ▸ advance_redeem fun _ _ _ => redeems_asserted
      | assertLookup goal envelope challenge =>
          simp only [advancePc, hstore, Option.some.injEq] at h
          exact h ▸ advance_assertLookup goal envelope challenge
      | assertVerify goal envelope challenge record =>
          simp only [advancePc, hstore, Option.some.injEq] at h
          exact h ▸ advance_assertVerify goal envelope challenge record chance
      | dispatch name args authorisedBy =>
          simp only [advancePc, Option.some.injEq] at h
          exact h ▸ .dispatched name args authorisedBy
      | finished refusal => simp only [advancePc, reduceCtorEq] at h

/-- What one step of the console can do. -/
inductive Step (P : Platform F) (cfg : Config) (w : World F) : Action F → World F → Prop
  | tick (elapsed : Nat) : Step P cfg w (.tick elapsed) { w with now := w.now + elapsed }
  | request (thread : Nat) (session : SessionInfo) (pc : Pc F) (hentry : pc.isEntry = true)
      (hfree : w.threads thread = none) :
      Step P cfg w (.request thread session pc)
        { w with threads := Function.update w.threads thread (some ⟨session, pc⟩) }
  | advance (thread : Nat) (chance : Chance) {t : Thread F} {next : World F} {pc : Pc F}
      (hthread : w.threads thread = some t)
      (hnext : Advance P cfg w t.session.user t.pc next pc) :
      Step P cfg w (.advance thread chance) (next.setPc thread t pc)

theorem step_cases {a : Action F} {w' : World F} (h : w.step P cfg a = some w') :
    Step P cfg w a w' := by
  cases a with
  | tick elapsed => cases h; exact .tick elapsed
  | request thread session pc =>
      simp only [step] at h
      split at h
      · next hguard =>
          cases h
          simp only [Bool.and_eq_true, Option.isNone_iff_eq_none] at hguard
          exact .request thread session pc hguard.1 hguard.2
      · cases h
  | advance thread chance =>
      simp only [step] at h
      cases hthread : w.threads thread with
      | none => rw [hthread] at h; cases h
      | some t =>
          rw [hthread] at h
          cases hnext : w.advancePc P cfg t.session t.pc chance with
          | none => simp only [hnext, reduceCtorEq] at h
          | some next =>
              simp only [hnext, Option.some.injEq] at h
              exact h ▸ .advance thread chance hthread (advance_of_advancePc hnext)

end World

end Genaryx.Ceremony
