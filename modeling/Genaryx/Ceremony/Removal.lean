import Genaryx.Ceremony.Authorised

/-!
# What takes a passkey away

The route counts a user's passkeys before it asks for an authority, and the store counts them
again when it removes one. In every order of requests a passkey is dropped by a removal of its
own credential only, under the operator password or under an assertion over a challenge that was
minted for that removal, and the last one under the password.

## Implementation notes

What a removal was asked with is read off the actions of the run: a thread is started once, so
its request is the action that started it.
-/

namespace Genaryx.Ceremony

open Json Base

variable {F : Type} (P : Platform F) (cfg : Config) (initial : PasskeyStore)

/-- The request of a thread carried the password of the box's operator account. -/
def ByPassword (actions : List (Action F)) (i : Nat) (session : SessionInfo)
    (credentialId : Text) : Prop :=
  ∃ header password verify,
    Action.request i session (.removeStart credentialId header (some password)) ∈ actions ∧
      cfg.operator = some verify ∧ verify password = true

/-- The request of a thread carried an assertion of the user's over a challenge that was minted
for the removal of this credential. -/
structure ByAssertion (actions : List (Action F)) (trace : List (Event F)) (i : Nat)
    (session : SessionInfo) (credentialId : Text) (envelope : AssertionEnvelope)
    (challenge : Text) (record : PasskeyRecord) : Prop where
  requested : Action.request i session (.removeStart credentialId (some (.ok envelope)) none) ∈
    actions
  echoed : challengeOf P envelope.clientData = some challenge
  redeemed : RedeemedFor P trace challenge session.user (.remove credentialId)
  found : FoundFor initial trace challenge session.user record
  named : record.credentialId = envelope.credentialId
  verified : ∃ v stored, Event.verified challenge session.user record v.signCount stored ∈ trace ∧
    verifyAssertion P cfg.rp challenge record envelope.clientData envelope.authenticatorData
      envelope.signature = .ok v

/-- What authorised a removal that reaches the store. -/
def RemovalAuthorised (actions : List (Action F)) (trace : List (Event F)) (i : Nat)
    (session : SessionInfo) (credentialId : Text) : Bool → Prop
  | true => ByPassword cfg actions i session credentialId
  | false => ∃ envelope challenge record,
      ByAssertion P cfg initial actions trace i session credentialId envelope challenge record

/-- Where a removal stands, against what it was asked with. -/
def Pc.Traced (actions : List (Action F)) (trace : List (Event F)) (i : Nat)
    (session : SessionInfo) : Pc F → Prop
  | .removeStart credentialId header password =>
      Action.request i session (.removeStart credentialId header password) ∈ actions
  | .assertTake (.remove credentialId) envelope =>
      Action.request i session (.removeStart credentialId (some (.ok envelope)) none) ∈ actions
  | .assertLookup (.remove credentialId) envelope challenge =>
      Action.request i session (.removeStart credentialId (some (.ok envelope)) none) ∈ actions ∧
        challengeOf P envelope.clientData = some challenge
  | .assertVerify (.remove credentialId) envelope challenge record =>
      (Action.request i session (.removeStart credentialId (some (.ok envelope)) none) ∈ actions ∧
        challengeOf P envelope.clientData = some challenge) ∧
          record.credentialId = envelope.credentialId
  | .removeDrop credentialId passwordOk =>
      RemovalAuthorised P cfg initial actions trace i session credentialId passwordOk
  | _ => True

variable {P cfg initial}

/-- A password that the box accepts is the one of its operator account. -/
theorem operatorPasswordOk_ok {password : Text} (h : operatorPasswordOk cfg password = .ok ()) :
    ∃ verify, cfg.operator = some verify ∧ verify password = true := by
  unfold operatorPasswordOk at h
  split at h
  · cases h
  · next verify hoperator =>
      split at h
      · next hverify => exact ⟨verify, hoperator, hverify⟩
      · cases h

theorem RemovalAuthorised.mono {actions actions' : List (Action F)}
    {trace trace' : List (Event F)} {i : Nat} {session : SessionInfo} {credentialId : Text}
    {passwordOk : Bool} (hactions : actions ⊆ actions') (htrace : trace <:+ trace')
    (h : RemovalAuthorised P cfg initial actions trace i session credentialId passwordOk) :
    RemovalAuthorised P cfg initial actions' trace' i session credentialId passwordOk := by
  cases passwordOk with
  | true =>
      obtain ⟨header, password, verify, hmem, hok⟩ := h
      exact ⟨header, password, verify, hactions hmem, hok⟩
  | false =>
      obtain ⟨envelope, challenge, record, h⟩ := h
      obtain ⟨v, stored, hmem, hverify⟩ := h.verified
      exact ⟨envelope, challenge, record, hactions h.requested, h.echoed, h.redeemed.mono htrace,
        h.found.mono htrace, h.named, v, stored, htrace.subset hmem, hverify⟩

theorem Pc.Traced.mono {actions actions' : List (Action F)} {trace trace' : List (Event F)}
    {i : Nat} {session : SessionInfo} {pc : Pc F} (hactions : actions ⊆ actions')
    (htrace : trace <:+ trace') (h : pc.Traced P cfg initial actions trace i session) :
    pc.Traced P cfg initial actions' trace' i session := by
  cases pc with
  | removeStart credentialId header password => exact hactions h
  | assertTake goal envelope =>
      cases goal with
      | remove credentialId => exact hactions h
      | _ => trivial
  | assertLookup goal envelope challenge =>
      cases goal with
      | remove credentialId => exact ⟨hactions h.1, h.2⟩
      | _ => trivial
  | assertVerify goal envelope challenge record =>
      cases goal with
      | remove credentialId => exact ⟨⟨hactions h.1.1, h.1.2⟩, h.2⟩
      | _ => trivial
  | removeDrop credentialId passwordOk => exact RemovalAuthorised.mono hactions htrace h
  | _ => trivial

/-- A step only adds to the trace. -/
theorem Advance.trace_suffix {w next : World F} {user : Text} {pc pc' : Pc F}
    (h : Advance P cfg w user pc next pc') : w.trace <:+ next.trace := by
  cases h with
  | moved | dropped | found => exact List.suffix_rfl
  | @verified goal envelope challenge record v hverify persistError =>
      rw [(World.verifying_fields w user challenge record v.signCount persistError).1]
      exact List.suffix_cons _ _
  | removed persistError r =>
      dsimp only [World.removing]
      split
      · exact List.suffix_cons _ _
      · exact List.suffix_rfl
  | _ => exact List.suffix_cons _ _

namespace World

variable {w : World F} {actions : List (Action F)} {i : Nat} {session : SessionInfo}

theorem traced_actionStart (user command : Text) (args : Value F) (trace : List (Event F)) :
    (w.actionStart user command args).2.Traced P cfg initial actions trace i session := by
  unfold actionStart
  split
  · trivial
  · split <;> trivial

theorem traced_registerStart (user : Text) (header : Option Header) (password : Option Text)
    (trace : List (Event F)) :
    (w.registerStart cfg user header password).2.Traced P cfg initial actions trace i
      session := by
  unfold registerStart
  split
  · rcases header with _ | _ | _ <;> trivial
  · cases password with
    | none => trivial
    | some password =>
        dsimp only
        split <;> trivial

theorem traced_command (name : Text) (args : Option (Value F)) (header : Option Header)
    (trace : List (Event F)) :
    (w.command cfg session name args header).2.Traced P cfg initial actions trace i session := by
  unfold command webauthnGate
  dsimp only
  split
  · trivial
  · split
    · split
      · trivial
      · split
        · split <;> trivial
        · rcases header with _ | _ | _ <;> trivial
    · trivial

theorem traced_removeStart {credentialId : Text} {header : Option Header}
    {password : Option Text} {trace : List (Event F)}
    (h : Action.request i session (.removeStart credentialId header password) ∈ actions) :
    (w.removeStart cfg session.user credentialId header password).2.Traced P cfg initial actions
      trace i session := by
  unfold removeStart
  dsimp only
  split
  · trivial
  · cases password with
    | some password =>
        dsimp only
        split
        · trivial
        · next hok =>
            obtain ⟨verify, hverify⟩ := operatorPasswordOk_ok hok
            exact ⟨header, password, verify, h, hverify⟩
    | none =>
        dsimp only
        split
        · trivial
        · rcases header with _ | _ | envelope
          · trivial
          · trivial
          · exact h

theorem traced_mint {user : Text} {asked : Asked F} {chance : Chance} {next : Next F}
    {trace : List (Event F)} (h : w.mint P user asked chance = some next) :
    next.2.Traced P cfg initial actions trace i session := by
  unfold mint at h
  split at h
  · cases h; trivial
  · split at h
    · cases h
    · cases h; trivial

/-- A redeemed challenge is the one that the client data echoes. -/
theorem traced_redeem {user : Text} {clientData : Bytes}
    {next : Text → Purpose → Except Refusal (Pc F)} {trace : List (Event F)}
    (hnext : ∀ challenge purpose pc', challengeOf P clientData = some challenge →
      next challenge purpose = .ok pc' → pc'.Traced P cfg initial actions trace i session) :
    (w.redeem P user clientData next).2.Traced P cfg initial actions trace i session := by
  unfold redeem
  split
  · trivial
  · next challenge hchallenge =>
      split
      · trivial
      · next purpose _ _ =>
          split
          · trivial
          · next pc hpc => exact hnext challenge purpose pc hchallenge hpc

theorem traced_registered {chance : Chance} {body : RegisterFinish} {challenge : Text}
    {purpose : Purpose} {pc : Pc F} {trace : List (Event F)}
    (h : registered P cfg chance body challenge purpose = .ok pc) :
    pc.Traced P cfg initial actions trace i session := by
  generalize hpurpose : purpose = p at h
  cases redeems_registered h with
  | refused purpose r => trivial
  | register record => trivial
  | action goal envelope =>
      subst hpurpose
      cases h

theorem traced_asserted {goal : Goal F} {envelope : AssertionEnvelope} {challenge : Text}
    {purpose : Purpose} {pc : Pc F} {trace : List (Event F)}
    (ht : (Pc.assertTake goal envelope).Traced P cfg initial actions trace i session)
    (hchallenge : challengeOf P envelope.clientData = some challenge)
    (h : asserted P goal envelope challenge purpose = .ok pc) :
    pc.Traced P cfg initial actions trace i session := by
  unfold asserted at h
  split at h
  · cases h
  · split at h
    · cases h
    · split at h
      · cases h
      · cases h
        cases goal with
        | remove credentialId => exact ⟨ht, hchallenge⟩
        | _ => trivial

theorem traced_assertLookup {goal : Goal F} {envelope : AssertionEnvelope} {challenge : Text}
    {trace : List (Event F)}
    (h : (Pc.assertLookup goal envelope challenge).Traced P cfg initial actions trace i
      session) :
    (w.assertLookup session.user goal envelope challenge).2.Traced P cfg initial actions trace i
      session := by
  unfold assertLookup
  split
  · trivial
  · next record hfind =>
      cases goal with
      | remove credentialId => exact ⟨h, (PasskeyStore.mem_of_find hfind).2⟩
      | _ => trivial

/-- An accepted assertion authorises the removal that its challenge was minted for. -/
theorem traced_assertVerify {goal : Goal F} {envelope : AssertionEnvelope} {challenge : Text}
    {record : PasskeyRecord} {chance : Chance}
    (hbacked : Backed P cfg initial w.trace session.user
      (.assertVerify goal envelope challenge record))
    (h : (Pc.assertVerify goal envelope challenge record).Traced P cfg initial actions w.trace i
      session) :
    (w.assertVerify P cfg session.user goal envelope challenge record chance).2.Traced P cfg
      initial actions
      (w.assertVerify P cfg session.user goal envelope challenge record chance).1.trace i
      session := by
  unfold assertVerify
  split
  · trivial
  · next v hverify =>
      cases goal with
      | remove credentialId =>
          have htrace := (verifying_fields w session.user challenge record v.signCount
            chance.persistError).1
          have hsub : w.trace <:+ (w.verifying session.user challenge record v.signCount
              chance.persistError).trace := htrace ▸ List.suffix_cons _ _
          exact ⟨envelope, challenge, record, h.1.1, h.1.2, hbacked.1.mono hsub,
            hbacked.2.mono hsub, h.2, v, _, htrace ▸ List.mem_cons_self, hverify⟩
      | _ => trivial

/-- Every locked section leaves its thread traced to what it was asked with. -/
theorem traced_advancePc {pc : Pc F} {chance : Chance} {next : Next F}
    (hbacked : Backed P cfg initial w.trace session.user pc)
    (htraced : pc.Traced P cfg initial actions w.trace i session)
    (h : w.advancePc P cfg session pc chance = some next) :
    next.2.Traced P cfg initial actions next.1.trace i session := by
  have hnow := htraced.mono (List.Subset.refl _) (advance_of_advancePc h).trace_suffix
  cases hstore : cfg.passkeysError with
  | some why =>
      cases pc <;> simp only [advancePc, hstore, Option.some.injEq, reduceCtorEq] at h
      case command name args header => exact h ▸ traced_command name args header _
      all_goals exact h ▸ trivial
  | none =>
      cases pc with
      | actionStart command args =>
          simp only [advancePc, hstore, Option.some.injEq] at h
          exact h ▸ traced_actionStart _ command args _
      | actionMint command args =>
          simp only [advancePc, hstore] at h
          exact traced_mint h
      | registerStart header password =>
          simp only [advancePc, hstore, Option.some.injEq] at h
          exact h ▸ traced_registerStart _ header password _
      | registerMint authorisedBy =>
          simp only [advancePc, hstore] at h
          exact traced_mint h
      | registerFinish body =>
          cases body with
          | error message =>
              simp only [advancePc, hstore, Option.some.injEq] at h
              exact h ▸ trivial
          | ok body =>
              simp only [advancePc, hstore, Option.some.injEq] at h
              exact h ▸ traced_redeem fun _ _ _ _ => traced_registered
      | registerAdd challenge record =>
          simp only [advancePc, hstore, Option.some.injEq] at h
          subst h
          unfold registerAdd
          dsimp only
          split <;> trivial
      | removeStart credentialId header password =>
          simp only [advancePc, hstore, Option.some.injEq] at h
          exact h ▸ traced_removeStart htraced
      | removeDrop credentialId passwordOk =>
          simp only [advancePc, hstore, Option.some.injEq] at h
          exact h ▸ trivial
      | command name args header =>
          simp only [advancePc, Option.some.injEq] at h
          exact h ▸ traced_command name args header _
      | assertTake goal envelope =>
          simp only [advancePc, hstore, Option.some.injEq] at h
          subst h
          exact traced_redeem fun _ _ _ hchallenge hpc => traced_asserted hnow hchallenge hpc
      | assertLookup goal envelope challenge =>
          simp only [advancePc, hstore, Option.some.injEq] at h
          subst h
          exact traced_assertLookup hnow
      | assertVerify goal envelope challenge record =>
          simp only [advancePc, hstore, Option.some.injEq] at h
          exact h ▸ traced_assertVerify hbacked htraced
      | dispatch name args authorisedBy =>
          simp only [advancePc, Option.some.injEq] at h
          exact h ▸ trivial
      | finished refusal => simp only [advancePc, reduceCtorEq] at h

end World

/-- A thread that starts stands where its request puts it. -/
theorem traced_of_isEntry {actions : List (Action F)} {trace : List (Event F)} {i : Nat}
    {session : SessionInfo} {pc : Pc F} (hentry : pc.isEntry = true)
    (h : Action.request i session pc ∈ actions) :
    pc.Traced P cfg initial actions trace i session := by
  cases pc <;> first | exact h | trivial

/-- In every run each thread stands where what it was asked with leads to. -/
theorem traced_run {store : PasskeyStore} {actions : List (Action F)} {w : World F}
    (hrun : Transition.run (World.step P cfg) (World.start store) actions = some w) :
    ∀ i t, w.threads i = some t → t.pc.Traced P cfg store actions w.trace i t.session := by
  refine Transition.run_invariant_history
    (I := fun actions (w : World F) =>
      ∀ i t, w.threads i = some t → t.pc.Traced P cfg store actions w.trace i t.session)
    (fun i t ht => by cases ht) (fun before a w w' hbefore h hstep i t ht => ?_) hrun
  have hactions : before ⊆ before ++ [a] := List.subset_append_left _ _
  have hsound := Sound.of_run hbefore
  cases a with
  | tick elapsed =>
      cases hstep
      exact (h i t ht).mono hactions List.suffix_rfl
  | request thread session pc =>
      simp only [World.step] at hstep
      split at hstep
      · next hguard =>
          cases hstep
          dsimp only at ht
          by_cases hi : i = thread
          · subst hi
            rw [Function.update_self] at ht
            cases ht
            exact traced_of_isEntry ((Bool.and_eq_true _ _).mp hguard).1 (by simp)
          · rw [Function.update_of_ne hi] at ht
            exact (h i t ht).mono hactions List.suffix_rfl
      · cases hstep
  | advance thread chance =>
      simp only [World.step] at hstep
      cases hthread : w.threads thread with
      | none => rw [hthread] at hstep; cases hstep
      | some u =>
          rw [hthread] at hstep
          cases hnext : w.advancePc P cfg u.session u.pc chance with
          | none => simp only [hnext, reduceCtorEq] at hstep
          | some next =>
              simp only [hnext, Option.some.injEq] at hstep
              subst hstep
              have hadvance := World.advance_of_advancePc hnext
              rw [World.setPc_threads, hadvance.threads_eq] at ht
              rw [World.setPc_trace]
              by_cases hi : i = thread
              · subst hi
                rw [Function.update_self] at ht
                cases ht
                exact (World.traced_advancePc (hsound.threads.backed i u hthread)
                  (h i u hthread) hnext).mono hactions List.suffix_rfl
              · rw [Function.update_of_ne hi] at ht
                exact (h i t ht).mono hactions hadvance.trace_suffix

/-- A removal leaves every passkey but the one it names. -/
theorem PasskeyStore.mem_remove_of_ne {s : PasskeyStore} {persistError : Option Text}
    {user owner credentialId : Text} {allowLast : Bool} {r : PasskeyRecord}
    (hr : r ∈ s.forUser owner) (hne : ¬ (owner = user ∧ r.credentialId = credentialId)) :
    r ∈ (s.remove persistError user credentialId allowLast).2.forUser owner := by
  rw [PasskeyStore.remove]
  split
  · exact hr
  · split
    · exact hr
    · dsimp only
      by_cases howner : owner = user
      · subst howner
        rw [Function.update_self]
        exact (List.mem_eraseP_of_neg (by simpa using fun hid => hne ⟨rfl, hid⟩)).mpr hr
      · rw [Function.update_of_ne howner]
        exact hr

/-- A removal that leaves a user without a passkey is one that may. -/
theorem PasskeyStore.allowLast_of_remove {s : PasskeyStore} {persistError : Option Text}
    {user credentialId : Text} {allowLast : Bool} (hany : s.forUser user ≠ [])
    (hnone : (s.remove persistError user credentialId allowLast).2.forUser user = []) :
    allowLast = true := by
  rw [PasskeyStore.remove] at hnone
  split at hnone
  · exact absurd hnone hany
  · next hmem =>
      split at hnone
      · exact absurd hnone hany
      · next hlast =>
          dsimp only at hnone
          rw [Function.update_self] at hnone
          obtain ⟨r, hr, hid⟩ := List.mem_map.mp (not_not.mp hmem)
          have hlength := List.length_eraseP_of_mem (p := fun q => decide (q.credentialId =
            credentialId)) hr (by simpa using hid)
          rw [hnone, List.length_nil] at hlength
          have hpos := List.length_pos_of_mem hr
          exact Bool.not_eq_false _ ▸ fun hfalse => hlast ⟨by omega, hfalse⟩

/-- A step that drops a user's credential is the removal of that credential. -/
theorem Advance.removes_of_dropped {w next : World F} {user owner : Text} {pc pc' : Pc F}
    {r : PasskeyRecord} (h : Advance P cfg w user pc next pc') (hr : r ∈ w.store.forUser owner)
    (hgone : r.credentialId ∉ (next.store.forUser owner).map PasskeyRecord.credentialId) :
    owner = user ∧ ∃ passwordOk persistError, pc = .removeDrop r.credentialId passwordOk ∧
      next.store = (w.store.remove persistError user r.credentialId passwordOk).2 := by
  cases h with
  | @verified goal envelope challenge record v hverify persistError =>
      rw [(World.verifying_fields w user challenge record v.signCount persistError).2.2.1] at hgone
      refine absurd ?_ hgone
      by_cases howner : owner = user
      · subst howner
        simp only [PasskeyStore.updateSignCount, Function.update_self,
          PasskeyStore.map_credentialId_withCount]
        exact List.mem_map_of_mem hr
      · simp only [PasskeyStore.updateSignCount, Function.update_of_ne howner]
        exact List.mem_map_of_mem hr
  | @enrolled challenge record hnew persistError r' =>
      refine absurd ?_ hgone
      rw [World.enrolling, World.raise]
      dsimp only
      rw [PasskeyStore.add, dif_neg hnew]
      dsimp only
      by_cases howner : owner = user
      · subst howner
        rw [Function.update_self]
        exact List.mem_map_of_mem (List.mem_append_left _ hr)
      · rw [Function.update_of_ne howner]
        exact List.mem_map_of_mem hr
  | @removed credentialId passwordOk persistError refusal =>
      by_cases hthis : owner = user ∧ r.credentialId = credentialId
      · obtain ⟨rfl, rfl⟩ := hthis
        exact ⟨rfl, passwordOk, persistError, rfl, rfl⟩
      · exact absurd (List.mem_map_of_mem (PasskeyStore.mem_remove_of_ne hr hthis)) hgone
  | _ => exact absurd (List.mem_map_of_mem hr) hgone

/-- A challenge is minted once. -/
theorem Ledger.minted_inj {trace : List (Event F)} (h : Ledger P cfg initial trace)
    {challenge user user' : Text} {asked asked' : Asked F} {expires expires' : Nat}
    (hmem : Event.minted challenge user asked expires ∈ trace)
    (hmem' : Event.minted challenge user' asked' expires' ∈ trace) : asked = asked' := by
  induction trace with
  | nil => cases hmem
  | cons e older ih =>
      rcases List.mem_cons.mp hmem with rfl | hold
      · rcases List.mem_cons.mp hmem' with heq | hold'
        · cases heq
          rfl
        · exact absurd hold' (h.1.1 _ _ _)
      · rcases List.mem_cons.mp hmem' with rfl | hold'
        · exact absurd hold (h.1.1 _ _ _)
        · exact ih h.2 hold hold'

variable (P cfg initial) in
/-- What a step that takes passkeys away is, after these actions: the removal of the one
credential it drops, authorised for it, and by the password where no passkey is left. -/
structure FallsToPassword (actions : List (Action F)) (w w' : World F) (a : Action F) :
    Prop where
  exact : ∀ user r, r ∈ w.store.forUser user →
    r.credentialId ∉ (w'.store.forUser user).map PasskeyRecord.credentialId →
      ∃ i chance session passwordOk, a = .advance i chance ∧ session.user = user ∧
        w.threads i = some ⟨session, .removeDrop r.credentialId passwordOk⟩ ∧
          RemovalAuthorised P cfg initial actions w.trace i session r.credentialId passwordOk
  last : ∀ user, w.store.hasAny user = true → w'.store.hasAny user = false →
    ∃ i chance session credentialId, a = .advance i chance ∧ session.user = user ∧
      w.threads i = some ⟨session, .removeDrop credentialId true⟩ ∧
        ByPassword cfg actions i session credentialId
  confirmed : ∀ i session credentialId envelope challenge record,
    ByAssertion P cfg initial actions w.trace i session credentialId envelope challenge record →
    Set.InjOn P.sha256 (insert (encodedArgs P (Goal.remove credentialId : Goal F).args)
      (mintedArgs P w.trace)) →
    (Function.Injective fun id => canonicalArgs P (Goal.remove id : Goal F).args) →
      ∀ other user expires, Event.minted challenge user
        (.action removePasskeyCeremony (Goal.remove other : Goal F).args) expires ∈ w.trace →
          other = credentialId

/-- In every order of requests the last passkey falls to the password only, and an assertion
removes the credential that it was made for. -/
theorem last_passkey_falls_to_password {store : PasskeyStore} {actions : List (Action F)}
    {w w' : World F} {a : Action F}
    (hrun : Transition.run (World.step P cfg) (World.start store) actions = some w)
    (hstep : w.step P cfg a = some w') : FallsToPassword P cfg store actions w w' a := by
  have hsound := Sound.of_run hrun
  have hremoval : ∀ user r, r ∈ w.store.forUser user →
      r.credentialId ∉ (w'.store.forUser user).map PasskeyRecord.credentialId →
      ∃ i chance session passwordOk persistError, a = .advance i chance ∧ session.user = user ∧
        w.threads i = some ⟨session, .removeDrop r.credentialId passwordOk⟩ ∧
          w'.store = (w.store.remove persistError user r.credentialId passwordOk).2 := by
    intro user r hr hgone
    cases World.step_cases hstep with
    | tick elapsed => exact absurd (List.mem_map_of_mem hr) hgone
    | request thread session pc hentry hfree => exact absurd (List.mem_map_of_mem hr) hgone
    | @advance i chance t next pc hthread hnext =>
        rw [World.setPc_store] at hgone
        obtain ⟨howner, passwordOk, persistError, hpc, hstore⟩ :=
          hnext.removes_of_dropped hr hgone
        obtain ⟨session, at_⟩ := t
        subst hpc howner
        exact ⟨i, chance, session, passwordOk, persistError, rfl, rfl, hthread, hstore⟩
  refine ⟨fun user r hr hgone => ?_, fun user hany hnone => ?_, ?_⟩
  · obtain ⟨i, chance, session, passwordOk, -, ha, huser, hthread, -⟩ := hremoval user r hr hgone
    exact ⟨i, chance, session, passwordOk, ha, huser, hthread, traced_run hrun i _ hthread⟩
  · have hempty := hasAny_eq_false_iff.mp hnone
    cases hkeys : w.store.forUser user with
    | nil =>
        rw [PasskeyStore.hasAny, hkeys] at hany
        cases hany
    | cons r rest =>
        have hr : r ∈ w.store.forUser user := hkeys ▸ List.mem_cons_self
        obtain ⟨i, chance, session, passwordOk, persistError, ha, huser, hthread, hstore⟩ :=
          hremoval user r hr (by simp [List.eq_nil_iff_forall_not_mem.mpr hempty])
        have hok : passwordOk = true := PasskeyStore.allowLast_of_remove (List.ne_nil_of_mem hr)
          (hstore ▸ List.eq_nil_iff_forall_not_mem.mpr hempty)
        subst hok
        exact ⟨i, chance, session, r.credentialId, ha, huser, hthread,
          traced_run hrun i _ hthread⟩
  · intro i session credentialId envelope challenge record h hsha hargs other user expires hmem
    obtain ⟨before, args, expires', at_, hredeemed, -, hminted, hhash, -⟩ := h.redeemed
    have hold : Event.minted challenge session.user (.action removePasskeyCeremony args) expires' ∈
        w.trace := hredeemed.subset (List.mem_cons_of_mem _ hminted)
    have hsame := hsound.ledger.minted_inj hmem hold
    injection hsame with _ hgoal
    subst hgoal
    exact hargs (canonicalArgs_inj hsha ⟨_, _, _, _, _, hmem, rfl⟩ hhash)

section Sample

/-- The user of the sample passkey asks for its removal with the password. -/
def lastRemoval : List (Action Unit) :=
  [.request 0 sampleSession (.removeStart "key-a" none (some "hunter2")),
    .advance 0 (sampleChance "c0")]

def removalBody : Text := "\x7b\"credential_id\":\"key-a\"\x7d"

def removalHash : Bytes :=
  [0x75, 0xbe, 0xaf, 0x8c, 0xc6, 0x7a, 0xfa, 0xd0, 0xc0, 0xf1, 0x79, 0x59, 0xa9, 0x64,
    0x7c, 0x6b, 0x4b, 0xbb, 0x48, 0x2c, 0xad, 0x4e, 0xbf, 0x90, 0x90, 0x77, 0xff, 0x5b,
    0xe3, 0x35, 0x05, 0xfc]

/-- The sample platform over the arguments of one removal. -/
def removalPlatform : Platform Unit :=
  { samplePlatform with
    toText := fun _ => removalBody
    sha256 := fun bytes =>
      if bytes = Utf8.encode removalBody then removalHash else samplePlatform.sha256 bytes }

/-- One operator with two passkeys. -/
def pairStore : PasskeyStore :=
  (sampleStore.add none "ops" ⟨"key-b", "BHgy", 0, "2026-09-02T10:00:00+00:00", "phone"⟩).2

/-- The user of the two passkeys confirms with one that it be removed. -/
def confirmedRemoval : List (Action Unit) :=
  [.request 0 sampleSession
      (.actionStart removePasskeyCeremony (.object [("credential_id", .string "key-a")])),
    .advance 0 (sampleChance "c0"), .advance 0 (sampleChance "c0"),
    .request 1 sampleSession (.removeStart "key-a" (some (.ok (sampleEnvelope "c0" 6))) none),
    .advance 1 (sampleChance "c1"), .advance 1 (sampleChance "c1"),
    .advance 1 (sampleChance "c1"), .advance 1 (sampleChance "c1")]

end Sample

set_option maxRecDepth 4000 in
theorem last_passkey_falls_to_password_sample :
    (∃ w w', Transition.run (World.step samplePlatform sampleConfig) (World.start sampleStore)
        lastRemoval = some w ∧
      w.step samplePlatform sampleConfig (.advance 0 (sampleChance "c0")) = some w' ∧
      w.store.hasAny "ops" = true ∧ w'.store.hasAny "ops" = false ∧
        FallsToPassword samplePlatform sampleConfig sampleStore lastRemoval w w'
          (.advance 0 (sampleChance "c0"))) ∧
    ∃ w w', Transition.run (World.step removalPlatform sampleConfig) (World.start pairStore)
        confirmedRemoval = some w ∧
      w.step removalPlatform sampleConfig (.advance 1 (sampleChance "c1")) = some w' ∧
      (w.store.forUser "ops").map PasskeyRecord.credentialId = ["key-a", "key-b"] ∧
      (w'.store.forUser "ops").map PasskeyRecord.credentialId = ["key-b"] ∧
        FallsToPassword removalPlatform sampleConfig pairStore confirmedRemoval w w'
          (.advance 1 (sampleChance "c1")) := by
  constructor
  · obtain ⟨w, w', hrun, hstep, hany, hnone⟩ : ∃ w w',
        Transition.run (World.step samplePlatform sampleConfig) (World.start sampleStore)
          lastRemoval = some w ∧
        w.step samplePlatform sampleConfig (.advance 0 (sampleChance "c0")) = some w' ∧
        w.store.hasAny "ops" = true ∧ w'.store.hasAny "ops" = false :=
      ⟨_, _, rfl, rfl, by decide, by decide⟩
    exact ⟨w, w', hrun, hstep, hany, hnone, last_passkey_falls_to_password hrun hstep⟩
  · obtain ⟨w, w', hrun, hstep, hboth, hone⟩ : ∃ w w',
        Transition.run (World.step removalPlatform sampleConfig) (World.start pairStore)
          confirmedRemoval = some w ∧
        w.step removalPlatform sampleConfig (.advance 1 (sampleChance "c1")) = some w' ∧
        (w.store.forUser "ops").map PasskeyRecord.credentialId = ["key-a", "key-b"] ∧
        (w'.store.forUser "ops").map PasskeyRecord.credentialId = ["key-b"] :=
      ⟨_, _, rfl, rfl, rfl, rfl⟩
    exact ⟨w, w', hrun, hstep, hboth, hone, last_passkey_falls_to_password hrun hstep⟩

end Genaryx.Ceremony
