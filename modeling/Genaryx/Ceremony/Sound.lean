import Genaryx.Ceremony.Ledger

/-!
# Every step keeps the ledger

The pending table, the passkey store and the threads stay sound for the trace, so every run
of the console has a trace whose events explain each other.
-/

namespace Genaryx.Ceremony

open Json Base

variable {F : Type} (P : Platform F) (cfg : Config) (initial : PasskeyStore)

/-- Each pending challenge was minted for what the table says, and is not redeemed yet. -/
def PendingSound (trace : List (Event F)) (pending : PendingCeremonies) : Prop :=
  ∀ challenge p, pending.lookup challenge = some p →
    (∃ asked, Event.minted challenge p.user asked p.expires ∈ trace ∧
      asked.purpose P = p.purpose) ∧ ¬ Redeemed trace challenge

/-- Each stored passkey is enrolled by the trace. -/
def StoreSound (trace : List (Event F)) (store : PasskeyStore) : Prop :=
  ∀ user, ∀ r ∈ store.forUser user, Enrolled initial trace user r

/-- The world agrees with its trace. -/
structure Sound (w : World F) : Prop where
  ledger : Ledger P cfg initial w.trace
  pending : PendingSound P w.trace w.pending
  store : StoreSound initial w.trace w.store
  threads : ThreadsSound P cfg initial w.trace w.threads

variable {P cfg initial} {trace : List (Event F)} {pending : PendingCeremonies}

theorem not_redeemed_cons {e : Event F} {challenge : Text}
    (he : ∀ user at_, e ≠ .redeemed challenge user at_) (h : ¬ Redeemed trace challenge) :
    ¬ Redeemed (e :: trace) challenge := by
  rintro ⟨user, at_, hmem⟩
  rcases List.mem_cons.mp hmem with heq | hmem
  · exact he user at_ heq.symm
  · exact h ⟨user, at_, hmem⟩

theorem not_spent_cons {e : Event F} {challenge : Text}
    (he : ∀ user name args hasPasskey,
      e ≠ .dispatched user name args hasPasskey (some challenge)) (h : ¬ Spent trace challenge) :
    ¬ Spent (e :: trace) challenge := by
  rintro ⟨user, name, args, hasPasskey, hmem⟩
  rcases List.mem_cons.mp hmem with heq | hmem
  · exact he user name args hasPasskey heq.symm
  · exact h ⟨user, name, args, hasPasskey, hmem⟩

/-- A redeemed challenge was minted. -/
theorem Ledger.minted_of_redeemed (h : Ledger P cfg initial trace) {challenge : Text}
    (hredeemed : Redeemed trace challenge) :
    ∃ user asked expires, Event.minted challenge user asked expires ∈ trace := by
  obtain ⟨user, at_, hmem⟩ := hredeemed
  obtain ⟨newer, older, rfl⟩ := List.append_of_mem hmem
  obtain ⟨-, asked, expires, hminted, -⟩ := h.explained
  exact ⟨user, asked, expires, List.mem_append_right _ (List.mem_cons_of_mem _ hminted)⟩

/-- A challenge that authorised a dispatch was redeemed. -/
theorem Ledger.redeemed_of_spent (h : Ledger P cfg initial trace) {challenge : Text}
    (hspent : Spent trace challenge) : Redeemed trace challenge := by
  obtain ⟨user, name, args, hasPasskey, hmem⟩ := hspent
  obtain ⟨newer, older, rfl⟩ := List.append_of_mem hmem
  exact h.explained.1.1.redeemed.mono
    ((List.suffix_cons _ _).trans (List.suffix_append newer _))

theorem mintedBefore_eq_false_iff {w : World F} {challenge : Text} :
    w.mintedBefore challenge = false ↔
      ∀ user asked expires, Event.minted challenge user asked expires ∉ w.trace := by
  simp only [World.mintedBefore, List.any_eq_false]
  constructor
  · intro h user asked expires hmem
    simpa using h _ hmem
  · intro h e hmem
    cases e with
    | minted c user asked expires =>
        simp only [decide_eq_true_eq]
        rintro rfl
        exact h user asked expires hmem
    | _ => exact Bool.false_ne_true

theorem PendingSound.cons (h : PendingSound P trace pending) {e : Event F}
    (he : ∀ challenge user at_, e ≠ .redeemed challenge user at_) :
    PendingSound P (e :: trace) pending := by
  intro challenge p hlookup
  obtain ⟨⟨asked, hminted, hpurpose⟩, hnot⟩ := h challenge p hlookup
  exact ⟨⟨asked, List.mem_cons_of_mem _ hminted, hpurpose⟩, not_redeemed_cons (he challenge) hnot⟩

theorem PendingSound.erase (h : PendingSound P trace pending) (challenge : Text) :
    PendingSound P trace (pending.erase challenge) :=
  fun c p hlookup => h c p (PendingCeremonies.lookup_of_lookup_erase hlookup)

theorem PendingSound.redeem (h : PendingSound P trace pending) (challenge user : Text)
    (at_ : Nat) :
    PendingSound P (.redeemed challenge user at_ :: trace) (pending.erase challenge) := by
  intro c p hlookup
  have hc : c ≠ challenge := by
    rintro rfl
    rw [AList.lookup_erase] at hlookup
    cases hlookup
  obtain ⟨⟨asked, hminted, hpurpose⟩, hnot⟩ := h.erase challenge c p hlookup
  refine ⟨⟨asked, List.mem_cons_of_mem _ hminted, hpurpose⟩, not_redeemed_cons ?_ hnot⟩
  rintro user at_ ⟨⟩
  exact hc rfl

theorem PendingSound.mint (h : PendingSound P trace pending) {challenge : Text}
    (hnot : ¬ Redeemed trace challenge) (now : Nat) (user : Text) (asked : Asked F) :
    PendingSound P (.minted challenge user asked (now + ceremonyTtl) :: trace)
      (pending.mint now user (asked.purpose P) challenge) := by
  intro c p hlookup
  rw [PendingCeremonies.mint] at hlookup
  by_cases hc : c = challenge
  · subst hc
    rw [AList.lookup_insert] at hlookup
    cases hlookup
    exact ⟨⟨asked, List.mem_cons_self, rfl⟩, not_redeemed_cons (by simp) hnot⟩
  · rw [AList.lookup_insert_ne hc] at hlookup
    exact h.cons (by simp) c p (PendingCeremonies.lookup_of_lookup_retain hlookup)

theorem threadsSound_request {threads : Nat → Option (Thread F)}
    (h : ThreadsSound P cfg initial trace threads) {i : Nat} {t : Thread F}
    (hbacked : Backed P cfg initial trace t.session.user t.pc) (hholds : t.pc.holds = none) :
    ThreadsSound P cfg initial trace (Function.update threads i (some t)) := by
  -- a thread that holds a challenge is an older one
  have hold : ∀ j u c, Function.update threads i (some t) j = some u →
      u.pc.holds = some c → threads j = some u := by
    intro j u c hj hu
    by_cases hji : j = i
    · subst hji
      rw [Function.update_self] at hj
      cases hj
      rw [hholds] at hu
      cases hu
    · rwa [Function.update_of_ne hji] at hj
  refine ⟨fun j u hj => ?_, fun j u c hj hu => h.unspent j u c (hold j u c hj hu) hu,
    fun j k u v c hj hk hu hv =>
      h.exclusive j k u v c (hold j u c hj hu) (hold k v c hk hv) hu hv⟩
  by_cases hji : j = i
  · subst hji
    rw [Function.update_self] at hj
    cases hj
    exact hbacked
  · rw [Function.update_of_ne hji] at hj
    exact h.backed j u hj

namespace Sound

variable {w : World F} {i : Nat} {t : Thread F}

theorem start (store : PasskeyStore) : Sound P cfg store (World.start store : World F) where
  ledger := trivial
  pending := fun challenge p hlookup => by simp [World.start] at hlookup
  store := fun user r hr => ⟨r, hr, rfl, rfl⟩
  threads :=
    ⟨fun _ _ h => (by cases h), fun _ _ _ h => (by cases h), fun _ _ _ _ _ h => (by cases h)⟩

theorem moved (h : Sound P cfg initial w) (hthread : w.threads i = some t) (pc : Pc F)
    (hpc : pc.Unauthorised cfg w t.session.user) : Sound P cfg initial (w.setPc i t pc) := by
  obtain ⟨hbacked, hholds⟩ := backed_of_unauthorised P initial w.trace hpc
  refine ⟨h.ledger, h.pending, h.store, h.threads.update hthread List.suffix_rfl
    (fun c hc => Or.inl hc) hbacked fun c hc => ?_⟩
  rw [hholds] at hc
  cases hc

theorem minted (h : Sound P cfg initial w) (hthread : w.threads i = some t) {asked : Asked F}
    {challenge : Text} (hpc : Mints t.pc asked) (hfresh : w.mintedBefore challenge = false) :
    Sound P cfg initial
      ((w.minting P t.session.user asked challenge).setPc i t (.finished none)) := by
  have hnew := mintedBefore_eq_false_iff.mp hfresh
  have hnot : ¬ Redeemed w.trace challenge := fun hredeemed => by
    obtain ⟨user, asked, expires, hmem⟩ := h.ledger.minted_of_redeemed hredeemed
    exact hnew user asked expires hmem
  have hasserted : ∀ c, asked = .register (some c) →
      AssertedFor P cfg initial w.trace c t.session.user .enroll := by
    rintro c rfl
    have hbacked := h.threads.backed i t hthread
    generalize t.pc = pc at hpc hbacked
    cases hpc
    exact hbacked c rfl
  refine ⟨⟨⟨hnew, hasserted⟩, h.ledger⟩, h.pending.mint hnot _ _ _, h.store,
    h.threads.update hthread (List.suffix_cons _ _) (fun c hc => ?_) trivial
      fun c hc => (by cases hc)⟩
  exact Or.inl (not_imp_not.mp (not_spent_cons (by simp)) hc)

theorem redeemed (h : Sound P cfg initial w) (hthread : w.threads i = some t)
    {challenge : Text} {p : Pending} (hlookup : w.pending.lookup challenge = some p)
    (hlive : w.now < p.expires) (huser : p.user = t.session.user) {pc : Pc F}
    (hnext : Redeems P challenge p.purpose pc) :
    Sound P cfg initial ((w.redeeming t.session.user challenge).setPc i t pc) := by
  obtain ⟨⟨asked, hminted, hpurpose⟩, hnot⟩ := h.pending challenge p hlookup
  rw [huser] at hminted
  have hredeemed : Redeemed (w.redeeming t.session.user challenge).trace challenge :=
    ⟨t.session.user, w.now, List.mem_cons_self⟩
  have hnotspent : ¬ Spent (w.redeeming t.session.user challenge).trace challenge :=
    not_spent_cons (by simp) fun hspent => hnot (h.ledger.redeemed_of_spent hspent)
  refine ⟨⟨⟨hnot, asked, p.expires, hminted, hlive⟩, h.ledger⟩, h.pending.redeem _ _ _, h.store,
    h.threads.update hthread (List.suffix_cons _ _)
      (fun c hc => Or.inl (not_imp_not.mp (not_spent_cons (by simp)) hc)) ?_ ?_⟩
  · generalize hpurpose' : p.purpose = purpose at hnext
    rw [hpurpose'] at hpurpose
    cases hnext with
    | refused _ r => trivial
    | register record =>
        cases asked with
        | register authorisedBy =>
            exact ⟨authorisedBy, p.expires, List.mem_cons_of_mem _ hminted, hredeemed⟩
        | action command args => cases hpurpose
    | action goal envelope =>
        cases asked with
        | register authorisedBy => cases hpurpose
        | action command args =>
            simp only [Asked.purpose, Purpose.action.injEq] at hpurpose
            obtain ⟨rfl, hargs⟩ := hpurpose
            exact ⟨w.trace, args, p.expires, w.now, List.suffix_rfl, hnot, hminted, hargs, hlive⟩
  · intro c hc
    have hchallenge : c = challenge := by
      generalize p.purpose = purpose at hnext
      cases hnext <;> cases hc
      rfl
    subst hchallenge
    exact ⟨Or.inr hnot, hredeemed, hnotspent⟩

theorem found (h : Sound P cfg initial w) {goal : Goal F} {envelope : AssertionEnvelope}
    {challenge : Text} {record : PasskeyRecord} (hthread : w.threads i = some t)
    (hpc : t.pc = .assertLookup goal envelope challenge)
    (hfind : w.store.find t.session.user envelope.credentialId = some record) :
    Sound P cfg initial (w.setPc i t (.assertVerify goal envelope challenge record)) := by
  have hbacked := h.threads.backed i t hthread
  have hunspent := h.threads.unspent i t challenge hthread (by rw [hpc]; rfl)
  rw [hpc] at hbacked
  refine ⟨h.ledger, h.pending, h.store, h.threads.update hthread List.suffix_rfl
    (fun c hc => Or.inl hc) ⟨hbacked, w.trace, List.suffix_rfl, hunspent.1,
      h.store _ record (PasskeyStore.mem_of_find hfind).1⟩ ?_⟩
  rintro c ⟨⟩
  exact ⟨Or.inl (by rw [hpc]; rfl), hunspent⟩

theorem verified (h : Sound P cfg initial w) {goal : Goal F} {envelope : AssertionEnvelope}
    {challenge : Text} {record : PasskeyRecord} {v : VerifiedAssertion}
    (hthread : w.threads i = some t) (hpc : t.pc = .assertVerify goal envelope challenge record)
    (hverify : verifyAssertion P cfg.rp challenge record envelope.clientData
      envelope.authenticatorData envelope.signature = .ok v) (persistError : Option Text) :
    Sound P cfg initial
      ((w.verifying t.session.user challenge record v.signCount persistError).setPc i t
        (World.goalPc challenge goal)) := by
  have hbacked := h.threads.backed i t hthread
  have hunspent := h.threads.unspent i t challenge hthread (by rw [hpc]; rfl)
  rw [hpc] at hbacked
  obtain ⟨hredeemed, hfound⟩ := hbacked
  have haccepted : Accepted P cfg challenge record v.signCount :=
    ⟨envelope.clientData, envelope.authenticatorData, envelope.signature, v,
      verifies_of_verifyAssertion hverify, rfl⟩
  obtain ⟨htrace, hpending, hstore, hthreads⟩ :=
    World.verifying_fields w t.session.user challenge record v.signCount persistError
  have hsub : w.trace <:+
      (w.verifying t.session.user challenge record v.signCount persistError).trace := by
    rw [htrace]
    exact List.suffix_cons _ _
  have hspent : ∀ c, Spent
      (w.verifying t.session.user challenge record v.signCount persistError).trace c →
        Spent w.trace c := by
    rw [htrace]
    exact fun c hc => not_imp_not.mp (not_spent_cons (by simp)) hc
  have hasserted : AssertedFor P cfg initial
      (w.verifying t.session.user challenge record v.signCount persistError).trace challenge
        t.session.user goal := by
    refine ⟨hredeemed.mono hsub, record, v.signCount, w.stored t.session.user record.credentialId,
      ?_, hfound.mono hsub, haccepted⟩
    rw [htrace]
    exact List.mem_cons_self
  refine ⟨?_, ?_, ?_, ?_⟩
  · rw [World.setPc_trace, htrace]
    exact ⟨⟨hfound, haccepted⟩, h.ledger⟩
  · rw [World.setPc_trace, World.setPc_pending, htrace, hpending]
    exact h.pending.cons (by simp)
  · rw [World.setPc_trace, World.setPc_store, htrace, hstore]
    intro user r hr
    obtain ⟨q, hq, hid, hkey⟩ := PasskeyStore.mem_of_mem_updateSignCount hr
    exact (h.store user q hq).of_sameKey ⟨hid, hkey⟩
  · rw [World.setPc_trace, World.setPc_threads, hthreads]
    refine h.threads.update hthread hsub (fun c hc => Or.inl (hspent c hc)) ?_ ?_
    · cases goal with
      | command name args => exact hasserted
      | enroll => rintro c ⟨⟩; exact hasserted
      | remove credentialId => trivial
    · intro c hc
      have hchallenge : c = challenge := by
        cases goal <;> cases hc
        rfl
      subst hchallenge
      exact ⟨Or.inl (by rw [hpc]; rfl), hunspent.1.mono hsub, fun hc => hunspent.2 (hspent _ hc)⟩

theorem enrolled (h : Sound P cfg initial w) {challenge : Text} {record : PasskeyRecord}
    (hthread : w.threads i = some t) (hpc : t.pc = .registerAdd challenge record)
    (persistError : Option Text) (r : Option Refusal) :
    Sound P cfg initial
      ((w.enrolling t.session.user challenge record persistError).setPc i t (.finished r)) := by
  have hbacked := h.threads.backed i t hthread
  rw [hpc] at hbacked
  refine ⟨⟨hbacked, h.ledger⟩, h.pending.cons (by simp), fun user q hq => ?_,
    h.threads.update hthread (List.suffix_cons _ _) (fun c hc => ?_) trivial
      fun c hc => (by cases hc)⟩
  · rcases PasskeyStore.mem_of_mem_add hq with hold | ⟨howner, rfl⟩
    · exact Or.inr (h.store user q hold)
    · exact Or.inl ⟨howner, rfl, rfl⟩
  · exact Or.inl (not_imp_not.mp (not_spent_cons (by simp)) hc)

theorem removed (h : Sound P cfg initial w) (hthread : w.threads i = some t)
    (credentialId : Text) (passwordOk : Bool) (persistError : Option Text)
    (r : Option Refusal) :
    Sound P cfg initial
      ((w.removing t.session.user credentialId passwordOk persistError).setPc i t
        (.finished r)) := by
  have hmem := fun user q =>
    @PasskeyStore.mem_of_mem_remove w.store persistError t.session.user user credentialId q
      passwordOk
  by_cases hshorter : ((w.store.remove persistError t.session.user credentialId passwordOk).2.forUser
      t.session.user).length < (w.store.forUser t.session.user).length
  · have htrace : (w.removing t.session.user credentialId passwordOk persistError).trace =
        .removed t.session.user credentialId :: w.trace := if_pos hshorter
    refine ⟨?_, ?_, ?_, ?_⟩
    · rw [World.setPc_trace, htrace]
      exact ⟨trivial, h.ledger⟩
    · rw [World.setPc_trace, htrace]
      exact h.pending.cons (by simp)
    · rw [World.setPc_trace, htrace]
      exact fun user q hq => ⟨(hmem user q hq).2 hshorter, h.store user q (hmem user q hq).1⟩
    · rw [World.setPc_trace, htrace]
      exact h.threads.update hthread (List.suffix_cons _ _)
        (fun c hc => Or.inl (not_imp_not.mp (not_spent_cons (by simp)) hc)) trivial
        fun c hc => (by cases hc)
  · have htrace : (w.removing t.session.user credentialId passwordOk persistError).trace =
        w.trace := if_neg hshorter
    refine ⟨?_, ?_, ?_, ?_⟩
    · rw [World.setPc_trace, htrace]
      exact h.ledger
    · rw [World.setPc_trace, htrace]
      exact h.pending
    · rw [World.setPc_trace, htrace]
      exact fun user q hq => h.store user q (hmem user q hq).1
    · rw [World.setPc_trace, htrace]
      exact h.threads.update hthread List.suffix_rfl (fun c hc => Or.inl hc) trivial
        fun c hc => (by cases hc)

theorem dispatched (h : Sound P cfg initial w) {name : Text} {args : Value F}
    {authorisedBy : Option Text} (hthread : w.threads i = some t)
    (hpc : t.pc = .dispatch name args authorisedBy) (hasPasskey : Bool) :
    Sound P cfg initial
      ((w.log (.dispatched t.session.user name args hasPasskey authorisedBy)).setPc i t
        (.finished none)) := by
  have hbacked := h.threads.backed i t hthread
  have hunspent := h.threads.unspent i t
  rw [hpc] at hbacked hunspent
  refine ⟨⟨⟨hbacked, fun c hc => (hunspent c hthread hc).2⟩, h.ledger⟩, h.pending.cons (by simp),
    h.store, h.threads.update hthread (List.suffix_cons _ _) (fun c hc => ?_) trivial
      fun c hc => (by cases hc)⟩
  obtain ⟨user, name', args', hasPasskey', hmem⟩ := hc
  rcases List.mem_cons.mp hmem with heq | hmem
  · cases heq
    exact Or.inr (by rw [hpc]; rfl)
  · exact Or.inl ⟨user, name', args', hasPasskey', hmem⟩

/-- Every step keeps the world sound. -/
theorem step (h : Sound P cfg initial w) {a : Action F} {w' : World F}
    (hstep : w.step P cfg a = some w') : Sound P cfg initial w' := by
  cases World.step_cases hstep with
  | tick elapsed => exact ⟨h.ledger, h.pending, h.store, h.threads⟩
  | request thread session pc hentry hfree =>
      obtain ⟨hbacked, hholds⟩ := backed_of_isEntry P cfg initial w.trace session.user hentry
      exact ⟨h.ledger, h.pending, h.store, threadsSound_request h.threads hbacked hholds⟩
  | @advance i chance t next pc hthread hnext =>
      obtain ⟨session, at_⟩ := t
      cases hnext with
      | moved hpc => exact h.moved hthread _ hpc
      | dropped challenge r =>
          have hmoved := h.moved hthread (.finished (some r)) trivial
          exact ⟨hmoved.ledger, hmoved.pending.erase challenge, hmoved.store, hmoved.threads⟩
      | minted challenge hpc hfresh => exact h.minted hthread hpc hfresh
      | redeemed hlookup hlive huser hredeems => exact h.redeemed hthread hlookup hlive huser hredeems
      | found hfind => exact h.found hthread rfl hfind
      | verified hverify persistError => exact h.verified hthread rfl hverify persistError
      | enrolled hnew persistError r => exact h.enrolled hthread rfl persistError r
      | removed persistError r => exact h.removed hthread _ _ persistError r
      | dispatched name args authorisedBy => exact h.dispatched hthread rfl _

/-- Every run from a console that has just started is sound. -/
theorem of_run {store : PasskeyStore} {actions : List (Action F)} {w : World F}
    (hrun : Transition.run (World.step P cfg) (World.start store) actions = some w) :
    Sound P cfg store w :=
  Transition.run_invariant (fun _ _ _ h hstep => h.step hstep) hrun (start store)

end Sound

end Genaryx.Ceremony
