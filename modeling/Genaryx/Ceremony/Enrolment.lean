import Genaryx.Ceremony.Authorised

/-!
# A further passkey needs an enrolled one

Whether the password or an assertion has to authorise an enrolment is checked when a
registration starts, and not again when it is finished. In a run that adds no passkey for a user
while another registration of theirs, begun on the password, is under way, every further passkey
is added under an assertion of the user's. Two registrations begun on the password before either
is finished break that.
-/

namespace Genaryx.Ceremony

open Json Base

variable {F : Type} {P : Platform F} {cfg : Config} {initial : PasskeyStore}

variable (P cfg initial) in
/-- Every passkey added to a user who had one was authorised by an assertion of that user
before, and not by the password. -/
def AddedByPasskey (w : World F) : Prop :=
  ∀ newer older challenge user record,
    w.trace = newer ++ .enrolled challenge user record true :: older →
      (∃ authoriser expires,
        Event.minted challenge user (.register (some authoriser)) expires ∈ older ∧
          AssertedFor P cfg initial older authoriser user .enroll) ∧
      ∀ expires, Event.minted challenge user (.register none) expires ∉ older

/-- The challenge was minted for this user on the password alone. -/
def MintedOnPassword (trace : List (Event F)) (user challenge : Text) : Prop :=
  ∃ expires, Event.minted challenge user (.register none) expires ∈ trace

/-- A registration that the user began on the password is under way, at a thread or between
two: its challenge is to be minted, or waits to be redeemed in time, or its passkey is to be
added. -/
inductive World.UnderWay (w : World F) (user : Text) : Option Nat → Prop
  | minting {i : Nat} {t : Thread F} (hthread : w.threads i = some t)
      (huser : t.session.user = user) (hpc : t.pc = .registerMint none) : w.UnderWay user (some i)
  | waiting {challenge : Text} {p : Pending} (hlookup : w.pending.lookup challenge = some p)
      (hlive : w.now < p.expires) (hpassword : MintedOnPassword w.trace user challenge) :
      w.UnderWay user none
  | adding {i : Nat} {t : Thread F} {challenge : Text} {record : PasskeyRecord}
      (hthread : w.threads i = some t) (huser : t.session.user = user)
      (hpc : t.pc = .registerAdd challenge record)
      (hpassword : MintedOnPassword w.trace user challenge) : w.UnderWay user (some i)

/-- The step adds no passkey for a user while another registration that they began on the
password is under way. -/
def World.AddsAlone (w : World F) (a : Action F) : Prop :=
  ∀ i chance session challenge record, a = .advance i chance →
    w.threads i = some ⟨session, .registerAdd challenge record⟩ →
      ∀ place, w.UnderWay session.user place → place = some i

/-- No challenge minted on the password added a passkey to a user who had one. -/
def NoneByPassword (trace : List (Event F)) : Prop :=
  ∀ challenge user record expires, Event.enrolled challenge user record true ∈ trace →
    Event.minted challenge user (.register none) expires ∉ trace

theorem Ledger.registered_of_enrolled {trace : List (Event F)} (h : Ledger P cfg initial trace)
    {challenge user : Text} {record : PasskeyRecord} {hadPasskey : Bool}
    (hmem : Event.enrolled challenge user record hadPasskey ∈ trace) :
    RegisteredFor trace challenge user := by
  obtain ⟨newer, older, rfl⟩ := List.append_of_mem hmem
  exact RegisteredFor.mono ((List.suffix_cons _ _).trans (List.suffix_append newer _)) h.explained

/-- A step logs no minted challenge but a fresh one, and no enrolment but its own. -/
theorem Advance.trace_cases {w next : World F} {user : Text} {pc pc' : Pc F}
    (h : Advance P cfg w user pc next pc') :
    (∃ challenge asked expires, w.mintedBefore challenge = false ∧
      next.trace = .minted challenge user asked expires :: w.trace) ∨
    (∃ challenge record, pc = .registerAdd challenge record ∧
      next.trace = .enrolled challenge user record (w.store.hasAny user) :: w.trace) ∨
    ((∀ c u r b, Event.enrolled c u r b ∈ next.trace → Event.enrolled c u r b ∈ w.trace) ∧
      ∀ c u asked e, Event.minted c u asked e ∈ next.trace →
        Event.minted c u asked e ∈ w.trace) := by
  have hlogged : ∀ e : Event F, (∀ c u r b, e ≠ .enrolled c u r b) →
      (∀ c u asked x, e ≠ .minted c u asked x) →
      (∀ c u r b, Event.enrolled c u r b ∈ e :: w.trace → Event.enrolled c u r b ∈ w.trace) ∧
        ∀ c u asked x, Event.minted c u asked x ∈ e :: w.trace →
          Event.minted c u asked x ∈ w.trace := by
    intro e henrolled hminted
    exact ⟨fun c u r b hmem => (List.mem_cons.mp hmem).resolve_left (henrolled c u r b).symm,
      fun c u asked x hmem => (List.mem_cons.mp hmem).resolve_left (hminted c u asked x).symm⟩
  cases h with
  | moved | dropped | found =>
      exact Or.inr (Or.inr ⟨fun _ _ _ _ hmem => hmem, fun _ _ _ _ hmem => hmem⟩)
  | minted challenge hpc hfresh => exact Or.inl ⟨challenge, _, _, hfresh, rfl⟩
  | redeemed => exact Or.inr (Or.inr (hlogged _ (by simp) (by simp)))
  | @verified goal envelope challenge record v hverify persistError =>
      rw [(World.verifying_fields w user challenge record v.signCount persistError).1]
      exact Or.inr (Or.inr (hlogged _ (by simp) (by simp)))
  | enrolled hnew persistError r => exact Or.inr (Or.inl ⟨_, _, rfl, rfl⟩)
  | removed persistError r =>
      dsimp only [World.removing]
      split
      · exact Or.inr (Or.inr (hlogged _ (by simp) (by simp)))
      · exact Or.inr (Or.inr ⟨fun _ _ _ _ hmem => hmem, fun _ _ _ _ hmem => hmem⟩)
  | dispatched => exact Or.inr (Or.inr (hlogged _ (by simp) (by simp)))

/-- Where only thread `i` moves and nothing is minted, a registration that is under way was so
before, or is what the thread moved to. -/
theorem World.UnderWay.of_moved {w w' : World F} {user : Text} {place : Option Nat} {i : Nat}
    {t : Thread F} {q : Pc F} (h : w'.UnderWay user place)
    (hthreads : w'.threads = Function.update w.threads i (some { t with pc := q }))
    (hnow : w.now ≤ w'.now)
    (hpending : ∀ c p, w'.pending.lookup c = some p → w.pending.lookup c = some p)
    (hminted : ∀ c u asked x, Event.minted c u asked x ∈ w'.trace →
      Event.minted c u asked x ∈ w.trace) :
    (place ≠ some i ∧ w.UnderWay user place) ∨
      (t.session.user = user ∧ (q = .registerMint none ∨ ∃ challenge record,
        q = .registerAdd challenge record ∧ MintedOnPassword w.trace user challenge)) := by
  cases h with
  | @minting j u hthread huser hpc =>
      rw [hthreads] at hthread
      by_cases hj : j = i
      · subst hj
        rw [Function.update_self] at hthread
        cases hthread
        exact Or.inr ⟨huser, Or.inl hpc⟩
      · rw [Function.update_of_ne hj] at hthread
        exact Or.inl ⟨fun heq => hj (Option.some.inj heq), .minting hthread huser hpc⟩
  | @waiting challenge p hlookup hlive hpassword =>
      obtain ⟨expires, hmem⟩ := hpassword
      exact Or.inl ⟨(Option.some_ne_none i).symm, .waiting (hpending challenge p hlookup) (lt_of_le_of_lt hnow hlive)
        ⟨expires, hminted _ _ _ _ hmem⟩⟩
  | @adding j u challenge record hthread huser hpc hpassword =>
      obtain ⟨expires, hmem⟩ := hpassword
      have hpassword : MintedOnPassword w.trace user challenge := ⟨expires, hminted _ _ _ _ hmem⟩
      rw [hthreads] at hthread
      by_cases hj : j = i
      · subst hj
        rw [Function.update_self] at hthread
        cases hthread
        exact Or.inr ⟨huser, Or.inr ⟨challenge, record, hpc, hpassword⟩⟩
      · rw [Function.update_of_ne hj] at hthread
        exact Or.inl ⟨fun heq => hj (Option.some.inj heq), .adding hthread huser hpc hpassword⟩

/-- A registration under way after a challenge is minted was under way before. -/
theorem World.UnderWay.of_minted {w : World F} (hsound : Sound P cfg initial w) {user : Text}
    {place : Option Nat} {i : Nat} {t : Thread F} {asked : Asked F} {challenge : Text}
    (hthread : w.threads i = some t) (hpc : Mints t.pc asked)
    (hfresh : w.mintedBefore challenge = false)
    (h : ((w.minting P t.session.user asked challenge).setPc i t (.finished none)).UnderWay user
      place) : ∃ place, w.UnderWay user place := by
  have hnew := mintedBefore_eq_false_iff.mp hfresh
  -- a challenge of the password is the one of this step, or an older one
  have hpassword : ∀ c, MintedOnPassword (.minted challenge t.session.user asked
      (w.now + ceremonyTtl) :: w.trace) user c →
        MintedOnPassword w.trace user c ∨
          (c = challenge ∧ t.session.user = user ∧ asked = .register none) := by
    rintro c ⟨expires, hmem⟩
    rcases List.mem_cons.mp hmem with heq | hold
    · cases heq
      exact Or.inr ⟨rfl, rfl, rfl⟩
    · exact Or.inl ⟨expires, hold⟩
  cases h with
  | @minting j u hj huser hat =>
      rw [World.setPc_threads] at hj
      by_cases hji : j = i
      · subst hji
        rw [Function.update_self] at hj
        cases hj
        cases hat
      · rw [Function.update_of_ne hji] at hj
        exact ⟨some j, .minting hj huser hat⟩
  | @waiting c p hlookup hlive hon =>
      rcases hpassword c hon with hold | ⟨-, huser, rfl⟩
      · have hne : c ≠ challenge := by
          rintro rfl
          obtain ⟨expires, hmem⟩ := hold
          exact hnew _ _ _ hmem
        rw [World.setPc_pending, World.minting, PendingCeremonies.mint,
          AList.lookup_insert_ne hne] at hlookup
        exact ⟨none, .waiting (PendingCeremonies.lookup_of_lookup_retain hlookup) hlive hold⟩
      · generalize hat : t.pc = pc at hpc
        cases hpc
        exact ⟨some i, .minting hthread huser hat⟩
  | @adding j u c record hj huser hat hon =>
      rw [World.setPc_threads] at hj
      by_cases hji : j = i
      · subst hji
        rw [Function.update_self] at hj
        cases hj
        cases hat
      · rw [Function.update_of_ne hji] at hj
        rcases hpassword c hon with hold | ⟨rfl, -, -⟩
        · exact ⟨some j, .adding hj huser hat hold⟩
        · -- a passkey to be added has a challenge that was minted before
          have hbacked := hsound.threads.backed j u hj
          rw [hat] at hbacked
          obtain ⟨authorisedBy, expires, hmem, -⟩ := hbacked
          exact absurd hmem (hnew _ _ _)

/-- A step that redeems a challenge leaves the registrations that were under way. -/
theorem World.UnderWay.of_redeemed {w : World F} {user : Text} {place : Option Nat} {i : Nat}
    {t : Thread F} {pc : Pc F} {challenge : Text} {p : Pending}
    (hlookup : w.pending.lookup challenge = some p) (hlive : w.now < p.expires)
    (hnext : Redeems P challenge p.purpose pc)
    (h : ((w.redeeming t.session.user challenge).setPc i t pc).UnderWay user place) :
    ∃ place, place ≠ some i ∧ w.UnderWay user place := by
  have hmoved := h.of_moved (w := w) (q := pc) rfl le_rfl
    (fun c q hq => PendingCeremonies.lookup_of_lookup_erase hq)
    fun c u asked x hmem => (List.mem_cons.mp hmem).resolve_left (by simp)
  rcases hmoved with hold | ⟨-, rfl | ⟨c, record, rfl, hpassword⟩⟩
  · exact ⟨place, hold⟩
  · generalize p.purpose = purpose at hnext
    cases hnext
  · refine ⟨none, (Option.some_ne_none i).symm, .waiting hlookup hlive ?_⟩
    generalize p.purpose = purpose at hnext
    cases hnext
    exact hpassword

/-- While a registration begun on the password is under way its user has no passkey, so no
challenge minted on the password adds a further one. -/
structure FirstKept (w : World F) : Prop where
  alone : ∀ user place, w.UnderWay user place → w.store.hasAny user = false
  byPasskey : NoneByPassword w.trace

/-- A registration under way after a step of a thread was so before the step, and elsewhere if
the thread stood where it adds a passkey, or has just started for a user without one. -/
theorem Advance.underWay {w next : World F} {i : Nat} {t : Thread F} {pc : Pc F}
    (h : Advance P cfg w t.session.user t.pc next pc) (hsound : Sound P cfg initial w)
    (hthread : w.threads i = some t) {user : Text} {place : Option Nat}
    (hunder : (next.setPc i t pc).UnderWay user place) :
    (∃ place, ((∃ challenge record, t.pc = .registerAdd challenge record) → place ≠ some i) ∧
        w.UnderWay user place) ∨
      (w.store.hasAny user = false ∧ next.store = w.store) := by
  -- a step that mints nothing and leaves its thread outside a registration
  have hquiet : pc ≠ .registerMint none → (∀ challenge record, pc ≠ .registerAdd challenge record) →
      w.now ≤ next.now →
      (∀ c p, next.pending.lookup c = some p → w.pending.lookup c = some p) →
      (∀ c u asked x, Event.minted c u asked x ∈ next.trace →
        Event.minted c u asked x ∈ w.trace) →
      ∃ place, ((∃ challenge record, t.pc = .registerAdd challenge record) → place ≠ some i) ∧
        w.UnderWay user place := by
    intro hmint hadd hnow hpending hminted
    rcases hunder.of_moved (by rw [World.setPc_threads, h.threads_eq]) hnow hpending hminted with
      ⟨hne, hold⟩ | ⟨-, hpc | ⟨challenge, record, hpc, -⟩⟩
    · exact ⟨place, fun _ => hne, hold⟩
    · exact absurd hpc hmint
    · exact absurd hpc (hadd challenge record)
  have hkeeps : ∀ e : Event F, (∀ c u asked x, e ≠ .minted c u asked x) → ∀ c u asked x,
      Event.minted c u asked x ∈ e :: w.trace → Event.minted c u asked x ∈ w.trace :=
    fun e he c u asked x hmem => (List.mem_cons.mp hmem).resolve_left (he c u asked x).symm
  obtain ⟨session, at_⟩ := t
  cases h with
  | moved hpc =>
      rcases hunder.of_moved rfl le_rfl (fun _ _ hp => hp) (fun _ _ _ _ hmem => hmem) with
        ⟨hne, hold⟩ | ⟨rfl, rfl | ⟨challenge, record, rfl, -⟩⟩
      · exact Or.inl ⟨place, fun _ => hne, hold⟩
      · exact Or.inr ⟨hpc, rfl⟩
      · exact absurd hpc id
  | dropped challenge r =>
      exact Or.inl (hquiet (by simp) (by simp) le_rfl
        (fun _ _ hp => PendingCeremonies.lookup_of_lookup_erase hp) fun _ _ _ _ hmem => hmem)
  | minted challenge hpc hfresh =>
      obtain ⟨place, hold⟩ := hunder.of_minted hsound hthread hpc hfresh
      refine Or.inl ⟨place, ?_, hold⟩
      rintro ⟨challenge, record, rfl⟩
      cases hpc
  | redeemed hlookup hlive huser hnext =>
      obtain ⟨place, hne, hold⟩ := hunder.of_redeemed hlookup hlive hnext
      exact Or.inl ⟨place, fun _ => hne, hold⟩
  | found hfind =>
      exact Or.inl (hquiet (by simp) (by simp) le_rfl (fun _ _ hp => hp) fun _ _ _ _ hmem => hmem)
  | @verified goal envelope challenge record v hverify persistError =>
      obtain ⟨htrace, hpending, -, -⟩ :=
        World.verifying_fields w session.user challenge record v.signCount persistError
      refine Or.inl (hquiet ?_ ?_ ?_ (fun _ _ hp => hpending ▸ hp) ?_)
      · cases goal <;> simp [World.goalPc]
      · cases goal <;> simp [World.goalPc]
      · unfold World.verifying
        dsimp only
        split <;> exact le_rfl
      · rw [htrace]
        exact hkeeps _ (by simp)
  | enrolled hnew persistError r =>
      exact Or.inl (hquiet (by simp) (by simp) le_rfl (fun _ _ hp => hp) (hkeeps _ (by simp)))
  | removed persistError r =>
      refine Or.inl (hquiet (by simp) (by simp) le_rfl (fun _ _ hp => hp) ?_)
      dsimp only [World.removing]
      split
      · exact hkeeps _ (by simp)
      · exact fun _ _ _ _ hmem => hmem
  | dispatched name args authorisedBy =>
      exact Or.inl (hquiet (by simp) (by simp) le_rfl (fun _ _ hp => hp) (hkeeps _ (by simp)))

theorem FirstKept.alone_step {w next : World F} {i : Nat} {chance : Chance} {t : Thread F}
    {pc : Pc F} (h : FirstKept w) (hsound : Sound P cfg initial w)
    (halone : w.AddsAlone (.advance i chance)) (hthread : w.threads i = some t)
    (hnext : Advance P cfg w t.session.user t.pc next pc) {user : Text} {place : Option Nat}
    (hunder : (next.setPc i t pc).UnderWay user place) : next.store.hasAny user = false := by
  rcases hnext.underWay hsound hthread hunder with ⟨place, helsewhere, hold⟩ | ⟨hnone, hstore⟩
  · refine hnext.hasAny_eq_false (h.alone user place hold) ?_
    rintro rfl challenge record hpc
    refine helsewhere ⟨challenge, record, hpc⟩ ?_
    obtain ⟨session, at_⟩ := t
    dsimp only at hpc
    subst hpc
    exact halone i chance session challenge record rfl hthread place hold
  · rwa [hstore]

theorem FirstKept.byPasskey_step {w next : World F} {i : Nat} {t : Thread F} {pc : Pc F}
    (h : FirstKept w) (hsound : Sound P cfg initial w) (hthread : w.threads i = some t)
    (hnext : Advance P cfg w t.session.user t.pc next pc) : NoneByPassword next.trace := by
  intro challenge user record expires henrolled hminted
  rcases hnext.trace_cases with ⟨c, asked, x, hfresh, htrace⟩ | ⟨c, r, hpc, htrace⟩ |
    ⟨henrolled', hminted'⟩
  · rw [htrace] at henrolled hminted
    have hold := (List.mem_cons.mp henrolled).resolve_left (by simp)
    rcases List.mem_cons.mp hminted with heq | hminted
    · obtain ⟨authorisedBy, y, hbefore, -⟩ := hsound.ledger.registered_of_enrolled hold
      injection heq with hc
      exact mintedBefore_eq_false_iff.mp hfresh _ _ _ (hc ▸ hbefore)
    · exact h.byPasskey challenge user record expires hold hminted
  · rw [htrace] at henrolled hminted
    have hold := (List.mem_cons.mp hminted).resolve_left (by simp)
    rcases List.mem_cons.mp henrolled with heq | henrolled
    · -- the finish of this step: a registration on the password has met no passkey
      injection heq with hc hu hr hhad
      rw [hc, hu] at hold
      rw [h.alone _ _ (.adding hthread rfl hpc ⟨expires, hold⟩)] at hhad
      cases hhad
    · exact h.byPasskey challenge user record expires henrolled hold
  · exact h.byPasskey challenge user record expires (henrolled' _ _ _ _ henrolled)
      (hminted' _ _ _ _ hminted)

theorem FirstKept.step {w w' : World F} {a : Action F} (h : FirstKept w)
    (hsound : Sound P cfg initial w) (halone : w.AddsAlone a)
    (hstep : w.step P cfg a = some w') : FirstKept w' := by
  cases World.step_cases hstep with
  | tick elapsed =>
      refine ⟨fun user place hunder => ?_, h.byPasskey⟩
      cases hunder with
      | minting hthread huser hpc => exact h.alone user _ (.minting hthread huser hpc)
      | waiting hlookup hlive hpassword =>
          exact h.alone user _
            (.waiting hlookup (lt_of_le_of_lt (Nat.le_add_right _ _) hlive) hpassword)
      | adding hthread huser hpc hpassword =>
          exact h.alone user _ (.adding hthread huser hpc hpassword)
  | request thread session pc hentry hfree =>
      refine ⟨fun user place hunder => ?_, h.byPasskey⟩
      rcases hunder.of_moved (w := w) (t := ⟨session, pc⟩) (q := pc) rfl le_rfl
        (fun _ _ hp => hp) (fun _ _ _ _ hmem => hmem) with
        ⟨-, hold⟩ | ⟨-, rfl | ⟨challenge, record, rfl, -⟩⟩
      · exact h.alone user place hold
      · cases hentry
      · cases hentry
  | advance i chance hthread hnext =>
      have hbyPasskey := h.byPasskey_step hsound hthread hnext
      exact ⟨fun user place hunder => h.alone_step hsound halone hthread hnext hunder, hbyPasskey⟩

/-- In a run that adds no passkey for a user while another registration of theirs, begun on the
password, is under way, every further passkey is authorised by an enrolled one. -/
theorem addedByPasskey_of_addsAlone {store : PasskeyStore} {actions : List (Action F)}
    {w : World F}
    (halong : Transition.Along (World.step P cfg) World.AddsAlone (World.start store) actions)
    (hrun : Transition.run (World.step P cfg) (World.start store) actions = some w) :
    AddedByPasskey P cfg store w := by
  have hstart : FirstKept (World.start store : World F) := by
    refine ⟨fun user place hunder => ?_, fun _ _ _ _ hmem => absurd hmem List.not_mem_nil⟩
    cases hunder with
    | minting hthread => cases hthread
    | waiting hlookup => simp [World.start] at hlookup
    | adding hthread => cases hthread
  obtain ⟨hsound, hkept⟩ := Transition.run_invariant_along
    (I := fun w => Sound P cfg store w ∧ FirstKept w)
    (fun _ _ _ h halone hstep => ⟨h.1.step hstep, h.2.step h.1 halone hstep⟩)
    halong hrun ⟨Sound.start store, hstart⟩
  intro newer older challenge user record htrace
  have hsub : older <:+ w.trace := by
    rw [htrace]
    exact (List.suffix_cons _ _).trans (List.suffix_append newer _)
  have hpassword : ∀ expires, Event.minted challenge user (.register none) expires ∉ older :=
    fun expires hmem => hkept.byPasskey challenge user record expires
      (htrace ▸ List.mem_append_right _ List.mem_cons_self) (hsub.subset hmem)
  have hledger := hsound.ledger
  rw [htrace] at hledger
  obtain ⟨authorisedBy, expires, hminted, -⟩ := hledger.explained
  cases authorisedBy with
  | none => exact absurd hminted (hpassword expires)
  | some authoriser =>
      obtain ⟨middle, oldest, rfl⟩ := List.append_of_mem hminted
      have hasserted := (hledger.of_append.2.explained).2 authoriser rfl
      exact ⟨⟨authoriser, expires, hminted, hasserted.mono
        ((List.suffix_cons _ _).trans (List.suffix_append middle _))⟩, hpassword⟩

section Sample

/-- The user of the sample passkey confirms with it and adds a second one. -/
def confirmedPasskey : List (Action Unit) :=
  [.request 0 sampleSession (.actionStart enrollPasskeyCeremony (.object [])),
    .advance 0 (sampleChance "c0"), .advance 0 (sampleChance "c0"),
    .request 1 sampleSession (.registerStart (some (.ok (sampleEnvelope "c0" 6))) none),
    .advance 1 (sampleChance "c1"), .advance 1 (sampleChance "c1"),
    .advance 1 (sampleChance "c1"), .advance 1 (sampleChance "c1"),
    .advance 1 (sampleChance "c1"),
    .request 2 sampleSession (.registerFinish (.ok (sampleFinish "c1" "Qg" 0x42))),
    .advance 2 (sampleChance "c2"), .advance 2 (sampleChance "c2")]

/-- Both challenges are minted on the password before either is finished. -/
def twoFirstPasskeys : List (Action Unit) :=
  [.request 0 sampleSession (.registerStart none (some "hunter2")),
    .advance 0 (sampleChance "c0"), .advance 0 (sampleChance "c0"),
    .request 1 sampleSession (.registerStart none (some "hunter2")),
    .advance 1 (sampleChance "c1"), .advance 1 (sampleChance "c1"),
    .request 2 sampleSession (.registerFinish (.ok (sampleFinish "c0" "QQ" 0x41))),
    .advance 2 (sampleChance "c2"), .advance 2 (sampleChance "c2"),
    .request 3 sampleSession (.registerFinish (.ok (sampleFinish "c1" "Qg" 0x42))),
    .advance 3 (sampleChance "c2"), .advance 3 (sampleChance "c2")]

end Sample

set_option maxRecDepth 4000 in
/-- The last request stands alone when it adds its passkey. -/
theorem addsAlone_confirmedPasskey :
    Transition.Along (World.step samplePlatformWithKeys sampleConfig) World.AddsAlone
      (World.start sampleStore) confirmedPasskey := by
  have hinit : Transition.Along (World.step samplePlatformWithKeys sampleConfig)
      (fun s a => World.addsNone s a = true) (World.start sampleStore) confirmedPasskey.dropLast :=
    Transition.along_of_check (by decide)
  obtain ⟨w, hrun, hpending, hthreads⟩ : ∃ w,
      Transition.run (World.step samplePlatformWithKeys sampleConfig) (World.start sampleStore)
          confirmedPasskey.dropLast = some w ∧ w.pending = ∅ ∧
        ∀ i t, i ≠ 2 → w.threads i = some t → ∃ refusal, t.pc = .finished refusal := by
    refine ⟨_, rfl, rfl, fun i t hi ht => ?_⟩
    match i with
    | 0 => cases ht; exact ⟨_, rfl⟩
    | 1 => cases ht; exact ⟨_, rfl⟩
    | 2 => exact absurd rfl hi
    | _ + 3 => cases ht
  refine Transition.along_append (l := confirmedPasskey.dropLast) (hinit.imp ?_) fun v hv => ?_
  · rintro v a hnone i chance session challenge record rfl hthread
    exact absurd hthread (World.not_registerAdd hnone)
  · rw [hrun] at hv
    cases hv
    refine ⟨?_, fun _ _ => trivial⟩
    rintro i chance session challenge record ⟨⟩ hthread place hunder
    cases hunder with
    | @minting j t hj huser hpc =>
        by_contra hne
        obtain ⟨refusal, hfinished⟩ := hthreads j t (fun heq => hne (congrArg some heq)) hj
        rw [hpc] at hfinished
        cases hfinished
    | waiting hlookup => rw [hpending] at hlookup; cases hlookup
    | @adding j t _ _ hj huser hpc =>
        by_contra hne
        obtain ⟨refusal, hfinished⟩ := hthreads j t (fun heq => hne (congrArg some heq)) hj
        rw [hpc] at hfinished
        cases hfinished

set_option maxRecDepth 4000 in
theorem addedByPasskey_of_addsAlone_confirmedPasskey :
    ∃ w older record, Transition.run (World.step samplePlatformWithKeys sampleConfig)
        (World.start sampleStore) confirmedPasskey = some w ∧
      w.trace = .enrolled "c1" "ops" record true :: older ∧
      AddedByPasskey samplePlatformWithKeys sampleConfig sampleStore w := by
  obtain ⟨w, older, record, hrun, htrace⟩ : ∃ w older record,
      Transition.run (World.step samplePlatformWithKeys sampleConfig) (World.start sampleStore)
          confirmedPasskey = some w ∧
        w.trace = .enrolled "c1" "ops" record true :: older := ⟨_, _, _, rfl, rfl⟩
  exact ⟨w, older, record, hrun, htrace,
    addedByPasskey_of_addsAlone addsAlone_confirmedPasskey hrun⟩

set_option maxRecDepth 4000 in
theorem second_passkey_by_password :
    ¬ ∀ w, Transition.run (World.step samplePlatformWithKeys sampleConfig)
      (World.start PasskeyStore.empty) twoFirstPasskeys = some w →
        AddedByPasskey samplePlatformWithKeys sampleConfig PasskeyStore.empty w := by
  intro h
  refine (h _ rfl [] _ "c1" "ops" _ rfl).2 ceremonyTtl ?_
  exact .tail _ (.tail _ (.tail _ (.head _)))

end Genaryx.Ceremony
