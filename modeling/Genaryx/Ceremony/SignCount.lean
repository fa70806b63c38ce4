import Genaryx.Ceremony.Authorised

/-!
# Signature counters

An accepted assertion stores its counter over the one in the record that was read. The
stored count stays the highest one ever stored, and an assertion at or below it is refused,
in every run in which nobody else stores a count in between, no zero count is asserted once
a nonzero one is stored, and no credential is enrolled again with a lower count.
-/

namespace Genaryx.Ceremony

open Json Base

variable {F : Type} {P : Platform F} {cfg : Config}

/-- The counter in an authenticator data. -/
def assertedCount (authenticatorData : Bytes) : Nat :=
  fromBeBytes ((authenticatorData.drop 33).take 4)

theorem parseAuthenticatorData_signCount {bytes : Bytes} {auth : AuthData}
    (h : parseAuthenticatorData P bytes = .ok auth) : auth.signCount = assertedCount bytes := by
  simp only [parseAuthenticatorData] at h
  split at h
  · cases h
  · split at h
    · cases hcred : parseAttestedCredential P bytes with
      | error e => rw [hcred] at h; cases h
      | ok credential => rw [hcred] at h; cases h; rfl
    · cases h; rfl

/-- An accepted assertion carries its counter, which did not regress below the record's. -/
theorem verifyAssertion_signCount {rp : RpConfig} {challenge : Text} {record : PasskeyRecord}
    {clientData authenticatorData signature : Bytes} {v : VerifiedAssertion}
    (h : verifyAssertion P rp challenge record clientData authenticatorData signature = .ok v) :
    v.signCount = assertedCount authenticatorData ∧
      counterRegressed record.signCount v.signCount = false := by
  unfold verifyAssertion at h
  cases hclient : checkClientData P rp "webauthn.get" challenge clientData with
  | error e => rw [hclient] at h; cases h
  | ok checked =>
      cases hauth : parseAuthenticatorData P authenticatorData with
      | error e => rw [hclient, hauth] at h; cases h
      | ok auth =>
          rw [← parseAuthenticatorData_signCount hauth]
          simp only [hclient, hauth, bind, Except.bind] at h
          repeat' split at h
          all_goals first | cases h; done | skip
          next hregressed => cases h; exact ⟨rfl, by simpa using hregressed⟩

theorem PasskeyStore.find_eq_some_iff {s : PasskeyStore} {user credentialId : Text}
    {r : PasskeyRecord} :
    s.find user credentialId = some r ↔ r ∈ s.forUser user ∧ r.credentialId = credentialId := by
  refine ⟨mem_of_find, fun ⟨hmem, hid⟩ => ?_⟩
  cases hfind : s.find user credentialId with
  | none => exact absurd (by simpa using hid) (List.find?_eq_none.mp hfind r hmem)
  | some q =>
      obtain ⟨hq, hqid⟩ := mem_of_find hfind
      rw [List.inj_on_of_nodup_map (s.distinct user) hq hmem (hqid.trans hid.symm)]

namespace World

variable {w : World F} {user credentialId : Text} {n : Nat}

theorem stored_eq_some_iff :
    w.stored user credentialId = some n ↔
      ∃ r ∈ w.store.forUser user, r.credentialId = credentialId ∧ r.signCount = n := by
  simp only [stored, Option.map_eq_some_iff, PasskeyStore.find_eq_some_iff, and_assoc]

/-- The step stores no count below the highest one: an assertion meets the count that was
read, or a lower one than its own, and is not zero over a nonzero one; an enrolment starts
at the highest count or above. -/
def keepsCounts (w : World F) : Action F → Bool
  | .advance i _ =>
      match w.threads i with
      | some ⟨session, .assertVerify _ envelope _ record⟩ =>
          match w.stored session.user record.credentialId with
          | none => true
          | some stored =>
              let asserted := assertedCount envelope.authenticatorData
              stored = 0 || (asserted ≠ 0 && (stored = record.signCount || stored < asserted))
      | some ⟨session, .registerAdd _ record⟩ =>
          (w.stored session.user record.credentialId).isSome ||
            w.high session.user record.credentialId ≤ record.signCount
      | _ => true
  | _ => true

/-- The stored count of every credential is the highest one ever stored for it, and every
accepted assertion was above the nonzero count it met. -/
structure CountsKept (w : World F) : Prop where
  highest : ∀ user credentialId n, w.stored user credentialId = some n →
    n = w.high user credentialId
  above : ∀ challenge user record n stored,
    Event.verified challenge user record n (some stored) ∈ w.trace → 0 < stored → stored < n

theorem raise_high (signCount : Nat) (owner id : Text) :
    (w.raise user credentialId signCount).high owner id =
      if owner = user ∧ id = credentialId then max (w.high owner id) signCount
      else w.high owner id := by
  by_cases howner : owner = user
  · subst howner
    by_cases hid : id = credentialId
    · subst hid
      simp [raise]
    · simp [raise, hid]
  · simp [raise, howner]

/-- A step that stores no count and accepts no assertion. -/
theorem CountsKept.quiet (h : w.CountsKept) {next : World F} (hhigh : next.high = w.high)
    (hstored : ∀ user credentialId n, next.stored user credentialId = some n →
      w.stored user credentialId = some n)
    (htrace : ∀ challenge user record n stored,
      Event.verified challenge user record n stored ∈ next.trace →
        Event.verified challenge user record n stored ∈ w.trace) : next.CountsKept where
  highest := fun user credentialId n hn => by
    rw [hhigh]
    exact h.highest user credentialId n (hstored user credentialId n hn)
  above := fun challenge user record n stored hmem =>
    h.above challenge user record n stored (htrace challenge user record n _ hmem)

theorem stored_removing {passwordOk : Bool} {persistError : Option Text} {owner id : Text}
    (h : (w.removing user credentialId passwordOk persistError).stored owner id = some n) :
    w.stored owner id = some n := by
  obtain ⟨r, hr, hid, hcount⟩ := stored_eq_some_iff.mp h
  exact stored_eq_some_iff.mpr ⟨r, (PasskeyStore.mem_of_mem_remove hr).1, hid, hcount⟩

theorem CountsKept.enrolling (h : w.CountsKept) {challenge : Text} {record : PasskeyRecord}
    (hhigh : w.high user record.credentialId ≤ record.signCount)
    (hnew : record.credentialId ∉ (w.store.forUser user).map PasskeyRecord.credentialId)
    (persistError : Option Text) :
    (w.enrolling user challenge record persistError).CountsKept where
  highest := by
    intro owner id n hn
    obtain ⟨r, hr, hid, hcount⟩ := stored_eq_some_iff.mp hn
    rw [World.enrolling, raise_high]
    rcases PasskeyStore.mem_of_mem_add hr with hold | ⟨rfl, rfl⟩
    · have hother : ¬ (owner = user ∧ id = record.credentialId) := by
        rintro ⟨rfl, rfl⟩
        exact hnew (hid ▸ List.mem_map_of_mem hold)
      rw [if_neg hother]
      exact h.highest owner id n (stored_eq_some_iff.mpr ⟨r, hold, hid, hcount⟩)
    · rw [if_pos ⟨rfl, hid.symm⟩, ← hid, ← hcount]
      exact (max_eq_right hhigh).symm
  above := fun challenge' owner r n stored hmem =>
    h.above challenge' owner r n stored ((List.mem_cons.mp hmem).resolve_left (by simp))

/-- What the comparison leaves open is what the step condition rules out. -/
theorem lt_of_counterRegressed {stored read asserted : Nat}
    (hregressed : counterRegressed read asserted = false)
    (hkeeps : stored = 0 ∨ asserted ≠ 0 ∧ (stored = read ∨ stored < asserted))
    (hpos : 0 < stored) : stored < asserted := by
  simp only [counterRegressed, Bool.and_eq_false_iff, decide_eq_false_iff_not] at hregressed
  omega

theorem CountsKept.verifying (h : w.CountsKept) {challenge : Text} {record : PasskeyRecord}
    {signCount : Nat}
    (hkeeps : ∀ stored, w.stored user record.credentialId = some stored → 0 < stored →
      stored < signCount)
    (persistError : Option Text) :
    (w.verifying user challenge record signCount persistError).CountsKept := by
  obtain ⟨htrace, -, hstore, -⟩ :=
    World.verifying_fields w user challenge record signCount persistError
  refine ⟨fun owner id n hn => ?_, fun c owner r n stored hmem => ?_⟩
  · obtain ⟨r, hr, hid, hcount⟩ := stored_eq_some_iff.mp hn
    rw [hstore] at hr
    obtain ⟨q, hq, hqid, hqcount⟩ := PasskeyStore.signCount_of_mem_updateSignCount hr
    have hqstored : w.stored owner id = some q.signCount :=
      stored_eq_some_iff.mpr ⟨q, hq, hqid.trans hid, rfl⟩
    have hqhigh := h.highest owner id q.signCount hqstored
    by_cases hthis : owner = user ∧ id = record.credentialId
    · obtain ⟨rfl, rfl⟩ := hthis
      rw [World.verifying, if_pos (by rw [hqstored]; rfl), raise_high, if_pos ⟨rfl, rfl⟩]
      rw [if_pos ⟨rfl, hid⟩] at hqcount
      have hlt := hkeeps q.signCount hqstored
      have hmax : w.high owner record.credentialId ≤ signCount := by omega
      rw [← hcount, hqcount]
      exact (max_eq_right hmax).symm
    · rw [if_neg fun heq => hthis ⟨heq.1, hid ▸ heq.2⟩] at hqcount
      have hsame : (w.verifying user challenge record signCount persistError).high owner id =
          w.high owner id := by
        rw [World.verifying]
        split
        · rw [raise_high, if_neg hthis]
        · rfl
      rw [hsame, ← hqhigh, ← hqcount, hcount]
  · rw [htrace] at hmem
    rcases List.mem_cons.mp hmem with heq | hmem
    · injection heq with _ howner hrecord hn hstored
      subst howner hrecord hn
      exact hkeeps stored hstored.symm
    · exact h.above c owner r n stored hmem

theorem CountsKept.step (h : w.CountsKept) {a : Action F} {w' : World F}
    (hkeeps : w.keepsCounts a = true) (hstep : w.step P cfg a = some w') : w'.CountsKept := by
  cases World.step_cases hstep with
  | tick elapsed => exact h.quiet rfl (fun _ _ _ hn => hn) fun _ _ _ _ _ hmem => hmem
  | request thread session pc hentry hfree =>
      exact h.quiet rfl (fun _ _ _ hn => hn) fun _ _ _ _ _ hmem => hmem
  | @advance i chance t next pc hthread hnext =>
      have hnextKept : next.CountsKept := by
        obtain ⟨session, pc⟩ := t
        cases hnext with
        | moved | dropped | found =>
            exact h.quiet rfl (fun _ _ _ hn => hn) fun _ _ _ _ _ hmem => hmem
        | minted | redeemed | dispatched =>
            exact h.quiet rfl (fun _ _ _ hn => hn)
              fun _ _ _ _ _ hmem => (List.mem_cons.mp hmem).resolve_left (by simp)
        | @verified goal envelope challenge record v hverify persistError =>
            obtain ⟨hcount, hregressed⟩ := verifyAssertion_signCount hverify
            refine h.verifying (fun stored hstored hpos => ?_) persistError
            refine lt_of_counterRegressed hregressed ?_ hpos
            rw [hcount]
            simpa [keepsCounts, hthread, hstored] using hkeeps
        | @enrolled challenge record hnew persistError r =>
            refine h.enrolling ?_ hnew persistError
            have hnone : w.stored session.user record.credentialId = none := by
              cases hstored : w.stored session.user record.credentialId with
              | none => rfl
              | some n =>
                  obtain ⟨q, hq, hid, -⟩ := stored_eq_some_iff.mp hstored
                  exact absurd (hid ▸ List.mem_map_of_mem hq) hnew
            simpa [keepsCounts, hthread, hnone] using hkeeps
        | @removed credentialId passwordOk persistError r =>
            refine h.quiet rfl (fun _ _ _ hn => stored_removing hn)
              fun _ _ _ _ _ hmem => ?_
            dsimp only [World.removing] at hmem
            split at hmem
            · exact (List.mem_cons.mp hmem).resolve_left (by simp)
            · exact hmem
      exact hnextKept.quiet rfl (fun _ _ _ hn => hn) fun _ _ _ _ _ hmem => hmem

end World

/-- In a run whose steps all meet the condition, no counter goes back. -/
theorem countsKept_of_keepsCounts {store : PasskeyStore} {actions : List (Action F)}
    {w : World F}
    (halong : Transition.Along (World.step P cfg) (fun w a => w.keepsCounts a = true)
      (World.start store) actions)
    (hrun : Transition.run (World.step P cfg) (World.start store) actions = some w) :
    w.CountsKept := by
  refine Transition.run_invariant_along (fun _ _ _ h hkeeps hstep => h.step hkeeps hstep)
    halong hrun ⟨fun user credentialId n hn => ?_, fun _ _ _ _ _ hmem => by cases hmem⟩
  have hfind : (store.find user credentialId).map PasskeyRecord.signCount = some n := hn
  simp [World.start, hfind]

/-- The user of the sample passkey, whose stored count is 5, confirms with this count. -/
def confirmRun (count : UInt8) : List (Action Unit) :=
  [.request 0 sampleSession (.actionStart enrollPasskeyCeremony (.object [])),
    .advance 0 (sampleChance "c0"), .advance 0 (sampleChance "c0"),
    .request 1 sampleSession (.registerStart (some (.ok (sampleEnvelope "c0" count))) none),
    .advance 1 (sampleChance "c1"), .advance 1 (sampleChance "c1"),
    .advance 1 (sampleChance "c1"), .advance 1 (sampleChance "c1")]

theorem countsKept_confirmRun :
    ∃ w, Transition.run (World.step samplePlatform sampleConfig) (World.start sampleStore)
        (confirmRun 6) = some w ∧ w.CountsKept := by
  obtain ⟨w, hrun⟩ : ∃ w, Transition.run (World.step samplePlatform sampleConfig)
    (World.start sampleStore) (confirmRun 6) = some w := ⟨_, rfl⟩
  refine ⟨w, hrun, countsKept_of_keepsCounts ?_ hrun⟩
  exact Transition.along_of_check (by decide)

/-- An assertion that counts zero is accepted over the stored 5, and zero is stored. -/
theorem zero_count_over_stored :
    ¬ ∀ w, Transition.run (World.step samplePlatform sampleConfig) (World.start sampleStore)
      (confirmRun 0) = some w → w.CountsKept := by
  intro h
  have hback := (h _ rfl).highest "ops" "key-a" 0 (by decide)
  exact absurd hback (by decide)

end Genaryx.Ceremony
