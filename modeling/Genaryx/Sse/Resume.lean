import Genaryx.Sse.Cloud

/-!
# The Cloud stream resumes where it stopped

Every decoded event reaches the handle once and in order, and every attempt asks for what
comes after the last event that had an id, as long as the ids that the server sends are legal
in a header.

## Implementation notes

What the records, the phases and the attempts hold are three invariants, each kept by every
step; only the last needs the condition.
-/

namespace Genaryx.Sse

open Base Ingest

theorem sends_request (H : HttpClient) (config : CloudSseConfig) (lastEventId : Option Text) :
    H.sends (config.request lastEventId) =
      (H.accepts config.url config.bearerToken && lastEventId.all H.legal) := by
  cases lastEventId with
  | none => rfl
  | some id =>
      rw [Option.all_some, ← Bool.and_true (H.legal id)]
      rfl

/-- The id of the last of these events that had one. -/
def lastIdOf (events : List SseEvent) : Option Text := (events.filterMap SseEvent.id).getLast?

@[simp] theorem lastIdOf_concat (events : List SseEvent) (e : SseEvent) :
    lastIdOf (events ++ [e]) = e.id.or (lastIdOf events) := by
  rw [lastIdOf, List.filterMap_append]
  cases hid : e.id with
  | none =>
      rw [List.filterMap_cons_none hid, List.filterMap_nil, List.append_nil]
      rfl
  | some id =>
      rw [List.filterMap_cons_some hid, List.filterMap_nil, List.getLast?_concat]
      rfl

theorem ne_nil_of_lastIdOf {events : List SseEvent} {id : Text} (h : lastIdOf events = some id) :
    events ≠ [] := by
  rintro rfl
  cases h

theorem Duration.eq_zero {d : Duration} (h : d.nanos = 0) : d = .zero := by
  cases d
  cases h
  rfl

/-- How long the wait after this many failures in a row is, in nanoseconds. -/
def waitAfter (config : CloudSseConfig) (failures : Nat) : Nat :=
  if failures = 0 then 0
  else Nat.min (config.initialBackoff.nanos * 2 ^ Nat.min (failures - 1) 31)
    config.maxBackoff.nanos

section Waits

variable (config : CloudSseConfig)

/-- The product that is capped in 96 bits is capped by the largest wait alone. -/
theorem nanos_backoffDelay (attempt : UInt32) :
    (backoffDelay config attempt).nanos = waitAfter config attempt.toNat := by
  have hmax := config.maxBackoff.fits
  have hzero : attempt = 0 ↔ attempt.toNat = 0 := UInt32.toNat_inj.symm
  unfold backoffDelay waitAfter
  simp only [hzero]
  split
  · rfl
  · generalize 2 ^ Nat.min (attempt.toNat - 1) 31 = k
    simp only [Duration.min, Duration.saturatingMul]
    split <;> split <;> simp only [Duration.largest, Nat.min_def] at * <;> split <;> omega

theorem waitAfter_le (failures : Nat) : waitAfter config failures ≤ config.maxBackoff.nanos := by
  unfold waitAfter
  split
  · exact Nat.zero_le _
  · exact Nat.min_le_right _ _

theorem waitAfter_mono {m n : Nat} (h : m ≤ n) : waitAfter config m ≤ waitAfter config n := by
  unfold waitAfter
  split
  · exact Nat.zero_le _
  · rw [if_neg (by omega)]
    have hshift : Nat.min (m - 1) 31 ≤ Nat.min (n - 1) 31 := by
      simp only [Nat.min_def]
      split <;> split <;> omega
    have hmul := Nat.mul_le_mul_left config.initialBackoff.nanos
      (Nat.pow_le_pow_right (show 0 < 2 by decide) hshift)
    exact le_min ((Nat.min_le_left _ _).trans hmul) (Nat.min_le_right _ _)

theorem waitAfter_one : waitAfter config 1 =
    (config.initialBackoff.min config.maxBackoff).nanos := by
  have hproduct : config.initialBackoff.nanos * 2 ^ Nat.min (1 - 1) 31 =
      config.initialBackoff.nanos := Nat.mul_one _
  rw [waitAfter, if_neg (by decide), hproduct, Duration.min]
  simp only [Nat.min_def]
  split <;> rfl

end Waits

/-- The worker goes on and has nothing to forward. -/
def Phase.idle : Phase → Bool
  | .streaming _ _ _ (_ :: _) => false
  | .ended _ => false
  | _ => true

namespace CloudSse

variable {H : HttpClient} {config : CloudSseConfig} {s t : CloudSse} {a : CloudAction}

/-- What a step does, by what the worker and the handle are at. -/
inductive Moved (H : HttpClient) (config : CloudSseConfig) (s : CloudSse) : CloudSse → Prop
  | signalStop : Moved H config s { s with stop := true }
  | dropReceiver : Moved H config s { s with receiver := false }
  | tryRecv (hreceiver : s.receiver = true) : Moved H config s s.tryRecv
  | loop (hphase : s.phase = .top) : Moved H config s (s.loop config)
  | elapsed {delay : Duration} (hphase : s.phase = .waiting delay) :
      Moved H config s (s.elapsed delay)
  | stopSeen (hstop : s.stop = true) (hidle : s.phase.idle = true) :
      Moved H config s { s with phase := .ended .stopped }
  | connect {waited : Duration} (hphase : s.phase = .ready waited) :
      Moved H config s (s.connect H config waited)
  | failed (hphase : s.phase = .connecting) : Moved H config s (s.disconnected false none)
  | opened (hphase : s.phase = .connecting)
      (hsends : H.sends (config.request s.lastEventId) = true) :
      Moved H config s { s with phase := .streaming {} false s.lastEventId [] }
  | read {decoder : SseDecoder} {gotEvent : Bool} {newestId : Option Text}
      (hphase : s.phase = .streaming decoder gotEvent newestId []) (fed : List SseEvent)
      (decoder' : SseDecoder) :
      Moved H config s
        { s with
          phase := .streaming decoder' gotEvent newestId fed
          decoded := s.decoded ++ fed }
  | forward {decoder : SseDecoder} {gotEvent : Bool} {newestId : Option Text} {e : SseEvent}
      {rest : List SseEvent} (hphase : s.phase = .streaming decoder gotEvent newestId (e :: rest)) :
      Moved H config s (s.forward decoder newestId e rest)
  | bodyEnded {decoder : SseDecoder} {gotEvent : Bool} {newestId : Option Text}
      (hphase : s.phase = .streaming decoder gotEvent newestId []) :
      Moved H config s (s.disconnected gotEvent newestId)

theorem moved_of_step (hstep : s.step H config a = some t) : Moved H config s t := by
  cases a with
  | signalStop =>
      cases hstep
      exact .signalStop
  | dropReceiver =>
      simp only [step] at hstep
      split at hstep <;> cases hstep
      exact .dropReceiver
  | tryRecv =>
      simp only [step] at hstep
      split at hstep <;> cases hstep
      next hreceiver => exact .tryRecv hreceiver
  | loop =>
      simp only [step] at hstep
      split at hstep <;> cases hstep
      next hphase => exact .loop hphase
  | elapsed =>
      simp only [step] at hstep
      split at hstep <;> cases hstep
      next delay hphase => exact .elapsed hphase
  | stopSeen =>
      simp only [step] at hstep
      split at hstep
      next delay hphase =>
          split at hstep <;> cases hstep
          next hstop => exact .stopSeen hstop.1 (hphase ▸ rfl)
      next hphase =>
          split at hstep <;> cases hstep
          next hstop => exact .stopSeen hstop (hphase ▸ rfl)
      next hphase =>
          split at hstep <;> cases hstep
          next hstop => exact .stopSeen hstop (hphase ▸ rfl)
      next => cases hstep
  | connect =>
      simp only [step] at hstep
      split at hstep <;> cases hstep
      next waited hphase => exact .connect hphase
  | sendFailed =>
      simp only [step] at hstep
      split at hstep <;> cases hstep
      next hphase => exact .failed hphase
  | responded status =>
      simp only [step] at hstep
      split at hstep
      next hphase =>
          split at hstep
          next hsends =>
              split at hstep <;> cases hstep
              · exact .opened hphase hsends
              · exact .failed hphase
          next => cases hstep
      next => cases hstep
  | read chunk =>
      simp only [step] at hstep
      split at hstep <;> cases hstep
      next hphase => exact .read hphase _ _
  | forward =>
      simp only [step] at hstep
      split at hstep <;> cases hstep
      next hphase => exact .forward hphase
  | bodyEnded =>
      simp only [step] at hstep
      split at hstep <;> cases hstep
      next hphase => exact .bodyEnded hphase

/-- The events that a connection has decoded but not forwarded. -/
def todo (s : CloudSse) : List SseEvent :=
  match s.phase with
  | .streaming _ _ _ todo => todo
  | _ => []

/-- What the handle returned and what it still will, against what was decoded. -/
structure RecordsSound (s : CloudSse) : Prop where
  received : s.delivered ++ s.out ++ s.events = s.forwarded.map SseEvent.record
  decoded : s.receiver = true → s.forwarded ++ s.todo = s.decoded
  forwarded : s.forwarded <+: s.decoded
  reported : s.endReported = true →
    (∃ why, s.phase = .ended why) ∧ s.out = [] ∧ s.events = [] ∧ s.forwarded = s.decoded

/-- A step of a poll moves records on and loses none. -/
theorem recordsSound_tryRecv (h : s.RecordsSound) (hreceiver : s.receiver = true) :
    s.tryRecv.RecordsSound := by
  have hreceived := h.received
  have hdecoded := h.decoded hreceiver
  have hreturned (hevents : s.events = []) :
      { s with delivered := s.delivered ++ s.out, out := [] }.RecordsSound := by
    refine ⟨?_, h.decoded, h.forwarded, fun hreported => ?_⟩
    · rw [← hreceived, List.append_nil]
    · obtain ⟨hended, -, -, hall⟩ := h.reported hreported
      exact ⟨hended, rfl, hevents, hall⟩
  unfold tryRecv
  split
  · next record rest hevents =>
      rw [hevents] at hreceived
      refine ⟨?_, h.decoded, h.forwarded, fun hreported => ?_⟩
      · rw [← hreceived]
        simp only [List.append_assoc, List.singleton_append]
      · obtain ⟨-, -, hnone, -⟩ := h.reported hreported
        rw [hevents] at hnone
        cases hnone
  · next hevents =>
      split
      · next why hphase =>
          split
          · next hout =>
              have htodo : s.todo = [] := by rw [todo, hphase]
              rw [htodo, List.append_nil] at hdecoded
              exact ⟨h.received, h.decoded, h.forwarded,
                fun _ => ⟨⟨why, hphase⟩, List.isEmpty_iff.mp hout, hevents, hdecoded⟩⟩
          · exact hreturned hevents
      · exact hreturned hevents

/-- The worker changes its phase where it has nothing to forward. -/
theorem RecordsSound.move (h : s.RecordsSound) (hidle : s.phase.idle = true) (phase : Phase)
    (attempt : UInt32) (lastEventId : Option Text) (failures : Nat) (log : List Attempt)
    (htodo : { s with phase := phase }.todo = []) :
    { s with phase, attempt, lastEventId, failures, log }.RecordsSound := by
  have hnone : s.todo = [] := by
    unfold todo
    split
    · next decoder gotEvent newestId rest hphase =>
        rw [hphase] at hidle
        cases rest with
        | nil => rfl
        | cons e rest => cases hidle
    · rfl
  refine ⟨h.received, fun hreceiver => ?_, h.forwarded, fun hreported => ?_⟩
  · have hdecoded := h.decoded hreceiver
    rw [hnone] at hdecoded
    exact (congrArg (s.forwarded ++ ·) htodo).trans hdecoded
  · obtain ⟨⟨why, hended⟩, -⟩ := h.reported hreported
    rw [hended] at hidle
    cases hidle

/-- A decoded event that is forwarded is behind those before it. -/
theorem recordsSound_forward {decoder : SseDecoder} {gotEvent : Bool} {newestId : Option Text}
    {e : SseEvent} {rest : List SseEvent} (h : s.RecordsSound)
    (hphase : s.phase = .streaming decoder gotEvent newestId (e :: rest)) :
    (s.forward decoder newestId e rest).RecordsSound := by
  have htodo : s.todo = e :: rest := by rw [todo, hphase]
  have hreported (hreported : s.endReported = true) : False := by
    obtain ⟨⟨why, hended⟩, -⟩ := h.reported hreported
    rw [hphase] at hended
    cases hended
  unfold forward
  split
  · next hreceiver =>
      have hdecoded := h.decoded hreceiver
      rw [htodo, ← List.singleton_append, ← List.append_assoc] at hdecoded
      refine ⟨?_, fun _ => hdecoded, ⟨rest, hdecoded⟩, fun hr => (hreported hr).elim⟩
      rw [List.map_append, ← h.received, ← List.append_assoc]
      rfl
  · next hreceiver =>
      exact ⟨h.received, fun hr => absurd hr hreceiver, h.forwarded,
        fun hr => (hreported hr).elim⟩

/-- Every step keeps the records in order. -/
theorem recordsSound_step (h : s.RecordsSound) (hstep : s.step H config a = some t) :
    t.RecordsSound := by
  cases moved_of_step hstep with
  | signalStop => exact ⟨h.received, h.decoded, h.forwarded, h.reported⟩
  | dropReceiver => exact ⟨h.received, (nomatch ·), h.forwarded, h.reported⟩
  | tryRecv hreceiver => exact recordsSound_tryRecv h hreceiver
  | loop hphase =>
      have hmove := h.move (hphase ▸ rfl)
      unfold loop
      split
      · exact hmove _ _ _ _ _ rfl
      split
      · exact hmove _ _ _ _ _ rfl
      split
      · exact hmove _ _ _ _ _ rfl
      · exact hmove _ _ _ _ _ rfl
  | elapsed hphase =>
      have hmove := h.move (hphase ▸ rfl)
      unfold elapsed
      split
      · exact hmove _ _ _ _ _ rfl
      · exact hmove _ _ _ _ _ rfl
  | stopSeen hstop hidle => exact h.move hidle _ _ _ _ _ rfl
  | connect hphase | failed hphase | opened hphase hsends | bodyEnded hphase =>
      exact h.move (hphase ▸ rfl) _ _ _ _ _ rfl
  | read hphase fed decoder' =>
      have htodo : s.todo = [] := by rw [todo, hphase]
      refine ⟨h.received, fun hreceiver => ?_, h.forwarded.trans (List.prefix_append _ _),
        fun hreported => ?_⟩
      · have hdecoded := h.decoded hreceiver
        rw [htodo, List.append_nil] at hdecoded
        rw [← hdecoded]
        rfl
      · obtain ⟨⟨why, hended⟩, -⟩ := h.reported hreported
        rw [hphase] at hended
        cases hended
  | forward hphase => exact recordsSound_forward h hphase

/-- The counter is that of the attempt after `n` failures in a row, and the budget allows for
them. -/
structure Counted (config : CloudSseConfig) (attempt : UInt32) (n budget : Nat) : Prop where
  attempt_eq : attempt.toNat = n % 2 ^ 32
  within : ∀ m, config.maxAttempts = some m → budget ≤ m.toNat

/-- A budget that allows for the failures so far is not passed by the counter. -/
theorem Counted.toNat_attempt {attempt m : UInt32} {n : Nat} (h : Counted config attempt n n)
    (hm : config.maxAttempts = some m) : attempt.toNat = n := by
  have hwithin := h.within m hm
  have hlt := m.toNat_lt
  rw [h.attempt_eq, Nat.mod_eq_of_lt (by omega)]

/-- A budget that is not used up allows for one more attempt. -/
theorem Counted.goesOn {attempt : UInt32} {n : Nat} (h : Counted config attempt n n)
    (hbudget : ¬ config.maxAttempts.any (· ≤ attempt) = true) :
    Counted config attempt n (n + 1) := by
  refine ⟨h.attempt_eq, fun m hm => ?_⟩
  rw [hm, Option.any_some, decide_eq_true_eq, UInt32.le_iff_toNat_le, h.toNat_attempt hm]
    at hbudget
  omega

theorem Counted.connect {attempt : UInt32} {n budget : Nat} (h : Counted config attempt n budget) :
    Counted config (attempt + 1) (n + 1) budget := by
  refine ⟨?_, h.within⟩
  rw [UInt32.toNat_add, h.attempt_eq]
  exact Nat.mod_add_mod n (2 ^ 32) 1

/-- What the phase says about the counter, the id to resume after and the end. -/
def PhaseFits (H : HttpClient) (config : CloudSseConfig) (s : CloudSse) : Prop :=
  match s.phase with
  | .top => Counted config s.attempt s.failures s.failures ∧ s.lastEventId = lastIdOf s.forwarded
  | .waiting delay =>
      Counted config s.attempt s.failures (s.failures + 1) ∧
        s.lastEventId = lastIdOf s.forwarded ∧ delay = backoffDelay config s.attempt
  | .ready delay =>
      Counted config s.attempt s.failures (s.failures + 1) ∧
        s.lastEventId = lastIdOf s.forwarded ∧ delay = backoffDelay config s.attempt
  | .connecting =>
      Counted config s.attempt (s.failures + 1) (s.failures + 1) ∧
        s.lastEventId = lastIdOf s.forwarded
  | .streaming _ gotEvent newestId _ =>
      (gotEvent = false → Counted config s.attempt (s.failures + 1) (s.failures + 1)) ∧
        (newestId = lastIdOf s.forwarded ∧ (newestId = none → s.lastEventId = none)) ∧
          H.accepts config.url config.bearerToken = true
  | .ended .stopped => s.stop = true
  | .ended .receiverGone => s.receiver = false
  | .ended .gaveUp => ∃ m, config.maxAttempts = some m ∧ s.failures = m.toNat

/-- What the handle signals changes nothing in what the phase says. -/
theorem phaseFits_signal (h : s.PhaseFits H config) {stop receiver : Bool}
    (hstop : s.stop = true → stop = true) (hreceiver : s.receiver = false → receiver = false) :
    { s with stop, receiver }.PhaseFits H config := by
  unfold PhaseFits at h ⊢
  dsimp only
  cases hphase : s.phase with
  | ended why =>
      rw [hphase] at h
      cases why with
      | stopped => exact hstop h
      | receiverGone => exact hreceiver h
      | gaveUp => exact h
  | _ =>
      rw [hphase] at h
      exact h

/-- An attempt that ends brings the worker back to the top of the loop. -/
theorem phaseFits_disconnected {gotEvent : Bool} {newestId : Option Text}
    (hcounted : gotEvent = false → Counted config s.attempt (s.failures + 1) (s.failures + 1))
    (hid : newestId.or s.lastEventId = lastIdOf s.forwarded) :
    (s.disconnected gotEvent newestId).PhaseFits H config := by
  cases gotEvent with
  | false => exact ⟨hcounted rfl, hid⟩
  | true => exact ⟨⟨rfl, fun m _ => Nat.zero_le _⟩, hid⟩

/-- What a poll takes changes nothing in what the phase says. -/
theorem phaseFits_tryRecv (h : s.PhaseFits H config) : s.tryRecv.PhaseFits H config := by
  unfold tryRecv
  split
  · exact h
  split
  · split
    · exact h
    · exact h
  · exact h

/-- At the top of the loop the budget is used up, or allows for one more attempt. -/
theorem phaseFits_loop (h : s.PhaseFits H config) (hphase : s.phase = .top) :
    (s.loop config).PhaseFits H config := by
  rw [PhaseFits, hphase] at h
  obtain ⟨hcounted, hid⟩ := h
  unfold loop
  split
  · next hstop => exact hstop
  split
  · next hgave =>
      rcases hmax : config.maxAttempts with _ | m
      · rw [hmax] at hgave
        cases hgave
      · rw [hmax, Option.any_some, decide_eq_true_eq, UInt32.le_iff_toNat_le,
          hcounted.toNat_attempt hmax] at hgave
        exact ⟨m, hmax, le_antisymm (hcounted.within m hmax) hgave⟩
  · next hbudget =>
      have hgoesOn := hcounted.goesOn hbudget
      split
      · exact ⟨hgoesOn, hid, rfl⟩
      · next hattempt =>
          have hzero : s.attempt = 0 := UInt32.toNat_inj.mp (by
            rw [UInt32.lt_iff_toNat_lt] at hattempt
            exact Nat.eq_zero_of_not_pos hattempt)
          refine ⟨hgoesOn, hid, ?_⟩
          dsimp only
          rw [hzero]
          rfl

/-- An event that is forwarded brings its id, if it has one. -/
theorem phaseFits_forward {decoder : SseDecoder} {gotEvent : Bool} {newestId : Option Text}
    {e : SseEvent} {rest : List SseEvent} (h : s.PhaseFits H config)
    (hphase : s.phase = .streaming decoder gotEvent newestId (e :: rest)) :
    (s.forward decoder newestId e rest).PhaseFits H config := by
  rw [PhaseFits, hphase] at h
  unfold forward
  split
  · refine ⟨(nomatch ·), ⟨?_, fun hnone => ?_⟩, h.2.2⟩
    · rw [lastIdOf_concat, h.2.1.1]
    · exact h.2.1.2 (Option.or_eq_none_iff.mp hnone).2
  · next hreceiver => exact Bool.eq_false_iff.mpr hreceiver

/-- Every step keeps what the phase says. -/
theorem phaseFits_step (h : s.PhaseFits H config) (hstep : s.step H config a = some t) :
    t.PhaseFits H config := by
  cases moved_of_step hstep with
  | signalStop => exact phaseFits_signal h (fun _ => rfl) id
  | dropReceiver => exact phaseFits_signal h id fun _ => rfl
  | tryRecv => exact phaseFits_tryRecv h
  | loop hphase => exact phaseFits_loop h hphase
  | elapsed hphase =>
      rw [PhaseFits, hphase] at h
      unfold elapsed
      split
      · next hstop => exact hstop.2
      · exact h
  | stopSeen hstop => exact hstop
  | connect hphase =>
      rw [PhaseFits, hphase] at h
      exact ⟨h.1.connect, h.2.1⟩
  | failed hphase =>
      rw [PhaseFits, hphase] at h
      exact phaseFits_disconnected (fun _ => h.1) h.2
  | opened hphase hsends =>
      rw [PhaseFits, hphase] at h
      rw [sends_request, Bool.and_eq_true] at hsends
      exact ⟨fun _ => h.1, ⟨h.2, id⟩, hsends.1⟩
  | read hphase =>
      rw [PhaseFits, hphase] at h
      exact h
  | forward hphase => exact phaseFits_forward h hphase
  | @bodyEnded _ _ newestId hphase =>
      rw [PhaseFits, hphase] at h
      refine phaseFits_disconnected h.1 ?_
      obtain ⟨hnewest, hkept⟩ := h.2.1
      cases newestId with
      | none => rw [Option.none_or, hkept rfl, hnewest]
      | some id => rw [Option.some_or, hnewest]

/-- What is remembered of one attempt. -/
structure AttemptSound (H : HttpClient) (config : CloudSseConfig) (a : Attempt) : Prop where
  waited : a.waited.nanos = waitAfter config (a.failures % 2 ^ 32)
  resumes : a.request = config.request (lastIdOf a.before)
  wellFormed : a.wellFormed = H.sends a.request
  accepts : a.before ≠ [] → H.accepts config.url config.bearerToken = true

/-- The attempts that are counted as failures, with the one that is going on. -/
def counting (s : CloudSse) : Nat :=
  match s.phase with
  | .connecting => s.failures + 1
  | .streaming _ _ _ _ => s.failures + 1
  | _ => s.failures

/-- What is remembered of all attempts, where a failure is one of them. -/
structure LogSound (H : HttpClient) (config : CloudSseConfig) (s : CloudSse) : Prop where
  attempts : ∀ a ∈ s.log, AttemptSound H config a
  accepts : s.forwarded ≠ [] → H.accepts config.url config.bearerToken = true
  counted : ∀ n < s.counting, ∃ a ∈ s.log, a.failures = n
  covered : ∀ a ∈ s.log, ∀ n < a.failures, ∃ b ∈ s.log, b.failures = n

/-- A step without an attempt keeps the log. -/
theorem LogSound.keep (h : s.LogSound H config) {t : CloudSse} (hlog : t.log = s.log)
    (hforwarded : t.forwarded = s.forwarded) (hcounting : t.counting ≤ s.counting) :
    t.LogSound H config := by
  refine ⟨hlog ▸ h.attempts, hforwarded ▸ h.accepts, fun n hn => ?_, hlog ▸ h.covered⟩
  rw [hlog]
  exact h.counted n (lt_of_lt_of_le hn hcounting)

theorem LogSound.disconnected (h : s.LogSound H config) (hcounting : s.counting = s.failures + 1)
    (gotEvent : Bool) (newestId : Option Text) :
    (s.disconnected gotEvent newestId).LogSound H config := by
  refine h.keep rfl rfl ?_
  rw [hcounting]
  cases gotEvent with
  | false => exact le_rfl
  | true => exact Nat.zero_le _

/-- One more attempt is remembered with the failures before it. -/
theorem logSound_connect {waited : Duration} (h : s.LogSound H config)
    (hfits : s.PhaseFits H config) (hphase : s.phase = .ready waited) :
    (s.connect H config waited).LogSound H config := by
  rw [PhaseFits, hphase] at hfits
  obtain ⟨hcounted, hid, hdelay⟩ := hfits
  have hcounting : s.counting = s.failures := by rw [counting, hphase]
  have hlogged : ∀ n < s.failures, ∃ a ∈ (s.connect H config waited).log, a.failures = n := by
    intro n hn
    obtain ⟨a, ha, hfailures⟩ := h.counted n (hcounting ▸ hn)
    exact ⟨a, List.mem_append_left _ ha, hfailures⟩
  refine ⟨List.forall_mem_append.mpr ⟨h.attempts, List.forall_mem_singleton.mpr ?_⟩,
    h.accepts, fun n hn => ?_, List.forall_mem_append.mpr ⟨fun a ha n hn => ?_,
      List.forall_mem_singleton.mpr hlogged⟩⟩
  · refine ⟨?_, congrArg config.request hid, rfl, h.accepts⟩
    dsimp only
    rw [hdelay, nanos_backoffDelay, hcounted.attempt_eq]
  · rcases Nat.lt_succ_iff_lt_or_eq.mp hn with hlt | rfl
    · exact hlogged n hlt
    · exact ⟨_, List.mem_append_right _ (List.mem_singleton_self _), rfl⟩
  · obtain ⟨b, hb, hfailures⟩ := h.covered a ha n hn
    exact ⟨b, List.mem_append_left _ hb, hfailures⟩

/-- Every step keeps the log. -/
theorem logSound_step (h : s.LogSound H config) (hphase : s.PhaseFits H config)
    (hstep : s.step H config a = some t) : t.LogSound H config := by
  have hle : s.failures ≤ s.counting := by
    unfold counting
    split <;> omega
  cases moved_of_step hstep with
  | signalStop | dropReceiver => exact h.keep rfl rfl le_rfl
  | tryRecv =>
      unfold tryRecv
      split
      · exact h.keep rfl rfl le_rfl
      split
      · split
        · exact h.keep rfl rfl le_rfl
        · exact h.keep rfl rfl le_rfl
      · exact h.keep rfl rfl le_rfl
  | loop =>
      unfold loop
      split
      · exact h.keep rfl rfl hle
      split
      · exact h.keep rfl rfl hle
      split
      · exact h.keep rfl rfl hle
      · exact h.keep rfl rfl hle
  | elapsed =>
      unfold elapsed
      split
      · exact h.keep rfl rfl hle
      · exact h.keep rfl rfl hle
  | stopSeen => exact h.keep rfl rfl hle
  | connect hready => exact logSound_connect h hphase hready
  | failed hconnecting => exact h.disconnected (by rw [counting, hconnecting]) _ _
  | opened hconnecting =>
      have hcounting : s.counting = s.failures + 1 := by rw [counting, hconnecting]
      exact h.keep rfl rfl hcounting.ge
  | read hstreaming =>
      have hcounting : s.counting = s.failures + 1 := by rw [counting, hstreaming]
      exact h.keep rfl rfl hcounting.ge
  | forward hstreaming =>
      have hcounting : s.counting = s.failures + 1 := by rw [counting, hstreaming]
      rw [PhaseFits, hstreaming] at hphase
      unfold forward
      split
      · exact ⟨h.attempts, fun _ => hphase.2.2, fun n hn => h.counted n (hcounting ▸ hn),
          h.covered⟩
      · exact h.keep rfl rfl hle
  | bodyEnded hstreaming => exact h.disconnected (by rw [counting, hstreaming]) _ _

/-- The stream of one handle resumes where it stopped. -/
structure Resumes (config : CloudSseConfig) (s : CloudSse) : Prop where
  in_order : s.delivered <+: s.decoded.map fun e => ⟨e.data, none, none⟩
  nothing_lost : s.receiver = true →
    s.delivered ++ s.out ++ s.events ++ s.todo.map SseEvent.record =
      s.decoded.map SseEvent.record
  end_last : s.endReported = true → s.delivered = s.decoded.map fun e => ⟨e.data, none, none⟩
  names_last_id : ∀ a ∈ s.log, ∀ id, lastIdOf a.before = some id →
    a.wellFormed = true ∧
      a.request = ⟨config.url, config.bearerToken, [("Last-Event-ID".toList, id)]⟩
  waits_nothing : ∀ a ∈ s.log, a.failures = 0 → a.waited.nanos = 0
  starts : ∀ a ∈ s.log, a.failures = 1 →
    a.waited.nanos = (config.initialBackoff.min config.maxBackoff).nanos
  never_decreases : ∀ a ∈ s.log, ∀ b ∈ s.log, a.failures ≤ b.failures →
    a.waited.nanos ≤ b.waited.nanos
  never_exceeds : ∀ a ∈ s.log, a.waited.nanos ≤ config.maxBackoff.nanos
  never_overflows : ∀ a ∈ s.log, a.waited.nanos = waitAfter config a.failures
  ends : ∀ why, s.phase = .ended why →
    match why with
    | .stopped => s.stop = true
    | .receiverGone => s.receiver = false
    | .gaveUp => ∃ m, config.maxAttempts = some m ∧ s.failures = m.toNat

end CloudSse

/-- The id that the stream has to be resumed after is legal in a header, and the counter of the
attempts has not wrapped unless there is no wait to wrap. -/
structure Attempt.Sendable (H : HttpClient) (config : CloudSseConfig) (a : Attempt) : Prop where
  legal : ∀ id, lastIdOf a.before = some id → H.legal id = true
  counted : a.failures < 2 ^ 32 ∨ config.initialBackoff = .zero ∨ config.maxBackoff = .zero

/-- A run of the worker and its handle. -/
structure CloudRun (H : HttpClient) (config : CloudSseConfig) where
  actions : List CloudAction
  state : CloudSse
  reached : Transition.run (CloudSse.step H config) {} actions = some state

namespace CloudRun

variable {H : HttpClient} {config : CloudSseConfig} (r : CloudRun H config)

theorem recordsSound : r.state.RecordsSound :=
  Transition.run_invariant (fun _ _ _ h hstep => CloudSse.recordsSound_step h hstep) r.reached
    ⟨rfl, fun _ => rfl, List.prefix_refl _, (nomatch ·)⟩

theorem phase_log_sound : r.state.PhaseFits H config ∧ r.state.LogSound H config :=
  Transition.run_invariant
    (I := fun s => CloudSse.PhaseFits H config s ∧ CloudSse.LogSound H config s)
    (fun _ _ _ h hstep =>
      ⟨CloudSse.phaseFits_step h.1 hstep, CloudSse.logSound_step h.2 h.1 hstep⟩)
    r.reached
    ⟨⟨⟨rfl, fun _ _ => Nat.zero_le _⟩, rfl⟩,
      ⟨fun _ h => absurd h List.not_mem_nil, fun h => absurd rfl h,
        fun _ h => absurd h (Nat.not_lt_zero _), fun _ h => absurd h List.not_mem_nil⟩⟩

/-- Without a wait the counter does not matter. -/
theorem waitAfter_zero (h : config.initialBackoff = .zero ∨ config.maxBackoff = .zero)
    (failures : Nat) : waitAfter config failures = 0 := by
  unfold waitAfter
  split
  · rfl
  · rcases h with h | h
    · rw [h]
      exact Nat.eq_zero_of_le_zero ((Nat.min_le_left _ _).trans (Nat.zero_mul _).le)
    · rw [h]
      exact Nat.eq_zero_of_le_zero (Nat.min_le_right _ _)

/-- After a full turn of the counter an attempt waits nothing again. -/
theorem turns_over {s : CloudSse} (h : s.LogSound H config) {a : Attempt} (ha : a ∈ s.log)
    (hfailures : 2 ^ 32 ≤ a.failures) :
    ∃ b ∈ s.log, b.failures = 2 ^ 32 ∧ b.waited.nanos = 0 := by
  obtain ⟨b, hb, hturn⟩ : ∃ b ∈ s.log, b.failures = 2 ^ 32 := by
    rcases Nat.lt_or_eq_of_le hfailures with hlt | heq
    · exact h.covered a ha _ hlt
    · exact ⟨a, ha, heq.symm⟩
  refine ⟨b, hb, hturn, ?_⟩
  rw [(h.attempts b hb).waited, hturn, Nat.mod_self]
  rfl

/-- The waits are those of unbounded arithmetic as long as the counter has not wrapped. -/
theorem waited_eq {a : Attempt} (h : CloudSse.AttemptSound H config a)
    (hcounted : a.failures < 2 ^ 32 ∨ config.initialBackoff = .zero ∨ config.maxBackoff = .zero) :
    a.waited.nanos = waitAfter config a.failures := by
  rcases hcounted with hlt | hzero
  · rw [h.waited, Nat.mod_eq_of_lt hlt]
  · rw [h.waited, waitAfter_zero hzero, waitAfter_zero hzero]

/-- The stream resumes exactly when every attempt that was made had a legal id to name and a
counter that had not wrapped. -/
theorem resumes_iff : r.state.Resumes config ↔ ∀ a ∈ r.state.log, a.Sendable H config := by
  have hrecords := r.recordsSound
  obtain ⟨hphase, hlog⟩ := r.phase_log_sound
  constructor
  · intro h a ha
    have hsound := hlog.attempts a ha
    refine ⟨fun id hid => ?_, ?_⟩
    · obtain ⟨hwell, -⟩ := h.names_last_id a ha id hid
      rw [hsound.wellFormed, hsound.resumes, hid, sends_request, Bool.and_eq_true] at hwell
      exact hwell.2
    · refine (Nat.lt_or_ge a.failures (2 ^ 32)).imp id fun hturned => ?_
      obtain ⟨b, hb, hfailures, hwaited⟩ := turns_over hlog ha hturned
      have hexact := h.never_overflows b hb
      rw [hwaited, hfailures, waitAfter, if_neg (by decide)] at hexact
      exact (Nat.min_eq_zero_iff.mp hexact.symm).imp
        (fun hproduct => Duration.eq_zero ((Nat.mul_eq_zero.mp hproduct).resolve_right
          (by decide))) Duration.eq_zero
  · intro h
    have hwaited : ∀ a ∈ r.state.log, a.waited.nanos = waitAfter config a.failures :=
      fun a ha => waited_eq (hlog.attempts a ha) (h a ha).counted
    refine ⟨?_, fun hreceiver => ?_, fun hreported => ?_, fun a ha id hid => ?_,
      fun a ha hnone => ?_, fun a ha hone => ?_, fun a ha b hb hle => ?_, fun a ha => ?_, hwaited,
      fun why hended => ?_⟩
    · obtain ⟨rest, hrest⟩ := hrecords.forwarded
      refine ⟨r.state.out ++ r.state.events ++ rest.map SseEvent.record, ?_⟩
      change _ = r.state.decoded.map SseEvent.record
      rw [← hrest, List.map_append, ← hrecords.received]
      simp only [List.append_assoc]
    · rw [hrecords.received, ← List.map_append, hrecords.decoded hreceiver]
    · obtain ⟨-, hout, hevents, hall⟩ := hrecords.reported hreported
      have hreceived := hrecords.received
      rwa [hout, hevents, List.append_nil, List.append_nil, hall] at hreceived
    · have hsound := hlog.attempts a ha
      refine ⟨?_, hsound.resumes.trans (congrArg config.request hid)⟩
      rw [hsound.wellFormed, hsound.resumes, hid, sends_request,
        hsound.accepts (ne_nil_of_lastIdOf hid), Option.all_some, (h a ha).legal id hid]
      rfl
    · rw [hwaited a ha, hnone]
      rfl
    · rw [hwaited a ha, hone, waitAfter_one]
    · rw [hwaited a ha, hwaited b hb]
      exact waitAfter_mono config hle
    · rw [hwaited a ha]
      exact waitAfter_le config a.failures
    · rw [CloudSse.PhaseFits, hended] at hphase
      cases why with
      | stopped => exact hphase
      | receiverGone => exact hphase
      | gaveUp => exact hphase

end CloudRun

section Sample

/-- A client that takes every url and token, and the texts that are legal in a header. -/
def sampleClient : HttpClient where
  accepts _ _ := true
  legal t := (Utf8.encode t).all fun b => (32 ≤ b && b ≠ 127) || b = 9

def sampleConfig : CloudSseConfig where
  url := "https://cloud.tokenfuse.example/v1/stream"
  bearerToken := "secret-token"
  initialBackoff := ⟨250000000, by decide⟩
  maxBackoff := ⟨30000000000, by decide⟩
  maxAttempts := some 10

/-- An event whose id holds a control character, the end of its connection, and the next
attempt. -/
def controlId : List CloudAction :=
  [.loop, .connect, .responded 200, .read (Utf8.encode "id: a\x01\ndata: {}\n\n"), .forward,
    .bodyEnded, .loop, .connect]

end Sample

/-- After an id with a control character no request goes out. -/
theorem control_id_not_resumed :
    ¬ ∀ r : CloudRun sampleClient sampleConfig, r.state.Resumes sampleConfig := by
  intro h
  have hrun : ((Transition.run (CloudSse.step sampleClient sampleConfig) {} controlId).any
      fun s => s.log.any fun a => lastIdOf a.before = some "a\x01".toList && !a.wellFormed) =
        true := by
    decide +kernel
  obtain ⟨s, hreached, hlog⟩ := (Option.any_eq_true _ _).mp hrun
  obtain ⟨a, ha, hattempt⟩ := List.any_eq_true.mp hlog
  obtain ⟨hid, hrefused⟩ := (Bool.and_eq_true _ _).mp hattempt
  have hnamed := (h ⟨controlId, s, hreached⟩).names_last_id a ha _ (of_decide_eq_true hid)
  rw [hnamed.1] at hrefused
  cases hrefused

end Genaryx.Sse
