import Genaryx.Web.Gate

/-!
# What stands behind a dispatched command

Over any run, a command is dispatched only under a session whose role it allows. That session was
minted for the password of the one operator record that the console holds, or for a token that shows
its user and role under keys that the key source has held. When the request came in the session was
within both limits and not signed out.

## Implementation notes

A log is read newest first: what has happened since a session was minted stands in front of it.
-/

namespace Genaryx.Web.Gate

open Base Base.Transition
open Ceremony (Role requiredRole requiresCeremony)

variable {F Jwk Key : Type}

/-- The event ends what a session id stood for: the id is dropped, or minted again. -/
def Event.ends (id : Text) : Event Jwk → Bool
  | .signedIn i _ _ _ | .signedOut i => i = id
  | .fetched _ | .used _ _ _ _ | .dispatched _ _ _ => false

/-- When a session was last seen after an event, if it was seen at a time before it. -/
def Event.seen (id : Text) (before : Nat) : Event Jwk → Nat
  | .used i _ _ seenAt => if i = id then seenAt else before
  | .fetched _ | .signedIn _ _ _ _ | .signedOut _ | .dispatched _ _ _ => before

/-- When a session was last seen, by what has happened since it was minted. -/
def lastSeen (id : Text) (created : Nat) (since : List (Event Jwk)) : Nat :=
  since.foldr (fun e before => e.seen id before) created

variable (console : Console F Jwk Key)

/-- The key source has held these keys: it started with them or has fetched them. -/
def Console.HasHeld (log : List (Event Jwk)) (keys : Keys Jwk) : Prop :=
  keys = console.keys ∨ (console.live = true ∧ .fetched keys ∈ log)

/-- What a sign-in was accepted for shows its session: the password is that of the operator record
that the console holds, or the token shows the user and the role under keys that the source has
held. -/
def Proof.Shows (held : Option Operator) (log : List (Event Jwk)) (session : SessionInfo) :
    Proof Jwk → Prop
  | .password record username given =>
      held = some record ∧ verify console.passwordMatches record username given = true ∧
        session = ⟨record.username, .admin, .localAccount⟩
  | .token keys given =>
      console.HasHeld log keys ∧ ∃ cfg v, console.oidc = some cfg ∧
        Oidc.Shows console.reader cfg keys given v ∧ session = ⟨v.username, v.role, .oidc⟩

/-- A session stands: it was minted for what shows it, and since then its id was neither dropped nor
minted again. -/
def Stands (held : Option Operator) (log : List (Event Jwk)) (id : Text) (session : SessionInfo)
    (created seen : Nat) : Prop :=
  ∃ since before proof, log = since ++ .signedIn id session created proof :: before ∧
    proof.Shows console held before session ∧ (∀ e ∈ since, e.ends id = false) ∧
      lastSeen id created since = seen

/-- A request was admitted under a session: when it came in, the session stood and was within both
limits. -/
def Admitted (held : Option Operator) (log : List (Event Jwk)) (id : Text)
    (session : SessionInfo) : Prop :=
  ∃ later earlier readings seenAt created seen,
    log = later ++ .used id session readings seenAt :: earlier ∧
      Stands console held earlier id session created seen ∧
        readings.idleAt < seen + idleTimeout ∧ readings.lifeAt < created + absoluteLifetime

/-- A command may be dispatched: its role allows it, and its request was admitted. -/
def Backed (held : Option Operator) (log : List (Event Jwk)) (id : Text) (session : SessionInfo)
    (name : Text) : Prop :=
  (requiredRole name).rank ≤ session.role.rank ∧ Admitted console held log id session

/-- What is known of a request that has come so far. -/
def Pc.Sound (held : Option Operator) (log : List (Event Jwk)) : Pc Jwk → Prop
  | .verifyToken cfg _ => console.oidc = some cfg
  | .password r =>
      held = some r.operator ∧
        (r.stage = .passAccount ∨ r.stage = .passAddress →
          verify console.passwordMatches r.operator r.username r.password = true)
  | .mint info proof => proof.Shows console held log info
  | .ceremony id info name | .dispatch id info name => Backed console held log id info name
  | _ => True

/-- Every session of a table stands. -/
def TableSound (held : Option Operator) (log : List (Event Jwk)) (table : Sessions) : Prop :=
  ∀ id s, table id = some s → Stands console held log id s.info s.created s.lastSeen

/-- Whatever was dispatched was backed by what had happened before. -/
def LogSound (held : Option Operator) (log : List (Event Jwk)) : Prop :=
  ∀ later earlier id session name, log = later ++ .dispatched id session name :: earlier →
    Backed console held earlier id session name

/-- What every reachable world keeps. -/
structure World.Sound (w : World Jwk) : Prop where
  keys : console.HasHeld w.log w.keys
  table : TableSound console w.operator w.log w.sessions
  threads : ∀ thread pc, w.threads thread = some pc → pc.Sound console w.operator w.log
  log : LogSound console w.operator w.log

/-- A record that is held is held later. -/
def Keeps (held held' : Option Operator) : Prop :=
  ∀ operator, held = some operator → held' = some operator

variable {console} {held held' : Option Operator} {log : List (Event Jwk)} {id : Text}
  {session : SessionInfo} {created seen : Nat} {name : Text} {table : Sessions}

/-! ## What more events leave standing -/

theorem Console.HasHeld.mono {keys : Keys Jwk} (new : List (Event Jwk))
    (h : console.HasHeld log keys) : console.HasHeld (new ++ log) keys := by
  rcases h with h | ⟨hlive, hkeys⟩
  · exact .inl h
  · exact .inr ⟨hlive, List.mem_append_right new hkeys⟩

theorem Proof.Shows.mono {proof : Proof Jwk} (new : List (Event Jwk)) (hheld : Keeps held held')
    (h : proof.Shows console held log session) :
    proof.Shows console held' (new ++ log) session := by
  cases proof with
  | password operator username password => exact ⟨hheld operator h.1, h.2⟩
  | token keys token => exact ⟨h.1.mono new, h.2⟩

theorem Stands.mono (hheld : Keeps held held')
    (h : Stands console held log id session created seen) :
    Stands console held' log id session created seen := by
  obtain ⟨since, before, proof, hlog, hshows, hsince, hseen⟩ := h
  exact ⟨since, before, proof, hlog, hshows.mono [] hheld, hsince, hseen⟩

/-- One more event that does not end a session only moves when it was last seen. -/
theorem Stands.cons {e : Event Jwk} (h : Stands console held log id session created seen)
    (he : e.ends id = false) :
    Stands console held (e :: log) id session created (e.seen id seen) := by
  obtain ⟨since, before, proof, rfl, hshows, hsince, rfl⟩ := h
  refine ⟨e :: since, before, proof, rfl, hshows, ?_, rfl⟩
  intro x hx
  rcases List.mem_cons.mp hx with rfl | hx
  · exact he
  · exact hsince x hx

theorem Admitted.mono (new : List (Event Jwk)) (hheld : Keeps held held')
    (h : Admitted console held log id session) :
    Admitted console held' (new ++ log) id session := by
  obtain ⟨later, earlier, readings, seenAt, created, seen, rfl, hstands, hlimits⟩ := h
  exact ⟨new ++ later, earlier, readings, seenAt, created, seen, (List.append_assoc ..).symm,
    hstands.mono hheld, hlimits⟩

theorem Backed.mono (new : List (Event Jwk)) (hheld : Keeps held held')
    (h : Backed console held log id session name) :
    Backed console held' (new ++ log) id session name :=
  ⟨h.1, h.2.mono new hheld⟩

theorem Pc.Sound.mono {pc : Pc Jwk} (new : List (Event Jwk)) (hheld : Keeps held held')
    (h : pc.Sound console held log) : pc.Sound console held' (new ++ log) := by
  cases pc with
  | password r => exact ⟨hheld _ h.1, h.2⟩
  | mint session proof => exact Proof.Shows.mono new hheld h
  | ceremony id session name | dispatch id session name => exact Backed.mono new hheld h
  | verifyToken cfg token => exact h
  | _ => trivial

theorem LogSound.mono (hheld : Keeps held held') (h : LogSound console held log) :
    LogSound console held' log :=
  fun later earlier id session name hlog => (h later earlier id session name hlog).mono [] hheld

/-- One more event keeps the log sound, if it is backed where it dispatches. -/
theorem LogSound.cons {e : Event Jwk} (h : LogSound console held log)
    (he : ∀ id session name, e = .dispatched id session name →
      Backed console held log id session name) : LogSound console held (e :: log) := by
  intro later earlier id session name hlog
  cases later with
  | nil =>
      cases hlog
      exact he id session name rfl
  | cons x later =>
      cases hlog
      exact h later earlier id session name rfl

/-! ## What the calls to the table keep -/

theorem TableSound.mono (hheld : Keeps held held') (h : TableSound console held log table) :
    TableSound console held' log table :=
  fun id s hs => (h id s hs).mono hheld

/-- An event about no session leaves all of them. -/
theorem TableSound.cons {e : Event Jwk} (h : TableSound console held log table)
    (he : ∀ id, e.ends id = false ∧ ∀ before, e.seen id before = before) :
    TableSound console held (e :: log) table := by
  intro id s hs
  have hstands := (h id s hs).cons (he id).1
  rwa [(he id).2] at hstands

/-- Dropping a session leaves the others. -/
theorem TableSound.drop {e : Event Jwk} (h : TableSound console held log table) (id : Text)
    (he : ∀ i, i ≠ id → e.ends i = false ∧ ∀ before, e.seen i before = before) :
    TableSound console held (e :: log) (table.set id none) := by
  intro i s hs
  by_cases hi : i = id
  · rw [hi, Sessions.set, Function.update_self] at hs
    cases hs
  · rw [Sessions.set, Function.update_of_ne hi] at hs
    have hstands := (h i s hs).cons (he i hi).1
    rwa [(he i hi).2] at hstands

theorem TableSound.forget (h : TableSound console held log table) (id : Text) :
    TableSound console held log (table.set id none) := by
  intro i s hs
  by_cases hi : i = id
  · rw [hi, Sessions.set, Function.update_self] at hs
    cases hs
  · rw [Sessions.set, Function.update_of_ne hi] at hs
    exact h i s hs

/-- A session that a request found stood within both limits, and is seen now. -/
theorem TableSound.found {readings : Readings} {seenAt : Nat} {sessions : Sessions}
    (h : TableSound console held log table)
    (htouch : table.touch limits id readings seenAt = (some session, sessions)) :
    TableSound console held (.used id session readings seenAt :: log) sessions ∧
      Admitted console held (.used id session readings seenAt :: log) id session := by
  unfold Sessions.touch at htouch
  split at htouch
  next s hs =>
      split at htouch
      next hlive =>
          cases htouch
          have hstands := h id s hs
          rw [Limits.isLive, Bool.and_eq_true, decide_eq_true_eq, decide_eq_true_eq] at hlive
          constructor
          · intro i t ht
            by_cases hi : i = id
            · subst hi
              rw [Sessions.set, Function.update_self] at ht
              cases ht
              have hnext := hstands.cons (e := .used i s.info readings seenAt) rfl
              rwa [Event.seen, if_pos rfl] at hnext
            · rw [Sessions.set, Function.update_of_ne hi] at ht
              have hnext := (h i t ht).cons (e := .used id s.info readings seenAt) rfl
              rwa [Event.seen, if_neg (Ne.symm hi)] at hnext
          · refine ⟨[], log, readings, seenAt, s.created, s.lastSeen, rfl, hstands, ?_, ?_⟩
            · have hidle : readings.idleAt - s.lastSeen < idleTimeout := hlive.1
              omega
            · have hlife : readings.lifeAt - s.created < absoluteLifetime := hlive.2
              omega
      next => cases htouch
  next => cases htouch

/-- A request that finds no session leaves a sound table. -/
theorem TableSound.notFound {readings : Readings} {seenAt : Nat} {sessions : Sessions}
    (h : TableSound console held log table)
    (htouch : table.touch limits id readings seenAt = (none, sessions)) :
    TableSound console held log sessions := by
  unfold Sessions.touch at htouch
  split at htouch
  next s hs =>
      split at htouch
      next => cases htouch
      next =>
          cases htouch
          exact h.forget id
  next =>
      cases htouch
      exact h

/-- A minted session stands, and the sweep only drops others. -/
theorem TableSound.mint {proof : Proof Jwk} {bytes : Bytes} {now : Nat} {readings : Text → Readings}
    (h : TableSound console held log table) (hshows : proof.Shows console held log session) :
    TableSound console held (.signedIn (hexLower bytes) session now proof :: log)
      (table.create limits bytes session.user session.role session.method now readings).2 := by
  intro i s hs
  change (table.sweep limits readings).set (hexLower bytes) _ i = some s at hs
  by_cases hi : i = hexLower bytes
  · rw [hi, Sessions.set, Function.update_self] at hs
    cases hs
    rw [hi]
    exact ⟨[], log, proof, rfl, hshows, by simp, rfl⟩
  · rw [Sessions.set, Function.update_of_ne hi, Sessions.sweep] at hs
    have hkept : table i = some s := by
      obtain ⟨t, ht, hst⟩ : ∃ t, table i = some t ∧ some t = some s := by
        cases ht : table i with
        | none => rw [ht] at hs; cases hs
        | some t =>
            rw [ht, Option.filter_some] at hs
            split at hs
            · exact ⟨t, rfl, hs⟩
            · cases hs
      rw [ht, hst]
    exact (h i s hkept).cons (decide_eq_false (Ne.symm hi))

/-! ## What one step keeps -/

/-- What a step of one request does to a sound world. -/
structure Advanced (console : Console F Jwk Key) (w v : World Jwk) (pc : Pc Jwk) : Prop where
  keeps : Keeps w.operator v.operator
  keys : v.keys = w.keys
  extends_log : ∃ new, v.log = new ++ w.log
  threads : v.threads = w.threads
  table : TableSound console v.operator v.log v.sessions
  log : LogSound console v.operator v.log
  pc_sound : pc.Sound console v.operator v.log

variable {w v : World Jwk} {pc next : Pc Jwk} {chance : Chance}

theorem Keeps.refl (held : Option Operator) : Keeps held held := fun _ h => h

/-- A step that touches neither the operator record, nor the sessions, nor the log. -/
theorem Advanced.quiet (hw : w.Sound console) (hpc : pc.Sound console w.operator w.log)
    (hoperator : v.operator = w.operator) (hkeys : v.keys = w.keys)
    (hsessions : v.sessions = w.sessions) (hlog : v.log = w.log)
    (hthreads : v.threads = w.threads) : Advanced console w v pc where
  keeps := hoperator ▸ Keeps.refl w.operator
  keys := hkeys
  extends_log := ⟨[], hlog⟩
  threads := hthreads
  table := by rw [hoperator, hlog, hsessions]; exact hw.table
  log := by rw [hoperator, hlog]; exact hw.log
  pc_sound := by rw [hoperator, hlog]; exact hpc

theorem sound_withOperator {operator : Operator} (wanting : Wanting) (hheld : held = some operator) :
    (w.withOperator wanting operator).Sound console held log := by
  cases wanting with
  | signIn username password peer =>
      refine ⟨hheld, ?_⟩
      rintro (h | h) <;> cases h
  | probe cookie => trivial

theorem sound_withoutOperator (wanting : Wanting) :
    (World.withoutOperator wanting : Pc Jwk).Sound console held log := by
  cases wanting <;> trivial

/-- The first operator record stored stays. -/
theorem keeps_getD (found : Operator) : Keeps held (some (held.getD found)) := by
  rintro operator rfl
  rfl

/-- A step of a password sign-in has checked the password before it passes, and answers with the
name of its record. -/
theorem handle_passes {passwordMatches : Text → Text → Bool} {signIns after : Web.World}
    {r r' : Request} {pick : Text}
    (h : handle passwordMatches signIns r pick = some (after, r')) :
    r'.operator = r.operator ∧ r'.username = r.username ∧ r'.password = r.password ∧
      (r'.stage = .passAccount ∨ r'.stage = .passAddress →
        verify passwordMatches r.operator r.username r.password = true ∨ r.stage = .passAccount) ∧
      (∀ user, r'.stage = .answered (.signedIn user) →
        r.stage = .passAddress ∧ user = r.operator.username) := by
  unfold handle at h
  split at h
  next => cases h; simp
  next => split at h <;> cases h <;> simp [tooManySignIns]
  next =>
      split at h
      next hverify => cases h; simp [hverify]
      next => cases h; simp
  next => cases h; simp
  next => cases h; simp
  next hstage => cases h; simp [hstage]
  next hstage => cases h; simp [hstage]
  next => cases h

theorem Advanced.password {r r' : Request} {after : Web.World} {pick : Text} (hw : w.Sound console)
    (hr : (Pc.password r).Sound console w.operator w.log)
    (h : handle console.passwordMatches w.signIns r pick = some (after, r')) :
    Advanced console w ({ w with signIns := after })
      (match r'.stage with
        | .answered (.signedIn user) =>
            .mint ⟨user, .admin, .localAccount⟩ (.password r'.operator r'.username r'.password)
        | .answered (.tooMany _) => .answered 429
        | .answered .refused => .answered 401
        | _ => .password r') := by
  obtain ⟨hoperator, husername, hpassword, hpasses, hanswers⟩ := handle_passes h
  obtain ⟨hheld, hverified⟩ := hr
  refine Advanced.quiet hw ?_ rfl rfl rfl rfl rfl
  split
  next user hstage =>
      obtain ⟨hbefore, rfl⟩ := hanswers user hstage
      refine ⟨?_, ?_, ?_⟩
      · rw [hoperator, hheld]
      · rw [hoperator, husername, hpassword]
        exact hverified (.inr hbefore)
      · rw [hoperator]
  next => trivial
  next => trivial
  next =>
      refine ⟨hoperator ▸ hheld, fun hstage => ?_⟩
      rw [hoperator, husername, hpassword]
      rcases hpasses hstage with hverify | hbefore
      · exact hverify
      · exact hverified (.inl hbefore)

/-- A request that resolves its session is admitted, and one that does not changes nothing but what
it drops. -/
theorem touch_advanced (cookie : Option Text) (chance : Chance) (hw : w.Sound console) :
    Advanced console w (w.touch cookie chance).2 (.answered 200) ∧
      ∀ id session, (w.touch cookie chance).1 = some (id, session) →
        Admitted console (w.touch cookie chance).2.operator (w.touch cookie chance).2.log id
          session := by
  cases cookie with
  | none => exact ⟨.quiet hw trivial rfl rfl rfl rfl rfl, fun _ _ h => nomatch h⟩
  | some id =>
      rw [World.touch]
      cases htouch : w.sessions.touch limits id (chance.readings id) chance.done with
      | mk answer sessions =>
          cases answer with
          | none =>
              refine ⟨?_, fun _ _ h => nomatch h⟩
              exact ⟨.refl _, rfl, ⟨[], rfl⟩, rfl, hw.table.notFound htouch, hw.log, trivial⟩
          | some session =>
              obtain ⟨htable, hadmitted⟩ := hw.table.found htouch
              refine ⟨⟨.refl _, rfl, ⟨[_], rfl⟩, rfl, htable, ?_, trivial⟩, ?_⟩
              · apply hw.log.cons
                rintro i s n ⟨⟩
              · rintro i s ⟨⟩
                exact hadmitted

/-- Each step of a request keeps what is sound. -/
theorem advanced_of_advancePc (hw : w.Sound console) (hpc : pc.Sound console w.operator w.log)
    (h : advancePc console w chance pc = some (v, next)) : Advanced console w v next := by
  cases pc with
  | login credentials peer =>
      rw [advancePc] at h
      split at h
      next token _ =>
          split at h
          next => cases h; exact .quiet hw trivial rfl rfl rfl rfl rfl
          next cfg hcfg => cases h; exact .quiet hw hcfg rfl rfl rfl rfl rfl
      next => cases h; exact .quiet hw trivial rfl rfl rfl rfl rfl
  | verifyToken cfg token =>
      rw [advancePc] at h
      split at h
      next verified hverified =>
          cases h
          have hshown := Oidc.shows_of_verify hverified
          exact .quiet hw ⟨hw.keys, cfg, verified, hpc, hshown, rfl⟩ rfl rfl rfl rfl rfl
      next => cases h; exact .quiet hw trivial rfl rfl rfl rfl rfl
  | operator wanting =>
      rw [advancePc] at h
      split at h
      next operator hheld =>
          cases h
          exact .quiet hw (sound_withOperator wanting hheld) rfl rfl rfl rfl rfl
      next => cases h; exact .quiet hw trivial rfl rfl rfl rfl rfl
  | operatorLoad wanting =>
      rw [advancePc] at h
      split at h
      next found _ => cases h; exact .quiet hw trivial rfl rfl rfl rfl rfl
      next => cases h; exact .quiet hw (sound_withoutOperator wanting) rfl rfl rfl rfl rfl
  | operatorStore wanting found =>
      cases h
      have hkeeps : Keeps w.operator (some (w.operator.getD found)) := keeps_getD found
      exact ⟨hkeeps, rfl, ⟨[], rfl⟩, rfl, hw.table.mono hkeeps, hw.log.mono hkeeps,
        sound_withOperator wanting rfl⟩
  | password r =>
      rw [advancePc] at h
      obtain ⟨⟨after, r'⟩, hhandle, heq⟩ := Option.map_eq_some_iff.mp h
      have hadvanced := Advanced.password hw hpc hhandle
      dsimp only at heq
      split at heq <;> cases heq <;> simpa only [*] using hadvanced
  | mint session proof =>
      rw [advancePc] at h
      split at h
      next =>
          cases h
          refine ⟨.refl _, rfl, ⟨[_], rfl⟩, rfl, ?_, ?_, trivial⟩
          · exact hw.table.mint hpc
          · apply hw.log.cons
            rintro i s n ⟨⟩
      next => cases h
  | logout cookie =>
      cases h
      cases cookie with
      | none => exact .quiet hw trivial rfl rfl rfl rfl rfl
      | some id =>
          refine ⟨.refl _, rfl, ⟨[_], rfl⟩, rfl, ?_, ?_, trivial⟩
          · exact hw.table.drop id fun i hi => ⟨decide_eq_false (Ne.symm hi), fun _ => rfl⟩
          · apply hw.log.cons
            rintro i s n ⟨⟩
  | session cookie =>
      rw [advancePc] at h
      split at h
      next => cases h; exact (touch_advanced cookie chance hw).1
      next => cases h
  | command cookie name =>
      rw [advancePc] at h
      split at h
      next =>
          obtain ⟨hadvanced, hadmitted⟩ := touch_advanced cookie chance hw
          split at h
          next touched htouch =>
              cases h
              rw [htouch] at hadvanced
              exact { hadvanced with pc_sound := trivial }
          next id session touched htouch =>
              rw [htouch] at hadvanced hadmitted
              split at h
              next => cases h; exact { hadvanced with pc_sound := trivial }
              next hrole =>
                  have hbacked := And.intro (not_lt.mp hrole) (hadmitted id session rfl)
                  split at h <;> cases h <;> exact { hadvanced with pc_sound := hbacked }
      next => cases h
  | ceremony id session name =>
      rw [advancePc] at h
      split at h
      next => cases h; exact .quiet hw hpc rfl rfl rfl rfl rfl
      next => cases h; exact .quiet hw trivial rfl rfl rfl rfl rfl
  | dispatch id session name =>
      cases h
      refine ⟨.refl _, rfl, ⟨[_], rfl⟩, rfl, hw.table.cons fun _ => ⟨rfl, fun _ => rfl⟩, ?_, trivial⟩
      apply hw.log.cons
      rintro i s n ⟨⟩
      exact hpc
  | answered status => cases h

theorem sound_of_isEntry (h : pc.isEntry = true) : pc.Sound console held log := by
  cases pc with
  | password _ | mint _ _ | ceremony _ _ _ | dispatch _ _ _ | verifyToken _ _ => cases h
  | _ => trivial

/-- A world with one request moved is sound where the request, the others and the rest are. -/
theorem World.Sound.setPc {thread : Nat} (hkeys : console.HasHeld w.log w.keys)
    (htable : TableSound console w.operator w.log w.sessions)
    (hlog : LogSound console w.operator w.log)
    (hothers : ∀ i p, w.threads i = some p → p.Sound console w.operator w.log)
    (hpc : pc.Sound console w.operator w.log) : (w.setPc thread pc).Sound console := by
  refine ⟨hkeys, htable, ?_, hlog⟩
  intro i p hp
  change Function.update w.threads thread (some pc) i = some p at hp
  by_cases hi : i = thread
  · rw [hi, Function.update_self] at hp
    cases hp
    exact hpc
  · rw [Function.update_of_ne hi] at hp
    exact hothers i p hp

/-- One step keeps the world sound, whatever the request. -/
theorem sound_step {a : Action Jwk} (hw : w.Sound console) (h : step console w a = some v) :
    v.Sound console := by
  cases a with
  | tick elapsed => cases h; exact ⟨hw.keys, hw.table, hw.threads, hw.log⟩
  | writeOperator record => cases h; exact ⟨hw.keys, hw.table, hw.threads, hw.log⟩
  | fetchKeys keys =>
      rw [step] at h
      split at h
      next hlive =>
          cases h
          refine ⟨.inr ⟨hlive, List.mem_cons_self⟩, ?_, ?_, ?_⟩
          · exact hw.table.cons fun _ => ⟨rfl, fun _ => rfl⟩
          · exact fun i p hp => (hw.threads i p hp).mono [_] (.refl _)
          · apply hw.log.cons
            rintro i s n ⟨⟩
      next => cases h
  | request thread pc =>
      rw [step] at h
      split at h
      next hentry =>
          cases h
          exact .setPc hw.keys hw.table hw.log hw.threads
            (sound_of_isEntry (Bool.and_eq_true_iff.mp hentry).2)
      next => cases h
  | advance thread chance =>
      obtain ⟨pc, hpc, hadvance⟩ := Option.bind_eq_some_iff.mp h
      obtain ⟨⟨u, next⟩, hnext, rfl⟩ := Option.map_eq_some_iff.mp hadvance
      have hadvanced := advanced_of_advancePc hw (hw.threads thread pc hpc) hnext
      obtain ⟨new, hnew⟩ := hadvanced.extends_log
      have hkeys : console.HasHeld u.log u.keys := by
        rw [hnew, hadvanced.keys]
        exact hw.keys.mono new
      apply World.Sound.setPc hkeys hadvanced.table hadvanced.log _ hadvanced.pc_sound
      intro i p hp
      rw [hnew]
      exact (hw.threads i p (hadvanced.threads ▸ hp)).mono new hadvanced.keeps

theorem sound_start (file : Option Operator) : (World.start console file).Sound console where
  keys := .inl rfl
  table := fun _ _ h => nomatch h
  threads := fun _ _ h => nomatch h
  log := by
    intro later earlier id session name h
    exact absurd h (by simp [World.start])

/-- In every run, whatever is dispatched was allowed by the role of its session. The session had
been minted for the password of the operator record that the console holds to the end, or for a
token that shows its user and role under keys that the key source had held. When the request came
in, the session was within both limits, and its id neither dropped nor minted again. -/
theorem dispatched_backed {file : Option Operator} {actions : List (Action Jwk)}
    (hrun : run (step console) (World.start console file) actions = some w)
    {later earlier : List (Event Jwk)} {id : Text} {session : SessionInfo} {name : Text}
    (hlog : w.log = later ++ .dispatched id session name :: earlier) :
    Backed console w.operator earlier id session name :=
  (run_invariant (fun _ _ _ h hstep => sound_step h hstep) hrun (sound_start file)).log later earlier
    id session name hlog

section Sample

/-- A console whose operator record holds the password itself, without an identity provider. -/
def plainConsole : Console Empty Empty Empty where
  passwordMatches phc password := phc == password
  reader := ⟨fun _ => none, nofun, nofun, fun _ => nofun⟩
  oidc := none
  keys _ := none
  live := false

/-- The operator signs in and reads the recent events. -/
def signInAndRead : List (Action Empty) :=
  .request 0 (.login { username := some "ada".toList, password := some "lovelace".toList } none) ::
    List.replicate 7 (.advance 0 {}) ++
    [.advance 0 { bytes := [7] },
      .request 1 (.command (some "07".toList) "recent_events".toList), .advance 1 {}, .advance 1 {}]

theorem dispatched_backed_signInAndRead : ∃ (w : World Empty) (earlier : List (Event Empty)),
    run (step plainConsole) (World.start plainConsole (some ⟨"ada".toList, "lovelace".toList⟩))
        signInAndRead = some w ∧
      w.log = [] ++ .dispatched "07".toList ⟨"ada".toList, .admin, .localAccount⟩
        "recent_events".toList :: earlier ∧
      Backed plainConsole w.operator earlier "07".toList ⟨"ada".toList, .admin, .localAccount⟩
        "recent_events".toList := by
  obtain ⟨w, earlier, hrun, hlog⟩ : ∃ (w : World Empty) (earlier : List (Event Empty)),
      run (step plainConsole) (World.start plainConsole (some ⟨"ada".toList, "lovelace".toList⟩))
          signInAndRead = some w ∧
        w.log = [] ++ .dispatched "07".toList ⟨"ada".toList, .admin, .localAccount⟩
          "recent_events".toList :: earlier :=
    ⟨_, _, rfl, rfl⟩
  exact ⟨w, earlier, hrun, hlog, dispatched_backed hrun hlog⟩

end Sample

end Genaryx.Web.Gate
