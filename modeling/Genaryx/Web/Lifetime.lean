import Genaryx.Web.Sessions
import Mathlib.Data.List.Induction
import Mathlib.Data.List.Nodup

/-!
# How long a session lives

Over any history of sign-ins, requests and sign-outs, a request finds its session just where it was
minted and not revoked, both limits have not passed, and so many others come and go as they like.

## Implementation notes

`standing` is the session as its own calls make it, if none is ever dropped for its age: what the
table has dropped is past a limit, and stays so.
-/

namespace Genaryx.Web

open Ceremony (Role)

/-- A call to the table, with the readings of the clock in it. -/
inductive Call
  | create (bytes : Bytes) (user : Text) (role : Role) (method : Method) (now : Nat)
      (readings : Text → Readings) (done : Nat)
  | touch (id : Text) (readings : Readings) (seenAt : Nat)
  | revoke (id : Text)

namespace Call

/-- The id that a call is about. -/
def id : Call → Text
  | create bytes _ _ _ _ _ _ => hexLower bytes
  | touch id _ _ => id
  | revoke id => id

/-- The id that a call mints. -/
def minted : Call → Option Text
  | create bytes _ _ _ _ _ _ => some (hexLower bytes)
  | _ => none

/-- The readings of a call are at a time or later, and its end is at them or later. -/
def Within (start : Nat) : Call → Prop
  | create _ _ _ _ now readings done =>
      now ≤ done ∧ ∀ id, (start ≤ (readings id).idleAt ∧ start ≤ (readings id).lifeAt) ∧
        (readings id).idleAt ≤ done ∧ (readings id).lifeAt ≤ done
  | touch _ readings seenAt =>
      start ≤ readings.idleAt ∧ readings.idleAt ≤ readings.lifeAt ∧ readings.lifeAt ≤ seenAt
  | revoke _ => True

/-- When a call that has started at a time has ended. -/
def ended (start : Nat) : Call → Nat
  | create _ _ _ _ _ _ done => max start done
  | touch _ _ seenAt => seenAt
  | revoke _ => start

end Call

/-- Calls whose readings of the clock do not go back. -/
def Timely : Nat → List Call → Prop
  | _, [] => True
  | start, c :: cs => c.Within start ∧ Timely (c.ended start) cs

variable (L : Limits)

/-- What a call answers, and the table after it. -/
def Call.go (table : Sessions) : Call → Option SessionInfo × Sessions
  | .create bytes user role method now readings _ =>
      (none, (table.create L bytes user role method now readings).2)
  | .touch id readings seenAt => table.touch L id readings seenAt
  | .revoke id => (none, table.revoke id)

/-- The table after some calls. -/
def tableAfter (table : Sessions) (calls : List Call) : Sessions :=
  calls.foldl (fun table c => (c.go L table).2) table

/-- The calls with what they answered. -/
def logOf : Sessions → List Call → List (Call × Option SessionInfo)
  | _, [] => []
  | table, c :: cs => (c, (c.go L table).1) :: logOf (c.go L table).2 cs

/-! ## The session that its own calls make -/

/-- What a call makes of the session with an id, if none is dropped for its age. -/
def Call.mark (id : Text) (s : Option Session) : Call → Option Session
  | .create bytes user role method now _ _ =>
      if hexLower bytes = id then some ⟨user, role, method, now, now⟩ else s
  | .touch i readings seenAt =>
      if i = id then s.map fun s => if L.isLive s readings then { s with lastSeen := seenAt } else s
      else s
  | .revoke i => if i = id then none else s

/-- The session with an id after some calls, if none is dropped for its age. -/
def standing (id : Text) (calls : List Call) : Option Session :=
  calls.foldl (fun s c => c.mark L id s) none

/-- Whether a session is past one of its limits. -/
def Expired (s : Session) (time : Nat) : Prop :=
  L.idleTimeout ≤ time - s.lastSeen ∨ L.absoluteLifetime ≤ time - s.created

/-- A table has every session that its calls make, but for some that are past a limit. -/
def Kept (time : Nat) (table sessions : Sessions) : Prop :=
  ∀ id, table id = sessions id ∨ table id = none ∧ ∃ s, sessions id = some s ∧ Expired L s time

variable {L} {time : Nat} {table sessions : Sessions}

theorem Expired.mono {s : Session} {later : Nat} (h : Expired L s time) (hle : time ≤ later) :
    Expired L s later :=
  h.imp (fun h => h.trans (Nat.sub_le_sub_right hle _)) fun h => h.trans (Nat.sub_le_sub_right hle _)

theorem Kept.mono {later : Nat} (h : Kept L time table sessions) (hle : time ≤ later) :
    Kept L later table sessions := fun id =>
  (h id).imp_right fun ⟨hnone, s, hs, hexpired⟩ => ⟨hnone, s, hs, hexpired.mono hle⟩

/-- A session that is not live is past a limit when the clock was read last. -/
theorem expired_of_not_isLive {s : Session} {readings : Readings} {later : Nat}
    (h : L.isLive s readings = false) (hidle : readings.idleAt ≤ later)
    (hlife : readings.lifeAt ≤ later) : Expired L s later := by
  rw [Limits.isLive, Bool.and_eq_false_iff, decide_eq_false_iff_not, decide_eq_false_iff_not, not_lt,
    not_lt] at h
  exact h.imp (fun h => h.trans (Nat.sub_le_sub_right hidle _))
    fun h => h.trans (Nat.sub_le_sub_right hlife _)

theorem not_isLive_of_expired {s : Session} {readings : Readings} (h : Expired L s time)
    (hidle : time ≤ readings.idleAt) (hlife : time ≤ readings.lifeAt) :
    L.isLive s readings = false := by
  rw [Limits.isLive, Bool.and_eq_false_iff, decide_eq_false_iff_not, decide_eq_false_iff_not, not_lt,
    not_lt]
  exact h.imp (fun h => h.trans (Nat.sub_le_sub_right hidle _))
    fun h => h.trans (Nat.sub_le_sub_right hlife _)

/-- A sweep drops nothing but what is past a limit. -/
theorem Kept.sweep {readings : Text → Readings} {done : Nat} (h : Kept L time table sessions)
    (hle : time ≤ done) (hreadings : ∀ id, (readings id).idleAt ≤ done ∧ (readings id).lifeAt ≤ done) :
    Kept L done (table.sweep L readings) sessions := by
  intro id
  rcases h id with heq | ⟨hnone, s, hs, hexpired⟩
  · rw [Sessions.sweep, heq]
    cases hs : sessions id with
    | none => exact .inl rfl
    | some s =>
        rw [Option.filter_some]
        cases hlive : L.isLive s (readings id) with
        | true => exact .inl rfl
        | false =>
            exact .inr ⟨rfl, s, rfl, expired_of_not_isLive hlive (hreadings id).1 (hreadings id).2⟩
  · refine .inr ⟨?_, s, hs, hexpired.mono hle⟩
    rw [Sessions.sweep, hnone]
    rfl

theorem Kept.set {id : Text} {s : Option Session} (h : Kept L time table sessions) :
    Kept L time (table.set id s) (sessions.set id s) := by
  intro i
  by_cases hi : i = id
  · subst hi
    rw [Sessions.set, Sessions.set, Function.update_self, Function.update_self]
    exact .inl rfl
  · rw [Sessions.set, Sessions.set, Function.update_of_ne hi, Function.update_of_ne hi]
    exact h i

/-- A request finds the session that its calls make, if this is live. -/
theorem Kept.touch_fst {id : Text} {readings : Readings} {seenAt : Nat}
    (h : Kept L time table sessions) (hidle : time ≤ readings.idleAt) (hlife : time ≤ readings.lifeAt) :
    (table.touch L id readings seenAt).1 =
      ((sessions id).filter fun s => L.isLive s readings).map Session.info := by
  rw [Sessions.touch]
  rcases h id with heq | ⟨hnone, s, hs, hexpired⟩
  · rw [heq]
    cases sessions id with
    | none => rfl
    | some s =>
        rw [Option.filter_some]
        dsimp only
        cases L.isLive s readings <;> rfl
  · rw [hnone, hs, Option.filter_some, not_isLive_of_expired hexpired hidle hlife]
    rfl

variable (L) in
/-- What a call makes of all sessions, if none is dropped for its age. -/
def Call.markAll (c : Call) (sessions : Sessions) : Sessions := fun id => c.mark L id (sessions id)

theorem markAll_create {bytes : Bytes} {user : Text} {role : Role} {method : Method} {now done : Nat}
    {readings : Text → Readings} :
    (Call.create bytes user role method now readings done).markAll L sessions =
      sessions.set (hexLower bytes) (some ⟨user, role, method, now, now⟩) := by
  funext id
  rw [Call.markAll, Call.mark, Sessions.set, Function.update_apply]
  simp only [eq_comm]

theorem markAll_revoke {id : Text} :
    (Call.revoke id).markAll L sessions = sessions.set id none := by
  funext i
  rw [Call.markAll, Call.mark, Sessions.set, Function.update_apply]
  simp only [eq_comm]

/-- What a request makes of each session. -/
theorem touch_snd_apply (id : Text) (readings : Readings) (seenAt : Nat) (i : Text) :
    (table.touch L id readings seenAt).2 i =
      if i = id then
        (table id).bind fun s =>
          if L.isLive s readings then some { s with lastSeen := seenAt } else none
      else table i := by
  rw [Sessions.touch]
  cases hs : table id with
  | none =>
      dsimp only
      by_cases hi : i = id
      · rw [if_pos hi, hi, hs, Option.bind_none]
      · rw [if_neg hi]
  | some s =>
      dsimp only
      rw [Option.bind_some]
      split <;> exact Function.update_apply table id _ i

/-- A request keeps the table as the calls make it. -/
theorem Kept.touch_snd {id : Text} {readings : Readings} {seenAt : Nat}
    (h : Kept L time table sessions) (hwithin : (Call.touch id readings seenAt).Within time) :
    Kept L seenAt (table.touch L id readings seenAt).2
      ((Call.touch id readings seenAt).markAll L sessions) := by
  obtain ⟨hidle, hlife, hseen⟩ := hwithin
  intro i
  rw [touch_snd_apply, Call.markAll, Call.mark]
  by_cases hi : i = id
  · subst hi
    rw [if_pos rfl, if_pos rfl]
    rcases h i with heq | ⟨hnone, s, hs, hexpired⟩
    · rw [heq]
      cases sessions i with
      | none => exact .inl rfl
      | some s =>
          rw [Option.bind_some, Option.map_some]
          cases hlive : L.isLive s readings with
          | true => exact .inl rfl
          | false =>
              have hexpired := expired_of_not_isLive hlive (hlife.trans hseen) hseen
              exact .inr ⟨rfl, s, rfl, hexpired⟩
    · rw [hnone, hs, Option.map_some, not_isLive_of_expired hexpired hidle (hidle.trans hlife)]
      exact .inr ⟨rfl, s, rfl, hexpired.mono (hidle.trans (hlife.trans hseen))⟩
  · rw [if_neg hi, if_neg (Ne.symm hi)]
    exact h.mono (hidle.trans (hlife.trans hseen)) i

/-- Every call keeps the table as the calls make it. -/
theorem Kept.go {c : Call} (h : Kept L time table sessions) (hwithin : c.Within time) :
    Kept L (c.ended time) (c.go L table).2 (c.markAll L sessions) := by
  cases c with
  | create bytes user role method now readings done =>
      have hbounds := hwithin.2
      have hle : time ≤ done := (hbounds []).1.1.trans (hbounds []).2.1
      rw [markAll_create, Call.ended, max_eq_right hle]
      exact (h.sweep hle fun id => (hbounds id).2).set
  | touch id readings seenAt => exact h.touch_snd hwithin
  | revoke id =>
      rw [markAll_revoke]
      exact h.set

/-- No call ends before it starts. -/
theorem Call.le_ended {c : Call} (hwithin : c.Within time) : time ≤ c.ended time := by
  cases c with
  | create bytes user role method now readings done => exact le_max_left time done
  | touch id readings seenAt => exact hwithin.1.trans (hwithin.2.1.trans hwithin.2.2)
  | revoke id => exact le_rfl

/-- The end of some calls. -/
def endOf (start : Nat) (calls : List Call) : Nat := calls.foldl (fun time c => c.ended time) start

theorem timely_append {start : Nat} {cs ds : List Call} :
    Timely start (cs ++ ds) ↔ Timely start cs ∧ Timely (endOf start cs) ds := by
  induction cs generalizing start with
  | nil => exact ⟨fun h => ⟨trivial, h⟩, And.right⟩
  | cons c cs ih =>
      rw [List.cons_append, Timely, Timely, ih, and_assoc]
      rfl

theorem Kept.run {calls : List Call} (h : Kept L time table sessions) (htimely : Timely time calls) :
    Kept L (endOf time calls) (tableAfter L table calls)
      (calls.foldl (fun sessions c => c.markAll L sessions) sessions) := by
  induction calls generalizing time table sessions with
  | nil => exact h
  | cons c cs ih => exact ih (h.go htimely.1) htimely.2

theorem foldl_markAll (calls : List Call) (sessions : Sessions) (id : Text) :
    calls.foldl (fun sessions c => c.markAll L sessions) sessions id =
      calls.foldl (fun s c => c.mark L id s) (sessions id) := by
  induction calls generalizing sessions with
  | nil => rfl
  | cons c cs ih => exact ih _

variable (L) in
/-- What a request is answered after some calls to an empty table. -/
def answerAfter (calls : List Call) (id : Text) (readings : Readings) (seenAt : Nat) :
    Option SessionInfo :=
  ((tableAfter L (fun _ => none) calls).touch L id readings seenAt).1

/-- A request is answered by the session that its calls make. -/
theorem answerAfter_eq {calls : List Call} {id : Text} {readings : Readings} {seenAt : Nat}
    (htimely : Timely 0 (calls ++ [.touch id readings seenAt])) :
    answerAfter L calls id readings seenAt =
      ((standing L id calls).filter fun s => L.isLive s readings).map Session.info := by
  obtain ⟨hcalls, ⟨hidle, hlife, -⟩, -⟩ := timely_append.mp htimely
  have hempty : Kept L 0 (fun _ => none) fun _ => none := fun _ => .inl rfl
  rw [answerAfter, (hempty.run hcalls).touch_fst hidle (hidle.trans hlife), foldl_markAll]
  rfl

/-! ## The session that a log tells of -/

section Log

/-- When the requests for an id that were answered refreshed its clock. -/
def touchedAt (id : Text) (log : List (Call × Option SessionInfo)) : List Nat :=
  log.filterMap fun
    | (.touch i _ seenAt, some _) => if i = id then some seenAt else none
    | _ => none

/-- The session that a log tells of: it was minted, it was not revoked after, and was last seen when
it was minted or when a request for it was answered last. -/
def Minted (log : List (Call × Option SessionInfo)) (id : Text) (s : Session) : Prop :=
  ∃ before bytes readings done answer after,
    log = before ++ (.create bytes s.user s.role s.method s.created readings done, answer) :: after ∧
      hexLower bytes = id ∧ (∀ e ∈ after, e.1 ≠ .revoke id) ∧
        s.lastSeen = (touchedAt id after).getLast?.getD s.created

variable {log : List (Call × Option SessionInfo)} {e : Call × Option SessionInfo} {id : Text}
  {s : Session}

theorem touchedAt_concat : touchedAt id (log ++ [e]) = touchedAt id log ++ touchedAt id [e] :=
  List.filterMap_append

/-- What a log tells of a session after one more call. -/
theorem minted_concat :
    Minted (log ++ [e]) id s ↔
      (∃ bytes readings done,
        e.1 = .create bytes s.user s.role s.method s.created readings done ∧ hexLower bytes = id ∧
          s.lastSeen = s.created) ∨
      e.1 ≠ .revoke id ∧ ∃ last, Minted log id { s with lastSeen := last } ∧
        s.lastSeen = (touchedAt id [e]).getLast?.getD last := by
  constructor
  · rintro ⟨before, bytes, readings, done, answer, after, heq, hid, hrevoke, hlast⟩
    rcases List.eq_nil_or_concat after with rfl | ⟨after, f, rfl⟩
    · obtain ⟨rfl, hcreate⟩ := List.append_inj' heq rfl
      exact .inl ⟨bytes, readings, done, by rw [List.singleton_inj.mp hcreate], hid, hlast⟩
    · rw [List.concat_eq_append, ← List.cons_append, ← List.append_assoc] at heq
      obtain ⟨rfl, hf⟩ := List.append_inj' heq rfl
      obtain rfl := List.singleton_inj.mp hf
      rw [List.concat_eq_append, List.forall_mem_append, List.forall_mem_singleton] at hrevoke
      rw [List.concat_eq_append, touchedAt_concat, List.getLast?_append] at hlast
      refine .inr ⟨hrevoke.2, (touchedAt id after).getLast?.getD s.created,
        ⟨before, bytes, readings, done, answer, after, rfl, hid, hrevoke.1, rfl⟩, hlast.trans ?_⟩
      cases (touchedAt id [e]).getLast? <;> rfl
  · rintro (⟨bytes, readings, done, hcreate, hid, hlast⟩ | ⟨hrevoke, last, hminted, hlast⟩)
    · exact ⟨log, bytes, readings, done, e.2, [], by rw [← hcreate], hid, nofun, hlast⟩
    · obtain ⟨before, bytes, readings, done, answer, after, rfl, hid, hafter, hbefore⟩ := hminted
      refine ⟨before, bytes, readings, done, answer, after ++ [e], by simp, hid, ?_, ?_⟩
      · exact List.forall_mem_append.mpr ⟨hafter, List.forall_mem_singleton.mpr hrevoke⟩
      · rw [hlast, touchedAt_concat, List.getLast?_append]
        dsimp only at hbefore
        rw [hbefore]
        cases (touchedAt id [e]).getLast? <;> rfl

theorem map_fst_logOf (table : Sessions) (calls : List Call) :
    (logOf L table calls).map Prod.fst = calls := by
  induction calls generalizing table with
  | nil => rfl
  | cons c cs ih => rw [logOf, List.map_cons, ih]

theorem logOf_concat (table : Sessions) (calls : List Call) (c : Call) :
    logOf L table (calls ++ [c]) =
      logOf L table calls ++ [(c, (c.go L (tableAfter L table calls)).1)] := by
  induction calls generalizing table with
  | nil => rfl
  | cons d ds ih =>
      rw [List.cons_append, logOf, ih, logOf, List.cons_append]
      rfl

theorem mem_minted_of_minted {calls : List Call} (h : Minted (logOf L table calls) id s) :
    id ∈ calls.filterMap Call.minted := by
  obtain ⟨before, bytes, readings, done, answer, after, heq, rfl, -, -⟩ := h
  refine List.mem_filterMap.mpr ⟨.create bytes s.user s.role s.method s.created readings done, ?_, rfl⟩
  rw [← map_fst_logOf (L := L) table calls, heq, List.map_append]
  exact List.mem_append_right _ List.mem_cons_self

variable (L) in
/-- The log of some calls to an empty table. -/
def logAfter (calls : List Call) : List (Call × Option SessionInfo) := logOf L (fun _ => none) calls

theorem standing_concat {calls : List Call} {c : Call} :
    standing L id (calls ++ [c]) = c.mark L id (standing L id calls) := by
  rw [standing, List.foldl_concat]
  rfl

theorem logAfter_concat {calls : List Call} {c : Call} :
    logAfter L (calls ++ [c]) =
      logAfter L calls ++ [(c, (c.go L (tableAfter L (fun _ => none) calls)).1)] :=
  logOf_concat _ calls c

/-- A call that neither mints nor refreshes nor revokes a session leaves what is told of it. -/
theorem minted_concat_of_other (hcreate : e.1.minted ≠ some id) (hrevoke : e.1 ≠ .revoke id)
    (htouched : touchedAt id [e] = []) : Minted (log ++ [e]) id s ↔ Minted log id s := by
  rw [minted_concat, htouched]
  constructor
  · rintro (⟨bytes, readings, done, heq, rfl, -⟩ | ⟨-, last, hminted, hlast⟩)
    · exact absurd (by rw [heq]; rfl) hcreate
    · cases hlast
      exact hminted
  · exact fun h => .inr ⟨hrevoke, s.lastSeen, h, rfl⟩

/-- A request for a session that was answered refreshes its clock, and nothing else. -/
theorem minted_concat_touch {readings : Readings} {seenAt : Nat}
    (he : e.1 = .touch id readings seenAt) :
    Minted (log ++ [e]) id s ↔
      ∃ last, Minted log id { s with lastSeen := last } ∧
        s.lastSeen = if e.2.isSome then seenAt else last := by
  obtain ⟨_, answer⟩ := e
  cases he
  have htouched : ∀ last, (touchedAt id [(Call.touch id readings seenAt, answer)]).getLast?.getD last =
      if answer.isSome then seenAt else last := fun last => by
    cases answer with
    | none => rfl
    | some info => simp [touchedAt]
  rw [minted_concat]
  simp only [htouched]
  constructor
  · rintro (⟨_, _, _, h, -⟩ | ⟨-, last, h⟩)
    · cases h
    · exact ⟨last, h⟩
  · exact fun h => .inr ⟨nofun, h⟩

/-- The session that the calls make is the one that their log tells of. -/
theorem standing_eq_some_iff {calls : List Call} (htimely : Timely 0 calls)
    (hdistinct : (calls.filterMap Call.minted).Nodup) :
    standing L id calls = some s ↔ Minted (logAfter L calls) id s := by
  induction calls using List.reverseRecOn generalizing s with
  | nil => exact iff_of_false nofun fun ⟨before, _, _, _, _, _, h, _⟩ => by simp [logAfter, logOf] at h
  | append_singleton calls c ih =>
      rw [List.filterMap_append, List.nodup_append] at hdistinct
      have ih := fun s => @ih s (timely_append.mp htimely).1 hdistinct.1
      rw [standing_concat, logAfter_concat]
      cases c with
      | create bytes user role method now readings done =>
          rw [Call.mark]
          by_cases hid : hexLower bytes = id
          · subst hid
            have hfresh : ∀ s, ¬ Minted (logAfter L calls) (hexLower bytes) s := fun s h =>
              hdistinct.2.2 _ (mem_minted_of_minted h) _ (List.mem_singleton_self _) rfl
            rw [if_pos rfl, minted_concat, Option.some.injEq]
            constructor
            · rintro rfl
              exact .inl ⟨bytes, readings, done, rfl, rfl, rfl⟩
            · rintro (⟨_, _, _, heq, -, hlast⟩ | ⟨-, last, hminted, -⟩)
              · obtain ⟨user, role, method, last, created⟩ := s
                cases heq
                cases hlast
                rfl
              · exact absurd hminted (hfresh _)
          · rw [if_neg hid, ih]
            refine (minted_concat_of_other ?_ ?_ rfl).symm
            · exact fun h => hid (Option.some.inj h)
            · exact nofun
      | touch i readings seenAt =>
          rw [Call.mark]
          by_cases hi : i = id
          · subst hi
            have hanswer := answerAfter_eq (L := L) htimely
            rw [if_pos rfl, minted_concat_touch rfl, Call.go]
            change _ ↔ ∃ last, _ ∧ _ = if (answerAfter L calls i readings seenAt).isSome then _ else _
            rw [hanswer]
            simp only [← ih]
            cases standing L i calls with
            | none => exact iff_of_false nofun fun ⟨_, h, _⟩ => nomatch h
            | some before =>
                rw [Option.map_some, Option.filter_some]
                cases L.isLive before readings with
                | true =>
                    constructor
                    · intro h
                      cases h
                      exact ⟨before.lastSeen, rfl, rfl⟩
                    · rintro ⟨last, h, hlast⟩
                      cases h
                      exact congrArg some (Session.ext rfl rfl rfl hlast.symm rfl)
                | false =>
                    constructor
                    · intro h
                      cases h
                      exact ⟨before.lastSeen, rfl, rfl⟩
                    · rintro ⟨last, h, hlast⟩
                      cases h
                      exact congrArg some (Session.ext rfl rfl rfl hlast.symm rfl)
          · have htouched : ∀ answer, touchedAt id [(Call.touch i readings seenAt, answer)] = [] := by
              rintro (_ | _)
              · rfl
              · simp [touchedAt, hi]
            rw [if_neg hi, ih]
            refine (minted_concat_of_other ?_ ?_ (htouched _)).symm
            · exact nofun
            · exact nofun
      | revoke i =>
          rw [Call.mark]
          by_cases hi : i = id
          · subst hi
            rw [if_pos rfl]
            refine iff_of_false nofun fun h => ?_
            rcases minted_concat.mp h with ⟨_, _, _, heq, -⟩ | ⟨hne, -⟩
            · cases heq
            · exact hne rfl
          · rw [if_neg hi, ih]
            refine (minted_concat_of_other ?_ ?_ rfl).symm
            · exact nofun
            · exact fun h => hi (Call.revoke.inj h)

end Log

/-! ## Requests -/

/-- A request for a session after some calls, with the clock not going back and no id minted twice. -/
structure Visit where
  limits : Limits
  calls : List Call
  id : Text
  readings : Readings
  seenAt : Nat
  timely : Timely 0 (calls ++ [.touch id readings seenAt])
  distinct : (calls.filterMap Call.minted).Nodup

namespace Visit

variable (v : Visit)

def answer : Option SessionInfo := answerAfter v.limits v.calls v.id v.readings v.seenAt

/-- The calls with what they answered. -/
def log : List (Call × Option SessionInfo) := logAfter v.limits v.calls

end Visit

theorem Call.Within.anti {c : Call} {earlier : Nat} (h : c.Within time) (hle : earlier ≤ time) :
    c.Within earlier := by
  cases c with
  | create bytes user role method now readings done =>
      exact ⟨h.1, fun id => ⟨⟨hle.trans (h.2 id).1.1, hle.trans (h.2 id).1.2⟩, (h.2 id).2⟩⟩
  | touch id readings seenAt => exact ⟨hle.trans h.1, h.2⟩
  | revoke id => trivial

theorem Call.ended_mono {c : Call} {earlier : Nat} (hle : earlier ≤ time) :
    c.ended earlier ≤ c.ended time := by
  cases c with
  | create bytes user role method now readings done =>
      simp only [Call.ended]
      omega
  | touch id readings seenAt => exact le_rfl
  | revoke id => exact hle

/-- Fewer calls are timely as well. -/
theorem Timely.filter {p : Call → Bool} {calls : List Call} {earlier : Nat} (h : Timely time calls)
    (hle : earlier ≤ time) : Timely earlier (calls.filter p) := by
  induction calls generalizing time earlier with
  | nil => trivial
  | cons c cs ih =>
      rw [List.filter_cons]
      split
      · exact ⟨h.1.anti hle, ih h.2 (Call.ended_mono hle)⟩
      · exact ih h.2 (hle.trans (Call.le_ended h.1))

theorem Call.mark_of_ne {c : Call} {id : Text} {s : Option Session} (h : c.id ≠ id) : c.mark L id s = s := by
  cases c with
  | create bytes user role method now readings done => exact if_neg h
  | touch i readings seenAt => exact if_neg h
  | revoke i => exact if_neg h

/-- The calls for other sessions make nothing of a session. -/
theorem standing_filter (id : Text) (calls : List Call) :
    standing L id (calls.filter fun c => c.id = id) = standing L id calls := by
  induction calls using List.reverseRecOn with
  | nil => rfl
  | append_singleton calls c ih =>
      rw [List.filter_append, standing_concat, List.filter_singleton]
      by_cases hid : c.id = id
      · rw [decide_eq_true hid, cond_true, standing_concat, ih]
      · rw [decide_eq_false hid, cond_false, List.append_nil, ih, Call.mark_of_ne hid]

/-- A request finds a session just where the log tells of one that is within both limits, and is
told whose it is. The calls for other sessions do not matter. -/
theorem Visit.answer_within_limits (v : Visit) :
    (∀ info, v.answer = some info ↔ ∃ s, Minted v.log v.id s ∧
      (info.user = s.user ∧ info.role = s.role ∧ info.method = s.method) ∧
      v.readings.idleAt - s.lastSeen < v.limits.idleTimeout ∧
        v.readings.lifeAt - s.created < v.limits.absoluteLifetime) ∧
      v.answer =
        answerAfter v.limits (v.calls.filter fun c => c.id = v.id) v.id v.readings v.seenAt := by
  have hanswer := answerAfter_eq (L := v.limits) v.timely
  constructor
  · intro info
    rw [Visit.answer, hanswer, Option.map_eq_some_iff]
    refine exists_congr fun s => ?_
    have hinfo : s.info = info ↔
        info.user = s.user ∧ info.role = s.role ∧ info.method = s.method := by
      constructor
      · rintro rfl
        exact ⟨rfl, rfl, rfl⟩
      · rintro ⟨huser, hrole, hmethod⟩
        rw [Session.info, ← huser, ← hrole, ← hmethod]
    rw [← hinfo, Option.filter_eq_some_iff,
      standing_eq_some_iff (timely_append.mp v.timely).1 v.distinct, Limits.isLive, Bool.and_eq_true,
      decide_eq_true_eq, decide_eq_true_eq, and_assoc, and_comm (b := s.info = info), ← Visit.log]
  · have hfiltered : Timely 0 ((v.calls.filter fun c => c.id = v.id) ++
        [.touch v.id v.readings v.seenAt]) := by
      have h := v.timely.filter (p := fun c => c.id = v.id) le_rfl
      rwa [List.filter_append, List.filter_singleton, Call.id, decide_eq_true rfl, cond_true] at h
    rw [Visit.answer, hanswer, answerAfter_eq hfiltered, standing_filter]

end Genaryx.Web
