import Genaryx.Base.Transition
import Genaryx.Ceremony.WebAuthn

/-!
# Refused passkey changes

A change of the passkey store edits the lists in memory and then writes the file, so a change
that is refused before the edit leaves everything as it was and one whose file cannot be
written stays. A credential is looked for in the user's own list only, so it is enrolled once in
the whole store as long as no user enrolls what another one holds.

## Implementation notes

`PasskeyFile.file` is what opening the store again would read. Writing truncates the file first,
so a write that fails midway leaves a text that is not JSON and that opens no store.
-/

namespace Genaryx.Ceremony

open Base

/-- A change that is asked of the passkey store. -/
inductive PasskeyChange
  | add (user : Text) (record : PasskeyRecord)
  | remove (user credentialId : Text) (allowLast : Bool)
  | updateSignCount (user credentialId : Text) (signCount : Nat)

/-- What writing the passkey file comes to; a failure leaves the old file or part of a text. -/
inductive FileWrite
  | written
  | failed (message : Text) (intact : Bool)

def FileWrite.persistError : FileWrite → Option Text
  | written => none
  | failed message _ => some message

/-- What the file holds after a write of these enrolments. -/
def FileWrite.leaves (store : PasskeyStore) (file : Option PasskeyStore) :
    FileWrite → Option PasskeyStore
  | written => some store
  | failed _ intact => if intact then file else none

namespace PasskeyChange

def call (persistError : Option Text) (s : PasskeyStore) :
    PasskeyChange → Except WebAuthnError Unit × PasskeyStore
  | add user record => s.add persistError user record
  | remove user credentialId allowLast =>
      let removed := s.remove persistError user credentialId allowLast
      (removed.1.map fun _ => (), removed.2)
  | updateSignCount user credentialId signCount =>
      s.updateSignCount persistError user credentialId signCount

/-- The change is refused before anything is edited, or asks for what is stored already. -/
def Idle (s : PasskeyStore) : PasskeyChange → Prop
  | add user record => record.credentialId ∈ (s.forUser user).map PasskeyRecord.credentialId
  | remove user credentialId allowLast =>
      credentialId ∉ (s.forUser user).map PasskeyRecord.credentialId ∨
        (s.forUser user).length = 1 ∧ allowLast = false
  | updateSignCount user credentialId signCount =>
      ∀ r ∈ s.forUser user, r.credentialId = credentialId → r.signCount = signCount

/-- The change enrolls no credential that another user holds. -/
def Fresh (s : PasskeyStore) : PasskeyChange → Prop
  | add user record => ∀ other,
      record.credentialId ∈ (s.forUser other).map PasskeyRecord.credentialId → other = user
  | _ => True

end PasskeyChange

/-- The store that the console holds, and what its file would be read back as. -/
structure PasskeyFile where
  memory : PasskeyStore
  file : Option PasskeyStore

/-- A change with what its write comes to, or a console that opens the store again. -/
inductive PasskeyAction
  | change (write : FileWrite) (asked : PasskeyChange)
  | reopen

namespace PasskeyFile

/-- A store opened where there is no file. -/
def start : PasskeyFile := ⟨PasskeyStore.empty, some PasskeyStore.empty⟩

/-- The file is written where the change is not refused before. -/
def step (s : PasskeyFile) : PasskeyAction → Option PasskeyFile
  | .change write asked =>
      let called := asked.call write.persistError s.memory
      some ⟨called.2,
        match (asked.call none s.memory).1 with
        | .ok () => write.leaves called.2 s.file
        | .error _ => s.file⟩
  | .reopen => s.file.map fun store => ⟨store, some store⟩

/-- A change writes its file or edits nothing, and enrolls no credential of another user. -/
def Keeps (s : PasskeyFile) : PasskeyAction → Prop
  | .change write asked =>
      (write.persistError = none ∨ asked.Idle s.memory) ∧ asked.Fresh s.memory
  | .reopen => True

end PasskeyFile

/-- No two enrolments of the store share a credential id. -/
def PasskeyStore.Unique (s : PasskeyStore) : Prop :=
  ∀ (user other : Text) (i j : Nat) (r q : PasskeyRecord), (s.forUser user)[i]? = some r →
    (s.forUser other)[j]? = some q → r.credentialId = q.credentialId → user = other ∧ i = j

/-- In a run every refused change leaves the enrolments as they were, and no state that it
reaches holds a credential twice. -/
structure EnrolmentsKept (actions : List PasskeyAction) : Prop where
  refused : ∀ before write asked after s e,
    actions = before ++ .change write asked :: after →
    Transition.run PasskeyFile.step PasskeyFile.start before = some s →
    (asked.call write.persistError s.memory).1 = .error e →
      (asked.call write.persistError s.memory).2.forUser = s.memory.forUser
  unique : ∀ before after s, actions = before ++ after →
    Transition.run PasskeyFile.step PasskeyFile.start before = some s → s.memory.Unique

namespace PasskeyStore

variable {s : PasskeyStore}

/-- One list holds no credential twice, so only two users can share one. -/
theorem unique_iff :
    s.Unique ↔ ∀ user other credentialId,
      credentialId ∈ (s.forUser user).map PasskeyRecord.credentialId →
      credentialId ∈ (s.forUser other).map PasskeyRecord.credentialId → user = other := by
  constructor
  · intro h user other credentialId hu ho
    obtain ⟨r, hr, rfl⟩ := List.mem_map.mp hu
    obtain ⟨q, hq, hid⟩ := List.mem_map.mp ho
    obtain ⟨i, hi⟩ := List.mem_iff_getElem?.mp hr
    obtain ⟨j, hj⟩ := List.mem_iff_getElem?.mp hq
    exact (h user other i j r q hi hj hid.symm).1
  · intro h user other i j r q hi hj hid
    have huser : user = other := h user other r.credentialId
      (List.mem_map_of_mem (List.mem_of_getElem? hi))
      (hid ▸ List.mem_map_of_mem (List.mem_of_getElem? hj))
    subst huser
    refine ⟨rfl, ?_⟩
    have hi' : ((s.forUser user).map PasskeyRecord.credentialId)[i]? = some r.credentialId := by
      rw [List.getElem?_map, hi]
      rfl
    have hj' : ((s.forUser user).map PasskeyRecord.credentialId)[j]? = some r.credentialId := by
      rw [List.getElem?_map, hj, hid]
      rfl
    obtain ⟨hlt, -⟩ := List.getElem?_eq_some_iff.mp hi'
    exact (List.getElem?_inj hlt (s.distinct user)).mp (hi'.trans hj'.symm)

theorem unique_empty : empty.Unique :=
  unique_iff.mpr fun _ _ _ h => absurd h List.not_mem_nil

/-- A store whose users hold no further credentials holds none twice. -/
theorem Unique.mono {t : PasskeyStore} (h : s.Unique)
    (hsub : ∀ user credentialId,
      credentialId ∈ (t.forUser user).map PasskeyRecord.credentialId →
        credentialId ∈ (s.forUser user).map PasskeyRecord.credentialId) : t.Unique :=
  unique_iff.mpr fun user other credentialId hu ho =>
    unique_iff.mp h user other credentialId (hsub user credentialId hu) (hsub other credentialId ho)

end PasskeyStore

namespace PasskeyChange

variable {s : PasskeyStore} {persistError : Option Text} {user other credentialId : Text}
  {record : PasskeyRecord}

theorem persisted_eq_error {α : Type} {value : α} {e : WebAuthnError}
    (h : PasskeyStore.persisted persistError value = .error e) : persistError ≠ none := by
  rintro rfl
  cases h

theorem add_of_mem
    (h : record.credentialId ∈ (s.forUser user).map PasskeyRecord.credentialId) :
    (s.add persistError user record).2 = s := by
  rw [PasskeyStore.add, dif_pos h]

theorem add_of_notMem
    (h : record.credentialId ∉ (s.forUser user).map PasskeyRecord.credentialId) :
    (s.add persistError user record).1 = PasskeyStore.persisted persistError () ∧
      (s.add persistError user record).2.forUser =
        Function.update s.forUser user (s.forUser user ++ [record]) := by
  rw [PasskeyStore.add, dif_neg h]
  exact ⟨rfl, rfl⟩

/-- A refused addition leaves the store as it was if it is refused for a duplicate. -/
theorem add_unchanged_iff :
    (∀ e, (s.add persistError user record).1 = .error e →
        (s.add persistError user record).2.forUser = s.forUser) ↔
      persistError = none ∨
        record.credentialId ∈ (s.forUser user).map PasskeyRecord.credentialId := by
  by_cases hdup : record.credentialId ∈ (s.forUser user).map PasskeyRecord.credentialId
  · rw [add_of_mem hdup]
    exact iff_of_true (fun _ _ => rfl) (Or.inr hdup)
  · obtain ⟨hresult, hstore⟩ := add_of_notMem hdup
    rw [hresult, hstore, or_iff_left hdup]
    constructor
    · intro h
      cases persistError with
      | none => rfl
      | some message =>
          have hsame := congrFun (h _ rfl) user
          rw [Function.update_self] at hsame
          simp at hsame
    · intro hwritten e he
      exact absurd hwritten (persisted_eq_error he)

/-- A refused removal leaves the store as it was if it is refused before the edit. -/
theorem remove_unchanged_iff {allowLast : Bool} :
    (∀ e, (s.remove persistError user credentialId allowLast).1 = .error e →
        (s.remove persistError user credentialId allowLast).2.forUser = s.forUser) ↔
      persistError = none ∨ credentialId ∉ (s.forUser user).map PasskeyRecord.credentialId ∨
        (s.forUser user).length = 1 ∧ allowLast = false := by
  rw [PasskeyStore.remove]
  split
  · next hnone => exact iff_of_true (fun _ _ => rfl) (Or.inr (Or.inl hnone))
  · next hsome =>
      split
      · next hlast => exact iff_of_true (fun _ _ => rfl) (Or.inr (Or.inr hlast))
      · next hlast =>
          rw [or_iff_left (not_or.mpr ⟨hsome, hlast⟩)]
          constructor
          · intro h
            cases persistError with
            | none => rfl
            | some message =>
                obtain ⟨r, hr, hid⟩ := List.mem_map.mp (not_not.mp hsome)
                have hsame := congrFun (h _ rfl) user
                dsimp only at hsame
                rw [Function.update_self] at hsame
                rw [← hsame] at hr
                exact absurd hid
                  (PasskeyStore.credentialId_ne_of_mem_eraseP (s.distinct user) hr)
          · intro hwritten e he
            exact absurd hwritten (persisted_eq_error he)

theorem withCount_eq_self_iff {signCount : Nat} {records : List PasskeyRecord} :
    PasskeyStore.withCount credentialId signCount records = records ↔
      ∀ r ∈ records, r.credentialId = credentialId → r.signCount = signCount := by
  rw [PasskeyStore.withCount]
  conv_lhs => rhs; rw [← List.map_id records]
  rw [List.map_inj_left]
  refine forall₂_congr fun r _ => ?_
  by_cases hid : r.credentialId = credentialId
  · rw [if_pos hid, id_eq]
    refine ⟨fun h _ => by rw [← h], fun h => ?_⟩
    rw [← h hid]
  · rw [if_neg hid]
    exact iff_of_true rfl fun h => absurd h hid

/-- A refused count leaves the store as it was if the count is stored already. -/
theorem updateSignCount_unchanged_iff {signCount : Nat} :
    (∀ e, (s.updateSignCount persistError user credentialId signCount).1 = .error e →
        (s.updateSignCount persistError user credentialId signCount).2.forUser = s.forUser) ↔
      persistError = none ∨
        ∀ r ∈ s.forUser user, r.credentialId = credentialId → r.signCount = signCount := by
  rw [← withCount_eq_self_iff]
  have hsame : (s.updateSignCount persistError user credentialId signCount).2.forUser =
      s.forUser ↔
        PasskeyStore.withCount credentialId signCount (s.forUser user) = s.forUser user :=
    Function.update_eq_self_iff
  rw [hsame]
  cases persistError with
  | none => exact iff_of_true (fun e he => absurd rfl (persisted_eq_error he)) (Or.inl rfl)
  | some message =>
      refine ⟨fun h => Or.inr (h _ rfl), fun h e _ => h.resolve_left (by simp)⟩

theorem unchanged_iff {asked : PasskeyChange} :
    (∀ e, (asked.call persistError s).1 = .error e →
        (asked.call persistError s).2.forUser = s.forUser) ↔
      persistError = none ∨ asked.Idle s := by
  cases asked with
  | add user record => exact add_unchanged_iff
  | remove user credentialId allowLast =>
      rw [Idle, ← remove_unchanged_iff]
      have herror : ∀ e, Except.map (fun _ => ())
          (s.remove persistError user credentialId allowLast).1 = .error e ↔
            (s.remove persistError user credentialId allowLast).1 = .error e := by
        intro e
        cases (s.remove persistError user credentialId allowLast).1 <;> simp [Except.map]
      simp only [call, herror]
  | updateSignCount user credentialId signCount => exact updateSignCount_unchanged_iff

/-- What an addition makes a user hold that nobody held. -/
theorem mem_add_iff
    (hnew : record.credentialId ∉ (s.forUser user).map PasskeyRecord.credentialId) :
    credentialId ∈ ((s.add persistError user record).2.forUser other).map
        PasskeyRecord.credentialId ↔
      credentialId ∈ (s.forUser other).map PasskeyRecord.credentialId ∨
        other = user ∧ credentialId = record.credentialId := by
  rw [(add_of_notMem hnew).2]
  by_cases hother : other = user
  · subst hother
    rw [Function.update_self, List.map_append, List.mem_append]
    simp
  · rw [Function.update_of_ne hother]
    simp [hother]

/-- A change keeps every credential in one enrolment if it enrolls none of another user. -/
theorem unique_call_iff (h : s.Unique) (asked : PasskeyChange) :
    (asked.call persistError s).2.Unique ↔ asked.Fresh s := by
  cases asked with
  | add user record =>
      have hunique := PasskeyStore.unique_iff.mp h
      by_cases hdup : record.credentialId ∈ (s.forUser user).map PasskeyRecord.credentialId
      · rw [call, add_of_mem hdup]
        exact iff_of_true h fun other hother => hunique other user _ hother hdup
      · rw [call, PasskeyStore.unique_iff]
        simp only [mem_add_iff hdup]
        constructor
        · intro hall other hother
          exact hall other user _ (Or.inl hother) (Or.inr ⟨rfl, rfl⟩)
        · rintro hfresh u o credentialId (hu | ⟨rfl, rfl⟩) (ho | ⟨rfl, hid⟩)
          · exact hunique u o credentialId hu ho
          · exact hfresh u (hid ▸ hu)
          · exact (hfresh o ho).symm
          · rfl
  | remove user credentialId allowLast =>
      refine iff_of_true (h.mono fun other id hid => ?_) trivial
      obtain ⟨r, hr, rfl⟩ := List.mem_map.mp hid
      exact List.mem_map_of_mem (PasskeyStore.mem_of_mem_remove hr).1
  | updateSignCount user credentialId signCount =>
      refine iff_of_true (h.mono fun other id hid => ?_) trivial
      obtain ⟨r, hr, rfl⟩ := List.mem_map.mp hid
      obtain ⟨q, hq, hsame, -⟩ := PasskeyStore.mem_of_mem_updateSignCount hr
      exact hsame ▸ List.mem_map_of_mem hq

end PasskeyChange

namespace PasskeyFile

variable {s s' : PasskeyFile} {a : PasskeyAction}

/-- What the file would be read back as is one of the stores that the console held. -/
def FileUnique (s : PasskeyFile) : Prop :=
  s.memory.Unique ∧ ∀ store, s.file = some store → store.Unique

theorem fileUnique_start : start.FileUnique :=
  ⟨PasskeyStore.unique_empty, fun _ h => Option.some.inj h ▸ PasskeyStore.unique_empty⟩

/-- A step keeps every credential in one enrolment, in memory and on file, if it enrolls none
of another user. -/
theorem fileUnique_step (h : s.FileUnique) (hkeeps : s.Keeps a) (hstep : s.step a = some s') :
    s'.FileUnique := by
  cases a with
  | change write asked =>
      obtain rfl := Option.some.inj hstep
      have hcalled : (asked.call write.persistError s.memory).2.Unique :=
        (PasskeyChange.unique_call_iff h.1 asked).mpr hkeeps.2
      refine ⟨hcalled, fun store hstore => ?_⟩
      dsimp only at hstore
      split at hstore
      · cases write with
        | written => exact Option.some.inj hstore ▸ hcalled
        | failed message intact =>
            simp only [FileWrite.leaves] at hstore
            split at hstore
            · exact h.2 store hstore
            · cases hstore
      · exact h.2 store hstore
  | reopen =>
      obtain ⟨store, hfile, rfl⟩ := Option.map_eq_some_iff.mp hstep
      have hstore := h.2 store hfile
      exact ⟨hstore, fun other hother => Option.some.inj hother ▸ hstore⟩

end PasskeyFile

/-- A run keeps the enrolments if its changes write their files or edit nothing, and enroll no
credential of another user. -/
theorem enrolmentsKept_iff (actions : List PasskeyAction) :
    EnrolmentsKept actions ↔
      Transition.Along PasskeyFile.step PasskeyFile.Keeps PasskeyFile.start actions := by
  rw [Transition.along_iff]
  constructor
  · intro h before a after s hactions hrun
    cases a with
    | reopen => trivial
    | change write asked =>
        refine ⟨PasskeyChange.unchanged_iff.mp fun e => h.refused before write asked after s e
          hactions hrun, ?_⟩
        have hstep : Transition.run PasskeyFile.step PasskeyFile.start
            (before ++ [.change write asked]) = s.step (.change write asked) := by
          rw [Transition.run_append, hrun]
          rfl
        have hunique := h.unique before _ s hactions hrun
        exact (PasskeyChange.unique_call_iff hunique asked).mp
          (h.unique (before ++ [.change write asked]) after _ (by simp [hactions]) hstep)
  · intro h
    refine ⟨fun before write asked after s e hactions hrun he => ?_,
      fun before after s hactions hrun => ?_⟩
    · exact PasskeyChange.unchanged_iff.mpr (h before _ after s hactions hrun).1 e he
    · have halong : Transition.Along PasskeyFile.step PasskeyFile.Keeps PasskeyFile.start
          before := Transition.along_iff.mpr fun older a newer t holder ht =>
        h older a (newer ++ after) t (by simp [hactions, holder]) ht
      exact (Transition.run_invariant_along (I := PasskeyFile.FileUnique)
        (fun _ _ _ hs hkeeps hstep => PasskeyFile.fileUnique_step hs hkeeps hstep)
        halong hrun PasskeyFile.fileUnique_start).1

section Sample

def enrolledKey : PasskeyRecord := ⟨"key-a", "BHgx", 5, "2026-09-01T10:00:00+00:00", "laptop"⟩

/-- A passkey is enrolled though the file could not be written. -/
def unwritten : List PasskeyAction :=
  [.change (.failed "cannot write passkeys.json" true) (.add "ops" enrolledKey)]

/-- Two users enroll one credential. -/
def sharedCredential : List PasskeyAction :=
  [.change .written (.add "ops" enrolledKey), .change .written (.add "audit" enrolledKey)]

end Sample

theorem enrolmentsKept_fails : ¬ EnrolmentsKept unwritten ∧ ¬ EnrolmentsKept sharedCredential := by
  constructor
  · intro h
    have hsame := congrFun (h.refused [] _ _ [] _ _ rfl rfl rfl) "ops".toList
    exact absurd hsame (by decide)
  · intro h
    have hunique := PasskeyStore.unique_iff.mp (h.unique _ [] _ (List.append_nil _).symm rfl)
      "ops" "audit" "key-a" (by decide) (by decide)
    exact absurd hunique (by decide)

end Genaryx.Ceremony
