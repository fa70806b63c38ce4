import Genaryx.Base.Transition
import Genaryx.Ceremony.Steps

/-!
# What the trace of a console explains

Every event of a trace is explained by older ones: a challenge is redeemed after it was
minted, an assertion verified after its challenge was redeemed, a command dispatched after
its assertion was verified. A challenge is held by at most one thread at a time, so it is
spent on at most one dispatch.
-/

namespace Genaryx.Ceremony

open Json Base

variable {F : Type} (P : Platform F) (cfg : Config) (initial : PasskeyStore)

/-- Two records of one credential with one public key. -/
def PasskeyRecord.SameKey (r s : PasskeyRecord) : Prop :=
  r.credentialId = s.credentialId ∧ r.publicKeyX963 = s.publicKeyX963

/-- The record's key is enrolled to the user after these events. -/
def Enrolled : List (Event F) → Text → PasskeyRecord → Prop
  | [], user, record => ∃ r ∈ initial.forUser user, r.SameKey record
  | .enrolled _ owner r _ :: older, user, record =>
      (owner = user ∧ r.SameKey record) ∨ Enrolled older user record
  | .removed owner credentialId :: older, user, record =>
      ¬ (owner = user ∧ credentialId = record.credentialId) ∧ Enrolled older user record
  | _ :: older, user, record => Enrolled older user record

/-- The challenge was redeemed. -/
def Redeemed (trace : List (Event F)) (challenge : Text) : Prop :=
  ∃ user at_, Event.redeemed challenge user at_ ∈ trace

/-- The challenge was minted for this user and goal, and redeemed in time and not before. -/
def RedeemedFor (trace : List (Event F)) (challenge user : Text) (goal : Goal F) : Prop :=
  ∃ before args expires at_,
    (Event.redeemed challenge user at_ :: before) <:+ trace ∧ ¬ Redeemed before challenge ∧
      Event.minted challenge user (.action goal.boundTo args) expires ∈ before ∧
      bodySha256Hex P (canonicalArgs P args) = bodySha256Hex P (canonicalArgs P goal.args) ∧
      at_ < expires

/-- The record's key was enrolled to the user when the assertion looked it up, which is
after the challenge was redeemed. -/
def FoundFor (trace : List (Event F)) (challenge user : Text) (record : PasskeyRecord) : Prop :=
  ∃ before, before <:+ trace ∧ Redeemed before challenge ∧ Enrolled initial before user record

/-- An assertion over this challenge passes every check under the record's key. -/
def Accepted (challenge : Text) (record : PasskeyRecord) (signCount : Nat) : Prop :=
  ∃ clientData authenticatorData signature v,
    Verifies P cfg.rp challenge record clientData authenticatorData signature v ∧
      v.signCount = signCount

/-- The challenge's assertion was verified under a key of the user. -/
def VerifiedFor (trace : List (Event F)) (challenge user : Text) : Prop :=
  ∃ record signCount stored,
    Event.verified challenge user record signCount stored ∈ trace ∧
      FoundFor initial trace challenge user record ∧ Accepted P cfg challenge record signCount

/-- The goal was asserted by the user with this challenge. -/
def AssertedFor (trace : List (Event F)) (challenge user : Text) (goal : Goal F) : Prop :=
  RedeemedFor P trace challenge user goal ∧ VerifiedFor P cfg initial trace challenge user

/-- The challenge of a registration was minted for this user, and redeemed. -/
def RegisteredFor (trace : List (Event F)) (challenge user : Text) : Prop :=
  ∃ authorisedBy expires,
    Event.minted challenge user (.register authorisedBy) expires ∈ trace ∧
      Redeemed trace challenge

/-- What the trace says for a command that may be dispatched. -/
def Authorised (trace : List (Event F)) (user name : Text) (args : Value F) :
    Option Text → Prop
  | none => requiresCeremony name = true → cfg.requirePasskey = false
  | some challenge => AssertedFor P cfg initial trace challenge user (.command name args)

/-- The challenge authorised a dispatch. -/
def Spent (trace : List (Event F)) (challenge : Text) : Prop :=
  ∃ user name args hasPasskey,
    Event.dispatched user name args hasPasskey (some challenge) ∈ trace

/-- What the older events of a trace say about its newest one. -/
def Explained (older : List (Event F)) : Event F → Prop
  | .minted challenge user asked _ =>
      (∀ user' asked' expires, Event.minted challenge user' asked' expires ∉ older) ∧
      ∀ c, asked = .register (some c) → AssertedFor P cfg initial older c user .enroll
  | .redeemed challenge user at_ =>
      ¬ Redeemed older challenge ∧
      ∃ asked expires, Event.minted challenge user asked expires ∈ older ∧ at_ < expires
  | .verified challenge user record signCount _ =>
      FoundFor initial older challenge user record ∧ Accepted P cfg challenge record signCount
  | .enrolled challenge user _ _ => RegisteredFor older challenge user
  | .removed _ _ => True
  | .dispatched user name args _ authorisedBy =>
      Authorised P cfg initial older user name args authorisedBy ∧
        ∀ c, authorisedBy = some c → ¬ Spent older c

/-- Every event of the trace is explained by the older ones. -/
def Ledger : List (Event F) → Prop
  | [] => True
  | e :: older => Explained P cfg initial older e ∧ Ledger older

variable {P cfg initial}

theorem Ledger.of_append {newer older : List (Event F)}
    (h : Ledger P cfg initial (newer ++ older)) : Ledger P cfg initial older := by
  induction newer with
  | nil => exact h
  | cons _ newer ih => exact ih h.2

theorem Ledger.explained {newer older : List (Event F)} {e : Event F}
    (h : Ledger P cfg initial (newer ++ e :: older)) : Explained P cfg initial older e :=
  h.of_append.1

theorem Enrolled.of_sameKey {trace : List (Event F)} {user : Text} {r s : PasskeyRecord}
    (hsame : r.SameKey s) (h : Enrolled initial trace user r) :
    Enrolled initial trace user s := by
  induction trace with
  | nil =>
      obtain ⟨q, hmem, hid, hkey⟩ := h
      exact ⟨q, hmem, hid.trans hsame.1, hkey.trans hsame.2⟩
  | cons e older ih =>
      cases e with
      | enrolled challenge owner q hadPasskey =>
          rcases h with ⟨howner, hid, hkey⟩ | h
          · exact Or.inl ⟨howner, hid.trans hsame.1, hkey.trans hsame.2⟩
          · exact Or.inr (ih h)
      | removed owner credentialId => exact ⟨hsame.1 ▸ h.1, ih h.2⟩
      | _ => exact ih h

theorem Redeemed.mono {trace trace' : List (Event F)} {challenge : Text}
    (hsub : trace <:+ trace') (h : Redeemed trace challenge) : Redeemed trace' challenge := by
  obtain ⟨user, at_, hmem⟩ := h
  exact ⟨user, at_, hsub.subset hmem⟩

theorem RedeemedFor.mono {trace trace' : List (Event F)} {challenge user : Text}
    {goal : Goal F} (hsub : trace <:+ trace') (h : RedeemedFor P trace challenge user goal) :
    RedeemedFor P trace' challenge user goal := by
  obtain ⟨before, args, expires, at_, hredeemed, hrest⟩ := h
  exact ⟨before, args, expires, at_, hredeemed.trans hsub, hrest⟩

theorem RedeemedFor.redeemed {trace : List (Event F)} {challenge user : Text} {goal : Goal F}
    (h : RedeemedFor P trace challenge user goal) : Redeemed trace challenge := by
  obtain ⟨before, args, expires, at_, hredeemed, _⟩ := h
  exact ⟨user, at_, hredeemed.subset List.mem_cons_self⟩

theorem FoundFor.mono {trace trace' : List (Event F)} {challenge user : Text}
    {record : PasskeyRecord} (hsub : trace <:+ trace')
    (h : FoundFor initial trace challenge user record) :
    FoundFor initial trace' challenge user record := by
  obtain ⟨before, hbefore, hrest⟩ := h
  exact ⟨before, hbefore.trans hsub, hrest⟩

theorem VerifiedFor.mono {trace trace' : List (Event F)} {challenge user : Text}
    (hsub : trace <:+ trace') (h : VerifiedFor P cfg initial trace challenge user) :
    VerifiedFor P cfg initial trace' challenge user := by
  obtain ⟨record, signCount, stored, hverified, hfound, haccepted⟩ := h
  exact ⟨record, signCount, stored, hsub.subset hverified, hfound.mono hsub, haccepted⟩

theorem AssertedFor.mono {trace trace' : List (Event F)} {challenge user : Text}
    {goal : Goal F} (hsub : trace <:+ trace')
    (h : AssertedFor P cfg initial trace challenge user goal) :
    AssertedFor P cfg initial trace' challenge user goal :=
  ⟨h.1.mono hsub, h.2.mono hsub⟩

theorem RegisteredFor.mono {trace trace' : List (Event F)} {challenge user : Text}
    (hsub : trace <:+ trace') (h : RegisteredFor trace challenge user) :
    RegisteredFor trace' challenge user := by
  obtain ⟨authorisedBy, expires, hminted, hredeemed⟩ := h
  exact ⟨authorisedBy, expires, hsub.subset hminted, hredeemed.mono hsub⟩

/-- The challenge that a thread holds between its redemption and its dispatch. -/
def Pc.holds : Pc F → Option Text
  | .assertLookup _ _ challenge => some challenge
  | .assertVerify _ _ challenge _ => some challenge
  | .dispatch _ _ authorisedBy => authorisedBy
  | _ => none

variable (P cfg initial) in
/-- What the trace says about where a thread stands. -/
def Backed (trace : List (Event F)) (user : Text) : Pc F → Prop
  | .assertLookup goal _ challenge => RedeemedFor P trace challenge user goal
  | .assertVerify goal _ challenge record =>
      RedeemedFor P trace challenge user goal ∧ FoundFor initial trace challenge user record
  | .dispatch name args authorisedBy =>
      Authorised P cfg initial trace user name args authorisedBy
  | .registerMint authorisedBy =>
      ∀ c, authorisedBy = some c → AssertedFor P cfg initial trace c user .enroll
  | .registerAdd challenge _ => RegisteredFor trace challenge user
  | _ => True

theorem Backed.mono {trace trace' : List (Event F)} {user : Text} {pc : Pc F}
    (hsub : trace <:+ trace') (h : Backed P cfg initial trace user pc) :
    Backed P cfg initial trace' user pc := by
  cases pc with
  | assertLookup goal envelope challenge => exact RedeemedFor.mono hsub h
  | assertVerify goal envelope challenge record => exact ⟨h.1.mono hsub, h.2.mono hsub⟩
  | dispatch name args authorisedBy =>
      cases authorisedBy with
      | none => exact h
      | some challenge => exact AssertedFor.mono hsub h
  | registerMint authorisedBy => exact fun c hc => (h c hc).mono hsub
  | registerAdd challenge record => exact RegisteredFor.mono hsub h
  | _ => trivial

theorem backed_of_isEntry (P : Platform F) (cfg : Config) (initial : PasskeyStore)
    (trace : List (Event F)) (user : Text) {pc : Pc F}
    (h : pc.isEntry = true) : Backed P cfg initial trace user pc ∧ pc.holds = none := by
  cases pc <;> first | exact ⟨trivial, rfl⟩ | cases h

theorem backed_of_unauthorised (P : Platform F) (initial : PasskeyStore)
    {w : World F} (trace : List (Event F)) {user : Text} {pc : Pc F}
    (h : pc.Unauthorised cfg w user) :
    Backed P cfg initial trace user pc ∧ pc.holds = none := by
  cases pc with
  | dispatch name args authorisedBy =>
      cases authorisedBy with
      | none => exact ⟨fun hname => (h hname).1, rfl⟩
      | some c => exact absurd h id
  | registerMint authorisedBy =>
      cases authorisedBy with
      | none => exact ⟨fun c hc => (by cases hc), rfl⟩
      | some c => exact absurd h id
  | _ => first | exact ⟨trivial, rfl⟩ | exact absurd h id

variable (P cfg initial) in
/-- Every thread is backed by the trace, holds only an unspent challenge, and no two hold
the same one. -/
structure ThreadsSound (trace : List (Event F)) (threads : Nat → Option (Thread F)) : Prop where
  backed : ∀ i t, threads i = some t → Backed P cfg initial trace t.session.user t.pc
  unspent : ∀ i t c, threads i = some t → t.pc.holds = some c →
    Redeemed trace c ∧ ¬ Spent trace c
  exclusive : ∀ i j t u c, threads i = some t → threads j = some u →
    t.pc.holds = some c → u.pc.holds = some c → i = j

/-- A thread that moves on keeps the threads sound when its next pc is backed, a challenge
it newly holds was never redeemed before, and it dispatches on no challenge but its own. -/
theorem ThreadsSound.update {trace trace' : List (Event F)}
    {threads : Nat → Option (Thread F)} (h : ThreadsSound P cfg initial trace threads) {i : Nat}
    {t : Thread F} (hthread : threads i = some t) {pc : Pc F} (hsub : trace <:+ trace')
    (hspent : ∀ c, Spent trace' c → Spent trace c ∨ t.pc.holds = some c)
    (hbacked : Backed P cfg initial trace' t.session.user pc)
    (hholds : ∀ c, pc.holds = some c →
      (t.pc.holds = some c ∨ ¬ Redeemed trace c) ∧ Redeemed trace' c ∧ ¬ Spent trace' c) :
    ThreadsSound P cfg initial trace'
      (Function.update threads i (some { t with pc := pc })) := by
  -- no other thread holds what this one holds now
  have hother : ∀ j u c, j ≠ i → threads j = some u → u.pc.holds = some c →
      pc.holds = some c → False := by
    intro j u c hne hj hu hpc
    rcases (hholds c hpc).1 with hown | hfresh
    · exact hne (h.exclusive j i u t c hj hthread hu hown)
    · exact hfresh (h.unspent j u c hj hu).1
  refine ⟨fun j u hj => ?_, fun j u c hj hu => ?_, fun j k u v c hj hk hu hv => ?_⟩
  · by_cases hji : j = i
    · subst hji
      rw [Function.update_self] at hj
      cases hj
      exact hbacked
    · rw [Function.update_of_ne hji] at hj
      exact (h.backed j u hj).mono hsub
  · by_cases hji : j = i
    · subst hji
      rw [Function.update_self] at hj
      cases hj
      exact (hholds c hu).2
    · rw [Function.update_of_ne hji] at hj
      obtain ⟨hredeemed, hunspent⟩ := h.unspent j u c hj hu
      refine ⟨hredeemed.mono hsub, fun hc => ?_⟩
      rcases hspent c hc with hold | hown
      · exact hunspent hold
      · exact hji (h.exclusive j i u t c hj hthread hu hown)
  · by_cases hji : j = i <;> by_cases hki : k = i
    · rw [hji, hki]
    · subst hji
      rw [Function.update_self] at hj
      cases hj
      rw [Function.update_of_ne hki] at hk
      exact absurd hu fun hpc => hother k v c hki hk hv hpc
    · subst hki
      rw [Function.update_self] at hk
      cases hk
      rw [Function.update_of_ne hji] at hj
      exact absurd hv fun hpc => hother j u c hji hj hu hpc
    · rw [Function.update_of_ne hji] at hj
      rw [Function.update_of_ne hki] at hk
      exact h.exclusive j k u v c hj hk hu hv

end Genaryx.Ceremony
