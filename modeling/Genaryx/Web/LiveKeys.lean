import Genaryx.Base.Transition
import Genaryx.Web.JwksBody
import Mathlib.Data.List.Chain

/-!
# The live signing keys

The keys that sign-in tokens are verified with, fetched again when they are old or when one
is missing. A caller holds the lock from its decision until its fetch has ended, and both
reasons to fetch share one cooldown.

## Implementation notes

Instants and durations count nanoseconds. `World.attempts` and `World.accepted` are history:
no step reads them. A call can be dropped where it awaits, the lock or the answer to its fetch.
-/

namespace Genaryx.Web.LiveJwks

open Base Base.Transition

/-- How long a fetched set is trusted. -/
def maxAge : Nat := 60 * 60 * 1000000000

/-- The floor between two fetches. -/
def cooldown : Nat := 5 * 60 * 1000000000

/-- What a fetch can fail with. -/
inductive FetchError where
  | transport (error : Text)
  | nonSuccess (status : Nat)
  | redirected
  | tooLarge
  deriving DecidableEq

variable {F Jwk : Type}

structure LiveState (Jwk : Type) where
  keys : List Jwk := []
  fetchedAt : Option Nat := none
  lastAttempt : Option Nat := none
  warnedThisStreak : Bool := false

/-- What a caller wants: a key, or the set that a start-up begins with. -/
inductive Request where
  | find (kid : Text)
  | warmUp
  deriving DecidableEq

/-- Where a call stands. A call that is `due` holds the lock and is about to fetch. -/
inductive Phase (Jwk : Type) where
  | waiting
  | due
  | fetching (now : Nat)
  | answered (key : Option Jwk)
  | dropped

/-- The call holds the lock. -/
def Phase.holdsLock : Phase Jwk → Bool
  | .due | .fetching _ => true
  | _ => false

structure Call (Jwk : Type) where
  request : Request
  phase : Phase Jwk := .waiting

/-- One fetch that began. -/
structure Attempt where
  began : Nat
  request : Request

/-- The cached keys, their lock, the clock and every call so far. `attempts` has the latest
fetch first, and `accepted` the last body accepted with the time its fetch began. -/
structure World (Jwk : Type) where
  state : LiveState Jwk := {}
  locked : Option Nat := none
  clock : Nat := 0
  calls : List (Call Jwk) := []
  attempts : List Attempt := []
  accepted : Option (Bytes × Nat) := none

/-- What can happen: time passes, a call arrives, takes the lock, begins its fetch, has its
answer, or is dropped. -/
inductive Action where
  | tick (elapsed : Nat)
  | call (request : Request)
  | lock (index : Nat)
  | attempt (index : Nat)
  | outcome (index : Nat) (fetched : Except FetchError Bytes)
  | drop (index : Nat)

variable (reader : KeyReader F Jwk)

namespace LiveState

variable (s : LiveState Jwk)

def dueByAge (now : Nat) : Bool :=
  match s.fetchedAt with
  | none => true
  | some t => maxAge ≤ now - t

def dueByKid (kid : Text) : Bool := (findKey reader s.keys kid).isNone

def cooledDown (now : Nat) : Bool :=
  match s.lastAttempt with
  | none => true
  | some t => cooldown ≤ now - t

/-- Whether a call that has the lock fetches. -/
def fetches (request : Request) (now : Nat) : Bool :=
  match request with
  | .find kid => (s.dueByAge now || s.dueByKid reader kid) && s.cooledDown now
  | .warmUp => s.fetchedAt.isNone

/-- What a call is answered. -/
def answer (request : Request) : Option Jwk :=
  match request with
  | .find kid => findKey reader s.keys kid
  | .warmUp => none

/-- What a fetch leaves: the usable keys of a body that is accepted, or else what there was. -/
def settle (now : Nat) (fetched : Except FetchError Bytes) : LiveState Jwk :=
  match fetched with
  | .ok body =>
      match validateJwksBytes reader body with
      | .ok keys => { s with keys, fetchedAt := some now, warnedThisStreak := false }
      | .error _ => { s with warnedThisStreak := true }
  | .error _ => { s with warnedThisStreak := true }

end LiveState

/-- The history of accepted bodies after a fetch. -/
def acceptedAfter (accepted : Option (Bytes × Nat)) (now : Nat)
    (fetched : Except FetchError Bytes) : Option (Bytes × Nat) :=
  match fetched with
  | .ok body =>
      match validateJwksBytes reader body with
      | .ok _ => some (body, now)
      | .error _ => accepted
  | .error _ => accepted

namespace World

variable (w : World Jwk)

/-- A call moves on. -/
def move (index : Nat) (request : Request) (phase : Phase Jwk) : World Jwk :=
  { w with calls := w.calls.set index ⟨request, phase⟩ }

/-- A call that holds the lock reads the clock and decides. -/
def proceed (index : Nat) (request : Request) : World Jwk :=
  if w.state.fetches reader request w.clock then
    { w.move index request .due with locked := some index }
  else w.move index request (.answered (w.state.answer reader request))

/-- A fetch begins. -/
def begin (index : Nat) (request : Request) : World Jwk :=
  { w.move index request (.fetching w.clock) with
    state := { w.state with lastAttempt := some w.clock }
    attempts := ⟨w.clock, request⟩ :: w.attempts }

/-- A fetch that began at `now` has its answer. -/
def finish (index : Nat) (request : Request) (now : Nat) (fetched : Except FetchError Bytes) :
    World Jwk :=
  let state := w.state.settle reader now fetched
  { w.move index request (.answered (state.answer reader request)) with
    state
    locked := none
    accepted := acceptedAfter reader w.accepted now fetched }

end World

def step (w : World Jwk) : Action → Option (World Jwk)
  | .tick elapsed => some { w with clock := w.clock + elapsed }
  | .call request => some { w with calls := w.calls ++ [{ request }] }
  | .lock index =>
      match w.calls[index]?, w.locked with
      | some ⟨request, .waiting⟩, none => some (w.proceed reader index request)
      | _, _ => none
  | .attempt index =>
      match w.calls[index]? with
      | some ⟨request, .due⟩ => some (w.begin index request)
      | _ => none
  | .outcome index fetched =>
      match w.calls[index]? with
      | some ⟨request, .fetching now⟩ => some (w.finish reader index request now fetched)
      | _ => none
  | .drop index =>
      match w.calls[index]? with
      | some ⟨request, .waiting⟩ => some (w.move index request .dropped)
      | some ⟨request, .fetching _⟩ => some { w.move index request .dropped with locked := none }
      | _ => none

namespace World

variable (w : World Jwk)

/-- The last fetch, if any, began a cooldown ago. -/
def Cooled : Prop := ∀ last ∈ w.attempts.head?, last.began + cooldown ≤ w.clock

/-- No body was accepted yet, or the last one was asked for an age ago. -/
def Aged : Prop := ∀ last ∈ w.accepted, last.2 + maxAge ≤ w.clock

/-- The keys that the last accepted body leaves in use. -/
def current : List Jwk :=
  match w.accepted with
  | none => []
  | some last => usableKeys reader last.1

end World

/-- A fetch that a call for a key began keeps its distance from the fetch before it. -/
def Spaced (later earlier : Attempt) : Prop :=
  ∀ kid, later.request = .find kid → earlier.began + cooldown ≤ later.began

/-- What every reachable world keeps. -/
structure Kept (w : World Jwk) : Prop where
  keys : w.state.keys = w.current reader
  fetchedAt : w.state.fetchedAt = w.accepted.map Prod.snd
  lastAttempt : w.state.lastAttempt = w.attempts.head?.map Attempt.began
  holder : ∀ index c, w.calls[index]? = some c → c.phase.holdsLock = true →
    w.locked = some index
  ready : ∀ (index : Nat) kid, w.calls[index]? = some ⟨.find kid, .due⟩ → w.Cooled
  spaced : w.attempts.IsChain Spaced

section Steps

variable {reader} {w v : World Jwk} {index : Nat} {request : Request} {phase : Phase Jwk}

theorem cooledDown_iff (h : w.state.lastAttempt = w.attempts.head?.map Attempt.began) :
    w.state.cooledDown w.clock = true ↔ w.Cooled := by
  rw [LiveState.cooledDown, World.Cooled, h]
  cases w.attempts.head? with
  | none => simp
  | some last =>
      simp only [Option.map_some, decide_eq_true_eq, Option.mem_def, Option.some.injEq,
        forall_eq']
      have hpos : 0 < cooldown := by decide
      omega

theorem dueByAge_iff (h : w.state.fetchedAt = w.accepted.map Prod.snd) :
    w.state.dueByAge w.clock = true ↔ w.Aged := by
  rw [LiveState.dueByAge, World.Aged, h]
  cases w.accepted with
  | none => simp
  | some last =>
      simp only [Option.map_some, decide_eq_true_eq, Option.mem_def, Option.some.injEq,
        forall_eq']
      have hpos : 0 < maxAge := by decide
      omega

/-- A call for a key fetches when the keys are old or lack it, once the cooldown has passed. -/
theorem fetches_find_iff (h : Kept reader w) (kid : Text) :
    w.state.fetches reader (.find kid) w.clock = true ↔
      (w.Aged ∨ findKey reader (w.current reader) kid = none) ∧ w.Cooled := by
  rw [LiveState.fetches, Bool.and_eq_true, Bool.or_eq_true, dueByAge_iff h.fetchedAt,
    cooledDown_iff h.lastAttempt, LiveState.dueByKid, h.keys, Option.isNone_iff_eq_none]

theorem getElem?_move (hindex : index < w.calls.length) (i : Nat) :
    (w.move index request phase).calls[i]? =
      if index = i then some ⟨request, phase⟩ else w.calls[i]? := by
  rw [World.move, List.getElem?_set, if_pos hindex]

theorem lt_of_getElem? {c : Call Jwk} (h : w.calls[index]? = some c) :
    index < w.calls.length :=
  (List.getElem?_eq_some_iff.mp h).1

/-- The settled keys are those of the last accepted body. -/
theorem settle_current (h : Kept reader w) (now : Nat) (fetched : Except FetchError Bytes) :
    (w.state.settle reader now fetched).keys =
        (w.finish reader index request now fetched).current reader ∧
      (w.state.settle reader now fetched).fetchedAt =
        (w.finish reader index request now fetched).accepted.map Prod.snd ∧
      (w.state.settle reader now fetched).lastAttempt = w.state.lastAttempt := by
  have hkeys := h.keys
  have hfetched := h.fetchedAt
  simp only [World.current, World.finish, World.move] at hkeys ⊢
  cases fetched with
  | error e => exact ⟨hkeys, hfetched, rfl⟩
  | ok body =>
      simp only [LiveState.settle, acceptedAfter]
      cases hvalid : validateJwksBytes reader body with
      | error refused => exact ⟨hkeys, hfetched, rfl⟩
      | ok keys => exact ⟨(validateJwksBytes_eq_ok_iff.mp hvalid).2, rfl, rfl⟩

/-- A call that moves to a phase keeps the lock with one call at most. -/
theorem holder_move {locked : Option Nat} (hindex : index < w.calls.length)
    (hother : ∀ i c, i ≠ index → w.calls[i]? = some c → c.phase.holdsLock = true →
      locked = some i)
    (hself : phase.holdsLock = true → locked = some index) {i : Nat} {c : Call Jwk}
    (hc : (w.move index request phase).calls[i]? = some c) (hholds : c.phase.holdsLock = true) :
    locked = some i := by
  rw [getElem?_move hindex] at hc
  split at hc
  · next h =>
      subst h
      cases hc
      exact hself hholds
  · next h => exact hother i c (Ne.symm h) hc hholds

/-- A call that is due after another call moved was due before. -/
theorem ready_move (hindex : index < w.calls.length) (hnot : phase ≠ .due) {i : Nat} {kid : Text}
    (hc : (w.move index request phase).calls[i]? = some ⟨.find kid, .due⟩) :
    w.calls[i]? = some ⟨.find kid, .due⟩ := by
  rw [getElem?_move hindex] at hc
  split at hc
  · cases hc
    exact absurd rfl hnot
  · exact hc

end Steps

namespace Kept

variable {reader} {w v : World Jwk} {index : Nat} {request : Request}

theorem start : Kept reader ({} : World Jwk) where
  keys := rfl
  fetchedAt := rfl
  lastAttempt := rfl
  holder := fun _ _ hc => by cases hc
  ready := fun _ _ hc => by cases hc
  spaced := List.isChain_nil

/-- The call that holds the lock is the only one. -/
theorem eq_of_holds (h : Kept reader w) {i j : Nat} {c d : Call Jwk} (hc : w.calls[i]? = some c)
    (hd : w.calls[j]? = some d) (hcl : c.phase.holdsLock = true) (hdl : d.phase.holdsLock = true) :
    i = j := by
  have hlocked := h.holder i c hc hcl
  rw [h.holder j d hd hdl] at hlocked
  exact (Option.some.inj hlocked).symm

theorem tick (h : Kept reader w) (elapsed : Nat) :
    Kept reader { w with clock := w.clock + elapsed } where
  keys := h.keys
  fetchedAt := h.fetchedAt
  lastAttempt := h.lastAttempt
  holder := h.holder
  ready := fun i kid hc last hlast =>
    le_trans (h.ready i kid hc last hlast) (Nat.le_add_right _ _)
  spaced := h.spaced

theorem call (h : Kept reader w) (request : Request) :
    Kept reader { w with calls := w.calls ++ [{ request }] } := by
  have hold : ∀ {i : Nat} {c : Call Jwk}, (w.calls ++ [({ request } : Call Jwk)])[i]? = some c →
      c.phase.holdsLock = true → w.calls[i]? = some c := by
    intro i c hc hholds
    rcases List.getElem?_eq_some_iff.mp hc with ⟨hi, heq⟩
    rw [List.length_append, List.length_singleton] at hi
    obtain hlt | rfl : i < w.calls.length ∨ i = w.calls.length := by omega
    · rwa [List.getElem?_append_left hlt] at hc
    · rw [List.getElem?_concat_length] at hc
      cases hc
      cases hholds
  exact ⟨h.keys, h.fetchedAt, h.lastAttempt,
    fun i c hc hholds => h.holder i c (hold hc hholds) hholds,
    fun i kid hc => h.ready i kid (hold hc rfl), h.spaced⟩

theorem proceed (h : Kept reader w) (hcall : w.calls[index]? = some ⟨request, .waiting⟩)
    (hfree : w.locked = none) : Kept reader (w.proceed reader index request) := by
  have hindex := lt_of_getElem? hcall
  have hnone : ∀ (i : Nat) c, w.calls[i]? = some c → c.phase.holdsLock = true → False := by
    intro i c hc hholds
    have hlocked := h.holder i c hc hholds
    rw [hfree] at hlocked
    cases hlocked
  unfold World.proceed
  split
  · next hfetches =>
      refine ⟨h.keys, h.fetchedAt, h.lastAttempt, fun i c hc hholds => ?_, fun i kid hc => ?_,
        h.spaced⟩
      · exact holder_move hindex (fun i c _ hc hholds => absurd hholds (hnone i c hc))
          (fun _ => rfl) hc hholds
      · change (w.move index request .due).calls[i]? = _ at hc
        rw [getElem?_move hindex] at hc
        split at hc
        · cases hc
          exact ((fetches_find_iff h kid).mp hfetches).2
        · exact absurd rfl (hnone i _ hc)
  · refine ⟨h.keys, h.fetchedAt, h.lastAttempt, fun i c hc hholds => ?_, fun i kid hc => ?_,
      h.spaced⟩
    · exact holder_move hindex (fun i c _ hc hholds => h.holder i c hc hholds) (by rintro ⟨⟩) hc
        hholds
    · exact h.ready i kid (ready_move hindex (by rintro ⟨⟩) hc)

theorem begin (h : Kept reader w) (hcall : w.calls[index]? = some ⟨request, .due⟩) :
    Kept reader (w.begin index request) := by
  have hindex := lt_of_getElem? hcall
  refine ⟨h.keys, h.fetchedAt, rfl, fun i c hc hholds => ?_, fun i kid hc => ?_, ?_⟩
  · exact holder_move hindex (fun i c _ hc hholds => h.holder i c hc hholds)
      (fun _ => h.holder index _ hcall rfl) hc hholds
  · -- No other call is due: this one holds the lock.
    have hdue := ready_move hindex (by rintro ⟨⟩) hc
    obtain rfl := h.eq_of_holds hcall hdue rfl rfl
    change (w.move index request (.fetching w.clock)).calls[index]? = _ at hc
    rw [getElem?_move hindex, if_pos rfl] at hc
    cases hc
  · refine List.isChain_cons.mpr ⟨fun last hlast kid hrequest => ?_, h.spaced⟩
    obtain rfl : request = .find kid := hrequest
    exact h.ready index kid hcall last hlast

theorem finish (h : Kept reader w) {now : Nat}
    (hcall : w.calls[index]? = some ⟨request, .fetching now⟩)
    (fetched : Except FetchError Bytes) :
    Kept reader (w.finish reader index request now fetched) := by
  have hindex := lt_of_getElem? hcall
  obtain ⟨hkeys, hfetched, hlast⟩ := @settle_current F Jwk reader w index request h now
    fetched
  refine ⟨hkeys, hfetched, hlast.trans h.lastAttempt, fun i c hc hholds => ?_, fun i kid hc => ?_,
    h.spaced⟩
  · refine holder_move hindex (fun i c hne hc hholds => ?_) (by rintro ⟨⟩) hc hholds
    exact absurd (h.eq_of_holds hc hcall hholds rfl) hne
  · exact h.ready i kid (ready_move hindex (by rintro ⟨⟩) hc)

theorem dropWaiting (h : Kept reader w) (hcall : w.calls[index]? = some ⟨request, .waiting⟩) :
    Kept reader (w.move index request .dropped) := by
  have hindex := lt_of_getElem? hcall
  refine ⟨h.keys, h.fetchedAt, h.lastAttempt, fun i c hc hholds => ?_, fun i kid hc => ?_,
    h.spaced⟩
  · exact holder_move hindex (fun i c _ hc hholds => h.holder i c hc hholds) (by rintro ⟨⟩) hc
      hholds
  · exact h.ready i kid (ready_move hindex (by rintro ⟨⟩) hc)

theorem dropFetching (h : Kept reader w) {now : Nat}
    (hcall : w.calls[index]? = some ⟨request, .fetching now⟩) :
    Kept reader { w.move index request .dropped with locked := none } := by
  have hindex := lt_of_getElem? hcall
  refine ⟨h.keys, h.fetchedAt, h.lastAttempt, fun i c hc hholds => ?_, fun i kid hc => ?_,
    h.spaced⟩
  · refine holder_move hindex (fun i c hne hc hholds => ?_) (by rintro ⟨⟩) hc hholds
    exact absurd (h.eq_of_holds hc hcall hholds rfl) hne
  · exact h.ready i kid (ready_move hindex (by rintro ⟨⟩) hc)

end Kept

section Inversion

variable {reader} {w v : World Jwk} {index : Nat}

theorem step_lock (h : step reader w (.lock index) = some v) :
    ∃ request, w.calls[index]? = some ⟨request, .waiting⟩ ∧ w.locked = none ∧
      v = w.proceed reader index request := by
  rw [step] at h
  split at h
  · next request hcall hfree => exact ⟨request, hcall, hfree, (Option.some.inj h).symm⟩
  · cases h

theorem step_attempt (h : step reader w (.attempt index) = some v) :
    ∃ request, w.calls[index]? = some ⟨request, .due⟩ ∧ v = w.begin index request := by
  rw [step] at h
  split at h
  · next request hcall => exact ⟨request, hcall, (Option.some.inj h).symm⟩
  · cases h

theorem step_outcome {fetched : Except FetchError Bytes}
    (h : step reader w (.outcome index fetched) = some v) :
    ∃ request now, w.calls[index]? = some ⟨request, .fetching now⟩ ∧
      v = w.finish reader index request now fetched := by
  rw [step] at h
  split at h
  · next request now hcall => exact ⟨request, now, hcall, (Option.some.inj h).symm⟩
  · cases h

theorem step_drop (h : step reader w (.drop index) = some v) :
    ∃ request, (w.calls[index]? = some ⟨request, .waiting⟩ ∧ v = w.move index request .dropped) ∨
      ∃ now, w.calls[index]? = some ⟨request, .fetching now⟩ ∧
        v = { w.move index request .dropped with locked := none } := by
  rw [step] at h
  split at h
  · next request hcall => exact ⟨request, .inl ⟨hcall, (Option.some.inj h).symm⟩⟩
  · next request now hcall => exact ⟨request, .inr ⟨now, hcall, (Option.some.inj h).symm⟩⟩
  · cases h

/-- Every step keeps what every reachable world keeps. -/
theorem Kept.step {a : Action} (h : Kept reader w) (hstep : step reader w a = some v) :
    Kept reader v := by
  cases a with
  | tick elapsed =>
      cases hstep
      exact h.tick elapsed
  | call request =>
      cases hstep
      exact h.call request
  | lock index =>
      obtain ⟨request, hcall, hfree, rfl⟩ := step_lock hstep
      exact h.proceed hcall hfree
  | attempt index =>
      obtain ⟨request, hcall, rfl⟩ := step_attempt hstep
      exact h.begin hcall
  | outcome index fetched =>
      obtain ⟨request, now, hcall, rfl⟩ := step_outcome hstep
      exact h.finish hcall fetched
  | drop index =>
      obtain ⟨request, ⟨hcall, rfl⟩ | ⟨now, hcall, rfl⟩⟩ := step_drop hstep
      · exact h.dropWaiting hcall
      · exact h.dropFetching hcall

/-- While a call is due, only its own fetch moves it on, and no other fetch begins. -/
theorem Kept.due_stays {a : Action} {request : Request} (h : Kept reader w)
    (hdue : w.calls[index]? = some ⟨request, .due⟩) (hstep : LiveJwks.step reader w a = some v)
    (hother : a ≠ .attempt index) :
    v.calls[index]? = some ⟨request, .due⟩ ∧ v.attempts = w.attempts := by
  have hmove : ∀ {i request' phase} {c : Call Jwk}, w.calls[i]? = some c → c.phase ≠ .due →
      (w.move i request' phase).calls[index]? = some ⟨request, .due⟩ := by
    intro i request' phase c hc hne
    rw [getElem?_move (lt_of_getElem? hc), if_neg]
    · exact hdue
    · rintro rfl
      rw [hdue] at hc
      cases hc
      exact hne rfl
  cases a with
  | tick elapsed =>
      cases hstep
      exact ⟨hdue, rfl⟩
  | call request' =>
      cases hstep
      exact ⟨(List.getElem?_append_left (lt_of_getElem? hdue)).trans hdue, rfl⟩
  | lock i =>
      obtain ⟨request', hcall, hfree, -⟩ := step_lock hstep
      rw [h.holder index _ hdue rfl] at hfree
      cases hfree
  | attempt i =>
      obtain ⟨request', hcall, -⟩ := step_attempt hstep
      exact absurd (congrArg Action.attempt (h.eq_of_holds hcall hdue rfl rfl)) hother
  | outcome i fetched =>
      obtain ⟨request', now, hcall, rfl⟩ := step_outcome hstep
      exact ⟨hmove hcall (by rintro ⟨⟩), rfl⟩
  | drop i =>
      obtain ⟨request', ⟨hcall, rfl⟩ | ⟨now, hcall, rfl⟩⟩ := step_drop hstep
      · exact ⟨hmove hcall (by rintro ⟨⟩), rfl⟩
      · exact ⟨hmove hcall (by rintro ⟨⟩), rfl⟩

/-- Only an accepted body changes the keys. -/
theorem keys_of_step {a : Action} (hstep : LiveJwks.step reader w a = some v)
    (hrefused : ∀ index body, a = .outcome index (.ok body) → ¬ Accepted reader body) :
    v.state.keys = w.state.keys := by
  cases a with
  | tick elapsed => cases hstep; rfl
  | call request => cases hstep; rfl
  | lock index =>
      obtain ⟨request, -, -, rfl⟩ := step_lock hstep
      unfold World.proceed
      split <;> rfl
  | attempt index =>
      obtain ⟨request, -, rfl⟩ := step_attempt hstep
      rfl
  | outcome index fetched =>
      obtain ⟨request, now, -, rfl⟩ := step_outcome hstep
      cases fetched with
      | error e => rfl
      | ok body =>
          obtain ⟨refused, hvalid⟩ := validateJwksBytes_eq_error (hrefused index body rfl)
          simp only [World.finish, LiveState.settle, hvalid]
  | drop index =>
      obtain ⟨request, ⟨-, rfl⟩ | ⟨now, -, rfl⟩⟩ := step_drop hstep <;> rfl

end Inversion

/-- The live keys are bounded and never lost. -/
structure BoundedAndKept (w : World Jwk) : Prop where
  /-- A fetch that a call for a key begins is a cooldown after the fetch before it. -/
  spaced : w.attempts.IsChain Spaced
  /-- The keys are the usable ones of the last accepted body. -/
  keys : w.state.keys = w.current reader
  /-- A step that brings no accepted body leaves the keys. -/
  unchanged : ∀ a v, step reader w a = some v →
    (∀ index body, a = .outcome index (.ok body) → ¬ Accepted reader body) →
    v.state.keys = w.state.keys
  /-- A fetch that brings an accepted body replaces them. -/
  replaced : ∀ index body v, step reader w (.outcome index (.ok body)) = some v →
    Accepted reader body → v.state.keys = usableKeys reader body
  /-- A call for a key that takes the lock is about to fetch if the keys are old or lack the
  key and the cooldown has passed. -/
  due : ∀ (index : Nat) kid v, w.calls[index]? = some ⟨.find kid, .waiting⟩ →
    step reader w (.lock index) = some v →
    w.Aged ∨ findKey reader w.state.keys kid = none → w.Cooled →
    v.calls[index]? = some ⟨.find kid, .due⟩
  /-- A call that is about to fetch can do so, and until then stays so while no other fetch
  begins. -/
  fetches : ∀ (index : Nat) request, w.calls[index]? = some ⟨request, .due⟩ →
    (∃ v, step reader w (.attempt index) = some v ∧
      v.calls[index]? = some ⟨request, .fetching w.clock⟩ ∧
      v.attempts = ⟨w.clock, request⟩ :: w.attempts) ∧
    ∀ a v, step reader w a = some v → a ≠ .attempt index →
      v.calls[index]? = some ⟨request, .due⟩ ∧ v.attempts = w.attempts
  /-- No two fetches are in flight at once. -/
  single : ∀ (i j : Nat) r s begun begun', w.calls[i]? = some ⟨r, .fetching begun⟩ →
    w.calls[j]? = some ⟨s, .fetching begun'⟩ → i = j

/-- In every run, whatever is fetched and whenever, the live keys are bounded and never lost. -/
def LiveKeysKept : Prop :=
  ∀ (actions : List Action) (w : World Jwk), run (step reader) {} actions = some w →
    BoundedAndKept reader w

theorem liveKeysKept : ∀ (F Jwk : Type) (reader : KeyReader F Jwk), LiveKeysKept reader := by
  intro F Jwk reader actions w hrun
  have h : Kept reader w := run_invariant (fun _ _ _ hs hstep => hs.step hstep) hrun Kept.start
  constructor
  · exact h.spaced
  · exact h.keys
  · intro a v hstep hrefused
    exact keys_of_step hstep hrefused
  · intro index body v hstep haccepted
    obtain ⟨request, now, -, rfl⟩ := step_outcome hstep
    have hvalid := validateJwksBytes_eq_ok_iff.mpr ⟨haccepted, rfl⟩
    simp only [World.finish, LiveState.settle, hvalid]
  · intro index kid v hcall hstep hdue hcooled
    obtain ⟨request, hwaiting, -, rfl⟩ := step_lock hstep
    rw [hcall] at hwaiting
    cases hwaiting
    rw [h.keys] at hdue
    have hfetches := (fetches_find_iff h kid).mpr ⟨hdue, hcooled⟩
    rw [World.proceed, if_pos hfetches]
    exact (getElem?_move (lt_of_getElem? hcall) index).trans (if_pos rfl)
  · intro index request hdue
    refine ⟨⟨w.begin index request, ?_, ?_, rfl⟩, fun a v hstep hother =>
      h.due_stays hdue hstep hother⟩
    · rw [step, hdue]
    · exact (getElem?_move (lt_of_getElem? hdue) index).trans (if_pos rfl)
  · intro i j r s begun begun' hi hj
    exact h.eq_of_holds hi hj rfl rfl

end Genaryx.Web.LiveJwks
