import Genaryx.Web.Throttle
import Genaryx.Base.Transition

/-!
# Concurrent sign-ins under the throttle

Each sign-in request runs through `login` on its own. The two checks, the password hash and
the two records take the locks of the tables one at a time, so the steps of different requests
interleave.

## Implementation notes

`World.begun`, `World.peak` and `Request.countedIn` are history: no step reads them. The hash
of the password is the parameter `passwordMatches`, which is false on a record that does not
parse.
-/

namespace Genaryx.Web

open Base Base.Transition

/-- The stored record of the operator. -/
structure Operator where
  username : Text
  phc : Text

/-- Check a username and a password against the stored record. -/
def verify (passwordMatches : Text → Text → Bool) (op : Operator) (username password : Text) :
    Bool :=
  passwordMatches op.phc password && op.username == username

/-- What a sign-in request is answered. -/
inductive Outcome where
  | tooMany (retryAfter : Nat)
  | refused
  | signedIn (user : Text)
  deriving DecidableEq

/-- The step a request takes next. -/
inductive Stage where
  | checkAccount
  | checkAddress (heldAccount : Option Nat)
  | verify
  | failAccount
  | failAddress
  | passAccount
  | passAddress
  | answered (outcome : Outcome)
  deriving DecidableEq

/-- The account table let the request through, and it has recorded nothing yet. -/
def Stage.admitted : Stage → Bool
  | .checkAddress none | .verify | .failAccount => true
  | _ => false

/-- One sign-in request. `countedIn` is the window of its account that its failure counted
in. -/
structure Request where
  operator : Operator
  username : Text
  password : Text
  peer : Option Text
  now : Nat
  stage : Stage := .checkAccount
  countedIn : Option Nat := none

namespace Request

variable (r : Request)

def account : Text := loginKey "user".toList r.username

def address : Text := loginKey "addr".toList (r.peer.getD "unknown".toList)

def admitted : Bool := r.stage.admitted

end Request

/-- The tables, the clock and every request so far. `begun` is how many windows each key has
begun, and `peak` how many of its requests were at most admitted at once. -/
structure World where
  accounts : LoginThrottle := { limit := accountLimit, window := throttleWindow, maxKeys }
  addresses : LoginThrottle := { limit := addressLimit, window := throttleWindow, maxKeys }
  clock : Nat := 0
  requests : List Request := []
  begun : Text → Nat := fun _ => 0
  peak : Text → Nat := fun _ => 0

/-- What can happen: time passes, a request arrives, or a request takes its next step. -/
inductive Action where
  | tick (elapsed : Nat)
  | request (operator : Option Operator) (username password : Text) (peer : Option Text)
  | advance (index : Nat) (pick : Text)

/-- The time a key is still held back. -/
def heldFor : Except Nat Unit → Option Nat
  | .error wait => some wait
  | .ok () => none

/-- The longer of the waits of the two keys. -/
def longestWait : Option Nat → Option Nat → Option Nat
  | some a, some b => some (max a b)
  | some a, none => some a
  | none, held => held

/-- The seconds a held request is told to wait. -/
def tooManySignIns (wait : Nat) : Outcome := .tooMany (max (wait / 1000000000) 1)

namespace World

variable (w : World)

/-- How many requests for a key are admitted. -/
def admitted (key : Text) : Nat :=
  w.requests.countP fun r => r.account == key && r.admitted

/-- A failure of a key begins a window. -/
def begins (key : Text) (now : Nat) : Bool :=
  match w.accounts.windows.lookup key with
  | some e => !w.accounts.isLive e now
  | none => true

def recordAccount (pick : Text) (r : Request) : World :=
  { w with
    accounts := w.accounts.recordFailure pick r.account r.now
    begun := fun key =>
      if key = r.account ∧ w.begins key r.now then w.begun key + 1 else w.begun key }

end World

variable (passwordMatches : Text → Text → Bool)

/-- The next step of one request. -/
def handle (w : World) (r : Request) (pick : Text) : Option (World × Request) :=
  match r.stage with
  | .checkAccount =>
      some (w, { r with stage := .checkAddress (heldFor (w.accounts.check r.account r.now)) })
  | .checkAddress heldAccount =>
      match longestWait heldAccount (heldFor (w.addresses.check r.address r.now)) with
      | some wait => some (w, { r with stage := .answered (tooManySignIns wait) })
      | none => some (w, { r with stage := .verify })
  | .verify =>
      if verify passwordMatches r.operator r.username r.password then
        some (w, { r with stage := .passAccount })
      else some (w, { r with stage := .failAccount })
  | .failAccount =>
      let recorded := w.recordAccount pick r
      some (recorded,
        { r with stage := .failAddress, countedIn := some (recorded.begun r.account) })
  | .failAddress =>
      some ({ w with addresses := w.addresses.recordFailure pick r.address r.now },
        { r with stage := .answered .refused })
  | .passAccount =>
      some ({ w with accounts := w.accounts.recordSuccess r.account },
        { r with stage := .passAddress })
  | .passAddress =>
      some ({ w with addresses := w.addresses.recordSuccess r.address },
        { r with stage := .answered (.signedIn r.operator.username) })
  | .answered _ => none

/-- One action. A request that finds no operator account is answered at once. -/
def act (w : World) : Action → Option World
  | .tick elapsed => some { w with clock := w.clock + elapsed }
  | .request none _ _ _ => some w
  | .request (some operator) username password peer =>
      some { w with
        requests := w.requests ++ [{ operator, username, password, peer, now := w.clock }] }
  | .advance index pick =>
      match w.requests[index]? with
      | some r =>
          (handle passwordMatches w r pick).map fun next =>
            { next.1 with requests := w.requests.set index next.2 }
      | none => none

/-- Remember the most requests admitted at once for each key. -/
def World.observe (w : World) : World :=
  { w with peak := fun key => max (w.peak key) (w.admitted key) }

def step (w : World) (a : Action) : Option World :=
  (act passwordMatches w a).map World.observe

namespace World

variable (w : World)

/-- A wrong password of the request was verified in the current window of a key: it counted
there, or it is about to. -/
def guessed (key : Text) (e : Window) (r : Request) : Bool :=
  r.account == key &&
    (r.countedIn == some (w.begun key) ||
      r.stage == .failAccount && w.accounts.isLive e r.now)

/-- The wrong passwords verified for a key in its current window. -/
def guesses (key : Text) (e : Window) : Nat :=
  w.requests.countP (w.guessed key e)

/-- A step that clears the window of a key by a success. -/
def clears (key : Text) : Action → Bool
  | .advance index _ =>
      match w.requests[index]? with
      | some r => r.stage == .passAccount && r.account == key
      | none => false
  | _ => false

/-- A step that evicts the window of a key from a full table, by a failure of another key. -/
def evicts (key : Text) : Action → Bool
  | .advance index pick =>
      match w.requests[index]? with
      | some r => r.stage == .failAccount && w.accounts.evicts pick r.account r.now == some key
      | none => false
  | _ => false

/-- The step lets no request of a key past its check while another one that is past it has not
recorded its failure. -/
def takesTurns (key : Text) : Action → Bool
  | .advance index _ =>
      match w.requests[index]? with
      | some r =>
          r.stage != .checkAccount || r.account != key ||
            (heldFor (w.accounts.check r.account r.now)).isSome || w.admitted key == 0
      | none => true
  | _ => true

/-- A request of a key that its current window holds: it counted there, or it is admitted and
would count there. -/
def holds (key : Text) (e : Window) (r : Request) : Bool :=
  r.account == key &&
    (r.countedIn == some (w.begun key) || r.admitted && w.accounts.isLive e r.now)

/-- The failures that the current window of a key counted. -/
def counted (key : Text) : Nat :=
  w.requests.countP fun r => r.account == key && r.countedIn == some (w.begun key)

/-- What every reachable world keeps. -/
structure Bounded : Prop where
  limit : w.accounts.limit = accountLimit
  window : w.accounts.window = throttleWindow
  instants : ∀ r ∈ w.requests, r.now ≤ w.clock
  seen : ∀ key, w.admitted key ≤ w.peak key
  begun_le : ∀ r ∈ w.requests, ∀ n, r.countedIn = some n → n ≤ w.begun r.account
  counted_le : ∀ key e, w.accounts.windows.lookup key = some e →
    min (w.counted key) u32Max ≤ e.failures
  holds_le : ∀ key e, w.accounts.windows.lookup key = some e →
    w.requests.countP (w.holds key e) ≤ accountLimit - 1 + w.peak key

end World

section Counting

variable {α : Type*} {p q : α → Bool} {front back : List α} {a b : α}

/-- Replacing one item does not raise a count that no item enters. -/
theorem countP_replace_le (hother : ∀ x ∈ front ++ back, q x = true → p x = true)
    (hnew : q b = true → p a = true) :
    (front ++ b :: back).countP q ≤ (front ++ a :: back).countP p := by
  have hfront := List.countP_mono_left fun x hx => hother x (List.mem_append_left back hx)
  have hback := List.countP_mono_left fun x hx => hother x (List.mem_append_right front hx)
  have hhead : (if q b = true then 1 else 0) ≤ if p a = true then 1 else 0 := by
    split
    · next hb => rw [if_pos (hnew hb)]
    · exact Nat.zero_le _
  rw [List.countP_append, List.countP_append, List.countP_cons, List.countP_cons]
  omega

/-- Replacing one item raises a count by one at most. -/
theorem countP_replace_le_succ (hother : ∀ x ∈ front ++ back, q x = true → p x = true) :
    (front ++ b :: back).countP q ≤ (front ++ a :: back).countP p + 1 := by
  have hfront := List.countP_mono_left fun x hx => hother x (List.mem_append_left back hx)
  have hback := List.countP_mono_left fun x hx => hother x (List.mem_append_right front hx)
  have hhead : (if q b = true then 1 else 0) ≤ 1 := by split <;> omega
  rw [List.countP_append, List.countP_append, List.countP_cons, List.countP_cons]
  omega

theorem countP_or_le (l : List α) : l.countP (fun x => p x || q x) ≤ l.countP p + l.countP q := by
  induction l with
  | nil => exact Nat.le_refl 0
  | cons x xs ih =>
      simp only [List.countP_cons]
      cases p x <;> cases q x <;> simp only [Bool.or_true, Bool.or_false, if_true] <;> grind

end Counting

namespace World.Bounded

variable {w v : World} {r r' : Request} {front back : List Request}

theorem start : ({} : World).Bounded where
  limit := rfl
  window := rfl
  instants := fun _ hr => nomatch hr
  seen := fun _ => Nat.zero_le _
  begun_le := fun _ hr => nomatch hr
  counted_le := fun _ _ he => nomatch he
  holds_le := fun _ _ he => nomatch he

/-- A step that changes one request and forgets windows at most keeps the bound. A request it
admits has passed the check of its account. -/
theorem move (h : w.Bounded) (hw : w.requests = front ++ r :: back)
    (hv : v.requests = front ++ r' :: back) (hlimit : v.accounts.limit = w.accounts.limit)
    (hwindow : v.accounts.window = w.accounts.window) (hclock : v.clock = w.clock)
    (hbegun : v.begun = w.begun) (hpeak : v.peak = w.peak)
    (hlookup : ∀ key e, v.accounts.windows.lookup key = some e →
      w.accounts.windows.lookup key = some e)
    (haccount : r'.account = r.account) (hnow : r'.now = r.now)
    (hcounted : r'.countedIn = r.countedIn)
    (hadmitted : r'.admitted = true →
      r.admitted = true ∨ w.accounts.check r.account r.now = .ok ()) :
    v.observe.Bounded := by
  have hr : r ∈ w.requests := by rw [hw]; exact List.mem_append_right _ List.mem_cons_self
  have hmem : ∀ x ∈ v.requests, x = r' ∨ x ∈ w.requests := by
    intro x hx
    rw [hv] at hx
    rw [hw]
    simp only [List.mem_append, List.mem_cons] at hx ⊢
    tauto
  have hlive : ∀ (e : Window) now, v.accounts.isLive e now = w.accounts.isLive e now := by
    intro e now
    rw [LoginThrottle.isLive, LoginThrottle.isLive, hwindow]
  have hcount : ∀ key, v.counted key ≤ w.counted key := by
    intro key
    rw [counted, counted, hv, hw, hbegun]
    refine countP_replace_le (fun x _ hx => hx) fun hx => ?_
    rwa [haccount, hcounted] at hx
  refine ⟨hlimit.trans h.limit, hwindow.trans h.window, ?_, fun key => le_max_right _ _, ?_, ?_, ?_⟩
  · intro x hx
    obtain rfl | hx := hmem x hx
    · exact hnow ▸ hclock ▸ h.instants r hr
    · exact hclock ▸ h.instants x hx
  · intro x hx n hn
    change n ≤ v.begun x.account
    rw [hbegun]
    obtain rfl | hx := hmem x hx
    · rw [haccount]
      exact h.begun_le r hr n (hcounted ▸ hn)
    · exact h.begun_le x hx n hn
  · intro key e he
    have hold := h.counted_le key e (hlookup key e he)
    have hnew := hcount key
    change min (v.counted key) u32Max ≤ e.failures
    omega
  · intro key e he
    have hold := hlookup key e he
    change v.requests.countP (v.holds key e) ≤ accountLimit - 1 + max (v.peak key) (v.admitted key)
    by_cases hin : v.holds key e r' = true → w.holds key e r = true
    · -- No request enters the window.
      have hle : v.requests.countP (v.holds key e) ≤ w.requests.countP (w.holds key e) := by
        rw [hv, hw]
        refine countP_replace_le (fun x _ hx => ?_) hin
        rwa [holds, hbegun, hlive] at hx
      have hbound := h.holds_le key e hold
      rw [hpeak]
      omega
    · -- The request was just admitted, so its account had failures left.
      obtain ⟨hholds, hout⟩ := Classical.not_imp.mp hin
      simp only [holds, haccount, hcounted, hbegun, hlive, hnow, Bool.and_eq_true, Bool.or_eq_true,
        beq_iff_eq, not_and, not_or] at hholds hout
      obtain ⟨rfl, hside⟩ := hholds
      obtain ⟨huncounted, hnotheld⟩ := hout rfl
      obtain hside | ⟨hadm, halive⟩ := hside
      · exact absurd hside huncounted
      · have hok : w.accounts.check r.account r.now = .ok () :=
          (hadmitted hadm).resolve_left fun hold => hnotheld hold halive
        have hfew := LoginThrottle.failures_lt_of_check hold halive hok
        have hfailed := h.counted_le r.account e hold
        have hcount := hcount r.account
        have hsplit : v.requests.countP (v.holds r.account e) ≤
            v.counted r.account + v.admitted r.account := by
          refine le_trans (List.countP_mono_left fun x _ hx => ?_) (countP_or_le v.requests)
          simp only [holds, Bool.and_eq_true, Bool.or_eq_true] at hx ⊢
          tauto
        rw [h.limit] at hfew
        simp only [accountLimit, u32Max] at hfew hfailed ⊢
        omega

end World.Bounded

/-- The failure of one request recorded against its account. -/
structure Records (w v : World) (pick : Text) (r r' : Request) (front back : List Request) :
    Prop where
  before : w.requests = front ++ r :: back
  after : v.requests = front ++ r' :: back
  accounts : v.accounts = w.accounts.recordFailure pick r.account r.now
  begun : ∀ key, v.begun key =
    if key = r.account ∧ w.begins key r.now = true then w.begun key + 1 else w.begun key
  peak : v.peak = w.peak
  clock : v.clock = w.clock
  account : r'.account = r.account
  now : r'.now = r.now
  admitted : r.admitted = true
  done : r'.admitted = false
  countedIn : r'.countedIn = some (v.begun r.account)

namespace Records

variable {w v : World} {pick : Text} {r r' : Request} {front back : List Request} {key : Text}
  {e : Window}

theorem mem_before (hv : Records w v pick r r' front back) : r ∈ w.requests := by
  rw [hv.before]
  exact List.mem_append_right _ List.mem_cons_self

theorem mem_other (hv : Records w v pick r r' front back) :
    ∀ x ∈ front ++ back, x ∈ w.requests := by
  intro x hx
  rw [hv.before]
  simp only [List.mem_append, List.mem_cons] at hx ⊢
  tauto

theorem mem_after (hv : Records w v pick r r' front back) {x : Request} (hx : x ∈ v.requests) :
    x = r' ∨ x ∈ w.requests := by
  rw [hv.after] at hx
  rw [hv.before]
  simp only [List.mem_append, List.mem_cons] at hx ⊢
  tauto

theorem begun_mono (hv : Records w v pick r r' front back) (key : Text) :
    w.begun key ≤ v.begun key := by
  rw [hv.begun]
  split <;> omega

theorem isLive_eq (hv : Records w v pick r r' front back) (e : Window) (now : Nat) :
    v.accounts.isLive e now = w.accounts.isLive e now := by
  rw [LoginThrottle.isLive, LoginThrottle.isLive, hv.accounts,
    LoginThrottle.recordFailure_window]

/-- The window of the account is a new one, or its live one with one more failure. -/
theorem own_window (hv : Records w v pick r r' front back)
    (he : v.accounts.windows.lookup r.account = some e) :
    (v.begun r.account = w.begun r.account + 1 ∧ e = ⟨r.now, 1⟩) ∨
      (v.begun r.account = w.begun r.account ∧ ∃ e₀, w.accounts.windows.lookup r.account = some e₀ ∧
        w.accounts.isLive e₀ r.now = true ∧
        e = { e₀ with failures := min (e₀.failures + 1) u32Max }) := by
  have hbegun := hv.begun r.account
  rw [hv.accounts, LoginThrottle.lookup_recordFailure, Option.some.injEq] at he
  rw [World.begins] at hbegun
  split at he
  · next e₀ he₀ =>
      simp only [he₀] at hbegun
      split at he
      · next halive =>
          rw [if_neg (by simp [halive])] at hbegun
          exact .inr ⟨hbegun, e₀, he₀, halive, he.symm⟩
      · next hexpired =>
          rw [if_pos (by simp [hexpired])] at hbegun
          exact .inl ⟨hbegun, he.symm⟩
  · next hnone =>
      simp only [hnone] at hbegun
      rw [if_pos (by simp)] at hbegun
      exact .inl ⟨hbegun, he.symm⟩

theorem counted_le_succ (hv : Records w v pick r r' front back)
    (hsame : v.begun key = w.begun key) : v.counted key ≤ w.counted key + 1 := by
  rw [World.counted, World.counted, hv.after, hv.before, hsame]
  exact countP_replace_le_succ fun x _ hx => hx

/-- What the windows of the next world hold. -/
theorem windows (hv : Records w v pick r r' front back) (h : w.Bounded)
    (he : v.accounts.windows.lookup key = some e) :
    min (v.counted key) u32Max ≤ e.failures ∧
      v.requests.countP (v.holds key e) ≤ accountLimit - 1 + w.peak key := by
  by_cases hkey : key = r.account
  · subst hkey
    obtain ⟨hnext, rfl⟩ | ⟨hsame, e₀, he₀, halive, rfl⟩ := hv.own_window he
    · -- A new window counted this failure only, and holds what was admitted.
      have hothers : ∀ x ∈ front ++ back,
          (x.account == r.account && x.countedIn == some (v.begun r.account)) = false := by
        intro x hx
        by_contra hc
        simp only [Bool.not_eq_false, Bool.and_eq_true, beq_iff_eq] at hc
        have hle := h.begun_le x (hv.mem_other x hx) _ hc.2
        rw [hc.1, hnext] at hle
        omega
      have hcount : v.counted r.account ≤ 1 := by
        have hle := countP_replace_le_succ (p := fun _ => false) (a := r) (b := r') fun x hx hc =>
          (hothers x hx).symm.trans hc
        rw [World.counted, hv.after]
        simpa using hle
      have hholds : v.requests.countP (v.holds r.account ⟨r.now, 1⟩) ≤ w.admitted r.account := by
        rw [hv.after, World.admitted, hv.before]
        refine countP_replace_le (fun x hx hc => ?_) fun _ => ?_
        · have hother := hothers x hx
          simp only [World.holds, Bool.and_eq_true, Bool.or_eq_true] at hc
          rw [Bool.and_eq_false_iff] at hother
          grind
        · rw [hv.admitted, beq_self_eq_true, Bool.and_true]
      have hseen := h.seen r.account
      exact ⟨(Nat.min_le_left _ _).trans hcount, by omega⟩
    · -- The live window held the request already.
      have hcount := hv.counted_le_succ hsame
      have hfailed := h.counted_le r.account e₀ he₀
      have hholds : v.requests.countP (v.holds r.account
          { e₀ with failures := min (e₀.failures + 1) u32Max }) ≤
          w.requests.countP (w.holds r.account e₀) := by
        rw [hv.after, hv.before]
        refine countP_replace_le (fun x _ hx => ?_) fun _ => ?_
        · rw [World.holds, hsame, hv.isLive_eq] at hx
          exact hx
        · rw [World.holds, hv.admitted, halive, beq_self_eq_true, Bool.and_true, Bool.or_true,
            Bool.and_true]
      refine ⟨?_, hholds.trans (h.holds_le r.account e₀ he₀)⟩
      change min (v.counted r.account) u32Max ≤ min (e₀.failures + 1) u32Max
      omega
  · rw [hv.accounts] at he
    have hold := LoginThrottle.lookup_of_recordFailure hkey he
    have hsame : v.begun key = w.begun key := by rw [hv.begun, if_neg fun hc => hkey hc.1]
    have hneq : (r'.account == key) = false := by
      rw [hv.account, beq_eq_false_iff_ne]
      exact fun hc => hkey hc.symm
    have hcount : v.counted key ≤ w.counted key := by
      rw [World.counted, World.counted, hv.after, hv.before, hsame]
      refine countP_replace_le (fun x _ hx => hx) fun hx => ?_
      rw [hneq] at hx
      cases hx
    have hholds : v.requests.countP (v.holds key e) ≤ w.requests.countP (w.holds key e) := by
      rw [hv.after, hv.before]
      refine countP_replace_le (fun x _ hx => ?_) fun hx => ?_
      · rwa [World.holds, hsame, hv.isLive_eq] at hx
      · rw [World.holds, hneq] at hx
        cases hx
    have hfailed := h.counted_le key e hold
    exact ⟨by omega, hholds.trans (h.holds_le key e hold)⟩

theorem bounded (hv : Records w v pick r r' front back) (h : w.Bounded) : v.observe.Bounded := by
  refine ⟨?_, ?_, fun x hx => ?_, fun key => le_max_right _ _, fun x hx n hn => ?_,
    fun key e he => (hv.windows h he).1, fun key e he => ?_⟩
  · change v.accounts.limit = accountLimit
    rw [hv.accounts, LoginThrottle.recordFailure_limit, h.limit]
  · change v.accounts.window = throttleWindow
    rw [hv.accounts, LoginThrottle.recordFailure_window, h.window]
  · change x.now ≤ v.clock
    rw [hv.clock]
    obtain rfl | hx := hv.mem_after hx
    · rw [hv.now]
      exact h.instants r hv.mem_before
    · exact h.instants x hx
  · change n ≤ v.begun x.account
    obtain rfl | hx := hv.mem_after hx
    · rw [hv.countedIn, Option.some.injEq] at hn
      rw [hv.account, hn]
    · exact (h.begun_le x hx n hn).trans (hv.begun_mono x.account)
  · have hle := (hv.windows h he).2
    change v.requests.countP (v.holds key e) ≤ accountLimit - 1 + max (v.peak key) (v.admitted key)
    rw [hv.peak]
    omega

end Records

section Runs

variable {passwordMatches : Text → Text → Bool} {w v : World} {r r' : Request} {pick : Text}
  {front back : List Request} {a : Action}

theorem heldFor_eq_none {held : Except Nat Unit} (h : heldFor held = none) : held = .ok () := by
  cases held with
  | error wait => cases h
  | ok _ => rfl

theorem longestWait_eq_none {a b : Option Nat} (h : longestWait a b = none) :
    a = none ∧ b = none := by
  cases a <;> cases b <;> first | exact ⟨rfl, rfl⟩ | cases h

/-- The step of one request keeps the bound. -/
theorem handle_bounded (h : w.Bounded) (hw : w.requests = front ++ r :: back)
    (hstep : handle passwordMatches w r pick = some (v, r')) :
    ({ v with requests := front ++ r' :: back } : World).observe.Bounded := by
  unfold handle at hstep
  split at hstep
  · cases hstep
    refine h.move hw rfl rfl rfl rfl rfl rfl (fun _ _ he => he) rfl rfl rfl fun hadm => .inr ?_
    refine heldFor_eq_none ?_
    cases hheld : heldFor (w.accounts.check r.account r.now) with
    | none => rfl
    | some wait =>
        rw [hheld] at hadm
        cases hadm
  · next hstage =>
      split at hstep
      · cases hstep
        exact h.move hw rfl rfl rfl rfl rfl rfl (fun _ _ he => he) rfl rfl rfl fun hadm =>
          nomatch hadm
      · next hfree =>
          cases hstep
          refine h.move hw rfl rfl rfl rfl rfl rfl (fun _ _ he => he) rfl rfl rfl fun _ => .inl ?_
          rw [Request.admitted, hstage, (longestWait_eq_none hfree).1]
          rfl
  · next hstage =>
      have hadm : r.admitted = true := by rw [Request.admitted, hstage]; rfl
      split at hstep
      · cases hstep
        exact h.move hw rfl rfl rfl rfl rfl rfl (fun _ _ he => he) rfl rfl rfl fun _ => .inl hadm
      · cases hstep
        exact h.move hw rfl rfl rfl rfl rfl rfl (fun _ _ he => he) rfl rfl rfl fun _ => .inl hadm
  · next hstage =>
      cases hstep
      have hadm : r.admitted = true := by rw [Request.admitted, hstage]; rfl
      exact Records.bounded ⟨hw, rfl, rfl, fun _ => rfl, rfl, rfl, rfl, rfl, hadm, rfl, rfl⟩ h
  · cases hstep
    exact h.move hw rfl rfl rfl rfl rfl rfl (fun _ _ he => he) rfl rfl rfl fun hadm =>
      nomatch hadm
  · cases hstep
    exact h.move hw rfl rfl rfl rfl rfl rfl (fun _ _ => LoginThrottle.lookup_of_recordSuccess)
      rfl rfl rfl fun hadm => nomatch hadm
  · cases hstep
    exact h.move hw rfl rfl rfl rfl rfl rfl (fun _ _ he => he) rfl rfl rfl fun hadm =>
      nomatch hadm
  · cases hstep

/-- A request that is not admitted yet and belongs to no window leaves the counts as they
are. -/
theorem World.Bounded.arrive (h : w.Bounded) (hnow : r.now = w.clock)
    (hstage : r.stage = .checkAccount) (hcounted : r.countedIn = none) :
    ({ w with requests := w.requests ++ [r] } : World).observe.Bounded := by
  have hout : r.admitted = false := by rw [Request.admitted, hstage]; rfl
  have hholds : ∀ key e, w.holds key e r = false := by
    intro key e
    rw [World.holds, hcounted, hout]
    simp
  refine ⟨h.limit, h.window, fun x hx => ?_, fun key => le_max_right _ _, fun x hx n hn => ?_,
    fun key e he => ?_, fun key e he => ?_⟩
  · obtain hx | hx := List.mem_append.mp hx
    · exact h.instants x hx
    · rw [List.mem_singleton.mp hx]
      exact hnow.le
  · obtain hx | hx := List.mem_append.mp hx
    · exact h.begun_le x hx n hn
    · rw [List.mem_singleton.mp hx, hcounted] at hn
      cases hn
  · have hsame : ({ w with requests := w.requests ++ [r] } : World).counted key =
        w.counted key := by
      rw [World.counted, World.counted, List.countP_append, List.countP_singleton, hcounted]
      simp
    have hle := h.counted_le key e he
    rw [← hsame] at hle
    exact hle
  · have hle := h.holds_le key e he
    change (w.requests ++ [r]).countP (w.holds key e) ≤ accountLimit - 1 + max (w.peak key) _
    rw [List.countP_append, List.countP_singleton, hholds]
    simp only [Bool.false_eq_true, if_false]
    omega

theorem step_bounded (h : w.Bounded) (hstep : step passwordMatches w a = some v) : v.Bounded := by
  obtain ⟨u, hact, rfl⟩ := Option.map_eq_some_iff.mp hstep
  cases a with
  | tick elapsed =>
      cases hact
      refine ⟨h.limit, h.window, fun x hx => ?_, fun key => le_max_right _ _, h.begun_le,
        h.counted_le, fun key e he => ?_⟩
      · exact (h.instants x hx).trans (Nat.le_add_right _ _)
      · exact (h.holds_le key e he).trans (Nat.add_le_add_left (le_max_left _ _) _)
  | request operator username password peer =>
      cases operator with
      | none =>
          cases hact
          exact ⟨h.limit, h.window, h.instants, fun key => le_max_right _ _, h.begun_le,
            h.counted_le, fun key e he =>
              (h.holds_le key e he).trans (Nat.add_le_add_left (le_max_left _ _) _)⟩
      | some operator =>
          cases hact
          exact h.arrive rfl rfl rfl
  | advance index pick =>
      rw [act] at hact
      split at hact
      · next r hr =>
          obtain ⟨⟨next, r'⟩, hhandle, rfl⟩ := Option.map_eq_some_iff.mp hact
          obtain ⟨hlt, hget⟩ := List.getElem?_eq_some_iff.mp hr
          obtain ⟨front, back, hw, _, hset⟩ := @List.exists_of_set _ _ r' _ hlt
          rw [hget] at hw
          rw [hset]
          exact handle_bounded h hw hhandle
      · cases hact

/-- Every reachable world keeps the bound. -/
theorem run_bounded {actions : List Action} (h : w.Bounded)
    (hrun : run (step passwordMatches) w actions = some v) : v.Bounded :=
  run_invariant (fun _ _ _ hs hstep => step_bounded hs hstep) hrun h

/-- What the step of one request does to the table of accounts. -/
theorem handle_accounts (hstep : handle passwordMatches w r pick = some (v, r')) :
    v.clock = w.clock ∧
      (v.accounts = w.accounts ∨
        (r.stage = .failAccount ∧ v.accounts = w.accounts.recordFailure pick r.account r.now) ∨
        (r.stage = .passAccount ∧ v.accounts = w.accounts.recordSuccess r.account)) := by
  unfold handle at hstep
  split at hstep
  · cases hstep
    exact ⟨rfl, .inl rfl⟩
  · split at hstep <;> cases hstep <;> exact ⟨rfl, .inl rfl⟩
  · split at hstep <;> cases hstep <;> exact ⟨rfl, .inl rfl⟩
  · next hstage =>
      cases hstep
      exact ⟨rfl, .inr (.inl ⟨hstage, rfl⟩)⟩
  · cases hstep
    exact ⟨rfl, .inl rfl⟩
  · next hstage =>
      cases hstep
      exact ⟨rfl, .inr (.inr ⟨hstage, rfl⟩)⟩
  · cases hstep
    exact ⟨rfl, .inl rfl⟩
  · cases hstep

/-- The step of a request, or a step that leaves the tables as they are. -/
theorem step_cases (hstep : step passwordMatches w a = some v) :
    (v.accounts = w.accounts ∧ w.clock ≤ v.clock) ∨
      ∃ index pick r next r', a = .advance index pick ∧ w.requests[index]? = some r ∧
        handle passwordMatches w r pick = some (next, r') ∧ v.accounts = next.accounts ∧
        v.clock = w.clock := by
  obtain ⟨u, hact, rfl⟩ := Option.map_eq_some_iff.mp hstep
  cases a with
  | tick elapsed =>
      cases hact
      exact .inl ⟨rfl, Nat.le_add_right _ _⟩
  | request operator username password peer =>
      cases operator <;> cases hact <;> exact .inl ⟨rfl, Nat.le_refl _⟩
  | advance index pick =>
      rw [act] at hact
      split at hact
      · next r hr =>
          obtain ⟨⟨next, r'⟩, hhandle, rfl⟩ := Option.map_eq_some_iff.mp hact
          exact .inr ⟨index, pick, r, next, r', rfl, hr, hhandle, rfl,
            (handle_accounts hhandle).1⟩
      · cases hact

theorem clock_le_of_run {actions : List Action} (hrun : run (step passwordMatches) w actions = some v) :
    w.clock ≤ v.clock := by
  refine run_invariant (I := fun u => w.clock ≤ u.clock) (fun u a x hu hstep => ?_) hrun
    (Nat.le_refl _)
  obtain ⟨-, hle⟩ | ⟨-, -, -, -, -, -, -, -, -, hclock⟩ := step_cases hstep
  · exact hu.trans hle
  · exact hu.trans hclock.ge

/-- The window of a key that has used up its failures. -/
def World.UsedUp (w : World) (key : Text) (started : Nat) : Prop :=
  ∃ failures, w.accounts.windows.lookup key = some ⟨started, failures⟩ ∧ accountLimit ≤ failures

/-- A used up window stays until it passes, a success clears it or a full table evicts it. -/
theorem step_usedUp {key : Text} {started : Nat} (h : w.Bounded) (hused : w.UsedUp key started)
    (hstep : step passwordMatches w a = some v) (hkeep : w.evicts key a = false)
    (hfail : w.clears key a = false) (hin : w.clock < started + throttleWindow) :
    v.UsedUp key started := by
  obtain ⟨failures, hlookup, hfull⟩ := hused
  obtain ⟨haccounts, -⟩ | ⟨index, pick, r, next, r', rfl, hr, hhandle, haccounts, -⟩ :=
    step_cases hstep
  · exact ⟨failures, haccounts ▸ hlookup, hfull⟩
  have hlive : w.accounts.isLive ⟨started, failures⟩ r.now = true := by
    have hnow := h.instants r (List.mem_of_getElem? hr)
    rw [LoginThrottle.isLive, h.window, decide_eq_true_eq]
    simp only [throttleWindow] at hin ⊢
    omega
  simp only [World.evicts, World.clears, hr, Bool.and_eq_false_iff, beq_eq_false_iff_ne]
    at hkeep hfail
  rw [World.UsedUp, haccounts]
  obtain hsame | ⟨hstage, hfailed⟩ | ⟨hstage, hpassed⟩ := (handle_accounts hhandle).2
  · exact ⟨failures, hsame ▸ hlookup, hfull⟩
  · rw [hfailed]
    by_cases hkey : key = r.account
    · subst hkey
      refine ⟨min (failures + 1) u32Max, ?_, ?_⟩
      · rw [LoginThrottle.lookup_recordFailure, hlookup]
        simp only [hlive, if_true]
      · simp only [accountLimit, u32Max] at hfull ⊢
        omega
    · refine ⟨failures, ?_, hfull⟩
      exact LoginThrottle.lookup_recordFailure_of_ne hkey hlookup hlive
        (hkeep.resolve_left (absurd hstage))
  · have hkey : key ≠ r.account := fun hkey => hfail.elim (absurd hstage) fun hc => hc hkey.symm
    rw [hpassed]
    exact ⟨failures, (LoginThrottle.lookup_recordSuccess_of_ne hkey).trans hlookup, hfull⟩

theorem run_usedUp {key : Text} {started : Nat} {actions : List Action} (h : w.Bounded)
    (hused : w.UsedUp key started) (hrun : run (step passwordMatches) w actions = some v)
    (hkeep : Along (step passwordMatches) (fun u a => u.evicts key a = false) w actions)
    (hfail : Along (step passwordMatches) (fun u a => u.clears key a = false) w actions)
    (hin : v.clock < started + throttleWindow) : v.UsedUp key started := by
  induction actions generalizing w with
  | nil =>
      cases hrun
      exact hused
  | cons a rest ih =>
      obtain ⟨u, hstep, hrest⟩ := run_cons_eq_some hrun
      have hbefore : w.clock < started + throttleWindow :=
        lt_of_le_of_lt (clock_le_of_run hrun) hin
      exact ih (step_bounded h hstep) (step_usedUp h hused hstep hkeep.1 hfail.1 hbefore) hrest
        (hkeep.2 u hstep) (hfail.2 u hstep)

/-- A window is evicted as an oldest one, from a table full of live windows. -/
theorem World.evicts_advance {key : Text} {index : Nat}
    (h : w.evicts key (.advance index pick) = true) :
    ∃ r e, w.requests[index]? = some r ∧ r.stage = .failAccount ∧
      w.accounts.maxKeys ≤ (w.accounts.retainLive r.now).entries.length ∧
      w.accounts.windows.lookup key = some e ∧
      ∀ entry ∈ w.accounts.windows.entries,
        w.accounts.isLive entry.2 r.now = true → e.started ≤ entry.2.started := by
  rw [World.evicts] at h
  split at h
  · next r hr =>
      simp only [Bool.and_eq_true, beq_iff_eq] at h
      obtain ⟨hfull, e, he, holdest⟩ := LoginThrottle.evicts_eq_some h.2
      exact ⟨r, e, hr, h.1, hfull, he, holdest⟩
  · cases h

/-- A step of a request admits it only where it passes the check of its account. -/
theorem handle_admitted (hstep : handle passwordMatches w r pick = some (v, r')) :
    r'.account = r.account ∧ v.peak = w.peak ∧
      (r'.admitted = true → r.admitted = true ∨
        (r.stage = .checkAccount ∧ heldFor (w.accounts.check r.account r.now) = none)) := by
  unfold handle at hstep
  split at hstep
  · next hstage =>
      cases hstep
      refine ⟨rfl, rfl, fun hadm => .inr ⟨hstage, ?_⟩⟩
      cases hheld : heldFor (w.accounts.check r.account r.now) with
      | none => rfl
      | some wait =>
          rw [hheld] at hadm
          cases hadm
  · next hstage =>
      split at hstep
      · cases hstep
        exact ⟨rfl, rfl, fun hadm => by cases hadm⟩
      · next hfree =>
          cases hstep
          refine ⟨rfl, rfl, fun _ => .inl ?_⟩
          rw [Request.admitted, hstage, (longestWait_eq_none hfree).1]
          rfl
  · next hstage =>
      have hadm : r.admitted = true := by rw [Request.admitted, hstage]; rfl
      split at hstep <;> cases hstep <;> exact ⟨rfl, rfl, fun _ => .inl hadm⟩
  · cases hstep
    exact ⟨rfl, rfl, fun hadm => by cases hadm⟩
  · cases hstep
    exact ⟨rfl, rfl, fun hadm => by cases hadm⟩
  · cases hstep
    exact ⟨rfl, rfl, fun hadm => by cases hadm⟩
  · cases hstep
    exact ⟨rfl, rfl, fun hadm => by cases hadm⟩
  · cases hstep

/-- Where the requests of a key take turns, at most one of them is admitted at once. -/
theorem step_peak {key : Text} (hone : w.peak key ≤ 1) (hseen : w.admitted key ≤ w.peak key)
    (hturns : w.takesTurns key a = true) (hstep : step passwordMatches w a = some v) :
    v.peak key ≤ 1 := by
  obtain ⟨u, hact, rfl⟩ := Option.map_eq_some_iff.mp hstep
  have hle : w.admitted key ≤ 1 := hseen.trans hone
  suffices hkept : u.peak key ≤ 1 ∧ u.admitted key ≤ 1 from max_le hkept.1 hkept.2
  cases a with
  | tick elapsed => cases hact; exact ⟨hone, hle⟩
  | request operator username password peer =>
      cases operator <;> cases hact
      · exact ⟨hone, hle⟩
      · refine ⟨hone, le_of_eq_of_le ?_ hle⟩
        simp [World.admitted, Request.admitted, Stage.admitted]
  | advance index pick =>
      rw [act] at hact
      split at hact
      · next r hr =>
          obtain ⟨⟨next, r'⟩, hhandle, rfl⟩ := Option.map_eq_some_iff.mp hact
          obtain ⟨haccount, hpeak, hadmits⟩ := handle_admitted hhandle
          obtain ⟨hlt, hget⟩ := List.getElem?_eq_some_iff.mp hr
          obtain ⟨front, back, hw, _, hset⟩ := @List.exists_of_set _ _ r' _ hlt
          rw [hget] at hw
          refine ⟨hpeak ▸ hone, ?_⟩
          rw [World.admitted, hw] at hle
          rw [World.admitted, hset]
          by_cases hnew : r.stage = .checkAccount ∧ r.account = key ∧
              heldFor (w.accounts.check r.account r.now) = none
          · -- the request is admitted now, and no other one is
            obtain ⟨hstage, hkey, hfree⟩ := hnew
            have hnone : w.admitted key = 0 := by
              simpa [World.takesTurns, hr, hstage, hkey, hkey ▸ hfree] using hturns
            rw [World.admitted, hw] at hnone
            exact (countP_replace_le_succ fun _ _ hx => hx).trans (by rw [hnone])
          · refine (countP_replace_le (fun _ _ hx => hx) fun hx => ?_).trans hle
            simp only [Bool.and_eq_true, beq_iff_eq, haccount] at hx ⊢
            exact ⟨hx.1, (hadmits hx.2).resolve_right fun hpast => hnew ⟨hpast.1, hx.1, hpast.2⟩⟩
      · cases hact

/-- **Password guessing is bounded.** In every run whose requests for a name take turns between
check and record, and whose failures of other names do not evict its window, at most
`accountLimit` wrong passwords are verified for it in one window, and once it has used them up it
is held back until that window ends or a success clears it. -/
theorem guessing_bounded {actions : List Action} (name : Text)
    (halong : Along (step passwordMatches)
      (fun w a => w.takesTurns (loginKey "user".toList name) a = true ∧
        w.evicts (loginKey "user".toList name) a = false) {} actions)
    (hrun : run (step passwordMatches) {} actions = some w) :
    (∀ e, w.accounts.windows.lookup (loginKey "user".toList name) = some e →
      w.guesses (loginKey "user".toList name) e ≤ accountLimit) ∧
    ∀ before later v started, actions = before ++ later →
      run (step passwordMatches) {} before = some v →
      Along (step passwordMatches) (fun x a => x.clears (loginKey "user".toList name) a = false) v
        later →
      v.UsedUp (loginKey "user".toList name) started → w.clock < started + throttleWindow →
      ∀ now ≤ w.clock, w.accounts.check (loginKey "user".toList name) now =
        .error (throttleWindow - (now - started)) := by
  generalize loginKey "user".toList name = key at halong
  have h : w.Bounded := run_bounded World.Bounded.start hrun
  constructor
  · intro e he
    obtain ⟨-, hpeak⟩ := run_invariant_along
      (I := fun w : World => w.Bounded ∧ w.peak key ≤ 1)
      (fun _ _ _ hw hcond hstep =>
        ⟨step_bounded hw.1 hstep, step_peak hw.2 (hw.1.seen key) hcond.1 hstep⟩)
      halong hrun ⟨World.Bounded.start, Nat.zero_le 1⟩
    have hheld : w.guesses key e ≤ w.requests.countP (w.holds key e) := by
      refine List.countP_mono_left fun r _ hr => ?_
      simp only [World.guessed, World.holds, Bool.and_eq_true, Bool.or_eq_true, beq_iff_eq] at hr ⊢
      refine ⟨hr.1, hr.2.imp_right fun hpending => ⟨?_, hpending.2⟩⟩
      rw [Request.admitted, hpending.1]
      rfl
    have hbound := hheld.trans (h.holds_le key e he)
    simp only [accountLimit] at hbound ⊢
    omega
  · rintro before later v started rfl hbefore hfail hused hin now hnow
    have hlater : run (step passwordMatches) v later = some w := by
      rwa [run_append, hbefore] at hrun
    have hkeep := (along_of_append halong hbefore).imp fun _ _ hcond => hcond.2
    obtain ⟨failures, hlookup, hfull⟩ :=
      run_usedUp (run_bounded World.Bounded.start hbefore) hused hlater hkeep hfail hin
    rw [← h.window]
    refine LoginThrottle.check_error hlookup (h.limit ▸ hfull) ?_
    rw [LoginThrottle.isLive, h.window, decide_eq_true_eq]
    simp only [throttleWindow] at hin ⊢
    omega

end Runs

/-- A request that arrives now takes all its steps. -/
def guess (index : Nat) (operator : Operator) (username password peer pick : Text) : List Action :=
  .request (some operator) username password (some peer) :: List.replicate 5 (.advance index pick)

def ownerRecord : Operator := ⟨"owner".toList, "phc".toList⟩

/-- Wrong passwords for one name from one address, one after another. -/
def ownerGuesses (n : Nat) : List Action :=
  (List.range n).flatMap fun i =>
    guess i ownerRecord "owner".toList "guess".toList "192.0.2.7".toList []

theorem guessing_bounded_owner : ∃ w,
    run (step fun _ _ => false) {} (ownerGuesses 10) = some w ∧
      (∀ e, w.accounts.windows.lookup (loginKey "user".toList "owner".toList) = some e →
        w.guesses (loginKey "user".toList "owner".toList) e ≤ accountLimit) ∧
      ∀ now ≤ w.clock, w.accounts.check (loginKey "user".toList "owner".toList) now =
        .error (throttleWindow - now) := by
  obtain ⟨hreached, hturns⟩ : (run (step fun _ _ => false) {} (ownerGuesses 10)).any (fun w =>
        w.accounts.windows.lookup (loginKey "user".toList "owner".toList) = some ⟨0, 10⟩ ∧
          w.clock = 0) = true ∧
      check (step fun _ _ => false)
        (fun w a => w.takesTurns (loginKey "user".toList "owner".toList) a &&
          !w.evicts (loginKey "user".toList "owner".toList) a) {} (ownerGuesses 10) = true := by
    decide +kernel
  obtain ⟨w, hrun, hw⟩ := (Option.any_eq_true _ _).mp hreached
  obtain ⟨hlookup, hclock⟩ := of_decide_eq_true hw
  obtain ⟨hguesses, hheld⟩ := guessing_bounded "owner".toList
    ((along_of_check hturns).imp fun _ _ h => by simpa using h) hrun
  refine ⟨w, hrun, hguesses, hheld _ [] w 0 (List.append_nil _).symm hrun trivial
    ⟨10, hlookup, by decide⟩ ?_⟩
  rw [hclock]
  decide

end Genaryx.Web
