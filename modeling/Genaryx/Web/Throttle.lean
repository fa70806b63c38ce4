import Genaryx.Base.Text
import Mathlib.Data.List.AList

/-!
# The sign-in throttle

The failures of each key inside a fixed window. Once a key has failed its limit it is held
back until the window passes. The table is bounded: expired windows go first, then the oldest
live one.

## Implementation notes

Instants and durations count nanoseconds. Where several live windows are the oldest, the order
in which the hash map lists them decides: it is the argument `pick`.
-/

namespace Genaryx.Web

/-- Failures allowed per account name inside one window. -/
def accountLimit : Nat := 10

/-- Failures allowed per client address inside one window. -/
def addressLimit : Nat := 30

def throttleWindow : Nat := 15 * 60 * 1000000000

def maxKeys : Nat := 4096

def maxKeyChars : Nat := 128

/-- The largest `u32`. -/
def u32Max : Nat := 4294967295

/-- The failures of one key inside its current window. -/
structure Window where
  started : Nat
  failures : Nat
  deriving DecidableEq

structure LoginThrottle where
  limit : Nat
  window : Nat
  maxKeys : Nat
  windows : AList (fun _ : Text => Window) := ∅

/-- The key for one account name or one client address. -/
def loginKey (kind value : Text) : Text := kind ++ ':' :: value.take maxKeyChars

namespace LoginThrottle

variable (t : LoginThrottle)

def isLive (w : Window) (now : Nat) : Bool := now - w.started < t.window

/-- Whether a key may try again, or else the time left in its window. -/
def check (key : Text) (now : Nat) : Except Nat Unit :=
  match t.windows.lookup key with
  | some w =>
      if t.limit ≤ w.failures ∧ t.isLive w now then .error (t.window - (now - w.started))
      else .ok ()
  | none => .ok ()

/-- The windows that have not passed. -/
def retainLive (now : Nat) : AList (fun _ : Text => Window) where
  entries := t.windows.entries.filter fun entry => t.isLive entry.2 now
  nodupKeys := t.windows.nodupKeys.sublist List.filter_sublist

/-- The key has one of the oldest windows of a table. -/
def isOldest (windows : AList (fun _ : Text => Window)) (key : Text) : Bool :=
  match windows.lookup key with
  | some w => windows.entries.all fun entry => w.started ≤ entry.2.started
  | none => false

/-- A key with one of the oldest windows, if the table is not empty. -/
def oldest (windows : AList (fun _ : Text => Window)) (pick : Text) : Option Text :=
  if isOldest windows pick then some pick
  else (windows.entries.map Sigma.fst).find? (isOldest windows)

/-- The live window that a failure of this key makes room for itself by forgetting. -/
def evicts (pick key : Text) (now : Nat) : Option Text :=
  if (t.windows.lookup key).isNone && t.maxKeys ≤ t.windows.entries.length &&
      t.maxKeys ≤ (t.retainLive now).entries.length then
    oldest (t.retainLive now) pick
  else none

/-- Forget the windows that have passed, and the oldest live one if the table is still
full. -/
def makeRoom (pick : Text) (now : Nat) : AList (fun _ : Text => Window) :=
  let kept := t.retainLive now
  if kept.entries.length < t.maxKeys then kept
  else
    match oldest kept pick with
    | some key => kept.erase key
    | none => kept

/-- Count one failed sign-in against a key. -/
def recordFailure (pick key : Text) (now : Nat) : LoginThrottle :=
  match t.windows.lookup key with
  | some w =>
      let counted :=
        if t.isLive w now then { w with failures := min (w.failures + 1) u32Max }
        else ⟨now, 1⟩
      { t with windows := t.windows.insert key counted }
  | none =>
      let room := if t.maxKeys ≤ t.windows.entries.length then t.makeRoom pick now else t.windows
      { t with windows := room.insert key ⟨now, 1⟩ }

/-- A sign-in under a key succeeded. -/
def recordSuccess (key : Text) : LoginThrottle :=
  { t with windows := t.windows.erase key }

section Fields

variable (pick key : Text) (now : Nat)

@[simp] theorem recordFailure_limit : (t.recordFailure pick key now).limit = t.limit := by
  unfold recordFailure
  split <;> rfl

@[simp] theorem recordFailure_window : (t.recordFailure pick key now).window = t.window := by
  unfold recordFailure
  split <;> rfl

@[simp] theorem recordFailure_maxKeys : (t.recordFailure pick key now).maxKeys = t.maxKeys := by
  unfold recordFailure
  split <;> rfl

@[simp] theorem recordSuccess_limit : (t.recordSuccess key).limit = t.limit := rfl

@[simp] theorem recordSuccess_window : (t.recordSuccess key).window = t.window := rfl

end Fields

variable {t} {pick key other : Text} {now : Nat} {w : Window}

theorem mem_retainLive_iff {entry : Sigma fun _ : Text => Window} :
    entry ∈ (t.retainLive now).entries ↔
      entry ∈ t.windows.entries ∧ t.isLive entry.2 now = true :=
  List.mem_filter

theorem lookup_retainLive_iff :
    (t.retainLive now).lookup key = some w ↔
      t.windows.lookup key = some w ∧ t.isLive w now = true := by
  have hmem := @mem_retainLive_iff t now ⟨key, w⟩
  rwa [← AList.mem_lookup_iff, ← AList.mem_lookup_iff] at hmem

theorem lookup_makeRoom_of_some (h : (t.makeRoom pick now).lookup key = some w) :
    t.windows.lookup key = some w := by
  unfold makeRoom at h
  dsimp only at h
  split at h
  · exact (lookup_retainLive_iff.mp h).1
  · split at h
    · next gone _ =>
        by_cases hkey : key = gone
        · subst hkey
          rw [AList.lookup_erase] at h
          cases h
        · rw [AList.lookup_erase_ne hkey] at h
          exact (lookup_retainLive_iff.mp h).1
    · exact (lookup_retainLive_iff.mp h).1

/-- A failure of a key counts in its live window, or else starts one. -/
theorem lookup_recordFailure : (t.recordFailure pick key now).windows.lookup key = some
    (match t.windows.lookup key with
    | some w =>
        if t.isLive w now then { w with failures := min (w.failures + 1) u32Max } else ⟨now, 1⟩
    | none => ⟨now, 1⟩) := by
  unfold recordFailure
  split
  · next w hw => rw [AList.lookup_insert]
  · next hw => rw [AList.lookup_insert]

/-- A failure of another key adds no window. -/
theorem lookup_of_recordFailure (hother : other ≠ key)
    (h : (t.recordFailure pick key now).windows.lookup other = some w) :
    t.windows.lookup other = some w := by
  unfold recordFailure at h
  split at h
  · rwa [AList.lookup_insert_ne hother] at h
  · dsimp only at h
    rw [AList.lookup_insert_ne hother] at h
    split at h
    · exact lookup_makeRoom_of_some h
    · exact h

/-- A failure of another key keeps a live window that it does not evict. -/
theorem lookup_recordFailure_of_ne (hother : other ≠ key)
    (h : t.windows.lookup other = some w) (hlive : t.isLive w now = true)
    (hkept : t.evicts pick key now ≠ some other) :
    (t.recordFailure pick key now).windows.lookup other = some w := by
  have hretained : (t.retainLive now).lookup other = some w := lookup_retainLive_iff.mpr ⟨h, hlive⟩
  unfold recordFailure
  split
  · rw [AList.lookup_insert_ne hother]
    exact h
  · next hnone =>
      dsimp only
      rw [AList.lookup_insert_ne hother]
      split
      · next hfull =>
          unfold makeRoom
          dsimp only
          split
          · exact hretained
          · next hstill =>
              have hevicts : t.evicts pick key now = oldest (t.retainLive now) pick := by
                rw [evicts, hnone]
                simp [hfull, not_lt.mp hstill]
              rw [hevicts] at hkept
              split
              · next gone hgone =>
                  have hne : other ≠ gone := by
                    rintro rfl
                    exact hkept hgone
                  rw [AList.lookup_erase_ne hne]
                  exact hretained
              · exact hretained
      · exact h

theorem lookup_recordSuccess_of_ne (hother : other ≠ key) :
    (t.recordSuccess key).windows.lookup other = t.windows.lookup other :=
  AList.lookup_erase_ne hother

/-- A success adds no window. -/
theorem lookup_of_recordSuccess (h : (t.recordSuccess key).windows.lookup other = some w) :
    t.windows.lookup other = some w := by
  by_cases hother : other = key
  · subst hother
    rw [recordSuccess, AList.lookup_erase] at h
    cases h
  · rwa [lookup_recordSuccess_of_ne hother] at h

/-- Only one of the oldest windows of a table that is full of live windows is evicted. -/
theorem evicts_eq_some (h : t.evicts pick key now = some other) :
    t.maxKeys ≤ (t.retainLive now).entries.length ∧
      ∃ w, t.windows.lookup other = some w ∧
        ∀ entry ∈ t.windows.entries, t.isLive entry.2 now = true → w.started ≤ entry.2.started := by
  unfold evicts at h
  split at h
  · next hfull =>
      simp only [Bool.and_eq_true, decide_eq_true_eq] at hfull
      refine ⟨hfull.2, ?_⟩
      have holdest : isOldest (t.retainLive now) other = true := by
        unfold oldest at h
        split at h
        · cases h
          assumption
        · exact List.find?_some h
      unfold isOldest at holdest
      split at holdest
      · next w hw =>
          refine ⟨w, (lookup_retainLive_iff.mp hw).1, fun entry hentry hlive => ?_⟩
          have hall := List.all_eq_true.mp holdest entry
            (mem_retainLive_iff.mpr ⟨hentry, hlive⟩)
          exact of_decide_eq_true hall
      · cases holdest
  · cases h

/-- A failure of a new key takes a place in a table that has one. -/
theorem windows_recordFailure (hnone : t.windows.lookup key = none)
    (hroom : t.windows.entries.length < t.maxKeys) :
    (t.recordFailure pick key now).windows = t.windows.insert key ⟨now, 1⟩ := by
  unfold recordFailure
  rw [hnone]
  simp only [if_neg (not_le.mpr hroom)]

/-- A failure of a new key in a table full of live windows takes the place of an oldest one. -/
theorem lookup_recordFailure_of_full (hother : other ≠ key)
    (hnone : t.windows.lookup key = none) (hfull : t.maxKeys ≤ t.windows.entries.length)
    (hlive : ∀ entry ∈ t.windows.entries, t.isLive entry.2 now = true)
    (hlookup : t.windows.lookup other = some w)
    (holdest : ∀ entry ∈ t.windows.entries, w.started ≤ entry.2.started) :
    (t.recordFailure other key now).windows.lookup other = none := by
  have hall : (t.retainLive now).entries = t.windows.entries := List.filter_eq_self.mpr hlive
  have hretained : (t.retainLive now).lookup other = some w :=
    lookup_retainLive_iff.mpr ⟨hlookup, hlive ⟨other, w⟩ (AList.mem_lookup_iff.mp hlookup)⟩
  have hpick : isOldest (t.retainLive now) other = true := by
    simp only [isOldest, hretained, List.all_eq_true, decide_eq_true_eq, hall]
    exact holdest
  unfold recordFailure
  rw [hnone]
  simp only [if_pos hfull]
  rw [AList.lookup_insert_ne hother, makeRoom]
  simp only [hall, if_neg (not_lt.mpr hfull), oldest, hpick, if_true]
  exact AList.lookup_erase other _

/-- A key that has used up its limit is held back while its window is live. -/
theorem check_error (h : t.windows.lookup key = some w) (hfull : t.limit ≤ w.failures)
    (hlive : t.isLive w now = true) :
    t.check key now = .error (t.window - (now - w.started)) := by
  rw [check, h]
  exact if_pos ⟨hfull, hlive⟩

theorem failures_lt_of_check (h : t.windows.lookup key = some w)
    (hlive : t.isLive w now = true) (hok : t.check key now = .ok ()) : w.failures < t.limit := by
  by_contra hfull
  rw [check_error h (not_lt.mp hfull) hlive] at hok
  cases hok

end LoginThrottle

end Genaryx.Web
