import Mathlib.Data.List.Basic
import Mathlib.Order.MinMax
import Mathlib.Order.Nat

/-!
# Bounded broadcast channels

A channel of which every receiver reads each value that is sent after it subscribed, in order. The
channel holds only the last so many values, so that a receiver that falls behind misses the older
ones, and is told how many.
-/

namespace Genaryx.Base

universe u

variable {α : Type u}

/-- A channel, with all that was ever sent on it. -/
structure Channel (α : Type u) where
  capacity : Nat
  sent : List α := []

/-- A receiver: where it subscribed, where it reads next, what it was given and how much it
missed. -/
structure Receiver (α : Type u) where
  start : Nat
  next : Nat
  got : List α := []
  missed : Nat := 0

/-- What one read of a receiver finds. -/
inductive Heard (α : Type u)
  | empty
  | lagged (missed : Nat)
  | value (x : α)

namespace Channel

variable (c : Channel α) (r : Receiver α)

def send (x : α) : Channel α := { c with sent := c.sent ++ [x] }

/-- Send values one after the other. -/
def sendAll (xs : List α) : Channel α := xs.foldl send c

/-- The position of the oldest value that the channel still holds. -/
def oldest : Nat := c.sent.length - c.capacity

/-- A receiver that has everything sent from now on before it. -/
def subscribe : Receiver α where
  start := c.sent.length
  next := c.sent.length

/-- Read one value. A receiver whose next value is gone goes on from the oldest that is held. -/
def tryRecv : Heard α × Receiver α :=
  if r.next < c.oldest then
    (.lagged (c.oldest - r.next),
      { r with next := c.oldest, missed := r.missed + (c.oldest - r.next) })
  else
    match c.sent[r.next]? with
    | some x => (.value x, { r with next := r.next + 1, got := r.got ++ [x] })
    | none => (.empty, r)

@[simp] theorem send_sent (x : α) : (c.send x).sent = c.sent ++ [x] := rfl

@[simp] theorem sendAll_sent (xs : List α) : (c.sendAll xs).sent = c.sent ++ xs := by
  unfold sendAll
  induction xs generalizing c with
  | nil => exact (List.append_nil _).symm
  | cons x xs ih => rw [List.foldl_cons, ih, send_sent, List.append_assoc, List.singleton_append]

/-- What lies between a receiver's subscription and its next read. -/
def past : List α := (c.sent.take r.next).drop r.start

/-- The receiver was given, in the order in which they were sent, the values between its
subscription and its next read, up to as many as it was told that it missed. -/
structure Follows (r : Receiver α) : Prop where
  start_le : r.start ≤ r.next
  next_le : r.next ≤ c.sent.length
  got : List.Sublist r.got (c.past r)
  counted : r.got.length + r.missed = r.next - r.start

variable {c r}

theorem follows_subscribe : c.Follows c.subscribe where
  start_le := le_rfl
  next_le := le_rfl
  got := List.nil_sublist _
  counted := (Nat.sub_self _).symm

namespace Follows

/-- A receiver is not concerned by what is sent later. -/
theorem sendAll (h : c.Follows r) (xs : List α) : (c.sendAll xs).Follows r where
  start_le := h.start_le
  next_le := by
    rw [sendAll_sent, List.length_append]
    exact h.next_le.trans (Nat.le_add_right _ _)
  got := by
    rw [past, sendAll_sent, List.take_append_of_le_length h.next_le]
    exact h.got
  counted := h.counted

theorem send (h : c.Follows r) (x : α) : (c.send x).Follows r := h.sendAll [x]

theorem length_past (h : c.Follows r) : (c.past r).length = r.next - r.start := by
  rw [past, List.length_drop, List.length_take, min_eq_left h.next_le]

/-- A receiver that missed nothing was given everything that lies behind it. -/
theorem got_eq (h : c.Follows r) (hmissed : r.missed = 0) : r.got = c.past r := by
  apply h.got.eq_of_length
  rw [h.length_past, ← h.counted, hmissed, Nat.add_zero]

/-- Skip to a later position. -/
theorem skip (h : c.Follows r) {n : Nat} (hle : r.next ≤ n) (hn : n ≤ c.sent.length) :
    c.Follows { r with next := n, missed := r.missed + (n - r.next) } where
  start_le := h.start_le.trans hle
  next_le := hn
  got := h.got.trans ((List.take_sublist_take_left hle).drop _)
  counted := by
    have hcounted := h.counted
    have hstart := h.start_le
    change r.got.length + (r.missed + (n - r.next)) = n - r.start
    omega

/-- Take the next value. -/
theorem take (h : c.Follows r) {x : α} (hx : c.sent[r.next]? = some x) :
    c.Follows { r with next := r.next + 1, got := r.got ++ [x] } := by
  obtain ⟨hlt, -⟩ := List.getElem?_eq_some_iff.mp hx
  constructor
  · exact h.start_le.trans (Nat.le_succ _)
  · exact hlt
  · have hpast : c.past { r with next := r.next + 1, got := r.got ++ [x] } = c.past r ++ [x] := by
      rw [past, past, List.take_add_one, hx, Option.toList_some,
        List.drop_append_of_le_length]
      rw [List.length_take, min_eq_left h.next_le]
      exact h.start_le
    rw [hpast]
    exact h.got.append (List.Sublist.refl [x])
  · have hcounted := h.counted
    have hstart := h.start_le
    change (r.got ++ [x]).length + r.missed = r.next + 1 - r.start
    rw [List.length_append, List.length_singleton]
    omega

theorem tryRecv (h : c.Follows r) : c.Follows (c.tryRecv r).2 := by
  unfold Channel.tryRecv
  split
  · next hlt => exact h.skip hlt.le (Nat.sub_le _ _)
  · split
    · next hx => exact h.take hx
    · exact h

/-- A receiver that finds nothing has come to the end. -/
theorem next_eq (h : c.Follows r) (hempty : (c.tryRecv r).1 = .empty) :
    r.next = c.sent.length := by
  unfold Channel.tryRecv at hempty
  split at hempty
  · cases hempty
  · split at hempty
    · cases hempty
    · next hnone => exact le_antisymm h.next_le (List.getElem?_eq_none_iff.mp hnone)

end Follows

theorem tryRecv_start (c : Channel α) (r : Receiver α) : (c.tryRecv r).2.start = r.start := by
  unfold tryRecv
  split
  · rfl
  · split <;> rfl

/-- What the receiver has after a read. -/
theorem tryRecv_value {x : α} (h : (c.tryRecv r).1 = .value x) :
    (c.tryRecv r).2.got = r.got ++ [x] ∧ x ∈ c.sent := by
  unfold tryRecv at h ⊢
  split at h
  · cases h
  · next hlt =>
      rw [if_neg hlt]
      cases hx : c.sent[r.next]? with
      | none => rw [hx] at h; cases h
      | some y =>
          rw [hx] at h
          cases h
          exact ⟨rfl, List.mem_of_getElem? hx⟩

theorem tryRecv_got (h : ∀ x, (c.tryRecv r).1 ≠ .value x) : (c.tryRecv r).2.got = r.got := by
  unfold tryRecv at h ⊢
  split
  · rfl
  · next hlt =>
      rw [if_neg hlt] at h
      split
      · next x hx =>
          rw [hx] at h
          exact absurd rfl (h x)
      · rfl

theorem tryRecv_empty (h : (c.tryRecv r).1 = .empty) : (c.tryRecv r).2 = r := by
  unfold tryRecv at h ⊢
  split at h
  · cases h
  · next hlt =>
      rw [if_neg hlt]
      cases hx : c.sent[r.next]? with
      | none => rfl
      | some y => rw [hx] at h; cases h

end Channel

end Genaryx.Base
