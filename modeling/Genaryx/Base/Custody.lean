import Mathlib.Data.List.Basic
import Mathlib.Logic.Function.Basic

/-!
# Who holds a resource

Resources that are made one at a time, that holders hand to each other, and that end with the
holder that lets go of them. A holder may also forget a resource without ending it: this is a stray.

## Implementation notes

Resources are numbered in the order they are made. `Custody.gone` has those that ended by
themselves. Where the holders are threads, what a thread holds is said by the place where it is:
`custody` is made of a function on places.
-/

namespace Genaryx.Base

/-- The resources made so far, and who holds which. -/
@[ext]
structure Custody (H : Type*) where
  holds : H → Option Nat
  live : Nat → Bool
  made : Nat
  gone : List Nat
  strays : List Nat

namespace Custody

variable {H : Type*} [DecidableEq H] (c : Custody H)

/-- A holder makes a resource. -/
def make (h : H) : Custody H :=
  { c with
    holds := Function.update c.holds h (some c.made)
    live := Function.update c.live c.made true
    made := c.made + 1 }

/-- A holder ends what it holds. -/
def finish (h : H) : Custody H :=
  { c with
    holds := Function.update c.holds h none
    live := fun n => c.live n && c.holds h != some n }

/-- A holder hands what it holds to another. -/
def pass (h k : H) : Custody H :=
  { c with holds := Function.update (Function.update c.holds h none) k (c.holds h) }

/-- A holder forgets what it holds. -/
def forget (h : H) : Custody H :=
  { c with
    holds := Function.update c.holds h none
    strays := (c.holds h).toList ++ c.strays }

/-- A resource ends by itself. -/
def vanish (n : Nat) : Custody H :=
  { c with live := Function.update c.live n false, gone := n :: c.gone }

/-- What a number of such steps may do. Nothing is made by a holder, or handed to one, that holds
something else. -/
inductive Moves : Custody H → Custody H → Prop
  | refl (c : Custody H) : Moves c c
  | make (c : Custody H) (h : H) : c.holds h = none → Moves c (c.make h)
  | finish (c : Custody H) (h : H) : Moves c (c.finish h)
  | pass (c : Custody H) (h k : H) : c.holds k = none → Moves c (c.pass h k)
  | forget (c : Custody H) (h : H) : Moves c (c.forget h)
  | vanish (c : Custody H) (n : Nat) : Moves c (c.vanish n)
  | trans {c d e : Custody H} : Moves c d → Moves d e → Moves c e

/-- Each resource has one holder at most, what is held was made and is live unless it ended by itself,
and what is live is held or a stray. -/
structure Sound : Prop where
  one : ∀ h k n, c.holds h = some n → c.holds k = some n → h = k
  held_made : ∀ h n, c.holds h = some n → n < c.made
  held_live : ∀ h n, c.holds h = some n → c.live n = true ∨ n ∈ c.gone
  live_made : ∀ n, c.live n = true → n < c.made
  accounted : ∀ n, c.live n = true → (∃ h, c.holds h = some n) ∨ n ∈ c.strays

variable {c}

omit [DecidableEq H] in
/-- Nobody holds anything yet. -/
theorem Sound.start {holds : H → Option Nat} (h : ∀ k, holds k = none) :
    Sound ⟨holds, fun _ => false, 0, [], []⟩ where
  one k _ _ hk := nomatch (h k).symm.trans hk
  held_made k _ hk := nomatch (h k).symm.trans hk
  held_live k _ hk := nomatch (h k).symm.trans hk
  live_made _ hn := nomatch hn
  accounted _ hn := nomatch hn

theorem holds_update_none {h k : H} {n : Nat}
    (hk : Function.update c.holds h none k = some n) : k ≠ h ∧ c.holds k = some n := by
  by_cases hkh : k = h
  · rw [hkh, Function.update_self] at hk
    cases hk
  · rw [Function.update_of_ne hkh] at hk
    exact ⟨hkh, hk⟩

theorem Sound.make (hc : c.Sound) {h : H} (hempty : c.holds h = none) : (c.make h).Sound := by
  have hheld : ∀ k n, (c.make h).holds k = some n →
      (k = h ∧ n = c.made) ∨ (k ≠ h ∧ c.holds k = some n) := by
    intro k n hk
    change Function.update c.holds h (some c.made) k = some n at hk
    by_cases hkh : k = h
    · rw [hkh, Function.update_self] at hk
      exact .inl ⟨hkh, (Option.some.inj hk).symm⟩
    · rw [Function.update_of_ne hkh] at hk
      exact .inr ⟨hkh, hk⟩
  have hlive : ∀ n, (c.make h).live n = true ↔ n = c.made ∨ c.live n = true := by
    intro n
    change Function.update c.live c.made true n = true ↔ _
    by_cases hn : n = c.made
    · rw [hn, Function.update_self]
      exact ⟨fun _ => .inl rfl, fun _ => rfl⟩
    · rw [Function.update_of_ne hn]
      exact ⟨.inr, fun h => h.resolve_left hn⟩
  constructor
  · intro k l n hk hl
    rcases hheld k n hk with ⟨hkh, hn⟩ | ⟨-, hkept⟩ <;>
      rcases hheld l n hl with ⟨hlh, hm⟩ | ⟨-, hlkept⟩
    · rw [hkh, hlh]
    · exact absurd (hn ▸ hc.held_made l n hlkept) (Nat.lt_irrefl _)
    · exact absurd (hm ▸ hc.held_made k n hkept) (Nat.lt_irrefl _)
    · exact hc.one k l n hkept hlkept
  · intro k n hk
    change n < c.made + 1
    rcases hheld k n hk with ⟨-, rfl⟩ | ⟨-, hk⟩
    · exact Nat.lt_succ_self _
    · exact Nat.lt_succ_of_lt (hc.held_made k n hk)
  · intro k n hk
    rw [hlive]
    rcases hheld k n hk with ⟨-, rfl⟩ | ⟨-, hk⟩
    · exact .inl (.inl rfl)
    · exact (hc.held_live k n hk).imp_left .inr
  · intro n hn
    change n < c.made + 1
    rcases (hlive n).mp hn with rfl | hn
    · exact Nat.lt_succ_self _
    · exact Nat.lt_succ_of_lt (hc.live_made n hn)
  · intro n hn
    rcases (hlive n).mp hn with rfl | hn
    · exact .inl ⟨h, Function.update_self ..⟩
    · rcases hc.accounted n hn with ⟨k, hk⟩ | hstray
      · refine .inl ⟨k, ?_⟩
        have hkh : k ≠ h := by
          rintro rfl
          rw [hempty] at hk
          cases hk
        exact (Function.update_of_ne hkh ..).trans hk
      · exact .inr hstray

theorem Sound.finish (hc : c.Sound) (h : H) : (c.finish h).Sound := by
  have hlive : ∀ n, (c.finish h).live n = true ↔ c.live n = true ∧ c.holds h ≠ some n := by
    intro n
    change (c.live n && c.holds h != some n) = true ↔ _
    rw [Bool.and_eq_true, bne_iff_ne]
  constructor
  · intro k l n hk hl
    exact hc.one k l n (holds_update_none hk).2 (holds_update_none hl).2
  · intro k n hk
    exact hc.held_made k n (holds_update_none hk).2
  · intro k n hk
    obtain ⟨hkh, hk⟩ := holds_update_none hk
    rw [hlive]
    refine (hc.held_live k n hk).imp_left fun hn => ⟨hn, ?_⟩
    exact fun hh => hkh (hc.one k h n hk hh)
  · intro n hn
    exact hc.live_made n ((hlive n).mp hn).1
  · intro n hn
    obtain ⟨hn, hother⟩ := (hlive n).mp hn
    refine (hc.accounted n hn).imp_left fun ⟨k, hk⟩ => ⟨k, ?_⟩
    have hkh : k ≠ h := by
      rintro rfl
      exact hother hk
    exact (Function.update_of_ne hkh ..).trans hk

theorem Sound.pass (hc : c.Sound) {h k : H} (hempty : c.holds k = none) : (c.pass h k).Sound := by
  have hheld : ∀ l n, (c.pass h k).holds l = some n →
      (l = k ∧ c.holds h = some n) ∨ (l ≠ k ∧ l ≠ h ∧ c.holds l = some n) := by
    intro l n hl
    change Function.update (Function.update c.holds h none) k (c.holds h) l = some n at hl
    by_cases hlk : l = k
    · rw [hlk, Function.update_self] at hl
      exact .inl ⟨hlk, hl⟩
    · rw [Function.update_of_ne hlk] at hl
      exact .inr ⟨hlk, holds_update_none hl⟩
  have hfrom : ∀ l n, (c.pass h k).holds l = some n → ∃ m, c.holds m = some n := by
    intro l n hl
    rcases hheld l n hl with ⟨-, hl⟩ | ⟨-, -, hl⟩
    · exact ⟨h, hl⟩
    · exact ⟨l, hl⟩
  constructor
  · intro l m n hl hm
    rcases hheld l n hl with ⟨hlk, hgot⟩ | ⟨-, hlh, hkept⟩ <;>
      rcases hheld m n hm with ⟨hmk, hmgot⟩ | ⟨-, hmh, hmkept⟩
    · rw [hlk, hmk]
    · exact absurd (hc.one m h n hmkept hgot) hmh
    · exact absurd (hc.one l h n hkept hmgot) hlh
    · exact hc.one l m n hkept hmkept
  · intro l n hl
    obtain ⟨m, hm⟩ := hfrom l n hl
    exact hc.held_made m n hm
  · intro l n hl
    obtain ⟨m, hm⟩ := hfrom l n hl
    exact hc.held_live m n hm
  · exact hc.live_made
  · intro n hn
    refine (hc.accounted n hn).imp_left fun ⟨l, hl⟩ => ?_
    by_cases hlh : l = h
    · exact ⟨k, (Function.update_self ..).trans (hlh ▸ hl)⟩
    · have hlk : l ≠ k := by
        rintro rfl
        rw [hempty] at hl
        cases hl
      refine ⟨l, ?_⟩
      change Function.update (Function.update c.holds h none) k (c.holds h) l = some n
      rw [Function.update_of_ne hlk, Function.update_of_ne hlh, hl]

theorem Sound.forget (hc : c.Sound) (h : H) : (c.forget h).Sound := by
  constructor
  · intro k l n hk hl
    exact hc.one k l n (holds_update_none hk).2 (holds_update_none hl).2
  · intro k n hk
    exact hc.held_made k n (holds_update_none hk).2
  · intro k n hk
    exact hc.held_live k n (holds_update_none hk).2
  · exact hc.live_made
  · intro n hn
    change _ ∨ n ∈ (c.holds h).toList ++ c.strays
    rw [List.mem_append, Option.mem_toList]
    rcases hc.accounted n hn with ⟨k, hk⟩ | hstray
    · by_cases hkh : k = h
      · exact .inr (.inl (hkh ▸ hk))
      · exact .inl ⟨k, (Function.update_of_ne hkh ..).trans hk⟩
    · exact .inr (.inr hstray)

omit [DecidableEq H] in
theorem Sound.vanish (hc : c.Sound) (n : Nat) : (c.vanish n).Sound := by
  have hlive : ∀ m, (c.vanish n).live m = true ↔ m ≠ n ∧ c.live m = true := by
    intro m
    change Function.update c.live n false m = true ↔ _
    by_cases hm : m = n
    · rw [hm, Function.update_self]
      exact ⟨nofun, fun h => absurd rfl h.1⟩
    · rw [Function.update_of_ne hm]
      exact ⟨fun h => ⟨hm, h⟩, And.right⟩
  constructor
  · exact hc.one
  · exact hc.held_made
  · intro h m hm
    rw [hlive]
    change _ ∨ m ∈ n :: c.gone
    by_cases hmn : m = n
    · exact .inr (hmn ▸ List.mem_cons_self)
    · exact (hc.held_live h m hm).imp (fun hm => ⟨hmn, hm⟩) (List.mem_cons_of_mem n)
  · intro m hm
    exact hc.live_made m ((hlive m).mp hm).2
  · intro m hm
    exact hc.accounted m ((hlive m).mp hm).2

/-- Whatever the holders do, custody stays sound. -/
theorem Sound.moves {d : Custody H} (hc : c.Sound) (h : Moves c d) : d.Sound := by
  induction h with
  | refl c => exact hc
  | make c h hempty => exact hc.make hempty
  | finish c h => exact hc.finish h
  | pass c h k hempty => exact hc.pass hempty
  | forget c h => exact hc.forget h
  | vanish c n => exact hc.vanish n
  | trans _ _ ih ih' => exact ih' (ih hc)

end Custody

/-! ## Threads that hold -/

/-- The resources of one kind: how many were made, which there are, and which ended by themselves. -/
structure Pool where
  made : Nat := 0
  live : Nat → Bool := fun _ => false
  gone : List Nat := []

def Pool.make (p : Pool) : Pool :=
  { p with made := p.made + 1, live := Function.update p.live p.made true }

/-- End one, if it is given. -/
def Pool.finish (p : Pool) (n : Option Nat) : Pool :=
  { p with live := fun m => p.live m && n != some m }

def Pool.vanish (p : Pool) (n : Nat) : Pool :=
  { p with live := Function.update p.live n false, gone := n :: p.gone }

/-- Who can hold a resource: one cell that is shared, and any thread. -/
inductive Holder
  | cell
  | thread (index : Nat)
  deriving DecidableEq

/-- The custody of one kind: what the cell holds, what each thread holds where it is, and what there
is. -/
def custody {π : Type*} (cell : Option Nat) (held : π → Option Nat) (threads : Nat → Option π)
    (pool : Pool) (strays : List Nat) : Custody Holder where
  holds
    | .cell => cell
    | .thread i => (threads i).bind held
  live := pool.live
  made := pool.made
  gone := pool.gone
  strays := strays

section Moves

open Custody (Moves)

variable {π : Type*} {cell : Option Nat} {held : π → Option Nat} {threads : Nat → Option π}
  {pool : Pool} {strays : List Nat} {i : Nat} {pc next : π}

/-- What a custody says of its holders, when one thread is somewhere else. -/
theorem custody_update :
    custody cell held (Function.update threads i (some next)) pool strays =
      { custody cell held threads pool strays with
        holds := Function.update (custody cell held threads pool strays).holds (.thread i)
          (held next) } := by
  apply Custody.ext <;> try rfl
  funext h
  cases h with
  | cell => simp [custody]
  | thread j => by_cases hj : j = i <;> simp [custody, Function.update, hj]

theorem holds_thread (hpc : threads i = some pc) :
    (custody cell held threads pool strays).holds (.thread i) = held pc := by
  simp [custody, hpc]

/-- What a custody says of the cell, when this holds something else. -/
theorem custody_cell (cell other : Option Nat) :
    custody other held threads pool strays =
      { custody cell held threads pool strays with
        holds := Function.update (custody cell held threads pool strays).holds .cell other } := by
  apply Custody.ext <;> try rfl
  funext h
  cases h <;> simp [custody]

/-- A thread that holds the same changes nothing. -/
theorem moves_same (hpc : threads i = some pc) (hnext : held next = held pc) :
    Moves (custody cell held threads pool strays)
      (custody cell held (Function.update threads i (some next)) pool strays) := by
  have hsame : (custody cell held threads pool strays).holds (.thread i) = held pc := holds_thread hpc
  rw [custody_update, hnext, ← hsame, Function.update_eq_self]
  exact .refl _

/-- A thread that arrives holds nothing. -/
theorem moves_arrive (hfree : threads i = none) (hempty : held next = none) :
    Moves (custody cell held threads pool strays)
      (custody cell held (Function.update threads i (some next)) pool strays) := by
  have hnone : (custody cell held threads pool strays).holds (.thread i) = none := by
    simp [custody, hfree]
  rw [custody_update, hempty, ← hnone, Function.update_eq_self]
  exact .refl _

/-- A thread makes a resource. -/
theorem moves_make (hpc : threads i = some pc) (hempty : held pc = none)
    (hnext : held next = some pool.made) :
    Moves (custody cell held threads pool strays)
      (custody cell held (Function.update threads i (some next)) pool.make strays) := by
  rw [custody_update, hnext]
  exact Moves.make _ (Holder.thread i) ((holds_thread hpc).trans hempty)

/-- A thread ends what it holds. -/
theorem moves_finish (hpc : threads i = some pc) (hnext : held next = none) :
    Moves (custody cell held threads pool strays)
      (custody cell held (Function.update threads i (some next)) (pool.finish (held pc)) strays) := by
  have h := Moves.finish (custody cell held threads pool strays) (Holder.thread i)
  rw [Custody.finish, holds_thread hpc] at h
  rw [custody_update, hnext]
  exact h

/-- The cell ends what it holds. -/
theorem moves_finish_cell :
    Moves (custody cell held threads pool strays)
      (custody none held threads (pool.finish cell) strays) := by
  have h := Moves.finish (custody cell held threads pool strays) Holder.cell
  rw [custody_cell cell none]
  exact h

/-- A thread hands what it holds to the empty cell. -/
theorem moves_store (hpc : threads i = some pc) (hnext : held next = none) :
    Moves (custody none held threads pool strays)
      (custody (held pc) held (Function.update threads i (some next)) pool strays) := by
  have h := Moves.pass (custody none held threads pool strays) (Holder.thread i) Holder.cell rfl
  rw [Custody.pass, holds_thread hpc] at h
  rw [custody_cell none (held pc), custody_update, hnext]
  exact h

/-- A thread forgets what it holds. -/
theorem moves_forget (hpc : threads i = some pc) (hnext : held next = none) :
    Moves (custody cell held threads pool strays)
      (custody cell held (Function.update threads i (some next)) pool
        ((held pc).toList ++ strays)) := by
  have h := Moves.forget (custody cell held threads pool strays) (Holder.thread i)
  rw [Custody.forget, holds_thread hpc] at h
  rw [custody_update, hnext]
  exact h

/-- The cell forgets what it holds. -/
theorem moves_forget_cell :
    Moves (custody cell held threads pool strays)
      (custody none held threads pool (cell.toList ++ strays)) := by
  have h := Moves.forget (custody cell held threads pool strays) Holder.cell
  rw [custody_cell cell none]
  exact h

/-- A thread makes a resource and ends it. -/
theorem moves_make_finish (hpc : threads i = some pc) (hempty : held pc = none)
    (hnext : held next = none) :
    Moves (custody cell held threads pool strays)
      (custody cell held (Function.update threads i (some next))
        (pool.make.finish (some pool.made)) strays) := by
  have hmade := Moves.make (custody cell held threads pool strays) (Holder.thread i)
    ((holds_thread hpc).trans hempty)
  have hended := Moves.finish ((custody cell held threads pool strays).make (Holder.thread i))
    (Holder.thread i)
  rw [Custody.finish, Custody.make] at hended
  simp only [Function.update_self, Function.update_idem] at hended
  rw [custody_update, hnext]
  exact hmade.trans hended

/-- A thread makes a resource and forgets it. -/
theorem moves_make_forget (hpc : threads i = some pc) (hempty : held pc = none)
    (hnext : held next = none) :
    Moves (custody cell held threads pool strays)
      (custody cell held (Function.update threads i (some next)) pool.make
        (pool.made :: strays)) := by
  have hmade := Moves.make (custody cell held threads pool strays) (Holder.thread i)
    ((holds_thread hpc).trans hempty)
  have hleft := Moves.forget ((custody cell held threads pool strays).make (Holder.thread i))
    (Holder.thread i)
  rw [Custody.forget, Custody.make] at hleft
  simp only [Function.update_self, Function.update_idem] at hleft
  rw [custody_update, hnext]
  exact hmade.trans hleft

end Moves

end Genaryx.Base
