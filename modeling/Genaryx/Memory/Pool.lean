import Genaryx.Base.Recency
import Genaryx.Base.Text

/-!
# Scoped servers for the memory panel

A pool holds one server for each scope that was read last, at most so many, and none that was not
read for too long. A read reuses the server of its scope, and otherwise starts one.

## Implementation notes

Instants and durations are natural numbers. The sequence number counts the calls, so it does not
overflow. Which server a handle stands for is a value of any type.
-/

namespace Genaryx.Memory

open Base Recency

variable {C E : Type}

/-- One held server: the scope it serves, and when and in what order it was last read. -/
structure Entry (C : Type) where
  scope : Text
  client : C
  lastUsed : Nat
  seq : Nat

/-- The servers that are held. -/
structure ScopePool (C : Type) where
  entries : List (Entry C)
  max : Nat
  idle : Nat
  nextSeq : Nat
  max_pos : 0 < max

/-- `Vec::swap_remove`: the last item takes the place of the one that is removed. -/
def swapRemove {α : Type} (xs : List α) (i : Nat) : List α :=
  match xs.getLast? with
  | none => []
  | some last => (xs.set i last).dropLast

/-- The first of the entries that were read least recently. -/
def leastRecent (entries : List (Entry C)) : Option Nat :=
  entries.findIdx? fun e => entries.all fun other => e.seq ≤ other.seq

/-- Close the least recently read server. -/
def closeLeastRecent (entries : List (Entry C)) : List (Entry C) :=
  match leastRecent entries with
  | some i => swapRemove entries i
  | none => entries

/-- Close servers while the pool is full. Each round closes one, so there are no more rounds than
entries. -/
def makeRoom (max : Nat) : Nat → List (Entry C) → List (Entry C)
  | 0, entries => entries
  | rounds + 1, entries =>
      if max ≤ entries.length then makeRoom max rounds (closeLeastRecent entries) else entries

/-- Read the first entry of a scope, if there is one. -/
def readFirst (scope : Text) (now seq : Nat) : List (Entry C) → Option (C × List (Entry C))
  | [] => none
  | e :: rest =>
      if e.scope = scope then some (e.client, { e with lastUsed := now, seq := seq } :: rest)
      else (readFirst scope now seq rest).map fun read => (read.1, e :: read.2)

/-- How a call ended, and whether it started a server. -/
structure Outcome (C E : Type) where
  result : Except E C
  spawned : Bool

namespace ScopePool

/-- A pool that holds at least one server. -/
def new (max idle : Nat) : ScopePool C := ⟨[], Nat.max max 1, idle, 0, Nat.le_max_right max 1⟩

/-- Whether a server that was read last at a time is still to be held. -/
def live (idle now lastUsed : Nat) : Bool := now - lastUsed ≤ idle

/-- Close every server not read for longer than the pool holds it. -/
def closeIdle (now : Nat) (p : ScopePool C) : ScopePool C :=
  { p with entries := p.entries.filter fun e => live p.idle now e.lastUsed }

/-- The server for a scope, reused when the pool holds one and started otherwise. -/
def clientFor (p : ScopePool C) (scope : Text) (now : Nat) (spawn : Except E C) :
    Outcome C E × ScopePool C :=
  let p := p.closeIdle now
  let seq := p.nextSeq + 1
  let p := { p with nextSeq := seq }
  match readFirst scope now seq p.entries with
  | some (client, entries) => (⟨.ok client, false⟩, { p with entries := entries })
  | none =>
      match spawn with
      | .error e => (⟨.error e, true⟩, p)
      | .ok client =>
          (⟨.ok client, true⟩,
            { p with entries := makeRoom p.max p.entries.length p.entries ++
                [⟨scope, client, now, seq⟩] })

end ScopePool

section Entries

variable {entries es : List (Entry C)} {scope : Text} {now seq max : Nat}

theorem swapRemove_perm {α : Type} (a : List α) (x : α) (b : List α) :
    (swapRemove (a ++ x :: b) a.length).Perm (a ++ b) := by
  rcases List.eq_nil_or_concat b with rfl | ⟨b, last, rfl⟩
  · rw [swapRemove, List.getLast?_concat]
    dsimp only
    rw [List.set_append_right _ _ le_rfl, Nat.sub_self, List.set_cons_zero, List.dropLast_concat,
      List.append_nil]
  · have hlast : (a ++ x :: b.concat last).getLast? = some last := by
      rw [List.concat_eq_append, ← List.cons_append, ← List.append_assoc, List.getLast?_concat]
    rw [swapRemove, hlast]
    dsimp only
    rw [List.set_append_right _ _ le_rfl, Nat.sub_self, List.set_cons_zero, List.concat_eq_append,
      ← List.cons_append, ← List.append_assoc, List.dropLast_concat]
    exact List.Perm.append_left a (List.perm_append_singleton last b).symm

/-- The server that is closed is the one that was read before all others. -/
theorem closeLeastRecent_perm {last : Entry C} (hperm : entries.Perm (es ++ [last]))
    (hseq : (es ++ [last]).Pairwise fun a b => b.seq < a.seq) :
    (closeLeastRecent entries).Perm es := by
  obtain ⟨-, -, hlast⟩ := List.pairwise_append.mp hseq
  have hleast : ∀ e ∈ entries, last.seq ≤ e.seq := by
    intro e he
    rcases List.mem_append.mp (hperm.mem_iff.mp he) with h | h
    · exact (hlast e h last List.mem_cons_self).le
    · rw [List.mem_singleton.mp h]
  cases hfind : leastRecent entries with
  | none =>
      have hmem : last ∈ entries :=
        hperm.mem_iff.mpr (List.mem_append_right _ List.mem_cons_self)
      have hnot := List.findIdx?_eq_none_iff.mp hfind last hmem
      rw [List.all_eq_true.mpr fun e he => decide_eq_true (hleast e he)] at hnot
      cases hnot
  | some i =>
      obtain ⟨hi, hall, -⟩ := List.findIdx?_eq_some_iff_getElem.mp hfind
      have hsplit : entries = entries.take i ++ entries[i] :: entries.drop (i + 1) := by
        rw [← List.drop_eq_getElem_cons hi, List.take_append_drop]
      have hlength : (entries.take i).length = i := List.length_take_of_le hi.le
      have hmem : entries[i] ∈ es ++ [last] := hperm.mem_iff.mp (List.getElem_mem hi)
      have heq : entries[i] = last := by
        rcases List.mem_append.mp hmem with h | h
        · have hlt := hlast _ h last List.mem_cons_self
          have hle := of_decide_eq_true (List.all_eq_true.mp hall last
            (hperm.mem_iff.mpr (List.mem_append_right _ List.mem_cons_self)))
          omega
        · exact List.mem_singleton.mp h
      have hremove := swapRemove_perm (entries.take i) entries[i] (entries.drop (i + 1))
      rw [← hsplit, hlength] at hremove
      rw [closeLeastRecent, hfind]
      refine hremove.trans ?_
      have hmiddle : (entries[i] :: (entries.take i ++ entries.drop (i + 1))).Perm
          (last :: es) := by
        refine List.perm_middle.symm.trans ?_
        rw [← hsplit]
        exact hperm.trans (List.perm_append_singleton last es)
      rw [heq] at hmiddle
      exact hmiddle.cons_inv

/-- Room is made by closing the least recently read server of a full pool. -/
theorem makeRoom_perm (hperm : entries.Perm es) (hseq : es.Pairwise fun a b => b.seq < a.seq)
    (hle : es.length ≤ max) (hmax : 0 < max) :
    (makeRoom max entries.length entries).Perm (es.take (max - 1)) := by
  have hlength := hperm.length_eq
  rcases Nat.lt_or_ge entries.length max with hlt | hge
  · have hsame : makeRoom max entries.length entries = entries := by
      cases hrounds : entries.length with
      | zero => rfl
      | succ rounds => rw [makeRoom, if_neg (by omega)]
    rw [hsame, List.take_of_length_le (by omega)]
    exact hperm
  · rcases List.eq_nil_or_concat es with rfl | ⟨init, last, rfl⟩
    · rw [List.length_nil] at hlength
      omega
    · rw [List.concat_eq_append] at *
      rw [List.length_append, List.length_singleton] at hle hlength
      have hclosed := closeLeastRecent_perm hperm hseq
      have hleft : (closeLeastRecent entries).length = max - 1 := by
        rw [hclosed.length_eq]
        omega
      have hroom : makeRoom max entries.length entries = closeLeastRecent entries := by
        rw [hlength, makeRoom, if_pos hge]
        cases hrounds : init.length with
        | zero => rfl
        | succ rounds => rw [makeRoom, if_neg (by omega)]
      rw [hroom, List.take_append_of_le_length (by omega), List.take_of_length_le (by omega)]
      exact hclosed

theorem swapRemove_subset {α : Type} (xs : List α) (i : Nat) : swapRemove xs i ⊆ xs := by
  rw [swapRemove]
  cases hlast : xs.getLast? with
  | none => exact List.nil_subset _
  | some last =>
      intro x hx
      rcases List.mem_or_eq_of_mem_set (List.mem_of_mem_dropLast hx) with h | rfl
      · exact h
      · exact List.mem_of_getLast? hlast

/-- Making room only closes servers. -/
theorem makeRoom_subset (max rounds : Nat) (entries : List (Entry C)) :
    makeRoom max rounds entries ⊆ entries := by
  induction rounds generalizing entries with
  | zero => exact List.Subset.refl _
  | succ rounds ih =>
      rw [makeRoom]
      split
      · refine List.Subset.trans (ih _) ?_
        rw [closeLeastRecent]
        split
        · exact swapRemove_subset _ _
        · exact List.Subset.refl _
      · exact List.Subset.refl _

/-- What a read of an entry does. -/
theorem readFirst_eq_some {client : C} {read : List (Entry C)}
    (h : readFirst scope now seq entries = some (client, read)) : ∃ a e b,
      entries = a ++ e :: b ∧ e.scope = scope ∧ e.client = client ∧
        read = a ++ { e with lastUsed := now, seq := seq } :: b := by
  induction entries generalizing read with
  | nil => cases h
  | cons e rest ih =>
      rw [readFirst] at h
      split at h
      · next hscope =>
          cases h
          exact ⟨[], e, rest, rfl, hscope, rfl, rfl⟩
      · obtain ⟨⟨client', read'⟩, hrest, heq⟩ := Option.map_eq_some_iff.mp h
        cases heq
        obtain ⟨a, e', b, rfl, hscope, hclient, rfl⟩ := ih hrest
        exact ⟨e :: a, e', b, rfl, hscope, hclient, rfl⟩

theorem readFirst_eq_none : readFirst scope now seq entries = none ↔
    ∀ e ∈ entries, e.scope ≠ scope := by
  induction entries with
  | nil => simp [readFirst]
  | cons e rest ih =>
      rw [readFirst, List.forall_mem_cons]
      by_cases hscope : e.scope = scope
      · simp [hscope]
      · rw [if_neg hscope, Option.map_eq_none_iff, ih]
        exact ⟨fun h => ⟨hscope, h⟩, fun h => h.2⟩

end Entries

end Genaryx.Memory
