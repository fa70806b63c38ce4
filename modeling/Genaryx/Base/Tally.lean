import Std.Data.TreeMap.Lemmas
import Mathlib.Algebra.BigOperators.Group.List.Lemmas
import Mathlib.Algebra.GroupWithZero.Nat
import Mathlib.Data.List.Dedup
import Mathlib.Data.List.Count

/-!
# Tallies

Counts by key: the groups of a table with how many rows each one has, and maps whose entries
are made on first use and then changed. Adding up the groups counts the rows, and a measure
that every change adds to is, at each key, what the changes of that key add.
-/

namespace Genaryx.Base

section Groups

variable {β γ : Type} [DecidableEq γ]

/-- The keys of the rows, each with the number of rows that have it. -/
def groupCounts (key : β → γ) (rows : List β) : List (γ × Nat) :=
  (rows.map key).dedup.map fun g => (g, (rows.map key).count g)

/-- The groups that meet a condition have as many rows as meet it. -/
theorem sum_groupCounts (key : β → γ) (p : γ → Bool) (rows : List β) :
    (((groupCounts key rows).filter fun g => p g.1).map Prod.snd).sum =
      rows.countP fun row => p (key row) := by
  have hmap : ((groupCounts key rows).filter fun g => p g.1).map Prod.snd =
      ((rows.map key).dedup.filter p).map fun g => (rows.map key).count g := by
    rw [groupCounts, List.filter_map, List.map_map]
    rfl
  rw [hmap, List.sum_map_count_dedup_filter_eq_countP, List.countP_map]
  rfl

/-- What counts for nothing can be left out of a sum. -/
theorem sum_map_ite (p : β → Prop) [DecidablePred p] (f : β → Nat) (xs : List β) :
    (xs.map fun x => if p x then f x else 0).sum =
      ((xs.filter fun x => decide (p x)).map f).sum := by
  induction xs with
  | nil => rfl
  | cons x xs ih =>
      rw [List.map_cons, List.sum_cons, ih, List.filter_cons]
      by_cases h : p x
      · rw [if_pos h, if_pos (decide_eq_true h), List.map_cons, List.sum_cons]
      · rw [if_neg h, if_neg (by simpa using h), Nat.zero_add]

/-- A group is the group of a row. -/
theorem exists_key_of_mem_groupCounts {key : β → γ} {rows : List β} {g : γ × Nat}
    (h : g ∈ groupCounts key rows) : ∃ row ∈ rows, key row = g.1 := by
  obtain ⟨k, hk, rfl⟩ := List.mem_map.mp h
  exact List.mem_map.mp (List.mem_dedup.mp hk)

/-- A group is counted as often as rows have its key. -/
theorem snd_of_mem_groupCounts {key : β → γ} {rows : List β} {g : γ × Nat}
    (h : g ∈ groupCounts key rows) :
    g.2 = (rows.filter fun row => key row = g.1).length := by
  obtain ⟨k, -, rfl⟩ := List.mem_map.mp h
  rw [← List.countP_eq_length_filter, List.count, List.countP_map]
  exact List.countP_congr fun row _ => by simp

end Groups

section Bump

open Std

variable {κ α β : Type} [Ord κ] [TransOrd κ] [LawfulEqOrd κ] [DecidableEq κ] (new : κ → α)

/-- Change the entry of a key, which is made first if it is not there. -/
def bump (m : TreeMap κ α) (k : κ) (change : α → α) : TreeMap κ α :=
  m.alter k fun entry => some (change (entry.getD (new k)))

/-- The entry of a key, or what it would be made as. -/
def entryOf (m : TreeMap κ α) (k : κ) : α := (m[k]?).getD (new k)

omit [LawfulEqOrd κ] [DecidableEq κ] in
theorem entryOf_empty (k : κ) : entryOf new ∅ k = new k := by
  rw [entryOf, TreeMap.getElem?_emptyc, Option.getD_none]

theorem entryOf_bump (m : TreeMap κ α) (k : κ) (change : α → α) (k' : κ) :
    entryOf new (bump new m k change) k' =
      if k = k' then change (entryOf new m k') else entryOf new m k' := by
  rw [entryOf, bump, TreeMap.getElem?_alter]
  by_cases h : k = k'
  · subst h
    rw [if_pos compare_self, if_pos rfl]
    rfl
  · rw [if_neg (fun heq => h (LawfulEqCmp.eq_of_compare heq)), if_neg h]
    rfl

/-- An entry is changed by the changes of its key, one after another. -/
theorem entryOf_foldl_bump (key : β → κ) (change : β → α → α) (m : TreeMap κ α) (xs : List β)
    (k : κ) :
    entryOf new (xs.foldl (fun m x => bump new m (key x) (change x)) m) k =
      (xs.filter fun x => key x = k).foldl (fun a x => change x a) (entryOf new m k) := by
  induction xs generalizing m with
  | nil => rfl
  | cons x xs ih =>
      rw [List.foldl_cons, ih, entryOf_bump]
      by_cases h : key x = k
      · rw [if_pos h, List.filter_cons, if_pos (decide_eq_true h), List.foldl_cons]
      · rw [if_neg h, List.filter_cons, if_neg (by simpa using h)]

/-- A measure that the changes add to is, at a key, what the changes of that key add. -/
theorem measure_foldl_bump (key : β → κ) {change : β → α → α} {measure : α → Nat}
    {weight : β → Nat} (hadd : ∀ x a, measure (change x a) = measure a + weight x)
    (m : TreeMap κ α) (xs : List β) (k : κ) :
    measure (entryOf new (xs.foldl (fun m x => bump new m (key x) (change x)) m) k) =
      measure (entryOf new m k) + ((xs.filter fun x => key x = k).map weight).sum := by
  induction xs generalizing m with
  | nil => rfl
  | cons x xs ih =>
      rw [List.foldl_cons, ih, entryOf_bump]
      by_cases h : key x = k
      · rw [if_pos h, hadd, List.filter_cons, if_pos (decide_eq_true h), List.map_cons,
          List.sum_cons, Nat.add_assoc]
      · rw [if_neg h, List.filter_cons, if_neg (by simpa using h)]

/-- Every entry carries the key it is filed under. -/
def NamedBy (name : α → κ) (m : TreeMap κ α) : Prop := ∀ k a, m[k]? = some a → name a = k

variable {new} {name : α → κ}

omit [LawfulEqOrd κ] [DecidableEq κ] in
theorem namedBy_empty : NamedBy name (∅ : TreeMap κ α) := fun k a h => by
  rw [TreeMap.getElem?_emptyc] at h
  cases h

omit [DecidableEq κ] in
theorem NamedBy.bump {m : TreeMap κ α} (h : NamedBy name m) (hnew : ∀ k, name (new k) = k)
    {change : α → α} (hchange : ∀ a, name (change a) = name a) (k : κ) :
    NamedBy name (bump new m k change) := by
  intro k' a ha
  rw [Base.bump, TreeMap.getElem?_alter] at ha
  split at ha
  · next heq =>
      obtain rfl := LawfulEqCmp.eq_of_compare heq
      obtain rfl := Option.some.inj ha
      rw [hchange]
      cases hm : m[k]? with
      | none => exact hnew k
      | some b => exact h k b hm
  · exact h k' a ha

omit [DecidableEq κ] in
theorem NamedBy.foldl_bump {m : TreeMap κ α} (h : NamedBy name m)
    (hnew : ∀ k, name (new k) = k) {key : β → κ} {change : β → α → α}
    (hchange : ∀ x a, name (change x a) = name a) (xs : List β) :
    NamedBy name (xs.foldl (fun m x => Base.bump new m (key x) (change x)) m) := by
  induction xs generalizing m with
  | nil => exact h
  | cons x xs ih => exact ih (h.bump hnew (hchange x) (key x))

/-- The entries in key order, searched by name, are the map. -/
theorem NamedBy.find?_entries {m : TreeMap κ α} (h : NamedBy name m) (k : κ) :
    (m.toList.map Prod.snd).find? (fun a => name a = k) = m[k]? := by
  have hentry : ∀ {a}, a ∈ m.toList.map Prod.snd → m[name a]? = some a := by
    intro a ha
    obtain ⟨⟨k', a'⟩, hmem, rfl⟩ := List.mem_map.mp ha
    have hget := TreeMap.mem_toList_iff_getElem?_eq_some.mp hmem
    rwa [h k' a' hget]
  cases hfind : (m.toList.map Prod.snd).find? (fun a => name a = k) with
  | some a =>
      have hname : name a = k := by simpa using List.find?_some hfind
      rw [← hname, hentry (List.mem_of_find?_eq_some hfind)]
  | none =>
      cases hget : m[k]? with
      | none => rfl
      | some a =>
          have hmem : a ∈ m.toList.map Prod.snd :=
            List.mem_map.mpr ⟨(k, a), TreeMap.mem_toList_iff_getElem?_eq_some.mpr hget, rfl⟩
          have hname := List.find?_eq_none.mp hfind a hmem
          exact absurd (h k a hget) (by simpa using hname)

end Bump

section Totals

open Std

variable {κ α β : Type} [Ord κ] [TransOrd κ] [LawfulEqOrd κ] [DecidableEq κ] {new : κ → α}

/-- What a measure adds up to over all entries. -/
def totalOf (measure : α → Nat) (m : TreeMap κ α) : Nat :=
  (m.toList.map fun entry => measure entry.2).sum

/-- The entries beside that of a key. -/
def besides (m : TreeMap κ α) (k : κ) : List (κ × α) := m.toList.filter fun entry => !(k == entry.1)

theorem totalOf_insert (measure : α → Nat) (m : TreeMap κ α) (k : κ) (a : α) :
    totalOf measure (m.insert k a) =
      measure a + ((besides m k).map fun entry => measure entry.2).sum := by
  have hperm : (m.insert k a).toList.Perm ((k, a) :: besides m k) := by
    rw [besides]
    exact (TreeMap.toList_insert_perm (t := m) (k := k) (v := a)).trans
      (List.Perm.of_eq (congrArg _ (List.filter_congr fun entry _ => by
        simp only [Bool.not_eq_true, Bool.decide_eq_false])))
  rw [totalOf, (hperm.map fun entry => measure entry.2).sum_eq, List.map_cons, List.sum_cons]

/-- The entry of a key and the others make up the total. -/
theorem totalOf_eq {measure : α → Nat} (hnew : ∀ k, measure (new k) = 0) (m : TreeMap κ α)
    (k : κ) : totalOf measure m =
      measure (entryOf new m k) + ((besides m k).map fun entry => measure entry.2).sum := by
  rw [entryOf]
  cases hget : m[k]? with
  | some a =>
      have hequiv : m.Equiv (m.insert k a) := TreeMap.Equiv.of_forall_constGet?_eq fun k' => by
        rw [TreeMap.getElem?_insert]
        split
        · next h => rw [← LawfulEqCmp.eq_of_compare h, hget]
        · rfl
      rw [Option.getD_some, ← totalOf_insert, totalOf, totalOf, hequiv.toList_eq]
  | none =>
      have hall : besides m k = m.toList := List.filter_eq_self.mpr fun entry hentry => by
        have hsome := TreeMap.mem_toList_iff_getElem?_eq_some.mp hentry
        rw [Bool.not_eq_true', beq_eq_false_iff_ne]
        rintro rfl
        rw [hget] at hsome
        cases hsome
      rw [Option.getD_none, hnew, Nat.zero_add, hall, totalOf]

/-- A change that adds to an entry adds to the total. -/
theorem totalOf_bump {measure : α → Nat} (hnew : ∀ k, measure (new k) = 0) {change : α → α}
    {weight : Nat} (hadd : ∀ a, measure (change a) = measure a + weight) (m : TreeMap κ α) (k : κ) :
    totalOf measure (bump new m k change) = totalOf measure m + weight := by
  have hequiv : (bump new m k change).Equiv (m.insert k (change (entryOf new m k))) :=
    TreeMap.Equiv.of_forall_constGet?_eq fun k' => by
      rw [bump, TreeMap.getElem?_alter, TreeMap.getElem?_insert]
      rfl
  have hinsert := totalOf_insert measure m k (change (entryOf new m k))
  rw [totalOf, hequiv.toList_eq]
  rw [totalOf] at hinsert
  rw [hinsert, hadd, totalOf_eq hnew m k]
  omega

theorem totalOf_foldl_bump {measure : α → Nat} (hnew : ∀ k, measure (new k) = 0) {key : β → κ}
    {change : β → α → α} {weight : β → Nat}
    (hadd : ∀ x a, measure (change x a) = measure a + weight x) (m : TreeMap κ α) (xs : List β) :
    totalOf measure (xs.foldl (fun m x => bump new m (key x) (change x)) m) =
      totalOf measure m + (xs.map weight).sum := by
  induction xs generalizing m with
  | nil => rfl
  | cons x xs ih =>
      rw [List.foldl_cons, ih, totalOf_bump hnew (hadd x), List.map_cons, List.sum_cons,
        Nat.add_assoc]

end Totals

end Genaryx.Base
