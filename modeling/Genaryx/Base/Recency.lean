import Mathlib.Data.List.Induction
import Mathlib.Data.List.Nodup

/-!
# Items by how recent they are

A list of items that have keys, newest first, where an item that comes again comes to the front.
The newest few of the items that meet a condition are those of the newest few that meet it, if
an item that meets it is newer than those that do not.
-/

namespace Genaryx.Base.Recency

variable {α κ : Type*} [DecidableEq κ] (key : α → κ)

/-- An item comes to the front, in place of the one with its key. -/
def toFront (x : α) (xs : List α) : List α := x :: xs.filter fun y => key y ≠ key x

/-- The last item of each key, newest first. -/
def newestFirst (items : List α) : List α := items.foldl (fun xs x => toFront key x xs) []

variable {key} {x y : α} {xs items : List α} {n : Nat} {p : α → Bool}

theorem newestFirst_concat (items : List α) (x : α) :
    newestFirst key (items ++ [x]) = toFront key x (newestFirst key items) := by
  rw [newestFirst, List.foldl_append]
  rfl

theorem mem_toFront : y ∈ toFront key x xs ↔ y = x ∨ y ∈ xs ∧ key y ≠ key x := by
  rw [toFront, List.mem_cons, List.mem_filter, decide_eq_true_eq]

theorem mem_of_mem_newestFirst (h : y ∈ newestFirst key items) : y ∈ items := by
  induction items using List.reverseRecOn with
  | nil => cases h
  | append_singleton items x ih =>
      rw [newestFirst_concat, mem_toFront] at h
      rcases h with rfl | ⟨h, -⟩
      · exact List.mem_append_right _ List.mem_cons_self
      · exact List.mem_append_left _ (ih h)

theorem nodup_map_toFront (h : (xs.map key).Nodup) : ((toFront key x xs).map key).Nodup := by
  rw [toFront, List.map_cons, List.nodup_cons]
  refine ⟨fun hmem => ?_, (List.filter_sublist.map key).nodup h⟩
  obtain ⟨y, hy, hkey⟩ := List.mem_map.mp hmem
  exact of_decide_eq_true (List.mem_filter.mp hy).2 hkey

theorem nodup_map_newestFirst (items : List α) : ((newestFirst key items).map key).Nodup := by
  induction items using List.reverseRecOn with
  | nil => exact List.nodup_nil
  | append_singleton items x ih =>
      rw [newestFirst_concat]
      exact nodup_map_toFront ih

/-- Items that come in an order are newest first in the order turned around. -/
theorem pairwise_newestFirst {r : α → α → Prop} (h : items.Pairwise r) :
    (newestFirst key items).Pairwise fun a b => r b a := by
  induction items using List.reverseRecOn with
  | nil => exact List.Pairwise.nil
  | append_singleton items x ih =>
      obtain ⟨hitems, -, hlast⟩ := List.pairwise_append.mp h
      rw [newestFirst_concat, toFront, List.pairwise_cons]
      refine ⟨fun y hy => ?_, (ih hitems).filter _⟩
      exact hlast y (mem_of_mem_newestFirst (List.mem_filter.mp hy).1) x List.mem_cons_self

/-- What stays of the newest few is the newest few of what stays. -/
theorem filter_take (h : xs.Pairwise fun a b => p b = true → p a = true) (n : Nat) :
    (xs.take n).filter p = (xs.filter p).take n := by
  induction xs generalizing n with
  | nil => simp
  | cons x xs ih =>
      obtain ⟨hx, hxs⟩ := List.pairwise_cons.mp h
      cases n with
      | zero => rfl
      | succ n =>
          cases hp : p x with
          | true => rw [List.take_succ_cons, List.filter_cons_of_pos hp,
              List.filter_cons_of_pos hp, List.take_succ_cons, ih hxs]
          | false =>
              have hnone : ∀ ys ⊆ xs, (x :: ys).filter p = [] := by
                intro ys hys
                rw [List.filter_eq_nil_iff]
                intro y hy hpy
                rcases List.mem_cons.mp hy with rfl | hy
                · rw [hp] at hpy
                  cases hpy
                · rw [hx y (hys hy) hpy] at hp
                  cases hp
              rw [List.take_succ_cons, hnone _ (List.take_subset n xs), hnone _ (List.Subset.refl xs),
                List.take_nil]

theorem filter_toFront (hx : p x = true) :
    (toFront key x xs).filter p = toFront key x (xs.filter p) := by
  rw [toFront, List.filter_cons_of_pos hx, toFront, List.filter_filter, List.filter_filter]
  simp only [Bool.and_comm]

/-- An item that was among the newest few takes the front of them. -/
theorem take_toFront_of_mem (hnodup : (xs.map key).Nodup) (hy : y ∈ xs.take n)
    (hkey : key y = key x) : (toFront key x xs).take n = toFront key x (xs.take n) := by
  cases n with
  | zero => cases hy
  | succ n =>
      rw [toFront, List.take_succ_cons, toFront]
      refine congrArg (x :: ·) ?_
      induction xs generalizing n with
      | nil => cases hy
      | cons z xs ih =>
          rw [List.map_cons, List.nodup_cons] at hnodup
          by_cases hz : key z = key x
          · have hrest : xs.filter (fun y => key y ≠ key x) = xs :=
              List.filter_eq_self.mpr fun w hw => decide_eq_true fun hkw =>
                hnodup.1 (hz.trans hkw.symm ▸ List.mem_map_of_mem hw)
            have htake : (xs.take n).filter (fun y => key y ≠ key x) = xs.take n :=
              List.filter_eq_self.mpr fun w hw => decide_eq_true fun hkw =>
                hnodup.1 (hz.trans hkw.symm ▸ List.mem_map_of_mem (List.mem_of_mem_take hw))
            rw [List.take_succ_cons, List.filter_cons_of_neg (by simpa using hz),
              List.filter_cons_of_neg (by simpa using hz), hrest, htake]
          · have hne : y ≠ z := fun h => hz (h ▸ hkey)
            rw [List.take_succ_cons, List.mem_cons] at hy
            have hmem := hy.resolve_left hne
            cases n with
            | zero => cases hmem
            | succ n =>
                rw [List.take_succ_cons, List.filter_cons_of_pos (by simpa using hz),
                  List.filter_cons_of_pos (by simpa using hz), List.take_succ_cons,
                  ih hnodup.2 n hmem]

/-- An item that was not among the newest few takes the place of the oldest of them. -/
theorem take_toFront_of_notMem (h : ∀ y ∈ xs.take n, key y ≠ key x) (hn : 0 < n) :
    (toFront key x xs).take n = x :: xs.take (n - 1) := by
  obtain ⟨n, rfl⟩ : ∃ k, n = k + 1 := ⟨n - 1, by omega⟩
  rw [toFront, List.take_succ_cons, Nat.add_sub_cancel]
  refine congrArg (x :: ·) ?_
  induction xs generalizing n with
  | nil => simp
  | cons z xs ih =>
      rw [List.take_succ_cons, List.forall_mem_cons] at h
      rw [List.filter_cons_of_pos (by simpa using h.1)]
      cases n with
      | zero => rfl
      | succ n => rw [List.take_succ_cons, List.take_succ_cons, ih n h.2 (Nat.succ_pos n)]

end Genaryx.Base.Recency
