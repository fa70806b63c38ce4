import Mathlib.Data.List.AList
import Mathlib.Data.List.Induction

/-!
# Writes to a map

Writing entries one after another leaves under each key what was last written there.
-/

namespace Genaryx.Base.Writes

variable {α : Type*} {β : Type*} [DecidableEq α]

/-- The map after all writes, in order. -/
def writeAll (writes : List (α × β)) (m : AList fun _ : α => β) : AList fun _ : α => β :=
  writes.foldl (fun m w => m.insert w.1 w.2) m

/-- What was last written under a key. -/
def lastWrite (writes : List (α × β)) (key : α) : Option β :=
  (writes.reverse.find? fun w => w.1 = key).map Prod.snd

theorem writeAll_append (xs ys : List (α × β)) (m : AList fun _ : α => β) :
    writeAll (xs ++ ys) m = writeAll ys (writeAll xs m) :=
  List.foldl_append

theorem lastWrite_concat (writes : List (α × β)) (w : α × β) (key : α) :
    lastWrite (writes ++ [w]) key = if w.1 = key then some w.2 else lastWrite writes key := by
  rw [lastWrite, List.reverse_concat]
  by_cases h : w.1 = key
  · rw [List.find?_cons_of_pos (by simpa using h), if_pos h, Option.map_some]
  · rw [List.find?_cons_of_neg (by simpa using h), if_neg h, lastWrite]

/-- After the writes a key holds what was last written there, or what it held before. -/
theorem lookup_writeAll (writes : List (α × β)) (m : AList fun _ : α => β) (key : α) :
    (writeAll writes m).lookup key = (lastWrite writes key).or (m.lookup key) := by
  induction writes using List.reverseRecOn with
  | nil => rfl
  | append_singleton writes w ih =>
      rw [writeAll_append, lastWrite_concat]
      by_cases h : w.1 = key
      · subst h
        rw [if_pos rfl]
        exact AList.lookup_insert _
      · rw [if_neg h, ← ih]
        exact AList.lookup_insert_ne (Ne.symm h)

theorem lastWrite_eq_none_iff {writes : List (α × β)} {key : α} :
    lastWrite writes key = none ↔ key ∉ writes.map Prod.fst := by
  rw [lastWrite, Option.map_eq_none_iff, List.find?_eq_none]
  simp only [List.mem_reverse, decide_eq_true_eq, List.mem_map, not_exists, not_and]

theorem mem_of_lastWrite {writes : List (α × β)} {key : α} {value : β}
    (h : lastWrite writes key = some value) : (key, value) ∈ writes := by
  obtain ⟨w, hw, rfl⟩ := Option.map_eq_some_iff.mp h
  have hkey : w.1 = key := by simpa using List.find?_some hw
  exact hkey ▸ List.mem_reverse.mp (List.mem_of_find?_eq_some hw)

/-- What was last written under a key is a write that none under the key follows. -/
theorem lastWrite_eq_some_iff {writes : List (α × β)} {key : α} {value : β} :
    lastWrite writes key = some value ↔
      ∃ before after, writes = before ++ (key, value) :: after ∧ ∀ w ∈ after, w.1 ≠ key := by
  induction writes using List.reverseRecOn with
  | nil => simp [lastWrite]
  | append_singleton writes w ih =>
      rw [lastWrite_concat]
      constructor
      · intro h
        split at h
        · next hkey =>
            cases h
            exact ⟨writes, [], by rw [← hkey], fun _ h => absurd h List.not_mem_nil⟩
        · next hkey =>
            obtain ⟨before, after, rfl, hafter⟩ := ih.mp h
            refine ⟨before, after ++ [w], by simp, ?_⟩
            exact List.forall_mem_append.mpr ⟨hafter, List.forall_mem_singleton.mpr hkey⟩
      · rintro ⟨before, after, heq, hafter⟩
        rcases List.eq_nil_or_concat after with rfl | ⟨after, last, rfl⟩
        · obtain ⟨-, hw⟩ := List.append_inj' heq rfl
          rw [List.singleton_inj.mp hw, if_pos rfl]
        · rw [List.concat_eq_append, ← List.cons_append, ← List.append_assoc] at heq
          obtain ⟨hwrites, hw⟩ := List.append_inj' heq rfl
          obtain rfl := List.singleton_inj.mp hw
          rw [List.concat_eq_append] at hafter
          obtain ⟨hafter, hlast⟩ := List.forall_mem_append.mp hafter
          rw [if_neg (hlast w (List.mem_singleton_self w))]
          exact ih.mpr ⟨before, after, hwrites, hafter⟩

theorem lastWrite_map {γ : Type*} (f : β → γ) (writes : List (α × β)) (key : α) :
    lastWrite (writes.map fun w => (w.1, f w.2)) key = (lastWrite writes key).map f := by
  induction writes using List.reverseRecOn with
  | nil => rfl
  | append_singleton writes w ih =>
      rw [List.map_append, List.map_singleton, lastWrite_concat, lastWrite_concat, ih]
      split <;> rfl

end Genaryx.Base.Writes
