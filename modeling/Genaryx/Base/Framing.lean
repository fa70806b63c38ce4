import Mathlib.Algebra.GroupWithZero.Nat
import Mathlib.Data.List.Basic

/-!
# Splitting a byte stream into frames

A framing says where the first complete frame of a buffer ends. Its answer may not
change when more input arrives, so cutting frames off one by one gives the same frames
whether the input arrives at once or in pieces.
-/

namespace Genaryx.Base

/-- A rule that finds the first complete frame: how long its content is and how much of
the buffer it consumes, terminator included. -/
structure Framing (β : Type*) where
  next : List β → Option (Nat × Nat)
  next_bounds : ∀ {b len used}, next b = some (len, used) → len < used ∧ used ≤ b.length
  next_append : ∀ {b p}, next b = some p → ∀ c, next (b ++ c) = some p

namespace Framing

variable {β : Type*} (F : Framing β)

/-- Cut complete frames off the buffer until none is left: the frames and the rest. -/
def split (b : List β) : List (List β) × List β :=
  match _h : F.next b with
  | none => ([], b)
  | some (len, used) =>
      let tail := split (b.drop used)
      (b.take len :: tail.1, tail.2)
termination_by b.length
decreasing_by
  have hused := F.next_bounds _h
  simp only [List.length_drop]
  omega


theorem split_of_none {b : List β} (h : F.next b = none) : F.split b = ([], b) := by
  rw [split]
  split
  · rfl
  · next hs => rw [h] at hs; cases hs

theorem split_of_some {b : List β} {len used : Nat} (h : F.next b = some (len, used)) :
    F.split b = (b.take len :: (F.split (b.drop used)).1, (F.split (b.drop used)).2) := by
  rw [split]
  split
  · next hs => rw [h] at hs; cases hs
  · next hs =>
      rw [h] at hs
      cases hs
      rfl

theorem length_drop_lt {b : List β} {len used : Nat} (h : F.next b = some (len, used)) :
    (b.drop used).length < b.length := by
  have hused := F.next_bounds h
  simp only [List.length_drop]
  omega

/-- The rest holds no complete frame. -/
theorem next_split_rest (b : List β) : F.next (F.split b).2 = none := by
  induction hn : b.length using Nat.strongRecOn generalizing b with
  | _ n ih =>
      cases h : F.next b with
      | none => rw [F.split_of_none h]; exact h
      | some p =>
          obtain ⟨len, used⟩ := p
          rw [F.split_of_some h]
          exact ih _ (hn ▸ F.length_drop_lt h) _ rfl

/-- Splitting a longer buffer goes on from the rest of the shorter one. -/
theorem split_append (a b : List β) :
    F.split (a ++ b) = ((F.split a).1 ++ (F.split ((F.split a).2 ++ b)).1,
      (F.split ((F.split a).2 ++ b)).2) := by
  induction hn : a.length using Nat.strongRecOn generalizing a with
  | _ n ih =>
      cases h : F.next a with
      | none => simp [F.split_of_none h]
      | some p =>
          obtain ⟨len, used⟩ := p
          have hdrop : (a ++ b).drop used = a.drop used ++ b :=
            List.drop_append_of_le_length (F.next_bounds h).2
          have htake : (a ++ b).take len = a.take len :=
            List.take_append_of_le_length (by have := F.next_bounds h; omega)
          rw [F.split_of_some h, F.split_of_some (F.next_append h b), hdrop, htake,
            ih _ (hn ▸ F.length_drop_lt h) _ rfl]
          simp

/-- The bytes that frames and their separators take. -/
def extent (frames : List (List β)) : Nat := (frames.map fun frame => frame.length + 1).sum

@[simp] theorem extent_nil : extent ([] : List (List β)) = 0 := rfl

@[simp] theorem extent_cons (frame : List β) (frames : List (List β)) :
    extent (frame :: frames) = frame.length + 1 + extent frames := by
  simp [extent]

theorem extent_append (xs ys : List (List β)) : extent (xs ++ ys) = extent xs + extent ys := by
  simp [extent]

section Delimited

variable [DecidableEq β] (sep : β)

/-- Frames that each end in one separator. -/
def delimited : Framing β where
  next b := (b.findIdx? (· = sep)).map fun i => (i, i + 1)
  next_bounds {b len used} h := by
    obtain ⟨i, hi, hpair⟩ := Option.map_eq_some_iff.mp h
    obtain ⟨hlt, _⟩ := List.findIdx?_eq_some_iff_getElem.mp hi
    cases hpair
    exact ⟨Nat.lt_succ_self len, hlt⟩
  next_append {b p} h c := by
    obtain ⟨i, hi, hpair⟩ := Option.map_eq_some_iff.mp h
    rw [List.findIdx?_append, hi]
    exact congrArg some hpair

variable {sep}

theorem findIdx?_sep_eq_none {b : List β} (h : sep ∉ b) : b.findIdx? (· = sep) = none := by
  rw [List.findIdx?_eq_none_iff]
  intro x hx
  exact decide_eq_false fun heq => h (heq ▸ hx)

/-- Without a separator there is no complete frame. -/
theorem delimited_split_of_not_mem {b : List β} (h : sep ∉ b) :
    (delimited sep).split b = ([], b) := by
  apply split_of_none
  simp only [delimited, findIdx?_sep_eq_none h, Option.map_none]

/-- The first frame ends at the first separator. -/
theorem delimited_split_append_cons {a : List β} (h : sep ∉ a) (b : List β) :
    (delimited sep).split (a ++ sep :: b) =
      (a :: ((delimited sep).split b).1, ((delimited sep).split b).2) := by
  have hnext : (delimited sep).next (a ++ sep :: b) = some (a.length, a.length + 1) := by
    simp [delimited, List.findIdx?_append, findIdx?_sep_eq_none h, List.findIdx?_cons]
  have hdrop : (a ++ sep :: b).drop (a.length + 1) = b := by simp
  rw [split_of_some _ hnext, List.take_left, hdrop]

/-- A buffer is the frames with their separators, and then the rest. -/
theorem delimited_split_spec (sep : β) (b : List β) :
    b = ((delimited sep).split b).1.flatMap (· ++ [sep]) ++ ((delimited sep).split b).2 := by
  induction hn : b.length using Nat.strongRecOn generalizing b with
  | _ n ih =>
      by_cases hmem : sep ∈ b
      · obtain ⟨a, c, rfl, ha⟩ := List.eq_append_cons_of_mem hmem
        rw [delimited_split_append_cons ha]
        have hlen : c.length < n := by
          rw [← hn, List.length_append, List.length_cons]
          omega
        conv_lhs => rw [ih _ hlen c rfl]
        simp
      · rw [delimited_split_of_not_mem hmem]
        rfl

theorem extent_split_add_length_rest (b : List β) :
    extent ((delimited sep).split b).1 + ((delimited sep).split b).2.length = b.length := by
  conv_rhs => rw [delimited_split_spec sep b]
  simp [extent, List.length_flatMap]

theorem extent_split_le (b : List β) : extent ((delimited sep).split b).1 ≤ b.length :=
  Nat.le.intro (extent_split_add_length_rest b)

/-- Past its complete frames a buffer goes on with the rest. -/
theorem drop_extent_split (b : List β) :
    b.drop (extent ((delimited sep).split b).1) = ((delimited sep).split b).2 := by
  have hspec := delimited_split_spec sep b
  have hlen : (((delimited sep).split b).1.flatMap (· ++ [sep])).length =
      extent ((delimited sep).split b).1 := by
    simp [extent, List.length_flatMap]
  calc b.drop (extent ((delimited sep).split b).1)
      = (((delimited sep).split b).1.flatMap (· ++ [sep]) ++ ((delimited sep).split b).2).drop
          (((delimited sep).split b).1.flatMap (· ++ [sep])).length := by rw [hlen, ← hspec]
    _ = ((delimited sep).split b).2 := List.drop_left

end Delimited

variable {σ ε : Type*}

/-- Apply frames to a state in order, collecting what each one puts out. -/
def consume (apply : σ → List β → List ε × σ) : σ → List (List β) → List ε × σ
  | s, [] => ([], s)
  | s, frame :: frames =>
      let here := apply s frame
      let tail := consume apply here.2 frames
      (here.1 ++ tail.1, tail.2)

theorem consume_append (apply : σ → List β → List ε × σ) (s : σ) (xs ys : List (List β)) :
    consume apply s (xs ++ ys) =
      ((consume apply s xs).1 ++ (consume apply (consume apply s xs).2 ys).1,
        (consume apply (consume apply s xs).2 ys).2) := by
  induction xs generalizing s with
  | nil => rfl
  | cons x xs ih => simp [consume, ih]

end Framing

end Genaryx.Base
