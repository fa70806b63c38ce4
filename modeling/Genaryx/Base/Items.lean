import Mathlib.Data.List.Basic

/-!
# Lists that are read item by item

A list is read if each of its items is, and then holds what they are read as.
-/

namespace Genaryx.Base

section Except

variable {ε ε' α β γ : Type}

/-- A step that succeeds, and what follows it. -/
theorem bind_eq_ok {x : Except ε α} {f : α → Except ε β} {b : β} (h : x >>= f = .ok b) :
    ∃ a, x = .ok a ∧ f a = .ok b := by
  cases x with
  | error e => cases h
  | ok a => exact ⟨a, rfl, h⟩

/-- A step that fails, or one that succeeds before what fails. -/
theorem bind_eq_error {x : Except ε α} {f : α → Except ε β} {e : ε} (h : x >>= f = .error e) :
    x = .error e ∨ ∃ a, x = .ok a ∧ f a = .error e := by
  cases x with
  | error e' => cases h; exact .inl rfl
  | ok a => exact .inr ⟨a, rfl, h⟩

theorem mapError_eq_ok {f : ε → ε'} {r : Except ε α} {a : α} (h : r.mapError f = .ok a) :
    r = .ok a := by
  cases r with
  | error e => cases h
  | ok b => cases h; rfl

theorem mapError_eq_error {f : ε → ε'} {r : Except ε α} {e' : ε'} (h : r.mapError f = .error e') :
    ∃ e, r = .error e ∧ f e = e' := by
  cases r with
  | error e => cases h; exact ⟨e, rfl, rfl⟩
  | ok a => cases h

theorem map_eq_ok_iff {x : Except ε α} {f : α → β} {b : β} :
    x.map f = .ok b ↔ ∃ a, x = .ok a ∧ b = f a := by
  cases x with
  | error e => exact ⟨nofun, fun ⟨_, h, _⟩ => nomatch h⟩
  | ok a =>
      constructor
      · intro h
        cases h
        exact ⟨a, rfl, rfl⟩
      · rintro ⟨a, ha, rfl⟩
        cases ha
        rfl

/-- Two steps that both succeed. -/
theorem bind_map_eq_ok_iff {x : Except ε α} {y : Except ε β} {f : α → β → γ} {c : γ} :
    (x.bind fun a => y.map (f a)) = .ok c ↔ ∃ a b, x = .ok a ∧ y = .ok b ∧ c = f a b := by
  cases x with
  | error e => exact ⟨nofun, fun ⟨_, _, h, _⟩ => nomatch h⟩
  | ok a =>
      refine map_eq_ok_iff.trans ⟨fun ⟨b, hb, hc⟩ => ⟨a, b, rfl, hb, hc⟩, ?_⟩
      rintro ⟨a, b, ha, hb, hc⟩
      cases ha
      exact ⟨b, hb, hc⟩

end Except

section Option

/-- Reading every item of a list that is read at all. -/
theorem mapM_eq_some_iff {α β : Type} {f : α → Option β} {items : List α} {read : List β} :
    items.mapM f = some read ↔
      (∀ item ∈ items, (f item).isSome = true) ∧ read = items.filterMap f := by
  induction items generalizing read with
  | nil =>
      simp only [List.mapM_nil, Option.pure_def, Option.some.injEq, List.not_mem_nil,
        false_imp_iff, implies_true, true_and, List.filterMap_nil]
      exact eq_comm
  | cons item rest ih =>
      rw [List.mapM_cons, List.forall_mem_cons]
      cases hitem : f item with
      | none => simp
      | some x =>
          rw [List.filterMap_cons_some hitem]
          constructor
          · intro h
            rw [Option.bind_eq_bind, Option.bind_some] at h
            obtain ⟨xs, hxs, htail⟩ := Option.bind_eq_some_iff.mp h
            obtain ⟨hall, rfl⟩ := ih.mp hxs
            cases htail
            exact ⟨⟨rfl, hall⟩, rfl⟩
          · rintro ⟨⟨-, hall⟩, rfl⟩
            rw [ih.mpr ⟨hall, rfl⟩]
            rfl

end Option

section Lists

variable {α β ε : Type} {f : α → Except ε β} {g : α → β} {xs : List α} {ys : List β}

theorem mapM_eq_ok (h : ∀ x ∈ xs, f x = .ok (g x)) : xs.mapM f = .ok (xs.map g) := by
  induction xs with
  | nil => rfl
  | cons x xs ih =>
      rw [List.mapM_cons, h x List.mem_cons_self,
        ih fun y hy => h y (List.mem_cons_of_mem x hy)]
      rfl

theorem mapM_cons_eq_ok {x : α} (h : (x :: xs).mapM f = .ok ys) :
    ∃ y rest, f x = .ok y ∧ xs.mapM f = .ok rest ∧ ys = y :: rest := by
  rw [List.mapM_cons] at h
  cases hx : f x with
  | error err => rw [hx] at h; cases h
  | ok y =>
      rw [hx] at h
      cases hxs : xs.mapM f with
      | error err => rw [hxs] at h; cases h
      | ok rest =>
          rw [hxs] at h
          cases h
          exact ⟨y, rest, rfl, rfl, rfl⟩

/-- A list that is read has as many items as were read. -/
theorem length_mapM (h : xs.mapM f = .ok ys) : ys.length = xs.length := by
  induction xs generalizing ys with
  | nil => cases h; rfl
  | cons x xs ih =>
      obtain ⟨y, rest, -, hrest, rfl⟩ := mapM_cons_eq_ok h
      rw [List.length_cons, List.length_cons, ih hrest]

theorem eq_map_of_mapM (h : xs.mapM f = .ok ys) (hf : ∀ x ∈ xs, ∀ y, f x = .ok y → y = g x) :
    ys = xs.map g := by
  induction xs generalizing ys with
  | nil => cases h; rfl
  | cons x xs ih =>
      obtain ⟨y, rest, hx, hxs, rfl⟩ := mapM_cons_eq_ok h
      rw [List.map_cons, hf x List.mem_cons_self y hx,
        ih hxs fun x' hx' => hf x' (List.mem_cons_of_mem x hx')]

/-- What a list is read as is what its items are read as. -/
theorem mem_iff_of_mapM (h : xs.mapM f = .ok ys) (y : β) : y ∈ ys ↔ ∃ x ∈ xs, f x = .ok y := by
  induction xs generalizing ys with
  | nil => cases h; simp
  | cons x xs ih =>
      obtain ⟨y', rest, hx, hxs, rfl⟩ := mapM_cons_eq_ok h
      simp only [List.mem_cons, exists_eq_or_imp, hx, Except.ok.injEq, ih hxs]
      rw [eq_comm]

/-- A fold goes on from where it stands. -/
theorem foldlM_append_ok {σ : Type} {f : σ → α → Except ε σ} {s s' : σ}
    (h : xs.foldlM f s = .ok s') (ys : List α) : (xs ++ ys).foldlM f s = ys.foldlM f s' := by
  rw [List.foldlM_append, h]
  rfl

/-- A fold fails at the first item that fails. -/
theorem foldlM_eq_error_iff {σ : Type} {f : σ → α → Except ε σ} {s : σ} {e : ε} :
    xs.foldlM f s = .error e ↔ ∃ before x after s', xs = before ++ x :: after ∧
      before.foldlM f s = .ok s' ∧ f s' x = .error e := by
  induction xs generalizing s with
  | nil =>
      constructor
      · intro h
        cases h
      · rintro ⟨before, x, after, s', hnil, -⟩
        exact absurd hnil.symm (List.append_ne_nil_of_right_ne_nil before (List.cons_ne_nil x after))
  | cons y xs ih =>
      rw [List.foldlM_cons]
      cases hy : f s y with
      | error e' =>
          constructor
          · intro h
            exact ⟨[], y, xs, s, rfl, rfl, hy.trans h⟩
          · rintro ⟨before, x, after, s', hcons, hbefore, hx⟩
            cases before with
            | nil =>
                cases hcons
                cases hbefore
                exact hy.symm.trans hx
            | cons z before =>
                cases hcons
                rw [List.foldlM_cons, hy] at hbefore
                cases hbefore
      | ok t =>
          refine Iff.trans (ih (s := t)) ?_
          constructor
          · rintro ⟨before, x, after, s', rfl, hbefore, hx⟩
            refine ⟨y :: before, x, after, s', rfl, ?_, hx⟩
            rw [List.foldlM_cons, hy]
            exact hbefore
          · rintro ⟨before, x, after, s', hcons, hbefore, hx⟩
            cases before with
            | nil =>
                cases hcons
                cases hbefore
                rw [hy] at hx
                cases hx
            | cons z before =>
                cases hcons
                rw [List.foldlM_cons, hy] at hbefore
                exact ⟨before, x, after, s', rfl, hbefore, hx⟩

end Lists

end Genaryx.Base
