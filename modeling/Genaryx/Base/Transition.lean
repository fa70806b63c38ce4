import Mathlib.Data.List.Induction
import Mathlib.Logic.Basic

/-!
# Runs of a partial step function

A system is a step function that is undefined where its guard fails. An invariant of one
step is an invariant of every run, and a step condition that holds all along a run gives
the invariants that need it.
-/

namespace Genaryx.Base.Transition

variable {σ α : Type*} (step : σ → α → Option σ)

/-- The state after all actions, if every step was possible. -/
def run : σ → List α → Option σ
  | s, [] => some s
  | s, a :: as =>
      match step s a with
      | none => none
      | some t => run t as

/-- Every step of the run meets the condition in the state it starts from. -/
def Along (P : σ → α → Prop) : σ → List α → Prop
  | _, [] => True
  | s, a :: as => P s a ∧ ∀ t, step s a = some t → Along P t as

/-- Check a step condition along a run. -/
def check (p : σ → α → Bool) : σ → List α → Bool
  | _, [] => true
  | s, a :: as =>
      p s a &&
        match step s a with
        | none => true
        | some t => check p t as

variable {step}

theorem along_of_check {p : σ → α → Bool} {s : σ} {as : List α} (h : check step p s as = true) :
    Along step (fun s a => p s a = true) s as := by
  induction as generalizing s with
  | nil => trivial
  | cons a as ih =>
      obtain ⟨ha, has⟩ := (Bool.and_eq_true _ _).mp h
      refine ⟨ha, fun t ht => ih ?_⟩
      rwa [ht] at has

theorem Along.imp {P Q : σ → α → Prop} (h : ∀ s a, P s a → Q s a) {s : σ} {as : List α}
    (halong : Along step P s as) : Along step Q s as := by
  induction as generalizing s with
  | nil => trivial
  | cons a as ih => exact ⟨h s a halong.1, fun t ht => ih (halong.2 t ht)⟩

/-- A condition holds along two runs, one after the other. -/
theorem along_append {P : σ → α → Prop} {s : σ} {l bs : List α} (hl : Along step P s l)
    (hbs : ∀ t, run step s l = some t → Along step P t bs) : Along step P s (l ++ bs) := by
  induction l generalizing s with
  | nil => exact hbs s rfl
  | cons a l ih =>
      refine ⟨hl.1, fun t ht => ih (hl.2 t ht) fun u hu => hbs u ?_⟩
      rw [run, ht]
      exact hu

theorem run_cons_eq_some {s u : σ} {a : α} {as : List α} (h : run step s (a :: as) = some u) :
    ∃ t, step s a = some t ∧ run step t as = some u := by
  rw [run] at h
  cases hstep : step s a with
  | none => rw [hstep] at h; cases h
  | some t => rw [hstep] at h; exact ⟨t, rfl, h⟩

theorem run_cons_of_step {s t : σ} {a : α} (h : step s a = some t) (as : List α) :
    run step s (a :: as) = run step t as := by
  rw [run, h]

/-- A condition holds along a run where each of its actions meets it in the state that the
actions before lead to. -/
theorem along_iff {P : σ → α → Prop} {s : σ} {as : List α} :
    Along step P s as ↔ ∀ before a after t, as = before ++ a :: after →
      run step s before = some t → P t a := by
  induction as generalizing s with
  | nil => simp [Along]
  | cons b as ih =>
      constructor
      · rintro ⟨hb, htail⟩ before a after t has hrun
        cases before with
        | nil =>
            cases has
            cases hrun
            exact hb
        | cons c before =>
            cases has
            obtain ⟨u, hu, hrun⟩ := run_cons_eq_some hrun
            exact ih.mp (htail u hu) before a after t rfl hrun
      · intro h
        refine ⟨h [] b as s rfl rfl, fun u hu => ih.mpr fun before a after t has hrun => ?_⟩
        exact h (b :: before) a after t (by rw [has]; rfl) (by rw [run, hu]; exact hrun)

/-- A condition holds along a run if it holds at the first step and along the rest. -/
theorem along_cons {P : σ → α → Prop} {s t : σ} {a : α} {as : List α} (ha : P s a)
    (hstep : step s a = some t) (htail : Along step P t as) : Along step P s (a :: as) :=
  ⟨ha, fun u hu => by rw [hstep] at hu; cases hu; exact htail⟩

/-- A condition that holds along a run holds along the rest of it. -/
theorem along_of_append {P : σ → α → Prop} {s t : σ} {as bs : List α}
    (h : Along step P s (as ++ bs)) (hrun : run step s as = some t) : Along step P t bs := by
  induction as generalizing s with
  | nil => cases hrun; exact h
  | cons a as ih =>
      obtain ⟨u, hu, hrest⟩ := run_cons_eq_some hrun
      exact ih (h.2 u hu) hrest

theorem run_append (s : σ) (as bs : List α) :
    run step s (as ++ bs) = (run step s as).bind fun t => run step t bs := by
  induction as generalizing s with
  | nil => rfl
  | cons a as ih =>
      rw [List.cons_append, run, run]
      cases step s a with
      | none => rfl
      | some t => exact ih t

/-- What each step preserves under its condition, a run whose steps all meet the
condition preserves. -/
theorem run_invariant_along {P : σ → α → Prop} {I : σ → Prop}
    (hstep : ∀ s a t, I s → P s a → step s a = some t → I t) {s u : σ} {as : List α}
    (halong : Along step P s as) (hrun : run step s as = some u) (hs : I s) : I u := by
  induction as generalizing s with
  | nil => cases hrun; exact hs
  | cons a as ih =>
      obtain ⟨t, ht, hu⟩ := run_cons_eq_some hrun
      exact ih (halong.2 t ht) hu (hstep s a t hs halong.1 ht)

/-- What each step preserves, every run preserves. -/
theorem run_invariant {I : σ → Prop} (hstep : ∀ s a t, I s → step s a = some t → I t)
    {s u : σ} {as : List α} (hrun : run step s as = some u) (hs : I s) : I u := by
  induction as generalizing s with
  | nil => cases hrun; exact hs
  | cons a as ih =>
      obtain ⟨t, ht, hu⟩ := run_cons_eq_some hrun
      exact ih hu (hstep s a t hs ht)

/-- What each step preserves, with the actions so far in view, holds after every run. -/
theorem run_invariant_history {I : List α → σ → Prop} {s u : σ} {as : List α} (hstart : I [] s)
    (hstep : ∀ before a t u, run step s before = some t → I before t → step t a = some u →
      I (before ++ [a]) u)
    (hrun : run step s as = some u) : I as u := by
  induction as using List.reverseRecOn generalizing u with
  | nil => cases hrun; exact hstart
  | append_singleton before a ih =>
      rw [run_append] at hrun
      obtain ⟨t, ht, hu⟩ := Option.bind_eq_some_iff.mp hrun
      obtain ⟨v, hv, hvu⟩ := run_cons_eq_some hu
      cases hvu
      exact hstep before a t _ ht (ih ht) hv

/-- Where each step puts what it leaves behind on a list, the list stays empty just along the runs
whose steps leave nothing. -/
theorem nil_iff_along {β : Type*} {I : σ → Prop} {log : σ → List β} {left : σ → α → Option β}
    (hinv : ∀ s a t, I s → step s a = some t → I t)
    (hlog : ∀ s a t, I s → step s a = some t → log t = (left s a).toList ++ log s)
    {s u : σ} {as : List α} (hrun : run step s as = some u) (hs : I s) (hempty : log s = []) :
    log u = [] ↔ Along step (fun s a => left s a = none) s as := by
  have hgrows : ∀ (as : List α) (s : σ), I s → run step s as = some u →
      (log u = [] ↔ log s = [] ∧ Along step (fun s a => left s a = none) s as) := by
    intro as
    induction as with
    | nil =>
        rintro s - ⟨⟩
        simp [Along]
    | cons a as ih =>
        intro s hs hrun
        obtain ⟨t, ht, hrun⟩ := run_cons_eq_some hrun
        rw [ih t (hinv s a t hs ht) hrun, hlog s a t hs ht, List.append_eq_nil_iff, Along]
        constructor
        · rintro ⟨⟨hleft, hnone⟩, halong⟩
          refine ⟨hnone, Option.toList_eq_nil_iff.mp hleft, fun v hv => ?_⟩
          rw [ht] at hv
          cases hv
          exact halong
        · rintro ⟨hnone, hleft, halong⟩
          exact ⟨⟨Option.toList_eq_nil_iff.mpr hleft, hnone⟩, halong t ht⟩
  rw [hgrows as s hs hrun]
  exact and_iff_right hempty

end Genaryx.Base.Transition
