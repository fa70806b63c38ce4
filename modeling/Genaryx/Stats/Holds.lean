import Mathlib.Algebra.Order.Group.MinMax
import Genaryx.Core.GraphCounts
import Genaryx.Stats.Halts
import Genaryx.Stats.Totals

/-!
# What the counts hold of the store

The counts of a window add up to its events, and what the detailed rows say of an agent is what
they hold, where no difference of two stored amounts leaves 64 bits, doubles do not round one to
another millionth, and the cap of the detailed rows is not zero.
-/

namespace Genaryx.Stats

open Base Json Genaryx.Core Std

variable {F : Type}

section Amounts

/-- The budget and what was spent of it, where a row has both as integers. -/
def amountsOf (d : EventDetail F) : Option (Int × Int) :=
  match d.data with
  | none => none
  | some data =>
      match (data.get "budget_micros").bind asI64, (data.get "spent_micros").bind asI64 with
      | some budget, some spent => some (budget, spent)
      | _, _ => none

/-- The budget and what was spent of it, where a row has both in dollars. -/
def usdAmountsOf (d : EventDetail F) : Option (Number F × Number F) :=
  match d.data with
  | none => none
  | some data =>
      match (data.get "budget_usd").bind asNumber, (data.get "spent_usd").bind asNumber with
      | some budget, some spent => some (budget, spent)
      | _, _ => none

/-- How far amounts in dollars are over budget: to the nearest millionth, and without a bound. -/
def exactUsd (double : F → ℚ) (budget spent : Number F) : Int :=
  roundAway (max (valueOf double spent - valueOf double budget) 0 * 1000000)

/-- How far over budget a row says the agent went, computed without a bound. -/
def exactOvershoot (double : F → ℚ) (d : EventDetail F) : Option Int :=
  match amountsOf d with
  | some amounts => some (max (amounts.2 - amounts.1) 0)
  | none => (usdAmountsOf d).map fun amounts => exactUsd double amounts.1 amounts.2

/-- How far amounts in dollars are over budget as doubles have it: the difference and its
millionths both rounded, and cut to 64 bits. -/
def doubleUsd (double : F → ℚ) (budget spent : Number F) : Int :=
  min (roundAway (toDouble
    (max (toDouble (numberAsF64 double spent - numberAsF64 double budget)) 0 * 1000000)))
    (2 ^ 63 - 1)

/-- How far over budget a row goes as words hold it: below 64 bits the difference comes around,
and dollars are doubles. -/
def wordOvershoot (double : F → ℚ) (d : EventDetail F) : Option Int :=
  match amountsOf d with
  | some amounts =>
      some (if amounts.2 - amounts.1 < -2 ^ 63 then amounts.2 - amounts.1 + 2 ^ 64
        else max (amounts.2 - amounts.1) 0)
  | none => (usdAmountsOf d).map fun amounts => doubleUsd double amounts.1 amounts.2

/-- How far over budget the panel takes a row to say the agent went. -/
def shownOvershoot (usdOvershoot : Number F → Number F → Int) (d : EventDetail F) : Option Int :=
  d.data.bind (overshootOf usdOvershoot)

variable {usdOvershoot : Number F → Number F → Int}

theorem asI64_bounds {v : Value F} {n : Int} (h : asI64 v = some n) :
    -2 ^ 63 ≤ n ∧ n < 2 ^ 63 := by
  unfold asI64 at h
  split at h
  · next m hm =>
      split at h
      · next hlt =>
          obtain rfl := Option.some.inj h
          omega
      · cases h
  · next m hm =>
      obtain rfl := Option.some.inj h
      omega
  · cases h

theorem amountsOf_bounds {d : EventDetail F} {budget spent : Int}
    (h : amountsOf d = some (budget, spent)) :
    (-2 ^ 63 ≤ budget ∧ budget < 2 ^ 63) ∧ -2 ^ 63 ≤ spent ∧ spent < 2 ^ 63 := by
  unfold amountsOf at h
  split at h
  · cases h
  · next data hdata =>
      split at h
      · next b s hb hs =>
          cases h
          obtain ⟨v, -, hv⟩ := Option.bind_eq_some_iff.mp hb
          obtain ⟨v', -, hv'⟩ := Option.bind_eq_some_iff.mp hs
          exact ⟨asI64_bounds hv, asI64_bounds hv'⟩
      · cases h

/-- The panel subtracts integer amounts in 64 bits. -/
theorem shownOvershoot_of_amounts {d : EventDetail F} {budget spent : Int}
    (h : amountsOf d = some (budget, spent)) :
    shownOvershoot usdOvershoot d = some (max (wrapI64 (spent - budget)) 0) := by
  unfold amountsOf at h
  split at h
  · cases h
  · next data hdata =>
      split at h
      · next b s hb hs =>
          cases h
          rw [shownOvershoot, hdata, Option.bind_some, overshootOf, hb, hs]
      · cases h

/-- A difference of two 64-bit integers as 64 bits hold it. -/
theorem wrapI64_cases {n : Int} (hlow : -2 ^ 64 < n) (hhigh : n < 2 ^ 64) :
    (-2 ^ 63 ≤ n ∧ n < 2 ^ 63 ∧ wrapI64 n = n) ∨ (2 ^ 63 ≤ n ∧ wrapI64 n = n - 2 ^ 64) ∨
      (n < -2 ^ 63 ∧ wrapI64 n = n + 2 ^ 64) := by
  rw [wrapI64, Int.bmod_def]
  split <;> omega

end Amounts

section Greatest

variable {α : Type} {rows : List α} {shown exact : α → Option Int}

/-- The greatest amount so far, where none is below zero. -/
theorem foldl_worst (hshown : ∀ d ∈ rows, ∀ x, shown d = some x → 0 ≤ x) (worst : Option Int)
    (hworst : ∀ w, worst = some w → 0 ≤ w) :
    rows.foldl (fun worst d => match shown d with
      | some x => some (max (worst.getD 0) x)
      | none => worst) worst = (worst.toList ++ rows.filterMap shown).max? := by
  induction rows generalizing worst with
  | nil =>
      cases worst with
      | none => rfl
      | some w => rfl
  | cons d rows ih =>
      have htail : ∀ e ∈ rows, ∀ x, shown e = some x → 0 ≤ x := fun e he =>
        hshown e (List.mem_cons_of_mem d he)
      rw [List.foldl_cons]
      cases hd : shown d with
      | none =>
          rw [List.filterMap_cons_none hd]
          exact ih htail worst hworst
      | some x =>
          have hx : 0 ≤ x := hshown d List.mem_cons_self x hd
          rw [List.filterMap_cons_some hd]
          cases worst with
          | none =>
              dsimp only
              rw [Option.getD_none, max_eq_right hx, ih htail (some x)
                (fun w hw => by cases hw; exact hx)]
              rfl
          | some w =>
              have hw := hworst w rfl
              dsimp only
              rw [Option.getD_some, ih htail (some (max w x))
                (fun v hv => by cases hv; exact le_max_of_le_left hw)]
              rfl

/-- Two readings of the same rows have the same greatest amount just when each amount of one
is reached by one of the other. -/
theorem max?_eq_iff {xs ys : List Int} (hempty : xs = [] ↔ ys = []) :
    xs.max? = ys.max? ↔ (∀ x ∈ xs, ∃ y ∈ ys, x ≤ y) ∧ ∀ y ∈ ys, ∃ x ∈ xs, y ≤ x := by
  cases hx : xs.max? with
  | none =>
      have hnil := List.max?_eq_none_iff.mp hx
      have hnil' := hempty.mp hnil
      subst hnil hnil'
      simp
  | some m =>
      obtain ⟨hmem, hle⟩ := List.max?_eq_some_iff.mp hx
      rw [eq_comm, List.max?_eq_some_iff]
      constructor
      · rintro ⟨hmem', hle'⟩
        exact ⟨fun x hx => ⟨m, hmem', hle x hx⟩, fun y hy => ⟨m, hmem, hle' y hy⟩⟩
      · rintro ⟨hreach, hreach'⟩
        have hle' : ∀ y ∈ ys, y ≤ m := fun y hy => by
          obtain ⟨x, hx, hyx⟩ := hreach' y hy
          exact hyx.trans (hle x hx)
        obtain ⟨y, hy, hmy⟩ := hreach m hmem
        have heq : y = m := Int.le_antisymm (hle' y hy) hmy
        exact ⟨heq ▸ hy, hle'⟩

end Greatest

section Overshoot

variable {H : Host F}

theorem roundAway_nonneg {q : ℚ} (h : 0 ≤ q) : 0 ≤ roundAway q := by
  rw [roundAway, if_pos h]
  exact Int.floor_nonneg.mpr (by linarith)

/-- What amounts in dollars come to is not below zero, and 64 bits hold it. -/
theorem usdOvershoot_bounds (budget spent : Number F) :
    0 ≤ H.usdOvershoot budget spent ∧ H.usdOvershoot budget spent < 2 ^ 63 := by
  unfold Host.usdOvershoot Stats.usdOvershoot
  have hnonneg : (0 : ℚ) ≤ toDouble
      (max (toDouble (numberAsF64 H.double spent - numberAsF64 H.double budget)) 0 * 1000000) :=
    toDouble_nonneg (by positivity)
  have hround := roundAway_nonneg hnonneg
  dsimp only
  omega

/-- A row without integer amounts is shown by its amounts in dollars. -/
theorem shownOvershoot_of_no_amounts {d : EventDetail F} (h : amountsOf d = none) :
    shownOvershoot H.usdOvershoot d =
      (usdAmountsOf d).map fun amounts => H.usdOvershoot amounts.1 amounts.2 := by
  unfold shownOvershoot usdAmountsOf
  unfold amountsOf at h
  cases hdata : d.data with
  | none => rfl
  | some data =>
      rw [hdata] at h
      dsimp only at h
      rw [Option.bind_some, overshootOf]
      dsimp only
      generalize (data.get "budget_micros".toList).bind asI64 = micros at h ⊢
      generalize (data.get "spent_micros".toList).bind asI64 = micros' at h ⊢
      generalize (data.get "budget_usd".toList).bind asNumber = usd
      generalize (data.get "spent_usd".toList).bind asNumber = usd'
      cases micros with
      | none => cases usd <;> cases usd' <;> rfl
      | some budget =>
          cases micros' with
          | none => cases usd <;> cases usd' <;> rfl
          | some spent => cases h

/-- The panel takes no overshoot to be below zero or above 64 bits. -/
theorem shownOvershoot_bounds {d : EventDetail F} {x : Int}
    (h : shownOvershoot H.usdOvershoot d = some x) : 0 ≤ x ∧ x < 2 ^ 63 := by
  cases hamounts : amountsOf d with
  | none =>
      rw [shownOvershoot_of_no_amounts hamounts] at h
      obtain ⟨amounts, -, rfl⟩ := Option.map_eq_some_iff.mp h
      exact usdOvershoot_bounds amounts.1 amounts.2
  | some amounts =>
      obtain ⟨budget, spent⟩ := amounts
      obtain ⟨⟨hb, hb'⟩, hs, hs'⟩ := amountsOf_bounds hamounts
      rw [shownOvershoot_of_amounts hamounts] at h
      cases h
      obtain ⟨hlow, hhigh, hwrap⟩ | ⟨hhigh, hwrap⟩ | ⟨hlow, hwrap⟩ :=
        wrapI64_cases (n := spent - budget) (by omega) (by omega)
      all_goals rw [hwrap]
      all_goals omega

/-- The overshoots of a row are both read or both not. -/
theorem overshoot_read (d : EventDetail F) :
    (exactOvershoot H.double d).isSome = (shownOvershoot H.usdOvershoot d).isSome := by
  cases hamounts : amountsOf d with
  | none =>
      rw [shownOvershoot_of_no_amounts hamounts, exactOvershoot, hamounts, Option.isSome_map,
        Option.isSome_map]
  | some amounts =>
      obtain ⟨budget, spent⟩ := amounts
      rw [shownOvershoot_of_amounts hamounts,
        exactOvershoot, hamounts]
      rfl

/-- The rows of one agent have the same greatest overshoot as computed without a bound just when
each that is shown otherwise is outdone by another. -/
theorem worst_eq_iff (rows : List (EventDetail F)) :
    (rows.filterMap (shownOvershoot H.usdOvershoot)).max? =
        (rows.filterMap (exactOvershoot H.double)).max? ↔
      ∀ d ∈ rows, ∀ x y, exactOvershoot H.double d = some x →
        shownOvershoot H.usdOvershoot d = some y →
        (x < y → ∃ e ∈ rows, ∃ z, exactOvershoot H.double e = some z ∧ y ≤ z) ∧
          (y < x → ∃ e ∈ rows, ∃ z, shownOvershoot H.usdOvershoot e = some z ∧ x ≤ z) := by
  have hempty : rows.filterMap (shownOvershoot H.usdOvershoot) = [] ↔
      rows.filterMap (exactOvershoot H.double) = [] := by
    rw [List.filterMap_eq_nil_iff, List.filterMap_eq_nil_iff]
    refine forall_congr' fun d => imp_congr_right fun _ => ?_
    rw [← Option.isNone_iff_eq_none, ← Option.isNone_iff_eq_none, ← Option.not_isSome,
      ← Option.not_isSome, overshoot_read]
  rw [max?_eq_iff hempty]
  simp only [List.mem_filterMap, forall_exists_index, and_imp]
  constructor
  · rintro ⟨hreach, hreach'⟩ d hd x y hx hy
    constructor
    · intro _
      obtain ⟨z, ⟨e, he, hz⟩, hle⟩ := hreach y d hd hy
      exact ⟨e, he, z, hz, hle⟩
    · intro _
      obtain ⟨z, ⟨e, he, hz⟩, hle⟩ := hreach' x d hd hx
      exact ⟨e, he, z, hz, hle⟩
  · intro h
    refine ⟨fun y d hd hy => ?_, fun x d hd hx => ?_⟩
    · obtain ⟨x, hx⟩ := Option.isSome_iff_exists.mp
        ((overshoot_read (H := H) d).trans (Option.isSome_iff_exists.mpr ⟨y, hy⟩))
      rcases lt_or_ge x y with hlt | hge
      · obtain ⟨e, he, z, hz, hle⟩ := (h d hd x y hx hy).1 hlt
        exact ⟨z, ⟨e, he, hz⟩, hle⟩
      · exact ⟨x, ⟨d, hd, hx⟩, hge⟩
    · obtain ⟨y, hy⟩ := Option.isSome_iff_exists.mp
        ((overshoot_read (H := H) d).symm.trans (Option.isSome_iff_exists.mpr ⟨x, hx⟩))
      rcases lt_or_ge y x with hlt | hge
      · obtain ⟨e, he, z, hz, hle⟩ := (h d hd x y hx hy).2 hlt
        exact ⟨z, ⟨e, he, hz⟩, hle⟩
      · exact ⟨y, ⟨d, hd, hy⟩, hge⟩

/-- Where what a row holds fits 64 bits, the panel takes it as words hold it. -/
theorem shownOvershoot_eq_word {d : EventDetail F}
    (hfits : ∀ x, exactOvershoot H.double d = some x → x < 2 ^ 63) :
    shownOvershoot H.usdOvershoot d = wordOvershoot H.double d := by
  cases hamounts : amountsOf d with
  | none =>
      have hdollars : H.usdOvershoot = doubleUsd H.double := rfl
      rw [shownOvershoot_of_no_amounts hamounts, wordOvershoot, hamounts, hdollars]
  | some amounts =>
      obtain ⟨budget, spent⟩ := amounts
      obtain ⟨⟨hb, hb'⟩, hs, hs'⟩ := amountsOf_bounds hamounts
      have hexact := hfits (max (spent - budget) 0) (by rw [exactOvershoot, hamounts])
      rw [shownOvershoot_of_amounts hamounts, wordOvershoot, hamounts]
      dsimp only
      obtain ⟨hlow, hhigh, hwrap⟩ | ⟨hhigh, hwrap⟩ | ⟨hlow, hwrap⟩ :=
        wrapI64_cases (n := spent - budget) (by omega) (by omega)
      · rw [hwrap, if_neg (by omega)]
      · omega
      · rw [hwrap, if_pos hlow, max_eq_left (by omega)]

/-- A row is matched by others of its agent: what words hold above what it holds is held by one,
and what it holds above what words hold is held by the words of one. -/
def Matched (double : F → ℚ) (rows : List (EventDetail F)) (d : EventDetail F) : Prop :=
  ∀ x y, exactOvershoot double d = some x → wordOvershoot double d = some y →
    (x < y → ∃ e ∈ rows, e.filedUnder = d.filedUnder ∧
      ∃ z, exactOvershoot double e = some z ∧ y ≤ z) ∧
    (y < x → ∃ e ∈ rows, e.filedUnder = d.filedUnder ∧
      ∃ z, wordOvershoot double e = some z ∧ x ≤ z)

/-- Every agent's greatest overshoot is shown as computed without a bound just when each row
fits 64 bits and is matched. -/
theorem worst_of_agents_iff (rows : List (EventDetail F)) :
    (∀ agentId, ((rows.filter fun d => d.filedUnder = agentId).filterMap
          (shownOvershoot H.usdOvershoot)).max? =
        ((rows.filter fun d => d.filedUnder = agentId).filterMap
          (exactOvershoot H.double)).max?) ↔
      (∀ d ∈ rows, ∀ x, exactOvershoot H.double d = some x → x < 2 ^ 63) ∧
        ∀ d ∈ rows, Matched H.double rows d := by
  have hof : ∀ d ∈ rows, d ∈ rows.filter fun e => e.filedUnder = d.filedUnder := fun d hd =>
    List.mem_filter.mpr ⟨hd, decide_eq_true rfl⟩
  simp only [worst_eq_iff]
  constructor
  · intro h
    have hfits : ∀ d ∈ rows, ∀ x, exactOvershoot H.double d = some x → x < 2 ^ 63 := by
      intro d hd x hx
      obtain ⟨y, hy⟩ := Option.isSome_iff_exists.mp
        ((overshoot_read (H := H) d).symm.trans (Option.isSome_iff_exists.mpr ⟨x, hx⟩))
      have hshown := (shownOvershoot_bounds hy).2
      by_contra hlarge
      obtain ⟨e, -, z, hz, hle⟩ := (h d.filedUnder d (hof d hd) x y hx hy).2 (by omega)
      have hbound := (shownOvershoot_bounds hz).2
      omega
    refine ⟨hfits, fun d hd x y hx hy => ?_⟩
    rw [← shownOvershoot_eq_word (hfits d hd)] at hy
    obtain ⟨hbelow, habove⟩ := h d.filedUnder d (hof d hd) x y hx hy
    refine ⟨fun hlt => ?_, fun hlt => ?_⟩
    · obtain ⟨e, he, z, hz, hle⟩ := hbelow hlt
      obtain ⟨hread, hfiled⟩ := List.mem_filter.mp he
      exact ⟨e, hread, of_decide_eq_true hfiled, z, hz, hle⟩
    · obtain ⟨e, he, z, hz, hle⟩ := habove hlt
      obtain ⟨hread, hfiled⟩ := List.mem_filter.mp he
      rw [shownOvershoot_eq_word (hfits e hread)] at hz
      exact ⟨e, hread, of_decide_eq_true hfiled, z, hz, hle⟩
  · rintro ⟨hfits, hmatched⟩ agentId d hd x y hx hy
    obtain ⟨hread, hfiled⟩ := List.mem_filter.mp hd
    have hagent : d.filedUnder = agentId := of_decide_eq_true hfiled
    rw [shownOvershoot_eq_word (hfits d hread)] at hy
    obtain ⟨hbelow, habove⟩ := hmatched d hread x y hx hy
    refine ⟨fun hlt => ?_, fun hlt => ?_⟩
    · obtain ⟨e, he, hfiledE, z, hz, hle⟩ := hbelow hlt
      exact ⟨e, List.mem_filter.mpr ⟨he, decide_eq_true (hfiledE.trans hagent)⟩, z, hz, hle⟩
    · obtain ⟨e, he, hfiledE, z, hz, hle⟩ := habove hlt
      rw [← shownOvershoot_eq_word (hfits e he)] at hz
      exact ⟨e, List.mem_filter.mpr ⟨he, decide_eq_true (hfiledE.trans hagent)⟩, z, hz, hle⟩

/-! ### Whole millionths -/

/-- An amount in dollars that is a whole number of millionths, as a double holds it. -/
def IsMicros (double : F → ℚ) (n : Number F) (k : Int) : Prop :=
  valueOf double n = toDouble (k / 1000000) ∧ numberAsF64 double n = valueOf double n

theorem abs_value_sub_le {double : F → ℚ} {n : Number F} {k : Int} (h : IsMicros double n k)
    (hk : |k| ≤ 2 ^ 49) : |valueOf double n * 1000000 - k| ≤ 1 / 16 := by
  have hnear := toDouble_near (k / 1000000 : ℚ)
  have hkq : |(k : ℚ)| ≤ 2 ^ 49 := by exact_mod_cast hk
  rw [← h.1, abs_div, abs_of_pos (by norm_num : (0 : ℚ) < 1000000)] at hnear
  calc |valueOf double n * 1000000 - k|
      = |(k : ℚ) / 1000000 - valueOf double n| * 1000000 := by
        rw [abs_sub_comm, ← abs_of_pos (by norm_num : (0 : ℚ) < 1000000), ← abs_mul,
          abs_of_pos (by norm_num : (0 : ℚ) < 1000000)]
        congr 1
        ring
    _ ≤ |(k : ℚ)| / 1000000 / 2 ^ 53 * 1000000 := by gcongr
    _ ≤ 1 / 16 := by linarith

/-- What is above zero of a number of dollars is as near a number of millionths as the dollars. -/
theorem abs_max_millionths_sub_le (x : ℚ) (n : Int) :
    |max x 0 * 1000000 - (max n 0 : Int)| ≤ |x * 1000000 - n| := by
  have hscaled : max x 0 * 1000000 = max (x * 1000000) 0 := by
    rw [max_mul_of_nonneg _ _ (by norm_num : (0 : ℚ) ≤ 1000000), zero_mul]
  have hcast : ((max n 0 : Int) : ℚ) = max (n : ℚ) 0 := by
    push_cast
    rfl
  rw [hscaled, hcast]
  exact abs_max_sub_max_le_abs _ _ _

section Micros

variable {double : F → ℚ} {budget spent : Number F} {b s : Int}

/-- The exact difference of two whole amounts is near its millionths. -/
theorem abs_exact_sub_le (hb : IsMicros double budget b) (hs : IsMicros double spent s)
    (hb' : |b| ≤ 2 ^ 49) (hs' : |s| ≤ 2 ^ 49) :
    |(valueOf double spent - valueOf double budget) * 1000000 - (s - b : Int)| ≤ 1 / 8 := by
  have hnearB := abs_le.mp (abs_value_sub_le hb hb')
  have hnearS := abs_le.mp (abs_value_sub_le hs hs')
  rw [abs_le]
  push_cast
  constructor <;> linarith

theorem abs_diff_le (hb' : |b| ≤ 2 ^ 49) (hs' : |s| ≤ 2 ^ 49) : |s - b| ≤ 2 ^ 50 := by
  obtain ⟨hlowB, hhighB⟩ := abs_le.mp hb'
  obtain ⟨hlowS, hhighS⟩ := abs_le.mp hs'
  exact abs_le.mpr (by omega)

/-- A difference of dollars that is rounded stays near its millionths. -/
theorem abs_rounded_sub_le {exact : ℚ} {n : Int} (hn : |n| ≤ 2 ^ 50)
    (hexact : |exact * 1000000 - n| ≤ 1 / 8) : |toDouble exact * 1000000 - n| ≤ 3 / 10 := by
  have hnq : |(n : ℚ)| ≤ 2 ^ 50 := by exact_mod_cast hn
  have hmagnitude : |exact * 1000000| ≤ 2 ^ 50 + 1 / 8 := by
    have := abs_sub_abs_le_abs_sub (exact * 1000000) (n : ℚ)
    linarith
  have hscaled : |exact - toDouble exact| * 1000000 ≤ |exact * 1000000| / 2 ^ 53 := by
    have hnear := toDouble_near exact
    rw [abs_mul, abs_of_pos (by norm_num : (0 : ℚ) < 1000000)]
    linarith
  have hsame : |toDouble exact * 1000000 - exact * 1000000| =
      |exact - toDouble exact| * 1000000 := by
    rw [← sub_mul, abs_mul, abs_of_pos (by norm_num : (0 : ℚ) < 1000000), abs_sub_comm]
  have htriangle := abs_sub_le (toDouble exact * 1000000) (exact * 1000000) (n : ℚ)
  rw [hsame] at htriangle
  linarith

/-- Amounts of whole millionths are told as they are, up to half a billion dollars. -/
theorem doubleUsd_of_micros (hb : IsMicros double budget b) (hs : IsMicros double spent s)
    (hb' : |b| ≤ 2 ^ 49) (hs' : |s| ≤ 2 ^ 49) :
    doubleUsd double budget spent = max (s - b) 0 ∧
      exactUsd double budget spent = max (s - b) 0 := by
  have hexact := abs_exact_sub_le hb hs hb' hs'
  have hdiff := abs_diff_le hb' hs'
  have hnonneg : (0 : Int) ≤ max (s - b) 0 := le_max_right _ _
  have hint : max (s - b) 0 ≤ 2 ^ 50 := max_le (le_of_abs_le hdiff) (by norm_num)
  have hbound : ((max (s - b) 0 : Int) : ℚ) ≤ 2 ^ 50 := by exact_mod_cast hint
  constructor
  · -- the rounded difference, in millionths, before its own rounding
    let product := max (toDouble (valueOf double spent - valueOf double budget)) 0 * 1000000
    have hproduct : |product - (max (s - b) 0 : Int)| ≤ 3 / 10 :=
      (abs_max_millionths_sub_le _ _).trans (abs_rounded_sub_le hdiff hexact)
    have hlarge : |product| ≤ 2 ^ 50 + 1 := by
      have hle := abs_sub_abs_le_abs_sub product ((max (s - b) 0 : Int) : ℚ)
      rw [abs_of_nonneg (Int.cast_nonneg hnonneg : (0 : ℚ) ≤ (max (s - b) 0 : Int))] at hle
      linarith
    have hshown : roundAway (toDouble product) = max (s - b) 0 := by
      refine roundAway_of_near hnonneg ?_
      have htriangle := abs_sub_le (toDouble product) product ((max (s - b) 0 : Int) : ℚ)
      rw [abs_sub_comm (toDouble product) product] at htriangle
      have hround := toDouble_near product
      linarith
    rw [doubleUsd, hb.2, hs.2]
    change min (roundAway (toDouble product)) (2 ^ 63 - 1) = _
    rw [hshown]
    omega
  · refine roundAway_of_near hnonneg ?_
    have hnear := (abs_max_millionths_sub_le _ _).trans hexact
    linarith

/-- A row of whole millionths needs no other to match it. -/
theorem matched_of_micros {rows : List (EventDetail F)} {d : EventDetail F}
    (hnone : amountsOf d = none) (husd : usdAmountsOf d = some (budget, spent))
    (hb : IsMicros double budget b) (hs : IsMicros double spent s) (hb' : |b| ≤ 2 ^ 49)
    (hs' : |s| ≤ 2 ^ 49) : Matched double rows d := by
  obtain ⟨hdouble, hexact⟩ := doubleUsd_of_micros hb hs hb' hs'
  intro x y hx hy
  rw [exactOvershoot, hnone, husd] at hx
  rw [wordOvershoot, hnone, husd] at hy
  have heq : x = y := by
    rw [← Option.some.inj hx, ← Option.some.inj hy]
    exact hexact.trans hdouble.symm
  exact ⟨fun h => absurd heq h.ne, fun h => absurd heq h.ne'⟩

end Micros

end Overshoot

/-- What an agent's types add up to. -/
def AgentStats.byTypeTotal (a : AgentStats) : Nat := totalOf id a.byType

section Tally

variable {H : Host F} (counts : List AgentTypeCount) (rows : List (EventDetail F)) (agentId : Text)

theorem worst_foldl_halted (agents : List Text) (a : AgentStats) :
    (agents.foldl (fun a _ => a.halted) a).worstOvershootMicrousd = a.worstOvershootMicrousd := by
  induction agents generalizing a with
  | nil => rfl
  | cons agent agents ih => exact ih a.halted

theorem worst_foldl_addCount (a : AgentStats) :
    (counts.foldl (fun a c => AgentStats.addCount c a) a).worstOvershootMicrousd =
      a.worstOvershootMicrousd := by
  induction counts generalizing a with
  | nil => rfl
  | cons c counts ih => exact ih (AgentStats.addCount c a)

theorem worst_foldl_describe (usdOvershoot : Number F → Number F → Int) (a : AgentStats) :
    (rows.foldl (fun a d => AgentStats.describe usdOvershoot d a) a).worstOvershootMicrousd =
      rows.foldl (fun worst d => match shownOvershoot usdOvershoot d with
        | some x => some (max (worst.getD 0) x)
        | none => worst) a.worstOvershootMicrousd := by
  induction rows generalizing a with
  | nil => rfl
  | cons d rows ih => exact ih (AgentStats.describe usdOvershoot d a)

/-- An agent's worst overshoot is the greatest of its detailed rows. -/
theorem worst_tally :
    (entryOf .new (tally H.usdOvershoot counts rows) agentId).worstOvershootMicrousd =
      ((rows.filter fun d => d.filedUnder = agentId).filterMap
        (shownOvershoot H.usdOvershoot)).max? := by
  rw [tally, entryOf_foldl_bump, worst_foldl_halted, entryOf_foldl_bump, worst_foldl_describe,
    entryOf_foldl_bump, worst_foldl_addCount, entryOf_empty]
  exact foldl_worst (fun d _ x hx => (shownOvershoot_bounds hx).1) none fun w h => by cases h

/-- The types of all agents add up to the counts. -/
theorem byTypeTotal_tally :
    totalOf AgentStats.byTypeTotal (tally H.usdOvershoot counts rows) =
      (counts.map AgentTypeCount.count).sum := by
  have hnew : ∀ k, (AgentStats.new k).byTypeTotal = 0 := fun _ => rfl
  have hcounted : ∀ (c : AgentTypeCount) (a : AgentStats),
      (AgentStats.addCount c a).byTypeTotal = a.byTypeTotal + c.count := fun c a =>
    @totalOf_bump Text Nat _ _ _ _ (fun _ => 0) id (fun _ => rfl) (· + c.count) c.count
      (fun _ => rfl) a.byType c.eventType
  have hdescribed : ∀ (d : EventDetail F) (a : AgentStats),
      (AgentStats.describe H.usdOvershoot d a).byTypeTotal = a.byTypeTotal + 0 := fun _ _ => rfl
  have hhalted : ∀ (_ : Text) (a : AgentStats), a.halted.byTypeTotal = a.byTypeTotal + 0 :=
    fun _ _ => rfl
  rw [tally, totalOf_foldl_bump hnew hhalted, totalOf_foldl_bump hnew hdescribed,
    totalOf_foldl_bump hnew hcounted]
  simp only [List.map_const', List.sum_replicate_nat, Nat.mul_zero, Nat.add_zero]
  exact Nat.zero_add _

end Tally

variable [DecidableEq F] (H : Host F)

/-- The stored events of a window whose data the panel needs, as they are read. -/
def neededRows (windowDays : UInt32) (s : Store F) : List (EventDetail F) :=
  (s.events.reverse.filter fun e =>
    H.wants detailTypes amountFields e && H.inWindow (cutoffOf H windowDays) e).map
      (readOf H.toEngine)

/-- The needed rows that the panel reads. -/
def rowsRead (detailScan : Nat) (windowDays : UInt32) (s : Store F) : List (EventDetail F) :=
  newest detailScan (neededRows H windowDays s)

/-- The panel is measured from this store. -/
structure Measured (store : EventStore F) (s : Store F) (detailScan : Nat)
    (windowDays : UInt32) : Prop where
  opened : ∃ faults, store = .opened s faults
  /-- Every row has a row id. -/
  numbered : s.events.length ≤ i64Max
  measured : (statsCounts H detailScan windowDays store).measured = true

/-- What the panel counts is what the store holds. -/
structure CountsStore (panel : StatsPanel) (s : Store F) (detailScan : Nat)
    (windowDays : UInt32) : Prop where
  scanned : panel.scanned = (s.events.filter (H.inWindow (cutoffOf H windowDays))).length
  byType : (panel.agents.map AgentStats.byTypeTotal).sum = panel.scanned
  operator : ∀ agentId, (panel.agent agentId).blockedByOperator ≤ (panel.agent agentId).blocked
  worst : ∀ agentId, (panel.agent agentId).worstOvershootMicrousd =
    (((rowsRead H detailScan windowDays s).filter fun d => d.filedUnder = agentId).filterMap
      (exactOvershoot H.double)).max?
  truncated : (rowsRead H detailScan windowDays s).length < (neededRows H windowDays s).length →
    panel.detailTruncated = true

/-- The amounts of the rows read fit, and some row is read if one is needed. -/
structure AmountsFit (s : Store F) (detailScan : Nat) (windowDays : UInt32) : Prop where
  capped : 0 < detailScan ∨ neededRows H windowDays s = []
  /-- No row is as far over its budget as 64 bits do not hold. -/
  fits : ∀ d ∈ rowsRead H detailScan windowDays s, ∀ x,
    exactOvershoot H.double d = some x → x < 2 ^ 63
  /-- One that words hold otherwise is outdone by another of its agent. -/
  matched : ∀ d ∈ rowsRead H detailScan windowDays s,
    Matched H.double (rowsRead H detailScan windowDays s) d

variable {H} {s : Store F} {store : EventStore F} {detailScan : Nat} {windowDays : UInt32}

/-- What a measured panel was made from. -/
theorem Measured.read (h : Measured H store s detailScan windowDays) :
    ∃ counts, H.typeCountsSince (cutoffOf H windowDays) s = .ok counts ∧
      (statsCounts H detailScan windowDays store).scanned =
          (counts.map AgentTypeCount.count).sum ∧
      (statsCounts H detailScan windowDays store).detailTruncated =
          (0 < detailScan && detailScan ≤ (rowsRead H detailScan windowDays s).length : Bool) ∧
      (statsCounts H detailScan windowDays store).agents =
          (tally H.usdOvershoot counts (rowsRead H detailScan windowDays s)).toList.map Prod.snd ∧
      ∀ agentId, (statsCounts H detailScan windowDays store).agent agentId =
          entryOf .new (tally H.usdOvershoot counts (rowsRead H detailScan windowDays s))
            agentId := by
  obtain ⟨s', faults, counts, rows, hstore, hcounts, hread, hscanned, -, htruncated, hagents⟩ :=
    statsCounts_of_measured h.measured
  obtain ⟨faults', hstore'⟩ := h.opened
  obtain rfl : s' = s := by
    rw [hstore'] at hstore
    cases hstore
    rfl
  have hrows : rows = rowsRead H detailScan windowDays s' :=
    eventsOfTypesSince_eq_ok (show detailTypes ≠ [] by decide) hread
  rw [hrows] at htruncated hagents
  refine ⟨counts, hcounts, hscanned, htruncated, hagents, fun agentId => ?_⟩
  rw [StatsPanel.agent, hagents, (tally_namedBy _ _ _).find?_entries]
  rfl

/-- The operator stops that are read are among the stops of the window. -/
theorem countP_rowsRead_le (agentId : Text) :
    ((rowsRead H detailScan windowDays s).countP fun d =>
      operatorStopped d && d.filedUnder = agentId) ≤
        (s.events.filter (H.inWindow (cutoffOf H windowDays))).countP fun e =>
          (H.subjectOf e).asText = agentId && e.event.eventType ∈ blockedTypes := by
  let stopped := fun d : EventDetail F => operatorStopped d && d.filedUnder = agentId
  calc (rowsRead H detailScan windowDays s).countP stopped
      ≤ (neededRows H windowDays s).countP stopped := (List.take_sublist _ _).countP_le
    _ ≤ ((s.events.reverse.filter (H.inWindow (cutoffOf H windowDays))).map
          (readOf H.toEngine)).countP stopped := by
        rw [neededRows, ← List.filter_filter]
        exact (List.filter_sublist.map _).countP_le
    _ = (s.events.reverse.filter (H.inWindow (cutoffOf H windowDays))).countP
          (stopped ∘ readOf H.toEngine) := List.countP_map
    _ ≤ (s.events.reverse.filter (H.inWindow (cutoffOf H windowDays))).countP fun e =>
          (H.subjectOf e).asText = agentId && e.event.eventType ∈ blockedTypes := by
        refine List.countP_mono_left fun e _ he => ?_
        simp only [stopped, Function.comp_apply, operatorStopped, readOf, Bool.and_eq_true] at he
        rw [Bool.and_eq_true]
        exact ⟨he.2, he.1.1⟩
    _ = _ := by rw [List.filter_reverse, List.countP_reverse]

/-- A panel counts what the store holds just when the amounts it reads fit. -/
theorem Measured.countsStore_iff (h : Measured H store s detailScan windowDays) :
    CountsStore H (statsCounts H detailScan windowDays store) s detailScan windowDays ↔
      AmountsFit H s detailScan windowDays := by
  obtain ⟨counts, hcounts, hscanned, htruncated, hagents, hagent⟩ := h.read
  have hevents : (statsCounts H detailScan windowDays store).scanned =
      (s.events.filter (H.inWindow (cutoffOf H windowDays))).length := by
    have hsum := typeCountsSince_eq_ok hcounts fun _ => true
    rw [List.filter_eq_self.mpr fun _ _ => rfl, List.countP_true] at hsum
    rw [hscanned, hsum]
  have hbyType : ((statsCounts H detailScan windowDays store).agents.map
      AgentStats.byTypeTotal).sum = (statsCounts H detailScan windowDays store).scanned := by
    rw [hscanned, ← byTypeTotal_tally (H := H) counts (rowsRead H detailScan windowDays s), hagents,
      List.map_map]
    rfl
  have hoperator : ∀ agentId,
      ((statsCounts H detailScan windowDays store).agent agentId).blockedByOperator ≤
        ((statsCounts H detailScan windowDays store).agent agentId).blocked := fun agentId => by
    rw [hagent, blockedByOperator_tally, blocked_tally,
      typeCountsSince_eq_ok hcounts fun key => key.1 = agentId && key.2 ∈ blockedTypes]
    exact Nat.add_le_add_right (countP_rowsRead_le agentId) _
  have hworst : (∀ agentId, ((statsCounts H detailScan windowDays store).agent
        agentId).worstOvershootMicrousd =
      (((rowsRead H detailScan windowDays s).filter fun d => d.filedUnder = agentId).filterMap
        (exactOvershoot H.double)).max?) ↔ _ :=
    (forall_congr' fun agentId => by rw [hagent, worst_tally]).trans
      (worst_of_agents_iff (H := H) (rowsRead H detailScan windowDays s))
  have htruncated' : ((rowsRead H detailScan windowDays s).length <
        (neededRows H windowDays s).length →
          (statsCounts H detailScan windowDays store).detailTruncated = true) ↔
      (0 < detailScan ∨ neededRows H windowDays s = []) := by
    have hlength : (rowsRead H detailScan windowDays s).length =
        min detailScan (neededRows H windowDays s).length := by
      have hle := List.length_filter_le (fun e => H.wants detailTypes amountFields e &&
        H.inWindow (cutoffOf H windowDays) e) s.events.reverse
      rw [List.length_reverse] at hle
      have hnumbered := h.numbered
      rw [rowsRead, newest, List.length_take, neededRows, List.length_map]
      omega
    rw [htruncated, hlength, Bool.and_eq_true, decide_eq_true_eq, decide_eq_true_eq,
      ← List.length_eq_zero_iff]
    omega
  constructor
  · intro hholds
    obtain ⟨hfits, hmatched⟩ := hworst.mp hholds.worst
    exact ⟨htruncated'.mp hholds.truncated, hfits, hmatched⟩
  · intro hfit
    exact ⟨hevents, hbyType, hoperator, hworst.mpr ⟨hfit.fits, hfit.matched⟩,
      htruncated'.mpr hfit.capped⟩

/-- A measured panel counts what the store holds just when the amounts it reads fit. -/
theorem countsStoreWhen : ∀ (F : Type) [DecidableEq F] (H : Host F) (store : EventStore F)
    (detailScan : Nat) (windowDays : UInt32),
    (∀ s, Measured H store s detailScan windowDays →
      CountsStore H (statsCounts H detailScan windowDays store) s detailScan windowDays) ↔
      ∀ s, Measured H store s detailScan windowDays → AmountsFit H s detailScan windowDays :=
  fun _ _ _ _ _ _ => forall_congr' fun _ => forall_congr' fun h => h.countsStore_iff

section Example

/-- A kill that says how far its run went over a budget below zero. -/
def overflowingKill : AgentEvent Empty where
  schema := SchemaVersion.v0_2.asStr
  ts := "2026-09-01T10:00:00Z"
  source := "cloud"
  eventType := "run_killed"
  agentId := "agent://acme/pay/bot"
  data := some (.object [("budget_micros".toList, .number (.negInt 1 (by decide))),
    ("spent_micros".toList, .number (.posInt (2 ^ 63 - 1) (by decide)))])

/-- A store of this one event. -/
def overflowingStore : Store Empty where
  events := (Store.insertEvents plainDigest [] [{ denialAt 0 with event := overflowingKill }] 0).1

theorem measured_overflowing :
    Measured sampleHost (.opened overflowingStore {}) overflowingStore 10 0 where
  opened := ⟨{}, rfl⟩
  numbered := by decide +kernel
  measured := by decide +kernel

/-- An agent that spent `i64::MAX` of a budget of minus one is shown as within its budget. -/
theorem overflowing_kill_not_shown :
    ¬ ∀ (H : Host Empty) (store : EventStore Empty) (detailScan : Nat) (windowDays : UInt32) s,
      Measured H store s detailScan windowDays →
        CountsStore H (statsCounts H detailScan windowDays store) s detailScan windowDays := by
  intro hholds
  have hworst := (hholds _ _ _ _ _ measured_overflowing).worst "agent://acme/pay/bot"
  exact absurd hworst (by decide +kernel)

end Example

end Genaryx.Stats
