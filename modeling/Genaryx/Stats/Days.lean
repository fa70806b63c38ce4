import Genaryx.Core.Attribution
import Genaryx.Stats.Profile
import Mathlib.Algebra.Order.BigOperators.Group.List
import Mathlib.Data.List.Sort

/-!
# A profile is its days

The daily list of a profile has one entry for each day that is held, and counts the day's events
in it, exactly where no event is dated after today and none before 1970 is counted on the day
after its own. Elsewhere the list is another one.
-/

namespace Genaryx.Stats

open Base Genaryx.Core
open Std (TreeMap)

section Values

variable {κ : Type} [LinearOrder κ]

/-- Two strictly increasing lists with the same members are one. -/
theorem eq_of_pairwise_lt {xs ys : List κ} (hxs : xs.Pairwise (· < ·)) (hys : ys.Pairwise (· < ·))
    (h : ∀ k, k ∈ xs ↔ k ∈ ys) : xs = ys := by
  have hperm : xs.Perm ys := (List.perm_ext_iff_of_nodup (hxs.imp ne_of_lt) (hys.imp ne_of_lt)).mpr h
  exact hperm.eq_of_pairwise (fun a b _ _ hab hba => absurd hab (lt_asymm hba)) hxs hys

end Values

section Counting

variable {α : Type}

/-- Marking the entries with one value adds up to how often they have it. -/
theorem sum_indicator (days : List Int) (day : Int) :
    (days.map fun k => if day = k then 1 else 0).sum = days.count day := by
  induction days with
  | nil => rfl
  | cons k days ih =>
      rw [List.map_cons, List.sum_cons, ih, List.count_cons, add_comm]
      by_cases h : day = k
      · simp [h]
      · simp [h, Ne.symm h]

/-- Counting over days that all values fall on counts each value once. -/
theorem sum_countP {days : List Int} (hdays : days.Nodup) {f : α → Int} {xs : List α}
    (h : ∀ x ∈ xs, f x ∈ days) :
    (days.map fun k => xs.countP fun x => f x = k).sum = xs.length := by
  induction xs with
  | nil => simp
  | cons x xs ih =>
      obtain ⟨hx, hxs⟩ := List.forall_mem_cons.mp h
      have hone : (days.map fun k => if f x = k then 1 else 0).sum = 1 := by
        rw [sum_indicator, List.count_eq_one_of_mem hdays hx]
      simp only [List.countP_cons, decide_eq_true_eq, List.sum_map_add, hone, ih hxs,
        List.length_cons]

/-- Two ways to put values on days that count the same on each day put the same days out. -/
theorem perm_of_countP (days : List Int) {f g : α → Int} {xs : List α}
    (hf : ∀ x ∈ xs, f x ∈ days) (hg : ∀ x ∈ xs, g x ∈ days)
    (h : ∀ k ∈ days, (xs.countP fun x => f x = k) = xs.countP fun x => g x = k) :
    (xs.map f).Perm (xs.map g) := by
  rw [List.perm_iff_count]
  intro k
  have hcount : ∀ f : α → Int, (xs.map f).count k = xs.countP fun x => f x = k := fun f => by
    rw [List.count, List.countP_map]
    exact List.countP_congr fun x _ => by simp
  rw [hcount, hcount]
  by_cases hk : k ∈ days
  · exact h k hk
  · have hnone : ∀ f : α → Int, (∀ x ∈ xs, f x ∈ days) → (xs.countP fun x => f x = k) = 0 :=
      fun f hf => List.countP_eq_zero.mpr fun x hx hxk => hk (of_decide_eq_true hxk ▸ hf x hx)
    rw [hnone f hf, hnone g hg]

/-- Values that are no greater and add up to as much are the same. -/
theorem eq_of_sum_eq {f g : α → Int} {xs : List α} (hle : ∀ x ∈ xs, f x ≤ g x)
    (hsum : (xs.map f).sum = (xs.map g).sum) : ∀ x ∈ xs, f x = g x := by
  intro x hx
  by_contra hne
  have hlt := List.sum_lt_sum f g hle ⟨x, hx, lt_of_le_of_ne (hle x hx) hne⟩
  omega

end Counting

section Days

theorem mem_daysFrom {start last day : Int} : day ∈ daysFrom start last ↔ start ≤ day ∧ day ≤ last := by
  rw [daysFrom, List.mem_map]
  constructor
  · rintro ⟨i, hi, rfl⟩
    have hi := List.mem_range.mp hi
    omega
  · rintro ⟨hstart, hlast⟩
    exact ⟨(day - start).toNat, List.mem_range.mpr (by omega), by omega⟩

theorem pairwise_daysFrom (start last : Int) : (daysFrom start last).Pairwise (· < ·) := by
  rw [daysFrom, List.pairwise_map]
  exact List.pairwise_lt_range.imp fun h => by omega

theorem length_daysFrom (start last : Int) :
    (daysFrom start last).length = (last + 1 - start).toNat := by
  rw [daysFrom, List.length_map, List.length_range]

variable {m : TreeMap Int Nat} {rows : List DayTypeCount}

/-- The count of a key. -/
def countAt (m : TreeMap Int Nat) (k : Int) : Nat := entryOf (fun _ => 0) m k

/-- The counts in the order of their keys. -/
theorem values_eq {ks : List Int} (hks : ks.Pairwise (· < ·)) (h : ∀ k, k ∈ m ↔ k ∈ ks) :
    m.toList.map Prod.snd = ks.map (countAt m) := by
  have hkeys : m.toList.map Prod.fst = ks := by
    rw [TreeMap.map_fst_toList_eq_keys]
    refine eq_of_pairwise_lt ?_ hks fun k => by rw [TreeMap.mem_keys, h]
    exact TreeMap.ordered_keys.imp fun hlt => compare_lt_iff_lt.mp hlt
  rw [← hkeys, List.map_map]
  refine List.map_congr_left fun entry hentry => ?_
  have hget := TreeMap.mem_toList_iff_getElem?_eq_some.mp hentry
  rw [Function.comp_apply, countAt, entryOf, hget]
  rfl

theorem zeroDays_aux (days : List Int) (m : TreeMap Int Nat) (hm : ∀ k, countAt m k = 0) :
    (∀ k, k ∈ days.foldl (fun m d => m.insert d 0) m ↔ k ∈ m ∨ k ∈ days) ∧
      ∀ k, countAt (days.foldl (fun m d => m.insert d 0) m) k = 0 := by
  induction days generalizing m with
  | nil => exact ⟨fun k => by simp, hm⟩
  | cons d days ih =>
      have hinsert : ∀ k, countAt (m.insert d 0) k = 0 := fun k => by
        have hk := hm k
        rw [countAt, entryOf] at hk ⊢
        rw [TreeMap.getElem?_insert]
        split
        · rfl
        · exact hk
      obtain ⟨hmem, hcount⟩ := ih (m.insert d 0) hinsert
      refine ⟨fun k => ?_, hcount⟩
      rw [List.foldl_cons, hmem, TreeMap.mem_insert, compare_eq_iff_eq, List.mem_cons, eq_comm]
      tauto

theorem mem_zeroDays {start today k : Int} : k ∈ zeroDays start today ↔ start ≤ k ∧ k ≤ today := by
  rw [zeroDays, (zeroDays_aux _ _ fun _ => rfl).1, mem_daysFrom]
  simp

theorem countAt_zeroDays (start today k : Int) : countAt (zeroDays start today) k = 0 :=
  (zeroDays_aux _ _ fun _ => rfl).2 k

/-- Counting adds up the rows of each day. -/
theorem countAt_countBy (m : TreeMap Int Nat) (rows : List DayTypeCount) (k : Int) :
    countAt (countBy DayTypeCount.day m rows) k =
      countAt m k + ((rows.filter fun r => r.day = k).map DayTypeCount.count).sum := by
  have hadd : ∀ (r : DayTypeCount) (n : Nat), id (n + r.count) = id n + r.count := fun _ _ => rfl
  exact measure_foldl_bump (fun _ => 0) DayTypeCount.day hadd m rows k

/-- Counting makes entries for the days of the rows only. -/
theorem mem_countBy {k : Int} : k ∈ countBy DayTypeCount.day m rows ↔
    k ∈ m ∨ ∃ r ∈ rows, r.day = k := by
  induction rows generalizing m with
  | nil => simp [countBy]
  | cons r rows ih =>
      rw [countBy, List.foldl_cons]
      refine ih.trans ?_
      rw [bump, TreeMap.mem_alter]
      by_cases h : r.day = k
      · simp [h]
      · simp [h]

end Days

/-- An agent of a readable store that is profiled, by a clock that is not before 1970. -/
structure Watch (F : Type) where
  engine : Engine F
  store : Store F
  agentId : Text
  windowDays : Int
  nowMs : Int
  windowDays_fits : -2 ^ 63 ≤ windowDays ∧ windowDays < 2 ^ 63
  nowMs_fits : 0 ≤ nowMs ∧ nowMs < 2 ^ 63
  parseTsMs_fits : ∀ ts ms, engine.parseTsMs ts = some ms → -2 ^ 63 ≤ ms ∧ ms < 2 ^ 63

namespace Watch

variable {F : Type} (w : Watch F)

/-- The calendar day of now. -/
def today : Int := w.nowMs / dayMs

/-- The first day of the window. -/
def windowStart : Int := w.today - max w.windowDays 1 + 1

/-- The start of the window is a time. -/
def InRange : Prop := -2 ^ 63 ≤ w.windowStart * dayMs

theorem dayMs_pos : 0 < dayMs := by decide

theorem today_nonneg : 0 ≤ w.today := Int.ediv_nonneg w.nowMs_fits.1 dayMs_pos.le

theorem windowStart_le : w.windowStart ≤ w.today := by
  rw [windowStart]
  omega

theorem today_mul_le : w.today * dayMs ≤ w.nowMs := Int.ediv_mul_le _ dayMs_pos.ne'

variable [DecidableEq F]

def profile : Option (Option AgentProfile) :=
  agentProfile w.engine w.agentId w.windowDays w.nowMs (some { store := w.store })

/-- The times of the agent's dated events. -/
def dates : List Int := (w.engine.datedOf w.agentId w.store).map Prod.fst

/-- The first day that is held, if the agent has a dated event. -/
def startDay : Option Int := w.dates.min?.map fun ms => max (ms / dayMs) w.windowStart

/-- How many of the agent's events a calendar day has. -/
def countOn (day : Int) : Nat := w.dates.countP fun ms => ms / dayMs = day

/-- The counts of the days that are held up to a last one. -/
def countsTo (last : Int) : List Nat :=
  match w.startDay with
  | none => []
  | some start => (daysFrom start last).map w.countOn

/-- A profile counts the days that are held, oldest first, and is read off them. -/
structure ItsDays (p : AgentProfile) : Prop where
  length_eq : (p.daily.length : Int) = p.daysHeld
  daily_eq : p.daily = w.countsTo w.today
  total_eq : p.total = p.daily.sum
  latest_eq : p.latestFullDay =
    if w.startDay.any (· ≤ w.today - 1) then w.countOn (w.today - 1) else 0
  median_eq : p.medianDay = median (w.countsTo (w.today - 2))

/-- No event is dated after today. -/
def NoneAhead : Prop := ∀ ms ∈ w.dates, ms / dayMs ≤ w.today

/-- Of the window's events before 1970 each one is at the midnight that its day begins with. -/
def AtMidnight : Prop := ∀ ms ∈ w.dates, w.windowStart * dayMs ≤ ms → ms < 0 → dayMs ∣ ms

/-- The times that are counted. -/
def counted : List Int := w.dates.filter (w.windowStart * dayMs ≤ ·)

section Day

/-- The day that SQLite gives a time. -/
theorem tdiv_dayMs (ms : Int) :
    ms.tdiv dayMs = ms / dayMs + if 0 ≤ ms ∨ dayMs ∣ ms then 0 else 1 := by
  rw [Int.tdiv_eq_ediv]
  rfl

theorem ediv_le_tdiv (ms : Int) : ms / dayMs ≤ ms.tdiv dayMs := by
  rw [tdiv_dayMs]
  split <;> omega

theorem tdiv_of_nonneg {ms : Int} (h : 0 ≤ ms) : ms.tdiv dayMs = ms / dayMs := by
  rw [tdiv_dayMs, if_pos (Or.inl h), add_zero]

/-- A time from a day on has a day from that day on. -/
theorem le_tdiv {day ms : Int} (h : day * dayMs ≤ ms) : day ≤ ms.tdiv dayMs :=
  ((Int.le_ediv_iff_mul_le dayMs_pos).mpr h).trans (ediv_le_tdiv ms)

/-- A time before a day has a day up to that day. -/
theorem tdiv_le {day ms : Int} (h : ms < day * dayMs) : ms.tdiv dayMs ≤ day := by
  have hlt : ms / dayMs < day := (Int.ediv_lt_iff_lt_mul dayMs_pos).mpr h
  rw [tdiv_dayMs]
  split <;> omega

theorem tdiv_mono {a b : Int} (h : a ≤ b) : a.tdiv dayMs ≤ b.tdiv dayMs := by
  have hle := Int.ediv_le_ediv dayMs_pos h
  rw [tdiv_dayMs, tdiv_dayMs]
  split
  · split <;> omega
  · next ha =>
      rw [not_or] at ha
      split
      · next hb =>
          -- a time of the same day is no later than the midnight before it
          have hlt : a / dayMs < b / dayMs := by
            refine lt_of_le_of_ne hle fun heq => ?_
            rcases hb with hb | ⟨k, rfl⟩
            · have hneg : a / dayMs < 0 := (Int.ediv_lt_iff_lt_mul dayMs_pos).mpr (by omega)
              have hnonneg := Int.ediv_nonneg hb dayMs_pos.le
              omega
            · rw [Int.mul_ediv_cancel_left _ dayMs_pos.ne'] at heq
              have hlow := Int.ediv_mul_le a dayMs_pos.ne'
              rw [heq, mul_comm] at hlow
              exact ha.2 ⟨k, le_antisymm h hlow⟩
          omega
      · omega

end Day

section Computed

/-- The rows that the profile is made of. -/
def rows : List DayTypeCount :=
  w.engine.dailyTypeCounts w.agentId (w.windowStart * dayMs) w.store

/-- The profile as it is made from a first event on. -/
def made (first : Int) : AgentProfile :=
  profileOf w.agentId (max (first.tdiv dayMs) w.windowStart) w.today
    (max (w.today - max (first.tdiv dayMs) w.windowStart + 1) 0) w.rows

theorem dates_fit {ms : Int} (h : ms ∈ w.dates) : -2 ^ 63 ≤ ms ∧ ms < 2 ^ 63 := by
  obtain ⟨d, hd, rfl⟩ := List.mem_map.mp h
  obtain ⟨e, -, he⟩ := List.mem_filterMap.mp hd
  obtain ⟨ms, hms, rfl⟩ := Option.map_eq_some_iff.mp he
  exact w.parseTsMs_fits _ ms hms

/-- The start of the window is computed where it is a time. -/
theorem profile_of_not_inRange (h : ¬ w.InRange) : w.profile = none := by
  have htoday : w.nowMs.tdiv dayMs = w.today := tdiv_of_nonneg w.nowMs_fits.1
  have hover : checkedI64 (w.windowStart * dayMs) = none := if_neg fun hfits => h hfits.1
  rw [profile, agentProfile]
  simp only [htoday, Option.bind_eq_bind]
  cases hback : checkedI64 (w.today - max w.windowDays 1) with
  | none => rfl
  | some back =>
      obtain ⟨rfl, -⟩ := checkedI64_eq_some_iff.mp hback
      rw [Option.bind_some]
      cases hstart : checkedI64 (w.today - max w.windowDays 1 + 1) with
      | none => rfl
      | some start =>
          obtain ⟨rfl, -⟩ := checkedI64_eq_some_iff.mp hstart
          rw [Option.bind_some, ← windowStart, hover]
          rfl

/-- Where the start of the window is a time, the profile is made of the rows. -/
theorem profile_of_inRange (h : w.InRange) : w.profile =
    some (some (w.dates.min?.elim (AgentProfile.empty w.agentId) w.made)) := by
  have htoday : w.nowMs.tdiv dayMs = w.today := tdiv_of_nonneg w.nowMs_fits.1
  have hnow := w.nowMs_fits
  have hmul := w.today_mul_le
  have hnonneg := w.today_nonneg
  have hstart := w.windowStart_le
  have hday : dayMs = 86400000 := rfl
  rw [InRange, hday] at h
  rw [hday] at hmul
  have hback : checkedI64 (w.today - max w.windowDays 1) =
      some (w.today - max w.windowDays 1) := by
    have heq : w.today - max w.windowDays 1 = w.windowStart - 1 := by
      rw [windowStart]
      omega
    rw [heq]
    exact checkedI64_of_fits (by omega) (by omega)
  have hwindow : checkedI64 (w.today - max w.windowDays 1 + 1) = some w.windowStart := by
    rw [← windowStart]
    exact checkedI64_of_fits (by omega) (by omega)
  have hsince : checkedI64 (w.windowStart * dayMs) = some (w.windowStart * dayMs) := by
    rw [hday]
    exact checkedI64_of_fits h (by omega)
  rw [profile, agentProfile]
  simp only [htoday, Option.bind_eq_bind, hback, hwindow, hsince, Option.bind_some, Bool.or_self,
    Bool.false_eq_true, if_false]
  have hfirst : w.engine.firstDayForAgent w.agentId w.store =
      w.dates.min?.map fun ms => ms.tdiv dayMs := rfl
  rw [hfirst]
  cases hmin : w.dates.min? with
  | none => rfl
  | some first =>
      obtain ⟨hlow, hhigh⟩ := w.dates_fit (List.min?_mem hmin)
      have hbelow : first.tdiv dayMs ≤ 2 ^ 62 := by
        have hle : first / dayMs ≤ 2 ^ 62 - 1 := by
          rw [hday]
          omega
        rw [tdiv_dayMs]
        split <;> omega
      have hgap : checkedI64 (w.today - max (first.tdiv dayMs) w.windowStart) =
          some (w.today - max (first.tdiv dayMs) w.windowStart) :=
        checkedI64_of_fits (by omega) (by omega)
      have hheld : checkedI64 (w.today - max (first.tdiv dayMs) w.windowStart + 1) =
          some (w.today - max (first.tdiv dayMs) w.windowStart + 1) :=
        checkedI64_of_fits (by omega) (by omega)
      simp only [Option.map_some, hgap, hheld, Option.bind_some]
      rfl

end Computed

section Made

variable {w} {first : Int}

theorem mem_counted {ms : Int} :
    ms ∈ w.counted ↔ ms ∈ w.dates ∧ w.windowStart * dayMs ≤ ms := by
  rw [counted, List.mem_filter, decide_eq_true_eq]

/-- What is counted is on the first day of the profile or after it. -/
theorem start_le_tdiv (hfirst : w.dates.min? = some first) {ms : Int} (hms : ms ∈ w.counted) :
    max (first.tdiv dayMs) w.windowStart ≤ ms.tdiv dayMs := by
  obtain ⟨hmem, hsince⟩ := mem_counted.mp hms
  exact max_le (tdiv_mono ((List.min?_eq_some_iff.mp hfirst).2 ms hmem)) (le_tdiv hsince)

theorem held_eq (hfirst : w.dates.min? = some first) :
    (w.rows.filter fun r => ¬ r.day < max (first.tdiv dayMs) w.windowStart) = w.rows := by
  refine List.filter_eq_self.mpr fun r hr => decide_eq_true (not_lt.mpr ?_)
  obtain ⟨ms, hms, hsince, hday⟩ := Engine.mem_dailyTypeCounts.mp ⟨r, hr, rfl⟩
  rw [← hday]
  exact start_le_tdiv hfirst (mem_counted.mpr ⟨hms, hsince⟩)

/-- The days that the profile has entries for, and what it counts on them. -/
def perDay (w : Watch F) (first : Int) : TreeMap Int Nat :=
  countBy DayTypeCount.day (zeroDays (max (first.tdiv dayMs) w.windowStart) w.today) w.rows

theorem daily_made (hfirst : w.dates.min? = some first) :
    (w.made first).daily = (perDay w first).toList.map Prod.snd := by
  rw [made, profileOf, held_eq hfirst]
  rfl

theorem total_made (hfirst : w.dates.min? = some first) :
    (w.made first).total = w.counted.length := by
  have hsum := Engine.sum_dailyTypeCounts (E := w.engine) w.agentId (w.windowStart * dayMs) w.store
    fun _ => true
  rw [List.filter_true] at hsum
  rw [made, profileOf, held_eq hfirst]
  refine hsum.trans ?_
  rw [List.countP_true]
  rfl

theorem mem_perDay {k : Int} : k ∈ perDay w first ↔
    (max (first.tdiv dayMs) w.windowStart ≤ k ∧ k ≤ w.today) ∨
      ∃ ms ∈ w.counted, ms.tdiv dayMs = k := by
  rw [perDay, mem_countBy, mem_zeroDays, rows, Engine.mem_dailyTypeCounts]
  refine or_congr_right (exists_congr fun ms => ?_)
  rw [mem_counted, and_assoc]
  rfl

theorem countAt_perDay (k : Int) :
    countAt (perDay w first) k = w.counted.countP fun ms => ms.tdiv dayMs = k := by
  have hsum := Engine.sum_dailyTypeCounts (E := w.engine) w.agentId (w.windowStart * dayMs) w.store
    fun day => day = k
  rw [perDay, countAt_countBy, countAt_zeroDays, Nat.zero_add]
  exact hsum

/-- The day of a time that is not ahead is not after today, in SQLite either. -/
theorem tdiv_le_today (h : w.NoneAhead) {ms : Int} (hms : ms ∈ w.dates) :
    ms.tdiv dayMs ≤ w.today := by
  have htoday := h ms hms
  have hnonneg := w.today_nonneg
  rcases le_or_gt 0 ms with hpos | hneg
  · rwa [tdiv_of_nonneg hpos]
  · exact (tdiv_le (by omega : ms < 0 * dayMs)).trans hnonneg

/-- Without an event after today the list has the days up to today. -/
theorem daily_of_noneAhead (hfirst : w.dates.min? = some first) (h : w.NoneAhead) :
    (w.made first).daily = (daysFrom (max (first.tdiv dayMs) w.windowStart) w.today).map
      fun k => w.counted.countP fun ms => ms.tdiv dayMs = k := by
  have hkeys : ∀ k, k ∈ perDay w first ↔
      k ∈ daysFrom (max (first.tdiv dayMs) w.windowStart) w.today := fun k => by
    rw [mem_perDay, mem_daysFrom, or_iff_left_of_imp]
    rintro ⟨ms, hms, rfl⟩
    exact ⟨start_le_tdiv hfirst hms, tdiv_le_today h (mem_counted.mp hms).1⟩
  rw [daily_made hfirst, values_eq (pairwise_daysFrom _ _) hkeys]
  exact List.map_congr_left fun k _ => countAt_perDay k

/-- An event after today has an entry beyond the days that are held. -/
theorem length_of_ahead (hfirst : w.dates.min? = some first) (h : ¬ w.NoneAhead) :
    (w.today + 1 - max (first.tdiv dayMs) w.windowStart).toNat < (w.made first).daily.length := by
  obtain ⟨ms, hms, hahead⟩ : ∃ ms ∈ w.dates, w.today < ms / dayMs := by
    simpa [NoneAhead] using h
  have hnonneg := w.today_nonneg
  have hstart := w.windowStart_le
  have hmul : w.windowStart * dayMs ≤ ms :=
    (Int.le_ediv_iff_mul_le dayMs_pos).mp (by omega)
  have hpos : 0 ≤ ms := by
    by_contra hneg
    have hlt : ms / dayMs < 0 := (Int.ediv_lt_iff_lt_mul dayMs_pos).mpr (by omega)
    omega
  have hsub : ms / dayMs :: daysFrom (max (first.tdiv dayMs) w.windowStart) w.today ⊆
      (perDay w first).keys := by
    intro k hk
    rw [TreeMap.mem_keys, mem_perDay]
    rcases List.mem_cons.mp hk with rfl | hk
    · exact Or.inr ⟨ms, mem_counted.mpr ⟨hms, hmul⟩, tdiv_of_nonneg hpos⟩
    · exact Or.inl (mem_daysFrom.mp hk)
  have hnodup : (ms / dayMs :: daysFrom (max (first.tdiv dayMs) w.windowStart) w.today).Nodup := by
    refine List.nodup_cons.mpr ⟨fun hmem => ?_, (pairwise_daysFrom _ _).imp ne_of_lt⟩
    have hlast := (mem_daysFrom.mp hmem).2
    omega
  have hlength := (hnodup.subperm hsub).length_le
  rw [List.length_cons, length_daysFrom] at hlength
  rw [daily_made hfirst, List.length_map, ← List.length_map (f := Prod.fst),
    TreeMap.map_fst_toList_eq_keys]
  omega

end Made

section Exactly

variable {first : Int}

/-- The first day that is held, by the calendar. -/
theorem startDay_eq (hfirst : w.dates.min? = some first) :
    w.startDay = some (max (first / dayMs) w.windowStart) := by
  rw [startDay, hfirst, Option.map_some]

/-- From the first day on, what is counted is all there is. -/
theorem countOn_eq {day : Int}
    (hday : max (first / dayMs) w.windowStart ≤ day) :
    w.countOn day = w.counted.countP fun ms => ms / dayMs = day := by
  rw [countOn, counted, List.countP_filter]
  refine List.countP_congr fun ms _ => ?_
  rw [decide_eq_true_eq, Bool.and_eq_true, decide_eq_true_eq, decide_eq_true_eq]
  refine (and_iff_left_of_imp ?_).symm
  rintro rfl
  exact (Int.le_ediv_iff_mul_le dayMs_pos).mp ((le_max_right _ _).trans hday)

/-- Each time that is counted is on a day that is held, by the calendar. -/
theorem ediv_mem_daysFrom (hfirst : w.dates.min? = some first) (h : w.NoneAhead) {ms : Int}
    (hms : ms ∈ w.counted) :
    ms / dayMs ∈ daysFrom (max (first / dayMs) w.windowStart) w.today := by
  obtain ⟨hmem, hsince⟩ := mem_counted.mp hms
  refine mem_daysFrom.mpr ⟨max_le ?_ ((Int.le_ediv_iff_mul_le dayMs_pos).mpr hsince), h ms hmem⟩
  exact Int.ediv_le_ediv dayMs_pos ((List.min?_eq_some_iff.mp hfirst).2 ms hmem)

/-- Without times before 1970 off midnight, the days of SQLite are those of the calendar. -/
theorem tdiv_of_atMidnight (h : w.AtMidnight) {ms : Int} (hms : ms ∈ w.counted) :
    ms.tdiv dayMs = ms / dayMs := by
  obtain ⟨hmem, hsince⟩ := mem_counted.mp hms
  rw [tdiv_dayMs, if_pos, add_zero]
  rcases le_or_gt 0 ms with hpos | hneg
  · exact Or.inl hpos
  · exact Or.inr (h ms hmem hsince hneg)

theorem start_of_atMidnight (hfirst : w.dates.min? = some first) (h : w.AtMidnight) :
    max (first.tdiv dayMs) w.windowStart = max (first / dayMs) w.windowStart := by
  rcases le_or_gt (w.windowStart * dayMs) first with hin | hbefore
  · rw [tdiv_of_atMidnight w h (mem_counted.mpr ⟨List.min?_mem hfirst, hin⟩)]
  · have hday : first / dayMs < w.windowStart := (Int.ediv_lt_iff_lt_mul dayMs_pos).mpr hbefore
    rw [max_eq_right (tdiv_le hbefore), max_eq_right hday.le]

theorem take_daysFrom {start last : Int} (h : start ≤ last - 1) :
    (daysFrom start last).take ((daysFrom start last).length - 2) = daysFrom start (last - 2) := by
  rw [length_daysFrom, daysFrom, daysFrom, ← List.map_take, List.take_range]
  congr 2
  omega

theorem start_le_today (hfirst : w.dates.min? = some first) (h : w.NoneAhead) :
    max (first / dayMs) w.windowStart ≤ w.today :=
  max_le (h first (List.min?_mem hfirst)) w.windowStart_le

/-- Where nothing is dated after today and nothing off midnight before 1970, the profile is its
days. -/
theorem itsDays_made (hfirst : w.dates.min? = some first) (hahead : w.NoneAhead)
    (hmidnight : w.AtMidnight) : w.ItsDays (w.made first) := by
  have hstart := start_of_atMidnight w hfirst hmidnight
  have hle := start_le_today w hfirst hahead
  have hdaily : (w.made first).daily =
      (daysFrom (max (first / dayMs) w.windowStart) w.today).map w.countOn := by
    rw [daily_of_noneAhead hfirst hahead, hstart]
    refine List.map_congr_left fun day hday => ?_
    rw [countOn_eq w (mem_daysFrom.mp hday).1]
    exact List.countP_congr fun ms hms => by rw [tdiv_of_atMidnight w hmidnight hms]
  have hlength : (w.made first).daily.length =
      (w.today + 1 - max (first / dayMs) w.windowStart).toNat := by
    rw [hdaily, List.length_map, length_daysFrom]
  have hlatest : (w.made first).latestFullDay = if 2 ≤ (w.made first).daily.length then
      (w.made first).daily.getD ((w.made first).daily.length - 2) 0 else 0 := rfl
  have hmedian : (w.made first).medianDay = median (if 2 ≤ (w.made first).daily.length then
      (w.made first).daily.take ((w.made first).daily.length - 2) else []) := rfl
  have hheld : (w.made first).daysHeld =
      max (w.today - max (first.tdiv dayMs) w.windowStart + 1) 0 := rfl
  have htwo : 2 ≤ (w.made first).daily.length ↔
      max (first / dayMs) w.windowStart ≤ w.today - 1 := by
    rw [hlength]
    omega
  constructor
  · rw [hlength, hheld, hstart]
    omega
  · rw [hdaily, countsTo, startDay_eq w hfirst]
  · rw [total_made hfirst, daily_of_noneAhead hfirst hahead, sum_countP]
    · exact (pairwise_daysFrom _ _).imp ne_of_lt
    · intro ms hms
      rw [hstart, tdiv_of_atMidnight w hmidnight hms]
      exact ediv_mem_daysFrom w hfirst hahead hms
  · rw [hlatest, startDay_eq w hfirst, Option.any_some]
    by_cases hyesterday : max (first / dayMs) w.windowStart ≤ w.today - 1
    · rw [if_pos (htwo.mpr hyesterday), if_pos (decide_eq_true hyesterday), hlength, hdaily,
        List.getD_eq_getElem?_getD, List.getElem?_map, daysFrom, List.getElem?_map,
        List.getElem?_range (by omega)]
      simp only [Option.map_some, Option.getD_some]
      congr 1
      omega
    · rw [if_neg (mt htwo.mp hyesterday), if_neg (by simpa using hyesterday)]
  · rw [hmedian, countsTo, startDay_eq w hfirst]
    by_cases hyesterday : max (first / dayMs) w.windowStart ≤ w.today - 1
    · rw [if_pos (htwo.mpr hyesterday), hdaily, List.length_map, ← List.map_take,
        take_daysFrom hyesterday]
    · have hnil : daysFrom (max (first / dayMs) w.windowStart) (w.today - 2) = [] := by
        rw [← List.length_eq_zero_iff, length_daysFrom]
        omega
      rw [if_neg (mt htwo.mp hyesterday)]
      dsimp only
      rw [hnil]
      rfl

/-- A profile that is its days has seen no event after today. -/
theorem noneAhead_of_itsDays (hfirst : w.dates.min? = some first)
    (h : w.ItsDays (w.made first)) : w.NoneAhead := by
  by_contra hahead
  have hlonger := length_of_ahead hfirst hahead
  have hlength := h.length_eq
  have hheld : (w.made first).daysHeld =
      max (w.today - max (first.tdiv dayMs) w.windowStart + 1) 0 := rfl
  omega

/-- A profile that is its days has counted each event on its own day. -/
theorem atMidnight_of_itsDays (hfirst : w.dates.min? = some first)
    (h : w.ItsDays (w.made first)) : w.AtMidnight := by
  have hahead := noneAhead_of_itsDays w hfirst h
  have hdaily := h.daily_eq
  rw [daily_of_noneAhead hfirst hahead, countsTo, startDay_eq w hfirst] at hdaily
  dsimp only at hdaily
  have hstart : max (first.tdiv dayMs) w.windowStart = max (first / dayMs) w.windowStart := by
    have hlength := congrArg List.length hdaily
    rw [List.length_map, List.length_map, length_daysFrom, length_daysFrom] at hlength
    have hcode := max_le (tdiv_le_today hahead (List.min?_mem hfirst)) w.windowStart_le
    have hcalendar := start_le_today w hfirst hahead
    omega
  rw [hstart, List.map_inj_left] at hdaily
  have hperm : (w.counted.map fun ms => ms / dayMs).Perm (w.counted.map fun ms => ms.tdiv dayMs) := by
    refine perm_of_countP (daysFrom (max (first / dayMs) w.windowStart) w.today)
      (fun ms hms => ediv_mem_daysFrom w hfirst hahead hms) (fun ms hms => ?_) fun day hday => ?_
    · rw [mem_daysFrom, ← hstart]
      exact ⟨start_le_tdiv hfirst hms, tdiv_le_today hahead (mem_counted.mp hms).1⟩
    · rw [← countOn_eq w (mem_daysFrom.mp hday).1, hdaily day hday]
  intro ms hms hsince hneg
  have heq := eq_of_sum_eq (fun ms _ => ediv_le_tdiv ms) hperm.sum_eq ms
    (mem_counted.mpr ⟨hms, hsince⟩)
  by_contra hoff
  rw [tdiv_dayMs, if_neg (not_or.mpr ⟨not_le.mpr hneg, hoff⟩)] at heq
  omega

end Exactly

section Empty

/-- Without a dated event nothing is held. -/
theorem itsDays_empty (h : w.dates.min? = none) : w.ItsDays (AgentProfile.empty w.agentId) := by
  have hstart : w.startDay = none := by rw [startDay, h, Option.map_none]
  constructor
  · rfl
  · rw [countsTo, hstart]
    rfl
  · rfl
  · rw [hstart]
    rfl
  · rw [countsTo, hstart]
    rfl

end Empty

/-- A profile is computed and is its days exactly where the window starts at a time, no event of
the agent is dated after today, and none of the window is off midnight before 1970. -/
theorem itsDays_iff : (∃ p, w.profile = some (some p) ∧ w.ItsDays p) ↔
    w.InRange ∧ w.NoneAhead ∧ w.AtMidnight := by
  constructor
  · rintro ⟨p, hp, hdays⟩
    have hrange : w.InRange := by
      by_contra hrange
      rw [profile_of_not_inRange w hrange] at hp
      cases hp
    refine ⟨hrange, ?_⟩
    rw [profile_of_inRange w hrange] at hp
    cases hmin : w.dates.min? with
    | none =>
        have hnil := List.min?_eq_none_iff.mp hmin
        constructor
        · intro ms hms
          rw [hnil] at hms
          cases hms
        · intro ms hms
          rw [hnil] at hms
          cases hms
    | some first =>
        rw [hmin] at hp
        cases hp
        exact ⟨noneAhead_of_itsDays w hmin hdays, atMidnight_of_itsDays w hmin hdays⟩
  · rintro ⟨hrange, hahead, hmidnight⟩
    refine ⟨_, profile_of_inRange w hrange, ?_⟩
    cases hmin : w.dates.min? with
    | none => exact itsDays_empty w hmin
    | some first => exact itsDays_made w hmin hahead hmidnight

end Watch

section Sample

/-- A store of one event, which is dated a day after now. -/
def dayAhead : Watch Empty where
  engine :=
    { sqlite := sqliteWithoutDoubles
      codec := Json.FullCodec.ofEmpty Json.recursionLimit
      jsonError := fun _ => "expected value at line 1 column 1"
      columnError := "Invalid column type"
      parseTsMs := fun ts =>
        if ts = "2026-09-21T10:00:00Z".toList then some 1789984800000 else none }
  store :=
    { events :=
        [{ event :=
            { schema := SchemaVersion.v0_2.asStr
              ts := "2026-09-21T10:00:00Z"
              source := "trace"
              eventType := "session_summary"
              agentId := "agent://acme/pay/bot" }
           provenance :=
            { env := "prod"
              connector := "trace"
              file := some "trace.ndjson"
              offset := some 0
              endpoint := none
              receivedTs := "2026-09-20T10:00:00Z" }
           raw := "\x7b\x7d"
           schemaVersion := .v0_2 }] }
  agentId := "agent://acme/pay/bot"
  windowDays := 30
  nowMs := 1789898400000
  windowDays_fits := by decide
  nowMs_fits := by decide
  parseTsMs_fits ts ms h := by
    dsimp only at h
    split at h
    · cases h
      decide
    · cases h

/-- The list of an agent whose one event is dated a day ahead has an entry, and no day is held. -/
theorem dayAhead_has_no_day :
    ¬ ∃ p, dayAhead.profile = some (some p) ∧ dayAhead.ItsDays p := by
  rintro ⟨p, hp, hdays⟩
  have hprofile : dayAhead.profile = some (some (dayAhead.made 1789984800000)) := by
    have hrange : dayAhead.InRange := (by decide : (-2 ^ 63 : Int) ≤ _)
    rw [dayAhead.profile_of_inRange hrange]
    rfl
  rw [hprofile] at hp
  cases hp
  exact absurd hdays.length_eq (by decide +kernel)

end Sample

end Genaryx.Stats
