import Genaryx.Base.Tally
import Genaryx.Core.Store
import Mathlib.Data.List.Lex
import Mathlib.Data.List.Sort
import Mathlib.Data.Prod.Lex
import Mathlib.Order.WithBot

/-!
# Why lines were refused

The refused lines are counted by the reason they were refused for, and each reason is shown with
an example. The columns of the example are aggregated one by one, so they are of one line only
where one line is the greatest of its reason in each of them.

## Implementation notes

SQLite leaves open in which order it returns groups that its `ORDER BY` does not tell apart, so
an arrangement is any sorted permutation. A count stays below what a row id can be, so it is a
natural number here.
-/

namespace Genaryx.Core

open Base

section Greatest

variable {α β : Type} [LinearOrder α]

/-- `MAX` over a column: the greatest of the values that are there. -/
def greatest (values : List α) : Option α :=
  values.foldl (fun best v => some (best.elim v fun b => if b < v then v else b)) none

theorem foldl_greatest (values : List α) (best : α) :
    ∃ m, values.foldl (fun best v => some (best.elim v fun b => if b < v then v else b))
        (some best) = some m ∧ (m = best ∨ m ∈ values) ∧ best ≤ m ∧ ∀ v ∈ values, v ≤ m := by
  induction values generalizing best with
  | nil => exact ⟨best, rfl, Or.inl rfl, le_rfl, fun v hv => absurd hv List.not_mem_nil⟩
  | cons v rest ih =>
      obtain ⟨m, hm, hmem, hle, hall⟩ := ih (if best < v then v else best)
      have hbest : best ≤ if best < v then v else best := by
        split
        · next hlt => exact hlt.le
        · exact le_rfl
      have hv : v ≤ if best < v then v else best := by
        split
        · exact le_rfl
        · next hnot => exact not_lt.mp hnot
      refine ⟨m, hm, ?_, hbest.trans hle, List.forall_mem_cons.mpr ⟨hv.trans hle, hall⟩⟩
      rcases hmem with rfl | hmem
      · split
        · exact Or.inr List.mem_cons_self
        · exact Or.inl rfl
      · exact Or.inr (List.mem_cons_of_mem _ hmem)

theorem greatest_eq_some_iff {values : List α} {m : α} :
    greatest values = some m ↔ m ∈ values ∧ ∀ v ∈ values, v ≤ m := by
  cases values with
  | nil => simp [greatest]
  | cons first rest =>
      obtain ⟨n, hn, hmem, hle, hall⟩ := foldl_greatest rest first
      have hgreatest : greatest (first :: rest) = some n := hn
      have hin : n ∈ first :: rest := by
        rcases hmem with rfl | hmem
        · exact List.mem_cons_self
        · exact List.mem_cons_of_mem _ hmem
      have habove : ∀ v ∈ first :: rest, v ≤ n := List.forall_mem_cons.mpr ⟨hle, hall⟩
      rw [hgreatest, Option.some.injEq]
      constructor
      · rintro rfl
        exact ⟨hin, habove⟩
      · rintro ⟨hm, hall'⟩
        exact le_antisymm (hall' n hin) (habove m hm)

/-- The value of one row is the greatest of a column where no row has a greater one. -/
theorem greatest_filterMap_eq_iff {rows : List β} {row : β} (hrow : row ∈ rows)
    (column : β → Option α) :
    greatest (rows.filterMap column) = column row ↔
      ∀ r ∈ rows, ∀ v ∈ column r, ∃ m ∈ column row, v ≤ m := by
  cases hvalue : column row with
  | none =>
      have hempty : greatest (rows.filterMap column) = none ↔ rows.filterMap column = [] := by
        cases hvalues : rows.filterMap column with
        | nil => simp [greatest]
        | cons first rest =>
            obtain ⟨n, hn, -⟩ := foldl_greatest rest first
            refine iff_of_false ?_ (List.cons_ne_nil _ _)
            have hgreatest : greatest (first :: rest) = some n := hn
            rw [hgreatest]
            exact Option.some_ne_none n
      rw [hempty, List.filterMap_eq_nil_iff]
      constructor
      · intro h r hr v hv
        rw [h r hr] at hv
        cases hv
      · intro h r hr
        cases hr' : column r with
        | none => rfl
        | some v =>
            obtain ⟨m, hm, -⟩ := h r hr v hr'
            cases hm
  | some m =>
      rw [greatest_eq_some_iff]
      constructor
      · rintro ⟨-, h⟩ r hr v hv
        exact ⟨m, rfl, h v (List.mem_filterMap.mpr ⟨r, hr, hv⟩)⟩
      · intro h
        refine ⟨List.mem_filterMap.mpr ⟨row, hrow, hvalue⟩, fun v hv => ?_⟩
        obtain ⟨r, hr, hv⟩ := List.mem_filterMap.mp hv
        obtain ⟨m', hm', hle⟩ := h r hr v hv
        cases hm'
        exact hle

end Greatest

/-- How much of a refused line is kept to recognise its producer by. -/
def quarantineExcerptChars : Nat := 220

/-- The head of a text, with an ellipsis when it is cut. -/
def excerpt (s : Text) (max : Nat) : Text :=
  if s.length ≤ max then s else s.take max ++ "...".toList

/-- One reason that lines were refused for, with how many and an example. -/
structure QuarantineReason where
  reason : Text
  count : Nat
  lastTs : Option Text
  exampleFile : Option Text
  exampleOffset : Option Nat
  rawExcerpt : Option Text
  deriving DecidableEq

/-- The lines that were refused for a reason. -/
def refusedFor (reason : Text) (rows : List QuarantineRow) : List QuarantineRow :=
  rows.filter fun r => r.reason = reason

/-- A row of the grouped statement: the count, the newest time and the example's columns. -/
def reasonRow (rows : List QuarantineRow) (group : Text × Nat) : QuarantineReason :=
  let refused := refusedFor group.1 rows
  { reason := group.1
    count := group.2
    lastTs := greatest (refused.map QuarantineRow.ts)
    exampleFile := greatest (refused.filterMap QuarantineRow.file)
    exampleOffset := greatest (refused.filterMap QuarantineRow.off)
    rawExcerpt := (greatest (refused.map QuarantineRow.raw)).map
      (excerpt · quarantineExcerptChars) }

/-- What rows are ordered by, the greatest first. -/
def QuarantineReason.rank (q : QuarantineReason) : ℕ ×ₗ WithBot Text := toLex (q.count, q.lastTs)

/-- How SQLite arranges the rows. -/
structure Arrangement where
  arrange : List QuarantineReason → List QuarantineReason
  perm : ∀ rows, (arrange rows).Perm rows
  sorted : ∀ rows, (arrange rows).Pairwise fun a b => b.rank ≤ a.rank

/-- The refused lines by reason, worst first. -/
def quarantineByReason (order : Arrangement) (limit : Nat) (rows : List QuarantineRow) :
    List QuarantineReason :=
  (order.arrange ((groupCounts QuarantineRow.reason rows).map (reasonRow rows))).take
    (min limit (2 ^ 63 - 1))

/-- Every reason is shown with the number of its lines and with the columns of one of them. -/
def ShowsRealLines (order : Arrangement) (limit : Nat) (rows : List QuarantineRow) : Prop :=
  ∀ q ∈ quarantineByReason order limit rows, q.count = (refusedFor q.reason rows).length ∧
    ∃ r ∈ refusedFor q.reason rows, q.exampleFile = r.file ∧ q.exampleOffset = r.off ∧
      q.rawExcerpt = some (excerpt r.raw quarantineExcerptChars)

/-- A line is the greatest of some lines in every column, in the text up to its excerpt. -/
structure GreatestLine (rows : List QuarantineRow) (row : QuarantineRow) : Prop where
  mem : row ∈ rows
  file : ∀ r ∈ rows, ∀ v ∈ r.file, ∃ m ∈ row.file, v ≤ m
  off : ∀ r ∈ rows, ∀ v ∈ r.off, ∃ m ∈ row.off, v ≤ m
  raw : ∃ top ∈ rows, (∀ r ∈ rows, r.raw ≤ top.raw) ∧
    excerpt top.raw quarantineExcerptChars = excerpt row.raw quarantineExcerptChars

section Rows

variable {order : Arrangement} {limit : Nat} {rows : List QuarantineRow} {q : QuarantineReason}

/-- A returned row is that of a reason that a line was refused for. -/
theorem eq_reasonRow_of_mem (h : q ∈ quarantineByReason order limit rows) :
    q = reasonRow rows (q.reason, (refusedFor q.reason rows).length) := by
  have hmem := (order.perm _).mem_iff.mp (List.mem_of_mem_take h)
  obtain ⟨group, hgroup, rfl⟩ := List.mem_map.mp hmem
  have hcount := snd_of_mem_groupCounts hgroup
  exact congrArg (reasonRow rows) (Prod.ext rfl hcount)

/-- The excerpt is that of the greatest text. -/
theorem excerpt_eq_iff {row : QuarantineRow} :
    (greatest (rows.map QuarantineRow.raw)).map (excerpt · quarantineExcerptChars) =
        some (excerpt row.raw quarantineExcerptChars) ↔
      ∃ top ∈ rows, (∀ r ∈ rows, r.raw ≤ top.raw) ∧
        excerpt top.raw quarantineExcerptChars = excerpt row.raw quarantineExcerptChars := by
  rw [Option.map_eq_some_iff]
  constructor
  · rintro ⟨raw, hraw, hsame⟩
    obtain ⟨hmem, hall⟩ := greatest_eq_some_iff.mp hraw
    obtain ⟨top, htop, rfl⟩ := List.mem_map.mp hmem
    exact ⟨top, htop, fun r hr => hall _ (List.mem_map_of_mem hr), hsame⟩
  · rintro ⟨top, htop, hall, hsame⟩
    refine ⟨top.raw, greatest_eq_some_iff.mpr ⟨List.mem_map_of_mem htop, ?_⟩, hsame⟩
    intro raw hraw
    obtain ⟨r, hr, rfl⟩ := List.mem_map.mp hraw
    exact hall r hr

end Rows

/-- The reasons are shown with real lines exactly if one line of each listed reason is the
greatest of that reason in every column. -/
theorem showsRealLines_iff (order : Arrangement) (limit : Nat) (rows : List QuarantineRow) :
    ShowsRealLines order limit rows ↔ ∀ q ∈ quarantineByReason order limit rows,
      ∃ row, GreatestLine (refusedFor q.reason rows) row := by
  refine forall₂_congr fun q hq => ?_
  have hrow := eq_reasonRow_of_mem hq
  constructor
  · rintro ⟨-, r, hr, hfile, hoff, hraw⟩
    rw [hrow] at hfile hoff hraw
    exact ⟨r, hr, (greatest_filterMap_eq_iff hr _).mp hfile,
      (greatest_filterMap_eq_iff hr _).mp hoff, excerpt_eq_iff.mp hraw⟩
  · rintro ⟨r, hgreatest⟩
    refine ⟨by rw [hrow]; rfl, r, hgreatest.mem, ?_, ?_, ?_⟩
    · rw [hrow]
      exact (greatest_filterMap_eq_iff hgreatest.mem _).mpr hgreatest.file
    · rw [hrow]
      exact (greatest_filterMap_eq_iff hgreatest.mem _).mpr hgreatest.off
    · rw [hrow]
      exact excerpt_eq_iff.mpr hgreatest.raw

section Sample

/-- Rows with equal counts and times stay as they are. -/
def stableOrder : Arrangement where
  arrange := List.insertionSort fun a b => b.rank ≤ a.rank
  perm := List.perm_insertionSort _
  sorted := List.pairwise_insertionSort _

/-- Two producers make one fault, each in a file of its own. -/
def twoProducers : List QuarantineRow :=
  [⟨"default", some "tokenfuse.ndjson", some 0, "\x7b\x7d", "not an agent event",
      "2026-09-20T10:00:00+00:00"⟩,
    ⟨"default", some "wardryx.ndjson", some 0, "[]", "not an agent event",
      "2026-09-20T10:00:01+00:00"⟩]

end Sample

theorem showsRealLines_fails : ¬ ShowsRealLines stableOrder 10 twoProducers := by
  intro h
  have hmem : (⟨"not an agent event", 2, some "2026-09-20T10:00:01+00:00", some "wardryx.ndjson",
      some 0, some "\x7b\x7d"⟩ : QuarantineReason) ∈
      quarantineByReason stableOrder 10 twoProducers := by decide
  obtain ⟨-, r, hr, hfile, -, hraw⟩ := h _ hmem
  rcases List.mem_cons.mp (List.mem_of_mem_filter hr) with rfl | hr
  · exact absurd hfile (by decide)
  · obtain rfl := List.mem_singleton.mp hr
    exact absurd hraw (by decide)

end Genaryx.Core
