import Genaryx.Base.Rfc3339
import Genaryx.Core.Store

/-!
# Retention

Events are pruned by their time in milliseconds, which was read from their timestamp when they
were stored, and refused lines by the text of the time they were received at. The texts are in
the order of the times from the year 0 to the year 9999; outside of it a year has a sign.

## Implementation notes

An instant is a count of nanoseconds since the Unix epoch, and `parseFromRfc3339` reads one from
a text. A row that was stored before the table had the column has no time in milliseconds.
-/

namespace Genaryx.Core

open Base

variable {F : Type} {parseFromRfc3339 : Text → Option Int}

def parseTsMs (parseFromRfc3339 : Text → Option Int) (ts : Text) : Option Int :=
  (parseFromRfc3339 ts).map (· / 1000000)

/-- What is out of chrono's range is written as the epoch. -/
def msToRfc3339 (ms : Int) : Text :=
  toRfc3339 (if InRange (ms * 1000000) then ms * 1000000 else 0)

/-- A row of the events with its time in milliseconds. -/
structure EventRow (parseFromRfc3339 : Text → Option Int) (F : Type) where
  event : ConsoleEvent F
  tsMs : Option Int
  dated : tsMs = none ∨ tsMs = parseTsMs parseFromRfc3339 event.event.ts

/-- A refused line, whose time is the clock's when it was received. -/
structure RefusedLine where
  row : QuarantineRow
  received : Int
  clock : 0 ≤ received ∧ InRange received
  ts_eq : row.ts = toRfc3339 received

structure History (parseFromRfc3339 : Text → Option Int) (F : Type) where
  events : List (EventRow parseFromRfc3339 F)
  quarantined : List RefusedLine

/-- A cutoff in milliseconds that chrono represents. -/
structure Cutoff where
  ms : Int
  inRange : InRange (ms * 1000000)

namespace Cutoff

def instant (c : Cutoff) : Int := c.ms * 1000000

def epoch : Cutoff := ⟨0, by decide +kernel⟩

theorem yearOf_epoch : yearOf epoch.instant = 1970 := by decide +kernel

end Cutoff

namespace History

variable (s : History parseFromRfc3339 F) (cutoffMs : Int)

/-- The events after `DELETE ... WHERE ts_ms IS NOT NULL AND ts_ms < ?1`. -/
def keptEvents : List (EventRow parseFromRfc3339 F) :=
  s.events.filter fun r => !r.tsMs.any (· < cutoffMs)

/-- The refused lines after `DELETE ... WHERE ts < ?1`. -/
def keptLines : List RefusedLine :=
  s.quarantined.filter fun l => !decide (l.row.ts < msToRfc3339 cutoffMs)

/-- Drop what is older than a cutoff, and how many rows of each table that was. -/
def pruneBefore (eventsFailure quarantineFailure : Option Text) :
    Except Error (Nat × Nat) × History parseFromRfc3339 F :=
  match eventsFailure with
  | some message => (.error (.store message), s)
  | none =>
      let events := s.keptEvents cutoffMs
      match quarantineFailure with
      | some message => (.error (.store message), { s with events := events })
      | none =>
          let quarantined := s.keptLines cutoffMs
          (.ok (s.events.length - events.length, s.quarantined.length - quarantined.length),
            ⟨events, quarantined⟩)

/-- What a cutoff leaves of the store. -/
def pruned : History parseFromRfc3339 F := ⟨s.keptEvents cutoffMs, s.keptLines cutoffMs⟩

/-- The event has an instant, and it is before the cutoff. -/
def before (c : Cutoff) (r : EventRow parseFromRfc3339 F) : Bool :=
  (parseFromRfc3339 r.event.event.ts).any (· < c.instant)

end History

/-- Pruning at a cutoff deletes what is before it and nothing else, and an earlier cutoff then
finds nothing to delete. -/
structure PrunesByTime (s : History parseFromRfc3339 F) (c : Cutoff) : Prop where
  result : s.pruneBefore c.ms none none =
    (.ok (s.events.countP (History.before c),
      s.quarantined.countP fun l => l.received < c.instant), s.pruned c.ms)
  events : (s.pruned c.ms).events = s.events.filter fun r => !History.before c r
  quarantined : (s.pruned c.ms).quarantined =
    s.quarantined.filter fun l => !decide (l.received < c.instant)
  undated : ∀ r ∈ s.events, parseFromRfc3339 r.event.event.ts = none →
    r ∈ (s.pruned c.ms).events
  again : ∀ earlier : Cutoff, earlier.ms ≤ c.ms →
    (s.pruned c.ms).pruneBefore earlier.ms none none = (.ok (0, 0), s.pruned c.ms)

/-- The line's text sorts before the cutoff's exactly if it was received before it, and so for
every earlier cutoff if it is kept. -/
def InOrder (received cutoff : Int) : Prop :=
  if yearOf cutoff ≤ 9999 then yearOf received ≤ 9999
  else 9999 < yearOf received ∧ received < cutoff ∧ Aligned (yearOf received) (yearOf cutoff)

/-- No event that has an instant before the cutoff was stored without its milliseconds, and the
refused lines are in order with the cutoff. -/
structure Datable (s : History parseFromRfc3339 F) (c : Cutoff) : Prop where
  dated : ∀ r ∈ s.events, r.tsMs = none → History.before c r = false
  ordered : ∀ l ∈ s.quarantined, InOrder l.received c.instant

section Order

variable {l : RefusedLine} {c : Cutoff}

theorem msToRfc3339_cutoff (c : Cutoff) : msToRfc3339 c.ms = toRfc3339 c.instant := by
  rw [msToRfc3339, if_pos c.inRange, Cutoff.instant]

/-- The clock does not go behind the epoch. -/
theorem RefusedLine.yearOf_received (l : RefusedLine) : 1970 ≤ yearOf l.received :=
  Cutoff.yearOf_epoch ▸ yearOf_mono l.clock.1

/-- Up to the year 9999 the texts are in the order of the times. -/
theorem ts_lt_iff_of_plain (hc : yearOf c.instant ≤ 9999) (hl : yearOf l.received ≤ 9999) :
    l.row.ts < msToRfc3339 c.ms ↔ l.received < c.instant := by
  have hlow := l.yearOf_received
  rw [msToRfc3339_cutoff, l.ts_eq]
  by_cases hneg : yearOf c.instant < 0
  · have hsign := toRfc3339_lt_of_sign (t := c.instant) (u := l.received) (Or.inl hneg)
      ⟨by omega, hl⟩
    refine iff_of_false hsign.not_gt fun hlt => ?_
    have hyears := yearOf_mono hlt.le
    omega
  · exact toRfc3339_lt_iff ⟨by omega, hl⟩ ⟨by omega, hc⟩

/-- A line of a later year sorts before every cutoff up to the year 9999. -/
theorem ts_lt_of_after (hc : yearOf c.instant ≤ 9999) (hl : 9999 < yearOf l.received) :
    l.row.ts < msToRfc3339 c.ms ∧ ¬ l.received < c.instant := by
  rw [msToRfc3339_cutoff, l.ts_eq]
  refine ⟨?_, fun hlt => ?_⟩
  · by_cases hneg : yearOf c.instant < 0
    · exact toRfc3339_lt_of_after_of_before hl hneg
    · exact toRfc3339_lt_of_sign (Or.inr hl) ⟨by omega, hc⟩
  · have hyears := yearOf_mono hlt.le
    omega

/-- A line up to the year 9999 sorts after every later cutoff. -/
theorem not_ts_lt_of_cutoff_after (hc : 9999 < yearOf c.instant)
    (hl : yearOf l.received ≤ 9999) :
    ¬ l.row.ts < msToRfc3339 c.ms ∧ l.received < c.instant := by
  have hlow := l.yearOf_received
  rw [msToRfc3339_cutoff, l.ts_eq]
  refine ⟨(toRfc3339_lt_of_sign (Or.inr hc) ⟨by omega, hl⟩).not_gt, ?_⟩
  exact lt_of_not_ge fun hge => absurd (yearOf_mono hge) (by omega)

theorem ts_lt_iff_of_after (hlt : l.received < c.instant) (hl : 9999 < yearOf l.received) :
    l.row.ts < msToRfc3339 c.ms ↔ Aligned (yearOf l.received) (yearOf c.instant) := by
  have hrange : yearOf c.instant ≤ 262142 := c.inRange.2
  rw [msToRfc3339_cutoff, l.ts_eq]
  exact toRfc3339_lt_iff_of_after hlt hl (by omega)

/-- A line in order with the cutoff is deleted exactly if it was received before it. -/
theorem ts_lt_iff_of_inOrder (h : InOrder l.received c.instant) :
    l.row.ts < msToRfc3339 c.ms ↔ l.received < c.instant := by
  rw [InOrder] at h
  split at h
  · next hc => exact ts_lt_iff_of_plain hc h
  · next hc =>
      obtain ⟨hl, hlt, haligned⟩ := h
      exact iff_of_true ((ts_lt_iff_of_after hlt hl).mpr haligned) hlt

/-- A line that is kept and in order with a cutoff is kept by every earlier one. -/
theorem not_ts_lt_of_inOrder {earlier : Cutoff} (h : InOrder l.received c.instant)
    (hkept : ¬ l.row.ts < msToRfc3339 c.ms) (hle : earlier.ms ≤ c.ms) :
    ¬ l.row.ts < msToRfc3339 earlier.ms := by
  have hinstant : earlier.instant ≤ c.instant := by
    rw [Cutoff.instant, Cutoff.instant]
    omega
  rw [ts_lt_iff_of_inOrder h] at hkept
  rw [InOrder] at h
  split at h
  · next hc =>
      rw [ts_lt_iff_of_plain ((yearOf_mono hinstant).trans hc) h]
      omega
  · exact absurd h.2.1 hkept

end Order

section Events

variable {s : History parseFromRfc3339 F} {r : EventRow parseFromRfc3339 F} {c : Cutoff}

/-- Whole milliseconds tell what is before a cutoff in milliseconds. -/
theorem EventRow.any_tsMs (h : r.tsMs = none → History.before c r = false) :
    r.tsMs.any (· < c.ms) = History.before c r := by
  cases hts : r.tsMs with
  | none => exact (h hts).symm
  | some ms =>
      obtain hnone | hparsed := r.dated
      · rw [hts] at hnone
        cases hnone
      · rw [hts, parseTsMs] at hparsed
        obtain ⟨t, ht, rfl⟩ := Option.map_eq_some_iff.mp hparsed.symm
        rw [History.before, ht, Option.any_some, Option.any_some, decide_eq_decide,
          Cutoff.instant]
        omega

/-- No row without its milliseconds is deleted. -/
theorem History.mem_keptEvents (hr : r ∈ s.events) (hts : r.tsMs = none) :
    r ∈ (s.pruned c.ms).events :=
  List.mem_filter.mpr ⟨hr, by rw [hts]; rfl⟩

theorem History.pruned_events (h : ∀ r ∈ s.events, r.tsMs = none → before c r = false) :
    (s.pruned c.ms).events = s.events.filter fun r => !before c r :=
  List.filter_congr fun r hr => by rw [EventRow.any_tsMs (h r hr)]

end Events

theorem length_sub_length_filter {α : Type*} (p : α → Bool) (l : List α) :
    l.length - (l.filter fun a => !p a).length = l.countP p := by
  rw [← List.countP_eq_length_filter, List.length_eq_countP_add_countP p]
  simp

/-- Retention prunes by time exactly if every event that is before the cutoff has its
milliseconds and every refused line is in order with the cutoff. -/
theorem prunesByTime_iff (s : History parseFromRfc3339 F) (c : Cutoff) :
    PrunesByTime s c ↔ Datable s c := by
  constructor
  · intro h
    refine ⟨fun r hr hts => ?_, fun l hl => ?_⟩
    · have hkept := History.mem_keptEvents (c := c) hr hts
      rw [h.events] at hkept
      simpa using (List.mem_filter.mp hkept).2
    · have hsame : l.row.ts < msToRfc3339 c.ms ↔ l.received < c.instant := by
        have hmem : l ∈ (s.pruned c.ms).quarantined ↔
            l ∈ s.quarantined.filter fun l => !decide (l.received < c.instant) := by
          rw [h.quarantined]
        simp only [History.pruned, History.keptLines, List.mem_filter, hl, true_and,
          Bool.not_eq_true', decide_eq_false_iff_not] at hmem
        exact not_iff_not.mp hmem
      rw [InOrder]
      split
      · next hc =>
          by_contra hl'
          obtain ⟨htext, htime⟩ := ts_lt_of_after hc (lt_of_not_ge hl')
          exact htime (hsame.mp htext)
      · next hc =>
          have hafter : 9999 < yearOf l.received := by
            by_contra hl'
            obtain ⟨htext, htime⟩ := not_ts_lt_of_cutoff_after (lt_of_not_ge hc) (le_of_not_gt hl')
            exact htext (hsame.mpr htime)
          -- a line that is kept would be deleted at the epoch
          have hbefore : l.received < c.instant := by
            by_contra hnot
            have hkept : l ∈ (s.pruned c.ms).quarantined :=
              List.mem_filter.mpr ⟨hl, by simpa using fun htext => hnot (hsame.mp htext)⟩
            have hagain := h.again Cutoff.epoch (by
              by_contra hlt
              have hle : c.instant ≤ Cutoff.epoch.instant := by
                rw [Cutoff.instant, Cutoff.instant]
                omega
              have hyears := yearOf_mono hle
              rw [Cutoff.yearOf_epoch] at hyears
              omega)
            have hlines : (s.pruned c.ms).keptLines Cutoff.epoch.ms =
                (s.pruned c.ms).quarantined :=
              congrArg (fun result => result.2.quarantined) hagain
            rw [← hlines] at hkept
            have hnotlt := (List.mem_filter.mp hkept).2
            simp only [Bool.not_eq_true', decide_eq_false_iff_not] at hnotlt
            exact hnotlt (ts_lt_of_after (by rw [Cutoff.yearOf_epoch]; decide) hafter).1
          exact ⟨hafter, hbefore, (ts_lt_iff_of_after hbefore hafter).mp (hsame.mpr hbefore)⟩
  · intro h
    have hevents := History.pruned_events h.dated
    have hlines : (s.pruned c.ms).quarantined =
        s.quarantined.filter fun l => !decide (l.received < c.instant) :=
      List.filter_congr fun l hl => by simp only [ts_lt_iff_of_inOrder (h.ordered l hl)]
    refine ⟨?_, hevents, hlines, fun r hr hnone => ?_, fun earlier hle => ?_⟩
    · have hcounts : s.pruneBefore c.ms none none =
          (.ok (s.events.length - (s.pruned c.ms).events.length,
            s.quarantined.length - (s.pruned c.ms).quarantined.length), s.pruned c.ms) := rfl
      rw [hcounts, hevents, hlines, length_sub_length_filter, length_sub_length_filter]
    · rw [hevents]
      exact List.mem_filter.mpr ⟨hr, by rw [History.before, hnone]; rfl⟩
    · have hsameEvents : (s.pruned c.ms).keptEvents earlier.ms = (s.pruned c.ms).events := by
        refine List.filter_eq_self.mpr fun r hr => ?_
        have hkept := (List.mem_filter.mp hr).2
        cases hts : r.tsMs with
        | none => rfl
        | some ms =>
            rw [hts] at hkept
            simp only [Option.any_some, Bool.not_eq_true', decide_eq_false_iff_not] at hkept ⊢
            omega
      have hsameLines : (s.pruned c.ms).keptLines earlier.ms = (s.pruned c.ms).quarantined := by
        refine List.filter_eq_self.mpr fun l hl => ?_
        obtain ⟨hmem, hkept⟩ := List.mem_filter.mp hl
        simp only [Bool.not_eq_true', decide_eq_false_iff_not] at hkept ⊢
        exact not_ts_lt_of_inOrder (h.ordered l hmem) hkept hle
      simp only [History.pruneBefore, hsameEvents, hsameLines, Nat.sub_self]

section Sample

/-- A line that was refused in September 2026. -/
def refusedLine : RefusedLine where
  row := ⟨"default", some "wardryx.ndjson", some 0, "not json", "not JSON",
    "2026-09-20T10:00:00.500+00:00"⟩
  received := 1789898400500000000
  clock := by decide
  ts_eq := by decide

/-- The first millisecond of the year 10000. -/
def cutoffOfYear10000 : Cutoff := ⟨253402300800000, by decide⟩

def allowedInSeptember : ConsoleEvent Unit where
  event :=
    { schema := "taipanbox.dev/agent-event/v0.1", ts := "2026-09-20T10:00:00Z", source := "wardryx",
      eventType := "policy_allow", agentId := "agent://acme.example/support/triage" }
  provenance := ⟨"default", "tail", some "wardryx.ndjson", some 0, none, "2026-09-20T10:00:01+00:00"⟩
  raw := "\x7b\x7d"
  schemaVersion := .v0_1

/-- A row that was stored before the table had the column for milliseconds. -/
def undatedRow : EventRow (fun _ => some 1789898400000000000) Unit :=
  ⟨allowedInSeptember, none, Or.inl rfl⟩

end Sample

theorem prunesByTime_fails :
    ¬ PrunesByTime (⟨[], [refusedLine]⟩ : History (fun _ => none) Unit) cutoffOfYear10000 ∧
      ¬ PrunesByTime ⟨[undatedRow], []⟩ cutoffOfYear10000 := by
  constructor
  · intro h
    have hlines := congrArg List.length h.quarantined
    exact absurd hlines (by decide)
  · intro h
    have hrows := congrArg List.length h.events
    exact absurd hrows (by decide)

end Genaryx.Core
