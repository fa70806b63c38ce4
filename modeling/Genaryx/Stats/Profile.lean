import Genaryx.Base.Binary64
import Genaryx.Base.Numbers
import Genaryx.Core.Queries

/-!
# What one agent's normal looks like

The days of one agent over a window, with the empty ones among them, and how the latest complete
day sits in them.

## Implementation notes

The doubles are rational numbers that are rounded after each step. A profile is `none` where its
arithmetic of days overflows. A count stays below what a row id can be, so the sums of counts are
natural numbers.
-/

namespace Genaryx.Stats

open Base Genaryx.Core
open Std (TreeMap)

variable {F : Type}

/-- How many days of history a profile needs before it will call anything unusual. -/
def minDaysForNormal : Int := 14

/-- The days on either side of the split that a trend is read from. -/
def trendDays : Nat := 7

inductive Confidence
  | noData
  | tooNew
  | normal
  deriving DecidableEq

inductive Direction
  | rising
  | falling
  | steady
  | unknown
  deriving DecidableEq

/-- One agent's rhythm, and how its latest complete day sits in it. -/
structure AgentProfile where
  agentId : Text
  confidence : Confidence
  daysHeld : Int
  total : Nat
  medianDay : ℚ
  latestFullDay : Nat
  timesMedian : Option ℚ
  busiestDayShare : ℚ
  direction : Direction
  topType : Option Text
  topTypeShare : ℚ
  daily : List Nat

def AgentProfile.empty (agentId : Text) : AgentProfile where
  agentId := agentId
  confidence := .noData
  daysHeld := 0
  total := 0
  medianDay := 0
  latestFullDay := 0
  timesMedian := none
  busiestDayShare := 0
  direction := .unknown
  topType := none
  topTypeShare := 0
  daily := []

/-- `as f64`. -/
def asF64 (n : Nat) : ℚ := toDouble n

/-- A double in hundredths. -/
def hundredths (q : ℚ) : ℚ := toDouble (roundAway (toDouble (q * 100)) / 100)

/-- The middle of the values, or the average of the middle two. -/
def median (values : List Nat) : ℚ :=
  if values.isEmpty then 0
  else
    let v := values.mergeSort
    let mid := v.length / 2
    if v.length % 2 = 1 then asF64 (v.getD mid 0)
    else toDouble (toDouble (asF64 (v.getD (mid - 1) 0) + asF64 (v.getD mid 0)) / 2)

/-- The last days against the days before them. -/
def directionOf (daily : List Nat) : Direction :=
  let need := trendDays * 2
  if daily.length < need then .unknown
  else
    let recent := (daily.drop (daily.length - trendDays)).sum
    let prior := ((daily.drop (daily.length - need)).take trendDays).sum
    if recent = prior then .steady
    else if prior = 0 then .rising
    else
      let ratio := toDouble (asF64 recent / asF64 prior)
      if toDouble (5 / 4) ≤ ratio then .rising
      else if ratio ≤ toDouble (4 / 5) then .falling
      else .steady

/-- The days from a first to a last one. -/
def daysFrom (start last : Int) : List Int :=
  (List.range (last + 1 - start).toNat).map fun i : Nat => start + (i : Int)

section Counts

/-- Every day held, with no events yet. -/
def zeroDays (start today : Int) : TreeMap Int Nat :=
  (daysFrom start today).foldl (fun m d => m.insert d 0) ∅

/-- Count the rows by a key of theirs. -/
def countBy {κ : Type} [Ord κ] (key : DayTypeCount → κ) (m : TreeMap κ Nat)
    (rows : List DayTypeCount) : TreeMap κ Nat :=
  rows.foldl (fun m r => bump (fun _ => 0) m (key r) (· + r.count)) m

/-- The entry with the greatest count, the last one of several. -/
def busiestType (types : TreeMap Text Nat) : Option (Text × Nat) :=
  types.toList.foldl (fun best entry =>
    match best with
    | some b => if b.2 ≤ entry.2 then some entry else some b
    | none => some entry) none

end Counts

/-- The profile of the rows from a start day up to today. -/
def profileOf (agentId : Text) (startDay today daysHeld : Int) (rows : List DayTypeCount) :
    AgentProfile :=
  let held := rows.filter fun r => ¬ r.day < startDay
  let perDay := countBy DayTypeCount.day (zeroDays startDay today) held
  let perType := countBy DayTypeCount.eventType ∅ held
  let total := (held.map DayTypeCount.count).sum
  let daily := perDay.toList.map Prod.snd
  let latestFullDay := if 2 ≤ daily.length then daily.getD (daily.length - 2) 0 else 0
  let baseline := if 2 ≤ daily.length then daily.take (daily.length - 2) else []
  let medianDay := median baseline
  let confidence : Confidence :=
    if total = 0 ∧ daysHeld = 0 then .noData
    else if daysHeld < minDaysForNormal then .tooNew
    else .normal
  let top := (busiestType perType).filter fun _ => 0 < total
  { agentId := agentId
    confidence := confidence
    daysHeld := daysHeld
    total := total
    medianDay := medianDay
    latestFullDay := latestFullDay
    timesMedian :=
      if confidence = .normal ∧ 0 < medianDay then
        some (hundredths (toDouble (asF64 latestFullDay / medianDay)))
      else none
    busiestDayShare :=
      hundredths (if 0 < total then toDouble (asF64 (daily.foldl max 0) / asF64 total) else 0)
    direction := directionOf daily
    topType := top.map Prod.fst
    topTypeShare := hundredths ((top.map fun t => toDouble (asF64 t.2 / asF64 total)).getD 0)
    daily := daily }

/-- The event store of a profile, and which of its reads are refused. -/
structure ProfileStore (F : Type) where
  store : Store F
  dailyRefused : Bool := false
  firstRefused : Bool := false

section Profile

variable [DecidableEq F] (E : Engine F)

/-- One agent's profile over the last days of a window, if the store can be read. -/
def agentProfile (agentId : Text) (windowDays nowMs : Int) (opened : Option (ProfileStore F)) :
    Option (Option AgentProfile) :=
  match opened with
  | none => some none
  | some events => do
      let today := nowMs.tdiv dayMs
      let back ← checkedI64 (today - max windowDays 1)
      let windowStartDay ← checkedI64 (back + 1)
      let sinceMs ← checkedI64 (windowStartDay * dayMs)
      if events.dailyRefused || events.firstRefused then return none
      match E.firstDayForAgent agentId events.store with
      | none => return some (.empty agentId)
      | some firstDay =>
          let startDay := max firstDay windowStartDay
          let since ← checkedI64 (today - startDay)
          let daysHeld ← checkedI64 (since + 1)
          return some (profileOf agentId startDay today (max daysHeld 0)
            (E.dailyTypeCounts agentId sinceMs events.store))

end Profile

end Genaryx.Stats
