import Genaryx.Base.Tally
import Genaryx.Core.Queries

/-!
# What agents did on the web

The egress panel keeps the fetches and the refusals of the newest events. It counts each event of
the slice that its note names, and lists as many of them as were asked for, just where the slice
holds no more than that. Beyond the limit nothing is counted either.

## Implementation notes

A panel is `none` where the call panics. The counts stay below what a row id can be, so they are
natural numbers.
-/

namespace Genaryx.Egress

open Base Genaryx.Core
open Json (Value)
open Std (TreeMap)

variable {F : Type}

def scopyxSource : Text := "scopyx"

def typeFetch : Text := "web_fetch"

def typeBlocked : Text := "web_blocked"

/-- The most events that a panel scans. -/
def scanCeiling : Nat := 20000

def usizeMax : Nat := 2 ^ 64 - 1

/-- A fetch that happened, or one that did not. -/
structure EgressRow where
  ts : Text
  agentId : Text
  runId : Option Text
  outcome : Text
  origin : Text
  urlSha384 : Option Text
  backend : Option Text
  enforcement : Option Text
  contentBytes : Option Int64
  verdict : Option Text
  reason : Option Text

structure EgressTotals where
  fetched : Nat := 0
  blocked : Nat := 0
  byVerdict : TreeMap Text Nat := ∅
  navigationOnly : Nat := 0
  subresourcesUnknown : Nat := 0

structure EgressPanel where
  measured : Bool
  note : Option Text
  totals : EgressTotals := {}
  rows : List EgressRow := []

def EgressPanel.unmeasured (note : Text) : EgressPanel := { measured := false, note := some note }

/-- The event store as the panel finds it, with the refusal of its query. -/
inductive Bus (F : Type)
  | absent
  | refused (message : Text)
  | opened (store : Store F) (fault : Option Text)

section Rows

/-- Whether an event of the egress plane is a fetch or a refusal. -/
def isFetchOf (e : StoredEvent F) : Option Bool :=
  if e.source ≠ scopyxSource then none
  else if e.eventType = typeFetch then some true
  else if e.eventType = typeBlocked then some false
  else none

/-- A text field of an event's data. -/
def textField (e : StoredEvent F) (key : Text) : Option Text :=
  ((e.data.getD .null).get key).bind Value.asStr

/-- The verdict that a refusal is counted under. -/
def verdictOf (e : StoredEvent F) : Text := (textField e "verdict").getD "unrecorded".toList

/-- Whether the backend enforces only at the navigation. -/
def enforcesNavigation (e : StoredEvent F) : Bool :=
  textField e "enforcement" = some "navigation_only".toList

/-- Whether the backend could not say what the page asked for. -/
def subresourcesUnsaid (e : StoredEvent F) : Bool :=
  match (e.data.getD .null).get "subresources_requested" with
  | some .null => true
  | some _ => false
  | none => true

def EgressTotals.add (totals : EgressTotals) (isFetch : Bool) (e : StoredEvent F) : EgressTotals :=
  if isFetch then
    { totals with
      fetched := totals.fetched + 1
      navigationOnly :=
        if enforcesNavigation e then totals.navigationOnly + 1 else totals.navigationOnly
      subresourcesUnknown :=
        if subresourcesUnsaid e then totals.subresourcesUnknown + 1
        else totals.subresourcesUnknown }
  else
    { totals with
      blocked := totals.blocked + 1
      byVerdict := bump (fun _ => 0) totals.byVerdict (verdictOf e) (· + 1) }

def egressRow (isFetch : Bool) (e : StoredEvent F) : EgressRow where
  ts := e.ts
  agentId := e.agentId
  runId := e.runId
  outcome := if isFetch then "fetched" else "blocked"
  origin := (textField e "origin").getD []
  urlSha384 := textField e "url_sha384"
  backend := textField e "backend"
  enforcement := textField e "enforcement"
  contentBytes := ((e.data.getD .null).get "content_bytes").bind Value.asI64
  verdict := textField e "verdict"
  reason := textField e "reason"

/-- The loop over the slice, with the rows and the totals so far. -/
def readRows (limit : Nat) : List (StoredEvent F) → List EgressRow → EgressTotals →
    List EgressRow × EgressTotals
  | [], rows, totals => (rows, totals)
  | e :: rest, rows, totals =>
      match isFetchOf e with
      | none => readRows limit rest rows totals
      | some isFetch =>
          let rows := rows ++ [egressRow isFetch e]
          let totals := totals.add isFetch e
          if limit ≤ rows.length then (rows, totals) else readRows limit rest rows totals

end Rows

section Panel

def storeUnread : Text :=
  "so nothing here was read. This is not a report that your agents made no web requests."

def queryNote (debug : Text → Text) (e : Error) : Text :=
  "The event store could not be queried (".toList ++ e.display debug ++ "), ".toList ++ storeUnread

def scannedHead : Text := "Read from the "

def scannedTail : Text :=
  " most recent events on the bus. An older fetch than that is in the Bus Explorer, not here."

/-- What a measured panel says about its window. -/
def scannedNote (scanned : Nat) : Text := scannedHead ++ (Text.decimal scanned ++ scannedTail)

/-- `Ord::clamp`, which panics for bounds the wrong way round. -/
def clamp (n low high : Nat) : Option Nat := if low ≤ high then some (min (max n low) high) else none

/-- How many events are scanned for a limit of rows. -/
def scanFor (limit : Nat) : Option Nat := clamp (min (limit * 20) usizeMax) limit scanCeiling

/-- Recent egress activity, newest first. -/
def egressRecent (E : Engine F) (debug : Text → Text) (limit : Nat) : Bus F → Option EgressPanel
  | .absent => some <| .unmeasured <|
      "The console has no event store on this box, ".toList ++ storeUnread
  | .refused message => some <| .unmeasured <|
      "The event store could not be opened (".toList ++ message ++ "), ".toList ++ storeUnread
  | .opened store fault => do
      let scan ← scanFor limit
      let answer : Except Error (List (StoredEvent F)) := match fault with
        | some message => .error (.store message)
        | none => E.recentEvents scan store
      match answer with
      | .error e => return .unmeasured (queryNote debug e)
      | .ok slice =>
          let (rows, totals) := readRows limit slice [] {}
          return { measured := true, note := some (scannedNote slice.length), totals, rows }

end Panel

section Slice

/-- An egress event of a slice, with what it is. -/
def egressOf (slice : List (StoredEvent F)) : List (Bool × StoredEvent F) :=
  slice.filterMap fun e => (isFetchOf e).map (·, e)

/-- The row of an egress event. -/
def rowOf (e : StoredEvent F) : Option EgressRow := (isFetchOf e).map (egressRow · e)

theorem filterMap_rowOf (slice : List (StoredEvent F)) :
    slice.filterMap rowOf = (egressOf slice).map fun x => egressRow x.1 x.2 := by
  rw [egressOf, List.map_filterMap]
  refine List.filterMap_congr fun e _ => ?_
  rw [rowOf]
  cases isFetchOf e <;> rfl

/-- The loop lists the first events up to the limit and counts those. -/
theorem readRows_eq {limit : Nat} (slice : List (StoredEvent F)) (rows : List EgressRow)
    (totals : EgressTotals) (h : rows.length < limit) :
    readRows limit slice rows totals =
      (rows ++ ((egressOf slice).take (limit - rows.length)).map fun x => egressRow x.1 x.2,
        ((egressOf slice).take (limit - rows.length)).foldl (fun t x => t.add x.1 x.2) totals) := by
  induction slice generalizing rows totals with
  | nil => simp [readRows, egressOf]
  | cons e rest ih =>
      rw [readRows]
      cases hfetch : isFetchOf e with
      | none =>
          have hrest : egressOf (e :: rest) = egressOf rest :=
            List.filterMap_cons_none (by rw [hfetch]; rfl)
          dsimp only
          rw [ih rows totals h, hrest]
      | some isFetch =>
          have hcons : egressOf (e :: rest) = (isFetch, e) :: egressOf rest :=
            List.filterMap_cons_some (by rw [hfetch]; rfl)
          obtain ⟨room, hroom⟩ : ∃ room, limit - rows.length = room + 1 :=
            ⟨limit - rows.length - 1, by omega⟩
          dsimp only
          rw [hcons, hroom, List.take_succ_cons, List.map_cons, List.foldl_cons, List.length_append,
            List.length_singleton]
          by_cases hfull : limit ≤ rows.length + 1
          · obtain rfl : room = 0 := by omega
            rw [if_pos hfull, List.take_zero]
            rfl
          · have hleft : limit - (rows ++ [egressRow isFetch e]).length = room := by
              rw [List.length_append, List.length_singleton]
              omega
            rw [if_neg hfull, ih _ _ (by rw [List.length_append, List.length_singleton]; omega),
              hleft, List.append_assoc]
            rfl

/-- What the totals of some egress events are. -/
structure Totals (shown : List (Bool × StoredEvent F)) (totals : EgressTotals) : Prop where
  fetched_eq : totals.fetched = shown.countP fun x => x.1
  blocked_eq : totals.blocked = shown.countP fun x => !x.1
  byVerdict_eq : ∀ verdict, entryOf (fun _ => 0) totals.byVerdict verdict =
    shown.countP fun x => !x.1 && verdictOf x.2 = verdict
  navigationOnly_eq : totals.navigationOnly =
    shown.countP fun x => x.1 && enforcesNavigation x.2
  subresourcesUnknown_eq : totals.subresourcesUnknown =
    shown.countP fun x => x.1 && subresourcesUnsaid x.2

theorem countP_concat {α : Type} (p : α → Bool) (xs : List α) (x : α) :
    (xs ++ [x]).countP p = xs.countP p + if p x then 1 else 0 := by
  rw [List.countP_append, List.countP_singleton]

/-- One more event is counted. -/
theorem Totals.add {shown : List (Bool × StoredEvent F)} {totals : EgressTotals}
    (h : Totals shown totals) (isFetch : Bool) (e : StoredEvent F) :
    Totals (shown ++ [(isFetch, e)]) (totals.add isFetch e) := by
  cases isFetch with
  | true =>
      constructor
      · rw [countP_concat, ← h.fetched_eq]
        rfl
      · rw [countP_concat, ← h.blocked_eq]
        rfl
      · intro verdict
        rw [countP_concat, ← h.byVerdict_eq]
        rfl
      · rw [countP_concat, ← h.navigationOnly_eq, Bool.true_and, EgressTotals.add, if_pos rfl]
        cases enforcesNavigation e <;> rfl
      · rw [countP_concat, ← h.subresourcesUnknown_eq, Bool.true_and, EgressTotals.add, if_pos rfl]
        cases subresourcesUnsaid e <;> rfl
  | false =>
      constructor
      · rw [countP_concat, ← h.fetched_eq]
        rfl
      · rw [countP_concat, ← h.blocked_eq]
        rfl
      · intro verdict
        rw [countP_concat, ← h.byVerdict_eq, Bool.not_false, Bool.true_and, EgressTotals.add,
          if_neg Bool.false_ne_true, entryOf_bump]
        by_cases hverdict : verdictOf e = verdict
        · rw [if_pos hverdict, if_pos (decide_eq_true hverdict)]
        · rw [if_neg hverdict, if_neg (by rwa [decide_eq_true_eq]), add_zero]
      · rw [countP_concat, ← h.navigationOnly_eq]
        rfl
      · rw [countP_concat, ← h.subresourcesUnknown_eq]
        rfl

/-- The totals of a loop are those of the events it counted. -/
theorem totals_foldl (shown : List (Bool × StoredEvent F)) :
    Totals shown (shown.foldl (fun t x => t.add x.1 x.2) {}) := by
  have hgo : ∀ (rest before : List (Bool × StoredEvent F)) (t : EgressTotals), Totals before t →
      Totals (before ++ rest) (rest.foldl (fun t x => t.add x.1 x.2) t) := by
    intro rest
    induction rest with
    | nil =>
        intro before t h
        rwa [List.append_nil]
    | cons x rest ih =>
        intro before t h
        have hrest := ih _ _ (h.add x.1 x.2)
        rwa [List.append_assoc] at hrest
  exact hgo shown [] {} ⟨rfl, rfl, fun _ => entryOf_empty _ _, rfl, rfl⟩

end Slice

/-- A panel lists events of a slice, and counts the slice that its note names. -/
structure OfSlice (limit : Nat) (slice : List (StoredEvent F)) (panel : EgressPanel) : Prop where
  note_eq : panel.note = some (scannedNote slice.length)
  rows_le : panel.rows.length ≤ limit
  rows_from : panel.rows.Sublist (slice.filterMap rowOf)
  totals : Totals (egressOf slice) panel.totals

section Law

variable (E : Engine F) (debug : Text → Text) (limit : Nat) (bus : Bus F)

/-- The call ends, and a measured panel is that of the newest events that its note names. -/
def ShowsSlice : Prop :=
  ∃ panel, egressRecent E debug limit bus = some panel ∧
    (panel.measured = false → panel.rows = []) ∧
      (panel.measured = true → ∃ s fault scan slice, bus = .opened s fault ∧
        E.recentEvents scan s = .ok slice ∧ OfSlice limit slice panel)

/-- No more rows are asked for than the ceiling, and the slice holds no more than that. -/
def SliceFits : Prop :=
  ∀ s fault, bus = .opened s fault → limit ≤ scanCeiling ∧
    (fault = none → ∀ slice, E.recentEvents (min (limit * 20) scanCeiling) s = .ok slice →
      (egressOf slice).length ≤ limit)

variable {E debug limit bus}

theorem scanFor_of_le (h : limit ≤ scanCeiling) :
    scanFor limit = some (min (limit * 20) scanCeiling) := by
  have hmax : usizeMax = 18446744073709551615 := rfl
  have hceiling : scanCeiling = 20000 := rfl
  rw [scanFor, clamp, if_pos h, hmax]
  rw [hceiling] at h ⊢
  congr 1
  omega

theorem scannedNote_injective {n m : Nat} (h : scannedNote n = scannedNote m) : n = m := by
  rw [scannedNote, scannedNote, List.append_cancel_left_eq, List.append_cancel_right_eq] at h
  exact Text.decimal_injective h

/-- What is counted of the first events is not more than they are. -/
theorem length_le_of_totals {events : List (Bool × StoredEvent F)} {totals : EgressTotals}
    (hshown : Totals (events.take limit) totals) (hall : Totals events totals) :
    events.length ≤ limit := by
  have hsum : ∀ xs : List (Bool × StoredEvent F),
      xs.length = (xs.countP fun x => x.1) + xs.countP fun x => !x.1 := fun xs => by
    rw [List.length_eq_countP_add_countP fun x : Bool × StoredEvent F => x.1]
    congr 1
    exact List.countP_congr fun x _ => by simp
  have hlength : events.length = (events.take limit).length := by
    rw [hsum events, hsum (events.take limit), ← hall.fetched_eq, ← hall.blocked_eq,
      ← hshown.fetched_eq, ← hshown.blocked_eq]
  rw [hlength, List.length_take]
  exact min_le_left _ _

/-- What an open store whose query is answered is shown as. -/
theorem egressRecent_opened {s : Store F} {slice : List (StoredEvent F)} (h : limit ≤ scanCeiling)
    (hread : E.recentEvents (min (limit * 20) scanCeiling) s = .ok slice) :
    egressRecent E debug limit (.opened s none) = some
      { measured := true
        note := some (scannedNote slice.length)
        totals := ((egressOf slice).take limit).foldl (fun t x => t.add x.1 x.2) {}
        rows := ((egressOf slice).take limit).map fun x => egressRow x.1 x.2 } := by
  have hloop : readRows limit slice [] {} =
      (((egressOf slice).take limit).map fun x => egressRow x.1 x.2,
        ((egressOf slice).take limit).foldl (fun t x => t.add x.1 x.2) {}) := by
    rcases Nat.eq_zero_or_pos limit with rfl | hpos
    · have hnil : slice = [] := by
        rw [← List.length_eq_zero_iff, Engine.length_recentEvents hread, Nat.zero_mul]
        omega
      rw [hnil]
      rfl
    · exact readRows_eq slice [] {} hpos
  rw [egressRecent, scanFor_of_le h]
  simp only [Option.bind_eq_bind, Option.bind_some, hread, hloop]
  rfl

/-- A panel that counts the slice that its note names was asked for as much. -/
theorem sliceFits_of_showsSlice (h : ShowsSlice E debug limit bus) : SliceFits E limit bus := by
  obtain ⟨panel, hpanel, -, hmeasured⟩ := h
  rintro s fault rfl
  have hle : limit ≤ scanCeiling := by
    by_contra hover
    rw [egressRecent, scanFor, clamp, if_neg hover] at hpanel
    cases hpanel
  refine ⟨hle, ?_⟩
  rintro rfl slice hread
  rw [egressRecent_opened hle hread] at hpanel
  cases hpanel
  obtain ⟨s', fault', scan, slice', hbus, hread', hslice⟩ := hmeasured rfl
  cases hbus
  have hlength := scannedNote_injective (Option.some.inj hslice.note_eq)
  obtain rfl := Engine.recentEvents_unique hread hread' hlength
  exact length_le_of_totals (totals_foldl _) hslice.totals

/-- Where the slice holds no more than is asked for, each of its egress events is counted. -/
theorem showsSlice_of_sliceFits (h : SliceFits E limit bus) : ShowsSlice E debug limit bus := by
  cases bus with
  | absent => exact ⟨_, rfl, fun _ => rfl, (nomatch ·)⟩
  | refused message => exact ⟨_, rfl, fun _ => rfl, (nomatch ·)⟩
  | opened s fault =>
      obtain ⟨hle, hslice⟩ := h s fault rfl
      cases fault with
      | some message =>
          refine ⟨.unmeasured (queryNote debug (.store message)), ?_, fun _ => rfl, (nomatch ·)⟩
          rw [egressRecent, scanFor_of_le hle]
          rfl
      | none =>
          cases hread : E.recentEvents (min (limit * 20) scanCeiling) s with
          | error e =>
              refine ⟨.unmeasured (queryNote debug e), ?_, fun _ => rfl, (nomatch ·)⟩
              rw [egressRecent, scanFor_of_le hle]
              simp only [Option.bind_eq_bind, Option.bind_some, hread]
              rfl
          | ok slice =>
              have hall := hslice rfl slice hread
              refine ⟨_, egressRecent_opened hle hread, (nomatch ·), fun _ =>
                ⟨s, none, _, slice, rfl, hread, ?_⟩⟩
              rw [List.take_of_length_le hall]
              refine ⟨rfl, by rwa [List.length_map], ?_, totals_foldl _⟩
              rw [filterMap_rowOf]

/-- The panel counts the slice that its note names just where the slice holds no more egress
events than were asked for, and no more were asked for than the ceiling. -/
theorem showsSlice_iff : ShowsSlice E debug limit bus ↔ SliceFits E limit bus :=
  ⟨sliceFits_of_showsSlice, showsSlice_of_sliceFits⟩

end Law

section Sample

/-- An engine without doubles. -/
def plainEngine : Engine Empty where
  sqlite := sqliteWithoutDoubles
  codec := Json.FullCodec.ofEmpty Json.recursionLimit
  jsonError _ := "expected value at line 1 column 1"
  columnError := "Invalid column type"
  parseTsMs _ := none

/-- A fetch at one of ten seconds. -/
def fetchAt (second : Fin 10) : ConsoleEvent Empty where
  event :=
    { schema := SchemaVersion.v0_2.asStr
      ts := "2026-09-20T10:00:0".toList ++ Text.decimal second.val ++ "Z".toList
      source := scopyxSource
      eventType := typeFetch
      agentId := "agent://acme/pay/bot" }
  provenance :=
    { env := "prod"
      connector := "scopyx"
      file := some "scopyx.ndjson"
      offset := some 0
      endpoint := none
      receivedTs := "2026-09-20T10:00:10Z" }
  raw := "\x7b\x7d"
  schemaVersion := .v0_2

/-- Of two fetches in the slice that the note names, a panel of one row counts one. -/
theorem second_fetch_uncounted :
    ¬ ∀ (F : Type) (E : Engine F) (debug : Text → Text) (limit : Nat) (bus : Bus F),
      ShowsSlice E debug limit bus := by
  intro h
  have hfits := sliceFits_of_showsSlice
    (h Empty plainEngine id 1 (.opened { events := [fetchAt 0, fetchAt 1] } none))
  have hread := (hfits _ _ rfl).2 rfl _ rfl
  exact absurd hread (by decide)

end Sample

end Genaryx.Egress
