import Genaryx.Base.Binary64
import Genaryx.Lifecycle.Dispatch
import Genaryx.Money.Commands
import Mathlib.Data.Prod.Lex
import Mathlib.Order.OrderDual

/-!
# Unit month caps

The spend of every business unit this month and the central caps are two reads of the Cloud. They
are joined into one row for each unit, which says where the unit stands, and the rows are ordered by
that.

## Implementation notes

Dollars and fractions are doubles. Of a unit's spend there is what the join reads, and the caps are a
map. `exactStanding` has no counterpart in the program: it is where a unit stands in micro-dollars.
-/

namespace Genaryx.Money

open Base Json

/-- The bucket for spend whose run resolved no unit. -/
def unassigned : Text := "unassigned"

/-- The share of a cap from which a unit is near it. -/
def nearCapShare : ℚ := toDouble (8 / 10)

inductive UnitCapState
  | overCap
  | nearCap
  | underCap
  | noCap
  | capUnknown
  | spendUnknown
  deriving DecidableEq

/-- The spend of a unit. -/
structure UnitAgg where
  unit : Text
  month : Text
  monthSpentMicrousd : Int64
  monthCalls : UInt64

abbrev Caps : Type := AList fun _ : Text => Int64

/-- One unit's row. -/
structure UnitCapDto where
  unit : Text
  monthSpentUsd : Option ℚ
  monthCalls : Option UInt64
  capUsd : Option ℚ
  fraction : Option ℚ
  state : UnitCapState
  cappable : Bool

structure UnitCapsDto where
  month : Option Text
  unitsRead : Bool
  capsRead : Bool
  notes : List Text
  units : List UnitCapDto

def microsToUsd (micros : Int64) : ℚ := toDouble (toDouble micros.toInt / 1000000)

def stateRank : UnitCapState → Nat
  | .overCap => 0
  | .nearCap => 1
  | .spendUnknown => 2
  | .underCap => 3
  | .capUnknown => 4
  | .noCap => 5

/-- Where a unit stands, from its cap and its spend. -/
def standing (capMicros : Option Int64) (capsRead : Bool) (spentMicros : Option Int64) :
    UnitCapState × Option ℚ :=
  match capMicros with
  | none => (if capsRead then .noCap else .capUnknown, none)
  | some cap =>
      if cap ≤ 0 then (.overCap, none)
      else
        match spentMicros with
        | none => (.spendUnknown, none)
        | some spent =>
            let fraction := toDouble (toDouble spent.toInt / toDouble cap.toInt)
            (if cap ≤ spent then .overCap
              else if nearCapShare ≤ fraction then .nearCap
              else .underCap, some fraction)

/-- The spend of a unit: the last that the answer has. -/
def aggOf (units : Option (List UnitAgg)) (name : Text) : Option UnitAgg :=
  (units.getD []).reverse.find? fun u => u.unit = name

def capOf (caps : Option Caps) (name : Text) : Option Int64 := caps.bind fun c => c.lookup name

/-- The units that either read names. -/
def unitNames (units : Option (List UnitAgg)) (caps : Option Caps) : List Text :=
  Lifecycle.btreeSet ((units.getD []).map UnitAgg.unit ++ (caps.map AList.keys).getD [])

def unitRow (units : Option (List UnitAgg)) (caps : Option Caps) (name : Text) : UnitCapDto :=
  let agg := aggOf units name
  let spent := agg.map UnitAgg.monthSpentMicrousd
  let cap := capOf caps name
  let stands := standing cap caps.isSome spent
  { unit := name
    monthSpentUsd := spent.map microsToUsd
    monthCalls := agg.map UnitAgg.monthCalls
    capUsd := cap.map microsToUsd
    fraction := stands.2
    state := stands.1
    cappable := decide (name ≠ unassigned) }

def UnitCapDto.spent (row : UnitCapDto) : ℚ := row.monthSpentUsd.getD 0

/-- The order of the rows: by where they stand, then the highest spend first, then by name. -/
def rowLe (a b : UnitCapDto) : Bool :=
  stateRank a.state < stateRank b.state ||
    (stateRank a.state = stateRank b.state &&
      (b.spent < a.spent || (a.spent = b.spent && a.unit ≤ b.unit)))

/-- Join the two reads. -/
def joinUnitCaps (units : Option (List UnitAgg)) (caps : Option Caps) : List UnitCapDto :=
  ((unitNames units caps).map (unitRow units caps)).mergeSort rowLe

def unread (route : Text) (e : ConnectorError) : Text :=
  "TokenFuse Cloud did not answer ".toList ++ route ++ ": ".toList ++ e.display

def noUnits : Text := "This Cloud has no GET /v1/units, so no month spend can be shown.".toList

def noUnitBudgets : Text :=
  "This Cloud has no GET /v1/unit-budgets, so whether a unit has a cap is unknown.".toList

/-- What a read has, and the note if it has nothing. -/
def readOf {α : Type} (route absent : Text) : Except ConnectorError (Option α) → Option α × List Text
  | .ok (some a) => (some a, [])
  | .ok none => (none, [absent])
  | .error e => (none, [unread route e])

/-- `money_units`. -/
def moneyUnits (state : MoneyState) (units : Except ConnectorError (Option (List UnitAgg)))
    (caps : Except ConnectorError (Option Caps)) : Except MoneyError UnitCapsDto := do
  let _ ← state.readyClient
  match units, caps with
  | .error e, .error _ => .error (.ofConnector e)
  | units, caps =>
      let units := readOf "GET /v1/units" noUnits units
      let caps := readOf "GET /v1/unit-budgets" noUnitBudgets caps
      return {
        month := units.1.bind fun u => (u.map UnitAgg.month).find? fun m => !m.isEmpty
        unitsRead := units.1.isSome
        capsRead := caps.1.isSome
        notes := units.2 ++ caps.2
        units := joinUnitCaps units.1 caps.1 }

/-! ## In micro-dollars -/

/-- Where a unit stands, exactly. -/
def exactStanding (cap : Option Int) (capsRead : Bool) (spent : Option Int) : UnitCapState :=
  match cap, spent with
  | none, _ => if capsRead then .noCap else .capUnknown
  | some cap, none => if cap ≤ 0 then .overCap else .spendUnknown
  | some cap, some spent =>
      if cap ≤ 0 ∨ cap ≤ spent then .overCap
      else if 4 * cap ≤ 5 * spent then .nearCap
      else .underCap

/-- Up to this many micro-dollars a share of a cap is told apart from four fifths. -/
def exactBelow : Int := 2 ^ 49

section Exact

variable {cap spent : Int}

/-- Shares that differ by a fifth part of the cap's unit are told apart. -/
theorem toDouble_lt_of_share {p q : ℚ} (hcap : 0 < cap) (hbelow : cap < exactBelow)
    (hp : |p| ≤ 1) (hq : |q| ≤ 1) (hgap : 1 / (5 * cap) ≤ q - p) : toDouble p < toDouble q := by
  have hcapq : (0 : ℚ) < cap := by exact_mod_cast hcap
  have hbelowq : (cap : ℚ) < 2 ^ 49 := by exact_mod_cast hbelow
  apply toDouble_lt_toDouble
  calc (|p| + |q|) / 2 ^ 53 ≤ 2 / 2 ^ 53 := by gcongr; linarith
    _ < 1 / (5 * 2 ^ 49) := by norm_num
    _ ≤ 1 / (5 * cap) := by gcongr
    _ ≤ q - p := hgap

theorem share_sub (hcap : 0 < cap) :
    (spent : ℚ) / cap - 8 / 10 = (5 * spent - 4 * cap : Int) * (1 / (5 * cap)) := by
  have hcapq : (cap : ℚ) ≠ 0 := by exact_mod_cast hcap.ne'
  push_cast
  field_simp
  ring

/-- A negative number stays negative. -/
theorem toDouble_neg {q : ℚ} (h : q < 0) : toDouble q < 0 := by
  have hnear := abs_le.mp (toDouble_near q)
  rw [abs_of_neg h] at hnear
  linarith

theorem nearCapShare_pos : 0 < nearCapShare := by
  have hnear := abs_le.mp (toDouble_near (8 / 10))
  rw [abs_of_pos (by norm_num)] at hnear
  rw [nearCapShare]
  linarith

theorem nearCapShare_le_iff (hcap : 0 < cap) (hbelow : cap < exactBelow) (hspent : spent < cap) :
    nearCapShare ≤ toDouble (toDouble spent / toDouble cap) ↔ 4 * cap ≤ 5 * spent := by
  have hcapq : (0 : ℚ) < cap := by exact_mod_cast hcap
  have hlimit : exactBelow = 2 ^ 49 := rfl
  have hcapd : toDouble cap = cap := toDouble_intCast (by rw [abs_of_pos hcap]; omega)
  rw [hcapd]
  rcases lt_or_ge spent 0 with hneg | hnonneg
  · have hspentq : toDouble spent < 0 := toDouble_neg (by exact_mod_cast hneg)
    have hshare := toDouble_neg (div_neg_of_neg_of_pos hspentq hcapq)
    apply iff_of_false
    · exact not_le.mpr (hshare.trans nearCapShare_pos)
    · omega
  · have hspentd : toDouble spent = spent :=
      toDouble_intCast (by rw [abs_of_nonneg hnonneg]; omega)
    have hspentq : (0 : ℚ) ≤ spent := by exact_mod_cast hnonneg
    have hless : (spent : ℚ) < cap := by exact_mod_cast hspent
    have hsmall : |(spent : ℚ) / cap| ≤ 1 := by
      rw [abs_of_nonneg (by positivity), div_le_one hcapq]
      exact hless.le
    have hunit : (0 : ℚ) < 1 / (5 * cap) := by positivity
    rw [hspentd, nearCapShare]
    rcases lt_trichotomy (5 * spent) (4 * cap) with hlt | heq | hgt
    · apply iff_of_false
      · apply not_le.mpr
        apply toDouble_lt_of_share hcap hbelow hsmall (by norm_num)
        have hone : ((5 * spent - 4 * cap : Int) : ℚ) ≤ -1 := by exact_mod_cast (by omega)
        have hsub := @share_sub cap spent hcap
        nlinarith
      · omega
    · apply iff_of_true _ heq.ge
      have hshare : (spent : ℚ) / cap = 8 / 10 := by
        have hsub := @share_sub cap spent hcap
        rw [heq, sub_self, Int.cast_zero, zero_mul] at hsub
        linarith
      rw [hshare]
    · apply iff_of_true _ hgt.le
      apply le_of_lt
      apply toDouble_lt_of_share hcap hbelow (by norm_num) hsmall
      have hone : (1 : ℚ) ≤ ((5 * spent - 4 * cap : Int) : ℚ) := by exact_mod_cast (by omega)
      have hsub := @share_sub cap spent hcap
      nlinarith

end Exact

theorem standing_eq_exact {cap spent : Option Int64} {capsRead : Bool}
    (hbelow : ∀ c, cap = some c → c.toInt < exactBelow) :
    (standing cap capsRead spent).1 =
      exactStanding (cap.map Int64.toInt) capsRead (spent.map Int64.toInt) := by
  cases cap with
  | none => rfl
  | some cap =>
      have hcap : cap ≤ 0 ↔ cap.toInt ≤ 0 := Int64.le_iff_toInt_le
      cases spent with
      | none =>
          rw [standing, Option.map_some, Option.map_none, exactStanding]
          by_cases hzero : cap ≤ 0
          · rw [if_pos hzero, if_pos (hcap.mp hzero)]
          · rw [if_neg hzero, if_neg (hcap.not.mp hzero)]
      | some spent =>
          rw [standing, Option.map_some, Option.map_some, exactStanding]
          by_cases hzero : cap ≤ 0
          · rw [if_pos hzero, if_pos (.inl (hcap.mp hzero))]
          · have hpos : 0 < cap.toInt := not_le.mp (hcap.not.mp hzero)
            rw [if_neg hzero]
            dsimp only
            by_cases hover : cap ≤ spent
            · rw [if_pos hover, if_pos (.inr (Int64.le_iff_toInt_le.mp hover))]
            · have hless : spent.toInt < cap.toInt :=
                not_le.mp (Int64.le_iff_toInt_le.not.mp hover)
              have hnear := nearCapShare_le_iff hpos (hbelow cap rfl) hless
              have hopen : ¬(cap.toInt ≤ 0 ∨ cap.toInt ≤ spent.toInt) := by omega
              rw [if_neg hover, if_neg hopen]
              simp only [hnear]

/-- A cap that is spent, or that is no amount, is over, however large the amounts are. -/
theorem standing_over_iff {cap spent : Option Int64} {capsRead : Bool} :
    (standing cap capsRead spent).1 = .overCap ↔
      ∃ c, cap = some c ∧ (c ≤ 0 ∨ ∃ s, spent = some s ∧ c ≤ s) := by
  cases cap with
  | none => cases capsRead <;> simp [standing]
  | some cap =>
      cases spent with
      | none =>
          rw [standing]
          split
          next hzero => simp [hzero]
          next hpos => simp [hpos]
      | some spent =>
          rw [standing]
          split
          next hzero => simp [hzero]
          next hpos =>
              dsimp only
              split
              next hover => simp [hover]
              next hless => split <;> simp [hpos, hless]

/-- Up to this many micro-dollars two amounts that differ are told apart in dollars. -/
def toldApartBelow : Int := 2 ^ 52

theorem microsToUsd_lt {a b : Int64} (ha : |a.toInt| < toldApartBelow)
    (hb : |b.toInt| < toldApartBelow) (h : a.toInt < b.toInt) : microsToUsd a < microsToUsd b := by
  have hlimit : toldApartBelow = 2 ^ 52 := rfl
  have hamost : |a.toInt| ≤ 4503599627370495 := by omega
  have hbmost : |b.toInt| ≤ 4503599627370495 := by omega
  have haq : |(a.toInt : ℚ)| ≤ 4503599627370495 := by exact_mod_cast hamost
  have hbq : |(b.toInt : ℚ)| ≤ 4503599627370495 := by exact_mod_cast hbmost
  have hstep : 1 ≤ b.toInt - a.toInt := by omega
  have hone : (1 : ℚ) ≤ b.toInt - a.toInt := by exact_mod_cast hstep
  have hmillion : |(1000000 : ℚ)| = 1000000 := by norm_num
  rw [microsToUsd, microsToUsd, toDouble_intCast (by omega), toDouble_intCast (by omega)]
  apply toDouble_lt_toDouble
  calc (|(a.toInt : ℚ) / 1000000| + |(b.toInt : ℚ) / 1000000|) / 2 ^ 53
      = (|(a.toInt : ℚ)| + |(b.toInt : ℚ)|) / 2 ^ 53 / 1000000 := by
        rw [abs_div, abs_div, hmillion]
        ring
    _ < 1 / 1000000 := by
        apply (div_lt_div_iff_of_pos_right (by norm_num)).mpr
        apply (div_lt_one (by norm_num)).mpr
        linarith
    _ ≤ (b.toInt - a.toInt) / 1000000 := by gcongr
    _ = b.toInt / 1000000 - a.toInt / 1000000 := sub_div ..

theorem microsToUsd_le {a b : Int64} (ha : |a.toInt| < toldApartBelow)
    (hb : |b.toInt| < toldApartBelow) (h : microsToUsd a ≤ microsToUsd b) :
    a.toInt ≤ b.toInt := by
  apply not_lt.mp
  intro hlt
  exact absurd h (not_le.mpr (microsToUsd_lt hb ha hlt))

theorem stateRank_injective : Function.Injective stateRank := by
  intro a b h
  cases a <;> cases b <;> first | rfl | cases h

/-! ## The rows -/

section Rows

variable {units : Option (List UnitAgg)} {caps : Option Caps}

/-- What a unit spent, in micro-dollars. -/
def spentOf (units : Option (List UnitAgg)) (name : Text) : Option Int64 :=
  (aggOf units name).map UnitAgg.monthSpentMicrousd

/-- What the rows are ordered by. -/
def rowKey (row : UnitCapDto) : Nat ×ₗ (ℚᵒᵈ ×ₗ Text) :=
  toLex (stateRank row.state, toLex (OrderDual.toDual row.spent, row.unit))

theorem rowLe_iff {a b : UnitCapDto} : rowLe a b = true ↔ rowKey a ≤ rowKey b := by
  rw [rowLe, rowKey, rowKey, Prod.Lex.toLex_le_toLex, Prod.Lex.toLex_le_toLex]
  simp only [Bool.or_eq_true, Bool.and_eq_true, decide_eq_true_eq, OrderDual.toDual_lt_toDual,
    OrderDual.toDual_inj]

theorem pairwise_joinUnitCaps :
    (joinUnitCaps units caps).Pairwise fun a b => rowKey a ≤ rowKey b := by
  have hsorted := @List.pairwise_mergeSort _ rowLe
    (fun a b c hab hbc => rowLe_iff.mpr ((rowLe_iff.mp hab).trans (rowLe_iff.mp hbc)))
    (fun a b => (Bool.or_eq_true _ _).mpr
      ((le_total (rowKey a) (rowKey b)).imp rowLe_iff.mpr rowLe_iff.mpr))
    ((unitNames units caps).map (unitRow units caps))
  exact hsorted.imp rowLe_iff.mp

theorem perm_joinUnitCaps :
    (joinUnitCaps units caps).Perm ((unitNames units caps).map (unitRow units caps)) :=
  List.mergeSort_perm _ _

theorem map_unit_unitRow (names : List Text) :
    (names.map (unitRow units caps)).map UnitCapDto.unit = names := by
  rw [List.map_map]
  exact List.map_id _

theorem mem_unitNames {name : Text} : name ∈ unitNames units caps ↔
    (∃ u ∈ units.getD [], u.unit = name) ∨ ∃ c, caps = some c ∧ name ∈ c := by
  rw [unitNames, Lifecycle.btreeSet, List.mem_insertionSort, List.mem_dedup, List.mem_append,
    List.mem_map]
  apply or_congr Iff.rfl
  cases caps with
  | none => simp
  | some c => simp [AList.mem_keys]

theorem nodup_unitNames : (unitNames units caps).Nodup :=
  (List.perm_insertionSort _ _).nodup_iff.mpr (List.nodup_dedup _)

theorem eq_unitRow {row : UnitCapDto} (h : row ∈ joinUnitCaps units caps) :
    row = unitRow units caps row.unit := by
  obtain ⟨name, -, rfl⟩ := List.mem_map.mp (perm_joinUnitCaps.mem_iff.mp h)
  rfl

theorem spentOf_eq_none {name : Text} :
    spentOf units name = none ↔ ∀ u ∈ units.getD [], u.unit ≠ name := by
  rw [spentOf, Option.map_eq_none_iff, aggOf, List.find?_eq_none]
  simp only [List.mem_reverse, decide_eq_true_eq, ne_eq]

/-- What the unit of a row spent, a unit without a record nothing. -/
def spentMicros (units : Option (List UnitAgg)) (row : UnitCapDto) : Int64 :=
  (spentOf units row.unit).getD 0

theorem spent_unitRow (name : Text) :
    (unitRow units caps name).spent = microsToUsd ((spentOf units name).getD 0) := by
  rw [UnitCapDto.spent, unitRow, spentOf]
  cases aggOf units name with
  | some agg => rfl
  | none =>
      change 0 = microsToUsd 0
      have hzero : (Int64.toInt 0 : ℚ) = 0 := rfl
      rw [microsToUsd, hzero, toDouble_zero, zero_div, toDouble_zero]

end Rows

/-- The rows of two reads. -/
structure Joined (units : Option (List UnitAgg)) (caps : Option Caps) (rows : List UnitCapDto) :
    Prop where
  /-- Every unit that either read names has one row, and no other unit has one. -/
  oneEach : (rows.map UnitCapDto.unit).Nodup
  listed : ∀ name, name ∈ rows.map UnitCapDto.unit ↔
    (∃ u ∈ units.getD [], u.unit = name) ∨ ∃ c, caps = some c ∧ name ∈ c
  /-- A spend that no answer has is not shown as a zero. -/
  unreported : ∀ row ∈ rows,
    row.monthSpentUsd = none ↔ ∀ u ∈ units.getD [], u.unit ≠ row.unit
  /-- A unit is over its cap exactly if its month's micro-dollars are at the cap. -/
  spentUp : ∀ row ∈ rows, row.state = .overCap ↔
    ∃ c, capOf caps row.unit = some c ∧ (c ≤ 0 ∨ ∃ s, spentOf units row.unit = some s ∧ c ≤ s)
  /-- No rounding moves a row. -/
  unrounded : ∀ row ∈ rows, (∀ c, capOf caps row.unit = some c → c.toInt < exactBelow) →
    row.state = exactStanding ((capOf caps row.unit).map Int64.toInt) caps.isSome
      ((spentOf units row.unit).map Int64.toInt)
  /-- The rows stand in order: by where they stand, the highest spend shown first, then by name. -/
  sorted : rows.Pairwise fun a b => stateRank a.state < stateRank b.state ∨ a.state = b.state ∧
    (b.spent < a.spent ∨ a.spent = b.spent ∧ a.unit < b.unit)
  /-- Where doubles tell the micro-dollars apart, it is their order. -/
  ordered : (∀ row ∈ rows, |(spentMicros units row).toInt| < toldApartBelow) →
    rows.Pairwise fun a b => stateRank a.state < stateRank b.state ∨ a.state = b.state ∧
      ((spentMicros units b).toInt < (spentMicros units a).toInt ∨
        spentMicros units a = spentMicros units b ∧ a.unit < b.unit)

theorem sorted_of_rowKey {a b : UnitCapDto} (hdistinct : a.unit ≠ b.unit)
    (h : rowKey a ≤ rowKey b) : stateRank a.state < stateRank b.state ∨ a.state = b.state ∧
      (b.spent < a.spent ∨ a.spent = b.spent ∧ a.unit < b.unit) := by
  rw [rowKey, rowKey, Prod.Lex.toLex_le_toLex] at h
  apply h.imp_right
  rintro ⟨hrank, hrest⟩
  refine ⟨stateRank_injective hrank, ?_⟩
  rcases Prod.Lex.toLex_le_toLex.mp hrest with hmore | ⟨hsame, hname⟩
  · exact .inl (OrderDual.toDual_lt_toDual.mp hmore)
  · exact .inr ⟨OrderDual.toDual_inj.mp hsame, lt_of_le_of_ne hname hdistinct⟩

theorem ordered_of_rowKey {units : Option (List UnitAgg)} {caps : Option Caps} {a b : UnitCapDto}
    (ha : a ∈ joinUnitCaps units caps) (hb : b ∈ joinUnitCaps units caps)
    (hasmall : |(spentMicros units a).toInt| < toldApartBelow)
    (hbsmall : |(spentMicros units b).toInt| < toldApartBelow)
    (hdistinct : a.unit ≠ b.unit) (h : rowKey a ≤ rowKey b) :
    stateRank a.state < stateRank b.state ∨ a.state = b.state ∧
      ((spentMicros units b).toInt < (spentMicros units a).toInt ∨
        spentMicros units a = spentMicros units b ∧ a.unit < b.unit) := by
  have haspent : a.spent = microsToUsd (spentMicros units a) := by
    rw [eq_unitRow ha, spent_unitRow, ← eq_unitRow ha]
    rfl
  have hbspent : b.spent = microsToUsd (spentMicros units b) := by
    rw [eq_unitRow hb, spent_unitRow, ← eq_unitRow hb]
    rfl
  apply (sorted_of_rowKey hdistinct h).imp_right
  apply And.imp_right
  rintro (hlt | ⟨heq, hname⟩)
  · rw [haspent, hbspent] at hlt
    left
    apply lt_of_le_of_ne (microsToUsd_le hbsmall hasmall hlt.le)
    intro heq
    rw [Int64.toInt_inj.mp heq] at hlt
    exact absurd hlt (lt_irrefl _)
  · rw [haspent, hbspent] at heq
    right
    refine ⟨Int64.toInt_inj.mp ?_, hname⟩
    exact le_antisymm (microsToUsd_le hasmall hbsmall heq.le)
      (microsToUsd_le hbsmall hasmall heq.ge)

theorem joined_joinUnitCaps (units : Option (List UnitAgg)) (caps : Option Caps) :
    Joined units caps (joinUnitCaps units caps) := by
  have hnames : ((joinUnitCaps units caps).map UnitCapDto.unit).Perm (unitNames units caps) := by
    have hperm := (@perm_joinUnitCaps units caps).map UnitCapDto.unit
    rwa [map_unit_unitRow] at hperm
  have hnodup := hnames.nodup_iff.mpr nodup_unitNames
  have hpairwise := pairwise_joinUnitCaps.and (List.pairwise_map.mp hnodup)
  refine ⟨hnodup, ?_, ?_, ?_, ?_, ?_, ?_⟩
  · intro name
    rw [hnames.mem_iff, mem_unitNames]
  · intro row hrow
    rw [eq_unitRow hrow]
    exact Option.map_eq_none_iff.trans spentOf_eq_none
  · intro row hrow
    rw [eq_unitRow hrow]
    exact standing_over_iff
  · intro row hrow hbelow
    rw [eq_unitRow hrow]
    exact standing_eq_exact hbelow
  · exact hpairwise.imp fun hboth => sorted_of_rowKey hboth.2 hboth.1
  · intro hsmall
    apply hpairwise.imp_of_mem
    intro a b ha hb hboth
    exact ordered_of_rowKey ha hb (hsmall a ha) (hsmall b hb) hboth.2 hboth.1

/-! ## The section -/

/-- What a read answered, if it answered anything. -/
def answerOf {α : Type} : Except ConnectorError (Option α) → Option α
  | .ok answer => answer
  | .error _ => none

theorem readOf_snd {α : Type} (route absent : Text) (read : Except ConnectorError (Option α)) :
    (readOf route absent read).2 = [] ↔ (answerOf read).isSome = true := by
  rcases read with e | _ | a <;> simp [readOf, answerOf]

/-- What a user gets to see of two reads. -/
structure SectionOf (units : Except ConnectorError (Option (List UnitAgg)))
    (caps : Except ConnectorError (Option Caps)) (dto : UnitCapsDto) : Prop where
  joined : Joined (answerOf units) (answerOf caps) dto.units
  unitsRead : dto.unitsRead = (answerOf units).isSome
  capsRead : dto.capsRead = (answerOf caps).isSome
  /-- What has no note was read. -/
  notes : dto.notes = [] ↔ dto.unitsRead = true ∧ dto.capsRead = true

/-- What `money_units` makes of a state and of two reads. -/
structure UnitsShown (state : MoneyState) (units : Except ConnectorError (Option (List UnitAgg)))
    (caps : Except ConnectorError (Option Caps)) : Prop where
  /-- There is a section unless neither read answers. -/
  shown : (∃ dto, moneyUnits state units caps = .ok dto) ↔
    (∃ client, state.readyClient = .ok client) ∧
      ((∃ answer, units = .ok answer) ∨ ∃ answer, caps = .ok answer)
  sectionOf : ∀ dto, moneyUnits state units caps = .ok dto → SectionOf units caps dto

def sectionDto (units : Except ConnectorError (Option (List UnitAgg)))
    (caps : Except ConnectorError (Option Caps)) : UnitCapsDto where
  month := (answerOf units).bind fun u => (u.map UnitAgg.month).find? fun m => !m.isEmpty
  unitsRead := (answerOf units).isSome
  capsRead := (answerOf caps).isSome
  notes := (readOf "GET /v1/units" noUnits units).2 ++
    (readOf "GET /v1/unit-budgets" noUnitBudgets caps).2
  units := joinUnitCaps (answerOf units) (answerOf caps)

theorem sectionOf_sectionDto (units : Except ConnectorError (Option (List UnitAgg)))
    (caps : Except ConnectorError (Option Caps)) : SectionOf units caps (sectionDto units caps) where
  joined := joined_joinUnitCaps _ _
  unitsRead := rfl
  capsRead := rfl
  notes := by
    rw [sectionDto, List.append_eq_nil_iff, readOf_snd, readOf_snd]

theorem moneyUnits_eq {state : MoneyState} {client : MoneyClient}
    (hready : state.readyClient = .ok client)
    (units : Except ConnectorError (Option (List UnitAgg)))
    (caps : Except ConnectorError (Option Caps)) :
    moneyUnits state units caps =
      match units, caps with
      | .error e, .error _ => .error (.ofConnector e)
      | units, caps => .ok (sectionDto units caps) := by
  unfold moneyUnits
  rw [hready]
  rcases units with e | _ | u <;> rcases caps with e' | _ | c <;> rfl

/-- **Each unit has one row that says exactly where its month stands.** -/
theorem unit_caps_joined (state : MoneyState)
    (units : Except ConnectorError (Option (List UnitAgg)))
    (caps : Except ConnectorError (Option Caps)) : UnitsShown state units caps := by
  cases hready : state.readyClient with
  | error e =>
      have hnone : moneyUnits state units caps = .error e := by
        unfold moneyUnits
        rw [hready]
        rfl
      constructor
      · rw [hnone, hready]
        apply iff_of_false
        · rintro ⟨_, h⟩
          cases h
        · rintro ⟨⟨_, h⟩, -⟩
          cases h
      · intro dto h
        rw [hnone] at h
        cases h
  | ok client =>
      constructor
      · rw [moneyUnits_eq hready, hready]
        rcases units with e | u <;> rcases caps with e' | c <;> simp
      · intro dto h
        rw [moneyUnits_eq hready] at h
        split at h <;> cases h
        exact sectionOf_sectionDto _ _

end Genaryx.Money
