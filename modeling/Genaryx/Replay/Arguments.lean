import Genaryx.Replay.Echo

/-!
# The candidate as it is handed over

A candidate goes to the command line as flags with dollars behind them. The command line multiplies
dollars by a million and cuts the rest off, so half a micro-dollar is added before: what it reads is
then the amount that was asked for, always.

## Implementation notes

A double is the rational it stands for. It is written with as few decimals as read back as it. Every
double has 1074 decimals at most.
-/

namespace Genaryx.Replay

open Json Text

def amountUnreadable : Text := "the amount cannot be handed to tokenfuse exactly".toList

/-- A number of units, of which there are ten to the power of `decimals` in one. -/
def pointed (decimals n : Nat) : Text :=
  if decimals = 0 then decimal n
  else decimal (n / 10 ^ decimals) ++ '.' :: padded decimals (n % 10 ^ decimals)

/-- The units that read back as a double: the nearest, or else the next on its other side. -/
def unitsOf (v : ℚ) (decimals : Nat) : Option Nat :=
  let near := (roundEven (v * 10 ^ decimals)).toNat
  let other := if (near : ℚ) ≤ v * 10 ^ decimals then near + 1 else near - 1
  [near, other].find? fun n => toDouble (n / 10 ^ decimals) == v

/-- `f64::to_string`, of a positive double below `2 ^ 53`. -/
def displayDouble (v : ℚ) : Text :=
  ((List.range 1075).findSome? fun d => (unitsOf v d).map (pointed d)).getD []

/-- `str::parse::<f64>`, of digits with a point among them or none. -/
def parseDouble (t : Text) : Option ℚ :=
  let (whole, fraction) := (splitOnce '.' t).getD (t, [])
  if !whole.isEmpty && whole.all Char.isDigit && fraction.all Char.isDigit then
    some (toDouble (dollars whole fraction))
  else none

/-- `as i64`, of a double: towards zero, and no further than the type goes. -/
def truncateI64 (v : ℚ) : Int :=
  max (-2 ^ 63) (min (if v < 0 then ⌈v⌉ else ⌊v⌋) (2 ^ 63 - 1))

/-- The micro-dollars that the command line reads. -/
def readAmount (t : Text) : Option Int :=
  (parseDouble t).map fun v => truncateI64 (toDouble (v * 1000000))

theorem amountLarge_ne_amountUnreadable : amountLarge ≠ amountUnreadable := by
  intro h
  have hhead : amountLarge.head? = amountUnreadable.head? := congrArg List.head? h
  have hlarge : amountLarge.head? = some 'a' := head?_literal.trans rfl
  have hunreadable : amountUnreadable.head? = some 't' := head?_literal.trans rfl
  rw [hlarge, hunreadable] at hhead
  exact absurd (Option.some.inj hhead) (by decide)

/-- The text that the command line reads as exactly so many micro-dollars. -/
def cliAmount (micros : Int) : Except Text Text :=
  if 1 ≤ micros ∧ micros ≤ maxLimitMicros then
    let text := displayDouble (toDouble (toDouble (toDouble micros + 1 / 2) / 1000000))
    if readAmount text = some micros then .ok text else .error amountUnreadable
  else .error amountLarge

namespace BudgetCandidate

def budgetFlag : Text := "--budget".toList

def budgetPerStepFlag : Text := "--budget-per-step".toList

def maxStepsFlag : Text := "--max-steps".toList

/-- A flag with an amount behind it. -/
def amountFlag (flag : Text) : Option Int → Except Text (List Text)
  | none => .ok []
  | some micros => (cliAmount micros).map fun amount => [flag, amount]

variable (c : BudgetCandidate)

/-- The flags that a backtest is run with, in the order it prints them. -/
def args : Except Text (List Text) := do
  let perRun ← amountFlag budgetFlag c.perRunMicros
  let perStep ← amountFlag budgetPerStepFlag c.perStepMicros
  let maxSteps := (c.maxSteps.map fun n => [maxStepsFlag, decimal n.toNat]).getD []
  return perRun ++ perStep ++ maxSteps

end BudgetCandidate

/-- Flags read back: each limit from the text behind its flag. -/
def readFlags : BudgetCandidate → List Text → Option BudgetCandidate
  | c, [] => some c
  | c, flag :: value :: rest =>
      if flag = BudgetCandidate.budgetFlag then
        (readAmount value).bind fun n => readFlags { c with perRunMicros := some n } rest
      else if flag = BudgetCandidate.budgetPerStepFlag then
        (readAmount value).bind fun n => readFlags { c with perStepMicros := some n } rest
      else if flag = BudgetCandidate.maxStepsFlag then
        (parseU64 value).bind fun n =>
          if n < 2 ^ 32 then readFlags { c with maxSteps := some (UInt32.ofNat n) } rest else none
      else none
  | _, [_] => none

/-! ## Doubles in texts -/

section Doubles

variable {v : ℚ} {d n : Nat}

theorem dollars_decimal (n : Nat) : dollars (decimal n) [] = n := by
  rw [dollars, List.append_nil, digitsValue_decimal, List.length_nil, pow_zero, div_one]

theorem dollars_pointed (hd : 0 < d) :
    dollars (decimal (n / 10 ^ d)) (padded d (n % 10 ^ d)) = n / 10 ^ d := by
  have hlength : (padded d (n % 10 ^ d)).length = d :=
    length_padded hd (Nat.mod_lt _ (by positivity))
  rw [dollars, digitsValue_append, hlength, digitsValue_decimal, digitsValue_padded,
    Nat.mul_comm, Nat.div_add_mod]

/-- A number of units is read as the double nearest to it. -/
theorem parseDouble_pointed (d n : Nat) :
    parseDouble (pointed d n) = some (toDouble (n / 10 ^ d)) := by
  have hread : ∀ {w f : Text}, IsDigits w → (∀ c ∈ f, c.isDigit = true) →
      (!w.isEmpty && w.all Char.isDigit && f.all Char.isDigit) = true := by
    intro w f hw hf
    rw [List.isEmpty_eq_false_iff.mpr hw.1, List.all_eq_true.mpr hw.2, List.all_eq_true.mpr hf]
    rfl
  rw [pointed]
  split
  · next hd =>
      have hdigits := isDigits_decimal n
      rw [parseDouble, splitOnce_eq_none '.' _ (point_notMem hdigits.2)]
      simp only [Option.getD_none]
      rw [if_pos (hread hdigits fun c hc => absurd hc List.not_mem_nil), dollars_decimal, hd,
        pow_zero, div_one]
  · next hd =>
      have hw := isDigits_decimal (n / 10 ^ d)
      have hf := isDigits_padded d (n % 10 ^ d)
      rw [parseDouble, splitOnce_append '.' _ _ (point_notMem hw.2)]
      simp only [Option.getD_some]
      rw [if_pos (hread hw hf.2), dollars_pointed (Nat.pos_of_ne_zero hd)]

theorem toDouble_of_unitsOf (h : unitsOf v d = some n) : toDouble (n / 10 ^ d) = v := by
  have hread := List.find?_some h
  exact eq_of_beq hread

/-- A double whose decimals end is written with those at the latest. -/
theorem unitsOf_of_eq (hv : toDouble v = v) (h : v * 10 ^ d = n) : unitsOf v d = some n := by
  have hnear : (roundEven (v * 10 ^ d)).toNat = n := by
    rw [h, ← Int.cast_natCast, roundEven_intCast, Int.toNat_natCast]
  have hunits : (n : ℚ) / 10 ^ d = v := by
    rw [← h, mul_div_assoc, div_self (by positivity), mul_one]
  rw [unitsOf]
  simp only [hnear]
  exact List.find?_cons_of_pos (by rw [hunits, hv, beq_self_eq_true])

/-- What a double is written as reads back as that double. -/
theorem parseDouble_displayDouble (hv : toDouble v = v)
    (hdecimals : ∃ d < 1075, ∃ n : Nat, v * 10 ^ d = n) :
    parseDouble (displayDouble v) = some v := by
  obtain ⟨d, hd, n, hn⟩ := hdecimals
  have hsome : ((List.range 1075).findSome? fun d => (unitsOf v d).map (pointed d)).isSome := by
    rw [List.findSome?_isSome_iff]
    exact ⟨d, List.mem_range.mpr hd, by rw [unitsOf_of_eq hv hn]; rfl⟩
  obtain ⟨t, ht⟩ := Option.isSome_iff_exists.mp hsome
  obtain ⟨k, -, hk⟩ := List.exists_of_findSome?_eq_some ht
  obtain ⟨m, hm, rfl⟩ := Option.map_eq_some_iff.mp hk
  rw [displayDouble, ht, Option.getD_some, parseDouble_pointed, toDouble_of_unitsOf hm]

/-- A double that is not too small has decimals that end. -/
theorem exists_decimals {q : ℚ} (hlow : (1 : ℚ) / 2 ^ 20 ≤ q) :
    ∃ d < 1075, ∃ n : Nat, toDouble q * 10 ^ d = n := by
  have hq : 0 < q := lt_of_lt_of_le (by norm_num) hlow
  obtain ⟨k, e, -, he, heq⟩ := exists_toDouble_eq q
  have hlog : (-20 : ℤ) ≤ Int.log 2 |q| := by
    rw [← Int.zpow_le_iff_le_log (by decide) (abs_pos.mpr hq.ne'), abs_of_pos hq]
    calc ((2 : ℕ) : ℚ) ^ (-20 : ℤ) = 1 / 2 ^ 20 := by norm_num [zpow_neg]
      _ ≤ q := hlow
  obtain ⟨j, hj⟩ : ∃ j : ℕ, e = j - 72 := ⟨(e + 72).toNat, by omega⟩
  have hpositive : 0 ≤ toDouble q := by
    have hnear := (abs_le.mp (toDouble_near q)).2
    rw [abs_of_pos hq] at hnear
    linarith
  have hvalue : toDouble q * 10 ^ 72 = ((k * 2 ^ j * 5 ^ 72 : ℤ) : ℚ) := by
    rw [heq, hj, zpow_sub₀ (by norm_num), zpow_natCast]
    push_cast
    norm_num
    ring
  refine ⟨72, by norm_num, (k * 2 ^ j * 5 ^ 72 : ℤ).toNat, ?_⟩
  have hnonneg : (0 : ℤ) ≤ k * 2 ^ j * 5 ^ 72 := by
    have hcast : (0 : ℚ) ≤ ((k * 2 ^ j * 5 ^ 72 : ℤ) : ℚ) := hvalue ▸ by positivity
    exact_mod_cast hcast
  rw [hvalue, ← Int.cast_natCast, Int.toNat_of_nonneg hnonneg]

end Doubles

/-! ## Amounts that are handed over -/

section Amounts

variable {n : Int}

/-- The double that is written for an amount: half a micro-dollar above it, in dollars. -/
def halfAbove (n : Int) : ℚ := toDouble (toDouble (toDouble n + 1 / 2) / 1000000)

/-- The double is the half-way point but for a thousandth of a micro-dollar. -/
theorem halfAbove_near (h : InRange n) : |halfAbove n * 1000000 - (n + 1 / 2)| ≤ 1 / 1000 := by
  have hmax : maxLimitMicros = 1000000000000 := rfl
  obtain ⟨hlow, hhigh⟩ := h
  have hexact : toDouble n = n := toDouble_intCast (by rw [abs_lt]; constructor <;> omega)
  have hlowq : (1 : ℚ) ≤ n := by exact_mod_cast hlow
  have hhighq : (n : ℚ) ≤ 1000000000000 := by exact_mod_cast hmax ▸ hhigh
  have hsum := toDouble_near ((n : ℚ) + 1 / 2)
  rw [abs_of_nonneg (by positivity : (0 : ℚ) ≤ (n : ℚ) + 1 / 2), abs_le] at hsum
  have hpositive : 0 ≤ toDouble ((n : ℚ) + 1 / 2) / 1000000 := by
    have hle : (0 : ℚ) ≤ toDouble ((n : ℚ) + 1 / 2) := by linarith
    positivity
  have hquot := toDouble_near (toDouble ((n : ℚ) + 1 / 2) / 1000000)
  rw [abs_of_nonneg hpositive, abs_le] at hquot
  rw [halfAbove, hexact, abs_le]
  constructor <;> linarith

/-- What is read of it is the amount. -/
theorem truncate_halfAbove (h : InRange n) :
    truncateI64 (toDouble (halfAbove n * 1000000)) = n := by
  have hmax : maxLimitMicros = 1000000000000 := rfl
  obtain ⟨hlow, hhigh⟩ := id h
  have hlowq : (1 : ℚ) ≤ n := by exact_mod_cast hlow
  have hhighq : (n : ℚ) ≤ 1000000000000 := by exact_mod_cast hmax ▸ hhigh
  have hnear := abs_le.mp (halfAbove_near h)
  have hpositive : 0 ≤ halfAbove n * 1000000 := by linarith
  have hread := toDouble_near (halfAbove n * 1000000)
  rw [abs_of_nonneg hpositive, abs_le] at hread
  have hfloor : ⌊toDouble (halfAbove n * 1000000)⌋ = n := by
    rw [Int.floor_eq_iff]
    constructor <;> linarith
  rw [truncateI64, if_neg (by linarith), hfloor]
  omega

/-- The double is written as a text that reads back as it. -/
theorem parseDouble_halfAbove (h : InRange n) :
    parseDouble (displayDouble (halfAbove n)) = some (halfAbove n) := by
  have hlowq : (1 : ℚ) ≤ n := by exact_mod_cast h.1
  refine parseDouble_displayDouble (toDouble_toDouble _) (exists_decimals ?_)
  have hnear := abs_le.mp (halfAbove_near h)
  have hclose := toDouble_near (toDouble (toDouble n + 1 / 2) / 1000000)
  rw [← halfAbove, abs_le] at hclose
  by_contra hsmall
  rw [not_le] at hsmall
  have hhalf : (1 : ℚ) / 1000000 ≤ halfAbove n := by linarith
  rcases le_or_gt 0 (toDouble (toDouble n + 1 / 2) / 1000000) with hpos | hneg
  · rw [abs_of_nonneg hpos] at hclose
    linarith
  · rw [abs_of_neg hneg] at hclose
    linarith

theorem readAmount_displayDouble (h : InRange n) :
    readAmount (displayDouble (halfAbove n)) = some n := by
  rw [readAmount, parseDouble_halfAbove h, Option.map_some, truncate_halfAbove h]

/-- An amount in range is handed over, as a text that is read as it. -/
theorem cliAmount_of_inRange (h : InRange n) : cliAmount n = .ok (displayDouble (halfAbove n)) :=
  (if_pos h).trans (if_pos (readAmount_displayDouble h))

/-- No other amount is, and the reason is its size. -/
theorem cliAmount_of_not_inRange (h : ¬ InRange n) : cliAmount n = .error amountLarge := if_neg h

theorem cliAmount_eq_ok_iff {t : Text} :
    cliAmount n = .ok t ↔ InRange n ∧ t = displayDouble (halfAbove n) := by
  by_cases h : InRange n
  · rw [cliAmount_of_inRange h, Except.ok.injEq]
    exact ⟨fun ht => ⟨h, ht.symm⟩, fun ht => ht.2.symm⟩
  · rw [cliAmount_of_not_inRange h]
    exact ⟨nofun, fun ht => absurd ht.1 h⟩

end Amounts

/-! ## Candidates that are handed over -/

section Flags

variable {c d : BudgetCandidate} {flag : Text} {micros : Option Int} {rest : List Text}

theorem amountFlag_of_inRange (h : ∀ n, micros = some n → InRange n) (flag : Text) :
    BudgetCandidate.amountFlag flag micros =
      .ok ((micros.map fun n => [flag, displayDouble (halfAbove n)]).getD []) := by
  cases micros with
  | none => rfl
  | some n =>
      rw [BudgetCandidate.amountFlag, cliAmount_of_inRange (h n rfl)]
      rfl

/-- The flag of the budget per run is read back. -/
theorem readFlags_budget (h : ∀ n, micros = some n → InRange n) (hd : d.perRunMicros = none) :
    readFlags d ((micros.map fun n =>
        [BudgetCandidate.budgetFlag, displayDouble (halfAbove n)]).getD [] ++ rest) =
      readFlags { d with perRunMicros := micros } rest := by
  obtain ⟨perRun, perStep, maxSteps⟩ := d
  cases micros with
  | none => rw [show perRun = none from hd]; rfl
  | some n =>
      change readFlags _ (BudgetCandidate.budgetFlag :: displayDouble (halfAbove n) :: rest) = _
      rw [readFlags, if_pos rfl, readAmount_displayDouble (h n rfl), Option.bind_some]

/-- The flag of the budget per step is read back. -/
theorem readFlags_budgetPerStep (h : ∀ n, micros = some n → InRange n)
    (hd : d.perStepMicros = none) :
    readFlags d ((micros.map fun n =>
        [BudgetCandidate.budgetPerStepFlag, displayDouble (halfAbove n)]).getD [] ++ rest) =
      readFlags { d with perStepMicros := micros } rest := by
  obtain ⟨perRun, perStep, maxSteps⟩ := d
  cases micros with
  | none => rw [show perStep = none from hd]; rfl
  | some n =>
      change readFlags _
        (BudgetCandidate.budgetPerStepFlag :: displayDouble (halfAbove n) :: rest) = _
      rw [readFlags, if_neg (by decide), if_pos rfl, readAmount_displayDouble (h n rfl),
        Option.bind_some]

/-- The flag of the step limit is read back. -/
theorem readFlags_maxSteps {maxSteps : Option UInt32} (hd : d.maxSteps = none) :
    readFlags d ((maxSteps.map fun n =>
        [BudgetCandidate.maxStepsFlag, decimal n.toNat]).getD []) =
      some { d with maxSteps := maxSteps } := by
  obtain ⟨perRun, perStep, steps⟩ := d
  cases maxSteps with
  | none => rw [show steps = none from hd]; rfl
  | some n =>
      have hlt := n.toNat_lt
      have hread : parseU64 (decimal n.toNat) = some n.toNat := by
        rw [parseU64_decimal, if_pos (by rw [u64Size]; omega)]
      change readFlags _ [BudgetCandidate.maxStepsFlag, decimal n.toNat] = _
      rw [readFlags, if_neg (by decide), if_neg (by decide), if_pos rfl, hread, Option.bind_some,
        if_pos hlt, readFlags, UInt32.ofNat_toNat]

/-- A candidate that can be asked for is read back from its flags. -/
theorem readFlags_args (h : c.Built) :
    ∃ flags, c.args = .ok flags ∧ readFlags ⟨none, none, none⟩ flags = some c := by
  obtain ⟨hrun, hstep, -⟩ := h.bounds
  rw [BudgetCandidate.args, amountFlag_of_inRange hrun, amountFlag_of_inRange hstep]
  refine ⟨_, rfl, ?_⟩
  rw [List.append_assoc, readFlags_budget hrun rfl, readFlags_budgetPerStep hstep rfl,
    readFlags_maxSteps rfl]

end Flags

/-- A limit reaches the command line as the amount that was typed. -/
structure HandedOverExactly : Prop where
  amount : ∀ (n : Int) (t : Text), cliAmount n = .ok t → readAmount t = some n
  in_range : ∀ n : Int, (∃ t, cliAmount n = .ok t) ↔ 1 ≤ n ∧ n ≤ maxLimitMicros
  readable : ∀ n : Int, cliAmount n ≠ .error amountUnreadable
  typed : ∀ (text : Text) (n : Int), parseUsd text = .ok n → ∃ t m, cliAmount n = .ok t ∧
    readAmount t = some m ∧ UsdText text ((m : ℚ) / 10 ^ 6)
  candidate : ∀ c : BudgetCandidate, c.Built → ∃ flags, c.args = .ok flags ∧
    readFlags ⟨none, none, none⟩ flags = some c

/-- **Every candidate that can be asked for reaches the command line as it is.** -/
theorem handed_over_exactly : HandedOverExactly where
  amount := by
    intro n t ht
    obtain ⟨hrange, hdisplay⟩ := cliAmount_eq_ok_iff.mp ht
    rw [hdisplay]
    exact readAmount_displayDouble hrange
  in_range := by
    intro n
    constructor
    · rintro ⟨t, ht⟩
      exact (cliAmount_eq_ok_iff.mp ht).1
    · intro h
      exact ⟨_, cliAmount_of_inRange h⟩
  readable := by
    intro n h
    by_cases hrange : InRange n
    · rw [cliAmount_of_inRange hrange] at h
      cases h
    · rw [cliAmount_of_not_inRange hrange] at h
      exact amountLarge_ne_amountUnreadable (Except.error.inj h)
  typed := by
    intro text n h
    obtain ⟨htext, hrange⟩ := parseUsd_eq_ok_iff.mp h
    exact ⟨_, n, cliAmount_of_inRange hrange, readAmount_displayDouble hrange, htext⟩
  candidate := fun _ => readFlags_args

end Genaryx.Replay
