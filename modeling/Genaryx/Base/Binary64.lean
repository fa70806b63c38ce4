import Mathlib.Algebra.Order.Field.Power
import Mathlib.Data.Int.Log
import Mathlib.Data.Rat.Floor
import Mathlib.Tactic.FieldSimp
import Mathlib.Tactic.Linarith
import Mathlib.Tactic.NormNum
import Mathlib.Tactic.Positivity
import Mathlib.Tactic.Ring

/-!
# Rounding to doubles

A rational is rounded to the nearest integer, and by that to the nearest double. Of two nearest
the even one is taken.

## Implementation notes

The exponents of doubles are left unbounded: what is rounded here is zero or in the range of
normal doubles.
-/

namespace Genaryx

/-- The integer nearest to a rational, the even one of two. -/
def roundEven (q : ℚ) : ℤ :=
  if 1 < 2 * Int.fract q ∨ (2 * Int.fract q = 1 ∧ ⌊q⌋ % 2 = 1) then ⌊q⌋ + 1 else ⌊q⌋

theorem roundEven_near (q : ℚ) : |q - roundEven q| ≤ 1 / 2 := by
  have hsum := Int.floor_add_fract q
  have hlow := Int.fract_nonneg q
  rw [abs_le, roundEven]
  split
  · next hup =>
      have hhalf : 1 ≤ 2 * Int.fract q := hup.elim le_of_lt fun h => h.1.ge
      have hhigh := Int.fract_lt_one q
      push_cast
      constructor <;> linarith
  · next hdown =>
      have hhalf : 2 * Int.fract q ≤ 1 := not_lt.mp (not_or.mp hdown).1
      constructor <;> linarith

@[simp] theorem roundEven_intCast (n : ℤ) : roundEven n = n := by
  rw [roundEven, Int.fract_intCast, Int.floor_intCast, if_neg (by norm_num)]

/-- The integer nearest to a rational, the one further from zero of two. -/
def roundAway (q : ℚ) : ℤ := if 0 ≤ q then ⌊q + 1 / 2⌋ else -⌊-q + 1 / 2⌋

/-- The integer that a number is nearer to than one half is what it is rounded to. -/
theorem roundAway_of_near {q : ℚ} {n : ℤ} (hn : 0 ≤ n) (h : |q - n| < 1 / 2) : roundAway q = n := by
  obtain ⟨hlow, hhigh⟩ := abs_lt.mp h
  have hnq : (0 : ℚ) ≤ n := by exact_mod_cast hn
  rw [roundAway]
  split_ifs with hq
  · rw [Int.floor_eq_iff]
    constructor <;> linarith
  · -- what is below zero is less than one half below it
    have hzero : n = 0 := by
      have hlt : (n : ℚ) < 1 := by linarith
      have hlt' : n < 1 := by exact_mod_cast hlt
      omega
    subst hzero
    rw [neg_eq_zero, Int.floor_eq_zero_iff, Set.mem_Ico]
    rw [Int.cast_zero] at hlow
    constructor <;> linarith

/-- How far apart the doubles around a number are. -/
def doubleSpacing (q : ℚ) : ℚ := 2 ^ (Int.log 2 |q| - 52)

/-- The double nearest to a number. -/
def toDouble (q : ℚ) : ℚ := roundEven (q / doubleSpacing q) * doubleSpacing q

theorem doubleSpacing_pos (q : ℚ) : 0 < doubleSpacing q := zpow_pos (by norm_num) _

theorem doubleSpacing_le {q : ℚ} (hq : q ≠ 0) : doubleSpacing q ≤ |q| / 2 ^ 52 := by
  have hlog : (2 : ℚ) ^ Int.log 2 |q| ≤ |q| :=
    Int.zpow_log_le_self (by decide) (abs_pos.mpr hq)
  have hspacing : doubleSpacing q = 2 ^ Int.log 2 |q| / 2 ^ 52 := by
    rw [doubleSpacing, zpow_sub₀ (by norm_num)]
    rfl
  rw [hspacing]
  gcongr

theorem toDouble_nonneg {q : ℚ} (h : 0 ≤ q) : 0 ≤ toDouble q := by
  have hquot : 0 ≤ q / doubleSpacing q := div_nonneg h (doubleSpacing_pos q).le
  have hround : 0 ≤ roundEven (q / doubleSpacing q) := by
    rw [roundEven]
    have hfloor := Int.floor_nonneg.mpr hquot
    split <;> omega
  exact mul_nonneg (Int.cast_nonneg hround) (doubleSpacing_pos q).le

/-- A double is off by one part in `2 ^ 53` at most. -/
theorem toDouble_near (q : ℚ) : |q - toDouble q| ≤ |q| / 2 ^ 53 := by
  by_cases hq : q = 0
  · subst hq
    rw [toDouble, zero_div, ← Int.cast_zero, roundEven_intCast]
    norm_num
  · have hpos := doubleSpacing_pos q
    have hround := roundEven_near (q / doubleSpacing q)
    have hscaled : q - toDouble q =
        (q / doubleSpacing q - roundEven (q / doubleSpacing q)) * doubleSpacing q := by
      rw [toDouble, sub_mul, div_mul_cancel₀ q hpos.ne']
    calc |q - toDouble q|
        = |q / doubleSpacing q - roundEven (q / doubleSpacing q)| * doubleSpacing q := by
          rw [hscaled, abs_mul, abs_of_pos hpos]
      _ ≤ 1 / 2 * (|q| / 2 ^ 52) :=
          mul_le_mul hround (doubleSpacing_le hq) hpos.le (by norm_num)
      _ = |q| / 2 ^ 53 := by ring

/-- Numbers that are further apart than they are rounded keep their order. -/
theorem toDouble_lt_toDouble {p q : ℚ} (h : (|p| + |q|) / 2 ^ 53 < q - p) :
    toDouble p < toDouble q := by
  have hp := abs_le.mp (toDouble_near p)
  have hq := abs_le.mp (toDouble_near q)
  have hsum : (|p| + |q|) / 2 ^ 53 = |p| / 2 ^ 53 + |q| / 2 ^ 53 := add_div ..
  linarith

/-- An integer of at most 53 bits is a double. -/
theorem toDouble_intCast {n : ℤ} (h : |n| < 2 ^ 53) : toDouble n = n := by
  by_cases hn : n = 0
  · subst hn
    rw [toDouble, Int.cast_zero, zero_div, ← Int.cast_zero, roundEven_intCast, Int.cast_zero,
      zero_mul]
  · have habs : (0 : ℚ) < |(n : ℚ)| := abs_pos.mpr (Int.cast_ne_zero.mpr hn)
    have hlog : Int.log 2 |(n : ℚ)| < 53 := by
      rw [← Int.lt_zpow_iff_log_lt (by decide) habs]
      have hcast : |(n : ℚ)| < 2 ^ 53 := by exact_mod_cast h
      exact hcast
    obtain ⟨k, hk⟩ : ∃ k : ℕ, Int.log 2 |(n : ℚ)| - 52 = -(k : ℤ) :=
      ⟨(52 - Int.log 2 |(n : ℚ)|).toNat, by omega⟩
    have hspacing : doubleSpacing n = 1 / 2 ^ k := by
      rw [doubleSpacing, hk, zpow_neg, zpow_natCast, one_div]
    have hquot : (n : ℚ) / doubleSpacing n = ((n * 2 ^ k : ℤ) : ℚ) := by
      rw [hspacing]
      push_cast
      field_simp
    rw [toDouble, hquot, roundEven_intCast, hspacing]
    push_cast
    field_simp

/-! ## What is a double already -/

theorem toDouble_zero : toDouble 0 = 0 := by
  rw [toDouble, zero_div, ← Int.cast_zero, roundEven_intCast, Int.cast_zero, zero_mul]

/-- An integer of at most 53 bits, times a power of two, is a double. -/
theorem toDouble_mul_zpow {k : ℤ} (hk : |k| < 2 ^ 53) (e : ℤ) :
    toDouble (k * 2 ^ e) = k * 2 ^ e := by
  by_cases hzero : k = 0
  · rw [hzero, Int.cast_zero, zero_mul, toDouble_zero]
  · have hpow : (0 : ℚ) < 2 ^ e := zpow_pos (by norm_num) e
    have habs : |(k : ℚ) * 2 ^ e| = |(k : ℚ)| * 2 ^ e := by rw [abs_mul, abs_of_pos hpow]
    have hpos : (0 : ℚ) < |(k : ℚ) * 2 ^ e| :=
      abs_pos.mpr (mul_ne_zero (Int.cast_ne_zero.mpr hzero) hpow.ne')
    have hlog : Int.log 2 |(k : ℚ) * 2 ^ e| < 53 + e := by
      rw [← Int.lt_zpow_iff_log_lt (by decide) hpos, habs]
      have hcast : |(k : ℚ)| < 2 ^ 53 := by exact_mod_cast hk
      calc |(k : ℚ)| * 2 ^ e < 2 ^ 53 * 2 ^ e := mul_lt_mul_of_pos_right hcast hpow
        _ = ((2 : ℕ) : ℚ) ^ (53 + e) := by
          rw [zpow_add₀ (by norm_num)]
          norm_num
    obtain ⟨j, hj⟩ : ∃ j : ℕ, e = Int.log 2 |(k : ℚ) * 2 ^ e| - 52 + j :=
      ⟨(e - (Int.log 2 |(k : ℚ) * 2 ^ e| - 52)).toNat, by omega⟩
    have hspacing : (2 : ℚ) ^ e = doubleSpacing (k * 2 ^ e) * 2 ^ j := by
      rw [doubleSpacing, ← zpow_natCast, ← zpow_add₀ (by norm_num), ← hj]
    have hquot : (k : ℚ) * 2 ^ e / doubleSpacing (k * 2 ^ e) = ((k * 2 ^ j : ℤ) : ℚ) := by
      rw [div_eq_iff (doubleSpacing_pos _).ne']
      calc (k : ℚ) * 2 ^ e = k * (doubleSpacing (k * 2 ^ e) * 2 ^ j) := congrArg _ hspacing
        _ = ((k * 2 ^ j : ℤ) : ℚ) * doubleSpacing (k * 2 ^ e) := by
          push_cast
          ring
    rw [toDouble, hquot, roundEven_intCast, ← hquot, div_mul_cancel₀ _ (doubleSpacing_pos _).ne']

/-- What rounding gives is such a product. -/
theorem exists_toDouble_eq (q : ℚ) :
    ∃ (k e : ℤ), |k| < 2 ^ 53 ∧ Int.log 2 |q| - 52 ≤ e ∧ toDouble q = k * 2 ^ e := by
  have hpos := doubleSpacing_pos q
  have hsmall : |q / doubleSpacing q| < 2 ^ 53 := by
    rw [abs_div, abs_of_pos hpos, div_lt_iff₀ hpos, doubleSpacing, zpow_sub₀ (by norm_num)]
    have hlog := Int.lt_zpow_succ_log_self (b := 2) (by decide) |q|
    rw [zpow_add₀ (by norm_num)] at hlog
    calc |q| < (2 : ℚ) ^ Int.log 2 |q| * 2 ^ (1 : ℤ) := by exact_mod_cast hlog
      _ = 2 ^ 53 * (2 ^ Int.log 2 |q| / 2 ^ (52 : ℤ)) := by
        norm_num
        ring
  have hround := roundEven_near (q / doubleSpacing q)
  have hle : |roundEven (q / doubleSpacing q)| ≤ 2 ^ 53 := by
    have hlt : |(roundEven (q / doubleSpacing q) : ℚ)| < 2 ^ 53 + 1 := by
      rw [abs_lt] at hsmall ⊢
      rw [abs_le] at hround
      constructor <;> linarith
    have hint : |roundEven (q / doubleSpacing q)| < 2 ^ 53 + 1 := by exact_mod_cast hlt
    omega
  rcases hle.lt_or_eq with hlt | heq
  · exact ⟨_, _, hlt, le_refl _, rfl⟩
  -- All 53 bits carried over into the next power of two.
  · rcases (abs_eq (by norm_num)).mp heq with htop | htop
    · refine ⟨1, Int.log 2 |q| - 52 + 53, by norm_num, by omega, ?_⟩
      rw [toDouble, htop, doubleSpacing, zpow_add₀ (by norm_num)]
      push_cast
      norm_num
      ring
    · refine ⟨-1, Int.log 2 |q| - 52 + 53, by norm_num, by omega, ?_⟩
      rw [toDouble, htop, doubleSpacing, zpow_add₀ (by norm_num)]
      push_cast
      norm_num
      ring

@[simp] theorem toDouble_toDouble (q : ℚ) : toDouble (toDouble q) = toDouble q := by
  obtain ⟨k, e, hk, -, heq⟩ := exists_toDouble_eq q
  rw [heq, toDouble_mul_zpow hk]

end Genaryx
