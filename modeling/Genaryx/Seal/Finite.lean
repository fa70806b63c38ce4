import Genaryx.Seal.Doubles

/-!
# The finite doubles

The finite doubles with their values, the shortest digits that are nearer to one than to any other,
and the reader that takes a decimal to the nearest one, are as the writer of numbers needs them.
-/

namespace Genaryx

namespace Json.Scientific

variable {c : Nat} {e : Int}

theorem decimal_bounds (hc : 0 < c) :
    (10 : ℚ) ^ ((Text.decimal c).length - 1 + e) ≤ c * 10 ^ e ∧
      c * 10 ^ e < (10 : ℚ) ^ ((Text.decimal c).length + e) := by
  have hne : (10 : ℚ) ≠ 0 := by norm_num
  have hpos : (0 : ℚ) < 10 ^ e := zpow_pos (by norm_num) e
  obtain ⟨z, hz⟩ : ∃ z, (Text.decimal c).length = z + 1 :=
    Nat.exists_eq_add_one.mpr (List.length_pos_of_ne_nil (isDigits_decimal c).1)
  have hlow : (10 : ℚ) ^ z ≤ c := by exact_mod_cast Seal.Doubles.pow_le_of_length_decimal hc hz
  have hhigh : (c : ℚ) < 10 ^ (z + 1) := by
    have hlt := (Nat.length_toDigits_le_iff (b := 10) (n := c) (by decide) z.succ_pos).mp hz.le
    exact_mod_cast hlt
  rw [hz]
  constructor
  · rw [show ((z + 1 : Nat) : Int) - 1 + e = z + e by omega, zpow_add₀ hne, zpow_natCast]
    exact mul_le_mul_of_nonneg_right hlow hpos.le
  · rw [zpow_add₀ hne, zpow_natCast]
    exact mul_lt_mul_of_pos_right hhigh hpos

/-- A decimal in the range of doubles has digits. -/
theorem exists_value_eq (hc : 0 < c) (hlow : (10 : ℚ) ^ (-324 : Int) ≤ c * 10 ^ e)
    (hhigh : (c : ℚ) * 10 ^ e < 10 ^ (309 : Int)) : ∃ s : Scientific, s.value = c * 10 ^ e := by
  obtain ⟨hle, hlt⟩ := decimal_bounds (e := e) hc
  have hmin := (zpow_lt_zpow_iff_right₀ (by norm_num : (1 : ℚ) < 10)).mp (hlow.trans_lt hlt)
  have hmax := (zpow_lt_zpow_iff_right₀ (by norm_num : (1 : ℚ) < 10)).mp (hle.trans_lt hhigh)
  refine ⟨⟨Text.decimal c, (Text.decimal c).length - 1 + e, isDigits_decimal c, head?_decimal hc,
    by omega, by omega⟩, ?_⟩
  rw [value, digitsValue_decimal]
  congr 2
  dsimp only
  omega

end Json.Scientific

namespace Seal

open Json

/-- Whether a number is a finite double. -/
def IsFinite (q : ℚ) : Prop :=
  ∃ (m : Nat) (e : Int), m < 2 ^ 53 ∧ -1074 ≤ e ∧ e ≤ 971 ∧ |q| = m * 2 ^ e

/-- A finite double. Both zeros are one here, as they are written alike. -/
def FiniteDouble : Type := {q : ℚ // IsFinite q}

theorem isFinite_neg {q : ℚ} (h : IsFinite q) : IsFinite (-q) := by
  rwa [IsFinite, abs_neg]

theorem isFinite_abs {q : ℚ} (h : IsFinite q) : IsFinite |q| := by
  rwa [IsFinite, abs_abs]

theorem isFinite_mul {m : Nat} (hm : m ≤ 2 ^ 53) {e : Int} (hlow : -1074 ≤ e) (hhigh : e ≤ 970) :
    IsFinite (m * 2 ^ e) := by
  have habs : |(m : ℚ) * 2 ^ e| = m * 2 ^ e :=
    abs_of_nonneg (mul_nonneg m.cast_nonneg (zpow_pos (by norm_num) e).le)
  rw [IsFinite, habs]
  rcases hm.lt_or_eq with hlt | rfl
  · exact ⟨m, e, hlt, hlow, by omega, rfl⟩
  · refine ⟨2 ^ 52, e + 1, by decide, by omega, by omega, ?_⟩
    rw [zpow_add₀ (by norm_num)]
    push_cast
    ring

theorem two_pow_le_ten_pow {a b : Nat} (h : 2 ^ a ≤ 10 ^ b) : (2 : ℚ) ^ (a : Int) ≤ 10 ^ (b : Int) := by
  rw [zpow_natCast, zpow_natCast]
  exact_mod_cast h

theorem ten_pow_neg_le_two_pow_neg {a b : Nat} (h : 2 ^ a ≤ 10 ^ b) :
    (10 : ℚ) ^ (-(b : Int)) ≤ 2 ^ (-(a : Int)) := by
  rw [zpow_neg, zpow_neg]
  exact inv_anti₀ (zpow_pos (by norm_num) _) (two_pow_le_ten_pow h)

/-- A power of two is a decimal. -/
theorem exists_decimal (m : Nat) (e : Int) :
    ∃ (c : Nat) (k : Int), (m : ℚ) * 2 ^ e = c * 10 ^ k ∧ (0 < m → 0 < c) := by
  rcases le_or_gt 0 e with he | he
  · obtain ⟨n, rfl⟩ := Int.eq_ofNat_of_zero_le he
    refine ⟨m * 2 ^ n, 0, ?_, fun hm => Nat.mul_pos hm (Nat.pow_pos (by decide))⟩
    rw [zpow_zero, mul_one, zpow_natCast]
    push_cast
    rfl
  · obtain ⟨n, hn⟩ := Int.eq_ofNat_of_zero_le (neg_nonneg.mpr he.le)
    obtain rfl : e = -(n : Int) := by omega
    refine ⟨m * 5 ^ n, -(n : Int), ?_, fun hm => Nat.mul_pos hm (Nat.pow_pos (by decide))⟩
    rw [zpow_neg, zpow_neg, zpow_natCast, zpow_natCast, show (10 : ℚ) = 5 * 2 by norm_num, mul_pow]
    push_cast
    field_simp

/-- A finite double other than zero is a decimal. -/
theorem exists_scientific {q : ℚ} (h : IsFinite q) (hq : q ≠ 0) : ∃ s : Scientific, s.value = |q| := by
  obtain ⟨m, e, hm, hlow, hhigh, habs⟩ := h
  have hpos : 0 < m := by
    rw [Nat.pos_iff_ne_zero]
    rintro rfl
    rw [Nat.cast_zero, zero_mul, abs_eq_zero] at habs
    exact hq habs
  have hmin : (2 : ℚ) ^ (-1074 : Int) ≤ m * 2 ^ e := by
    have hone : (1 : ℚ) ≤ m := by exact_mod_cast hpos
    calc (2 : ℚ) ^ (-1074 : Int) ≤ 2 ^ e := zpow_le_zpow_right₀ (by norm_num) hlow
      _ ≤ m * 2 ^ e := le_mul_of_one_le_left (zpow_pos (by norm_num) e).le hone
  have hmax : (m : ℚ) * 2 ^ e < 2 ^ (1024 : Int) := by
    have hlt : (m : ℚ) < 2 ^ (53 : Int) := by exact_mod_cast hm
    calc (m : ℚ) * 2 ^ e < 2 ^ (53 : Int) * 2 ^ e :=
          mul_lt_mul_of_pos_right hlt (zpow_pos (by norm_num) e)
      _ = 2 ^ (53 + e) := (zpow_add₀ (by norm_num) _ _).symm
      _ ≤ 2 ^ (1024 : Int) := zpow_le_zpow_right₀ (by norm_num) (by omega)
  obtain ⟨c, k, hvalue, hc⟩ := exists_decimal m e
  rw [habs, hvalue]
  rw [hvalue] at hmin hmax
  have hten := ten_pow_neg_le_two_pow_neg (a := 1074) (b := 324) (by decide +kernel)
  have htwo := two_pow_le_ten_pow (a := 1024) (b := 309) (by decide +kernel)
  exact Scientific.exists_value_eq (hc hpos) (hten.trans hmin) (hmax.trans_le htwo)

/-- Whether a double is nearer to a number than any other. -/
def Nearest (q : ℚ) (x : FiniteDouble) : Prop :=
  ∀ y : FiniteDouble, y.val ≠ x.val → |q - x.val| < |q - y.val|

theorem nearest_self (x : FiniteDouble) : Nearest x.val x := fun y hy => by
  rw [sub_self, abs_zero]
  exact abs_pos.mpr (sub_ne_zero.mpr hy.symm)

theorem Nearest.unique {q : ℚ} {x y : FiniteDouble} (hx : Nearest q x) (hy : Nearest q y) : x = y := by
  by_contra hne
  have hval : y.val ≠ x.val := fun h => hne (Subtype.ext h.symm)
  exact lt_asymm (hx y hval) (hy x hval.symm)

namespace FiniteDouble

variable (x : FiniteDouble)

/-- A double without its sign. -/
def magnitude : FiniteDouble := ⟨|x.val|, isFinite_abs x.property⟩

/-- How many digits a decimal may have that is nearest to a double. -/
def HasDigits (k : Nat) : Prop :=
  ∃ s : Scientific, s.digits.length = k ∧ Nearest s.value x.magnitude

theorem exists_hasDigits (hx : x.val ≠ 0) : ∃ k, x.HasDigits k := by
  obtain ⟨s, hs⟩ := exists_scientific x.property hx
  exact ⟨_, s, rfl, by rw [hs]; exact nearest_self x.magnitude⟩

open Classical in
/-- The shortest digits that are nearer to a double than to any other. -/
noncomputable def shortest : Scientific :=
  if hx : x.val = 0 then ⟨['1'], 0, isDigits_one, head?_one, exponent_bounds_zero⟩
  else (Nat.find_spec (x.exists_hasDigits hx)).choose

theorem nearest_shortest (hx : x.val ≠ 0) : Nearest x.shortest.value x.magnitude := by
  classical
  rw [shortest, dif_neg hx]
  exact (Nat.find_spec (x.exists_hasDigits hx)).choose_spec.2

theorem length_shortest_le (hx : x.val ≠ 0) {s : Scientific} (hs : s.value = |x.val|) :
    x.shortest.digits.length ≤ s.digits.length := by
  classical
  rw [shortest, dif_neg hx, (Nat.find_spec (x.exists_hasDigits hx)).choose_spec.1]
  exact Nat.find_min' _ ⟨s, rfl, by rw [hs]; exact nearest_self x.magnitude⟩

open Classical in
/-- The double that is nearest to a decimal, with its sign. -/
noncomputable def ofDecimal : OfDecimal FiniteDouble := fun negative coefficient exponent =>
  if h : ∃ x, Nearest (coefficient * 10 ^ exponent) x then
    some (if negative then ⟨-h.choose.val, isFinite_neg h.choose.property⟩ else h.choose)
  else none

theorem ofDecimal_eq {negative : Bool} {coefficient : Nat} {exponent : Int}
    (h : Nearest (coefficient * 10 ^ exponent) x.magnitude) (hsign : negative = true ↔ x.val < 0) :
    ofDecimal negative coefficient exponent = some x := by
  have hex : ∃ x, Nearest (coefficient * 10 ^ exponent) x := ⟨_, h⟩
  have hchoose : hex.choose.val = |x.val| := congrArg Subtype.val (hex.choose_spec.unique h)
  rw [ofDecimal, dif_pos hex]
  refine congrArg some (Subtype.ext ?_)
  cases negative with
  | true => exact (congrArg Neg.neg hchoose).trans (by rw [abs_of_neg (hsign.mp rfl), neg_neg])
  | false =>
      have hge : ¬ x.val < 0 := fun hlt => Bool.false_ne_true (hsign.mpr hlt)
      exact hchoose.trans (abs_of_nonneg (not_lt.mp hge))

end FiniteDouble

open FiniteDouble

/-- The finite doubles as the writer of numbers needs them. -/
noncomputable def finiteDoubles : Doubles FiniteDouble where
  isZero x := x.val = 0
  isNegative x := x.val < 0
  shortest := FiniteDouble.shortest
  ofDecimal := FiniteDouble.ofDecimal
  ofDecimal_shortest x hx zeros := by
    refine ofDecimal_eq x ?_ decide_eq_true_iff
    have hvalue : ((digitsValue x.shortest.digits * 10 ^ zeros : Nat) : ℚ) *
        10 ^ (x.shortest.exponent - (x.shortest.digits.length - 1) - zeros) = x.shortest.value := by
      rw [Scientific.value, zpow_sub₀ (by norm_num), zpow_natCast]
      push_cast
      field_simp
    rw [hvalue]
    exact nearest_shortest x (of_decide_eq_false hx)
  value x := x.val
  isZero_iff x := decide_eq_true_iff
  isNegative_iff x _ := decide_eq_true_iff
  eq_of_value x y _ h := Subtype.ext h
  exists_value m hm e hlow hhigh := ⟨⟨_, isFinite_mul hm hlow hhigh⟩, rfl⟩
  nearest x hx y := by
    by_cases hy : y.val = |x.val|
    · rw [hy]
    · exact (nearest_shortest x (of_decide_eq_false hx) y hy).le
  shortest_le x s hx hs := length_shortest_le x (of_decide_eq_false hx) hs

end Seal

end Genaryx
