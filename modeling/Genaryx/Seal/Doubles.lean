import Genaryx.Seal.Numbers
import Mathlib.Algebra.Order.Field.Power
import Mathlib.Data.Rat.Lemmas
import Mathlib.Tactic.FieldSimp
import Mathlib.Tactic.Linarith
import Mathlib.Tactic.NormNum
import Mathlib.Tactic.Positivity

/-!
# What a written number is worth

Two accepted numbers are written as one text where they have one value. An integer and a double of
its value are written alike, since the shortest digits of such a double are those of the integer.

## Implementation notes

Of the doubles it is known which values they have, that the shortest digits of one are nearest to
it, and that no decimal which is it exactly has fewer digits.
-/

namespace Genaryx

namespace Json.Scientific

variable (s : Scientific)

/-- The value of the digits. -/
def value : ℚ := digitsValue s.digits * 10 ^ (s.exponent - (s.digits.length - 1))

theorem length_pos : 0 < s.digits.length := List.length_pos_of_ne_nil s.isDigits.1

theorem digitsValue_lt : digitsValue s.digits < 10 ^ s.digits.length := by
  have hlength := congrArg List.length (decimal_digitsValue s.isDigits s.head_ne_zero)
  exact (Nat.length_toDigits_le_iff (by decide) s.length_pos).mp hlength.le

theorem pow_le_digitsValue : 10 ^ (s.digits.length - 1) ≤ digitsValue s.digits := by
  have hlength := congrArg List.length (decimal_digitsValue s.isDigits s.head_ne_zero)
  have hpos := digitsValue_pos s.isDigits s.head_ne_zero
  rcases Nat.eq_zero_or_pos (s.digits.length - 1) with hone | hmore
  · rw [hone]
    exact hpos
  · by_contra hlt
    have hshort := (Nat.length_toDigits_le_iff (b := 10) (by decide) hmore).mpr (not_le.mp hlt)
    rw [Text.decimal] at hlength
    omega

theorem value_lt : s.value < 10 ^ (s.exponent + 1) := by
  have hlt : (digitsValue s.digits : ℚ) < 10 ^ (s.digits.length : Int) := by
    rw [zpow_natCast]
    exact_mod_cast s.digitsValue_lt
  calc s.value < 10 ^ (s.digits.length : Int) * 10 ^ (s.exponent - (s.digits.length - 1)) :=
        mul_lt_mul_of_pos_right hlt (zpow_pos (by norm_num) _)
    _ = 10 ^ (s.exponent + 1) := by
        rw [← zpow_add₀ (by norm_num)]
        congr 1
        omega

theorem pow_le_value : 10 ^ s.exponent ≤ s.value := by
  have hle : (10 : ℚ) ^ ((s.digits.length : Int) - 1) ≤ digitsValue s.digits := by
    have hpos := s.length_pos
    rw [show (s.digits.length : Int) - 1 = ((s.digits.length - 1 : Nat) : Int) by omega,
      zpow_natCast]
    exact_mod_cast s.pow_le_digitsValue
  calc (10 : ℚ) ^ s.exponent
      = 10 ^ ((s.digits.length : Int) - 1) * 10 ^ (s.exponent - (s.digits.length - 1)) := by
        rw [← zpow_add₀ (by norm_num)]
        congr 1
        omega
    _ ≤ s.value := mul_le_mul_of_nonneg_right hle (zpow_pos (by norm_num) _).le

/-- Digits that end before the point are an integer. -/
theorem value_eq_of_integer (hk : (s.digits.length : Int) ≤ s.exponent + 1) :
    s.value = (digitsValue s.digits * 10 ^ (s.exponent + 1 - s.digits.length).toNat : Nat) := by
  have hscale : s.exponent - (s.digits.length - 1) =
      ((s.exponent + 1 - s.digits.length).toNat : Int) := by omega
  rw [value, hscale, zpow_natCast]
  push_cast
  rfl

theorem length_decimal_bounds {n : Nat} (hlt : n < 2 ^ 53) :
    -324 ≤ ((Text.decimal n).length : Int) - 1 ∧ ((Text.decimal n).length : Int) - 1 ≤ 308 := by
  have hlength := (Nat.length_toDigits_le_iff (b := 10) (n := n) (k := 16) (by decide)
    (by decide)).mpr (hlt.trans (by decide))
  rw [Text.decimal]
  omega

/-- The decimal digits of a positive integer. -/
def ofNat (n : Nat) (hn : 0 < n) (hlt : n < 2 ^ 53) : Scientific where
  digits := Text.decimal n
  exponent := (Text.decimal n).length - 1
  isDigits := isDigits_decimal n
  head_ne_zero := head?_decimal hn
  exponent_bounds := length_decimal_bounds hlt

theorem value_ofNat {n : Nat} (hn : 0 < n) (hlt : n < 2 ^ 53) : (ofNat n hn hlt).value = n := by
  rw [value_eq_of_integer _ (by dsimp only [ofNat]; omega), ofNat]
  simp

/-- The digit one before so many zeros. -/
def ofPow (z : Nat) (hz : z ≤ 308) : Scientific where
  digits := ['1']
  exponent := z
  isDigits := isDigits_one
  head_ne_zero := head?_one
  exponent_bounds := by omega

theorem value_ofPow {z : Nat} (hz : z ≤ 308) : (ofPow z hz).value = 10 ^ z := by
  have hone : digitsValue ['1'] = 1 := rfl
  rw [value_eq_of_integer _ (by simp [ofPow]), ofPow]
  simp [hone]

end Json.Scientific

namespace Seal

open Json

variable {F : Type}

/-- Doubles with their values. -/
structure Doubles (F : Type) extends Double F where
  value : F → ℚ
  isZero_iff : ∀ x, isZero x = true ↔ value x = 0
  isNegative_iff : ∀ x, isZero x = false → (isNegative x = true ↔ value x < 0)
  /-- A double other than zero is told by its value. -/
  eq_of_value : ∀ x y, isZero x = false → value x = value y → x = y
  exists_value : ∀ m : Nat, m ≤ 2 ^ 53 → ∀ e : Int, -1074 ≤ e → e ≤ 970 →
    ∃ y, value y = m * 2 ^ e
  /-- No double is nearer to the shortest digits. -/
  nearest : ∀ x, isZero x = false → ∀ y,
    abs ((shortest x).value - abs (value x)) ≤ abs ((shortest x).value - value y)
  /-- No decimal that is the double has fewer digits. -/
  shortest_le : ∀ x (s : Scientific), isZero x = false → s.value = abs (value x) →
    (shortest x).digits.length ≤ s.digits.length

namespace Doubles

variable (D : Doubles F)

/-- The value of a number. -/
def numeric : Number F → ℚ
  | .posInt n _ => n
  | .negInt m _ => -m
  | .float x => D.value x

variable {D} {x : F}

/-- Every integer that is written is a double. -/
theorem exists_value_natCast {n : Nat} (hn : n ≤ 2 ^ 53) : ∃ y, D.value y = n := by
  obtain ⟨y, hy⟩ := D.exists_value n hn 0 (by decide) (by decide)
  exact ⟨y, by rw [hy, zpow_zero, mul_one]⟩

/-- A double whose shortest digits are an integer that is written is this integer. -/
theorem abs_value_of_shortest (hx : D.isZero x = false) {n : Nat} (hn : n ≤ 2 ^ 53)
    (hvalue : (D.shortest x).value = n) : |D.value x| = n := by
  obtain ⟨y, hy⟩ := exists_value_natCast (D := D) hn
  have hnear := D.nearest x hx y
  rw [hvalue, hy, sub_self, abs_zero, abs_nonpos_iff, sub_eq_zero] at hnear
  exact hnear.symm

/-- The shortest digits of a double are not below a double that is below it. -/
theorem le_value_of_le (hx : D.isZero x = false) {y : F} (hy : D.value y < |D.value x|) :
    D.value y ≤ (D.shortest x).value := by
  by_contra hbelow
  have hbelow := not_le.mp hbelow
  have hnear := D.nearest x hx y
  rw [abs_of_neg (sub_neg.mpr (hbelow.trans hy)), abs_of_neg (sub_neg.mpr hbelow)] at hnear
  linarith

/-- A digit that does not stand before the point is less than a double below one. -/
theorem value_lt_of_length_one {s : Scientific} (hone : s.digits.length ≤ 1)
    (hpoint : ¬ (s.digits.length : Int) ≤ s.exponent + 1) : s.value < 15 * 2 ^ (-4 : Int) := by
  have hlength : s.digits.length = 1 := le_antisymm hone s.length_pos
  have hdigit : (digitsValue s.digits : ℚ) ≤ 9 := by
    have hlt := s.digitsValue_lt
    rw [hlength] at hlt
    exact_mod_cast Nat.le_of_lt_succ hlt
  have hscale : (10 : ℚ) ^ (s.exponent - (s.digits.length - 1)) ≤ 10 ^ (-1 : Int) :=
    zpow_le_zpow_right₀ (by norm_num) (by omega)
  calc s.value ≤ 9 * 10 ^ (-1 : Int) :=
        mul_le_mul hdigit hscale (zpow_pos (by norm_num) _).le (by norm_num)
    _ < 15 * 2 ^ (-4 : Int) := by norm_num

theorem pow_le_of_length_decimal {n z : Nat} (hn : 0 < n) (hz : (Text.decimal n).length = z + 1) :
    10 ^ z ≤ n := by
  rcases Nat.eq_zero_or_pos z with rfl | hpos
  · exact hn
  · by_contra hlt
    have hshort := (Nat.length_toDigits_le_iff (b := 10) (by decide) hpos).mpr (not_le.mp hlt)
    rw [Text.decimal] at hz
    omega

/-- The shortest digits of a double that is an integer end before the point. -/
theorem length_le_of_abs_value (hx : D.isZero x = false) {n : Nat} (hn : 0 < n)
    (hlt : n < 2 ^ 53) (hvalue : |D.value x| = n) :
    ((D.shortest x).digits.length : Int) ≤ (D.shortest x).exponent + 1 := by
  -- else they are below the power of ten with as many digits as the integer
  by_contra hpoint
  have hlength := D.shortest_le x (.ofNat n hn hlt) hx
    ((Scientific.value_ofNat hn hlt).trans hvalue.symm)
  change _ ≤ (Text.decimal n).length at hlength
  obtain ⟨z, hz⟩ : ∃ z, (Text.decimal n).length = z + 1 :=
    Nat.exists_eq_add_one.mpr (List.length_pos_of_ne_nil (isDigits_decimal n).1)
  have hpow := pow_le_of_length_decimal hn hz
  have hbelow : (D.shortest x).value < (10 ^ z : Nat) := by
    refine (D.shortest x).value_lt.trans_le ?_
    push_cast
    rw [← zpow_natCast]
    exact zpow_le_zpow_right₀ (by norm_num) (by omega)
  have hone : n = 10 ^ z := by
    by_contra hne
    obtain ⟨y, hy⟩ := exists_value_natCast (D := D) (n := 10 ^ z) (by omega)
    have hbetween : D.value y < |D.value x| := by
      rw [hvalue, hy]
      exact_mod_cast lt_of_le_of_ne hpow (Ne.symm hne)
    exact absurd (le_value_of_le hx hbetween) (by rw [hy]; exact not_le.mpr hbelow)
  have hz : z ≤ 308 := by
    have hdigits := (Nat.length_toDigits_le_iff (b := 10) (n := n) (k := 16) (by decide)
      (by decide)).mpr (hlt.trans (by decide))
    rw [Text.decimal] at hz
    omega
  have hdigit := D.shortest_le x (.ofPow z hz) hx
    ((Scientific.value_ofPow hz).trans (by rw [hvalue, hone]; norm_num))
  obtain ⟨y, hy⟩ := D.exists_value 15 (by decide) (-4) (by decide) (by decide)
  have hbetween : D.value y < |D.value x| := by
    have hge : (1 : ℚ) ≤ n := by exact_mod_cast hn
    rw [hvalue, hy]
    norm_num
    linarith
  have hbelow := value_lt_of_length_one hdigit hpoint
  exact absurd (le_value_of_le hx hbetween) (by rw [hy]; exact not_le.mpr hbelow)

/-- The shortest digits of a double that is an integer are the integer. -/
theorem shortest_of_abs_value (hx : D.isZero x = false) {n : Nat} (hn : 0 < n) (hlt : n < 2 ^ 53)
    (hvalue : |D.value x| = n) : (D.shortest x).value = n := by
  have hint := (D.shortest x).value_eq_of_integer (length_le_of_abs_value hx hn hlt hvalue)
  rw [hint]
  generalize digitsValue (D.shortest x).digits *
    10 ^ ((D.shortest x).exponent + 1 - (D.shortest x).digits.length).toNat = m at hint
  rcases le_or_gt m (2 ^ 53) with hm | hm
  · exact_mod_cast (abs_value_of_shortest hx hm hint).symm.trans hvalue
  · obtain ⟨y, hy⟩ := exists_value_natCast (D := D) (n := 2 ^ 53) le_rfl
    have hnear := D.nearest x hx y
    have hn' : (n : ℚ) < (2 ^ 53 : Nat) := by exact_mod_cast hlt
    have hm' : ((2 ^ 53 : Nat) : ℚ) < m := by exact_mod_cast hm
    rw [hvalue, hy, hint, abs_of_pos (by linarith), abs_of_pos (by linarith)] at hnear
    linarith

/-- A double that is an integer is written as it. -/
theorem writtenInteger_of_abs_value (hx : D.isZero x = false) {n : Nat} (hn : 0 < n)
    (hlt : n < 2 ^ 53) (hvalue : |D.value x| = n) : writtenInteger D.toDouble x = some n := by
  have hpoint := length_le_of_abs_value hx hn hlt hvalue
  have hshortest := shortest_of_abs_value hx hn hlt hvalue
  have hsmall : (D.shortest x).exponent + 1 ≤ 21 := by
    by_contra hlarge
    have hle := (D.shortest x).pow_le_value
    have hpow : (10 : ℚ) ^ (21 : Int) ≤ 10 ^ (D.shortest x).exponent :=
      zpow_le_zpow_right₀ (by norm_num) (by omega)
    have hcast : (n : ℚ) < 2 ^ 53 := by exact_mod_cast hlt
    rw [hshortest] at hle
    norm_num at hpow
    linarith
  rw [writtenInteger, if_pos ⟨hpoint, hsmall⟩]
  rw [Scientific.value_eq_of_integer _ hpoint] at hshortest
  exact congrArg some (by exact_mod_cast hshortest)

/-- The value of a double that is written as an integer that fits a double. -/
theorem abs_value_of_writtenInteger (hx : D.isZero x = false) {n : Nat} (hn : n ≤ 2 ^ 53)
    (h : writtenInteger D.toDouble x = some n) : |D.value x| = n := by
  rw [writtenInteger] at h
  split at h
  · next hpoint =>
      cases h
      exact abs_value_of_shortest hx hn (Scientific.value_eq_of_integer _ hpoint.1)
  · cases h

/-- Whether a number is written at all. -/
def Accepts (D : Doubles F) (n : Number F) : Prop := ∃ t, number D.toDouble n = .ok t

theorem accepts_posInt {n : Nat} {h : n < 2 ^ 64} (ha : Accepts D (.posInt n h)) : n ≤ maxExactInt := by
  obtain ⟨t, ht⟩ := ha
  rw [number_posInt] at ht
  split at ht
  · assumption
  · cases ht

theorem accepts_negInt {m : Nat} {h : 0 < m ∧ m ≤ 2 ^ 63} (ha : Accepts D (.negInt m h)) :
    m ≤ maxExactInt := by
  obtain ⟨t, ht⟩ := ha
  rw [number_negInt] at ht
  split at ht
  · assumption
  · cases ht

/-- The integer that a double is written as reads as the double. -/
theorem ofDecimal_of_writtenInteger (hx : D.isZero x = false) {n : Nat}
    (h : writtenInteger D.toDouble x = some n) : D.ofDecimal (D.isNegative x) n 0 = some x := by
  rw [writtenInteger] at h
  split at h
  · next hpoint =>
      cases h
      have hread := D.ofDecimal_shortest x hx
        ((D.shortest x).exponent + 1 - (D.shortest x).digits.length).toNat
      have hscale : (D.shortest x).exponent - ((D.shortest x).digits.length - 1) -
          ((D.shortest x).exponent + 1 - (D.shortest x).digits.length).toNat = 0 := by omega
      rwa [hscale] at hread
  · cases h

/-- What is read back of a double is the double, or an integer that is written as it is. -/
theorem rereadFloat_cases (x : F) :
    rereadFloat D.toDouble x = .float x ∨
      D.isZero x = true ∧ rereadFloat D.toDouble x = .posInt 0 (by decide) ∨
      ∃ n, D.isZero x = false ∧ writtenInteger D.toDouble x = some n ∧
        ((D.isNegative x = false ∧ ∃ h, rereadFloat D.toDouble x = .posInt n h) ∨
          (D.isNegative x = true ∧ ∃ h, rereadFloat D.toDouble x = .negInt n h)) := by
  rw [rereadFloat]
  cases hx : D.isZero x with
  | true => exact .inr (.inl ⟨rfl, if_pos rfl⟩)
  | false =>
      rw [if_neg Bool.false_ne_true]
      cases hn : writtenInteger D.toDouble x with
      | none => exact .inl rfl
      | some n =>
          dsimp only
          cases hneg : D.isNegative x with
          | true =>
              rw [rereadInteger, if_pos rfl]
              split
              · next hfits => exact .inr (.inr ⟨n, rfl, rfl, .inr ⟨rfl, hfits, rfl⟩⟩)
              · exact .inl rfl
          | false =>
              rw [rereadInteger, if_neg Bool.false_ne_true]
              split
              · next hfits => exact .inr (.inr ⟨n, rfl, rfl, .inl ⟨rfl, hfits, rfl⟩⟩)
              · exact .inl rfl

theorem value_of_abs {q : ℚ} (hx : D.isZero x = false) (hvalue : |D.value x| = q) :
    D.value x = if D.isNegative x then -q else q := by
  cases hneg : D.isNegative x with
  | true =>
      have hlt := (D.isNegative_iff x hx).mp hneg
      rw [abs_of_neg hlt] at hvalue
      rw [if_pos rfl, ← hvalue, neg_neg]
  | false =>
      have hge : ¬ D.value x < 0 := fun hlt => by
        rw [(D.isNegative_iff x hx).mpr hlt] at hneg
        cases hneg
      rw [abs_of_nonneg (not_lt.mp hge)] at hvalue
      rw [if_neg Bool.false_ne_true, hvalue]

variable (D) in
/-- The value of an integer as a double, unless it is one that is written itself. -/
def worthOf (negative : Bool) (n : Nat) : ℚ :=
  if n ≤ maxExactInt then (if negative then -n else n)
  else ((D.ofDecimal negative n 0).map D.value).getD 0

variable (D) in
/-- The value of a number that was read back. -/
def worth : Number F → ℚ
  | .posInt n _ => D.worthOf false n
  | .negInt m _ => D.worthOf true m
  | .float x => D.value x

theorem worthOf_writtenInteger (hx : D.isZero x = false) {n : Nat}
    (h : writtenInteger D.toDouble x = some n) : D.worthOf (D.isNegative x) n = D.value x := by
  rw [worthOf]
  split
  · next hle =>
      have hn : n ≤ 2 ^ 53 := hle.trans (by decide)
      exact (value_of_abs hx (abs_value_of_writtenInteger hx hn h)).symm
  · rw [ofDecimal_of_writtenInteger hx h]
    rfl

/-- What a written number is read back as is worth as much. -/
theorem worth_rereadNumber {n : Number F} (ha : Accepts D n) :
    D.worth (rereadNumber D.toDouble n) = D.numeric n := by
  cases n with
  | posInt n hn => exact if_pos (accepts_posInt ha)
  | negInt m hm => exact if_pos (accepts_negInt ha)
  | float x =>
      rw [rereadNumber]
      rcases rereadFloat_cases (D := D) x with h | ⟨hx, h⟩ |
        ⟨n, hx, hn, ⟨hneg, hfits, h⟩ | ⟨hneg, hfits, h⟩⟩ <;> rw [h]
      · rfl
      · exact ((D.isZero_iff x).mp hx).symm
      · rw [worth, ← hneg]
        exact worthOf_writtenInteger hx hn
      · rw [worth, ← hneg]
        exact worthOf_writtenInteger hx hn

/-- An accepted number that is an integer is written as it. -/
theorem number_of_numeric {n : Number F} (ha : Accepts D n) {i : Int} (hi : i.natAbs ≤ maxExactInt)
    (hvalue : D.numeric n = i) : number D.toDouble n = .ok (intText i) := by
  cases n with
  | posInt n hn =>
      rw [numeric] at hvalue
      have hni : (n : Int) = i := by exact_mod_cast hvalue
      rw [number_posInt, if_pos (accepts_posInt ha), ← hni, intText, if_neg (by omega),
        Int.natAbs_natCast]
  | negInt m hm =>
      rw [numeric] at hvalue
      have hmi : -(m : Int) = i := by exact_mod_cast hvalue
      rw [number_negInt, if_pos (accepts_negInt ha), ← hmi, intText, if_pos (by omega),
        Int.natAbs_neg, Int.natAbs_natCast]
  | float x =>
      rw [numeric] at hvalue
      rw [number_float]
      cases hx : D.isZero x with
      | true =>
          have hzero : i = 0 := by exact_mod_cast hvalue.symm.trans ((D.isZero_iff x).mp hx)
          rw [hzero, es6Number, if_pos hx]
          rfl
      | false =>
          have hne : i ≠ 0 := by
            rintro rfl
            rw [Int.cast_zero, ← D.isZero_iff, hx] at hvalue
            cases hvalue
          have habs : |D.value x| = i.natAbs := by
            rw [hvalue, Nat.cast_natAbs, Int.cast_abs]
          have hwritten := writtenInteger_of_abs_value hx (Int.natAbs_pos.mpr hne)
            (lt_of_le_of_lt hi (by decide)) habs
          have hneg := D.isNegative_iff x hx
          rw [hvalue, Int.cast_lt_zero] at hneg
          rw [(es6Number_of_writtenInteger hx hwritten).2, intText]
          cases hsign : D.isNegative x with
          | true => rw [if_pos rfl, if_pos (hneg.mp hsign), List.singleton_append]
          | false =>
              rw [hsign] at hneg
              rw [if_neg Bool.false_ne_true, if_neg (fun h => Bool.false_ne_true (hneg.mpr h)),
                List.nil_append]

/-- An accepted number is a double or an integer that a double is exactly. -/
theorem integer_or_float {n : Number F} (ha : Accepts D n) :
    (∃ i : Int, i.natAbs ≤ maxExactInt ∧ D.numeric n = i) ∨ ∃ x, n = .float x := by
  cases n with
  | posInt n hn =>
      exact .inl ⟨n, (Int.natAbs_natCast n).trans_le (accepts_posInt ha), (Int.cast_natCast n).symm⟩
  | negInt m hm =>
      refine .inl ⟨-m, ?_, ?_⟩
      · rw [Int.natAbs_neg, Int.natAbs_natCast]
        exact accepts_negInt ha
      · rw [numeric, Int.cast_neg, Int.cast_natCast]
  | float x => exact .inr ⟨x, rfl⟩

/-- Accepted numbers are written alike where they have one value. -/
theorem number_eq_iff {n m : Number F} (hn : Accepts D n) (hm : Accepts D m) :
    number D.toDouble n = number D.toDouble m ↔ D.numeric n = D.numeric m := by
  constructor
  · intro heq
    obtain ⟨t, ht⟩ := hn
    have hread := (denotes_number ht).unique (denotes_number (heq ▸ ht))
    rw [← worth_rereadNumber ⟨t, ht⟩, ← worth_rereadNumber hm, Value.number.inj hread]
  · intro heq
    rcases integer_or_float hn with ⟨i, hi, hni⟩ | ⟨x, rfl⟩
    · rw [number_of_numeric hn hi hni, number_of_numeric hm hi (heq.symm.trans hni)]
    · rcases integer_or_float hm with ⟨i, hi, hmi⟩ | ⟨y, rfl⟩
      · rw [number_of_numeric hn hi (heq.trans hmi), number_of_numeric hm hi hmi]
      · cases hx : D.isZero x with
        | true =>
            have hy : D.isZero y = true :=
              (D.isZero_iff y).mpr (heq.symm.trans ((D.isZero_iff x).mp hx))
            rw [number_float, number_float, es6Number, es6Number, if_pos hx, if_pos hy]
        | false => rw [D.eq_of_value x y hx heq]

end Doubles

end Seal

end Genaryx
