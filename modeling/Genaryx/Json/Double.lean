import Genaryx.Json.Grammar
import Mathlib.Tactic.Ring

/-!
# Doubles through their decimal digits

What a writer and a reader of doubles agree on: the shortest digits of a double read back
as that double, in every literal with the value of those digits.
-/

namespace Genaryx

theorem digitChar_toNat_sub {c : Char} (h : c.isDigit = true) :
    c.toNat - '0'.toNat < 10 ∧ Nat.digitChar (c.toNat - '0'.toNat) = c := by
  rw [Char.isDigit_iff_toNat] at h
  have hall : ∀ n : Fin 10, (Nat.digitChar n).toNat = '0'.toNat + n := by decide
  have hlow : '0'.toNat = 48 := rfl
  have hhigh : '9'.toNat = 57 := rfl
  have hlt : c.toNat - '0'.toNat < 10 := by omega
  refine ⟨hlt, Char.toNat_inj.mp ?_⟩
  have hc := hall ⟨_, hlt⟩
  simp only at hc
  omega

namespace Json

theorem digitsValue_append (a b : Text) :
    digitsValue (a ++ b) = digitsValue a * 10 ^ b.length + digitsValue b := by
  rw [digitsValue, Nat.ofDigitChars_append, Nat.ofDigitChars_eq_ofDigitChars_zero, Nat.mul_comm]
  rfl

@[simp] theorem digitsValue_replicate_zero (z : Nat) :
    digitsValue (List.replicate z '0') = 0 := by
  simp [digitsValue]

@[simp] theorem digitsValue_decimal (n : Nat) : digitsValue (Text.decimal n) = n :=
  Nat.ofDigitChars_ten_toDigits

theorem isDigits_decimal (n : Nat) : IsDigits (Text.decimal n) :=
  ⟨List.ne_nil_of_length_pos Nat.length_toDigits_pos, fun _ => Text.isDigit_of_mem_decimal⟩

/-- Digits without a leading zero have a positive value. -/
theorem digitsValue_pos {digits : Text} (h : IsDigits digits) (hhead : digits.head? ≠ some '0') :
    0 < digitsValue digits := by
  obtain ⟨c, cs, rfl⟩ := List.exists_cons_of_ne_nil h.1
  have hc := digitChar_toNat_sub (h.2 c List.mem_cons_self)
  have hne : c.toNat - '0'.toNat ≠ 0 := by
    intro hzero
    rw [hzero] at hc
    exact hhead (by rw [← hc.2]; rfl)
  have hpow : 0 < 10 ^ cs.length := Nat.pow_pos (by decide)
  have happend := digitsValue_append [c] cs
  have hone : digitsValue [c] = c.toNat - '0'.toNat := by
    simp [digitsValue, Nat.ofDigitChars_cons]
  have hpos : 0 < digitsValue [c] * 10 ^ cs.length :=
    Nat.mul_pos (by rw [hone]; omega) hpow
  rw [List.singleton_append] at happend
  omega

/-- Digits without a leading zero are what their value is written as. -/
theorem decimal_digitsValue {digits : Text} (h : IsDigits digits)
    (hhead : digits.head? ≠ some '0') : Text.decimal (digitsValue digits) = digits := by
  induction digits using List.reverseRecOn with
  | nil => exact absurd rfl h.1
  | append_singleton init c ih =>
      have hc := digitChar_toNat_sub (h.2 c (by simp))
      have hone : digitsValue [c] = c.toNat - '0'.toNat := by
        simp [digitsValue, Nat.ofDigitChars_cons]
      rw [digitsValue_append, hone, List.length_singleton, pow_one]
      by_cases hinit : init = []
      · subst hinit
        rw [show digitsValue [] = 0 from rfl, Nat.zero_mul, Nat.zero_add, Text.decimal,
          Nat.toDigits_of_lt_base hc.1, hc.2]
        rfl
      · have hdigits : IsDigits init := ⟨hinit, fun d hd => h.2 d (List.mem_append_left _ hd)⟩
        have hinithead : init.head? ≠ some '0' := by
          rwa [List.head?_append_of_ne_nil _ hinit] at hhead
        have hpos := digitsValue_pos hdigits hinithead
        rw [Text.decimal, Nat.toDigits_of_base_le (by decide) (by omega),
          show (digitsValue init * 10 + (c.toNat - '0'.toNat)) / 10 = digitsValue init by omega,
          show (digitsValue init * 10 + (c.toNat - '0'.toNat)) % 10 = c.toNat - '0'.toNat by omega,
          hc.2]
        exact congrArg (· ++ [c]) (ih hdigits hinithead)

theorem head?_decimal {n : Nat} (hn : 0 < n) : (Text.decimal n).head? ≠ some '0' := by
  induction n using Nat.strongRecOn with
  | _ n ih =>
      by_cases hten : n < 10
      · rw [Text.decimal, Nat.toDigits_of_lt_base hten]
        intro h
        have hzero : n = 0 := by simpa using h
        omega
      · have hne : Nat.toDigits 10 (n / 10) ≠ [] := (isDigits_decimal (n / 10)).1
        rw [Text.decimal, Nat.toDigits_of_base_le (by decide) (by omega),
          List.head?_append_of_ne_nil _ hne]
        exact ih (n / 10) (by omega) (by omega)

theorem isWhole_decimal (n : Nat) : IsWhole (Text.decimal n) := by
  refine ⟨isDigits_decimal n, fun hzero => ?_⟩
  rcases Nat.eq_zero_or_pos n with rfl | hn
  · rfl
  · exact absurd hzero (head?_decimal hn)

/-- The shortest digits of a nonzero double, and the power of ten of the first one. -/
structure Scientific where
  digits : Text
  exponent : Int
  isDigits : IsDigits digits
  head_ne_zero : digits.head? ≠ some '0'
  exponent_bounds : -324 ≤ exponent ∧ exponent ≤ 308

/-! A single one, with no power of ten, is a form that zero and powers of ten are written in. -/

theorem isDigits_one : IsDigits ['1'] := by decide

theorem head?_one : ['1'].head? ≠ some '0' := by decide

theorem exponent_bounds_zero : (-324 : Int) ≤ 0 ∧ (0 : Int) ≤ 308 := by decide

/-- What a writer knows of a double, and what a reader makes of its digits. -/
structure Double (F : Type) where
  isZero : F → Bool
  isNegative : F → Bool
  shortest : F → Scientific
  ofDecimal : OfDecimal F
  /-- A literal with the value of the shortest digits reads as the double. -/
  ofDecimal_shortest : ∀ x, isZero x = false → ∀ zeros : Nat,
    ofDecimal (isNegative x) (digitsValue (shortest x).digits * 10 ^ zeros)
      ((shortest x).exponent - ((shortest x).digits.length - 1) - zeros) = some x

/-- A decimal number, in place of a double: zero, or a coefficient that does not end in a
zero with a power of ten. -/
inductive Decimal
  | zero
  | nonzero (negative : Bool) (coefficient : Nat) (exponent : Int)
      (bounds : coefficient % 10 ≠ 0 ∧ -324 ≤ exponent + ((Text.decimal coefficient).length - 1) ∧
        exponent + ((Text.decimal coefficient).length - 1) ≤ 308)
  deriving DecidableEq

namespace Decimal

/-- Move the zeros at the end of a coefficient to its exponent. -/
def strip : Nat → Nat → Int → Nat × Int
  | 0, coefficient, exponent => (coefficient, exponent)
  | fuel + 1, coefficient, exponent =>
      if coefficient % 10 = 0 then strip fuel (coefficient / 10) (exponent + 1)
      else (coefficient, exponent)

theorem strip_of_ne {coefficient : Nat} (h : coefficient % 10 ≠ 0) (fuel : Nat)
    (exponent : Int) : strip fuel coefficient exponent = (coefficient, exponent) := by
  cases fuel with
  | zero => rfl
  | succ fuel => rw [strip, if_neg h]

theorem strip_zeros {coefficient : Nat} (h : coefficient % 10 ≠ 0) {fuel zeros : Nat}
    (hfuel : zeros ≤ fuel) (exponent : Int) :
    strip fuel (coefficient * 10 ^ zeros) (exponent - zeros) = (coefficient, exponent) := by
  induction zeros generalizing fuel with
  | zero => rw [pow_zero, Nat.mul_one, Nat.cast_zero, Int.sub_zero, strip_of_ne h]
  | succ zeros ih =>
      obtain ⟨fuel, rfl⟩ : ∃ k, fuel = k + 1 := ⟨fuel - 1, by omega⟩
      have hten : coefficient * 10 ^ (zeros + 1) = coefficient * 10 ^ zeros * 10 := by ring
      have hexponent : exponent - ((zeros + 1 : Nat) : Int) + 1 = exponent - zeros := by omega
      rw [strip, hten, if_pos (Nat.mul_mod_left _ _), Nat.mul_div_cancel _ (by decide),
        hexponent, ih (by omega)]

/-- The decimal number with this sign and value. -/
def ofDecimal : OfDecimal Decimal := fun negative coefficient exponent =>
  if coefficient = 0 then some .zero
  else
    let p := strip (Text.decimal coefficient).length coefficient exponent
    if h : p.1 % 10 ≠ 0 ∧ -324 ≤ p.2 + ((Text.decimal p.1).length - 1) ∧
        p.2 + ((Text.decimal p.1).length - 1) ≤ 308 then
      some (.nonzero negative p.1 p.2 h)
    else none

def shortest : Decimal → Scientific
  | .zero => ⟨['1'], 0, isDigits_one, head?_one, exponent_bounds_zero⟩
  | .nonzero _ coefficient exponent bounds =>
      ⟨Text.decimal coefficient, exponent + ((Text.decimal coefficient).length - 1),
        isDigits_decimal coefficient, head?_decimal (by omega), bounds.2⟩

/-- The digits of a decimal number that is not zero, with zeros after them, read as it. -/
theorem ofDecimal_shortest (negative : Bool) (coefficient : Nat) (exponent : Int)
    (bounds : coefficient % 10 ≠ 0 ∧ -324 ≤ exponent + ((Text.decimal coefficient).length - 1) ∧
      exponent + ((Text.decimal coefficient).length - 1) ≤ 308) (zeros : Nat) :
    ofDecimal negative
      (digitsValue (shortest (.nonzero negative coefficient exponent bounds)).digits * 10 ^ zeros)
      ((shortest (.nonzero negative coefficient exponent bounds)).exponent -
        ((shortest (.nonzero negative coefficient exponent bounds)).digits.length - 1) - zeros) =
      some (.nonzero negative coefficient exponent bounds) := by
  have hpos : 0 < coefficient * 10 ^ zeros :=
    Nat.mul_pos (by omega) (Nat.pow_pos (by decide))
  have hfuel : zeros ≤ (Text.decimal (coefficient * 10 ^ zeros)).length := by
    by_contra hlt
    have hlength := (Nat.length_toDigits_le_iff (b := 10) (n := coefficient * 10 ^ zeros)
      (k := zeros) (by decide) (by omega)).mp (by rw [Text.decimal] at hlt; omega)
    have hle : 10 ^ zeros ≤ coefficient * 10 ^ zeros :=
      Nat.le_mul_of_pos_left _ (by omega)
    omega
  have hexponent : exponent + (((Text.decimal coefficient).length : Int) - 1) -
      ((Text.decimal coefficient).length - 1) - zeros = exponent - zeros := by omega
  simp only [shortest, digitsValue_decimal, ofDecimal, hexponent, if_neg hpos.ne',
    strip_zeros bounds.1 hfuel, dif_pos bounds]

/-- Decimal numbers write and read their digits as doubles do. -/
def double : Double Decimal where
  isZero := fun x =>
    match x with
    | .zero => true
    | .nonzero _ _ _ _ => false
  isNegative := fun x =>
    match x with
    | .zero => false
    | .nonzero negative _ _ _ => negative
  shortest := shortest
  ofDecimal := ofDecimal
  ofDecimal_shortest := fun x hx zeros => by
    cases x with
    | zero => cases hx
    | nonzero negative coefficient exponent bounds =>
        exact ofDecimal_shortest negative coefficient exponent bounds zeros

end Decimal

end Json

end Genaryx
