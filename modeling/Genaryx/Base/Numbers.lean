import Genaryx.Json.Double
import Genaryx.Base.Words

/-!
# Numbers in texts

Signed numbers as Rust reads them, and numbers written with a fixed count of digits.
-/

namespace Genaryx

open Json

/-- A number in an `i64`, if it fits: what checked arithmetic gives. -/
def checkedI64 (n : Int) : Option Int := if -2 ^ 63 ≤ n ∧ n < 2 ^ 63 then some n else none

theorem checkedI64_eq_some_iff {n m : Int} :
    checkedI64 n = some m ↔ n = m ∧ -2 ^ 63 ≤ n ∧ n < 2 ^ 63 := by
  rw [checkedI64]
  split
  · next hfits => exact ⟨fun h => ⟨Option.some.inj h, hfits⟩, fun h => congrArg some h.1⟩
  · next hfits => exact ⟨fun h => absurd h (Option.some_ne_none m).symm, fun h => absurd h.2 hfits⟩

theorem checkedI64_of_fits {n : Int} (hlow : -2 ^ 63 ≤ n) (hhigh : n < 2 ^ 63) :
    checkedI64 n = some n :=
  if_pos ⟨hlow, hhigh⟩

namespace Text

/-- `str::parse::<i64>`: decimal digits, with one sign before them at most. -/
def parseI64 (t : Text) : Option Int :=
  let signed := t.head? = some '+' ∨ t.head? = some '-'
  let digits := if signed then t.tail else t
  let magnitude : Int := digitsValue digits
  if !digits.isEmpty && digits.all Char.isDigit then
    checkedI64 (if t.head? = some '-' then -magnitude else magnitude)
  else none

/-- Digits are read as their value, if it fits. -/
theorem parseI64_digits {t : Text} (h : IsDigits t) : parseI64 t = checkedI64 (digitsValue t) := by
  have hsign : ∀ c : Char, c.isDigit = false → t.head? ≠ some c := fun c hc hhead => by
    have hdigit := h.2 c (List.mem_of_mem_head? hhead)
    rw [hc] at hdigit
    cases hdigit
  have hplus := hsign '+' (by decide)
  have hminus := hsign '-' (by decide)
  have hall : t.all Char.isDigit = true := List.all_eq_true.mpr h.2
  rw [parseI64]
  simp only [hplus, hminus, or_self, if_false, hall, List.isEmpty_eq_false_iff.mpr h.1,
    Bool.not_false, Bool.and_self, if_true]

/-- A number in at least so many digits, with zeros before it. -/
def padded (k n : Nat) : Text := List.replicate (k - (decimal n).length) '0' ++ decimal n

end Text

namespace Json

open Text

theorem digitsValue_lt {t : Text} (h : ∀ c ∈ t, c.isDigit = true) :
    digitsValue t < 10 ^ t.length := by
  induction t using List.reverseRecOn with
  | nil => exact Nat.one_pos
  | append_singleton init c ih =>
      have hinit := ih fun d hd => h d (List.mem_append_left _ hd)
      have hc := (digitChar_toNat_sub (h c (by simp))).1
      have hone : digitsValue [c] = c.toNat - '0'.toNat := by
        simp [digitsValue, Nat.ofDigitChars_cons]
      rw [digitsValue_append, hone, List.length_append, List.length_singleton, pow_one, pow_succ]
      omega

theorem digitsValue_padded (k n : Nat) : digitsValue (padded k n) = n := by
  rw [padded, digitsValue_append, digitsValue_replicate_zero, Nat.zero_mul, Nat.zero_add,
    digitsValue_decimal]

theorem isDigits_padded (k n : Nat) : IsDigits (padded k n) := by
  constructor
  · exact List.append_ne_nil_of_right_ne_nil _ (decimal_ne_nil n)
  · intro c hc
    rcases List.mem_append.mp hc with hzero | hdigit
    · rw [List.eq_of_mem_replicate hzero]
      rfl
    · exact isDigit_of_mem_decimal hdigit

theorem length_padded {k n : Nat} (hk : 0 < k) (h : n < 10 ^ k) : (padded k n).length = k := by
  have hlength : (decimal n).length ≤ k := (Nat.length_toDigits_le_iff (by decide) hk).mpr h
  rw [padded, List.length_append, List.length_replicate]
  omega

end Json

end Genaryx
