import Genaryx.Json.Double

/-!
# Doubles as Rust displays them

`{}` writes the shortest digits of a double in positional notation, however long that gets.
What it writes is read back as the double.
-/

namespace Genaryx.Json

variable {F : Type} (D : Double F)

/-- Digits with an optional fraction. -/
structure Positional where
  whole : Text
  fraction : Option Text
  whole_digits : IsDigits whole
  fraction_digits : ∀ digits, fraction = some digits → IsDigits digits

namespace Positional

def text (p : Positional) : Text :=
  match p.fraction with
  | none => p.whole
  | some digits => p.whole ++ '.' :: digits

/-- Read digits with an optional fraction. -/
def ofText (t : Text) : Option Positional :=
  let parts := ((Text.splitOnce '.' t).map fun p => (p.1, some p.2)).getD (t, none)
  if h : IsDigits parts.1 ∧ parts.2.all (IsDigits ·) = true then
    some ⟨parts.1, parts.2, h.1, fun digits hsome => by simpa [hsome] using h.2⟩
  else none

/-- The double that positional digits without a sign are read as. -/
def value (p : Positional) : Option F :=
  let fraction := p.fraction.getD []
  D.ofDecimal false (digitsValue (p.whole ++ fraction)) (-(fraction.length : Int))

theorem dot_notMem {digits : Text} (h : IsDigits digits) : '.' ∉ digits := fun hmem =>
  absurd (h.2 '.' hmem) (by decide)

theorem ofText_text (p : Positional) : ofText p.text = some p := by
  obtain ⟨whole, fraction, hwhole, hfraction⟩ := p
  cases fraction with
  | none =>
      simp only [text, ofText, Text.splitOnce_eq_none '.' whole (dot_notMem hwhole), Option.map_none,
        Option.getD_none]
      rw [dif_pos ⟨hwhole, rfl⟩]
  | some digits =>
      have hall : (some digits).all (IsDigits ·) = true := decide_eq_true (hfraction digits rfl)
      simp only [text, ofText, Text.splitOnce_append '.' whole digits (dot_notMem hwhole),
        Option.map_some, Option.getD_some]
      rw [dif_pos ⟨hwhole, hall⟩]

/-- Positional digits are digits and dots. -/
theorem mem_text {p : Positional} {c : Char} (h : c ∈ p.text) : c.isDigit = true ∨ c = '.' := by
  obtain ⟨whole, fraction, hwhole, hfraction⟩ := p
  cases fraction with
  | none => exact Or.inl (hwhole.2 c h)
  | some digits =>
      rcases List.mem_append.mp h with h | h
      · exact Or.inl (hwhole.2 c h)
      · rcases List.mem_cons.mp h with rfl | h
        · exact Or.inr rfl
        · exact Or.inl ((hfraction digits rfl).2 c h)

end Positional

theorem isDigits_append {a b : Text} (ha : IsDigits a) (hb : ∀ c ∈ b, c.isDigit = true) :
    IsDigits (a ++ b) :=
  ⟨List.append_ne_nil_of_left_ne_nil ha.1 b, fun c hc =>
    (List.mem_append.mp hc).elim (ha.2 c) (hb c)⟩

theorem isDigit_of_mem_zeros {n : Nat} {c : Char} (h : c ∈ List.replicate n '0') :
    c.isDigit = true := by
  rw [List.eq_of_mem_replicate h]
  rfl

/-- The digits of a nonzero double at their places. -/
def Scientific.positional (s : Scientific) : Positional :=
  if s.exponent < 0 then
    { whole := ['0']
      fraction := some (List.replicate (-s.exponent - 1).toNat '0' ++ s.digits)
      whole_digits := by decide
      fraction_digits := fun digits h => by
        cases h
        exact ⟨List.append_ne_nil_of_right_ne_nil _ s.isDigits.1, fun c hc =>
          (List.mem_append.mp hc).elim isDigit_of_mem_zeros (s.isDigits.2 c)⟩ }
  else if hlong : s.digits.length ≤ s.exponent.toNat + 1 then
    { whole := s.digits ++ List.replicate (s.exponent.toNat + 1 - s.digits.length) '0'
      fraction := none
      whole_digits := isDigits_append s.isDigits fun _ => isDigit_of_mem_zeros
      fraction_digits := fun _ h => nomatch h }
  else
    { whole := s.digits.take (s.exponent.toNat + 1)
      fraction := some (s.digits.drop (s.exponent.toNat + 1))
      whole_digits := ⟨fun h => by
        have hlength := congrArg List.length h
        rw [List.length_take, List.length_nil] at hlength
        omega, fun c hc => s.isDigits.2 c (List.mem_of_mem_take hc)⟩
      fraction_digits := fun digits h => by
        cases h
        exact ⟨fun h => hlong (List.drop_eq_nil_iff.mp h), fun c hc =>
          s.isDigits.2 c (List.mem_of_mem_drop hc)⟩ }

/-- A double is displayed without leading zeros. -/
theorem Scientific.isWhole_positional (s : Scientific) : IsWhole s.positional.whole := by
  refine ⟨s.positional.whole_digits, fun hhead => ?_⟩
  rw [positional] at hhead ⊢
  split
  · rfl
  · next hnonneg =>
      rw [if_neg hnonneg] at hhead
      split at hhead
      · have hfirst : (s.digits ++ List.replicate (s.exponent.toNat + 1 - s.digits.length) '0').head?
            = s.digits.head? := List.head?_append_of_ne_nil _ s.isDigits.1
        exact absurd (hfirst.symm.trans hhead) s.head_ne_zero
      · have hfirst : (s.digits.take (s.exponent.toNat + 1)).head? = s.digits.head? := by
          rw [List.head?_take, if_neg (Nat.succ_ne_zero _)]
        exact absurd (hfirst.symm.trans hhead) s.head_ne_zero

/-- `f64::to_string` of a finite number. -/
def Double.display (x : F) : Text :=
  let sign : Text := if D.isNegative x then ['-'] else []
  if D.isZero x then sign ++ ['0'] else sign ++ (D.shortest x).positional.text

/-- What is displayed of a positive double is read back. -/
theorem value_positional {x : F} (hzero : D.isZero x = false) (hsign : D.isNegative x = false) :
    (D.shortest x).positional.value D = some x := by
  have hread := D.ofDecimal_shortest x hzero
  rw [hsign] at hread
  generalize D.shortest x = s at hread ⊢
  have hpos := List.length_pos_iff.mpr s.isDigits.1
  rw [Scientific.positional]
  split
  · next hneg =>
      have hvalue : digitsValue (['0'] ++ (List.replicate (-s.exponent - 1).toNat '0' ++ s.digits)) =
          digitsValue s.digits * 10 ^ 0 := by
        rw [← List.append_assoc, digitsValue_append, digitsValue_append]
        simp [digitsValue, Nat.ofDigitChars_cons]
      simp only [Positional.value, Option.getD_some, hvalue]
      rw [← hread 0]
      congr 1
      simp only [List.length_append, List.length_replicate]
      omega
  · next hnonneg =>
      split
      · next hlong =>
          simp only [Positional.value, Option.getD_none, List.append_nil, digitsValue_append,
            List.length_replicate, digitsValue_replicate_zero, Nat.add_zero]
          rw [← hread (s.exponent.toNat + 1 - s.digits.length)]
          congr 1
          simp only [List.length_nil]
          omega
      · next hshort =>
          simp only [Positional.value, Option.getD_some, List.take_append_drop]
          rw [← hread 0, pow_zero, Nat.mul_one]
          congr 1
          simp only [List.length_drop]
          omega

theorem display_of_pos {x : F} (hzero : D.isZero x = false) (hsign : D.isNegative x = false) :
    D.display x = (D.shortest x).positional.text := by
  rw [Double.display]
  simp only [hzero, hsign, Bool.false_eq_true, if_false, List.nil_append]

end Genaryx.Json
