import Genaryx.Base.Letters
import Genaryx.Base.Numbers
import Mathlib.Data.Rat.Cast.Order
import Mathlib.Tactic.FieldSimp
import Mathlib.Tactic.Linarith
import Mathlib.Tactic.NormNum

/-!
# Amounts of money in texts

An operator types a limit in dollars, and the command line prints dollars with six decimals.
Both are read as whole micro-dollars.

## Implementation notes

A fraction is measured in characters: it is compared with six only after its characters are
known to be digits. An addition or a multiplication that the source leaves unchecked ends in
`overflowed` when it leaves the range of `i64`.
-/

namespace Genaryx.Replay

open Json Text

/-- Money in the trace is whole micro-dollars. -/
def microsPerUsd : Int := 1000000

/-- The most one limit may be, in micro-dollars. -/
def maxLimitMicros : Int := 1000000 * microsPerUsd

inductive AmountError
  | refused (reason : Text)
  | overflowed
  deriving DecidableEq

def amountShape : Text := "an amount is dollars with at most six decimals, such as 2 or 0.35".toList

def amountZero : Text := "a limit of zero blocks every call, which is not a candidate budget".toList

def amountLarge : Text := "an amount is at most a million dollars".toList

/-- Ten times a number, so many times, as the unchecked multiplication does it. -/
def scaleByTen : Nat → Int → Except AmountError Int
  | 0, n => .ok n
  | k + 1, n =>
      match checkedI64 (n * 10) with
      | some m => scaleByTen k m
      | none => .error .overflowed

def orRefuse {α : Type} (reason : Text) : Option α → Except AmountError α
  | some a => .ok a
  | none => .error (.refused reason)

/-- The decimals of an amount, as they are written. -/
def decimalsOf (fraction : Text) : Except AmountError Int :=
  if fraction.isEmpty then .ok 0 else orRefuse amountShape (parseI64 fraction)

/-- An amount that a limit may have. -/
def limitOf (micros : Int) : Except AmountError Int :=
  if micros = 0 then .error (.refused amountZero)
  else if micros > maxLimitMicros then .error (.refused amountLarge)
  else .ok micros

/-- A dollar amount as whole micro-dollars. -/
def parseUsd (text : Text) : Except AmountError Int :=
  let (whole, fraction) := (splitOnce '.' text).getD (text, [])
  if whole.isEmpty || !whole.all Char.isDigit || !fraction.all Char.isDigit ||
      decide (6 < fraction.length) || (text.contains ['.'] && fraction.isEmpty) then
    .error (.refused amountShape)
  else do
    let whole ← orRefuse amountLarge (parseI64 whole)
    let decimals ← decimalsOf fraction
    let decimals ← scaleByTen (6 - fraction.length) decimals
    let micros ← orRefuse amountLarge
      ((checkedI64 (whole * microsPerUsd)).bind fun w => checkedI64 (w + decimals))
    limitOf micros

/-- The digits of dollars with six decimals as micro-dollars. -/
def moneyDigits (digits : Text) : Option Int := do
  let (whole, fraction) ← splitOnce '.' digits
  if whole.isEmpty || fraction.length != 6 || !whole.all Char.isDigit ||
      !fraction.all Char.isDigit then none
  else
    let dollars ← parseI64 whole
    let micros ← checkedI64 (dollars * microsPerUsd)
    let decimals ← parseI64 fraction
    checkedI64 (micros + decimals)

/-- Dollars with six decimals as micro-dollars. -/
def money (text : Text) : Option Int := do
  let rest ← stripPrefix ['$'] text
  match stripPrefix ['-'] rest with
  | some digits => (moneyDigits digits).map (-·)
  | none => moneyDigits rest

/-! ## What the texts say -/

/-- The dollars that digits and decimals behind a point say. -/
def dollars (whole fraction : Text) : ℚ := digitsValue (whole ++ fraction) / 10 ^ fraction.length

/-- One or more digits, and one to six behind a point or none, with the dollars they say. -/
inductive UsdText : Text → ℚ → Prop
  | whole {w : Text} (hw : IsDigits w) : UsdText w (dollars w [])
  | point {w f : Text} (hw : IsDigits w) (hf : IsDigits f) (hlength : f.length ≤ 6) :
      UsdText (w ++ '.' :: f) (dollars w f)

/-- Dollars with a sign and six decimals, with the amount they say. -/
inductive MoneyText : Text → ℚ → Prop
  | positive {w f : Text} (hw : IsDigits w) (hf : IsDigits f) (hlength : f.length = 6) :
      MoneyText ('$' :: (w ++ '.' :: f)) (dollars w f)
  | negative {w f : Text} (hw : IsDigits w) (hf : IsDigits f) (hlength : f.length = 6) :
      MoneyText ('$' :: '-' :: (w ++ '.' :: f)) (-dollars w f)

section Lemmas

variable {w f : Text}

/-- The micro-dollars of at most six decimals are whole. -/
def micros (w f : Text) : Int :=
  digitsValue w * microsPerUsd + digitsValue f * 10 ^ (6 - f.length)

theorem micros_nonneg (w f : Text) : 0 ≤ micros w f := by
  have hwhole : (0 : Int) ≤ digitsValue w * microsPerUsd :=
    Int.mul_nonneg (Int.natCast_nonneg _) (by decide)
  have hfraction : (0 : Int) ≤ digitsValue f * 10 ^ (6 - f.length) :=
    Int.mul_nonneg (Int.natCast_nonneg _) (by positivity)
  rw [micros]
  omega

/-- The dollars are the micro-dollars as a fraction. -/
theorem dollars_eq (hlength : f.length ≤ 6) : dollars w f = (micros w f : ℚ) / 10 ^ 6 := by
  have hpow : (10 : ℚ) ^ 6 = 10 ^ f.length * 10 ^ (6 - f.length) := by
    rw [← pow_add, Nat.add_sub_cancel' hlength]
  have hmillion : (microsPerUsd : ℚ) = 10 ^ 6 := by norm_num [microsPerUsd]
  rw [dollars, micros, digitsValue_append]
  push_cast
  rw [hmillion, hpow]
  field_simp

theorem micros_eq_iff (hlength : f.length ≤ 6) (n : Int) :
    dollars w f = (n : ℚ) / 10 ^ 6 ↔ micros w f = n := by
  rw [dollars_eq hlength, div_left_inj' (by norm_num), Int.cast_inj]

/-- Decimals are scaled to six without an overflow. -/
theorem scaleByTen_eq {k : Nat} (hk : k ≤ 6) {n : Nat} (hn : n * 10 ^ k < 1000000) :
    scaleByTen k n = .ok (n * 10 ^ k : Nat) := by
  induction k generalizing n with
  | zero => rw [scaleByTen, pow_zero, Nat.mul_one]
  | succ k ih =>
      have hstep : n * 10 * 10 ^ k < 1000000 := by rwa [Nat.mul_assoc, ← Nat.pow_succ']
      have hle : n * 10 ≤ n * 10 * 10 ^ k := Nat.le_mul_of_pos_right _ (by positivity)
      have hnext := ih (by omega) hstep
      have hcast : (n : Int) * 10 = ((n * 10 : Nat) : Int) := by push_cast; rfl
      rw [scaleByTen, hcast, checkedI64_of_fits (by omega) (by omega)]
      rw [Nat.pow_succ', ← Nat.mul_assoc]
      exact hnext

/-- A checked sum of amounts that are not negative is their sum, if that fits. -/
theorem checked_sum {a b c : Int} (ha : 0 ≤ a) (hb : 0 < b) (hc : 0 ≤ c) :
    ((checkedI64 a).bind fun a => (checkedI64 (a * b)).bind fun p => checkedI64 (p + c)) =
      checkedI64 (a * b + c) := by
  have hproduct : 0 ≤ a * b := Int.mul_nonneg ha hb.le
  have hle : a ≤ a * b := le_mul_of_one_le_right ha hb
  by_cases hfits : a * b + c < 2 ^ 63
  · rw [checkedI64_of_fits (by omega) (by omega), Option.bind_some,
      checkedI64_of_fits (by omega) (by omega), Option.bind_some]
  · have hnone : checkedI64 (a * b + c) = none := if_neg fun h => hfits h.2
    rw [hnone, Option.bind_eq_none_iff]
    intro a' ha'
    obtain ⟨rfl, -, -⟩ := checkedI64_eq_some_iff.mp ha'
    rw [Option.bind_eq_none_iff]
    intro p hp
    obtain ⟨rfl, -, -⟩ := checkedI64_eq_some_iff.mp hp
    exact hnone

theorem limitOf_eq_ok_iff {n m : Int} (hn : 0 ≤ n) :
    limitOf n = .ok m ↔ n = m ∧ 1 ≤ m ∧ m ≤ maxLimitMicros := by
  rw [limitOf]
  split
  · next hzero => exact ⟨(nomatch ·), fun h => by omega⟩
  · next hzero =>
      split
      · next hlarge => exact ⟨(nomatch ·), fun h => by omega⟩
      · next hlarge =>
          constructor
          · intro h
            cases h
            omega
          · rintro ⟨rfl, -⟩
            rfl

/-- An amount that does not fit is too large for a limit. -/
theorem limitOf_of_unfit {n : Int} (hn : 0 ≤ n) (hnone : checkedI64 n = none) :
    limitOf n = .error (.refused amountLarge) := by
  have hbig : ¬ n < 2 ^ 63 := fun hlt =>
    absurd ((checkedI64_of_fits (by omega) hlt).symm.trans hnone) (Option.some_ne_none n)
  have hmax : maxLimitMicros = 1000000000000 := rfl
  rw [limitOf, if_neg (by omega), if_pos (by omega)]

/-- What the first check of an amount refuses. -/
def misshapen (text w f : Text) : Bool :=
  w.isEmpty || !w.all Char.isDigit || !f.all Char.isDigit || decide (6 < f.length) ||
    (text.contains ['.'] && f.isEmpty)

theorem misshapen_eq_false_iff {text : Text} :
    misshapen text w f = false ↔
      IsDigits w ∧ (∀ c ∈ f, c.isDigit = true) ∧ f.length ≤ 6 ∧ ('.' ∈ text → f ≠ []) := by
  have hpoint : text.contains ['.'] = true ↔ '.' ∈ text := by
    rw [contains_iff, List.singleton_infix_iff]
  have hcontains : (text.contains ['.'] && f.isEmpty) = false ↔ ('.' ∈ text → f ≠ []) := by
    rw [Bool.and_eq_false_iff, ← hpoint]
    cases text.contains ['.'] <;> simp
  simp only [misshapen, Bool.or_eq_false_iff, Bool.not_eq_false', List.all_eq_true,
    decide_eq_false_iff_not, not_lt, hcontains, List.isEmpty_eq_false_iff, IsDigits, and_assoc]

theorem point_notMem {t : Text} (h : ∀ c ∈ t, c.isDigit = true) : '.' ∉ t := fun hmem =>
  absurd (h '.' hmem) (by decide)

/-- The parts of an amount that passes the first check spell it. -/
theorem usdText_of_parts {text : Text}
    (hsplit : (splitOnce '.' text).getD (text, []) = (w, f))
    (hcheck : misshapen text w f = false) : UsdText text (dollars w f) := by
  obtain ⟨hw, hf, hlength, hpoint⟩ := misshapen_eq_false_iff.mp hcheck
  cases hfound : splitOnce '.' text with
  | none =>
      rw [hfound] at hsplit
      cases hsplit
      exact .whole hw
  | some parts =>
      rw [hfound] at hsplit
      cases hsplit
      obtain ⟨-, rfl⟩ := splitOnce_eq_some_iff.mp hfound
      exact .point hw ⟨hpoint (by simp), hf⟩ hlength

/-- An amount is split into the digits and the decimals that spell it. -/
theorem UsdText.parts {text : Text} {q : ℚ} (h : UsdText text q) :
    ∃ w f, (splitOnce '.' text).getD (text, []) = (w, f) ∧ misshapen text w f = false ∧
      q = dollars w f := by
  cases h with
  | whole hw =>
      have hnone := point_notMem hw.2
      refine ⟨text, [], ?_, ?_, rfl⟩
      · rw [splitOnce_eq_none '.' text hnone]
        rfl
      · exact misshapen_eq_false_iff.mpr
          ⟨hw, fun c hc => absurd hc List.not_mem_nil, Nat.zero_le 6, fun h => absurd h hnone⟩
  | @point w f hw hf hlength =>
      refine ⟨w, f, ?_, ?_, rfl⟩
      · rw [splitOnce_append '.' w f (point_notMem hw.2)]
        rfl
      · exact misshapen_eq_false_iff.mpr ⟨hw, hf.2, hlength, fun _ => hf.1⟩

/-- The amount of a text whose digits are in order. -/
theorem parseUsd_of_parts {text : Text}
    (hsplit : (splitOnce '.' text).getD (text, []) = (w, f))
    (hcheck : misshapen text w f = false) : parseUsd text = limitOf (micros w f) := by
  obtain ⟨hw, hf, hlength, -⟩ := misshapen_eq_false_iff.mp hcheck
  have hvalue := digitsValue_lt hf
  have hpow : 10 ^ f.length * 10 ^ (6 - f.length) = 1000000 := by
    rw [← pow_add, Nat.add_sub_cancel' hlength]
    norm_num
  have hscaled : digitsValue f * 10 ^ (6 - f.length) < 1000000 := by
    rw [← hpow]
    exact Nat.mul_lt_mul_of_pos_right hvalue (by positivity)
  have hdecimals : decimalsOf f = .ok (digitsValue f : Int) := by
    by_cases hnil : f = []
    · subst hnil
      rfl
    · have hle : 10 ^ f.length ≤ 1000000 := by
        rw [← hpow]
        exact Nat.le_mul_of_pos_right _ (by positivity)
      rw [decimalsOf, if_neg (by simpa using hnil), parseI64_digits ⟨hnil, hf⟩,
        checkedI64_of_fits (by omega) (by omega)]
      rfl
  have hsum := checked_sum (a := digitsValue w) (b := microsPerUsd)
    (c := (digitsValue f * 10 ^ (6 - f.length) : Nat)) (Int.natCast_nonneg _) (by decide)
    (Int.natCast_nonneg _)
  have htotal : (digitsValue w : Int) * microsPerUsd +
      (digitsValue f * 10 ^ (6 - f.length) : Nat) = micros w f := by
    rw [micros]
    push_cast
    rfl
  rw [← parseI64_digits hw, htotal] at hsum
  rw [parseUsd, hsplit]
  rw [misshapen] at hcheck
  simp only [hcheck, Bool.false_eq_true, if_false]
  cases hparse : parseI64 w with
  | none =>
      rw [hparse, Option.bind_none] at hsum
      exact (limitOf_of_unfit (micros_nonneg w f) hsum.symm).symm
  | some v =>
      rw [hparse, Option.bind_some] at hsum
      simp only [orRefuse, bind, Except.bind, hdecimals,
        scaleByTen_eq (Nat.sub_le 6 _) hscaled]
      rw [hsum]
      cases hfits : checkedI64 (micros w f) with
      | none =>
          exact (limitOf_of_unfit (micros_nonneg w f) hfits).symm
      | some m =>
          obtain ⟨rfl, -, -⟩ := checkedI64_eq_some_iff.mp hfits
          rfl

/-- An amount that fails the first check is refused for its shape. -/
theorem parseUsd_of_misshapen {text : Text}
    (hsplit : (splitOnce '.' text).getD (text, []) = (w, f))
    (hcheck : misshapen text w f = true) : parseUsd text = .error (.refused amountShape) := by
  rw [misshapen] at hcheck
  rw [parseUsd, hsplit]
  simp only [hcheck, if_true]

/-- An amount is read as it is spelled, if a limit may have it. -/
theorem parseUsd_eq_ok_iff {text : Text} {n : Int} :
    parseUsd text = .ok n ↔ UsdText text ((n : ℚ) / 10 ^ 6) ∧ 1 ≤ n ∧ n ≤ maxLimitMicros := by
  constructor
  · intro h
    rcases hsplit : (splitOnce '.' text).getD (text, []) with ⟨w, f⟩
    cases hcheck : misshapen text w f with
    | true =>
        rw [parseUsd_of_misshapen hsplit hcheck] at h
        cases h
    | false =>
        rw [parseUsd_of_parts hsplit hcheck, limitOf_eq_ok_iff (micros_nonneg w f)] at h
        obtain ⟨hn, hbounds⟩ := h
        have hlength := (misshapen_eq_false_iff.mp hcheck).2.2.1
        rw [← (micros_eq_iff hlength n).mpr hn]
        exact ⟨usdText_of_parts hsplit hcheck, hbounds⟩
  · rintro ⟨htext, hbounds⟩
    obtain ⟨w, f, hsplit, hcheck, hq⟩ := htext.parts
    have hlength := (misshapen_eq_false_iff.mp hcheck).2.2.1
    rw [parseUsd_of_parts hsplit hcheck, limitOf_eq_ok_iff (micros_nonneg w f)]
    exact ⟨(micros_eq_iff hlength n).mp hq.symm, hbounds⟩

/-- What an amount says in micro-dollars is whole. -/
theorem UsdText.exists_micros {text : Text} {q : ℚ} (h : UsdText text q) :
    ∃ n : Int, q = (n : ℚ) / 10 ^ 6 := by
  obtain ⟨w, f, -, hcheck, rfl⟩ := h.parts
  exact ⟨micros w f, dollars_eq (misshapen_eq_false_iff.mp hcheck).2.2.1⟩

/-- An amount is read if and only if a limit may have what it says. -/
theorem exists_parseUsd_iff {text : Text} :
    (∃ n, parseUsd text = .ok n) ↔
      ∃ q, UsdText text q ∧ 1 ≤ q * 10 ^ 6 ∧ q * 10 ^ 6 ≤ maxLimitMicros := by
  have hmicros : ∀ n : Int, (n : ℚ) / 10 ^ 6 * 10 ^ 6 = n :=
    fun n => div_mul_cancel₀ (n : ℚ) (by norm_num)
  constructor
  · rintro ⟨n, hn⟩
    obtain ⟨htext, hlow, hhigh⟩ := parseUsd_eq_ok_iff.mp hn
    refine ⟨_, htext, ?_, ?_⟩
    · rw [hmicros]
      exact_mod_cast hlow
    · rw [hmicros]
      exact_mod_cast hhigh
  · rintro ⟨q, htext, hlow, hhigh⟩
    obtain ⟨n, rfl⟩ := htext.exists_micros
    rw [hmicros] at hlow hhigh
    exact ⟨n, parseUsd_eq_ok_iff.mpr ⟨htext, by exact_mod_cast hlow, by exact_mod_cast hhigh⟩⟩

theorem parseUsd_ne_overflowed (text : Text) : parseUsd text ≠ .error .overflowed := by
  rcases hsplit : (splitOnce '.' text).getD (text, []) with ⟨w, f⟩
  cases hcheck : misshapen text w f with
  | true =>
      rw [parseUsd_of_misshapen hsplit hcheck]
      simp
  | false =>
      rw [parseUsd_of_parts hsplit hcheck, limitOf]
      split_ifs <;> simp

/-- Dollars with six decimals are read as their micro-dollars, if these fit. -/
theorem moneyDigits_eq_some_iff {digits : Text} {n : Int} :
    moneyDigits digits = some n ↔
      ∃ w f, IsDigits w ∧ IsDigits f ∧ f.length = 6 ∧ digits = w ++ '.' :: f ∧
        micros w f = n ∧ n < 2 ^ 63 := by
  have hread : ∀ w f : Text, IsDigits w → IsDigits f → f.length = 6 →
      moneyDigits (w ++ '.' :: f) = checkedI64 (micros w f) := by
    intro w f hw hf hlength
    have hvalue := digitsValue_lt hf.2
    rw [hlength] at hvalue
    have hsum := checked_sum (a := digitsValue w) (b := microsPerUsd) (c := digitsValue f)
      (Int.natCast_nonneg _) (by decide) (Int.natCast_nonneg _)
    have hmicros : micros w f = digitsValue w * microsPerUsd + digitsValue f := by
      rw [micros, hlength, Nat.sub_self, pow_zero, mul_one]
    have hall : ∀ {t : Text}, IsDigits t → t.all Char.isDigit = true :=
      fun h => List.all_eq_true.mpr h.2
    have hempty : w.isEmpty = false := List.isEmpty_eq_false_iff.mpr hw.1
    rw [moneyDigits, splitOnce_append '.' w f (point_notMem hw.2), hmicros, ← hsum,
      ← parseI64_digits hw]
    simp only [bind, Option.bind_some, hempty, hlength, hall hw, hall hf, bne_self_eq_false,
      Bool.not_true, Bool.or_self, Bool.false_eq_true, if_false, parseI64_digits hf]
    rw [checkedI64_of_fits (n := (digitsValue f : Int)) (by omega) (by omega)]
    rfl
  constructor
  · intro h
    have hshape := h
    rw [moneyDigits] at hshape
    obtain ⟨⟨w, f⟩, hsplit, hrest⟩ := Option.bind_eq_some_iff.mp hshape
    obtain ⟨-, rfl⟩ := splitOnce_eq_some_iff.mp hsplit
    simp only [Option.ite_none_left_eq_some, Bool.or_eq_true, not_or, Bool.not_eq_true',
      Bool.not_eq_true, bne_eq_false_iff_eq, Bool.not_eq_false,
      List.all_eq_true] at hrest
    obtain ⟨⟨⟨⟨hempty, hlength⟩, hw⟩, hf⟩, -⟩ := hrest
    have hwdigits : IsDigits w := ⟨List.isEmpty_eq_false_iff.mp hempty, hw⟩
    have hfdigits : IsDigits f := ⟨List.ne_nil_of_length_pos (by omega), hf⟩
    rw [hread w f hwdigits hfdigits hlength] at h
    obtain ⟨hn, -, hlt⟩ := checkedI64_eq_some_iff.mp h
    exact ⟨w, f, hwdigits, hfdigits, hlength, rfl, hn, hn ▸ hlt⟩
  · rintro ⟨w, f, hw, hf, hlength, rfl, rfl, hlt⟩
    have hnonneg := micros_nonneg w f
    rw [hread w f hw hf hlength]
    exact checkedI64_of_fits (by omega) hlt

theorem money_positive {digits : Text} (h : digits.head? ≠ some '-') :
    money ('$' :: digits) = moneyDigits digits := by
  have hsign : stripPrefix ['-'] digits = none := by
    rw [stripPrefix_eq_none_iff]
    rintro ⟨r, rfl⟩
    exact h rfl
  have hdollar : stripPrefix ['$'] ('$' :: digits) = some digits := stripPrefix_append ['$'] digits
  rw [money, hdollar]
  simp only [bind, Option.bind_some, hsign]

theorem money_negative (digits : Text) :
    money ('$' :: '-' :: digits) = (moneyDigits digits).map (-·) := by
  have hdollar : stripPrefix ['$'] ('$' :: '-' :: digits) = some ('-' :: digits) :=
    stripPrefix_append ['$'] ('-' :: digits)
  have hsign : stripPrefix ['-'] ('-' :: digits) = some digits := stripPrefix_append ['-'] digits
  rw [money, hdollar]
  simp only [bind, Option.bind_some, hsign]

theorem head?_ne_minus (hw : IsDigits w) (rest : Text) : (w ++ rest).head? ≠ some '-' := by
  rw [List.head?_append_of_ne_nil _ hw.1]
  exact fun h => absurd (hw.2 '-' (List.mem_of_mem_head? h)) (by decide)

/-- Money is read as it is spelled, if its micro-dollars fit. -/
theorem money_eq_some_iff {text : Text} {n : Int} :
    money text = some n ↔ MoneyText text ((n : ℚ) / 10 ^ 6) ∧ |n| < 2 ^ 63 := by
  constructor
  · intro h
    have hshape := h
    rw [money] at hshape
    obtain ⟨rest, hdollar, -⟩ := Option.bind_eq_some_iff.mp hshape
    obtain rfl : text = '$' :: rest := (stripPrefix_eq_some_iff ['$'] text rest).mp hdollar
    by_cases hsign : rest.head? = some '-'
    · obtain ⟨digits, rfl⟩ := List.head?_eq_some_iff.mp hsign
      rw [money_negative] at h
      obtain ⟨m, hm, rfl⟩ := Option.map_eq_some_iff.mp h
      obtain ⟨w, f, hw, hf, hlength, rfl, rfl, hlt⟩ := moneyDigits_eq_some_iff.mp hm
      have hq := dollars_eq (w := w) hlength.le
      constructor
      · rw [Int.cast_neg, neg_div, ← hq]
        exact .negative hw hf hlength
      · rw [abs_neg, abs_of_nonneg (micros_nonneg w f)]
        exact hlt
    · rw [money_positive hsign] at h
      obtain ⟨w, f, hw, hf, hlength, rfl, rfl, hlt⟩ := moneyDigits_eq_some_iff.mp h
      constructor
      · rw [← dollars_eq (w := w) hlength.le]
        exact .positive hw hf hlength
      · rw [abs_of_nonneg (micros_nonneg w f)]
        exact hlt
  · rintro ⟨htext, hlt⟩
    generalize hq : (n : ℚ) / 10 ^ 6 = q at htext
    cases htext with
    | @positive w f hw hf hlength =>
        have hmicros := (micros_eq_iff hlength.le n).mp hq.symm
        rw [money_positive (head?_ne_minus hw _)]
        exact moneyDigits_eq_some_iff.mpr
          ⟨w, f, hw, hf, hlength, rfl, hmicros, (le_abs_self n).trans_lt hlt⟩
    | @negative w f hw hf hlength =>
        have hneg : dollars w f = ((-n : Int) : ℚ) / 10 ^ 6 := by
          rw [Int.cast_neg, neg_div, hq, neg_neg]
        have hmicros := (micros_eq_iff hlength.le (-n)).mp hneg
        rw [money_negative, Option.map_eq_some_iff]
        refine ⟨-n, ?_, neg_neg n⟩
        exact moneyDigits_eq_some_iff.mpr
          ⟨w, f, hw, hf, hlength, rfl, hmicros, (neg_le_abs n).trans_lt hlt⟩

/-- A text says one amount. -/
theorem MoneyText.unique {text : Text} {q r : ℚ} (hq : MoneyText text q) (hr : MoneyText text r) :
    q = r := by
  have hparts : ∀ {w f w' f' : Text}, IsDigits w → IsDigits w' →
      w ++ '.' :: f = w' ++ '.' :: f' → dollars w f = dollars w' f' := by
    intro w f w' f' hw hw' heq
    obtain ⟨rfl, rfl⟩ := append_cons_inj (point_notMem hw.2) (point_notMem hw'.2) heq
    rfl
  have hsign : ∀ {w f rest : Text}, IsDigits w → w ++ '.' :: f ≠ '-' :: rest := fun hw heq =>
    head?_ne_minus hw _ (congrArg List.head? heq)
  generalize htext : text = text' at hr
  cases hq with
  | positive hw hf hlength =>
      cases hr with
      | positive hw' hf' hlength' => exact hparts hw hw' (List.cons.inj htext).2
      | negative hw' hf' hlength' => exact absurd (List.cons.inj htext).2 (hsign hw)
  | negative hw hf hlength =>
      cases hr with
      | positive hw' hf' hlength' => exact absurd (List.cons.inj htext).2.symm (hsign hw')
      | negative hw' hf' hlength' =>
          exact congrArg (-·) (hparts hw hw' (List.cons.inj (List.cons.inj htext).2).2)

/-- Micro-dollars as dollars with six decimals. -/
def sixDecimals (n : Int) : Text :=
  '$' :: ((if n < 0 then ['-'] else []) ++
    (decimal (n.natAbs / 1000000) ++ '.' :: padded 6 (n.natAbs % 1000000)))

theorem moneyText_sixDecimals (n : Int) : MoneyText (sixDecimals n) ((n : ℚ) / 10 ^ 6) := by
  have hw := isDigits_decimal (n.natAbs / 1000000)
  have hf := isDigits_padded 6 (n.natAbs % 1000000)
  have hlength : (padded 6 (n.natAbs % 1000000)).length = 6 :=
    length_padded (by decide) (Nat.mod_lt _ (by decide))
  have hmicros : micros (decimal (n.natAbs / 1000000)) (padded 6 (n.natAbs % 1000000)) =
      n.natAbs := by
    rw [micros, hlength, Nat.sub_self, pow_zero, mul_one, digitsValue_decimal,
      digitsValue_padded, microsPerUsd]
    omega
  have hq := dollars_eq (w := decimal (n.natAbs / 1000000)) hlength.le
  rw [hmicros] at hq
  by_cases hneg : n < 0
  · have hvalue : (n : ℚ) / 10 ^ 6 = -(((n.natAbs : Int) : ℚ) / 10 ^ 6) := by
      rw [← neg_div, ← Int.cast_neg]
      congr 2
      omega
    rw [sixDecimals, if_pos hneg, hvalue, ← hq]
    exact .negative hw hf hlength
  · have hvalue : (n : ℚ) / 10 ^ 6 = ((n.natAbs : Int) : ℚ) / 10 ^ 6 := by
      congr 2
      omega
    rw [sixDecimals, if_neg hneg, hvalue, ← hq]
    exact .positive hw hf hlength

end Lemmas

/-- A limit is what an operator wrote, and money is what the command line printed, to the
micro-dollar. -/
structure AmountsReadExactly : Prop where
  usd : ∀ (text : Text) (n : Int), parseUsd text = .ok n ↔
    UsdText text ((n : ℚ) / 10 ^ 6) ∧ 1 ≤ n ∧ n ≤ maxLimitMicros
  usd_accepted : ∀ text : Text, (∃ n, parseUsd text = .ok n) ↔
    ∃ q, UsdText text q ∧ 1 ≤ q * 10 ^ 6 ∧ q * 10 ^ 6 ≤ maxLimitMicros
  usd_no_overflow : ∀ text : Text, parseUsd text ≠ .error .overflowed
  money_read : ∀ (text : Text) (n : Int), money text = some n ↔
    MoneyText text ((n : ℚ) / 10 ^ 6) ∧ |n| < 2 ^ 63
  money_rendered : ∀ n : Int, MoneyText (sixDecimals n) ((n : ℚ) / 10 ^ 6) ∧
    ∀ m, money (sixDecimals n) = some m ↔ m = n ∧ |n| < 2 ^ 63

/-- **Amounts are read exactly.** -/
theorem amounts_read_exactly : AmountsReadExactly where
  usd := fun _ _ => parseUsd_eq_ok_iff
  usd_accepted := fun _ => exists_parseUsd_iff
  usd_no_overflow := parseUsd_ne_overflowed
  money_read := fun _ _ => money_eq_some_iff
  money_rendered := by
    intro n
    refine ⟨moneyText_sixDecimals n, fun m => ?_⟩
    rw [money_eq_some_iff]
    constructor
    · rintro ⟨htext, hlt⟩
      have hvalue := htext.unique (moneyText_sixDecimals n)
      obtain rfl : m = n := Int.cast_inj.mp ((div_left_inj' (by norm_num)).mp hvalue)
      exact ⟨rfl, hlt⟩
    · rintro ⟨rfl, hlt⟩
      exact ⟨moneyText_sixDecimals m, hlt⟩

end Genaryx.Replay
