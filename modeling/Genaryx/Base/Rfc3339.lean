import Genaryx.Base.Numbers
import Genaryx.Base.Timestamp

/-!
# Instants as chrono writes them

An instant is a count of nanoseconds since the Unix epoch. Its RFC 3339 text in UTC has a date
of the proleptic Gregorian calendar and as many fractional digits as the instant needs: none,
three, six or nine.

## Implementation notes

The calendar repeats after 400 years, which are 146097 days. The date of an instant is computed
in the cycle that begins with the year 2000, and the cycles before and after shift the year.
-/

namespace Genaryx.Base

open Json

section Calendar

/-- How many multiples of a period are below a number, counted up by one. -/
theorem ceil_succ {k : Nat} (hk : 0 < k) (n : Nat) :
    (n + 1 + (k - 1)) / k = (n + (k - 1)) / k + if n % k = 0 then 1 else 0 := by
  rw [show n + 1 + (k - 1) = n + (k - 1) + 1 by omega, Nat.succ_div]
  have hdvd : k ∣ n + (k - 1) + 1 ↔ n % k = 0 := by
    rw [show n + (k - 1) + 1 = n + k by omega, Nat.dvd_add_left (Nat.dvd_refl k),
      Nat.dvd_iff_mod_eq_zero]
  simp only [hdvd]

/-- The days before a year of the cycle, in closed form. -/
theorem daysBeforeYear_closed (year : Nat) :
    daysBeforeYear year + (year + 99) / 100 = 365 * year + (year + 3) / 4 + (year + 399) / 400 := by
  induction year with
  | zero => rfl
  | succ year ih =>
      have hfour : (year + 1 + 3) / 4 = (year + 3) / 4 + if year % 4 = 0 then 1 else 0 :=
        ceil_succ (k := 4) (by decide) year
      have hhundred : (year + 1 + 99) / 100 =
          (year + 99) / 100 + if year % 100 = 0 then 1 else 0 := ceil_succ (k := 100) (by decide) year
      have hcycle : (year + 1 + 399) / 400 =
          (year + 399) / 400 + if year % 400 = 0 then 1 else 0 := ceil_succ (k := 400) (by decide) year
      have hcycle' : year % 400 = 0 → year % 100 = 0 := fun h => by omega
      have hhundred' : year % 100 = 0 → year % 4 = 0 := fun h => by omega
      have hdays : daysInYear year =
          365 + (if year % 4 = 0 then 1 else 0) + (if year % 400 = 0 then 1 else 0) -
            if year % 100 = 0 then 1 else 0 := by
        by_cases h4 : year % 4 = 0 <;> by_cases h100 : year % 100 = 0 <;>
          by_cases h400 : year % 400 = 0 <;> simp_all [daysInYear, isLeapYear]
      rw [daysBeforeYear, hdays, hfour, hhundred, hcycle]
      generalize (year + 3) / 4 = four at *
      generalize (year + 99) / 100 = hundred at *
      generalize (year + 399) / 400 = cycle at *
      split <;> split <;> split <;> omega
theorem daysBeforeYear_le_mul (year : Nat) : daysBeforeYear year ≤ 366 * year := by
  induction year with
  | zero => exact le_rfl
  | succ year ih =>
      have hdays : daysInYear year ≤ 366 := by
        rw [daysInYear]
        split <;> decide
      rw [daysBeforeYear]
      omega

/-- The leap days that a cycle lacks do not add up to a year. -/
theorem mul_le_daysBeforeYear {year : Nat} (h : year ≤ 399) :
    366 * (year + 1) ≤ daysBeforeYear (year + 2) := by
  have hclosed := daysBeforeYear_closed (year + 2)
  omega

theorem isLeapYear_add_cycle (year : Nat) : isLeapYear (2000 + year) = isLeapYear year := by
  have hfour : (2000 + year) % 4 = year % 4 := by omega
  have hhundred : (2000 + year) % 100 = year % 100 := by omega
  have hcycle : (2000 + year) % 400 = year % 400 := by omega
  rw [isLeapYear, isLeapYear, hfour, hhundred, hcycle]

/-- The year of the cycle that a day is in. -/
def yearOfDay (day : Nat) : Nat :=
  if daysBeforeYear (day / 366 + 1) ≤ day then day / 366 + 1 else day / 366

/-- The month that a day of a year is in. -/
def monthOfDay (leap : Bool) (day : Nat) : Nat :=
  ((List.range' 1 12).filter fun month => daysBeforeMonth leap month ≤ day).length

theorem yearOfDay_spec {day : Nat} (h : day < 146097) :
    daysBeforeYear (yearOfDay day) ≤ day ∧ day < daysBeforeYear (yearOfDay day + 1) ∧
      yearOfDay day < 400 := by
  have hlow := daysBeforeYear_le_mul (day / 366)
  have hhigh : 366 * (day / 366 + 1) ≤ daysBeforeYear (day / 366 + 2) :=
    mul_le_daysBeforeYear (by omega)
  have hend : daysBeforeYear 400 = 146097 := by
    have hclosed := daysBeforeYear_closed 400
    omega
  have hmul : 366 * (day / 366) ≤ day := Nat.mul_div_le day 366
  have hlt : day < 366 * (day / 366 + 1) := Nat.lt_mul_div_succ day (by decide)
  have hguess : day / 366 + 1 ≤ 400 := by omega
  rw [yearOfDay]
  split
  · next hle =>
      have hne : day / 366 + 1 ≠ 400 := by
        intro heq
        rw [heq, hend] at hle
        omega
      exact ⟨hle, lt_of_lt_of_le hlt hhigh, by omega⟩
  · next hgt => exact ⟨hlow.trans hmul, Nat.lt_of_not_le hgt, by omega⟩

theorem yearOfDay_mono {day day' : Nat} (h : day ≤ day') (h' : day' < 146097) :
    yearOfDay day ≤ yearOfDay day' := by
  obtain ⟨hlow, -, -⟩ := yearOfDay_spec (Nat.lt_of_le_of_lt h h')
  obtain ⟨-, hhigh, -⟩ := yearOfDay_spec h'
  by_contra hlt
  have hle := daysBeforeYear_le (Nat.lt_of_not_le hlt)
  omega

theorem monthOfDay_spec (leap : Bool) (day : Nat) (h : day < if leap then 366 else 365) :
    (1 ≤ monthOfDay leap day ∧ monthOfDay leap day ≤ 12) ∧
      daysBeforeMonth leap (monthOfDay leap day) ≤ day ∧
      day < daysBeforeMonth leap (monthOfDay leap day) +
        daysInMonth leap (monthOfDay leap day) := by
  have hall : ∀ leap : Bool, ∀ day : Fin 366, (day : Nat) < (if leap then 366 else 365) →
      (1 ≤ monthOfDay leap day ∧ monthOfDay leap day ≤ 12) ∧
        daysBeforeMonth leap (monthOfDay leap day) ≤ day ∧
        (day : Nat) < daysBeforeMonth leap (monthOfDay leap day) +
          daysInMonth leap (monthOfDay leap day) := by
    decide +kernel
  have hday : day < 366 := by
    cases leap <;> simp at h <;> omega
  exact hall leap ⟨day, hday⟩ h

end Calendar

section Digits

theorem numeral_eq_digitsValue (t : Text) : numeral t = digitsValue t := by
  induction t with
  | nil => rfl
  | cons c cs ih =>
      have hone : digitsValue [c] = digit c := by
        simp [digitsValue, digit, Nat.ofDigitChars_cons]
      rw [← List.singleton_append, digitsValue_append, hone, ← ih, List.singleton_append, numeral]

theorem numeral_padded (k n : Nat) : numeral (Text.padded k n) = n := by
  rw [numeral_eq_digitsValue, digitsValue_padded]

theorem fractional_eq_numeral (t : Text) : fractional t = numeral t / 10 ^ t.length := by
  induction t with
  | nil => simp [fractional, numeral]
  | cons c cs ih =>
      have hpow : (10 : ℚ) ^ cs.length ≠ 0 := by positivity
      rw [fractional, ih, numeral, List.length_cons, pow_succ]
      push_cast
      rw [← div_div, add_div (_ * _), mul_div_cancel_right₀ _ hpow]

theorem digits_padded {k n : Nat} (hk : 0 < k) (h : n < 10 ^ k) : Digits k (Text.padded k n) :=
  ⟨length_padded hk h, (isDigits_padded k n).2⟩

/-- Two numbers that are written with as many digits are in the order of their texts. -/
theorem lt_iff_numeral_lt {n : Nat} {a b : Text} (ha : Digits n a) (hb : Digits n b)
    (hinj : numeral a = numeral b → a = b) : a < b ↔ numeral a < numeral b := by
  refine ⟨numeral_lt_numeral ha hb, fun h => ?_⟩
  rcases lt_trichotomy a b with hlt | rfl | hgt
  · exact hlt
  · exact absurd h (lt_irrefl _)
  · exact absurd h (numeral_lt_numeral hb ha hgt).not_gt

end Digits

namespace Spelling

/-- What follows the year in the text of a timestamp. -/
def afterYear (s : Spelling) : Text :=
  '-' :: (s.month ++ '-' :: (s.day ++ s.separator ::
    (s.hour ++ ':' :: (s.minute ++ ':' :: (s.second ++ (s.point ++ s.offset))))))

theorem text_eq_append (s : Spelling) : s.text = s.year ++ s.afterYear := by
  simp [text, wall, afterYear]

/-- In UTC with the offset in digits, what sorts first does not give further digits. -/
theorem not_refines_of_le {a b : Spelling} (ha : a.Valid) {rest : Text}
    (hoffset : a.offset = '+' :: rest) (hsame : a.offset = b.offset) (h : a.text ≤ b.text) :
    ¬ Refines a b := by
  rintro ⟨hwall, more, hmore, c, hc, -⟩
  rw [text, text, hwall, append_le_append_iff rfl] at h
  obtain hlt | ⟨-, h⟩ := h
  · exact List.lt_irrefl _ hlt
  obtain ⟨d, ds, rfl⟩ := List.exists_cons_of_ne_nil (List.ne_nil_of_mem hc)
  have hdigit : d.isDigit = true := ha.fraction d (hmore ▸ by simp)
  have hgreater : '+' < d := by
    rw [Char.isDigit_iff_toNat] at hdigit
    exact Char.lt_def.mpr (show '+'.toNat < d.toNat by
      have hplus : '+'.toNat = 43 := rfl
      have hzero : '0'.toNat = 48 := rfl
      omega)
  have hnot : ∀ e : Char, '+' < e → ∀ x y : Text, ¬ (e :: x) ≤ ('+' :: y) := fun e he x y hle =>
    not_lt.mpr hle (List.cons_lt_cons_iff.mpr (Or.inl he))
  rw [← hsame, hoffset, point, point, hmore] at h
  by_cases hnone : b.fraction = []
  · rw [hnone, if_pos rfl, if_neg (by simp)] at h
    exact hnot '.' (by decide) _ _ h
  · rw [if_neg hnone, if_neg (by simp [hnone])] at h
    have htail : (d :: ds) ++ '+' :: rest ≤ '+' :: rest := by
      have hpre : ('.' :: b.fraction) ++ ((d :: ds) ++ '+' :: rest) ≤
          ('.' :: b.fraction) ++ '+' :: rest := by simpa using h
      rw [append_le_append_iff rfl] at hpre
      exact (hpre.resolve_left (List.lt_irrefl _)).2
    exact hnot d hgreater _ _ htail

/-- Timestamps of one form in UTC are in the order of their instants. -/
theorem text_lt_iff {a b : Spelling} (ha : a.Valid) (hb : b.Valid) {rest : Text}
    (hoffset : a.offset = '+' :: rest) (hform : SameForm a b)
    (hinj : a.instant = b.instant → a.text = b.text) :
    a.text < b.text ↔ a.instant < b.instant := by
  have hle := fun h => (instant_le_iff ha hb hform h).mpr
    (not_refines_of_le ha hoffset hform.2 h)
  have hge := fun h => (instant_le_iff hb ha ⟨hform.1.symm, hform.2.symm⟩ h).mpr
    (not_refines_of_le hb (hform.2 ▸ hoffset) hform.2.symm h)
  constructor
  · intro h
    exact lt_of_le_of_ne (hle h.le) fun heq => h.ne (hinj heq)
  · intro h
    exact lt_of_not_ge fun hge' => absurd h (not_lt.mpr (hge hge'))

end Spelling

section Instant

/-- The days from the first of January 2000 to the day that an instant is in. -/
def dayOf (t : Int) : Int := t / 86400000000000 - 10957

/-- The nanoseconds of that day. -/
def nanoOfDay (t : Int) : Nat := (t % 86400000000000).toNat

def dayInCycle (t : Int) : Nat := (dayOf t % 146097).toNat

/-- The year that an instant is in. -/
def yearOf (t : Int) : Int := 2000 + 400 * (dayOf t / 146097) + yearOfDay (dayInCycle t)

/-- The digits behind the second: as many thousands as are needed. -/
def autoSi (nano : Nat) : Text :=
  if nano = 0 then []
  else if nano % 1000000 = 0 then Text.padded 3 (nano / 1000000)
  else if nano % 1000 = 0 then Text.padded 6 (nano / 1000)
  else Text.padded 9 nano

/-- The parts of an instant's text, with the year of the cycle for its year. -/
def civil (t : Int) : Spelling :=
  let year := yearOfDay (dayInCycle t)
  let dayOfYear := dayInCycle t - daysBeforeYear year
  let month := monthOfDay (isLeapYear year) dayOfYear
  { year := Text.padded 4 (2000 + year)
    month := Text.padded 2 month
    day := Text.padded 2 (dayOfYear - daysBeforeMonth (isLeapYear year) month + 1)
    separator := 'T'
    hour := Text.padded 2 (nanoOfDay t / 3600000000000)
    minute := Text.padded 2 (nanoOfDay t / 60000000000 % 60)
    second := Text.padded 2 (nanoOfDay t / 1000000000 % 60)
    fraction := autoSi (nanoOfDay t % 1000000000)
    offset := "+00:00" }

/-- A year in four digits, or with a sign where they do not suffice. -/
def yearText (year : Int) : Text :=
  if 0 ≤ year ∧ year ≤ 9999 then Text.padded 4 year.toNat
  else (if year < 0 then '-' else '+') :: Text.padded 4 year.natAbs

/-- `DateTime::<Utc>::to_rfc3339`. -/
def toRfc3339 (t : Int) : Text := yearText (yearOf t) ++ (civil t).afterYear

/-- The instants that chrono represents. -/
def InRange (t : Int) : Prop := -262143 ≤ yearOf t ∧ yearOf t ≤ 262142

instance (t : Int) : Decidable (InRange t) := inferInstanceAs (Decidable (_ ∧ _))

example : toRfc3339 1789898400500000000 = "2026-09-20T10:00:00.500+00:00" := by decide

theorem autoSi_digits {nano : Nat} (h : nano < 1000000000) :
    (∀ c ∈ autoSi nano, c.isDigit = true) ∧ fractional (autoSi nano) = nano / 1000000000 := by
  have hpadded : ∀ k n : Nat, 0 < k → n < 10 ^ k →
      fractional (Text.padded k n) = n / 10 ^ k := fun k n hk hn => by
    rw [fractional_eq_numeral, numeral_padded, length_padded hk hn]
  rw [autoSi]
  split
  · next hzero => exact ⟨by simp, by simp [fractional, hzero]⟩
  · split
    · next hmilli =>
        refine ⟨(isDigits_padded _ _).2, ?_⟩
        have hsplit : (nano : ℚ) = ((nano / 1000000 : Nat) : ℚ) * 1000000 := by
          exact_mod_cast (by omega : nano = nano / 1000000 * 1000000)
        rw [hpadded 3 _ (by decide) (by omega), hsplit]
        ring
    · split
      · next hmicro =>
          refine ⟨(isDigits_padded _ _).2, ?_⟩
          have hsplit : (nano : ℚ) = ((nano / 1000 : Nat) : ℚ) * 1000 := by
            exact_mod_cast (by omega : nano = nano / 1000 * 1000)
          rw [hpadded 6 _ (by decide) (by omega), hsplit]
          ring
      · refine ⟨(isDigits_padded _ _).2, ?_⟩
        rw [hpadded 9 _ (by decide) (by omega)]
        norm_num

theorem dayInCycle_lt (t : Int) : dayInCycle t < 146097 := by
  rw [dayInCycle]
  omega

theorem nanoOfDay_lt (t : Int) : nanoOfDay t < 86400000000000 := by
  rw [nanoOfDay]
  omega

/-- The day of the year and the day of the month are those of the day in the cycle. -/
theorem isDate_civil (t : Int) :
    IsDate (numeral (civil t).year) (numeral (civil t).month) (numeral (civil t).day) ∧
      dayNumber (numeral (civil t).year) (numeral (civil t).month) (numeral (civil t).day) =
        daysBeforeYear 2000 + dayInCycle t + 1 := by
  obtain ⟨hlow, hhigh, -⟩ := yearOfDay_spec (dayInCycle_lt t)
  rw [daysBeforeYear, daysInYear] at hhigh
  obtain ⟨hmonth, hfirst, hlast⟩ := monthOfDay_spec (isLeapYear (yearOfDay (dayInCycle t)))
    (dayInCycle t - daysBeforeYear (yearOfDay (dayInCycle t))) (by omega)
  have hyears : daysBeforeYear (2000 + yearOfDay (dayInCycle t)) =
      daysBeforeYear 2000 + daysBeforeYear (yearOfDay (dayInCycle t)) := by
    have hsum := daysBeforeYear_closed (2000 + yearOfDay (dayInCycle t))
    have hbase := daysBeforeYear_closed 2000
    have hyear := daysBeforeYear_closed (yearOfDay (dayInCycle t))
    omega
  simp only [civil, numeral_padded]
  refine ⟨⟨hmonth, ?_⟩, ?_⟩
  · rw [isLeapYear_add_cycle]
    omega
  · rw [dayNumber, isLeapYear_add_cycle, hyears]
    omega

/-- The parts of an instant's text are those of a timestamp. -/
theorem valid_civil (t : Int) : (civil t).Valid := by
  obtain ⟨-, -, hyear⟩ := yearOfDay_spec (dayInCycle_lt t)
  have hnano := nanoOfDay_lt t
  have hdate := (isDate_civil t).1
  have hmonth := hdate.inYear.2
  have hday : numeral (civil t).day ≤ 31 := hdate.inMonth.2.trans (by
    rw [daysInMonth.eq_def]
    split
    · split <;> decide
    all_goals decide)
  simp only [civil, numeral_padded] at hmonth hday
  refine ⟨digits_padded (by decide) (by omega), digits_padded (by decide) (by omega),
    digits_padded (by decide) (by omega), hdate, Or.inl rfl,
    ⟨digits_padded (by decide) (by omega), ?_⟩, ⟨digits_padded (by decide) (by omega), ?_⟩,
    ⟨digits_padded (by decide) (by omega), ?_⟩, (autoSi_digits (by omega)).1, rfl⟩
  · simp only [civil, numeral_padded]
    omega
  · simp only [civil, numeral_padded]
    omega
  · simp only [civil, numeral_padded]
    omega

theorem utcMinute_civil (t : Int) :
    (civil t).utcMinute =
      ((daysBeforeYear 2000 + dayInCycle t + 1) * 1440 + nanoOfDay t / 60000000000 : Nat) := by
  have hoffset : (offsetMinutes (civil t).offset).getD 0 = 0 :=
    show (offsetMinutes ("+00:00".toList)).getD 0 = 0 by decide
  rw [Spelling.utcMinute, (isDate_civil t).2, hoffset]
  simp only [civil, numeral_padded]
  generalize daysBeforeYear 2000 = base
  have hsplit : nanoOfDay t / 3600000000000 * 60 + nanoOfDay t / 60000000000 % 60 =
      nanoOfDay t / 60000000000 := by omega
  generalize nanoOfDay t / 60000000000 % 60 = minute at *
  rw [← hsplit]
  push_cast
  ring

theorem seconds_civil (t : Int) :
    (civil t).seconds = (nanoOfDay t % 60000000000 : Nat) / 1000000000 := by
  have hsplit : nanoOfDay t % 60000000000 =
      nanoOfDay t / 1000000000 % 60 * 1000000000 + nanoOfDay t % 1000000000 := by omega
  have hfraction : fractional (civil t).fraction =
      (nanoOfDay t % 1000000000 : Nat) / 1000000000 := (autoSi_digits (by omega)).2
  rw [Spelling.seconds, hfraction, hsplit]
  simp only [civil, numeral_padded]
  push_cast
  ring

/-- In one cycle the parts denote instants in the order of the days and of their nanoseconds. -/
theorem instant_civil_lt_iff (t u : Int) :
    (civil t).instant < (civil u).instant ↔
      dayInCycle t < dayInCycle u ∨ dayInCycle t = dayInCycle u ∧ nanoOfDay t < nanoOfDay u := by
  have ht := nanoOfDay_lt t
  have hu := nanoOfDay_lt u
  have hseconds : (civil t).seconds < (civil u).seconds ↔
      nanoOfDay t % 60000000000 < nanoOfDay u % 60000000000 := by
    rw [seconds_civil, seconds_civil, div_lt_div_iff_of_pos_right (by norm_num), Nat.cast_lt]
  rw [Spelling.instant, Spelling.instant, Prod.Lex.toLex_lt_toLex, hseconds, utcMinute_civil,
    utcMinute_civil, Nat.cast_lt, Nat.cast_inj]
  generalize daysBeforeYear 2000 = base
  omega

/-- Instants of one cycle are in the order of the instants of their parts. -/
theorem lt_iff_of_cycle_eq {t u : Int} (h : dayOf t / 146097 = dayOf u / 146097) :
    t < u ↔
      dayInCycle t < dayInCycle u ∨ dayInCycle t = dayInCycle u ∧ nanoOfDay t < nanoOfDay u := by
  simp only [dayInCycle, nanoOfDay, dayOf] at *
  omega

/-- An instant is in no earlier year than an instant before it. -/
theorem yearOf_mono {t u : Int} (h : t ≤ u) : yearOf t ≤ yearOf u := by
  have hdays : dayOf t ≤ dayOf u := by
    simp only [dayOf]
    omega
  rw [yearOf, yearOf]
  obtain ⟨-, -, ht⟩ := yearOfDay_spec (dayInCycle_lt t)
  obtain hlt | heq := lt_or_eq_of_le (Int.ediv_le_ediv (by decide : (0 : Int) < 146097) hdays)
  · omega
  · have hday : dayInCycle t ≤ dayInCycle u := by
      simp only [dayInCycle]
      omega
    have hyear := yearOfDay_mono hday (dayInCycle_lt u)
    omega

/-- Instants of one year are in one cycle. -/
theorem cycle_eq_of_yearOf_eq {t u : Int} (h : yearOf t = yearOf u) :
    dayOf t / 146097 = dayOf u / 146097 ∧
      yearOfDay (dayInCycle t) = yearOfDay (dayInCycle u) := by
  obtain ⟨-, -, ht⟩ := yearOfDay_spec (dayInCycle_lt t)
  obtain ⟨-, -, hu⟩ := yearOfDay_spec (dayInCycle_lt u)
  rw [yearOf, yearOf] at h
  omega

/-- The texts of one year are in the order of their instants. -/
theorem toRfc3339_lt_iff_of_yearOf_eq {t u : Int} (h : yearOf t = yearOf u) :
    toRfc3339 t < toRfc3339 u ↔ t < u := by
  obtain ⟨hcycle, hyear⟩ := cycle_eq_of_yearOf_eq h
  have hsame : (civil t).year = (civil u).year := by simp only [civil, hyear]
  have htext : (civil t).text < (civil u).text ↔ (civil t).afterYear < (civil u).afterYear := by
    rw [Spelling.text_eq_append, Spelling.text_eq_append, hsame, append_lt_append_iff rfl]
    simp
  have hinj : (civil t).instant = (civil u).instant → (civil t).text = (civil u).text := by
    intro hinstant
    have heq : t = u := by
      rcases lt_trichotomy t u with hlt | heq | hgt
      · exact absurd hinstant ((instant_civil_lt_iff t u).mpr
          ((lt_iff_of_cycle_eq hcycle).mp hlt)).ne
      · exact heq
      · exact absurd hinstant ((instant_civil_lt_iff u t).mpr
          ((lt_iff_of_cycle_eq hcycle.symm).mp hgt)).ne'
    rw [heq]
  rw [toRfc3339, toRfc3339, h, append_lt_append_iff rfl, lt_iff_of_cycle_eq hcycle,
    ← instant_civil_lt_iff,
    ← Spelling.text_lt_iff (valid_civil t) (valid_civil u) rfl ⟨rfl, rfl⟩ hinj, htext]
  simp

end Instant

section Years

theorem digits_decimal {k n : Nat} (hlow : 10 ^ k ≤ n) (hhigh : n < 10 ^ (k + 1)) (hk : 0 < k) :
    Digits (k + 1) (Text.decimal n) := by
  refine ⟨le_antisymm ?_ ?_, fun _ => Text.isDigit_of_mem_decimal⟩
  · exact (Nat.length_toDigits_le_iff (by decide) (Nat.succ_pos k)).mpr hhigh
  · by_contra hlt
    have hle : (Text.decimal n).length ≤ k := by omega
    exact absurd ((Nat.length_toDigits_le_iff (by decide) hk).mp hle) (Nat.not_lt_of_le hlow)

/-- Numbers with as many digits are in the order of their texts. -/
theorem decimal_lt_iff {k n m : Nat} (hn : Digits k (Text.decimal n))
    (hm : Digits k (Text.decimal m)) : Text.decimal n < Text.decimal m ↔ n < m := by
  have hvalue : ∀ n, numeral (Text.decimal n) = n := fun n => by
    rw [numeral_eq_digitsValue, digitsValue_decimal]
  rw [lt_iff_numeral_lt hn hm fun h => by rw [hvalue, hvalue] at h; rw [h], hvalue, hvalue]

theorem yearText_plain {year : Int} (h : 0 ≤ year ∧ year ≤ 9999) :
    yearText year = Text.padded 4 year.toNat := if_pos h

theorem yearText_after {year : Int} (h : 9999 < year) :
    yearText year = '+' :: Text.decimal year.natAbs := by
  have hlong : 4 ≤ (Text.decimal year.natAbs).length := by
    by_contra hlt
    have hle : (Text.decimal year.natAbs).length ≤ 4 := by omega
    have hsmall := (Nat.length_toDigits_le_iff (by decide) (by decide)).mp hle
    omega
  rw [yearText, if_neg (by omega), if_neg (by omega), Text.padded,
    Nat.sub_eq_zero_of_le hlong, List.replicate_zero, List.nil_append]

theorem yearText_before {year : Int} (h : year < 0) :
    yearText year = '-' :: Text.padded 4 year.natAbs := by
  rw [yearText, if_neg (by omega), if_pos h]

/-- The texts of years that need no sign are in the order of their instants. -/
theorem toRfc3339_lt_iff {t u : Int} (ht : 0 ≤ yearOf t ∧ yearOf t ≤ 9999)
    (hu : 0 ≤ yearOf u ∧ yearOf u ≤ 9999) : toRfc3339 t < toRfc3339 u ↔ t < u := by
  have htd : Digits 4 (Text.padded 4 (yearOf t).toNat) := digits_padded (by decide) (by omega)
  have hud : Digits 4 (Text.padded 4 (yearOf u).toNat) := digits_padded (by decide) (by omega)
  rcases lt_trichotomy (yearOf t) (yearOf u) with hlt | heq | hgt
  · refine iff_of_true ?_ (lt_of_not_ge fun hge => absurd (yearOf_mono hge) (by omega))
    rw [toRfc3339, toRfc3339, yearText_plain ht, yearText_plain hu,
      append_lt_append_iff (htd.1.trans hud.1.symm)]
    refine Or.inl ((lt_iff_numeral_lt htd hud ?_).mpr ?_)
    · intro h
      rw [numeral_padded, numeral_padded] at h
      rw [h]
    · rw [numeral_padded, numeral_padded]
      omega
  · exact toRfc3339_lt_iff_of_yearOf_eq heq
  · refine iff_of_false ?_ (fun hlt => absurd (yearOf_mono hlt.le) (by omega))
    rw [toRfc3339, toRfc3339, yearText_plain ht, yearText_plain hu,
      append_lt_append_iff (htd.1.trans hud.1.symm)]
    rintro (h | ⟨h, -⟩)
    · have hnum := numeral_lt_numeral htd hud h
      rw [numeral_padded, numeral_padded] at hnum
      omega
    · have hnum := congrArg numeral h
      rw [numeral_padded, numeral_padded] at hnum
      omega

/-- A text with a sign sorts before one without. -/
theorem toRfc3339_lt_of_sign {t u : Int} (ht : yearOf t < 0 ∨ 9999 < yearOf t)
    (hu : 0 ≤ yearOf u ∧ yearOf u ≤ 9999) : toRfc3339 t < toRfc3339 u := by
  have hud : Digits 4 (Text.padded 4 (yearOf u).toNat) := digits_padded (by decide) (by omega)
  obtain ⟨a, b, c, d, hyear⟩ := hud.eq_four
  have ha : a.isDigit = true := hud.2 a (by simp [hyear])
  have hsign : '+' < a ∧ '-' < a := by
    rw [Char.isDigit_iff_toNat] at ha
    have hplus : '+'.toNat = 43 := rfl
    have hminus : '-'.toNat = 45 := rfl
    have hzero : '0'.toNat = 48 := rfl
    constructor <;> refine Char.lt_def.mpr ?_
    · exact show '+'.toNat < a.toNat by omega
    · exact show '-'.toNat < a.toNat by omega
  rw [toRfc3339, toRfc3339, yearText_plain hu, hyear]
  rcases ht with hbefore | hafter
  · rw [yearText_before hbefore]
    exact List.cons_lt_cons_iff.mpr (Or.inl hsign.2)
  · rw [yearText_after hafter]
    exact List.cons_lt_cons_iff.mpr (Or.inl hsign.1)

/-- A text of a year after 9999 sorts before one of a year before 0. -/
theorem toRfc3339_lt_of_after_of_before {t u : Int} (ht : 9999 < yearOf t) (hu : yearOf u < 0) :
    toRfc3339 t < toRfc3339 u := by
  rw [toRfc3339, toRfc3339, yearText_after ht, yearText_before hu]
  exact List.cons_lt_cons_iff.mpr (Or.inl (by decide))

/-- The years after 9999 are in the order of their texts where they have as many digits, and
else where the shorter one is not after the first digits of the longer one. -/
def Aligned (year later : Int) : Prop := year < 100000 → 100000 ≤ later → year ≤ later / 10

instance (year later : Int) : Decidable (Aligned year later) :=
  inferInstanceAs (Decidable (_ → _ → _))

theorem toRfc3339_lt_iff_of_after {t u : Int} (hlt : t < u) (ht : 9999 < yearOf t)
    (hu : yearOf u ≤ 999999) :
    toRfc3339 t < toRfc3339 u ↔ Aligned (yearOf t) (yearOf u) := by
  have hle := yearOf_mono hlt.le
  obtain heq | hyears := eq_or_lt_of_le hle
  · exact iff_of_true ((toRfc3339_lt_iff_of_yearOf_eq heq).mpr hlt) fun h h' => by omega
  have hafter : ∀ s : Int, ∃ rest, (civil s).afterYear = '-' :: rest := fun s => ⟨_, rfl⟩
  obtain ⟨restT, hrestT⟩ := hafter t
  obtain ⟨restU, hrestU⟩ := hafter u
  rw [toRfc3339, toRfc3339, yearText_after ht, yearText_after (ht.trans_le hle), List.cons_append,
    List.cons_append, List.cons_lt_cons_iff, or_iff_right (lt_irrefl _), and_iff_right rfl, hrestT,
    hrestU]
  generalize hy : (yearOf t).natAbs = y
  generalize hz : (yearOf u).natAbs = z
  have hsame : ∀ k, Digits k (Text.decimal y) → Digits k (Text.decimal z) →
      Text.decimal y ++ '-' :: restT < Text.decimal z ++ '-' :: restU := fun k hdy hdz => by
    rw [append_lt_append_iff (hdy.1.trans hdz.1.symm)]
    exact Or.inl ((decimal_lt_iff hdy hdz).mpr (by omega))
  by_cases hshort : y < 100000
  · have hdy : Digits 5 (Text.decimal y) :=
      digits_decimal (k := 4) (by omega) (by omega) (by decide)
    by_cases hlong : 100000 ≤ z
    · -- the longer year is its first five digits and one more
      have hdz : Digits 5 (Text.decimal (z / 10)) :=
        digits_decimal (k := 4) (by omega) (by omega) (by decide)
      have hsplit : Text.decimal z = Text.decimal (z / 10) ++ Text.decimal (z % 10) := by
        rw [Text.decimal, Text.decimal, Text.decimal,
          Nat.toDigits_append_toDigits (by decide) (by omega) (Nat.mod_lt _ (by decide)),
          Nat.div_add_mod]
      obtain ⟨d, ds, hdigit⟩ := List.exists_cons_of_ne_nil (Json.isDigits_decimal (z % 10)).1
      have hd : '-' < d := by
        have hdd : d.isDigit = true := (Json.isDigits_decimal (z % 10)).2 d (by simp [hdigit])
        rw [Char.isDigit_iff_toNat] at hdd
        have hminus : '-'.toNat = 45 := rfl
        have hzero : '0'.toNat = 48 := rfl
        exact Char.lt_def.mpr (show '-'.toNat < d.toNat by omega)
      rw [hsplit, List.append_assoc, append_lt_append_iff (hdy.1.trans hdz.1.symm),
        decimal_lt_iff hdy hdz, hdigit, List.cons_append, List.cons_lt_cons_iff]
      constructor
      · rintro (h | ⟨h, -⟩) _ _
        · omega
        · have hyz := Text.decimal_injective h
          omega
      · intro h
        have hyz : y ≤ z / 10 := by
          have := h (by omega) (by omega)
          omega
        rcases Nat.lt_or_eq_of_le hyz with hlt' | rfl
        · exact Or.inl hlt'
        · exact Or.inr ⟨rfl, Or.inl hd⟩
    · refine iff_of_true (hsame 5 hdy (digits_decimal (k := 4) (by omega) (by omega)
        (by decide))) fun _ h => by omega
  · refine iff_of_true (hsame 6 ?_ ?_) fun h _ => by omega
    · exact digits_decimal (k := 5) (by omega) (by omega) (by decide)
    · exact digits_decimal (k := 5) (by omega) (by omega) (by decide)

end Years

end Genaryx.Base
