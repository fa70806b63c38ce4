import Genaryx.Base.Text
import Mathlib.Algebra.Order.Field.Rat
import Mathlib.Data.Char
import Mathlib.Data.List.Lex
import Mathlib.Data.Prod.Lex
import Mathlib.Tactic.Linarith
import Mathlib.Tactic.Positivity
import Mathlib.Tactic.Ring

/-!
# Timestamps as they are spelled

The spellings of RFC 3339: a date, a time of day with any number of fractional digits, and an
offset from UTC. Each denotes an instant, and two spellings of one form are compared as texts
as their instants are, unless one of them gives the other's second with further digits.

## Implementation notes

An instant is a minute of UTC and the seconds of that minute, so that a leap second is later
than the seconds before it and earlier than the next minute.
-/

namespace Genaryx.Base

section Digits

/-- A text of so many decimal digits. -/
def Digits (n : Nat) (t : Text) : Prop := t.length = n ∧ ∀ c ∈ t, c.isDigit = true

instance (n : Nat) (t : Text) : Decidable (Digits n t) :=
  inferInstanceAs (Decidable (_ ∧ _))

def digit (c : Char) : Nat := c.toNat - '0'.toNat

/-- The number that decimal digits are written for. -/
def numeral : Text → Nat
  | [] => 0
  | c :: cs => digit c * 10 ^ cs.length + numeral cs

/-- The fraction that decimal digits are written for behind a point. -/
def fractional : Text → ℚ
  | [] => 0
  | c :: cs => (digit c + fractional cs) / 10

theorem digit_lt {c : Char} (h : c.isDigit = true) : digit c < 10 := by
  rw [Char.isDigit_iff_toNat] at h
  have hhigh : '9'.toNat = 57 := rfl
  have hlow : '0'.toNat = 48 := rfl
  rw [digit]
  omega

theorem digit_lt_digit {c d : Char} (hc : c.isDigit = true) (h : c < d) : digit c < digit d := by
  rw [Char.isDigit_iff_toNat] at hc
  have hlt : c.toNat < d.toNat := Char.lt_def.mp h
  rw [digit, digit]
  omega

theorem digit_eq_zero_iff {c : Char} (h : c.isDigit = true) : digit c = 0 ↔ c = '0' := by
  rw [Char.isDigit_iff_toNat] at h
  rw [digit, ← Char.toNat_inj]
  omega

theorem numeral_lt {t : Text} (h : ∀ c ∈ t, c.isDigit = true) : numeral t < 10 ^ t.length := by
  induction t with
  | nil => exact Nat.one_pos
  | cons c cs ih =>
      obtain ⟨hc, hcs⟩ := List.forall_mem_cons.mp h
      have hdigit := digit_lt hc
      have hrest := ih hcs
      have hmul : digit c * 10 ^ cs.length ≤ 9 * 10 ^ cs.length :=
        Nat.mul_le_mul_right _ (by omega)
      rw [numeral, List.length_cons, Nat.pow_succ]
      omega

/-- Digits of one length are in the order of their numbers. -/
theorem numeral_lt_numeral {n : Nat} {a b : Text} (ha : Digits n a) (hb : Digits n b)
    (h : a < b) : numeral a < numeral b := by
  induction a generalizing n b with
  | nil =>
      rw [List.length_eq_zero_iff.mp (hb.1.trans ha.1.symm)] at h
      exact absurd h (List.lt_irrefl [])
  | cons c cs ih =>
      obtain ⟨hlength, hdigits⟩ := ha
      obtain ⟨hc, hcs⟩ := List.forall_mem_cons.mp hdigits
      cases b with
      | nil => exact absurd h (List.not_lt_nil _)
      | cons d ds =>
          have hsame : cs.length = ds.length := by
            have hboth := hlength.trans hb.1.symm
            simpa using hboth
          obtain hcd | ⟨rfl, hrest⟩ := List.cons_lt_cons_iff.mp h
          · have hdigit := digit_lt_digit hc hcd
            have hlow := numeral_lt hcs
            have hmul : (digit c + 1) * 10 ^ cs.length ≤ digit d * 10 ^ cs.length :=
              Nat.mul_le_mul_right _ hdigit
            rw [numeral, numeral, ← hsame]
            rw [Nat.add_mul] at hmul
            omega
          · have hlt := ih ⟨rfl, hcs⟩ ⟨hsame.symm, (List.forall_mem_cons.mp hb.2).2⟩ hrest
            rw [numeral, numeral, hsame]
            omega

theorem fractional_nonneg (t : Text) : 0 ≤ fractional t := by
  induction t with
  | nil => exact le_rfl
  | cons c cs ih =>
      rw [fractional]
      positivity

theorem fractional_lt_one {t : Text} (h : ∀ c ∈ t, c.isDigit = true) : fractional t < 1 := by
  induction t with
  | nil => exact zero_lt_one
  | cons c cs ih =>
      obtain ⟨hc, hcs⟩ := List.forall_mem_cons.mp h
      have hdigit : (digit c : ℚ) ≤ 9 := by exact_mod_cast Nat.le_of_lt_succ (digit_lt hc)
      have hrest := ih hcs
      rw [fractional]
      linarith

theorem fractional_append (a b : Text) :
    fractional (a ++ b) = fractional a + fractional b / 10 ^ a.length := by
  induction a with
  | nil => simp [fractional]
  | cons c cs ih =>
      rw [List.cons_append, fractional, fractional, ih, List.length_cons, pow_succ]
      ring

/-- A fraction is above zero where one of its digits is. -/
theorem fractional_pos_iff {t : Text} (h : ∀ c ∈ t, c.isDigit = true) :
    0 < fractional t ↔ ∃ c ∈ t, c ≠ '0' := by
  induction t with
  | nil => simp [fractional]
  | cons c cs ih =>
      obtain ⟨hc, hcs⟩ := List.forall_mem_cons.mp h
      have hrest := fractional_nonneg cs
      simp only [List.mem_cons, exists_eq_or_imp]
      rw [← ih hcs, fractional, ne_eq, ← digit_eq_zero_iff hc]
      constructor
      · intro hpos
        by_cases hzero : digit c = 0
        · refine .inr ?_
          rw [hzero] at hpos
          simp only [Nat.cast_zero, zero_add] at hpos
          linarith
        · exact .inl hzero
      · rintro (hdigit | hpos)
        · have hone : (1 : ℚ) ≤ digit c := by exact_mod_cast Nat.one_le_iff_ne_zero.mpr hdigit
          linarith
        · positivity

/-- Further digits that are not all zero make a fraction greater. -/
theorem fractional_lt_append {a b : Text} (h : ∀ c ∈ b, c.isDigit = true) :
    fractional a < fractional (a ++ b) ↔ ∃ c ∈ b, c ≠ '0' := by
  rw [fractional_append, ← fractional_pos_iff h, lt_add_iff_pos_right]
  have hpow : (0 : ℚ) < 10 ^ a.length := by positivity
  exact div_pos_iff_of_pos_right hpow

/-- A fraction that sorts before another, ahead of the same text, is less than it unless it is
the other with further digits. -/
theorem fractional_le_of_append_le {a b rest : Text} (ha : ∀ c ∈ a, c.isDigit = true)
    (hb : ∀ c ∈ b, c.isDigit = true) (h : a ++ rest ≤ b ++ rest) :
    fractional a ≤ fractional b ∨ ∃ more, a = b ++ more := by
  induction a generalizing b with
  | nil => exact .inl (fractional_nonneg b)
  | cons c cs ih =>
      cases b with
      | nil => exact .inr ⟨c :: cs, rfl⟩
      | cons d ds =>
          obtain ⟨hc, hcs⟩ := List.forall_mem_cons.mp ha
          obtain ⟨hd, hds⟩ := List.forall_mem_cons.mp hb
          rw [List.cons_append, List.cons_append, ← not_lt, List.cons_lt_cons_iff, not_or] at h
          obtain hcd | rfl | hdc := lt_trichotomy c d
          · have hdigit : (digit c : ℚ) + 1 ≤ digit d := by
              exact_mod_cast digit_lt_digit hc hcd
            have hlow := fractional_lt_one hcs
            have hhigh := fractional_nonneg ds
            refine .inl ?_
            rw [fractional, fractional]
            linarith
          · obtain hle | ⟨more, rfl⟩ := ih hcs hds (not_lt.mp fun hlt => h.2 ⟨rfl, hlt⟩)
            · refine .inl ?_
              rw [fractional, fractional]
              linarith
            · exact .inr ⟨more, rfl⟩
          · exact absurd hdc h.1

theorem Digits.eq_two {t : Text} (h : Digits 2 t) : ∃ a b, t = [a, b] :=
  List.length_eq_two.mp h.1

theorem Digits.eq_four {t : Text} (h : Digits 4 t) : ∃ a b c d, t = [a, b, c, d] := by
  match t, h.1 with
  | [a, b, c, d], _ => exact ⟨a, b, c, d, rfl⟩

end Digits

section Calendar

def isLeapYear (year : Nat) : Bool := year % 4 = 0 && (year % 100 ≠ 0 || year % 400 = 0)

def daysInMonth (leap : Bool) : Nat → Nat
  | 2 => if leap then 29 else 28
  | 4 | 6 | 9 | 11 => 30
  | _ => 31

/-- The days of a year before the first of a month. -/
def daysBeforeMonth (leap : Bool) (month : Nat) : Nat :=
  ((List.range month).drop 1).map (daysInMonth leap) |>.sum

def daysInYear (year : Nat) : Nat := if isLeapYear year then 366 else 365

/-- The days before the first of January of a year. -/
def daysBeforeYear : Nat → Nat
  | 0 => 0
  | year + 1 => daysBeforeYear year + daysInYear year

def dayNumber (year month day : Nat) : Nat :=
  daysBeforeYear year + daysBeforeMonth (isLeapYear year) month + day

theorem daysBeforeYear_le {year year' : Nat} (h : year < year') :
    daysBeforeYear (year + 1) ≤ daysBeforeYear year' :=
  monotone_nat_of_le_succ (fun _ => Nat.le_add_right _ _) h

/-- The days of a month are among those of the year. -/
theorem daysBeforeMonth_add_le (leap : Bool) {month day : Nat} (hmonth : 1 ≤ month ∧ month ≤ 12)
    (hday : day ≤ daysInMonth leap month) :
    daysBeforeMonth leap month + day ≤ if leap then 366 else 365 := by
  have hall : ∀ leap, ∀ month : Fin 13,
      daysBeforeMonth leap month + daysInMonth leap month ≤ if leap then 366 else 365 := by decide
  exact (Nat.add_le_add_left hday _).trans (hall leap ⟨month, by omega⟩)

/-- A month ends before a later one begins. -/
theorem daysBeforeMonth_le (leap : Bool) {month month' : Nat} (hmonth' : month' ≤ 12)
    (hmonth : 1 ≤ month) (h : month < month') :
    daysBeforeMonth leap month + daysInMonth leap month ≤ daysBeforeMonth leap month' := by
  have hall : ∀ leap, ∀ month' month : Fin 13, 1 ≤ (month : Nat) → month < month' →
      daysBeforeMonth leap month + daysInMonth leap month ≤ daysBeforeMonth leap month' := by
    decide
  exact hall leap ⟨month', by omega⟩ ⟨month, by omega⟩ hmonth h

/-- A day of the calendar. -/
structure IsDate (year month day : Nat) : Prop where
  inYear : 1 ≤ month ∧ month ≤ 12
  inMonth : 1 ≤ day ∧ day ≤ daysInMonth (isLeapYear year) month

instance (year month day : Nat) : Decidable (IsDate year month day) :=
  decidable_of_iff ((1 ≤ month ∧ month ≤ 12) ∧ 1 ≤ day ∧ day ≤ daysInMonth (isLeapYear year) month)
    ⟨fun h => ⟨h.1, h.2⟩, fun h => ⟨h.inYear, h.inMonth⟩⟩

variable {year month day year' month' day' : Nat}

theorem dayNumber_lt_of_year (h : IsDate year month day) (h' : IsDate year' month' day')
    (hlt : year < year') : dayNumber year month day < dayNumber year' month' day' := by
  have hyear := daysBeforeYear_le hlt
  have hmonth := daysBeforeMonth_add_le (isLeapYear year) h.inYear h.inMonth.2
  have hday := h'.inMonth.1
  rw [daysBeforeYear, daysInYear] at hyear
  rw [dayNumber, dayNumber]
  omega

theorem dayNumber_lt_of_month (h : IsDate year month day) (h' : IsDate year month' day')
    (hlt : month < month') : dayNumber year month day < dayNumber year month' day' := by
  have hmonth := daysBeforeMonth_le (isLeapYear year) h'.inYear.2 h.inYear.1 hlt
  have hday := h.inMonth.2
  have hday' := h'.inMonth.1
  rw [dayNumber, dayNumber]
  omega

end Calendar

section Order

/-- Texts that begin equally long are compared by what they begin with, then by the rest. -/
theorem append_lt_append_iff {a b x y : Text} (h : a.length = b.length) :
    a ++ x < b ++ y ↔ a < b ∨ a = b ∧ x < y := by
  induction a generalizing b with
  | nil =>
      obtain rfl := List.length_eq_zero_iff.mp h.symm
      simp
  | cons c cs ih =>
      cases b with
      | nil => cases h
      | cons d ds =>
          rw [List.cons_append, List.cons_append, List.cons_lt_cons_iff, List.cons_lt_cons_iff,
            ih (Nat.succ.inj h), List.cons.injEq]
          tauto

theorem append_le_append_iff {a b x y : Text} (h : a.length = b.length) :
    a ++ x ≤ b ++ y ↔ a < b ∨ a = b ∧ x ≤ y := by
  rw [← not_lt, append_lt_append_iff h.symm, ← @not_lt Text _ y x]
  rcases lt_trichotomy a b with hlt | rfl | hgt
  · simp [hlt, hlt.not_gt, hlt.ne']
  · simp
  · simp [hgt, hgt.not_gt, hgt.ne']

end Order

/-- The parts of a timestamp, each as it is spelled. -/
structure Spelling where
  year : Text
  month : Text
  day : Text
  separator : Char
  hour : Text
  minute : Text
  second : Text
  /-- The digits behind the point, with none where there is no point. -/
  fraction : Text
  offset : Text
  deriving DecidableEq

/-- The minutes by which an offset is ahead of UTC. -/
def offsetMinutes : Text → Option Int
  | [zulu] => if zulu = 'Z' ∨ zulu = 'z' then some 0 else none
  | [sign, h, h', colon, m, m'] =>
      if colon = ':' ∧ Digits 2 [h, h'] ∧ Digits 2 [m, m'] ∧ numeral [h, h'] ≤ 23 ∧
          numeral [m, m'] ≤ 59 then
        if sign = '+' then some (numeral [h, h'] * 60 + numeral [m, m'])
        else if sign = '-' then some (-(numeral [h, h'] * 60 + numeral [m, m']))
        else none
      else none
  | _ => none

namespace Spelling

def wall (s : Spelling) : Text :=
  s.year ++ '-' :: (s.month ++ '-' :: (s.day ++ s.separator ::
    (s.hour ++ ':' :: (s.minute ++ ':' :: s.second))))

/-- The point and the digits behind it. -/
def point (s : Spelling) : Text := if s.fraction = [] then [] else '.' :: s.fraction

def text (s : Spelling) : Text := s.wall ++ (s.point ++ s.offset)

/-- The parts are those of a timestamp. -/
structure Valid (s : Spelling) : Prop where
  year : Digits 4 s.year
  month : Digits 2 s.month
  day : Digits 2 s.day
  date : IsDate (numeral s.year) (numeral s.month) (numeral s.day)
  separator : s.separator = 'T' ∨ s.separator = 't'
  hour : Digits 2 s.hour ∧ numeral s.hour ≤ 23
  minute : Digits 2 s.minute ∧ numeral s.minute ≤ 59
  second : Digits 2 s.second ∧ numeral s.second ≤ 60
  fraction : ∀ c ∈ s.fraction, c.isDigit = true
  offset : (offsetMinutes s.offset).isSome = true

/-- The minute of UTC that a timestamp is in. -/
def utcMinute (s : Spelling) : Int :=
  dayNumber (numeral s.year) (numeral s.month) (numeral s.day) * 1440 + numeral s.hour * 60 +
    numeral s.minute - (offsetMinutes s.offset).getD 0

/-- The seconds of that minute. -/
def seconds (s : Spelling) : ℚ := numeral s.second + fractional s.fraction

/-- The instant that a timestamp denotes. -/
def instant (s : Spelling) : ℤ ×ₗ ℚ := toLex (s.utcMinute, s.seconds)

/-- The parts of a text at the places of a timestamp's. -/
def ofText (t : Text) : Spelling :=
  let rest := t.drop 19
  let pointed := rest.head? = some '.'
  { year := t.take 4
    month := (t.drop 5).take 2
    day := (t.drop 8).take 2
    separator := (t.drop 10).headD 'T'
    hour := (t.drop 11).take 2
    minute := (t.drop 14).take 2
    second := (t.drop 17).take 2
    fraction := if pointed then rest.tail.takeWhile Char.isDigit else []
    offset := if pointed then rest.tail.dropWhile Char.isDigit else rest }

instance (s : Spelling) : Decidable s.Valid :=
  decidable_of_iff (Digits 4 s.year ∧ Digits 2 s.month ∧ Digits 2 s.day ∧
      IsDate (numeral s.year) (numeral s.month) (numeral s.day) ∧
      (s.separator = 'T' ∨ s.separator = 't') ∧ (Digits 2 s.hour ∧ numeral s.hour ≤ 23) ∧
      (Digits 2 s.minute ∧ numeral s.minute ≤ 59) ∧ (Digits 2 s.second ∧ numeral s.second ≤ 60) ∧
      (∀ c ∈ s.fraction, c.isDigit = true) ∧ (offsetMinutes s.offset).isSome = true)
    ⟨fun ⟨h₁, h₂, h₃, h₄, h₅, h₆, h₇, h₈, h₉, h₁₀⟩ => ⟨h₁, h₂, h₃, h₄, h₅, h₆, h₇, h₈, h₉, h₁₀⟩,
      fun ⟨h₁, h₂, h₃, h₄, h₅, h₆, h₇, h₈, h₉, h₁₀⟩ => ⟨h₁, h₂, h₃, h₄, h₅, h₆, h₇, h₈, h₉, h₁₀⟩⟩

/-- The timestamp that a text spells. -/
def read (t : Text) : Option Spelling :=
  if (ofText t).Valid ∧ (ofText t).text = t then some (ofText t) else none

/-- An offset begins with a letter or a sign. -/
theorem Valid.head_offset {s : Spelling} (h : s.Valid) :
    ∃ c rest, s.offset = c :: rest ∧ c.isDigit = false ∧ c ≠ '.' := by
  have hoffset := h.offset
  unfold offsetMinutes at hoffset
  split at hoffset
  · next zulu heq =>
      rw [heq]
      split at hoffset
      · next hz =>
          obtain rfl | rfl := hz
          · exact ⟨_, _, rfl, by decide, by decide⟩
          · exact ⟨_, _, rfl, by decide, by decide⟩
      · cases hoffset
  · next sign _ _ _ _ _ heq =>
      rw [heq]
      split at hoffset
      · split at hoffset
        · next hsign => exact ⟨_, _, rfl, hsign ▸ by decide, hsign ▸ by decide⟩
        · split at hoffset
          · next hsign => exact ⟨_, _, rfl, hsign ▸ by decide, hsign ▸ by decide⟩
          · cases hoffset
      · cases hoffset
  · cases hoffset

/-- What is behind the seconds is split where the offset begins. -/
theorem Valid.split_point {s : Spelling} (h : s.Valid) :
    let rest := s.point ++ s.offset
    let pointed := rest.head? = some '.'
    (if pointed then rest.tail.takeWhile Char.isDigit else []) = s.fraction ∧
      (if pointed then rest.tail.dropWhile Char.isDigit else rest) = s.offset := by
  obtain ⟨c, tail, hoffset, hdigit, hpoint⟩ := h.head_offset
  intro rest pointed
  by_cases hfraction : s.fraction = []
  · have hrest : rest = c :: tail := by
      simp only [rest, point, hfraction, if_true, List.nil_append, hoffset]
    have hnot : ¬pointed := by
      simp only [pointed, hrest, List.head?_cons, Option.some.injEq]
      exact hpoint
    rw [if_neg hnot, if_neg hnot, hrest, hfraction, hoffset]
    exact ⟨rfl, rfl⟩
  · have hrest : rest = '.' :: (s.fraction ++ c :: tail) := by
      simp only [rest, point, hfraction, if_false, List.cons_append, hoffset]
    have hpointed : pointed := by simp only [pointed, hrest, List.head?_cons]
    rw [if_pos hpointed, if_pos hpointed, hrest, List.tail_cons,
      List.takeWhile_append_of_pos h.fraction, List.dropWhile_append_of_pos h.fraction,
      List.takeWhile_cons_of_neg (by simp [hdigit]), List.dropWhile_cons_of_neg (by simp [hdigit]),
      List.append_nil, hoffset]
    exact ⟨rfl, rfl⟩

/-- Every timestamp is read as it is spelled. -/
theorem read_text {s : Spelling} (h : s.Valid) : read s.text = some s := by
  have hparts : ofText s.text = s := by
    obtain ⟨hfraction, hoffset⟩ := h.split_point
    obtain ⟨a, b, c, d, hyear⟩ := h.year.eq_four
    obtain ⟨m, m', hmonth⟩ := h.month.eq_two
    obtain ⟨n, n', hday⟩ := h.day.eq_two
    obtain ⟨u, u', hhour⟩ := h.hour.1.eq_two
    obtain ⟨v, v', hminute⟩ := h.minute.1.eq_two
    obtain ⟨w, w', hsecond⟩ := h.second.1.eq_two
    have htext : s.text = a :: b :: c :: d :: '-' :: m :: m' :: '-' :: n :: n' ::
        s.separator :: u :: u' :: ':' :: v :: v' :: ':' :: w :: w' :: (s.point ++ s.offset) := by
      rw [text, wall, hyear, hmonth, hday, hhour, hminute, hsecond]
      rfl
    rw [htext, ofText]
    simp only [List.drop_succ_cons, List.drop_zero, List.take_succ_cons, List.take_zero,
      List.headD_cons]
    rw [hfraction, hoffset, ← hyear, ← hmonth, ← hday, ← hhour, ← hminute, ← hsecond]
  rw [read, hparts, if_pos ⟨h, rfl⟩]

theorem of_read {t : Text} {s : Spelling} (h : read t = some s) : s.Valid ∧ s.text = t := by
  rw [read] at h
  split at h
  · next hparts =>
      obtain rfl := Option.some.inj h
      exact hparts
  · cases h

section Compare

variable {a b : Spelling}

/-- Two spellings differ in nothing but digits. -/
def SameForm (a b : Spelling) : Prop := a.separator = b.separator ∧ a.offset = b.offset

/-- One spelling gives the second of another with further digits, not all of them zero. -/
def Refines (a b : Spelling) : Prop :=
  a.wall = b.wall ∧ ∃ more, a.fraction = b.fraction ++ more ∧ ∃ c ∈ more, c ≠ '0'

theorem length_wall (h : a.Valid) : a.wall.length = 19 := by
  rw [wall]
  simp only [List.length_append, List.length_cons, h.year.1, h.month.1, h.day.1, h.hour.1.1,
    h.minute.1.1, h.second.1.1]

/-- One timestamp is of an earlier second than another where one of its parts is less and those
before it are the same. -/
theorem wall_lt_cases (ha : a.Valid) (hb : b.Valid) (hsep : a.separator = b.separator)
    (h : a.wall < b.wall) :
    a.year < b.year ∨ a.year = b.year ∧ (a.month < b.month ∨ a.month = b.month ∧
      (a.day < b.day ∨ a.day = b.day ∧ (a.hour < b.hour ∨ a.hour = b.hour ∧
        (a.minute < b.minute ∨ a.minute = b.minute ∧ a.second < b.second)))) := by
  have hcons : ∀ {c : Char} {x y : Text}, c :: x < c :: y → x < y := fun h =>
    (List.cons_lt_cons_iff.mp h).resolve_left (Char.lt_irrefl _) |>.2
  rw [wall, wall, hsep, append_lt_append_iff (ha.year.1.trans hb.year.1.symm)] at h
  refine h.imp_right fun ⟨hyear, h⟩ => ⟨hyear, ?_⟩
  replace h := (append_lt_append_iff (ha.month.1.trans hb.month.1.symm)).mp (hcons h)
  refine h.imp_right fun ⟨hmonth, h⟩ => ⟨hmonth, ?_⟩
  replace h := (append_lt_append_iff (ha.day.1.trans hb.day.1.symm)).mp (hcons h)
  refine h.imp_right fun ⟨hday, h⟩ => ⟨hday, ?_⟩
  replace h := (append_lt_append_iff (ha.hour.1.1.trans hb.hour.1.1.symm)).mp (hcons h)
  refine h.imp_right fun ⟨hhour, h⟩ => ⟨hhour, ?_⟩
  replace h := (append_lt_append_iff (ha.minute.1.1.trans hb.minute.1.1.symm)).mp (hcons h)
  exact h.imp_right fun ⟨hminute, h⟩ => ⟨hminute, hcons h⟩

theorem instant_lt_of_utcMinute_lt (h : a.utcMinute < b.utcMinute) : a.instant < b.instant :=
  Prod.Lex.toLex_lt_toLex.mpr (.inl h)

/-- Timestamps of one form are in the order of their seconds. -/
theorem instant_lt_of_wall_lt (ha : a.Valid) (hb : b.Valid) (hform : SameForm a b)
    (h : a.wall < b.wall) : a.instant < b.instant := by
  have hdate := ha.date
  have hdate' := hb.date
  have hhour := ha.hour.2
  have hminute := ha.minute.2
  obtain hyear | ⟨hyear, hmonth | ⟨hmonth, hday | ⟨hday, hlt | ⟨heq, hlt | ⟨heq', hlt⟩⟩⟩⟩⟩ :=
    wall_lt_cases ha hb hform.1 h
  · have hdays := dayNumber_lt_of_year hdate hdate' (numeral_lt_numeral ha.year hb.year hyear)
    apply instant_lt_of_utcMinute_lt
    rw [utcMinute, utcMinute, hform.2]
    omega
  · rw [← hyear] at hdate'
    have hdays := dayNumber_lt_of_month hdate hdate'
      (numeral_lt_numeral ha.month hb.month hmonth)
    apply instant_lt_of_utcMinute_lt
    rw [utcMinute, utcMinute, hform.2, ← hyear]
    omega
  · have hdays := numeral_lt_numeral ha.day hb.day hday
    apply instant_lt_of_utcMinute_lt
    rw [utcMinute, utcMinute, hform.2, ← hyear, ← hmonth, dayNumber, dayNumber]
    omega
  · have hhours := numeral_lt_numeral ha.hour.1 hb.hour.1 hlt
    apply instant_lt_of_utcMinute_lt
    rw [utcMinute, utcMinute, hform.2, ← hyear, ← hmonth, ← hday]
    omega
  · have hminutes := numeral_lt_numeral ha.minute.1 hb.minute.1 hlt
    apply instant_lt_of_utcMinute_lt
    rw [utcMinute, utcMinute, hform.2, ← hyear, ← hmonth, ← hday, ← heq]
    omega
  · have hsecond : (numeral a.second : ℚ) + 1 ≤ numeral b.second := by
      exact_mod_cast numeral_lt_numeral ha.second.1 hb.second.1 hlt
    have hlow := fractional_lt_one ha.fraction
    have hhigh := fractional_nonneg b.fraction
    refine Prod.Lex.toLex_lt_toLex.mpr (.inr ⟨?_, ?_⟩)
    · rw [utcMinute, utcMinute, hform.2, hyear, hmonth, hday, heq, heq']
    · simp only [seconds]
      linarith

/-- Timestamps of one second have the same minute of UTC and the same second of it. -/
theorem utc_of_wall_eq (ha : a.Valid) (hb : b.Valid) (hoffset : a.offset = b.offset)
    (h : a.wall = b.wall) : a.utcMinute = b.utcMinute ∧ numeral a.second = numeral b.second := by
  rw [wall, wall] at h
  obtain ⟨hyear, h⟩ := List.append_inj h (ha.year.1.trans hb.year.1.symm)
  obtain ⟨hmonth, h⟩ := List.append_inj (List.cons.inj h).2 (ha.month.1.trans hb.month.1.symm)
  obtain ⟨hday, h⟩ := List.append_inj (List.cons.inj h).2 (ha.day.1.trans hb.day.1.symm)
  obtain ⟨hhour, h⟩ := List.append_inj (List.cons.inj h).2 (ha.hour.1.1.trans hb.hour.1.1.symm)
  obtain ⟨hminute, h⟩ :=
    List.append_inj (List.cons.inj h).2 (ha.minute.1.1.trans hb.minute.1.1.symm)
  constructor
  · rw [utcMinute, utcMinute, hyear, hmonth, hday, hhour, hminute, hoffset]
  · rw [(List.cons.inj h).2]

/-- Of two timestamps of one second, that which sorts first has the lesser fraction or gives
further digits. -/
theorem fractional_of_point_le (ha : a.Valid) (hb : b.Valid) {rest : Text}
    (h : a.point ++ rest ≤ b.point ++ rest) :
    fractional a.fraction ≤ fractional b.fraction ∨ ∃ more, a.fraction = b.fraction ++ more := by
  rw [point, point] at h
  by_cases hnone : a.fraction = []
  · rw [hnone]
    exact .inl (fractional_nonneg _)
  · by_cases hnone' : b.fraction = []
    · exact .inr ⟨a.fraction, by rw [hnone', List.nil_append]⟩
    · rw [if_neg hnone, if_neg hnone', List.cons_append, List.cons_append, ← not_lt,
        List.cons_lt_cons_iff, not_or] at h
      exact fractional_le_of_append_le ha.fraction hb.fraction
        (not_lt.mp fun hlt => h.2 ⟨rfl, hlt⟩)

/-- Timestamps of one form are in order unless the one that sorts first refines the other. -/
theorem instant_le_iff (ha : a.Valid) (hb : b.Valid) (hform : SameForm a b)
    (h : a.text ≤ b.text) : a.instant ≤ b.instant ↔ ¬Refines a b := by
  rw [text, text, hform.2,
    append_le_append_iff ((length_wall ha).trans (length_wall hb).symm)] at h
  obtain hlt | ⟨hwall, htail⟩ := h
  · exact iff_of_true (instant_lt_of_wall_lt ha hb hform hlt).le fun href => hlt.ne href.1
  · obtain ⟨hminute, hsecond⟩ := utc_of_wall_eq ha hb hform.2 hwall
    have hinstant : a.instant ≤ b.instant ↔ fractional a.fraction ≤ fractional b.fraction := by
      rw [instant, instant, Prod.Lex.toLex_le_toLex, hminute, seconds, seconds, hsecond,
        add_le_add_iff_left]
      simp
    have hrefines : ∀ more, a.fraction = b.fraction ++ more →
        ((∃ c ∈ more, c ≠ '0') ↔ fractional b.fraction < fractional a.fraction) := by
      intro more hmore
      have hdigits : ∀ c ∈ more, c.isDigit = true := fun c hc =>
        ha.fraction c (hmore ▸ List.mem_append_right _ hc)
      rw [hmore, fractional_lt_append hdigits]
    rw [hinstant, ← not_lt, not_iff_not]
    constructor
    · intro hgt
      obtain hle | ⟨more, hmore⟩ := fractional_of_point_le ha hb htail
      · exact absurd hgt (not_lt.mpr hle)
      · exact ⟨hwall, more, hmore, (hrefines more hmore).mpr hgt⟩
    · rintro ⟨-, more, hmore, hnonzero⟩
      exact (hrefines more hmore).mp hnonzero

end Compare

end Spelling

end Genaryx.Base
