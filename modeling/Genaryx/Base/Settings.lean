import Genaryx.Json.Display

/-!
# Names and constants

What configuration languages have in common: names that are identifiers of ASCII, set to texts,
numbers and truth values.
-/

namespace Genaryx.Settings

open Json

variable {F : Type}

/-- A text with a backslash before each quote and each backslash. -/
def backslashed (t : Text) : Text :=
  t.flatMap fun c => if c = '\\' ∨ c = '"' then ['\\', c] else [c]

/-- A text in quotes. -/
def quote (t : Text) : Text := '"' :: (backslashed t ++ ['"'])

theorem backslashed_cons_special {c : Char} (h : c = '\\' ∨ c = '"') (t : Text) :
    backslashed (c :: t) = '\\' :: c :: backslashed t := by
  rw [backslashed, List.flatMap_cons, if_pos h]
  rfl

theorem backslashed_cons {c : Char} (h : ¬ (c = '\\' ∨ c = '"')) (t : Text) :
    backslashed (c :: t) = c :: backslashed t := by
  rw [backslashed, List.flatMap_cons, if_neg h]
  rfl

theorem backslashed_append (s t : Text) : backslashed (s ++ t) = backslashed s ++ backslashed t :=
  List.flatMap_append

/-- What a name is set to. -/
inductive Value (F : Type)
  | text (t : Text)
  | number (x : F)
  | bool (b : Bool)
  deriving DecidableEq

/-- A character of an identifier of ASCII. -/
def wordChar (c : Char) : Bool := c.isAlphanum || c = '_' || c = '-'

/-- An identifier of ASCII. -/
structure Word where
  text : Text
  head_alpha : text.head?.any Char.isAlpha = true
  wordChar : ∀ c ∈ text, wordChar c = true

/-- A word begins with a letter. -/
theorem Word.exists_cons (w : Word) : ∃ c cs, w.text = c :: cs ∧ c.isAlpha = true := by
  obtain ⟨text, hhead, -⟩ := w
  cases text with
  | nil => cases hhead
  | cons c cs => exact ⟨c, cs, rfl, hhead⟩

theorem Word.notMem (w : Word) {c : Char} (hc : Settings.wordChar c = false) : c ∉ w.text :=
  fun h => Bool.false_ne_true (hc.symm.trans (w.wordChar c h))

theorem not_isAlpha_of_isDigit {c : Char} (h : c.isDigit = true) : c.isAlpha = false := by
  obtain ⟨hlt, hc⟩ := digitChar_toNat_sub h
  have hall : ∀ k : Fin 10, (Nat.digitChar k).isAlpha = false := by decide
  rw [← hc]
  exact hall ⟨_, hlt⟩

/-- A number or a truth value, as it is written. -/
inductive Constant (D : Double F)
  | number (p : Positional) (x : F) (whole : IsWhole p.whole) (h : p.value D = some x)
  | bool (b : Bool)

variable {D : Double F}

namespace Constant

def text : Constant D → Text
  | number p _ _ _ => p.text
  | bool b => if b then "true".toList else "false".toList

def value : Constant D → Value F
  | number _ x _ _ => .number x
  | bool b => .bool b

end Constant

/-- Read a number or a truth value. -/
def readConstant (D : Double F) (t : Text) : Option (Value F) :=
  if t = "true".toList then some (.bool true)
  else if t = "false".toList then some (.bool false)
  else
    (Positional.ofText t).bind fun p =>
      if IsWhole p.whole then (p.value D).map .number else none

/-- A constant begins with a digit or a letter. -/
theorem Constant.exists_cons (c : Constant D) :
    ∃ d ds, c.text = d :: ds ∧ (d.isDigit = true ∨ d.isAlpha = true) := by
  cases c with
  | bool b => cases b <;> exact ⟨_, _, rfl, Or.inr rfl⟩
  | number p x _ _ =>
      obtain ⟨whole, fraction, hwhole, _⟩ := p
      obtain ⟨d, ds, rfl⟩ := List.exists_cons_of_ne_nil hwhole.1
      have hd : d.isDigit = true ∨ d.isAlpha = true := Or.inl (hwhole.2 d List.mem_cons_self)
      cases fraction with
      | none => exact ⟨d, ds, rfl, hd⟩
      | some digits => exact ⟨d, _, rfl, hd⟩

/-- A constant is written in letters, digits and dots. -/
theorem Constant.mem_text {c : Constant D} {d : Char} (h : d ∈ c.text) :
    d.isAlphanum = true ∨ d = '.' := by
  cases c with
  | bool b =>
      have hfalse : ∀ d ∈ "false".toList, d.isAlphanum = true := by decide
      have htrue : ∀ d ∈ "true".toList, d.isAlphanum = true := by decide
      cases b
      · exact Or.inl (hfalse d h)
      · exact Or.inl (htrue d h)
  | number p x _ _ =>
      refine (Positional.mem_text h).imp_left fun hdigit => ?_
      rw [Char.isAlphanum, hdigit, Bool.or_true]

/-- A constant is read back. -/
theorem readConstant_text (c : Constant D) : readConstant D c.text = some c.value := by
  cases c with
  | bool b => cases b <;> rfl
  | number p x hwhole h =>
      have hletter : ∀ d ∈ p.text, d.isAlpha = false := fun d hd => by
        rcases Positional.mem_text hd with hdigit | rfl
        · exact not_isAlpha_of_isDigit hdigit
        · rfl
      have htrue : p.text ≠ "true".toList := fun htext =>
        absurd (hletter 't' (htext ▸ List.mem_cons_self)) (by decide)
      have hfalse : p.text ≠ "false".toList := fun htext =>
        absurd (hletter 'f' (htext ▸ List.mem_cons_self)) (by decide)
      rw [Constant.text, readConstant, if_neg htrue, if_neg hfalse, Positional.ofText_text,
        Option.bind_some, if_pos hwhole, h]
      rfl

/-- A positive double as it is displayed. -/
def Constant.ofPositive (x : F) (hzero : D.isZero x = false) (hsign : D.isNegative x = false) :
    Constant D :=
  .number (D.shortest x).positional x (D.shortest x).isWhole_positional
    (value_positional D hzero hsign)

end Genaryx.Settings
