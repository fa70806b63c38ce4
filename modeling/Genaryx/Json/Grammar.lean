import Genaryx.Json.Value

/-!
# What a compact JSON text denotes

The grammar of JSON texts without whitespace, with number literals as ECMAScript writes
them. A literal without a fraction or an exponent that fits `u64` or `i64` denotes an
integer, any other one the double that `ofDecimal` reads it as.
-/

namespace Genaryx.Json

variable {F : Type}

/-- How a reader makes a double of a sign, digits and an exponent of ten, if one is in
range. -/
abbrev OfDecimal (F : Type) := Bool → Nat → Int → Option F

/-- The number that digits write. -/
def digitsValue (digits : Text) : Nat := Nat.ofDigitChars 10 digits 0

/-- A nonempty text of digits. -/
def IsDigits (digits : Text) : Prop := digits ≠ [] ∧ ∀ c ∈ digits, c.isDigit = true

instance (digits : Text) : Decidable (IsDigits digits) :=
  @instDecidableAnd _ _ _ (List.decidableBAll (fun c : Char => c.isDigit = true) digits)

/-- Digits without a leading zero. -/
def IsWhole (digits : Text) : Prop := IsDigits digits ∧ (digits.head? = some '0' → digits = ['0'])

instance (digits : Text) : Decidable (IsWhole digits) := by unfold IsWhole; infer_instance

/-- A number literal: a sign, digits, maybe a fraction and maybe a signed exponent. -/
structure Literal where
  negative : Bool
  whole : Text
  fraction : Option Text := none
  exponent : Option (Bool × Text) := none
  whole_digits : IsWhole whole
  fraction_digits : ∀ digits, fraction = some digits → IsDigits digits
  exponent_digits : ∀ e, exponent = some e → IsDigits e.2

namespace Literal

def fractionText : Option Text → Text
  | none => []
  | some digits => '.' :: digits

def exponentText : Option (Bool × Text) → Text
  | none => []
  | some e => 'e' :: (if e.1 then '-' else '+') :: e.2

/-- The text of a literal. -/
def text (l : Literal) : Text :=
  (if l.negative then ['-'] else []) ++
    (l.whole ++ (fractionText l.fraction ++ exponentText l.exponent))

end Literal

def signed (negative : Bool) (n : Nat) : Int := if negative then -(n : Int) else n

/-- The number that a literal without a fraction or an exponent denotes. -/
def integerNumber (ofDecimal : OfDecimal F) (negative : Bool) (n : Nat) : Option (Number F) :=
  if negative then
    if h : 0 < n ∧ n ≤ 2 ^ 63 then some (.negInt n h)
    else (ofDecimal true n 0).map .float
  else if h : n < 2 ^ 64 then some (.posInt n h)
  else (ofDecimal false n 0).map .float

/-- The number that the parts of a literal denote. -/
def literalNumber (ofDecimal : OfDecimal F) (negative : Bool) (whole : Text)
    (fraction : Option Text) (exponent : Option (Bool × Text)) : Option (Number F) :=
  match fraction, exponent with
  | none, none => integerNumber ofDecimal negative (digitsValue whole)
  | _, _ =>
      let scale := (exponent.map fun e => signed e.1 (digitsValue e.2)).getD 0
      let digits := fraction.getD []
      (ofDecimal negative (digitsValue (whole ++ digits)) (scale - digits.length)).map .float

def Literal.number (ofDecimal : OfDecimal F) (l : Literal) : Option (Number F) :=
  literalNumber ofDecimal l.negative l.whole l.fraction l.exponent

/-- The escapes of one character after a backslash. -/
def shortEscapes : List (Char × Char) :=
  [('"', '"'), ('\\', '\\'), ('/', '/'), ('b', '\x08'), ('f', '\x0c'), ('n', '\n'),
    ('r', '\r'), ('t', '\t')]

/-- The value of a hexadecimal digit. -/
def hexValue (c : Char) : Option Nat :=
  if '0' ≤ c ∧ c ≤ '9' then some (c.toNat - 48)
  else if 'a' ≤ c ∧ c ≤ 'f' then some (c.toNat - 87)
  else if 'A' ≤ c ∧ c ≤ 'F' then some (c.toNat - 55)
  else none

/-- The character that four hexadecimal digits name, unless it is half of a pair. -/
def hexChar (a b c d : Char) : Option Char := do
  let n := (← hexValue a) * 4096 + (← hexValue b) * 256 + (← hexValue c) * 16 + (← hexValue d)
  if 0xD800 ≤ n ∧ n ≤ 0xDFFF then none else some (Char.ofNat n)

/-- What one character of a string is written as. -/
inductive DenotesChar : Text → Char → Prop
  | plain (c : Char) (hlow : 0x20 ≤ c.toNat) (hquote : c ≠ '"') (hslash : c ≠ '\\') :
      DenotesChar [c] c
  | short (e c : Char) (h : (e, c) ∈ shortEscapes) : DenotesChar ['\\', e] c
  | unicode (a b c d ch : Char) (h : hexChar a b c d = some ch) :
      DenotesChar ['\\', 'u', a, b, c, d] ch

/-- What a string is written as between its quotes. -/
inductive DenotesText : Text → Text → Prop
  | nil : DenotesText [] []
  | cons {raw rest : Text} {c : Char} {cs : Text} (hc : DenotesChar raw c)
      (hcs : DenotesText rest cs) : DenotesText (raw ++ rest) (c :: cs)

/-- Texts with commas between them. -/
def commaSep : List Text → Text
  | [] => []
  | [t] => t
  | t :: ts => t ++ ',' :: commaSep ts

/-- One member of an object as it is written and as it is meant. -/
structure Member (F : Type) where
  rawKey : Text
  key : Text
  raw : Text
  value : Value F

def Member.text (m : Member F) : Text := '"' :: m.rawKey ++ '"' :: ':' :: m.raw

/-- What a compact JSON text denotes. -/
inductive Denotes (ofDecimal : OfDecimal F) : Text → Value F → Prop
  | null : Denotes ofDecimal "null" .null
  | true : Denotes ofDecimal "true" (.bool true)
  | false : Denotes ofDecimal "false" (.bool false)
  | number (l : Literal) (n : Number F) (h : l.number ofDecimal = some n) :
      Denotes ofDecimal l.text (.number n)
  | string {raw s : Text} (h : DenotesText raw s) :
      Denotes ofDecimal ('"' :: raw ++ ['"']) (.string s)
  | array (items : List (Text × Value F)) (h : ∀ i ∈ items, Denotes ofDecimal i.1 i.2) :
      Denotes ofDecimal ('[' :: commaSep (items.map Prod.fst) ++ [']'])
        (.array (items.map Prod.snd))
  | object (members : List (Member F)) (hkeys : ∀ m ∈ members, DenotesText m.rawKey m.key)
      (h : ∀ m ∈ members, Denotes ofDecimal m.raw m.value) :
      Denotes ofDecimal ('{' :: commaSep (members.map Member.text) ++ ['}'])
        (.object (ofMembers (members.map fun m => (m.key, m.value))))

/-- No character of the text is a control character. -/
def Visible (t : Text) : Prop := ∀ c ∈ t, 0x20 ≤ c.toNat

instance (t : Text) : Decidable (Visible t) :=
  List.decidableBAll (fun c : Char => 0x20 ≤ c.toNat) t

theorem Visible.append {s t : Text} (hs : Visible s) (ht : Visible t) : Visible (s ++ t) :=
  fun c hc => (List.mem_append.mp hc).elim (hs c) (ht c)

theorem Visible.cons {c : Char} {t : Text} (hc : 0x20 ≤ c.toNat) (ht : Visible t) :
    Visible (c :: t) :=
  List.forall_mem_cons.mpr ⟨hc, ht⟩

theorem visible_nil : Visible [] := fun _ hc => absurd hc List.not_mem_nil

theorem IsDigits.visible {digits : Text} (h : IsDigits digits) : Visible digits := by
  intro c hc
  have hdigit := h.2 c hc
  simp only [Char.isDigit, ge_iff_le, Bool.and_eq_true, decide_eq_true_eq] at hdigit
  exact le_trans (by decide) hdigit.1

theorem Literal.visible_text (l : Literal) : Visible l.text := by
  have hfraction : Visible (fractionText l.fraction) := by
    cases h : l.fraction with
    | none => exact visible_nil
    | some digits => exact (l.fraction_digits digits h).visible.cons (by decide)
  have hexponent : Visible (exponentText l.exponent) := by
    cases h : l.exponent with
    | none => exact visible_nil
    | some e =>
        refine ((l.exponent_digits e h).visible.cons ?_).cons (by decide)
        cases e.1 <;> decide
  refine Visible.append ?_ (l.whole_digits.1.visible.append (hfraction.append hexponent))
  cases l.negative
  · exact visible_nil
  · exact visible_nil.cons (by decide)

theorem visible_of_hexValue {c : Char} {n : Nat} (h : hexValue c = some n) :
    0x20 ≤ c.toNat := by
  by_contra hlow
  have hcode : ∀ d : Char, 0x20 ≤ d.toNat → ¬ d ≤ c := fun d hd hle =>
    hlow (le_trans hd (Char.le_def.mp hle))
  rw [hexValue, if_neg fun hc => hcode '0' (by decide) hc.1,
    if_neg fun hc => hcode 'a' (by decide) hc.1,
    if_neg fun hc => hcode 'A' (by decide) hc.1] at h
  cases h

theorem DenotesChar.visible {raw : Text} {c : Char} (h : DenotesChar raw c) : Visible raw := by
  cases h with
  | plain c hlow => exact visible_nil.cons hlow
  | short e c h =>
      have hshort : ∀ p ∈ shortEscapes, 0x20 ≤ p.1.toNat := by decide
      exact (visible_nil.cons (hshort _ h)).cons (by decide)
  | unicode a b c d ch h =>
      simp only [hexChar, Option.bind_eq_bind, Option.bind_eq_some_iff] at h
      obtain ⟨na, ha, nb, hb, nc, hc, nd, hd, -⟩ := h
      exact (((((visible_nil.cons (visible_of_hexValue hd)).cons
        (visible_of_hexValue hc)).cons (visible_of_hexValue hb)).cons
          (visible_of_hexValue ha)).cons (by decide)).cons (by decide)

theorem DenotesText.visible {raw s : Text} (h : DenotesText raw s) : Visible raw := by
  induction h with
  | nil => exact visible_nil
  | cons hc _ ih => exact hc.visible.append ih

theorem visible_commaSep {ts : List Text} (h : ∀ t ∈ ts, Visible t) : Visible (commaSep ts) := by
  induction ts with
  | nil => exact visible_nil
  | cons t ts ih =>
      obtain ⟨ht, hts⟩ := List.forall_mem_cons.mp h
      cases ts with
      | nil => exact ht
      | cons u us => exact ht.append ((ih hts).cons (by decide))

/-- A compact JSON text is one line. -/
theorem Denotes.visible {ofDecimal : OfDecimal F} {t : Text} {v : Value F}
    (h : Denotes ofDecimal t v) : Visible t := by
  induction h with
  | null => decide
  | true => decide
  | false => decide
  | number l n h => exact l.visible_text
  | string h => exact (h.visible.append (visible_nil.cons (by decide))).cons (by decide)
  | array items _ ih =>
      refine (Visible.append ?_ (visible_nil.cons (by decide))).cons (by decide)
      refine visible_commaSep fun t ht => ?_
      obtain ⟨i, hi, rfl⟩ := List.mem_map.mp ht
      exact ih i hi
  | object members hkeys _ ih =>
      refine (Visible.append ?_ (visible_nil.cons (by decide))).cons (by decide)
      refine visible_commaSep fun t ht => ?_
      obtain ⟨m, hm, rfl⟩ := List.mem_map.mp ht
      exact ((hkeys m hm).visible.append (((ih m hm).cons (by decide)).cons (by decide))).cons
        (by decide)

/-- The text of an object starts with its brace. -/
theorem Denotes.brace_mem {ofDecimal : OfDecimal F} {t : Text} {ms : List (Text × Value F)}
    (h : Denotes ofDecimal t (.object ms)) : '{' ∈ t := by
  cases h with
  | object => exact List.mem_cons_self

/-- How deep `serde_json` reads arrays and objects nested in each other. -/
def recursionLimit : Nat := 127

/-- A function that reads compact texts as what they denote, up to a nesting limit. -/
structure Reader (ofDecimal : OfDecimal F) (limit : Nat) where
  fromStr : Text → Option (Value F)
  fromStr_of_denotes : ∀ {t v}, Denotes ofDecimal t v →
    fromStr t = if v.depth ≤ limit then some v else none

end Genaryx.Json
