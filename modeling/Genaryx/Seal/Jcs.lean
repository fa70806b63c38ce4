import Genaryx.Base.Items
import Genaryx.Json.Write
import Mathlib.Data.List.Sort

/-!
# The canonical form

RFC 8785 for the JSON of a case pack: no whitespace, members sorted by the UTF-16 code units
of their names, strings as `JSON.stringify` escapes them and numbers as ECMAScript writes
them. An integer past `±(2^53 - 1)` is refused.

## Implementation notes

`format!("{:e}")` of a nonzero double is `Json.Scientific` written out. The members of an
object are written before they are sorted, which changes no text and no error.
-/

namespace Genaryx.Seal

open Json

variable {F : Type}

/-- The largest integer a double holds exactly, and so the largest this writes. -/
def maxExactInt : Nat := 9007199254740991

/-- Why a value has no canonical form. -/
inductive JcsError
  | integerNotExact
  deriving DecidableEq

/-- A string as `JSON.stringify` writes it, which is how `serde_json` writes it too. -/
def writeString (s : Text) : Text := quote s

/-- An integer as `to_string` writes it. -/
def intText (i : Int) : Text :=
  if i < 0 then '-' :: Text.decimal i.natAbs else Text.decimal i.natAbs

/-- `format!("{:e}")` of a nonzero double without its sign. -/
def lowerExp (s : Scientific) : Text :=
  (match s.digits with
    | [] => []
    | [d] => [d]
    | d :: ds => d :: '.' :: ds) ++ 'e' :: intText s.exponent

/-- `str::parse::<i32>`. -/
def parseI32 (t : Text) : Option Int :=
  let negative : Bool := t.head? = some '-'
  let digits := if negative || t.head? = some '+' then t.tail else t
  let i := signed negative (digitsValue digits)
  if IsDigits digits ∧ -(2 ^ 31) ≤ i ∧ i < 2 ^ 31 then some i else none

variable (D : Double F)

/-- The digits with the point where ECMAScript puts it: `n` is the power of ten of the
first digit plus one. -/
def es6Body (digits : Text) (n : Int) : Text :=
  let k : Int := digits.length
  if k ≤ n ∧ n ≤ 21 then digits ++ List.replicate (n - k).toNat '0'
  else if 0 < n ∧ n ≤ 21 then digits.take n.toNat ++ '.' :: digits.drop n.toNat
  else if -6 < n ∧ n ≤ 0 then '0' :: '.' :: (List.replicate (-n).toNat '0' ++ digits)
  else
    let e := n - 1
    let exponent := 'e' :: (if e < 0 then '-' else '+') :: Text.decimal e.natAbs
    if k = 1 then digits ++ exponent
    else digits.take 1 ++ '.' :: (digits.drop 1 ++ exponent)

/-- ECMAScript's `Number::toString` for a finite double. -/
def es6Number (x : F) : Text :=
  if D.isZero x then ['0']
  else
    let sign : Text := if D.isNegative x then ['-'] else []
    let scientific := lowerExp (D.shortest x)
    let parts := (Text.splitOnce 'e' scientific).getD (scientific, ['0'])
    let digits := parts.1.filter fun c => c ≠ '.'
    let n := (parseI32 parts.2).getD 0 + 1
    sign ++ es6Body digits n

/-- `Number::as_i64`. -/
def asI64 : Number F → Option Int
  | .posInt n _ => if n < 2 ^ 63 then some n else none
  | .negInt m _ => some (-(m : Int))
  | .float _ => none

/-- `Number::as_u64`. -/
def asU64 : Number F → Option Nat
  | .posInt n _ => some n
  | _ => none

def number (n : Number F) : Except JcsError Text :=
  match asI64 n with
  | some i => if i.natAbs ≤ maxExactInt then .ok (intText i) else .error .integerNotExact
  | none =>
      match asU64 n with
      | some u => if u ≤ maxExactInt then .ok (Text.decimal u) else .error .integerNotExact
      | none =>
          match n with
          | .float x => .ok (es6Number D x)
          | _ => .ok ['0']

/-- The UTF-16 code units of a text. -/
def utf16 (t : Text) : List Nat :=
  t.flatMap fun c =>
    let v := c.toNat
    if v < 0x10000 then [v]
    else [0xD800 + (v - 0x10000) / 1024, 0xDC00 + (v - 0x10000) % 1024]

/-- The order of two members by the UTF-16 code units of their names. -/
def utf16Le (a b : Text × Text) : Prop := utf16 a.1 ≤ utf16 b.1

instance : DecidableRel utf16Le := fun a b => inferInstanceAs (Decidable (utf16 a.1 ≤ utf16 b.1))

mutual

def writeValue : Value F → Except JcsError Text
  | .null => .ok "null"
  | .bool true => .ok "true"
  | .bool false => .ok "false"
  | .number n => number D n
  | .string s => .ok (writeString s)
  | .array items => (writeItems items).map fun ts => '[' :: commaSep ts ++ [']']
  | .object members =>
      (writeMembers members).map fun ms =>
        '{' :: commaSep ((ms.insertionSort utf16Le).map fun m => writeString m.1 ++ ':' :: m.2) ++
          ['}']

def writeItems : List (Value F) → Except JcsError (List Text)
  | [] => .ok []
  | v :: vs => (writeValue v).bind fun t => (writeItems vs).map fun ts => t :: ts

/-- Every member's value written, next to its name. -/
def writeMembers : List (Text × Value F) → Except JcsError (List (Text × Text))
  | [] => .ok []
  | m :: ms => (writeValue m.2).bind fun t => (writeMembers ms).map fun ts => (m.1, t) :: ts

end

/-- The canonical text of a value. -/
def canonical (v : Value F) : Except JcsError Text := writeValue D v

section Written

variable {D}

theorem writeItems_cons_eq_ok {v : Value F} {vs : List (Value F)} {ts : List Text} :
    writeItems D (v :: vs) = .ok ts ↔
      ∃ t us, writeValue D v = .ok t ∧ writeItems D vs = .ok us ∧ ts = t :: us :=
  Base.bind_map_eq_ok_iff

theorem writeMembers_cons_eq_ok {m : Text × Value F} {ms : List (Text × Value F)}
    {ps : List (Text × Text)} :
    writeMembers D (m :: ms) = .ok ps ↔
      ∃ t qs, writeValue D m.2 = .ok t ∧ writeMembers D ms = .ok qs ∧ ps = (m.1, t) :: qs :=
  Base.bind_map_eq_ok_iff

/-- What an array is written as, by its items. -/
theorem writeValue_array_eq_ok {items : List (Value F)} {t : Text} :
    writeValue D (.array items) = .ok t ↔
      ∃ ts, writeItems D items = .ok ts ∧ t = '[' :: commaSep ts ++ [']'] :=
  Base.map_eq_ok_iff

/-- The text of an object with these members. -/
def objectText (ps : List (Text × Text)) : Text :=
  '{' :: commaSep ((ps.insertionSort utf16Le).map fun m => writeString m.1 ++ ':' :: m.2) ++ ['}']

/-- What an object is written as, by its members. -/
theorem writeValue_object_eq_ok {members : List (Text × Value F)} {t : Text} :
    writeValue D (.object members) = .ok t ↔
      ∃ ps, writeMembers D members = .ok ps ∧ t = objectText ps :=
  Base.map_eq_ok_iff

end Written

end Genaryx.Seal
