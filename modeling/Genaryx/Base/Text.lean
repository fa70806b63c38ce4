import Mathlib.Algebra.Group.Int.Defs
import Mathlib.Algebra.Group.Nat.Defs
import Mathlib.Data.List.Basic
import Mathlib.Data.List.Infix
import Mathlib.Logic.Function.Basic

/-!
# Texts as lists of characters

A text is the list of its Unicode scalar values, which is what a Rust `str` holds. The
string operations of the standard library that the program uses are stated here once.
-/

namespace Genaryx

/-- A Rust `str` or `String`: the Unicode scalar values it holds, in order. -/
abbrev Text := List Char

instance : Coe String Text := ⟨String.toList⟩

/-- Whether a text is in a list is decided by comparing texts. -/
instance : LawfulBEq Text := List.instLawfulBEq

/-- What holds of every character of a text is decided along the text, and not by a search of
all characters. -/
instance (priority := 2000) decidableForallMem (p : Char → Prop) [DecidablePred p] (t : Text) :
    Decidable (∀ c : Char, c ∈ t → p c) :=
  List.decidableBAll p t

namespace Text

section Literals

variable {l : List Char}

/-- What holds of all characters of a literal holds of its text, whose bytes need no decoding. -/
theorem forall_mem_literal {p : Char → Prop} (h : ∀ c ∈ l, p c) :
    ∀ c ∈ (String.ofList l).toList, p c := by
  rwa [String.toList_ofList]

theorem head?_literal : (String.ofList l).toList.head? = l.head? := by
  rw [String.toList_ofList]

theorem notMem_literal {c : Char} (h : c ∉ l) : c ∉ (String.ofList l).toList := by
  rwa [String.toList_ofList]

end Literals

/-- `char::is_ascii_alphanumeric`. -/
def isAsciiAlphanumeric (c : Char) : Bool :=
  ('0' ≤ c && c ≤ '9') || ('a' ≤ c && c ≤ 'z') || ('A' ≤ c && c ≤ 'Z')

/-- `char::is_whitespace`: the Unicode property White_Space. -/
def isWhitespace (c : Char) : Bool :=
  let v := c.toNat
  (0x09 ≤ v && v ≤ 0x0D) || v = 0x20 || v = 0x85 || v = 0xA0 || v = 0x1680 ||
    (0x2000 ≤ v && v ≤ 0x200A) || v = 0x2028 || v = 0x2029 || v = 0x202F || v = 0x205F ||
    v = 0x3000

/-- `char::is_control`: the Unicode category Cc. -/
def isControl (c : Char) : Bool :=
  let v := c.toNat
  v < 0x20 || (0x7F ≤ v && v < 0xA0)

/-- `str::trim`. -/
def trim (t : Text) : Text := (t.dropWhile isWhitespace).reverse.dropWhile isWhitespace |>.reverse

/-- `str::strip_prefix`. -/
def stripPrefix : Text → Text → Option Text
  | [], s => some s
  | _ :: _, [] => none
  | p :: ps, c :: cs => if p = c then stripPrefix ps cs else none

theorem stripPrefix_eq_some_iff (p s r : Text) : stripPrefix p s = some r ↔ s = p ++ r := by
  induction p generalizing s with
  | nil => simp [stripPrefix, eq_comm]
  | cons a p ih =>
      cases s with
      | nil => simp [stripPrefix]
      | cons c s =>
          by_cases h : a = c
          · simp [stripPrefix, h, ih]
          · simp [stripPrefix, h, Ne.symm h]

theorem stripPrefix_append (p r : Text) : stripPrefix p (p ++ r) = some r :=
  (stripPrefix_eq_some_iff p (p ++ r) r).mpr rfl

theorem stripPrefix_eq_none_iff {p s : Text} : stripPrefix p s = none ↔ ¬ p <+: s := by
  rw [Option.eq_none_iff_forall_ne_some, List.IsPrefix, not_exists]
  exact forall_congr' fun r => not_congr ((stripPrefix_eq_some_iff p s r).trans eq_comm)

/-- `str::starts_with`. -/
def startsWith (s p : Text) : Bool := p.isPrefixOf s

@[simp] theorem startsWith_iff (s p : Text) : startsWith s p = true ↔ p <+: s :=
  List.isPrefixOf_iff_prefix

/-- `str::split_once` at a text. -/
def splitOnceAt (sep : Text) : Text → Option (Text × Text)
  | [] => if sep.isEmpty then some ([], []) else none
  | c :: cs =>
      match stripPrefix sep (c :: cs) with
      | some rest => some ([], rest)
      | none => (splitOnceAt sep cs).map fun p => (c :: p.1, p.2)

/-- `str::split_once` at one character: what stands before its first occurrence and
what stands after it. -/
def splitOnce (sep : Char) : Text → Option (Text × Text)
  | [] => none
  | c :: cs =>
      if c = sep then some ([], cs) else (splitOnce sep cs).map fun p => (c :: p.1, p.2)

theorem splitOnce_append (sep : Char) (a b : Text) (ha : sep ∉ a) :
    splitOnce sep (a ++ sep :: b) = some (a, b) := by
  induction a with
  | nil => simp [splitOnce]
  | cons c a ih =>
      simp only [List.mem_cons, not_or] at ha
      simp [splitOnce, Ne.symm ha.1, ih ha.2]

theorem splitOnce_eq_none (sep : Char) (s : Text) (hs : sep ∉ s) : splitOnce sep s = none := by
  induction s with
  | nil => rfl
  | cons c s ih =>
      simp only [List.mem_cons, not_or] at hs
      simp [splitOnce, Ne.symm hs.1, ih hs.2]

/-- What a split gives: the first occurrence of the separator stands between its parts. -/
theorem splitOnce_eq_some_iff {sep : Char} {s a b : Text} :
    splitOnce sep s = some (a, b) ↔ sep ∉ a ∧ s = a ++ sep :: b := by
  constructor
  · intro h
    induction s generalizing a with
    | nil => cases h
    | cons c s ih =>
        rw [splitOnce] at h
        split at h
        · next hc =>
            cases h
            exact ⟨List.not_mem_nil, congrArg (· :: b) hc⟩
        · next hc =>
            obtain ⟨⟨a', b'⟩, hrest, hcons⟩ := Option.map_eq_some_iff.mp h
            cases hcons
            obtain ⟨hnotMem, rfl⟩ := ih hrest
            exact ⟨List.not_mem_cons_of_ne_of_not_mem (Ne.symm hc) hnotMem, rfl⟩
  · rintro ⟨hnotMem, rfl⟩
    exact splitOnce_append sep a b hnotMem

/-- The decimal digits of a natural number, as `to_string` writes them. -/
def decimal (n : Nat) : Text := Nat.toDigits 10 n

theorem decimal_injective : Function.Injective decimal := by
  intro m n h
  have hback := congrArg (fun t => Nat.ofDigitChars 10 t 0) h
  simpa only [decimal, Nat.ofDigitChars_ten_toDigits] using hback

theorem isDigit_of_mem_decimal {n : Nat} {c : Char} (h : c ∈ decimal n) : c.isDigit = true :=
  Nat.isDigit_of_mem_toDigits (by decide) (by decide) h

/-- Two texts that are cut at the first occurrence of one separator agree part by part. -/
theorem append_cons_inj {sep : Char} {a b c d : Text} (ha : sep ∉ a) (hc : sep ∉ c)
    (h : a ++ sep :: b = c ++ sep :: d) : a = c ∧ b = d := by
  have hsplit := congrArg (splitOnce sep) h
  rw [splitOnce_append sep a b ha, splitOnce_append sep c d hc] at hsplit
  exact ⟨congrArg Prod.fst (Option.some.inj hsplit), congrArg Prod.snd (Option.some.inj hsplit)⟩

end Text

end Genaryx
