import Genaryx.Json.Read
import Genaryx.Json.Double
import Mathlib.Data.List.Perm.Basic

/-!
# Writing JSON texts

Strings, integers, arrays and objects written compactly denote what was written. A codec is
a writer with a reader that reads back what it wrote.
-/

namespace Genaryx.Json

variable {F : Type} {ofDecimal : OfDecimal F}

/-- One character of a written string. -/
def escapeChar (c : Char) : Text :=
  if c = '"' then ['\\', '"']
  else if c = '\\' then ['\\', '\\']
  else if c = '\x08' then ['\\', 'b']
  else if c = '\t' then ['\\', 't']
  else if c = '\n' then ['\\', 'n']
  else if c = '\x0c' then ['\\', 'f']
  else if c = '\r' then ['\\', 'r']
  else if c.toNat < 0x20 then '\\' :: 'u' :: (Nat.toDigits 16 c.toNat).leftpad 4 '0'
  else [c]

/-- A string as it is written: the quote, the backslash and the control characters are
escaped, everything else is written as it is. -/
def quote (s : Text) : Text := '"' :: s.flatMap escapeChar ++ ['"']

/-- The escape of a control character names it. -/
theorem hexChar_control (n : Fin 32) :
    (Nat.toDigits 16 n).leftpad 4 '0' =
        ['0', '0', Nat.digitChar (n / 16), Nat.digitChar (n % 16)] ∧
      hexChar '0' '0' (Nat.digitChar (n / 16)) (Nat.digitChar (n % 16)) =
        some (Char.ofNat n) := by
  revert n
  decide

theorem denotesChar_escapeChar (c : Char) : DenotesChar (escapeChar c) c := by
  unfold escapeChar
  split
  · next h => subst h; exact .short _ _ (by decide)
  split
  · next h => subst h; exact .short _ _ (by decide)
  split
  · next h => subst h; exact .short _ _ (by decide)
  split
  · next h => subst h; exact .short _ _ (by decide)
  split
  · next h => subst h; exact .short _ _ (by decide)
  split
  · next h => subst h; exact .short _ _ (by decide)
  split
  · next h => subst h; exact .short _ _ (by decide)
  next hquote hslash _ _ _ _ _ =>
    split
    · next hlow =>
        obtain ⟨hpad, hhex⟩ := hexChar_control ⟨c.toNat, hlow⟩
        simp only [Char.ofNat_toNat] at hpad hhex
        rw [hpad]
        exact .unicode _ _ _ _ c hhex
    · next hlow => exact .plain c (Nat.not_lt.mp hlow) hquote hslash

/-- A written string denotes the string. -/
theorem denotesText_flatMap_escapeChar (s : Text) : DenotesText (s.flatMap escapeChar) s := by
  induction s with
  | nil => exact .nil
  | cons c s ih => exact .cons (denotesChar_escapeChar c) ih

theorem denotes_decimal {n : Nat} (h : n < 2 ^ 64) :
    Denotes ofDecimal (Text.decimal n) (.number (.posInt n h)) := by
  have htext : Text.decimal n = Literal.text ⟨false, Text.decimal n, none, none,
      isWhole_decimal n, by simp, by simp⟩ := by
    simp [Literal.text, Literal.fractionText, Literal.exponentText]
  rw [htext]
  refine .number _ _ ?_
  simp only [Literal.number, literalNumber, integerNumber, Bool.false_eq_true, if_false,
    digitsValue_decimal, dif_pos h]

theorem denotes_negative {m : Nat} (h : 0 < m ∧ m ≤ 2 ^ 63) :
    Denotes ofDecimal ('-' :: Text.decimal m) (.number (.negInt m h)) := by
  have htext : '-' :: Text.decimal m = Literal.text ⟨true, Text.decimal m, none, none,
      isWhole_decimal m, by simp, by simp⟩ := by
    simp [Literal.text, Literal.fractionText, Literal.exponentText]
  rw [htext]
  refine .number _ _ ?_
  simp only [Literal.number, literalNumber, integerNumber, if_true, digitsValue_decimal, dif_pos h]

theorem denotes_array {ts : List Text} {vs : List (Value F)}
    (h : List.Forall₂ (Denotes ofDecimal) ts vs) :
    Denotes ofDecimal ('[' :: commaSep ts ++ [']']) (.array vs) := by
  obtain ⟨items, rfl, rfl, hitems⟩ : ∃ items : List (Text × Value F),
      items.map Prod.fst = ts ∧ items.map Prod.snd = vs ∧
        ∀ i ∈ items, Denotes ofDecimal i.1 i.2 := by
    induction h with
    | nil => exact ⟨[], rfl, rfl, by simp⟩
    | @cons t v ts vs hv _ ih =>
        obtain ⟨items, rfl, rfl, hitems⟩ := ih
        exact ⟨(t, v) :: items, rfl, rfl, List.forall_mem_cons.mpr ⟨hv, hitems⟩⟩
  exact .array items hitems

/-- Written members denote the object that keeps them. -/
theorem denotes_members {ps : List (Text × Text)} {ms : List (Text × Value F)}
    (h : List.Forall₂ (fun p m => p.1 = m.1 ∧ Denotes ofDecimal p.2 m.2) ps ms) :
    Denotes ofDecimal ('{' :: commaSep (ps.map fun m => quote m.1 ++ ':' :: m.2) ++ ['}'])
      (.object (ofMembers ms)) := by
  obtain ⟨members, htext, hmembers, hkeys, hvalues⟩ : ∃ members : List (Member F),
      members.map Member.text = ps.map (fun m => quote m.1 ++ ':' :: m.2) ∧
        members.map (fun m => (m.key, m.value)) = ms ∧
          (∀ m ∈ members, DenotesText m.rawKey m.key) ∧
            ∀ m ∈ members, Denotes ofDecimal m.raw m.value := by
    induction h with
    | nil => exact ⟨[], rfl, rfl, by simp, by simp⟩
    | @cons p m ps ms hm _ ih =>
        obtain ⟨members, htext, hmembers, hkeys, hvalues⟩ := ih
        refine ⟨⟨p.1.flatMap escapeChar, p.1, p.2, m.2⟩ :: members, ?_, ?_,
          List.forall_mem_cons.mpr ⟨denotesText_flatMap_escapeChar p.1, hkeys⟩,
          List.forall_mem_cons.mpr ⟨hm.2, hvalues⟩⟩
        · rw [List.map_cons, List.map_cons, htext]
          simp [Member.text, quote]
        · rw [List.map_cons, hmembers, hm.1]
  rw [← htext, ← hmembers]
  exact .object members hkeys hvalues

/-- Members written in any order denote the object. -/
theorem denotes_object {ps sorted : List (Text × Text)}
    {ms : List (Text × Value F)} (hperm : sorted.Perm ps)
    (h : List.Forall₂ (fun p m => p.1 = m.1 ∧ Denotes ofDecimal p.2 m.2) ps ms)
    (hordered : (ms.map Prod.fst).Pairwise (· < ·)) :
    Denotes ofDecimal
      ('{' :: commaSep (sorted.map fun m => quote m.1 ++ ':' :: m.2) ++ ['}'])
      (.object ms) := by
  obtain ⟨ms', hsorted, hms'⟩ := List.perm_comp_forall₂ hperm h
  rw [← ofMembers_eq_of_perm hms' hordered]
  exact denotes_members hsorted

/-- An integer of either sign. -/
def Number.IsInteger : Number F → Prop
  | .float _ => False
  | _ => True

mutual

/-- The compact text of a value whose members are in key order. -/
def compact (floatText : F → Text) : Value F → Text
  | .null => "null"
  | .bool true => "true"
  | .bool false => "false"
  | .number (.posInt n _) => Text.decimal n
  | .number (.negInt m _) => '-' :: Text.decimal m
  | .number (.float x) => floatText x
  | .string s => quote s
  | .array items => '[' :: commaSep (compactItems floatText items) ++ [']']
  | .object members =>
      '{' :: commaSep ((compactMembers floatText members).map fun m =>
        quote m.1 ++ ':' :: m.2) ++ ['}']

def compactItems (floatText : F → Text) : List (Value F) → List Text
  | [] => []
  | v :: vs => compact floatText v :: compactItems floatText vs

def compactMembers (floatText : F → Text) : List (Text × Value F) → List (Text × Text)
  | [] => []
  | m :: ms => (m.1, compact floatText m.2) :: compactMembers floatText ms

end

section Compact

variable (floatText : F → Text)

mutual

/-- A value without doubles is denoted by its compact text. -/
theorem denotes_compact (v : Value F) (hordered : v.Ordered)
    (hinteger : v.AllNumbers Number.IsInteger) : Denotes ofDecimal (compact floatText v) v := by
  cases v with
  | null => exact .null
  | bool b => cases b; exacts [.false, .true]
  | number n =>
      cases n with
      | posInt n h => exact denotes_decimal h
      | negInt m h => exact denotes_negative h
      | float x => exact absurd hinteger id
  | string s => exact .string (denotesText_flatMap_escapeChar s)
  | array items => exact denotes_array (forall₂_compactItems items hordered hinteger)
  | object members =>
      exact denotes_object (List.Perm.refl _)
        (forall₂_compactMembers members hordered.2 hinteger) hordered.1

theorem forall₂_compactItems (items : List (Value F)) (hordered : Value.ItemsOrdered items)
    (hinteger : Value.AllItems Number.IsInteger items) :
    List.Forall₂ (Denotes ofDecimal) (compactItems floatText items) items := by
  cases items with
  | nil => exact .nil
  | cons v vs =>
      exact .cons (denotes_compact v hordered.1 hinteger.1)
        (forall₂_compactItems vs hordered.2 hinteger.2)

theorem forall₂_compactMembers (members : List (Text × Value F))
    (hordered : Value.MembersOrdered members)
    (hinteger : Value.AllMembers Number.IsInteger members) :
    List.Forall₂ (fun p m => p.1 = m.1 ∧ Denotes ofDecimal p.2 m.2)
      (compactMembers floatText members) members := by
  cases members with
  | nil => exact .nil
  | cons m ms =>
      exact .cons ⟨rfl, denotes_compact m.2 hordered.1 hinteger.1⟩
        (forall₂_compactMembers ms hordered.2 hinteger.2)

end

end Compact

/-- A writer and a reader of JSON texts: what is written of a value without doubles denotes
that value. -/
structure Codec (F : Type) (limit : Nat) where
  ofDecimal : OfDecimal F
  reader : Reader ofDecimal limit
  toText : Value F → Text
  denotes_toText : ∀ v, v.Ordered → v.AllNumbers Number.IsInteger →
    Denotes ofDecimal (toText v) v

namespace Codec

variable {limit : Nat} (C : Codec F limit)

/-- What was written is read back. -/
theorem fromStr_toText {v : Value F} (hordered : v.Ordered)
    (hinteger : v.AllNumbers Number.IsInteger) (hdepth : v.depth ≤ limit) :
    C.reader.fromStr (C.toText v) = some v := by
  rw [C.reader.fromStr_of_denotes (C.denotes_toText v hordered hinteger), if_pos hdepth]

/-- The compact writer with the reader that reads every compact text. -/
def ofCompact (ofDecimal : OfDecimal F) (floatText : F → Text) (limit : Nat) :
    Codec F limit where
  ofDecimal := ofDecimal
  reader := Reader.ofRead ofDecimal limit
  toText := compact floatText
  denotes_toText := denotes_compact floatText

end Codec

/-- A codec for values with doubles too: what is written of a value denotes it up to how its
numbers are read back. -/
structure FullCodec (F : Type) (limit : Nat) extends Codec F limit where
  reread : Number F → Number F
  denotes_full : ∀ v, v.Ordered → Denotes ofDecimal (toText v) (v.mapNumbers reread)

namespace FullCodec

variable {limit : Nat} (C : FullCodec F limit)

/-- What was written is read back, up to how its numbers are read. -/
theorem fromStr_toText {v : Value F} (hordered : v.Ordered) (hdepth : v.depth ≤ limit) :
    C.reader.fromStr (C.toText v) = some (v.mapNumbers C.reread) := by
  rw [C.reader.fromStr_of_denotes (C.denotes_full v hordered), Value.depth_mapNumbers,
    if_pos hdepth]

/-- Without doubles, the compact writer and its reader are a full codec. -/
def ofEmpty (limit : Nat) : FullCodec Empty limit where
  toCodec := Codec.ofCompact (fun _ _ _ => none) Empty.elim limit
  reread := id
  denotes_full v hordered := by
    rw [Value.mapNumbers_id]
    refine denotes_compact Empty.elim v hordered (Value.allNumbers_of_forall (fun n => ?_) v)
    cases n with
    | posInt n h => trivial
    | negInt m h => trivial
    | float x => exact x.elim

end FullCodec

end Genaryx.Json
