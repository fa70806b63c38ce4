import Genaryx.Json.Grammar

/-!
# A reader of compact JSON texts

A recursive descent over the text, with its length as fuel. It reads every text as what the
text denotes, so a text denotes one value at most.
-/

namespace Genaryx.Json

variable {F : Type} (ofDecimal : OfDecimal F)

/-- Read a string up to its closing quote. -/
def readText : Text → Option (Text × Text)
  | [] => none
  | '"' :: rest => some ([], rest)
  | '\\' :: 'u' :: a :: b :: c :: d :: rest =>
      match hexChar a b c d with
      | none => none
      | some ch => (readText rest).map fun p => (ch :: p.1, p.2)
  | '\\' :: e :: rest =>
      match shortEscapes.lookup e with
      | none => none
      | some ch => (readText rest).map fun p => (ch :: p.1, p.2)
  | c :: rest =>
      if c.toNat < 0x20 then none else (readText rest).map fun p => (c :: p.1, p.2)

/-- Read a fraction, if there is one. -/
def readFraction (t : Text) : Option (Option Text × Text) :=
  if t.head? = some '.' then
    if t.tail.takeWhile Char.isDigit = [] then none
    else some (some (t.tail.takeWhile Char.isDigit), t.tail.dropWhile Char.isDigit)
  else some (none, t)

/-- Read a signed exponent, if there is one. -/
def readExponent (t : Text) : Option (Option (Bool × Text) × Text) :=
  if t.head? = some 'e' then
    let sign := t.tail.head?
    let digits := t.tail.tail.takeWhile Char.isDigit
    if digits ≠ [] ∧ (sign = some '-' ∨ sign = some '+') then
      some (some (sign = some '-', digits), t.tail.tail.dropWhile Char.isDigit)
    else none
  else some (none, t)

/-- Read a number after its sign. -/
def readUnsigned (negative : Bool) (t : Text) : Option (Number F × Text) :=
  let whole := t.takeWhile Char.isDigit
  if IsWhole whole then
    (readFraction (t.dropWhile Char.isDigit)).bind fun f =>
      (readExponent f.2).bind fun e =>
        (literalNumber ofDecimal negative whole f.1 e.1).map fun n => (n, e.2)
  else none

def readNumber (t : Text) : Option (Number F × Text) :=
  if t.head? = some '-' then readUnsigned ofDecimal true t.tail else readUnsigned ofDecimal false t

mutual

def readValue : Nat → Text → Option (Value F × Text)
  | 0, _ => none
  | _ + 1, [] => none
  | fuel + 1, c :: rest =>
      if c = '"' then (readText rest).map fun p => (.string p.1, p.2)
      else if c = '[' then
        if rest.head? = some ']' then some (.array [], rest.tail)
        else (readItems fuel rest).map fun p => (.array p.1, p.2)
      else if c = '{' then
        if rest.head? = some '}' then some (.object [], rest.tail)
        else (readMembers fuel rest).map fun p => (.object (ofMembers p.1), p.2)
      else if c = 'n' then (Text.stripPrefix "ull" rest).map fun r => (.null, r)
      else if c = 't' then (Text.stripPrefix "rue" rest).map fun r => (.bool true, r)
      else if c = 'f' then (Text.stripPrefix "alse" rest).map fun r => (.bool false, r)
      else (readNumber ofDecimal (c :: rest)).map fun p => (.number p.1, p.2)

/-- Read the items of an array up to its closing bracket. -/
def readItems : Nat → Text → Option (List (Value F) × Text)
  | 0, _ => none
  | fuel + 1, t =>
      match readValue fuel t with
      | some (v, ',' :: rest) => (readItems fuel rest).map fun p => (v :: p.1, p.2)
      | some (v, ']' :: rest) => some ([v], rest)
      | _ => none

/-- Read the members of an object up to its closing brace. -/
def readMembers : Nat → Text → Option (List (Text × Value F) × Text)
  | 0, _ => none
  | fuel + 1, t =>
      match (Text.stripPrefix ['"'] t).bind readText with
      | some (key, ':' :: raw) =>
          match readValue fuel raw with
          | some (v, ',' :: rest) => (readMembers fuel rest).map fun p => ((key, v) :: p.1, p.2)
          | some (v, '}' :: rest) => some ([(key, v)], rest)
          | _ => none
      | _ => none

end

/-- Read a whole text. -/
def read (t : Text) : Option (Value F) :=
  match readValue ofDecimal t.length t with
  | some (v, []) => some v
  | _ => none

variable {ofDecimal}

theorem readText_char {raw : Text} {c : Char} (h : DenotesChar raw c) (rest : Text) :
    readText (raw ++ rest) = (readText rest).map fun p => (c :: p.1, p.2) := by
  cases h with
  | plain c hlow hquote hslash =>
      rw [List.singleton_append, readText]
      · rw [if_neg (Nat.not_lt.mpr hlow)]
      · exact hquote
      · exact fun _ _ _ _ _ h _ => hslash h
      · exact fun _ _ h _ => hslash h
  | short e c h =>
      simp only [shortEscapes, List.mem_cons, Prod.mk.injEq, List.not_mem_nil, or_false] at h
      rcases h with ⟨rfl, rfl⟩ | ⟨rfl, rfl⟩ | ⟨rfl, rfl⟩ | ⟨rfl, rfl⟩ | ⟨rfl, rfl⟩ | ⟨rfl, rfl⟩ |
        ⟨rfl, rfl⟩ | ⟨rfl, rfl⟩ <;> rfl
  | unicode a b c' d ch h =>
      simp only [List.cons_append, List.nil_append, readText, h]

/-- A string is read up to its quote. -/
theorem readText_denotes {raw s : Text} (h : DenotesText raw s) (rest : Text) :
    readText (raw ++ '"' :: rest) = some (s, rest) := by
  induction h with
  | nil => rfl
  | cons hc hcs ih => rw [List.append_assoc, readText_char hc, ih, Option.map_some]

/-- What may follow a value inside a text. -/
def Boundary (rest : Text) : Prop := ∀ c ∈ rest.head?, c = ',' ∨ c = ']' ∨ c = '}'

/-- The text does not go on with a digit. -/
def NoDigit (rest : Text) : Prop := ∀ c ∈ rest.head?, c.isDigit = false

theorem Boundary.noDigit {rest : Text} (h : Boundary rest) : NoDigit rest := by
  intro c hc
  rcases h c hc with rfl | rfl | rfl <;> decide

theorem takeWhile_digits {digits rest : Text} (hdigits : ∀ c ∈ digits, c.isDigit = true)
    (hrest : NoDigit rest) : (digits ++ rest).takeWhile Char.isDigit = digits := by
  rw [List.takeWhile_append_of_pos hdigits]
  cases rest with
  | nil => simp
  | cons c rest => rw [List.takeWhile_cons_of_neg (by simpa using hrest c rfl), List.append_nil]

theorem dropWhile_digits {digits rest : Text} (hdigits : ∀ c ∈ digits, c.isDigit = true)
    (hrest : NoDigit rest) : (digits ++ rest).dropWhile Char.isDigit = rest := by
  rw [List.dropWhile_append_of_pos hdigits]
  cases rest with
  | nil => rfl
  | cons c rest => exact List.dropWhile_cons_of_neg (by simpa using hrest c rfl)

theorem readExponent_text {e : Option (Bool × Text)} (he : ∀ x, e = some x → IsDigits x.2)
    {rest : Text} (hrest : Boundary rest) :
    readExponent (Literal.exponentText e ++ rest) = some (e, rest) := by
  cases e with
  | none =>
      have hhead : rest.head? ≠ some 'e' := by
        intro heq
        rcases hrest 'e' heq with h | h | h <;> exact absurd h (by decide)
      rw [Literal.exponentText, List.nil_append, readExponent, if_neg hhead]
  | some x =>
      obtain ⟨hne, hdigits⟩ := he x rfl
      obtain ⟨negative, digits⟩ := x
      cases negative <;>
        simp [Literal.exponentText, readExponent, takeWhile_digits hdigits hrest.noDigit,
          dropWhile_digits hdigits hrest.noDigit, hne]

theorem noDigit_exponentText {e : Option (Bool × Text)} {rest : Text} (hrest : Boundary rest) :
    NoDigit (Literal.exponentText e ++ rest) := by
  cases e with
  | none => exact hrest.noDigit
  | some x => rintro c ⟨⟩; decide

theorem readFraction_text {f : Option Text} (hf : ∀ digits, f = some digits → IsDigits digits)
    {e : Option (Bool × Text)} {rest : Text} (hrest : Boundary rest) :
    readFraction (Literal.fractionText f ++ (Literal.exponentText e ++ rest)) =
      some (f, Literal.exponentText e ++ rest) := by
  cases f with
  | none =>
      have hhead : (Literal.exponentText e ++ rest).head? ≠ some '.' := by
        cases e with
        | none =>
            intro heq
            rcases hrest '.' heq with h | h | h <;> exact absurd h (by decide)
        | some x => simp [Literal.exponentText]
      rw [Literal.fractionText, List.nil_append, readFraction, if_neg hhead]
  | some digits =>
      obtain ⟨hne, hdigits⟩ := hf digits rfl
      simp [Literal.fractionText, readFraction,
        takeWhile_digits hdigits (noDigit_exponentText hrest),
        dropWhile_digits hdigits (noDigit_exponentText hrest), hne]

theorem noDigit_fractionText {f : Option Text} {e : Option (Bool × Text)} {rest : Text}
    (hrest : Boundary rest) :
    NoDigit (Literal.fractionText f ++ (Literal.exponentText e ++ rest)) := by
  cases f with
  | none => exact noDigit_exponentText hrest
  | some digits => rintro c ⟨⟩; decide

/-- A literal is read as its number. -/
theorem readNumber_text {l : Literal} {n : Number F} (h : l.number ofDecimal = some n)
    {rest : Text} (hrest : Boundary rest) :
    readNumber ofDecimal (l.text ++ rest) = some (n, rest) := by
  obtain ⟨hne, hdigits⟩ := l.whole_digits.1
  have hunsigned : readUnsigned ofDecimal l.negative (l.whole ++
      (Literal.fractionText l.fraction ++ (Literal.exponentText l.exponent ++ rest))) =
        some (n, rest) := by
    rw [readUnsigned, takeWhile_digits hdigits (noDigit_fractionText hrest),
      dropWhile_digits hdigits (noDigit_fractionText hrest), if_pos l.whole_digits,
      readFraction_text l.fraction_digits hrest, Option.bind_some,
      readExponent_text l.exponent_digits hrest, Option.bind_some]
    exact congrArg (Option.map fun n => (n, rest)) h
  rw [Literal.text, readNumber]
  cases hnegative : l.negative with
  | true =>
      rw [hnegative] at hunsigned
      simpa using hunsigned
  | false =>
      obtain ⟨c, cs, hwhole⟩ := List.exists_cons_of_ne_nil hne
      have hminus : c ≠ '-' := by
        rintro rfl
        exact absurd (hdigits '-' (by rw [hwhole]; exact List.mem_cons_self)) (by decide)
      rw [hnegative, hwhole] at hunsigned
      simpa [hwhole, hminus] using hunsigned

/-- The first character of a value decides how it is read. -/
theorem readValue_number {c : Char} {t : Text} {fuel : Nat} (hc : c.isDigit = true ∨ c = '-') :
    readValue ofDecimal (fuel + 1) (c :: t) =
      (readNumber ofDecimal (c :: t)).map fun p => (.number p.1, p.2) := by
  have hne : ∀ d : Char, d.isDigit = false → d ≠ '-' → c ≠ d := by
    rintro d hdigit hminus rfl
    rcases hc with hc | hc
    · rw [hdigit] at hc; cases hc
    · exact hminus hc
  rw [readValue, if_neg (hne _ (by decide) (by decide)), if_neg (hne _ (by decide) (by decide)),
    if_neg (hne _ (by decide) (by decide)), if_neg (hne _ (by decide) (by decide)),
    if_neg (hne _ (by decide) (by decide)), if_neg (hne _ (by decide) (by decide))]

theorem Literal.text_head (l : Literal) :
    ∃ c t, l.text = c :: t ∧ (c.isDigit = true ∨ c = '-') := by
  obtain ⟨hne, hdigits⟩ := l.whole_digits.1
  obtain ⟨c, cs, hwhole⟩ := List.exists_cons_of_ne_nil hne
  rw [Literal.text, hwhole]
  cases l.negative with
  | true => exact ⟨'-', _, rfl, Or.inr rfl⟩
  | false => exact ⟨c, _, rfl, Or.inl (hdigits c (by rw [hwhole]; exact List.mem_cons_self))⟩

/-- A text that denotes a value starts it: not with a closing bracket or brace. -/
theorem Denotes.head {t : Text} {v : Value F} (h : Denotes ofDecimal t v) :
    ∃ c rest, t = c :: rest ∧ c ≠ ']' ∧ c ≠ '}' := by
  cases h with
  | number l n hn =>
      obtain ⟨c, rest, htext, hc⟩ := l.text_head
      refine ⟨c, rest, htext, ?_, ?_⟩ <;>
      · rintro rfl
        exact absurd hc (by decide)
  | null => exact ⟨'n', "ull", rfl, by decide, by decide⟩
  | true => exact ⟨'t', "rue", rfl, by decide, by decide⟩
  | false => exact ⟨'f', "alse", rfl, by decide, by decide⟩
  | string => exact ⟨_, _, rfl, by decide, by decide⟩
  | array => exact ⟨_, _, rfl, by decide, by decide⟩
  | object => exact ⟨_, _, rfl, by decide, by decide⟩

variable (ofDecimal) in
/-- With enough fuel the text is read as the value, whatever follows it. -/
def Reads (t : Text) (v : Value F) : Prop :=
  ∀ fuel rest, t.length ≤ fuel → Boundary rest →
    readValue ofDecimal fuel (t ++ rest) = some (v, rest)

theorem boundary_cons {c : Char} (hc : c = ',' ∨ c = ']' ∨ c = '}') (rest : Text) :
    Boundary (c :: rest) := by
  rintro d ⟨⟩
  exact hc

theorem readItems_commaSep {items : List (Text × Value F)} (hne : items ≠ [])
    (h : ∀ i ∈ items, Reads ofDecimal i.1 i.2 ∧ i.1 ≠ []) (fuel : Nat) (rest : Text)
    (hfuel : (commaSep (items.map Prod.fst)).length < fuel) :
    readItems ofDecimal fuel (commaSep (items.map Prod.fst) ++ ']' :: rest) =
      some (items.map Prod.snd, rest) := by
  induction items generalizing fuel with
  | nil => exact absurd rfl hne
  | cons i items ih =>
      obtain ⟨fuel, rfl⟩ : ∃ k, fuel = k + 1 := ⟨fuel - 1, by omega⟩
      obtain ⟨hi, hi0⟩ := h i List.mem_cons_self
      have hlength := List.length_pos_of_ne_nil hi0
      cases items with
      | nil =>
          simp only [List.map_cons, List.map_nil, commaSep] at hfuel ⊢
          rw [readItems, hi fuel _ (by omega) (boundary_cons (by decide) _)]
          rfl
      | cons j items =>
          simp only [List.map_cons, commaSep, List.length_append, List.length_cons] at hfuel ⊢
          rw [readItems, List.append_assoc, List.cons_append,
            hi fuel _ (by omega) (boundary_cons (by decide) _)]
          have htail := ih (List.cons_ne_nil _ _) (fun k hk => h k (List.mem_cons_of_mem _ hk))
            fuel (by simp only [List.map_cons]; omega)
          simp only [List.map_cons] at htail
          simp only [htail, Option.map_some]

theorem readMembers_commaSep {members : List (Member F)} (hne : members ≠ [])
    (hkeys : ∀ m ∈ members, DenotesText m.rawKey m.key)
    (h : ∀ m ∈ members, Reads ofDecimal m.raw m.value) (fuel : Nat) (rest : Text)
    (hfuel : (commaSep (members.map Member.text)).length < fuel) :
    readMembers ofDecimal fuel (commaSep (members.map Member.text) ++ '}' :: rest) =
      some (members.map fun m => (m.key, m.value), rest) := by
  induction members generalizing fuel with
  | nil => exact absurd rfl hne
  | cons m members ih =>
      obtain ⟨fuel, rfl⟩ : ∃ k, fuel = k + 1 := ⟨fuel - 1, by omega⟩
      have hkey := hkeys m List.mem_cons_self
      have hm := h m List.mem_cons_self
      -- the key is read up to its quote, and the colon after it
      have hhead : ∀ tail, (Text.stripPrefix ['"'] (m.text ++ tail)).bind readText =
          some (m.key, ':' :: (m.raw ++ tail)) := by
        intro tail
        have htext : m.text ++ tail =
            ['"'] ++ (m.rawKey ++ '"' :: (':' :: (m.raw ++ tail))) := by
          simp [Member.text]
        rw [htext, Text.stripPrefix_append, Option.bind_some, readText_denotes hkey]
      have hlength : m.raw.length < m.text.length := by
        simp only [Member.text, List.length_append, List.length_cons]
        omega
      cases members with
      | nil =>
          simp only [List.map_cons, List.map_nil, commaSep] at hfuel ⊢
          have hvalue := hm fuel ('}' :: rest) (by omega) (boundary_cons (by decide) _)
          rw [readMembers, hhead]
          simp only [hvalue]
      | cons n members =>
          simp only [List.map_cons, commaSep, List.length_append, List.length_cons] at hfuel ⊢
          have hvalue := fun tail => hm fuel (',' :: tail) (by omega) (boundary_cons (by decide) _)
          rw [readMembers, List.append_assoc, List.cons_append, hhead]
          have htail := ih (List.cons_ne_nil _ _) (fun k hk => hkeys k (List.mem_cons_of_mem _ hk))
            (fun k hk => h k (List.mem_cons_of_mem _ hk)) fuel
            (by simp only [List.map_cons]; omega)
          simp only [List.map_cons] at htail
          simp only [hvalue, htail, Option.map_some]

theorem commaSep_head (t : Text) (ts : List Text) :
    ∃ rest, commaSep (t :: ts) = t ++ rest := by
  cases ts with
  | nil => exact ⟨[], (List.append_nil t).symm⟩
  | cons u ts => exact ⟨_, rfl⟩

/-- Every text is read as what it denotes. -/
theorem reads_of_denotes {t : Text} {v : Value F} (h : Denotes ofDecimal t v) :
    Reads ofDecimal t v := by
  induction h with
  | null | true | false =>
      intro fuel rest hfuel _
      obtain ⟨fuel, rfl⟩ : ∃ k, fuel = k + 1 := ⟨fuel - 1, by simp at hfuel; omega⟩
      simp [readValue, Text.stripPrefix]
  | number l n hn =>
      intro fuel rest hfuel hrest
      obtain ⟨c, t, htext, hc⟩ := l.text_head
      obtain ⟨fuel, rfl⟩ : ∃ k, fuel = k + 1 := ⟨fuel - 1, by rw [htext] at hfuel; simp at hfuel; omega⟩
      have hnumber := readNumber_text hn hrest
      rw [htext, List.cons_append] at hnumber ⊢
      rw [readValue_number hc, hnumber, Option.map_some]
  | string hs =>
      intro fuel rest hfuel _
      obtain ⟨fuel, rfl⟩ : ∃ k, fuel = k + 1 := ⟨fuel - 1, by simp at hfuel; omega⟩
      rw [List.cons_append, List.cons_append, List.append_assoc, List.singleton_append, readValue,
        if_pos rfl, readText_denotes hs, Option.map_some]
  | array items hitems ih =>
      intro fuel rest hfuel _
      simp only [List.length_cons, List.length_append, List.length_nil] at hfuel
      obtain ⟨fuel, rfl⟩ : ∃ k, fuel = k + 1 := ⟨fuel - 1, by omega⟩
      rw [List.cons_append, List.cons_append, List.append_assoc, List.singleton_append, readValue,
        if_neg (by decide), if_pos rfl]
      cases items with
      | nil => simp [commaSep]
      | cons i items =>
          obtain ⟨c, t, htext, hclose, -⟩ := (hitems i List.mem_cons_self).head
          obtain ⟨tail, hjoin⟩ := commaSep_head i.1 (items.map Prod.fst)
          have hopen : (commaSep ((i :: items).map Prod.fst) ++ ']' :: rest).head? ≠ some ']' := by
            rw [List.map_cons, hjoin, htext]
            simpa using hclose
          have hne : ∀ j ∈ i :: items, Reads ofDecimal j.1 j.2 ∧ j.1 ≠ [] := by
            intro j hj
            obtain ⟨c, t, htext, -⟩ := (hitems j hj).head
            exact ⟨ih j hj, by rw [htext]; exact List.cons_ne_nil c t⟩
          rw [if_neg hopen, readItems_commaSep (List.cons_ne_nil _ _) hne _ rest (by omega),
            Option.map_some]
  | object members hkeys hmembers ih =>
      intro fuel rest hfuel _
      simp only [List.length_cons, List.length_append, List.length_nil] at hfuel
      obtain ⟨fuel, rfl⟩ : ∃ k, fuel = k + 1 := ⟨fuel - 1, by omega⟩
      rw [List.cons_append, List.cons_append, List.append_assoc, List.singleton_append, readValue,
        if_neg (by decide), if_neg (by decide), if_pos rfl]
      cases members with
      | nil => simp [commaSep, ofMembers]
      | cons m members =>
          obtain ⟨tail, hjoin⟩ := commaSep_head m.text (members.map Member.text)
          have hopen : (commaSep ((m :: members).map Member.text) ++ '}' :: rest).head? ≠
              some '}' := by
            rw [List.map_cons, hjoin]
            simp [Member.text]
          rw [if_neg hopen, readMembers_commaSep (List.cons_ne_nil _ _) hkeys ih _ rest (by omega),
            Option.map_some]

/-- The reader reads every compact text as what it denotes. -/
theorem read_of_denotes {t : Text} {v : Value F} (h : Denotes ofDecimal t v) :
    read ofDecimal t = some v := by
  have hread := reads_of_denotes h t.length [] le_rfl (by simp [Boundary])
  rw [List.append_nil] at hread
  rw [read, hread]

/-- A text denotes one value at most. -/
theorem Denotes.unique {t : Text} {v w : Value F} (hv : Denotes ofDecimal t v)
    (hw : Denotes ofDecimal t w) : v = w :=
  Option.some.inj ((read_of_denotes hv).symm.trans (read_of_denotes hw))

/-- The reader of this module, with a nesting limit. -/
def Reader.ofRead (ofDecimal : OfDecimal F) (limit : Nat) : Reader ofDecimal limit where
  fromStr := fun t => (read ofDecimal t).filter fun v => v.depth ≤ limit
  fromStr_of_denotes := fun h => by
    rw [read_of_denotes h, Option.filter_some]
    simp only [decide_eq_true_eq]

/-- What is read has the members of its objects in order. -/
theorem ordered_read (fuel : Nat) :
    (∀ t v rest, readValue ofDecimal fuel t = some (v, rest) → v.Ordered) ∧
      (∀ t vs rest, readItems ofDecimal fuel t = some (vs, rest) → Value.ItemsOrdered vs) ∧
        ∀ t ms rest, readMembers ofDecimal fuel t = some (ms, rest) → Value.MembersOrdered ms := by
  induction fuel with
  | zero => exact ⟨nofun, nofun, nofun⟩
  | succ fuel ih =>
      obtain ⟨hvalue, hitems, hmembers⟩ := ih
      refine ⟨fun t v rest h => ?_, fun t vs rest h => ?_, fun t ms rest h => ?_⟩
      · cases t with
        | nil => cases h
        | cons c t =>
            simp only [readValue] at h
            split at h
            · obtain ⟨p, -, hp⟩ := Option.map_eq_some_iff.mp h
              cases hp
              trivial
            split at h
            · split at h
              · cases h
                trivial
              · obtain ⟨p, hread, hp⟩ := Option.map_eq_some_iff.mp h
                cases hp
                exact hitems t p.1 p.2 hread
            split at h
            · split at h
              · cases h
                exact ⟨.nil, trivial⟩
              · obtain ⟨p, hread, hp⟩ := Option.map_eq_some_iff.mp h
                cases hp
                refine ⟨ofMembers_pairwise p.1, Value.membersOrdered_iff.mpr fun m hm => ?_⟩
                have hordered := Value.membersOrdered_iff.mp (hmembers t p.1 p.2 hread)
                exact hordered m (mem_of_mem_ofMembers hm)
            · repeat' split at h
              all_goals
                obtain ⟨p, -, hp⟩ := Option.map_eq_some_iff.mp h
                cases hp
                trivial
      · simp only [readItems] at h
        split at h
        · next hread =>
            obtain ⟨p, hrest, hp⟩ := Option.map_eq_some_iff.mp h
            cases hp
            exact ⟨hvalue _ _ _ hread, hitems _ _ _ hrest⟩
        · next hread =>
            cases h
            exact ⟨hvalue _ _ _ hread, trivial⟩
        · cases h
      · simp only [readMembers] at h
        split at h
        · split at h
          · next hread =>
              obtain ⟨p, hrest, hp⟩ := Option.map_eq_some_iff.mp h
              cases hp
              exact ⟨hvalue _ _ _ hread, hmembers _ _ _ hrest⟩
          · next hread =>
              cases h
              exact ⟨hvalue _ _ _ hread, trivial⟩
          · cases h
        · cases h

/-- What a reader accepts is in order, and nests no deeper than its limit. -/
def Reader.Bounded {limit : Nat} (R : Reader ofDecimal limit) : Prop :=
  ∀ t v, R.fromStr t = some v → v.Ordered ∧ v.depth ≤ limit

theorem bounded_ofRead (limit : Nat) : (Reader.ofRead ofDecimal limit).Bounded := by
  intro t v h
  obtain ⟨hread, hdepth⟩ := Option.filter_eq_some_iff.mp h
  refine ⟨?_, of_decide_eq_true hdepth⟩
  unfold read at hread
  split at hread <;> cases hread
  next hvalue => exact (ordered_read _).1 _ _ _ hvalue

end Genaryx.Json
