import Genaryx.Base.Words

/-!
# Letters and words in any case

Lowercasing, and the words of a text. Which characters are letters, and what the lower case of a
character is, are the Unicode tables of the standard library.

## Implementation notes

The tables are a parameter. What is asked of them is what Unicode says of the ASCII characters and
of white space, which is no letter and has no case.
-/

namespace Genaryx

/-- The Unicode tables of the standard library, as far as the string operations read them. -/
structure Letters where
  /-- `char::is_alphabetic`. -/
  isAlphabetic : Char → Bool
  /-- `char::is_numeric`. -/
  isNumeric : Char → Bool
  /-- `char::is_uppercase`. -/
  isUppercase : Char → Bool
  /-- `char::to_lowercase`. -/
  lower : Char → Text
  /-- The property Cased, which the lower case of a sigma asks for. -/
  isCased : Char → Bool
  /-- The property Case_Ignorable. -/
  isCaseIgnorable : Char → Bool
  ascii : ∀ c : Char, c.toNat < 0x80 →
    isAlphabetic c = c.isAlpha ∧ isNumeric c = c.isDigit ∧ lower c = [c.toLower]
  blank : ∀ c : Char, Text.isWhitespace c = true →
    isAlphabetic c = false ∧ isNumeric c = false ∧ lower c = [c] ∧ isCased c = false ∧
      isCaseIgnorable c = false

namespace Letters

variable (L : Letters)

/-- `char::is_alphanumeric`. -/
def isAlphanumeric (c : Char) : Bool := L.isAlphabetic c || L.isNumeric c

/-- Whether the first character that case does not ignore is cased. -/
def caseIgnorableThenCased (t : Text) : Bool :=
  match t.find? fun c => !L.isCaseIgnorable c with
  | some c => L.isCased c
  | none => false

/-- The lower case of a text that stands after another one, given from its end. -/
def lowerFrom (before : Text) : Text → Text
  | [] => []
  | c :: rest =>
      let lowered : Text :=
        -- A sigma that ends a word has a lower case of its own.
        if c = 'Σ' then
          [if L.caseIgnorableThenCased before && !L.caseIgnorableThenCased rest then 'ς' else 'σ']
        else L.lower c
      lowered ++ lowerFrom (c :: before) rest

/-- `str::to_lowercase`. -/
def toLowercase (t : Text) : Text := L.lowerFrom [] t

/-- Whitespace is neither a letter nor a digit of ASCII, and has no lower case. -/
theorem not_alphanum_of_isWhitespace {c : Char} (hc : Text.isWhitespace c = true) :
    c.isAlpha = false ∧ c.isDigit = false ∧ c.toLower = c := by
  have hcode : c.val.toNat < 0x30 ∨ 0x7F < c.val.toNat := by
    simp only [Text.isWhitespace, Char.toNat, Bool.or_eq_true, Bool.and_eq_true,
      decide_eq_true_eq] at hc
    omega
  have hnot : ∀ lo hi : Nat, 0x30 ≤ lo → hi ≤ 0x7F →
      ¬ (lo ≤ c.val.toNat ∧ c.val.toNat ≤ hi) := by
    intro lo hi hlo hhi h
    omega
  have hupper : ¬ (c.val ≥ 'A'.val ∧ c.val ≤ 'Z'.val) := hnot 65 90 (by decide) (by decide)
  have hlower : ¬ (c.val ≥ 'a'.val ∧ c.val ≤ 'z'.val) := hnot 97 122 (by decide) (by decide)
  have hdigit : ¬ (c.val ≥ '0'.val ∧ c.val ≤ '9'.val) := hnot 48 57 (by decide) (by decide)
  have hisUpper : c.isUpper = false := decide_eq_false hupper
  have hisLower : c.isLower = false := Bool.eq_false_iff.mpr fun h =>
    hlower ((Bool.and_eq_true_iff.mp h).imp of_decide_eq_true of_decide_eq_true)
  have hisDigit : c.isDigit = false := Bool.eq_false_iff.mpr fun h =>
    hdigit ((Bool.and_eq_true_iff.mp h).imp of_decide_eq_true of_decide_eq_true)
  exact ⟨Bool.or_eq_false_iff.mpr ⟨hisUpper, hisLower⟩, hisDigit, dif_neg hupper⟩

/-- The tables of a world that has ASCII letters only. -/
def asciiOnly : Letters where
  isAlphabetic := Char.isAlpha
  isNumeric := Char.isDigit
  isUppercase := Char.isUpper
  lower c := [c.toLower]
  isCased := Char.isAlpha
  isCaseIgnorable := fun _ => false
  ascii _ _ := ⟨rfl, rfl, rfl⟩
  blank := by
    intro c hc
    obtain ⟨halpha, hdigit, hlower⟩ := not_alphanum_of_isWhitespace hc
    exact ⟨halpha, hdigit, congrArg (fun d => [d]) hlower, halpha, rfl⟩

section Blank

variable {L} {c : Char}

theorem caseIgnorableThenCased_concat (hc : Text.isWhitespace c = true) (t : Text) :
    L.caseIgnorableThenCased (t ++ [c]) = L.caseIgnorableThenCased t := by
  obtain ⟨_, _, _, hcased, hignorable⟩ := L.blank c hc
  unfold caseIgnorableThenCased
  rw [List.find?_append, List.find?_cons_of_pos (by rw [hignorable]; rfl)]
  cases t.find? fun c => !L.isCaseIgnorable c with
  | none => exact hcased
  | some d => rfl

theorem lowerFrom_blank (hc : Text.isWhitespace c = true) (before t : Text) :
    L.lowerFrom before (c :: t) = c :: L.lowerFrom (c :: before) t := by
  have hsigma : c ≠ 'Σ' := by
    rintro rfl
    exact absurd hc (by decide)
  rw [lowerFrom, if_neg hsigma, (L.blank c hc).2.2.1]
  rfl

theorem lowerFrom_before_concat (hc : Text.isWhitespace c = true) (before t : Text) :
    L.lowerFrom (before ++ [c]) t = L.lowerFrom before t := by
  induction t generalizing before with
  | nil => rfl
  | cons d t ih =>
      rw [lowerFrom, lowerFrom, caseIgnorableThenCased_concat hc, ← List.cons_append, ih]

theorem lowerFrom_concat (hc : Text.isWhitespace c = true) (before t : Text) :
    L.lowerFrom before (t ++ [c]) = L.lowerFrom before t ++ [c] := by
  induction t generalizing before with
  | nil => exact lowerFrom_blank hc before []
  | cons d t ih =>
      rw [List.cons_append, lowerFrom, lowerFrom, caseIgnorableThenCased_concat hc, ih,
        List.append_assoc]

/-- White space before a text stays as it is. -/
theorem toLowercase_cons (hc : Text.isWhitespace c = true) (t : Text) :
    L.toLowercase (c :: t) = c :: L.toLowercase t := by
  rw [toLowercase, lowerFrom_blank hc]
  exact congrArg (c :: ·) (lowerFrom_before_concat hc [] t)

/-- White space after a text stays as it is. -/
theorem toLowercase_concat (hc : Text.isWhitespace c = true) (t : Text) :
    L.toLowercase (t ++ [c]) = L.toLowercase t ++ [c] :=
  lowerFrom_concat hc [] t

end Blank

end Letters

namespace Text

variable {α β : Type*}

/-- White space at the two ends of a text does not change what is made of it. -/
structure IgnoresEnds (f : Text → α) : Prop where
  head : ∀ c t, isWhitespace c = true → f (c :: t) = f t
  last : ∀ c t, isWhitespace c = true → f (t ++ [c]) = f t

namespace IgnoresEnds

theorem comp {f : Text → α} (hf : IgnoresEnds f) (g : α → β) : IgnoresEnds fun t => g (f t) :=
  ⟨fun c t hc => congrArg g (hf.head c t hc), fun c t hc => congrArg g (hf.last c t hc)⟩

theorem map₂ {γ : Type*} {f : Text → α} {g : Text → β} (hf : IgnoresEnds f) (hg : IgnoresEnds g)
    (h : α → β → γ) : IgnoresEnds fun t => h (f t) (g t) := by
  constructor
  · intro c t hc
    rw [hf.head c t hc, hg.head c t hc]
  · intro c t hc
    rw [hf.last c t hc, hg.last c t hc]

/-- The lower case keeps white space where it is. -/
theorem lowercase {f : Text → α} (hf : IgnoresEnds f) (L : Letters) :
    IgnoresEnds fun t => f (L.toLowercase t) := by
  constructor
  · intro c t hc
    rw [Letters.toLowercase_cons hc]
    exact hf.head c _ hc
  · intro c t hc
    rw [Letters.toLowercase_concat hc]
    exact hf.last c _ hc

/-- So does a change of characters that are no white space. -/
theorem charMap {f : Text → α} (hf : IgnoresEnds f) {g : Char → Char}
    (hg : ∀ c, isWhitespace c = true → g c = c) : IgnoresEnds fun t => f (t.map g) := by
  constructor
  · intro c t hc
    rw [List.map_cons, hg c hc]
    exact hf.head c _ hc
  · intro c t hc
    rw [List.map_append, List.map_singleton, hg c hc]
    exact hf.last c _ hc

/-- So does a filter that keeps white space. -/
theorem filter {f : Text → α} (hf : IgnoresEnds f) {p : Char → Bool}
    (hp : ∀ c, isWhitespace c = true → p c = true) : IgnoresEnds fun t => f (t.filter p) := by
  constructor
  · intro c t hc
    rw [List.filter_cons_of_pos (hp c hc)]
    exact hf.head c _ hc
  · intro c t hc
    rw [List.filter_append, List.filter_cons_of_pos (hp c hc), List.filter_nil]
    exact hf.last c _ hc

/-- So does a question asked of each of many. -/
theorem any {l : List β} {f : β → Text → Bool} (hf : ∀ x ∈ l, IgnoresEnds (f x)) :
    IgnoresEnds fun t => l.any fun x => f x t := by
  constructor
  · intro c t hc
    rw [Bool.eq_iff_iff, List.any_eq_true, List.any_eq_true]
    refine exists_congr fun x => and_congr_right fun hx => ?_
    rw [(hf x hx).head c t hc]
  · intro c t hc
    rw [Bool.eq_iff_iff, List.any_eq_true, List.any_eq_true]
    refine exists_congr fun x => and_congr_right fun hx => ?_
    rw [(hf x hx).last c t hc]

theorem dropWhile {f : Text → α} (h : ∀ c t, isWhitespace c = true → f (c :: t) = f t)
    (t : Text) : f (t.dropWhile isWhitespace) = f t := by
  induction t with
  | nil => rfl
  | cons c t ih =>
      cases hc : isWhitespace c with
      | false => rw [List.dropWhile_cons_of_neg (by rw [hc]; exact Bool.false_ne_true)]
      | true => rw [List.dropWhile_cons_of_pos hc, ih, h c t hc]

theorem trim {f : Text → α} (hf : IgnoresEnds f) (t : Text) : f (trim t) = f t := by
  have hreverse : ∀ c s, isWhitespace c = true → f (c :: s).reverse = f s.reverse := by
    intro c s hc
    rw [List.reverse_cons]
    exact hf.last c s.reverse hc
  calc
    f (Text.trim t) = f (t.dropWhile isWhitespace).reverse.reverse :=
      dropWhile (f := fun s => f s.reverse) hreverse _
    _ = f (t.dropWhile isWhitespace) := by rw [List.reverse_reverse]
    _ = f t := dropWhile hf.head t

/-- Texts that differ in white space at their ends only are not told apart. -/
theorem eq_of_trim_eq {f : Text → α} (hf : IgnoresEnds f) {s t : Text}
    (h : Text.trim s = Text.trim t) : f s = f t := by
  rw [← hf.trim s, ← hf.trim t, h]

end IgnoresEnds

/-- The words of a text between the characters that separate them. -/
def wordsOn (p : Char → Bool) (t : Text) : List Text := (t.splitOnP p).filter (!·.isEmpty)

theorem ignoresEnds_wordsOn {p : Char → Bool} (hp : ∀ c, isWhitespace c = true → p c = true) :
    IgnoresEnds (wordsOn p) := by
  constructor
  · intro c t hc
    rw [wordsOn, List.splitOnP_cons_eq_if_modifyHead, if_pos (hp c hc)]
    rfl
  · intro c t hc
    rw [wordsOn, List.splitOnP_append_cons t [] (hp c hc), List.filter_append]
    exact List.append_nil _

theorem contains_iff {t sub : Text} : contains t sub = true ↔ sub <:+: t := by
  rw [contains, List.any_eq_true, List.infix_iff_prefix_suffix]
  simp only [List.mem_tails, List.isPrefixOf_iff_prefix, and_comm]

/-- Whether a phrase stands in a text does not depend on white space at the ends of the text. -/
theorem ignoresEnds_contains {phrase : Text} (hne : phrase ≠ [])
    (hhead : ∀ c ∈ phrase.head?, isWhitespace c = false)
    (hlast : ∀ c ∈ phrase.getLast?, isWhitespace c = false) :
    IgnoresEnds fun t => contains t phrase := by
  constructor
  · intro c t hc
    rw [Bool.eq_iff_iff, contains_iff, contains_iff, List.infix_cons_iff]
    refine or_iff_right fun hstart => ?_
    obtain ⟨d, rest, rfl⟩ := List.exists_cons_of_ne_nil hne
    have hd : d = c := (List.cons_prefix_cons.mp hstart).1
    exact absurd hc (hd ▸ Bool.eq_false_iff.mp (hhead d rfl))
  · intro c t hc
    rw [Bool.eq_iff_iff, contains_iff, contains_iff, List.infix_concat_iff]
    refine or_iff_right ?_
    rintro ⟨before, hbefore⟩
    have hends := congrArg List.getLast? hbefore
    rw [List.getLast?_append_of_ne_nil before hne, List.getLast?_concat] at hends
    exact absurd hc (Bool.eq_false_iff.mp (hlast c hends))

theorem ignoresEnds_trim : IgnoresEnds trim := by
  constructor
  · intro c t hc
    rw [trim, List.dropWhile_cons_of_pos hc]
    rfl
  · intro c t hc
    rw [trim, trim, List.dropWhile_append]
    split
    · next hblank =>
        rw [List.isEmpty_iff.mp hblank, List.dropWhile_cons_of_pos hc]
        rfl
    · rw [List.reverse_append, List.reverse_singleton, List.singleton_append,
        List.dropWhile_cons_of_pos hc]

/-- A character that does not separate goes to the last part of a text. -/
theorem splitOnP_concat {p : Char → Bool} {c : Char} (hc : p c = false) (t : Text) :
    ∃ init last, t.splitOnP p = init ++ [last] ∧
      (t ++ [c]).splitOnP p = init ++ [last ++ [c]] := by
  induction t with
  | nil =>
      refine ⟨[], [], List.splitOnP_nil, ?_⟩
      rw [List.nil_append, List.splitOnP_cons_eq_if_modifyHead,
        if_neg (by rw [hc]; exact Bool.false_ne_true)]
      rfl
  | cons d t ih =>
      obtain ⟨init, last, hsplit, hlonger⟩ := ih
      rw [List.cons_append, List.splitOnP_cons_eq_if_modifyHead,
        List.splitOnP_cons_eq_if_modifyHead, hsplit, hlonger]
      split
      · exact ⟨[] :: init, last, rfl, rfl⟩
      · cases init with
        | nil => exact ⟨[], d :: last, rfl, rfl⟩
        | cons first init => exact ⟨(d :: first) :: init, last, rfl, rfl⟩

/-- What is made of the parts of a text ignores the white space at its ends with them. -/
theorem ignoresEnds_map_splitOnP {p : Char → Bool} (hp : ∀ c, isWhitespace c = true → p c = false)
    {g : Text → α} (hg : IgnoresEnds g) : IgnoresEnds fun t => (t.splitOnP p).map g := by
  constructor
  · intro c t hc
    obtain ⟨first, rest, hsplit⟩ := List.exists_cons_of_ne_nil (List.splitOnP_ne_nil p t)
    rw [List.splitOnP_cons_eq_if_modifyHead,
      if_neg (by rw [hp c hc]; exact Bool.false_ne_true), hsplit]
    exact congrArg (· :: rest.map g) (hg.head c first hc)
  · intro c t hc
    obtain ⟨init, last, hsplit, hlonger⟩ := splitOnP_concat (hp c hc) t
    rw [hsplit, hlonger, List.map_append, List.map_append]
    exact congrArg (fun x => init.map g ++ [x]) (hg.last c last hc)

end Text

end Genaryx
