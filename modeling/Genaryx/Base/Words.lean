import Genaryx.Base.Lines

/-!
# Words and numbers in a line

The string operations of the standard library that take a line apart: its words, a suffix, a
separator from the end, and an unsigned number.
-/

namespace Genaryx.Text

/-- `str::trim_start`. -/
def trimStart (t : Text) : Text := t.dropWhile isWhitespace

/-- `str::split_whitespace`. -/
def splitWhitespace (t : Text) : List Text := (t.splitOnP isWhitespace).filter (!·.isEmpty)

/-- `str::strip_suffix`. -/
def stripSuffix (suffix t : Text) : Option Text :=
  (stripPrefix suffix.reverse t.reverse).map List.reverse

/-- `str::rsplit_once` at a text. -/
def rsplitOnceAt (sep t : Text) : Option (Text × Text) :=
  (splitOnceAt sep.reverse t.reverse).map fun p => (p.2.reverse, p.1.reverse)

/-- `str::contains`. -/
def contains (t sub : Text) : Bool := t.tails.any sub.isPrefixOf

/-- The occurrences of a part in a text that stands after another one, given from its end: what
is before each and what is after it. The next one is looked for where the last one ends. -/
def occurrencesFrom (part : Text) : Text → Nat → Text → List (Text × Text)
  | before, _, [] => if part.isEmpty then [(before, [])] else []
  | before, skip + 1, c :: rest => occurrencesFrom part (c :: before) skip rest
  | before, 0, c :: rest =>
      match stripPrefix part (c :: rest) with
      | some after => (before, after) :: occurrencesFrom part (c :: before) (part.length - 1) rest
      | none => occurrencesFrom part (c :: before) 0 rest

/-- `str::match_indices`: what is before each match, from its end, and what is after it. -/
def occurrences (part t : Text) : List (Text × Text) := occurrencesFrom part [] 0 t

/-- `str::replace` of a part that is not empty, after so many characters of the last match. -/
def replaceFrom (part new : Text) : Nat → Text → Text
  | _, [] => []
  | skip + 1, _ :: rest => replaceFrom part new skip rest
  | 0, c :: rest =>
      match stripPrefix part (c :: rest) with
      | some _ => new ++ replaceFrom part new (part.length - 1) rest
      | none => c :: replaceFrom part new 0 rest

/-- `str::replace` of a part that is not empty. -/
def replace (part new t : Text) : Text := replaceFrom part new 0 t

/-- `bool::to_string`. -/
def displayBool (b : Bool) : Text := if b then "true".toList else "false".toList

/-- `to_string` of a signed integer. -/
def displayInt : Int → Text
  | .ofNat n => decimal n
  | .negSucc n => '-' :: decimal (n + 1)

/-- How many values a `u64` has. -/
def u64Size : Nat := 2 ^ 64

/-- `str::parse::<u64>`: decimal digits, with one plus sign before them at most. -/
def parseU64 (t : Text) : Option Nat :=
  let digits := if t.head? = some '+' then t.tail else t
  if !digits.isEmpty && digits.all Char.isDigit && Nat.ofDigitChars 10 digits 0 < u64Size then
    some (Nat.ofDigitChars 10 digits 0)
  else none

theorem trimStart_append {blank t : Text} (hblank : ∀ c ∈ blank, isWhitespace c = true)
    (ht : ∀ c ∈ t.head?, isWhitespace c = false) : trimStart (blank ++ t) = t := by
  rw [trimStart, List.dropWhile_append_of_pos hblank]
  cases t with
  | nil => rfl
  | cons c t => exact List.dropWhile_cons_of_neg (by rw [ht c rfl]; exact Bool.false_ne_true)

/-- A blank ends what stands before it. -/
theorem splitWhitespace_append (a : Text) {c : Char} (hc : isWhitespace c = true) (t : Text) :
    splitWhitespace (a ++ c :: t) = splitWhitespace a ++ splitWhitespace t := by
  rw [splitWhitespace, List.splitOnP_append_cons a t hc, List.filter_append]
  rfl

/-- A text without blanks is one word. -/
theorem splitWhitespace_word {word : Text} (hword : word ≠ [])
    (hclean : ∀ c ∈ word, isWhitespace c = false) : splitWhitespace word = [word] := by
  rw [splitWhitespace, List.splitOnP_eq_singleton hclean]
  exact List.filter_cons_of_pos (by simpa using hword)

/-- Blanks before the first word do not count. -/
theorem splitWhitespace_blank {blank : Text} (hblank : ∀ c ∈ blank, isWhitespace c = true)
    (t : Text) : splitWhitespace (blank ++ t) = splitWhitespace t := by
  induction blank with
  | nil => rfl
  | cons c blank ih =>
      obtain ⟨hc, hrest⟩ := List.forall_mem_cons.mp hblank
      rw [← ih hrest]
      exact splitWhitespace_append [] hc (blank ++ t)

theorem stripPrefix_eq_none_append {p s : Text} (h : stripPrefix p s = none)
    (hlength : p.length ≤ s.length) (t : Text) : stripPrefix p (s ++ t) = none := by
  rw [stripPrefix_eq_none_iff] at h ⊢
  exact fun hprefix =>
    h (List.prefix_of_prefix_length_le hprefix (List.prefix_append s t) hlength)

/-- A separator is found at the first character that begins it. -/
theorem splitOnceAt_of_head {c : Char} {a : Text} (ha : c ∉ a) (sep b : Text) :
    splitOnceAt (c :: sep) (a ++ c :: (sep ++ b)) = some (a, b) := by
  induction a with
  | nil =>
      rw [List.nil_append, splitOnceAt, ← List.cons_append, stripPrefix_append]
  | cons d a ih =>
      simp only [List.mem_cons, not_or] at ha
      rw [List.cons_append, splitOnceAt, stripPrefix, if_neg ha.1, ih ha.2]
      rfl

/-- A separator is found at the first character that ends it and stands nowhere before. -/
theorem splitOnceAt_of_last {c : Char} {a sep : Text} (ha : c ∉ a) (hsep : c ∉ sep) (b : Text) :
    splitOnceAt (sep ++ [c]) (a ++ (sep ++ c :: b)) = some (a, b) := by
  have hwhole : sep ++ c :: b = sep ++ [c] ++ b := by simp
  induction a with
  | nil =>
      rw [List.nil_append, hwhole]
      obtain ⟨d, rest, hcons⟩ :=
        List.exists_cons_of_ne_nil (List.append_ne_nil_of_right_ne_nil sep (List.cons_ne_nil c []))
      rw [hcons, List.cons_append, splitOnceAt, ← List.cons_append, stripPrefix_append]
  | cons d a ih =>
      simp only [List.mem_cons, not_or] at ha
      have hnone : stripPrefix (sep ++ [c]) (d :: (a ++ (sep ++ c :: b))) = none := by
        rw [stripPrefix_eq_none_iff]
        intro hprefix
        have hwithin : sep ++ [c] <+: (d :: a) ++ sep := by
          refine List.prefix_of_prefix_length_le hprefix ⟨c :: b, by simp⟩ ?_
          simp
        have hmem : c ∈ (d :: a) ++ sep :=
          hwithin.subset (List.mem_append_right sep List.mem_cons_self)
        simp only [List.cons_append, List.mem_cons, List.mem_append] at hmem
        tauto
      rw [List.cons_append, splitOnceAt, hnone, ih ha.2]
      rfl

/-- A text that neither begins nor ends in white space is trimmed to itself. -/
theorem trim_of_ends {t : Text} (hhead : ∀ c, t.head? = some c → isWhitespace c = false)
    (hlast : ∀ c, t.getLast? = some c → isWhitespace c = false) : trim t = t := by
  have hdrop : ∀ s : Text, (∀ c, s.head? = some c → isWhitespace c = false) →
      s.dropWhile isWhitespace = s := by
    intro s hs
    cases s with
    | nil => rfl
    | cons c s =>
        refine List.dropWhile_cons_of_neg ?_
        rw [hs c rfl]
        exact Bool.false_ne_true
  rw [trim, hdrop t hhead, hdrop t.reverse fun c hc => hlast c (List.head?_reverse ▸ hc),
    List.reverse_reverse]

/-- A text without blanks is trimmed to itself. -/
theorem trim_of_clean {t : Text} (h : ∀ c ∈ t, isWhitespace c = false) : trim t = t :=
  trim_of_ends (fun c hc => h c (List.mem_of_mem_head? hc)) fun c hc =>
    h c (List.mem_of_getLast? hc)

theorem stripSuffix_append (t suffix : Text) : stripSuffix suffix (t ++ suffix) = some t := by
  rw [stripSuffix, List.reverse_append, stripPrefix_append]
  simp

theorem mem_intercalate {words : List Text} {c : Char} (h : c ∈ [' '].intercalate words) :
    c = ' ' ∨ ∃ word ∈ words, c ∈ word := by
  induction words with
  | nil => cases h
  | cons word words ih =>
      cases words with
      | nil => exact .inr ⟨word, List.mem_cons_self, by simpa using h⟩
      | cons next rest =>
          rw [List.intercalate_cons_cons, List.append_assoc] at h
          rcases List.mem_append.mp h with hword | hrest
          · exact .inr ⟨word, List.mem_cons_self, hword⟩
          · rcases List.mem_cons.mp hrest with rfl | hrest
            · exact .inl rfl
            · exact (ih hrest).imp_right fun ⟨w, hw, hc⟩ => ⟨w, List.mem_cons_of_mem _ hw, hc⟩

/-- What a text is split into at some characters has none of them, and no others than the text. -/
theorem mem_splitOnP {p : Char → Bool} {t part : Text} (h : part ∈ t.splitOnP p) :
    ∀ c ∈ part, p c = false ∧ c ∈ t := by
  induction t generalizing part with
  | nil =>
      rw [List.splitOnP_nil, List.mem_singleton] at h
      rw [h]
      exact fun c hc => absurd hc List.not_mem_nil
  | cons d t ih =>
      have hrest : ∀ {part : Text}, part ∈ t.splitOnP p → ∀ c ∈ part, p c = false ∧ c ∈ d :: t :=
        fun hpart c hc => ⟨(ih hpart c hc).1, List.mem_cons_of_mem d (ih hpart c hc).2⟩
      rw [List.splitOnP_cons_eq_if_modifyHead] at h
      split at h
      · rcases List.mem_cons.mp h with rfl | h
        · exact fun c hc => absurd hc List.not_mem_nil
        · exact hrest h
      · next hd =>
          obtain ⟨first, others, hsplit⟩ := List.exists_cons_of_ne_nil (List.splitOnP_ne_nil p t)
          rw [hsplit] at h hrest
          rcases List.mem_cons.mp h with rfl | h
          · exact List.forall_mem_cons.mpr ⟨⟨Bool.eq_false_iff.mpr hd, List.mem_cons_self⟩,
              hrest List.mem_cons_self⟩
          · exact hrest (List.mem_cons_of_mem first h)

/-- A character of a text is a separator, or it stands in a part of the text. -/
theorem eq_or_mem_of_mem_splitOn {t : Text} {c : Char} (sep : Char) (h : c ∈ t) :
    c = sep ∨ ∃ part ∈ t.splitOn sep, c ∈ part := by
  have hjoin : [sep].intercalate (t.splitOn sep) = t := List.intercalate_splitOn sep
  rw [← hjoin] at h
  generalize t.splitOn sep = parts at h ⊢
  induction parts with
  | nil => exact absurd h List.not_mem_nil
  | cons part parts ih =>
      cases parts with
      | nil => exact Or.inr ⟨part, List.mem_cons_self, by simpa using h⟩
      | cons next parts =>
          rw [List.intercalate_cons_cons, List.append_assoc, List.mem_append,
            List.mem_append] at h
          rcases h with hpart | hsep | hrest
          · exact Or.inr ⟨part, List.mem_cons_self, hpart⟩
          · exact Or.inl (List.mem_singleton.mp hsep)
          · rcases ih hrest with hc | ⟨p, hp, hc⟩
            · exact Or.inl hc
            · exact Or.inr ⟨p, List.mem_cons_of_mem part hp, hc⟩

/-- The digits of a number are digits of its base. -/
theorem exists_digitChar_of_mem_toDigits {b n : Nat} (hb : 1 < b) {c : Char}
    (h : c ∈ Nat.toDigits b n) : ∃ d < b, c = d.digitChar := by
  induction n using Nat.strong_induction_on with
  | _ n ih =>
      by_cases hn : n < b
      · rw [Nat.toDigits_of_lt_base hn] at h
        exact ⟨n, hn, List.mem_singleton.mp h⟩
      · rw [Nat.toDigits_of_base_le hb (not_lt.mp hn)] at h
        rcases List.mem_append.mp h with h | h
        · exact ih _ (Nat.div_lt_self (by omega) hb) h
        · exact ⟨n % b, Nat.mod_lt n (by omega), List.mem_singleton.mp h⟩

theorem decimal_ne_nil (n : Nat) : decimal n ≠ [] := Nat.toDigits_ne_nil

/-- A signed number is told by how it is written. -/
theorem displayInt_injective : Function.Injective displayInt := by
  intro m n h
  have hsign : ∀ (k : Nat) (t : Text), decimal k ≠ '-' :: t := fun k t hk =>
    absurd (isDigit_of_mem_decimal (hk ▸ List.mem_cons_self)) (by decide)
  cases m with
  | ofNat m =>
      cases n with
      | ofNat n => exact congrArg Int.ofNat (decimal_injective h)
      | negSucc n => exact absurd h (hsign m _)
  | negSucc m =>
      cases n with
      | ofNat n => exact absurd h.symm (hsign n _)
      | negSucc n =>
          have hdigits := decimal_injective (List.cons_inj_right _ |>.mp h)
          exact congrArg Int.negSucc (Nat.succ.inj hdigits)

theorem parseU64_decimal (n : Nat) :
    parseU64 (decimal n) = if n < u64Size then some n else none := by
  have hplain : ∀ c ∈ decimal n, c.isDigit = true := fun c => isDigit_of_mem_decimal
  have hvalue : Nat.ofDigitChars 10 (decimal n) 0 = n := Nat.ofDigitChars_ten_toDigits
  have hsign : (decimal n).head? ≠ some '+' := fun h =>
    absurd (hplain '+' (List.mem_of_mem_head? h)) (by decide)
  have hall : (decimal n).all Char.isDigit = true := List.all_eq_true.mpr hplain
  rw [parseU64]
  simp only [if_neg hsign, hall, hvalue, List.isEmpty_eq_false_iff.mpr (decimal_ne_nil n),
    Bool.not_false, Bool.true_and, decide_eq_true_eq]

/-- A digit is no blank. -/
theorem not_isWhitespace_of_mem_decimal {n : Nat} {c : Char} (h : c ∈ decimal n) :
    isWhitespace c = false := by
  have hdigit := isDigit_of_mem_decimal h
  simp only [Char.isDigit, Bool.and_eq_true, decide_eq_true_eq, UInt32.le_iff_toNat_le] at hdigit
  simp only [isWhitespace, Char.toNat, Bool.or_eq_false_iff, Bool.and_eq_false_iff,
    decide_eq_false_iff_not]
  grind

theorem newline_notMem_decimal (n : Nat) : '\n' ∉ decimal n := fun h =>
  absurd (isDigit_of_mem_decimal h) (by decide)

end Genaryx.Text
