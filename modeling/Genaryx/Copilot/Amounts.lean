import Genaryx.Base.Letters

/-!
# Dollar amounts in a text

An amount is read from the digits after a dollar sign, or after or before the word `USD`, in
micro-USD and with how fine it was written.

## Implementation notes

The scan for `USD` carries what stands before it, from its end.
-/

namespace Genaryx.Copilot

variable (L : Letters)

/-- A dollar amount, as written. -/
structure Amount where
  text : Text
  micros : Int
  /-- How fine the writing is: `$0.0013` is good to 100 micro-USD. -/
  step : Int
  deriving DecidableEq

/-- The largest `i128`. -/
def i128Max : Int := 2 ^ 127 - 1

/-- What an `i128` holds of a sum, which a release build does not check. -/
def wrapI128 (n : Int) : Int := n.bmod (2 ^ 128)

/-- `micros` rounded to a multiple of `step`, halves up. -/
def roundsTo (micros step : Int) : Int :=
  let up := wrapI128 (micros + step.tdiv 2)
  wrapI128 (up.tdiv step * step)

/-- The digits at the start of a text, before and after a point, and how many characters they
took. -/
def scanDigits (inFraction : Bool) (whole fraction : Text) (used : Nat) :
    Text → Text × Text × Nat
  | [] => (whole, fraction, used)
  | c :: rest =>
      let nextIsDigit := rest.head?.any Char.isDigit
      if c.isDigit then
        if inFraction then scanDigits inFraction whole (fraction ++ [c]) (used + 1) rest
        else scanDigits inFraction (whole ++ [c]) fraction (used + 1) rest
      else if c = ',' && !inFraction && !whole.isEmpty && nextIsDigit then
        scanDigits inFraction whole fraction (used + 1) rest
      else if c = '.' && !inFraction && nextIsDigit then
        scanDigits true whole fraction (used + 1) rest
      else (whole, fraction, used)

/-- A thousand or a million, written as one letter after the digits. -/
def amountScale (after : Text) : Option Int :=
  if (after.drop 1).head?.any L.isAlphanumeric then none
  else
    match after.head? with
    | some c =>
        if c = 'k' ∨ c = 'K' then some 1000
        else if c = 'm' ∨ c = 'M' then some 1000000
        else none
    | none => none

/-- `checked_mul` of numbers that are not negative. -/
def checkedMul (m n : Int) : Option Int := if m * n ≤ i128Max then some (m * n) else none

/-- What the digits come to in micro-USD, and their step. -/
def amountValue (whole fraction : Text) (scale : Int) : Int × Int :=
  let places := min fraction.length 6
  let digits : Int := Nat.ofDigitChars 10 (whole ++ fraction.take places) 0
  let unit : Int := 10 ^ (6 - places)
  let value := if digits ≤ i128Max then (checkedMul digits unit).bind (checkedMul · scale) else none
  match value with
  | some micros => (micros, unit * scale)
  | none => (i128Max, 1)

/-- A number at the start of a text: its micro-USD, its step, and the characters it took. -/
def parseAmount (s : Text) : Option (Int × Int × Nat) :=
  let (whole, fraction, used) := scanDigits false [] [] 0 s
  if whole.isEmpty && fraction.isEmpty then none
  else
    let scale := amountScale L (s.drop used)
    let value := amountValue whole fraction (scale.getD 1)
    some (value.1, value.2, if scale.isSome then used + 1 else used)

/-- The amounts after a dollar sign. -/
def dollarAmounts : Text → List Amount
  | [] => []
  | c :: rest =>
      let found :=
        if c = '$' then
          (parseAmount L rest).map fun (micros, step, used) =>
            ⟨Text.trim (c :: rest.take used), micros, step⟩
        else none
      found.toList ++ dollarAmounts rest

/-- A character that words are made of. -/
def isWordChar (c : Char) : Bool := L.isAlphanumeric c || c = '_'

/-- A character that a number is made of. -/
def isNumberChar (c : Char) : Bool := c.isDigit || c = ',' || c = '.'

/-- The amount after a word `USD`: "USD 5.00". -/
def amountAfter (unit after : Text) : Option Amount :=
  let rest := Text.trimStart after
  (parseAmount L rest).map fun (micros, step, used) =>
    ⟨Text.trim (unit ++ after.take (after.length - rest.length + used)), micros, step⟩

/-- The amount before a word `USD`: "5.00 USD". What stands before is given from its end. -/
def amountBefore (before unit : Text) : Option Amount :=
  let gap := before.takeWhile Text.isWhitespace
  let number := ((before.dropWhile Text.isWhitespace).takeWhile isNumberChar).reverse
  if number.isEmpty then none
  else
    (parseAmount L number).map fun (micros, step, _) =>
      ⟨Text.trim (number ++ gap.reverse ++ unit), micros, step⟩

/-- The amount of a word `USD` at the start of a text. -/
def usdAmount (before t : Text) : Option Amount :=
  let unit := t.take 3
  let after := t.drop 3
  if unit.map Char.toLower ≠ "usd".toList then none
  else if before.head?.any (isWordChar L) || after.head?.any (isWordChar L) then none
  else (amountAfter L unit after).or (amountBefore L before unit)

/-- The amounts beside a word `USD`. -/
def usdAmounts (before : Text) : Text → List Amount
  | [] => []
  | c :: rest => (usdAmount L before (c :: rest)).toList ++ usdAmounts (c :: before) rest

/-- The amounts without those that repeat the value of an earlier one. -/
def distinctAmounts (found : List Amount) : List Amount :=
  found.foldl (fun out a => if out.any (·.micros = a.micros) then out else out ++ [a]) []

/-- The dollar amounts in a text, each value once. -/
def amounts (text : Text) : List Amount :=
  distinctAmounts (dollarAmounts L text ++ usdAmounts L [] text)

section Ends

open Text (IgnoresEnds isWhitespace)

variable {L} {c : Char}

/-- White space is neither a digit nor a mark of a number, and no letter of a word. -/
structure Blank (L : Letters) (c : Char) : Prop where
  digit : c.isDigit = false
  comma : c ≠ ','
  point : c ≠ '.'
  dollar : c ≠ '$'
  alphanumeric : L.isAlphanumeric c = false
  underscore : c ≠ '_'
  lower : c.toLower = c

theorem blank_of_isWhitespace (hc : isWhitespace c = true) : Blank L c := by
  have hne : ∀ d, isWhitespace d = false → c ≠ d := by
    intro d hd heq
    rw [heq, hd] at hc
    cases hc
  obtain ⟨halpha, hnumeric, _⟩ := L.blank c hc
  obtain ⟨_, hdigit, hlower, _⟩ := Letters.asciiOnly.blank c hc
  exact
    { digit := hdigit
      comma := hne _ (by decide)
      point := hne _ (by decide)
      dollar := hne _ (by decide)
      alphanumeric := by rw [Letters.isAlphanumeric, halpha, hnumeric]; rfl
      underscore := hne _ (by decide)
      lower := List.singleton_inj.mp hlower }

theorem Blank.isWordChar (hc : Blank L c) : isWordChar L c = false := by
  rw [Copilot.isWordChar, hc.alphanumeric, decide_eq_false hc.underscore]
  rfl

theorem Blank.isNumberChar (hc : Blank L c) : isNumberChar c = false := by
  rw [Copilot.isNumberChar, hc.digit, decide_eq_false hc.comma, decide_eq_false hc.point]
  rfl

/-- A first character that does not count is like none. -/
theorem any_head?_concat {p : Char → Bool} (hc : p c = false) (t : Text) :
    (t ++ [c]).head?.any p = t.head?.any p := by
  cases t with
  | nil => exact hc
  | cons d t => rfl

theorem scanDigits_concat (hc : Blank L c) (f : Bool) (whole fraction : Text) (used : Nat)
    (s : Text) : scanDigits f whole fraction used (s ++ [c]) = scanDigits f whole fraction used s := by
  induction s generalizing f whole fraction used with
  | nil =>
      rw [List.nil_append, scanDigits, scanDigits]
      simp only [hc.digit, hc.comma, hc.point, decide_false, Bool.false_and, Bool.false_eq_true,
        if_false]
  | cons d s ih =>
      simp only [List.cons_append, scanDigits, any_head?_concat hc.digit, ih]

theorem scanDigits_used (f : Bool) (whole fraction : Text) (used : Nat) (s : Text) :
    (scanDigits f whole fraction used s).2.2 ≤ used + s.length := by
  induction s generalizing f whole fraction used with
  | nil => exact Nat.le_refl _
  | cons d s ih =>
      have hstep : ∀ f whole fraction,
          (scanDigits f whole fraction (used + 1) s).2.2 ≤ used + (s.length + 1) := by
        intro f whole fraction
        have h := ih f whole fraction (used + 1)
        omega
      rw [scanDigits, List.length_cons]
      split_ifs
      · exact hstep _ _ _
      · exact hstep _ _ _
      · exact hstep _ _ _
      · exact hstep _ _ _
      · exact Nat.le_add_right used _

theorem amountScale_concat (hc : isWhitespace c = true) (after : Text) :
    amountScale L (after ++ [c]) = amountScale L after := by
  have hblank : Blank L c := blank_of_isWhitespace hc
  have hletter : ∀ d, isWhitespace d = false → c ≠ d := by
    intro d hd heq
    rw [heq, hd] at hc
    cases hc
  match after with
  | [] =>
      have hk : ¬ (c = 'k' ∨ c = 'K') :=
        not_or.mpr ⟨hletter _ (by decide), hletter _ (by decide)⟩
      have hm : ¬ (c = 'm' ∨ c = 'M') :=
        not_or.mpr ⟨hletter _ (by decide), hletter _ (by decide)⟩
      simp [amountScale, hk, hm]
  | [d] => simp [amountScale, hblank.alphanumeric]
  | d :: e :: rest => rfl

/-- White space after a number does not change how it is read. -/
theorem parseAmount_concat (hc : isWhitespace c = true) (s : Text) :
    parseAmount L (s ++ [c]) = parseAmount L s := by
  have hused := scanDigits_used false [] [] 0 s
  rw [Nat.zero_add] at hused
  simp only [parseAmount, scanDigits_concat (blank_of_isWhitespace (L := L) hc),
    List.drop_append_of_le_length hused, amountScale_concat hc]

theorem parseAmount_used {s : Text} {micros step : Int} {used : Nat}
    (h : parseAmount L s = some (micros, step, used)) : used ≤ s.length := by
  have hscan := scanDigits_used false [] [] 0 s
  obtain ⟨⟨whole, fraction, digits⟩, hdigits⟩ : ∃ r, scanDigits false [] [] 0 s = r := ⟨_, rfl⟩
  rw [hdigits, Nat.zero_add] at hscan
  simp only [parseAmount, hdigits] at h
  split at h
  · cases h
  · cases h
    split
    · next hscale =>
        have hafter : s.drop digits ≠ [] := by
          intro hnil
          rw [hnil] at hscale
          cases hscale
        have hlength := List.length_pos_iff.mpr hafter
        rw [List.length_drop] at hlength
        omega
    · exact hscan

theorem ignoresEnds_dollarAmounts : IgnoresEnds (dollarAmounts L) := by
  have hnot : ∀ c t, isWhitespace c = true → dollarAmounts L (c :: t) = dollarAmounts L t := by
    intro c t hc
    have hblank : Blank L c := blank_of_isWhitespace hc
    rw [dollarAmounts, if_neg hblank.dollar]
    rfl
  refine ⟨hnot, fun c t hc => ?_⟩
  induction t with
  | nil => exact hnot c [] hc
  | cons d t ih =>
      rw [List.cons_append, dollarAmounts, dollarAmounts, ih, parseAmount_concat hc]
      congr 2
      split
      · cases hparse : parseAmount L t with
        | none => rfl
        | some found =>
            have hused := parseAmount_used hparse
            simp only [Option.map_some, List.take_append_of_le_length hused]
      · rfl

/-- White space before or after a text does not change the amount after a word. -/
theorem amountAfter_concat (hc : isWhitespace c = true) (unit after : Text) :
    amountAfter L unit (after ++ [c]) = amountAfter L unit after := by
  unfold amountAfter Text.trimStart
  simp only [List.dropWhile_append]
  split
  · next hblank =>
      rw [List.isEmpty_iff.mp hblank, List.dropWhile_cons_of_pos hc]
      rfl
  · rw [parseAmount_concat hc]
    cases hparse : parseAmount L (after.dropWhile isWhitespace) with
    | none => rfl
    | some found =>
        obtain ⟨micros, step, used⟩ := found
        have hused := parseAmount_used hparse
        have hrest := (List.dropWhile_suffix (l := after) isWhitespace).length_le
        have hlength : (after ++ [c]).length - (after.dropWhile isWhitespace ++ [c]).length =
            after.length - (after.dropWhile isWhitespace).length := by
          rw [List.length_append, List.length_append]
          exact Nat.add_sub_add_right _ _ _
        have htake : after.length - (after.dropWhile isWhitespace).length + used ≤
            after.length := by
          omega
        simp only [Option.map_some, hlength, List.take_append_of_le_length htake]

theorem takeWhile_concat {p : Char → Bool} (hc : p c = false) (t : Text) :
    (t ++ [c]).takeWhile p = t.takeWhile p := by
  induction t with
  | nil => exact List.takeWhile_cons_of_neg (by rw [hc]; exact Bool.false_ne_true)
  | cons d t ih => rw [List.cons_append, List.takeWhile_cons, List.takeWhile_cons, ih]

/-- Nor does white space far before it change the amount before a word. -/
theorem amountBefore_concat (hc : isWhitespace c = true) (before unit : Text) :
    amountBefore L (before ++ [c]) unit = amountBefore L before unit := by
  have hblank : Blank L c := blank_of_isWhitespace hc
  unfold amountBefore
  cases hrest : before.dropWhile isWhitespace with
  | nil =>
      simp only [List.dropWhile_append, hrest, List.isEmpty_nil, if_true,
        List.dropWhile_cons_of_pos hc]
      rfl
  | cons d rest =>
      have hgap : (before ++ [c]).takeWhile isWhitespace = before.takeWhile isWhitespace := by
        rw [List.takeWhile_append, if_neg]
        intro hall
        have hlength := congrArg List.length
          (List.takeWhile_append_dropWhile (p := isWhitespace) (l := before))
        rw [List.length_append, hall, hrest, List.length_cons] at hlength
        omega
      simp only [List.dropWhile_append, hrest, List.isEmpty_cons, Bool.false_eq_true, if_false,
        takeWhile_concat hblank.isNumberChar, hgap]

theorem usdAmount_blank (hc : isWhitespace c = true) (before t : Text) :
    usdAmount L before (c :: t) = none := by
  have hblank : Blank L c := blank_of_isWhitespace hc
  have hunit : ((c :: t).take 3).map Char.toLower ≠ "usd".toList := by
    intro h
    have hhead := (List.cons.inj h).1
    rw [hblank.lower] at hhead
    rw [hhead] at hc
    exact absurd hc (by decide)
  exact if_pos hunit

theorem usdAmount_concat_before (hc : isWhitespace c = true) (before t : Text) :
    usdAmount L (before ++ [c]) t = usdAmount L before t := by
  have hblank : Blank L c := blank_of_isWhitespace hc
  simp only [usdAmount, any_head?_concat hblank.isWordChar, amountBefore_concat hc]

theorem usdAmount_concat (hc : isWhitespace c = true) (before t : Text) :
    usdAmount L before (t ++ [c]) = usdAmount L before t := by
  have hblank : Blank L c := blank_of_isWhitespace hc
  by_cases hlength : 3 ≤ t.length
  · simp only [usdAmount, List.take_append_of_le_length hlength,
      List.drop_append_of_le_length hlength, any_head?_concat hblank.isWordChar,
      amountAfter_concat hc]
  · -- The word is not whole, with the white space or without it.
    have hshort : (t.take 3).map Char.toLower ≠ "usd".toList := by
      intro h
      have hlen := congrArg List.length h
      rw [List.length_map, List.length_take] at hlen
      have : "usd".toList.length = 3 := rfl
      omega
    have hlonger : ((t ++ [c]).take 3).map Char.toLower ≠ "usd".toList := by
      intro h
      rw [List.take_of_length_le (by rw [List.length_append, List.length_singleton]; omega),
        List.map_append, List.map_singleton, hblank.lower] at h
      have hlast := congrArg List.getLast? h
      rw [List.getLast?_concat] at hlast
      have hd : c = 'd' := Option.some.inj hlast
      rw [hd] at hc
      exact absurd hc (by decide)
    rw [usdAmount, if_pos hlonger, usdAmount, if_pos hshort]

theorem usdAmounts_concat_before (hc : isWhitespace c = true) (before t : Text) :
    usdAmounts L (before ++ [c]) t = usdAmounts L before t := by
  induction t generalizing before with
  | nil => rfl
  | cons d t ih =>
      rw [usdAmounts, usdAmounts, usdAmount_concat_before hc, ← List.cons_append, ih]

theorem usdAmounts_concat (hc : isWhitespace c = true) (before t : Text) :
    usdAmounts L before (t ++ [c]) = usdAmounts L before t := by
  induction t generalizing before with
  | nil =>
      change (usdAmount L before [c]).toList ++ usdAmounts L (c :: before) [] = []
      rw [usdAmount_blank hc]
      rfl
  | cons d t ih =>
      rw [List.cons_append, usdAmounts, usdAmounts, ← List.cons_append, usdAmount_concat hc, ih]

theorem ignoresEnds_usdAmounts : IgnoresEnds (usdAmounts L []) := by
  constructor
  · intro c t hc
    rw [usdAmounts, usdAmount_blank hc]
    exact usdAmounts_concat_before hc [] t
  · intro c t hc
    exact usdAmounts_concat hc [] t

theorem ignoresEnds_amounts : IgnoresEnds (amounts L) :=
  ignoresEnds_dollarAmounts.map₂ ignoresEnds_usdAmounts fun dollars usd =>
    distinctAmounts (dollars ++ usd)

end Ends

end Genaryx.Copilot
