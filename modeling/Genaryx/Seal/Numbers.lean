import Genaryx.Seal.Jcs

/-!
# Written numbers

An integer is read back as itself. A double is read back as itself if it is written with a
fraction or an exponent, and else as an integer if it fits one, which the canonical form may
refuse.
-/

namespace Genaryx.Seal

open Json

variable {F : Type} {D : Double F}

/-- An exponent in range is read back from its text. -/
theorem parseI32_intText {i : Int} (hi : -(2 ^ 31) ≤ i ∧ i < 2 ^ 31) :
    parseI32 (intText i) = some i := by
  have hdigits := isDigits_decimal i.natAbs
  obtain ⟨c, cs, htext⟩ := List.exists_cons_of_ne_nil hdigits.1
  have hc : ∀ d : Char, d.isDigit = false → c ≠ d := by
    rintro d hd rfl
    rw [hdigits.2 c (by rw [htext]; exact List.mem_cons_self)] at hd
    cases hd
  by_cases hneg : i < 0
  · have habs : signed true i.natAbs = i := by
      simp only [signed, if_true]
      omega
    simp [parseI32, intText, hneg, hdigits, habs]
    omega
  · have habs : signed false i.natAbs = i := by
      simp only [signed, Bool.false_eq_true, if_false]
      omega
    have hminus : (Text.decimal i.natAbs).head? ≠ some '-' := by
      rw [htext]
      exact fun h => hc '-' (by decide) (Option.some.inj h)
    have hplus : (Text.decimal i.natAbs).head? ≠ some '+' := by
      rw [htext]
      exact fun h => hc '+' (by decide) (Option.some.inj h)
    simp [parseI32, intText, hneg, hdigits, habs, hminus, hplus]
    omega

/-- The digits of a mantissa with its point in. -/
theorem splitOnce_lowerExp (s : Scientific) :
    ∃ mantissa, Text.splitOnce 'e' (lowerExp s) = some (mantissa, intText s.exponent) ∧
      (mantissa.filter fun c => c ≠ '.') = s.digits := by
  obtain ⟨hne, hdigits⟩ := s.isDigits
  have hplain : ∀ c ∈ s.digits, c ≠ 'e' ∧ c ≠ '.' := by
    intro c hc
    constructor <;>
    · rintro rfl
      exact absurd (hdigits _ hc) (by decide)
  have hfilter : ∀ digits : Text, (∀ c ∈ digits, c ≠ 'e' ∧ c ≠ '.') →
      (digits.filter fun c => c ≠ '.') = digits := by
    intro digits h
    exact List.filter_eq_self.mpr fun c hc => by simpa using (h c hc).2
  rw [lowerExp]
  split
  · next h => exact absurd h hne
  · next d h =>
      rw [h] at hplain
      refine ⟨[d], Text.splitOnce_append 'e' _ _ ?_, by rw [h]; exact hfilter _ hplain⟩
      exact fun hmem => (hplain 'e' hmem).1 rfl
  · next d ds _ h =>
      rw [h] at hplain
      refine ⟨d :: '.' :: ds, Text.splitOnce_append 'e' _ _ ?_, ?_⟩
      · intro hmem
        rcases List.mem_cons.mp hmem with heq | hmem
        · exact (hplain d List.mem_cons_self).1 heq.symm
        · rcases List.mem_cons.mp hmem with heq | hmem
          · cases heq
          · exact (hplain 'e' (List.mem_cons_of_mem _ hmem)).1 rfl
      · rw [h, List.filter_cons_of_pos (by simpa using (hplain d List.mem_cons_self).2),
          List.filter_cons_of_neg (by simp),
          hfilter ds fun c hc => hplain c (List.mem_cons_of_mem _ hc)]

/-- A nonzero double is written from its shortest digits. -/
theorem es6Number_eq {x : F} (hx : D.isZero x = false) :
    es6Number D x = (if D.isNegative x then ['-'] else []) ++
      es6Body (D.shortest x).digits ((D.shortest x).exponent + 1) := by
  obtain ⟨mantissa, hsplit, hdigits⟩ := splitOnce_lowerExp (D.shortest x)
  have hbounds := (D.shortest x).exponent_bounds
  have hparse := parseI32_intText (i := (D.shortest x).exponent) (by omega)
  simp only [es6Number, hx, Bool.false_eq_true, if_false, hsplit, Option.getD_some, hdigits,
    hparse]

variable (D) in
/-- The integer that a nonzero double is written as, if it is written without a fraction
and an exponent. -/
def writtenInteger (x : F) : Option Nat :=
  let s := D.shortest x
  let k : Int := s.digits.length
  let n := s.exponent + 1
  if k ≤ n ∧ n ≤ 21 then some (digitsValue s.digits * 10 ^ (n - k).toNat) else none

/-- The number that a double written as an integer is read back as. -/
def rereadInteger (negative : Bool) (n : Nat) (x : F) : Number F :=
  if negative then
    if h : 0 < n ∧ n ≤ 2 ^ 63 then .negInt n h else .float x
  else if h : n < 2 ^ 64 then .posInt n h
  else .float x

variable (D) in
/-- The number that a written double is read back as. -/
def rereadFloat (x : F) : Number F :=
  if D.isZero x then .posInt 0 (by decide)
  else
    match writtenInteger D x with
    | none => .float x
    | some n => rereadInteger (D.isNegative x) n x

theorem integerNumber_eq {ofDecimal : OfDecimal F} {negative : Bool} {n : Nat} {x : F}
    (h : ofDecimal negative n 0 = some x) :
    integerNumber ofDecimal negative n = some (rereadInteger negative n x) := by
  cases negative <;> simp only [integerNumber, rereadInteger, if_true, Bool.false_eq_true,
    if_false, h, Option.map_some] <;> split <;> rfl

theorem isWhole_of_head {digits : Text} (h : IsDigits digits) (hhead : digits.head? ≠ some '0') :
    IsWhole digits :=
  ⟨h, fun hzero => absurd hzero hhead⟩

theorem isDigits_append_zeros {digits : Text} (h : IsDigits digits) (z : Nat) :
    IsDigits (digits ++ List.replicate z '0') := by
  refine ⟨fun hnil => h.1 (List.append_eq_nil_iff.mp hnil).1, fun c hc => ?_⟩
  rcases List.mem_append.mp hc with hc | hc
  · exact h.2 c hc
  · rw [List.eq_of_mem_replicate hc]
    decide

theorem digitsValue_append_zeros (digits : Text) (z : Nat) :
    digitsValue (digits ++ List.replicate z '0') = digitsValue digits * 10 ^ z := by
  rw [digitsValue_append, digitsValue_replicate_zero, List.length_replicate, Nat.add_zero]

theorem head?_append_zeros {digits : Text} (h : IsDigits digits)
    (hhead : digits.head? ≠ some '0') (z : Nat) :
    (digits ++ List.replicate z '0').head? ≠ some '0' := by
  rwa [List.head?_append_of_ne_nil _ h.1]

/-- Digits that end before the point are written as an integer. -/
theorem exists_literal_of_integer (s : Scientific) (negative : Bool)
    (hk : (s.digits.length : Int) ≤ s.exponent + 1 ∧ s.exponent + 1 ≤ 21) :
    ∃ l : Literal, l.text = (if negative then ['-'] else []) ++ es6Body s.digits (s.exponent + 1) ∧
      ∀ ofDecimal : OfDecimal F, l.number ofDecimal =
        integerNumber ofDecimal negative
          (digitsValue s.digits * 10 ^ (s.exponent + 1 - s.digits.length).toNat) := by
  refine ⟨⟨negative, s.digits ++ List.replicate (s.exponent + 1 - s.digits.length).toNat '0',
    none, none, isWhole_of_head (isDigits_append_zeros s.isDigits _)
      (head?_append_zeros s.isDigits s.head_ne_zero _), by simp, by simp⟩, ?_, fun ofDecimal => ?_⟩
  · simp only [Literal.text, Literal.fractionText, Literal.exponentText, es6Body, if_pos hk,
      List.append_nil]
  · rw [Literal.number, literalNumber, digitsValue_append_zeros]

theorem isWhole_take {s : Scientific} {m : Nat} (hm : 0 < m) : IsWhole (s.digits.take m) := by
  have hhead : (s.digits.take m).head? = s.digits.head? := by
    rw [List.head?_take, if_neg (by omega)]
  have hne : s.digits.take m ≠ [] := by
    intro hnil
    rw [hnil] at hhead
    exact s.isDigits.1 (List.head?_eq_none_iff.mp hhead.symm)
  refine isWhole_of_head ⟨hne, fun c hc => s.isDigits.2 c (List.mem_of_mem_take hc)⟩ ?_
  rw [hhead]
  exact s.head_ne_zero

theorem isDigits_drop {s : Scientific} {m : Nat} (hm : m < s.digits.length) :
    IsDigits (s.digits.drop m) :=
  ⟨List.ne_nil_of_length_pos (by rw [List.length_drop]; omega),
    fun c hc => s.isDigits.2 c (List.mem_of_mem_drop hc)⟩

/-- A literal with these digits and exponent, whose text is the sign and what is written. -/
def WritesDouble (s : Scientific) (negative : Bool) (l : Literal) : Prop :=
  l.text = (if negative then ['-'] else []) ++ es6Body s.digits (s.exponent + 1) ∧
    ∀ (F : Type) (ofDecimal : OfDecimal F), l.number ofDecimal =
      (ofDecimal negative (digitsValue s.digits) (s.exponent - (s.digits.length - 1))).map .float

/-- The point stands between two digits. -/
theorem exists_writesDouble_inside (s : Scientific) (negative : Bool)
    (hk : ¬ ((s.digits.length : Int) ≤ s.exponent + 1 ∧ s.exponent + 1 ≤ 21))
    (hinside : 0 < s.exponent + 1 ∧ s.exponent + 1 ≤ 21) : ∃ l, WritesDouble s negative l := by
  obtain ⟨m, hm⟩ : ∃ m : Nat, (s.exponent + 1).toNat = m := ⟨_, rfl⟩
  have hmk : 0 < m ∧ m < s.digits.length := by omega
  refine ⟨⟨negative, s.digits.take m, some (s.digits.drop m), none, isWhole_take hmk.1,
    fun _ h => Option.some.inj h ▸ isDigits_drop hmk.2, by simp⟩, ?_, fun F ofDecimal => ?_⟩
  · simp only [Literal.text, Literal.fractionText, Literal.exponentText, es6Body, if_neg hk,
      if_pos hinside, hm, List.append_nil]
  · have hscale : (0 : Int) - (s.digits.drop m).length = s.exponent - (s.digits.length - 1) := by
      rw [List.length_drop]
      omega
    simp only [Literal.number, literalNumber, Option.getD_some, Option.map_none,
      Option.getD_none, List.take_append_drop, hscale]

/-- Zeros stand between the point and the digits. -/
theorem exists_writesDouble_small (s : Scientific) (negative : Bool)
    (hsmall : -6 < s.exponent + 1 ∧ s.exponent + 1 ≤ 0) : ∃ l, WritesDouble s negative l := by
  have hlength : 0 < s.digits.length := List.length_pos_of_ne_nil s.isDigits.1
  have hk : ¬ ((s.digits.length : Int) ≤ s.exponent + 1 ∧ s.exponent + 1 ≤ 21) := by omega
  have hinside : ¬ (0 < s.exponent + 1 ∧ s.exponent + 1 ≤ 21) := by omega
  obtain ⟨m, hm⟩ : ∃ m : Nat, (-(s.exponent + 1)).toNat = m := ⟨_, rfl⟩
  have hfraction : IsDigits (List.replicate m '0' ++ s.digits) := by
    refine ⟨fun hnil => s.isDigits.1 (List.append_eq_nil_iff.mp hnil).2, fun c hc => ?_⟩
    rcases List.mem_append.mp hc with hc | hc
    · rw [List.eq_of_mem_replicate hc]
      decide
    · exact s.isDigits.2 c hc
  refine ⟨⟨negative, ['0'], some (List.replicate m '0' ++ s.digits), none, by decide,
    fun _ h => Option.some.inj h ▸ hfraction, by simp⟩, ?_, fun F ofDecimal => ?_⟩
  · simp only [Literal.text, Literal.fractionText, Literal.exponentText, es6Body, if_neg hk,
      if_neg hinside, if_pos hsmall, hm, List.append_nil, List.singleton_append]
  · have hvalue : digitsValue (['0'] ++ (List.replicate m '0' ++ s.digits)) =
        digitsValue s.digits := by
      rw [digitsValue_append, digitsValue_append, show digitsValue ['0'] = 0 from rfl]
      simp
    have hscale : (0 : Int) - (List.replicate m '0' ++ s.digits).length =
        s.exponent - (s.digits.length - 1) := by
      rw [List.length_append, List.length_replicate]
      omega
    simp only [Literal.number, literalNumber, Option.getD_some, Option.map_none,
      Option.getD_none, hvalue, hscale]

/-- An exponent follows the digits. -/
theorem exists_writesDouble_exponent (s : Scientific) (negative : Bool)
    (hlarge : ¬ (-6 < s.exponent + 1 ∧ s.exponent + 1 ≤ 21)) :
    ∃ l, WritesDouble s negative l := by
  have hlength : 0 < s.digits.length := List.length_pos_of_ne_nil s.isDigits.1
  have hk : ¬ ((s.digits.length : Int) ≤ s.exponent + 1 ∧ s.exponent + 1 ≤ 21) := by omega
  have hinside : ¬ (0 < s.exponent + 1 ∧ s.exponent + 1 ≤ 21) := by omega
  have hsmall : ¬ (-6 < s.exponent + 1 ∧ s.exponent + 1 ≤ 0) := by omega
  obtain ⟨e, he⟩ : ∃ e : Bool × Text, e = (decide (s.exponent < 0),
    Text.decimal s.exponent.natAbs) := ⟨_, rfl⟩
  have hdigits : ∀ x, some e = some x → IsDigits x.2 :=
    fun _ h => Option.some.inj h ▸ he ▸ isDigits_decimal _
  have hvalue : signed e.1 (digitsValue e.2) = s.exponent := by
    rw [he, digitsValue_decimal, signed]
    split
    · next h => simp only [decide_eq_true_eq] at h; omega
    · next h => simp only [decide_eq_true_eq] at h; omega
  have htext : 'e' :: (if s.exponent + 1 - 1 < 0 then '-' else '+') ::
      Text.decimal (s.exponent + 1 - 1).natAbs = Literal.exponentText (some e) := by
    simp [Literal.exponentText, he]
  by_cases hone : (s.digits.length : Int) = 1
  · refine ⟨⟨negative, s.digits, none, some e, isWhole_of_head s.isDigits s.head_ne_zero,
      by simp, hdigits⟩, ?_, fun F ofDecimal => ?_⟩
    · simp only [Literal.text, Literal.fractionText, es6Body, if_neg hk, if_neg hinside,
        if_neg hsmall, if_pos hone, htext, List.nil_append]
    · have hscale : s.exponent - (([] : Text).length : Int) =
          s.exponent - (s.digits.length - 1) := by
        rw [hone]
        rfl
      simp only [Literal.number, literalNumber, Option.getD_none, Option.map_some,
        Option.getD_some, List.append_nil, hvalue, hscale]
  · refine ⟨⟨negative, s.digits.take 1, some (s.digits.drop 1), some e, isWhole_take (by omega),
      fun _ h => Option.some.inj h ▸ isDigits_drop (by omega), hdigits⟩, ?_,
      fun F ofDecimal => ?_⟩
    · simp only [Literal.text, Literal.fractionText, es6Body, if_neg hk, if_neg hinside,
        if_neg hsmall, if_neg hone, htext, List.cons_append]
    · have hscale : s.exponent - ((s.digits.drop 1).length : Int) =
          s.exponent - (s.digits.length - 1) := by
        rw [List.length_drop]
        omega
      simp only [Literal.number, literalNumber, Option.getD_some, Option.map_some,
        List.take_append_drop, hvalue, hscale]

/-- Digits that do not end before the point are written with a fraction or an exponent. -/
theorem exists_writesDouble (s : Scientific) (negative : Bool)
    (hk : ¬ ((s.digits.length : Int) ≤ s.exponent + 1 ∧ s.exponent + 1 ≤ 21)) :
    ∃ l, WritesDouble s negative l := by
  by_cases hlarge : -6 < s.exponent + 1 ∧ s.exponent + 1 ≤ 21
  · by_cases hsmall : s.exponent + 1 ≤ 0
    · exact exists_writesDouble_small s negative ⟨hlarge.1, hsmall⟩
    · exact exists_writesDouble_inside s negative hk ⟨not_le.mp hsmall, hlarge.2⟩
  · exact exists_writesDouble_exponent s negative hlarge

/-- A written double denotes the number it is read back as. -/
theorem denotes_es6Number (x : F) :
    Denotes D.ofDecimal (es6Number D x) (.number (rereadFloat D x)) := by
  cases hx : D.isZero x with
  | true =>
      have hzero : es6Number D x = (Literal.text ⟨false, ['0'], none, none, by decide, by simp,
        by simp⟩) := by
        simp [es6Number, hx, Literal.text, Literal.fractionText, Literal.exponentText]
      rw [hzero, rereadFloat, if_pos hx]
      exact .number _ _ rfl
  | false =>
      have hread := D.ofDecimal_shortest x hx
      have hnonzero : ¬ D.isZero x = true := by rw [hx]; exact Bool.false_ne_true
      rw [es6Number_eq hx, rereadFloat, if_neg hnonzero, writtenInteger]
      by_cases hk : ((D.shortest x).digits.length : Int) ≤ (D.shortest x).exponent + 1 ∧
          (D.shortest x).exponent + 1 ≤ 21
      · obtain ⟨l, htext, hnumber⟩ := exists_literal_of_integer (F := F) _ (D.isNegative x) hk
        rw [← htext, if_pos hk]
        refine .number l _ ((hnumber D.ofDecimal).trans ?_)
        have hzeros := hread ((D.shortest x).exponent + 1 - (D.shortest x).digits.length).toNat
        have hscale : (D.shortest x).exponent - ((D.shortest x).digits.length - 1) -
            ((D.shortest x).exponent + 1 - (D.shortest x).digits.length).toNat = 0 := by omega
        rw [hscale] at hzeros
        exact integerNumber_eq hzeros
      · obtain ⟨l, htext, hnumber⟩ := exists_writesDouble (D.shortest x) (D.isNegative x) hk
        rw [← htext, if_neg hk]
        refine .number l _ ((hnumber F D.ofDecimal).trans ?_)
        have hplain := hread 0
        simp only [pow_zero, Nat.mul_one, Nat.cast_zero, Int.sub_zero] at hplain
        rw [hplain, Option.map_some]

/-- The number that a written number is read back as. -/
def rereadNumber (D : Double F) : Number F → Number F
  | .float x => rereadFloat D x
  | n => n

variable (D) in
/-- No double is written as an integer that is read back as one past `2^53 - 1`. -/
def RereadsExactly : Number F → Prop
  | .float x => D.isZero x = false → ∀ n, writtenInteger D x = some n →
      n ≤ maxExactInt ∨ (if D.isNegative x then 2 ^ 63 < n else 2 ^ 64 ≤ n)
  | _ => True

theorem number_posInt {n : Nat} (h : n < 2 ^ 64) :
    number D (.posInt n h) =
      if n ≤ maxExactInt then .ok (Text.decimal n) else .error .integerNotExact := by
  by_cases hi64 : n < 2 ^ 63
  · have htext : intText (n : Int) = Text.decimal n := by simp [intText]
    simp only [number, asI64, if_pos hi64, Int.natAbs_natCast, htext]
  · simp only [number, asI64, if_neg hi64, asU64]

theorem number_negInt {m : Nat} (h : 0 < m ∧ m ≤ 2 ^ 63) :
    number D (.negInt m h) =
      if m ≤ maxExactInt then .ok ('-' :: Text.decimal m) else .error .integerNotExact := by
  have htext : intText (-(m : Int)) = '-' :: Text.decimal m := by
    rw [intText, if_pos (by omega), Int.natAbs_neg, Int.natAbs_natCast]
  simp only [number, asI64, Int.natAbs_neg, Int.natAbs_natCast, htext]

theorem number_float (x : F) : number D (.float x) = .ok (es6Number D x) := rfl

/-- A written number denotes the number it is read back as. -/
theorem denotes_number {n : Number F} {t : Text} (h : number D n = .ok t) :
    Denotes D.ofDecimal t (.number (rereadNumber D n)) := by
  cases n with
  | posInt n hn =>
      rw [number_posInt] at h
      split at h
      · cases h; exact denotes_decimal hn
      · cases h
  | negInt m hm =>
      rw [number_negInt] at h
      split at h
      · cases h; exact denotes_negative hm
      · cases h
  | float x =>
      rw [number_float] at h
      cases h
      exact denotes_es6Number x

/-- A double that is written as an integer is written as its decimal digits. -/
theorem es6Number_of_writtenInteger {x : F} {n : Nat} (hx : D.isZero x = false)
    (hn : writtenInteger D x = some n) :
    0 < n ∧ es6Number D x = (if D.isNegative x then ['-'] else []) ++ Text.decimal n := by
  obtain ⟨hdigits, hhead⟩ := (D.shortest x).isDigits, (D.shortest x).head_ne_zero
  rw [writtenInteger] at hn
  split at hn
  · next hk =>
      cases hn
      have hzeros := isDigits_append_zeros hdigits
        ((D.shortest x).exponent + 1 - (D.shortest x).digits.length).toNat
      refine ⟨Nat.mul_pos (digitsValue_pos hdigits hhead) (Nat.pow_pos (by decide)), ?_⟩
      rw [es6Number_eq hx, es6Body, if_pos hk, ← digitsValue_append_zeros,
        decimal_digitsValue hzeros (head?_append_zeros hdigits hhead _)]
  · cases hn

/-- Reading a written number back and writing it again gives the same text just when the
number is reread exactly. -/
theorem number_rereadNumber {n : Number F} {t : Text} (h : number D n = .ok t) :
    (RereadsExactly D n → number D (rereadNumber D n) = .ok t) ∧
      (¬ RereadsExactly D n → number D (rereadNumber D n) = .error .integerNotExact) := by
  cases n with
  | posInt n hn => exact ⟨fun _ => h, fun hnot => absurd trivial hnot⟩
  | negInt m hm => exact ⟨fun _ => h, fun hnot => absurd trivial hnot⟩
  | float x =>
      rw [number_float] at h
      cases h
      rw [rereadNumber, rereadFloat]
      cases hx : D.isZero x with
      | true =>
          have hzero : es6Number D x = Text.decimal 0 := by
            simp only [es6Number, hx, if_true]
            rfl
          refine ⟨fun _ => ?_, fun hnot => absurd (fun hfalse => ?_) hnot⟩
          · rw [if_pos rfl, number_posInt, if_pos (by decide), hzero]
          · rw [hx] at hfalse
            cases hfalse
      | false =>
          rw [if_neg Bool.false_ne_true]
          cases hwritten : writtenInteger D x with
          | none =>
              refine ⟨fun _ => rfl, fun hnot => absurd (fun _ n hn => ?_) hnot⟩
              rw [hwritten] at hn
              cases hn
          | some n =>
              obtain ⟨hpos, htext⟩ := es6Number_of_writtenInteger hx hwritten
              have hexact : RereadsExactly D (.float x) ↔
                  n ≤ maxExactInt ∨ (if D.isNegative x then 2 ^ 63 < n else 2 ^ 64 ≤ n) := by
                simp only [RereadsExactly, hx, hwritten, Option.some.injEq, forall_eq',
                  forall_const]
              rw [hexact]
              cases hneg : D.isNegative x <;>
                simp only [rereadInteger, hneg, if_true, Bool.false_eq_true, if_false, List.singleton_append,
                  List.nil_append] at htext ⊢
              · split
                · next hfits =>
                    rw [number_posInt, htext]
                    exact ⟨fun hok => if_pos (by omega), fun hnot => if_neg (by omega)⟩
                · next hfits => exact ⟨fun _ => rfl, fun hnot => absurd (Or.inr (by omega)) hnot⟩
              · split
                · next hfits =>
                    rw [number_negInt, htext]
                    exact ⟨fun hok => if_pos (by omega), fun hnot => if_neg (by omega)⟩
                · next hfits => exact ⟨fun _ => rfl, fun hnot => absurd (Or.inr (by omega)) hnot⟩

end Genaryx.Seal

/-!
## What the canonical text denotes

The canonical text of a value denotes the value again, but for its numbers, which are read
back as `rereadNumber` says. Writing that value gives the same text just when every double
is reread exactly.
-/

namespace Genaryx.Seal

open Json

variable {F : Type} {D : Double F}

variable (D) in
/-- The value that a written value is read back as. -/
def reread (v : Value F) : Value F := v.mapNumbers (rereadNumber D)

mutual

/-- The canonical text denotes the value that is read back. -/
theorem denotes_writeValue (v : Value F) {t : Text} (h : writeValue D v = .ok t)
    (hordered : v.Ordered) : Denotes D.ofDecimal t (reread D v) := by
  cases v with
  | null => cases h; exact .null
  | bool b => cases b <;> cases h; exacts [.false, .true]
  | number n => exact denotes_number h
  | string s => cases h; exact .string (denotesText_flatMap_escapeChar s)
  | array items =>
      obtain ⟨ts, hitems, rfl⟩ := writeValue_array_eq_ok.mp h
      exact denotes_array (forall₂_writeItems items hitems hordered)
  | object members =>
      obtain ⟨ps, hmembers, rfl⟩ := writeValue_object_eq_ok.mp h
      refine denotes_object (List.perm_insertionSort utf16Le ps)
        (forall₂_writeMembers members hmembers hordered.2) ?_
      rw [Value.map_fst_mapMembers]
      exact hordered.1

theorem forall₂_writeItems (items : List (Value F)) {ts : List Text}
    (h : writeItems D items = .ok ts) (hordered : Value.ItemsOrdered items) :
    List.Forall₂ (Denotes D.ofDecimal) ts (Value.mapItems (rereadNumber D) items) := by
  cases items with
  | nil => cases h; exact .nil
  | cons v vs =>
      obtain ⟨t, ts, hv, hvs, rfl⟩ := writeItems_cons_eq_ok.mp h
      exact .cons (denotes_writeValue v hv hordered.1) (forall₂_writeItems vs hvs hordered.2)

theorem forall₂_writeMembers (members : List (Text × Value F)) {ps : List (Text × Text)}
    (h : writeMembers D members = .ok ps) (hordered : Value.MembersOrdered members) :
    List.Forall₂ (fun p m => p.1 = m.1 ∧ Denotes D.ofDecimal p.2 m.2) ps
      (Value.mapMembers (rereadNumber D) members) := by
  cases members with
  | nil => cases h; exact .nil
  | cons m ms =>
      obtain ⟨t, ps, hm, hms, rfl⟩ := writeMembers_cons_eq_ok.mp h
      exact .cons ⟨rfl, denotes_writeValue m.2 hm hordered.1⟩
        (forall₂_writeMembers ms hms hordered.2)

end

mutual

/-- Writing the value that is read back gives the same text just when every double is
reread exactly, and is refused otherwise. -/
theorem writeValue_reread (v : Value F) {t : Text} (h : writeValue D v = .ok t) :
    (v.AllNumbers (RereadsExactly D) → writeValue D (reread D v) = .ok t) ∧
      (¬ v.AllNumbers (RereadsExactly D) →
        writeValue D (reread D v) = .error .integerNotExact) := by
  cases v with
  | number n => exact number_rereadNumber h
  | array items =>
      obtain ⟨ts, hitems, rfl⟩ := writeValue_array_eq_ok.mp h
      obtain ⟨hexact, hnot⟩ := writeItems_reread items hitems
      rw [reread, Value.mapNumbers, writeValue]
      exact ⟨fun hall => by rw [hexact hall]; rfl, fun hall => by rw [hnot hall]; rfl⟩
  | object members =>
      obtain ⟨ps, hmembers, rfl⟩ := writeValue_object_eq_ok.mp h
      obtain ⟨hexact, hnot⟩ := writeMembers_reread members hmembers
      rw [reread, Value.mapNumbers, writeValue]
      exact ⟨fun hall => by rw [hexact hall]; rfl, fun hall => by rw [hnot hall]; rfl⟩
  | _ => exact ⟨fun _ => h, fun hnot => absurd trivial hnot⟩

theorem writeItems_reread (items : List (Value F)) {ts : List Text}
    (h : writeItems D items = .ok ts) :
    (Value.AllItems (RereadsExactly D) items →
        writeItems D (Value.mapItems (rereadNumber D) items) = .ok ts) ∧
      (¬ Value.AllItems (RereadsExactly D) items →
        writeItems D (Value.mapItems (rereadNumber D) items) = .error .integerNotExact) := by
  cases items with
  | nil => exact ⟨fun _ => h, fun hnot => absurd trivial hnot⟩
  | cons v vs =>
      obtain ⟨t, ts, hv, hvs, rfl⟩ := writeItems_cons_eq_ok.mp h
      obtain ⟨hvExact, hvNot⟩ := writeValue_reread v hv
      obtain ⟨hvsExact, hvsNot⟩ := writeItems_reread vs hvs
      rw [reread] at hvExact hvNot
      rw [Value.mapItems, writeItems]
      refine ⟨fun hall => by rw [hvExact hall.1, hvsExact hall.2]; rfl, fun hnot => ?_⟩
      by_cases hhead : v.AllNumbers (RereadsExactly D)
      · rw [hvExact hhead, hvsNot fun htail => hnot ⟨hhead, htail⟩]; rfl
      · rw [hvNot hhead]; rfl

theorem writeMembers_reread (members : List (Text × Value F)) {ps : List (Text × Text)}
    (h : writeMembers D members = .ok ps) :
    (Value.AllMembers (RereadsExactly D) members →
        writeMembers D (Value.mapMembers (rereadNumber D) members) = .ok ps) ∧
      (¬ Value.AllMembers (RereadsExactly D) members →
        writeMembers D (Value.mapMembers (rereadNumber D) members) =
          .error .integerNotExact) := by
  cases members with
  | nil => exact ⟨fun _ => h, fun hnot => absurd trivial hnot⟩
  | cons m ms =>
      obtain ⟨t, ps, hm, hms, rfl⟩ := writeMembers_cons_eq_ok.mp h
      obtain ⟨hmExact, hmNot⟩ := writeValue_reread m.2 hm
      obtain ⟨hmsExact, hmsNot⟩ := writeMembers_reread ms hms
      rw [reread] at hmExact hmNot
      rw [Value.mapMembers, writeMembers]
      refine ⟨fun hall => by rw [hmExact hall.1, hmsExact hall.2]; rfl, fun hnot => ?_⟩
      by_cases hhead : m.2.AllNumbers (RereadsExactly D)
      · rw [hmExact hhead, hmsNot fun htail => hnot ⟨hhead, htail⟩]; rfl
      · rw [hmNot hhead]; rfl

end

end Genaryx.Seal
