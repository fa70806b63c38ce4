import Genaryx.Base.Text
import Mathlib.Tactic.SplitIfs

/-!
# UTF-8, strictly and with replacement

`pieces` cuts a byte string the way Rust's decoder does: into the encoding of one scalar
value, or into the longest start of an encoding that the next byte breaks off. Strict
decoding asks for every piece to be a scalar value, and lossy decoding replaces each
other piece by U+FFFD.
-/

namespace Genaryx

abbrev Bytes := List UInt8

namespace Utf8

/-- The UTF-8 encoding of one scalar value. -/
def encodeChar (c : Char) : Bytes :=
  let v := c.toNat
  if v < 0x80 then [UInt8.ofNat v]
  else if v < 0x800 then [UInt8.ofNat (0xC0 + v / 64), UInt8.ofNat (0x80 + v % 64)]
  else if v < 0x10000 then
    [UInt8.ofNat (0xE0 + v / 4096), UInt8.ofNat (0x80 + v / 64 % 64),
      UInt8.ofNat (0x80 + v % 64)]
  else
    [UInt8.ofNat (0xF0 + v / 262144), UInt8.ofNat (0x80 + v / 4096 % 64),
      UInt8.ofNat (0x80 + v / 64 % 64), UInt8.ofNat (0x80 + v % 64)]

/-- `str::as_bytes`. -/
def encode (t : Text) : Bytes := t.flatMap encodeChar

/-- `str::len`: the number of bytes. -/
def len (t : Text) : Nat := (encode t).length

/-- A continuation byte. -/
def isCont (b : Nat) : Bool := 0x80 ≤ b && b ≤ 0xBF

/-- The second bytes that may follow the first byte of a three-byte encoding. -/
def isSecondOfThree (a b : Nat) : Bool :=
  if a = 0xE0 then 0xA0 ≤ b && b ≤ 0xBF
  else if a = 0xED then 0x80 ≤ b && b ≤ 0x9F
  else isCont b

/-- The second bytes that may follow the first byte of a four-byte encoding. -/
def isSecondOfFour (a b : Nat) : Bool :=
  if a = 0xF0 then 0x90 ≤ b && b ≤ 0xBF
  else if a = 0xF4 then 0x80 ≤ b && b ≤ 0x8F
  else isCont b

/-- The piece at the start of a byte string: the scalar value it encodes, if it encodes
one, and how many bytes it takes. A byte past the end reads as zero, as in Rust. -/
def first : Bytes → Option Char × Nat
  | [] => (none, 0)
  | b0 :: rest =>
      let a := b0.toNat
      let b := (rest.getD 0 0).toNat
      let c := (rest.getD 1 0).toNat
      let d := (rest.getD 2 0).toNat
      if a < 0x80 then (some (Char.ofNat a), 1)
      else if 0xC2 ≤ a ∧ a ≤ 0xDF then
        if isCont b then (some (Char.ofNat ((a - 0xC0) * 64 + (b - 0x80))), 2) else (none, 1)
      else if 0xE0 ≤ a ∧ a ≤ 0xEF then
        if isSecondOfThree a b then
          if isCont c then
            (some (Char.ofNat ((a - 0xE0) * 4096 + (b - 0x80) * 64 + (c - 0x80))), 3)
          else (none, 2)
        else (none, 1)
      else if 0xF0 ≤ a ∧ a ≤ 0xF4 then
        if isSecondOfFour a b then
          if isCont c then
            if isCont d then
              (some (Char.ofNat ((a - 0xF0) * 262144 + (b - 0x80) * 4096 + (c - 0x80) * 64 +
                (d - 0x80))), 4)
            else (none, 3)
          else (none, 2)
        else (none, 1)
      else (none, 1)

/-- The pieces of a byte string, after passing over `skip` bytes. -/
def piecesFrom : Nat → Bytes → List (Option Char × Nat)
  | _, [] => []
  | skip + 1, _ :: bs => piecesFrom skip bs
  | 0, b :: bs => first (b :: bs) :: piecesFrom ((first (b :: bs)).2 - 1) bs

def pieces (bs : Bytes) : List (Option Char × Nat) := piecesFrom 0 bs

/-- `String::from_utf8_lossy`. -/
def fromUtf8Lossy (bs : Bytes) : Text := (pieces bs).map fun p => p.1.getD '\uFFFD'

/-- `String::from_utf8`. -/
def fromUtf8 (bs : Bytes) : Option Text := (pieces bs).mapM Prod.fst

theorem piecesFrom_eq (skip : Nat) (bs : Bytes) :
    piecesFrom skip bs = pieces (bs.drop skip) := by
  induction bs generalizing skip with
  | nil => cases skip <;> rfl
  | cons b bs ih =>
      cases skip with
      | zero => rfl
      | succ skip => exact ih skip

@[simp] theorem pieces_nil : pieces [] = [] := rfl

theorem first_pos (b : UInt8) (bs : Bytes) : 0 < (first (b :: bs)).2 := by
  simp only [first]
  split_ifs <;> simp

theorem pieces_cons (b : UInt8) (bs : Bytes) :
    pieces (b :: bs) = first (b :: bs) :: pieces ((b :: bs).drop (first (b :: bs)).2) := by
  have hpos := first_pos b bs
  obtain ⟨k, hk⟩ : ∃ k, (first (b :: bs)).2 = k + 1 := ⟨_, (Nat.succ_pred_eq_of_pos hpos).symm⟩
  rw [pieces, piecesFrom, piecesFrom_eq, hk]
  rfl

theorem char_range (c : Char) :
    c.toNat < 0xD800 ∨ 0xDFFF < c.toNat ∧ c.toNat < 0x110000 := c.valid

theorem toNat_ofNat {n : Nat} (h : n < 0xD800 ∨ 0xDFFF < n ∧ n < 0x110000) :
    (Char.ofNat n).toNat = n := by
  have hv : n.isValidChar := h
  rw [Char.ofNat, dif_pos hv]
  rfl

theorem toNat_byte {n : Nat} (h : n < 256) : (UInt8.ofNat n).toNat = n := by
  simp [Nat.mod_eq_of_lt h]

/-- What holds of the first 256 numbers holds of every byte. -/
theorem of_bytes {p : UInt8 → Prop} (h : ∀ n < 256, p (UInt8.ofNat n)) (b : UInt8) : p b := by
  have hb := h b.toNat b.toNat_lt
  rwa [UInt8.ofNat_toNat] at hb

/-- The encoding of a scalar value reads back as that value and nothing else. -/
theorem first_encodeChar (c : Char) (rest : Bytes) :
    first (encodeChar c ++ rest) = (some c, (encodeChar c).length) := by
  have hc := char_range c
  have hback : ∀ n, n = c.toNat → Char.ofNat n = c := fun n hn => by
    rw [hn, Char.ofNat_toNat]
  simp only [encodeChar]
  split_ifs with h1 h2 h3
  · simp only [List.cons_append, List.nil_append, first]
    rw [toNat_byte (by omega), if_pos h1, hback _ rfl]
    rfl
  · simp only [List.cons_append, List.nil_append, first, List.getD_cons_zero]
    rw [toNat_byte (by omega), toNat_byte (by omega), if_neg (by omega), if_pos (by omega),
      if_pos (by simp only [isCont, Bool.and_eq_true, decide_eq_true_eq]; omega),
      hback _ (by omega)]
    rfl
  · simp only [List.cons_append, List.nil_append, first, List.getD_cons_zero,
      List.getD_cons_succ]
    rw [toNat_byte (by omega), toNat_byte (by omega), toNat_byte (by omega),
      if_neg (by omega), if_neg (by omega), if_pos (by omega),
      if_pos (by
        unfold isSecondOfThree isCont
        split_ifs <;> simp only [Bool.and_eq_true, decide_eq_true_eq] <;> omega),
      if_pos (by simp only [isCont, Bool.and_eq_true, decide_eq_true_eq]; omega),
      hback _ (by omega)]
    rfl
  · simp only [List.cons_append, List.nil_append, first, List.getD_cons_zero,
      List.getD_cons_succ]
    rw [toNat_byte (by omega), toNat_byte (by omega), toNat_byte (by omega),
      toNat_byte (by omega), if_neg (by omega), if_neg (by omega), if_neg (by omega),
      if_pos (by omega),
      if_pos (by
        unfold isSecondOfFour isCont
        split_ifs <;> simp only [Bool.and_eq_true, decide_eq_true_eq] <;> omega),
      if_pos (by simp only [isCont, Bool.and_eq_true, decide_eq_true_eq]; omega),
      if_pos (by simp only [isCont, Bool.and_eq_true, decide_eq_true_eq]; omega),
      hback _ (by omega)]
    rfl


theorem getD_of_isCont {l : Bytes} {i : Nat} (h : isCont (l.getD i 0).toNat = true) :
    i < l.length := by
  by_contra hlt
  have hd : l.getD i 0 = 0 := by
    rw [List.getD_eq_getElem?_getD, List.getElem?_eq_none (by omega), Option.getD_none]
  rw [hd] at h
  exact absurd h (by decide)

theorem isCont_iff (b : Nat) : isCont b = true ↔ 0x80 ≤ b ∧ b ≤ 0xBF := by
  simp [isCont]

theorem isSecondOfThree_bounds {a b : Nat} (h : isSecondOfThree a b = true) :
    isCont b = true ∧ (a = 0xE0 → 0xA0 ≤ b) ∧ (a = 0xED → b ≤ 0x9F) := by
  unfold isSecondOfThree at h
  split_ifs at h <;> simp only [isCont, Bool.and_eq_true, decide_eq_true_eq] at * <;> omega

theorem isSecondOfFour_bounds {a b : Nat} (h : isSecondOfFour a b = true) :
    isCont b = true ∧ (a = 0xF0 → 0x90 ≤ b) ∧ (a = 0xF4 → b ≤ 0x8F) := by
  unfold isSecondOfFour at h
  split_ifs at h <;> simp only [isCont, Bool.and_eq_true, decide_eq_true_eq] at * <;> omega

/-- A piece never reaches past the end of the bytes. -/
theorem first_le (bs : Bytes) : (first bs).2 ≤ bs.length := by
  cases bs with
  | nil => simp [first]
  | cons b0 rest =>
      simp only [first, List.length_cons]
      split_ifs with h1 h2 hb h3 hb hc h4 hb hc hd <;> simp only [] <;>
        first
          | omega
          | exact Nat.succ_le_succ (getD_of_isCont hd)
          | exact Nat.succ_le_succ (getD_of_isCont hc)
          | exact Nat.succ_le_succ (getD_of_isCont (isSecondOfThree_bounds hb).1)
          | exact Nat.succ_le_succ (getD_of_isCont (isSecondOfFour_bounds hb).1)
          | exact Nat.succ_le_succ (getD_of_isCont hb)

/-- A piece that encodes no scalar value takes at most three bytes. -/
theorem first_none_le {bs : Bytes} (h : (first bs).1 = none) : (first bs).2 ≤ 3 := by
  cases bs with
  | nil => simp [first]
  | cons b0 rest =>
      simp only [first] at h ⊢
      split_ifs at h ⊢ <;> simp at h ⊢

theorem length_encodeChar (c : Char) : (encodeChar c).length =
    if c.toNat < 0x80 then 1 else if c.toNat < 0x800 then 2
    else if c.toNat < 0x10000 then 3 else 4 := by
  simp only [encodeChar]
  split_ifs <;> rfl

/-- A piece that encodes a scalar value is as long as that value's encoding. -/
theorem length_encodeChar_of_first {bs : Bytes} {c : Char} {w : Nat}
    (h : first bs = (some c, w)) : (encodeChar c).length = w := by
  cases bs with
  | nil => simp [first] at h
  | cons b0 rest =>
      have h0 := b0.toNat_lt
      simp only [first] at h
      split_ifs at h with h1 h2 hb h3 hb hc h4 hb hc hd <;>
        simp only [Prod.mk.injEq, Option.some.injEq, reduceCtorEq, false_and] at h
      · obtain ⟨rfl, rfl⟩ := h
        rw [length_encodeChar, toNat_ofNat (by omega), if_pos h1]
      · obtain ⟨rfl, rfl⟩ := h
        rw [isCont_iff] at hb
        rw [length_encodeChar, toNat_ofNat (by omega), if_neg (by omega), if_pos (by omega)]
      · obtain ⟨rfl, rfl⟩ := h
        obtain ⟨hcont, hlow, hgap⟩ := isSecondOfThree_bounds hb
        rw [isCont_iff] at hcont hc
        rw [length_encodeChar, toNat_ofNat (by omega), if_neg (by omega), if_neg (by omega),
          if_pos (by omega)]
      · obtain ⟨rfl, rfl⟩ := h
        obtain ⟨hcont, hlow, hhigh⟩ := isSecondOfFour_bounds hb
        rw [isCont_iff] at hcont hc hd
        rw [length_encodeChar, toNat_ofNat (by omega), if_neg (by omega), if_neg (by omega),
          if_neg (by omega)]

theorem encodeChar_ne_nil (c : Char) : encodeChar c ≠ [] := by
  simp only [encodeChar]
  split_ifs <;> simp

@[simp] theorem encode_nil : encode [] = [] := rfl

@[simp] theorem encode_cons (c : Char) (t : Text) : encode (c :: t) = encodeChar c ++ encode t :=
  List.flatMap_cons

theorem encode_append (s t : Text) : encode (s ++ t) = encode s ++ encode t :=
  List.flatMap_append

/-- Bytes that start with an encoding have that scalar value as their first piece. -/
theorem pieces_encodeChar (c : Char) (rest : Bytes) :
    pieces (encodeChar c ++ rest) = (some c, (encodeChar c).length) :: pieces rest := by
  obtain ⟨b, bs, hb⟩ := List.exists_cons_of_ne_nil (encodeChar_ne_nil c)
  have hfirst := first_encodeChar c rest
  rw [hb, List.cons_append] at hfirst
  rw [hb, List.cons_append, pieces_cons, hfirst, ← List.cons_append, List.drop_left]

theorem pieces_encode (t : Text) (rest : Bytes) : pieces (encode t ++ rest) =
    (t.map fun c => (some c, (encodeChar c).length)) ++ pieces rest := by
  induction t with
  | nil => rfl
  | cons c t ih => rw [encode_cons, List.append_assoc, pieces_encodeChar, ih]; rfl

/-- The bytes of a text decode to it. -/
theorem fromUtf8_encode (t : Text) : fromUtf8 (encode t) = some t := by
  have h := pieces_encode t []
  rw [List.append_nil, pieces_nil, List.append_nil] at h
  have hall : ∀ s : Text,
      (s.map fun c => (some c, (encodeChar c).length)).mapM Prod.fst = some s := by
    intro s
    induction s with
    | nil => rfl
    | cons c s ih => simp only [List.map_cons, List.mapM_cons, ih]; rfl
  rw [fromUtf8, h, hall]

theorem encode_injective : Function.Injective encode := by
  intro s t h
  have hback := congrArg fromUtf8 h
  rw [fromUtf8_encode, fromUtf8_encode] at hback
  exact Option.some.inj hback

/-- The lossy decoding of a text's bytes is that text. -/
theorem fromUtf8Lossy_encode (t : Text) : fromUtf8Lossy (encode t) = t := by
  have h := pieces_encode t []
  rw [List.append_nil, pieces_nil, List.append_nil] at h
  simp [fromUtf8Lossy, h, Function.comp_def]

/-- A replaced piece is never longer than the three bytes of U+FFFD. -/
theorem snd_le_length_replacement (bs : Bytes) :
    (first bs).2 ≤ (encodeChar ((first bs).1.getD '\uFFFD')).length := by
  cases h : (first bs).1 with
  | none =>
      have hle := first_none_le h
      exact hle
  | some c => exact (length_encodeChar_of_first (Prod.ext h rfl)).ge

/-- Decoding with replacement never shortens a byte string. -/
theorem length_le_len_fromUtf8Lossy (bs : Bytes) : bs.length ≤ len (fromUtf8Lossy bs) := by
  induction hn : bs.length using Nat.strongRecOn generalizing bs with
  | _ n ih =>
      cases bs with
      | nil => simp [← hn]
      | cons b bs =>
          have hpos := first_pos b bs
          have hle := first_le (b :: bs)
          have hlen : ((b :: bs).drop (first (b :: bs)).2).length < n := by
            rw [List.length_drop, hn]
            omega
          have htail := ih _ hlen _ rfl
          have hhead := snd_le_length_replacement (b :: bs)
          rw [List.length_drop, hn] at htail
          simp only [fromUtf8Lossy, len] at htail ⊢
          rw [pieces_cons, List.map_cons, encode_cons, List.length_append]
          omega

end Utf8

end Genaryx
