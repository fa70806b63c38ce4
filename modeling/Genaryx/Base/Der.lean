import Genaryx.Base.Utf8
import Mathlib.Data.Nat.Digits.Lemmas

/-!
# Elements of DER

An element is a tag, the octets that spell the length of its value, and the value. A length has
many spellings, in the short form and in the long one; the shortest of them is unique.
-/

namespace Genaryx.Der

/-- The number that bytes spell, the most significant first. -/
def bigEndian (bs : Bytes) : Nat := Nat.ofDigits 256 (bs.reverse.map UInt8.toNat)

/-- The octets that spell a length, in the short form or in the long one. -/
inductive Spells : Bytes → Nat → Prop
  | short {n : Nat} (h : n < 0x80) : Spells [UInt8.ofNat n] n
  | long {digits : Bytes} (hpos : digits ≠ []) (hlen : digits.length < 0x7F) :
      Spells (UInt8.ofNat (0x80 + digits.length) :: digits) (bigEndian digits)

/-- No spelling of the length is shorter. -/
def IsShortest (octets : Bytes) (n : Nat) : Prop :=
  ∀ other, Spells other n → octets.length ≤ other.length

/-- The digits of a number, without a zero in front. -/
def digitsOf (n : Nat) : Bytes := ((Nat.digits 256 n).map UInt8.ofNat).reverse

/-- The shortest spelling of a length. -/
@[irreducible]
def lengthOctets (n : Nat) : Bytes :=
  if n < 0x80 then [UInt8.ofNat n]
  else UInt8.ofNat (0x80 + (digitsOf n).length) :: digitsOf n

/-- An element as it is written. -/
def written (tag : UInt8) (octets value : Bytes) : Bytes := tag :: (octets ++ value)

/-- An element with the shortest spelling of its length. -/
def element (tag : UInt8) (value : Bytes) : Bytes := written tag (lengthOctets value.length) value

/-! ## Digits -/

theorem bigEndian_concat (bs : Bytes) (b : UInt8) :
    bigEndian (bs ++ [b]) = bigEndian bs * 256 + b.toNat := by
  rw [bigEndian, bigEndian, List.reverse_append, List.reverse_singleton, List.singleton_append,
    List.map_cons, Nat.ofDigits_cons]
  ring

/-- Reading digits one after another. -/
theorem foldl_eq_bigEndian (bs : Bytes) :
    bs.foldl (fun acc b => (acc <<< 8) ||| b.toNat) 0 = bigEndian bs := by
  induction bs using List.reverseRecOn with
  | nil => rfl
  | append_singleton bs b ih =>
      rw [List.foldl_append, List.foldl_cons, List.foldl_nil, ih, bigEndian_concat,
        ← Nat.shiftLeft_add_eq_or_of_lt (show b.toNat < 2 ^ 8 from b.toNat_lt), Nat.shiftLeft_eq]

theorem digit_lt {bs : Bytes} : ∀ d ∈ bs.map UInt8.toNat, d < 256 := by
  intro d hd
  obtain ⟨b, -, rfl⟩ := List.mem_map.mp hd
  exact b.toNat_lt

theorem bigEndian_lt (bs : Bytes) : bigEndian bs < 256 ^ bs.length := by
  have hdigits : ∀ d ∈ bs.reverse.map UInt8.toNat, d < 256 := digit_lt
  have h := Nat.ofDigits_lt_base_pow_length (b := 256) (by decide) hdigits
  rwa [List.length_map, List.length_reverse] at h

/-- As many digits that spell the same number are the same. -/
theorem bigEndian_injective {as bs : Bytes} (hlen : as.length = bs.length)
    (h : bigEndian as = bigEndian bs) : as = bs := by
  have hlengths : (as.reverse.map UInt8.toNat).length = (bs.reverse.map UInt8.toNat).length := by
    rw [List.length_map, List.length_map, List.length_reverse, List.length_reverse, hlen]
  have hdigits := Nat.ofDigits_inj_of_len_eq (b := 256) (by decide) hlengths digit_lt digit_lt h
  exact List.reverse_injective (List.map_injective_iff.mpr (fun a b => UInt8.toNat_inj.mp) hdigits)

theorem length_digitsOf (n : Nat) : (digitsOf n).length = (Nat.digits 256 n).length := by
  rw [digitsOf, List.length_reverse, List.length_map]

theorem bigEndian_digitsOf (n : Nat) : bigEndian (digitsOf n) = n := by
  have hbytes : ((Nat.digits 256 n).map UInt8.ofNat).map UInt8.toNat = Nat.digits 256 n := by
    rw [List.map_map]
    refine (List.map_congr_left fun d hd => ?_).trans (List.map_id _)
    exact Utf8.toNat_byte (Nat.digits_lt_base (by decide) hd)
  rw [bigEndian, digitsOf, List.reverse_reverse, hbytes, Nat.ofDigits_digits]

theorem length_digitsOf_le_of_lt {k n : Nat} (h : n < 256 ^ k) : (digitsOf n).length ≤ k := by
  rw [length_digitsOf]
  exact (Nat.digits_length_le_iff (by decide) n).mpr h

/-- No digits of a number are fewer than its own. -/
theorem length_digitsOf_le (bs : Bytes) : (digitsOf (bigEndian bs)).length ≤ bs.length :=
  length_digitsOf_le_of_lt (bigEndian_lt bs)

theorem digitsOf_of_lt {n : Nat} (hpos : 0 < n) (h : n < 256) : digitsOf n = [UInt8.ofNat n] := by
  rw [digitsOf, Nat.digits_of_lt 256 n hpos.ne' h]
  rfl

/-- The last digit is the remainder. -/
theorem digitsOf_eq {n : Nat} (hpos : 0 < n) :
    digitsOf n = digitsOf (n / 256) ++ [UInt8.ofNat n] := by
  have hlast : UInt8.ofNat (n % 256) = UInt8.ofNat n := UInt8.ofNat_mod_size
  rw [digitsOf, digitsOf, Nat.digits_def' (by decide) hpos, List.map_cons, List.reverse_cons, hlast]

/-! ## Spellings of a length -/

theorem Spells.ne_nil {octets : Bytes} {n : Nat} (h : Spells octets n) : octets ≠ [] := by
  cases h with
  | short _ => exact List.cons_ne_nil _ _
  | long _ _ => exact List.cons_ne_nil _ _

/-- No spelling is shorter than the digits of the length alone. -/
theorem Spells.length_lengthOctets_le {octets : Bytes} {n : Nat} (h : Spells octets n) :
    (lengthOctets n).length ≤ octets.length := by
  rw [lengthOctets]
  split_ifs with hshort
  · exact List.length_pos_of_ne_nil h.ne_nil
  · cases h with
    | short h => exact absurd h hshort
    | @long digits hpos hlen => exact Nat.succ_le_succ (length_digitsOf_le digits)

/-- The digits of a length spell it. -/
theorem spells_lengthOctets {k n : Nat} (hk : k < 0x7F) (hn : n < 256 ^ k) :
    Spells (lengthOctets n) n := by
  rw [lengthOctets]
  split_ifs with hshort
  · exact .short hshort
  · have hne : digitsOf n ≠ [] := by
      intro hnil
      have hzero := bigEndian_digitsOf n
      rw [hnil] at hzero
      exact hshort (hzero ▸ (by decide : (0 : Nat) < 0x80))
    have hspells := Spells.long hne (lt_of_le_of_lt (length_digitsOf_le_of_lt hn) hk)
    rwa [bigEndian_digitsOf] at hspells

theorem length_lengthOctets_le {k n : Nat} (hn : n < 256 ^ k) : (lengthOctets n).length ≤ k + 1 := by
  rw [lengthOctets]
  split_ifs with hshort
  · exact Nat.le_add_left 1 k
  · exact Nat.succ_le_succ (length_digitsOf_le_of_lt hn)

/-- What can be spelled is spelled by its own digits. -/
theorem Spells.lengthOctets {octets : Bytes} {n : Nat} (h : Spells octets n) :
    Spells (lengthOctets n) n := by
  cases h with
  | short h => exact spells_lengthOctets (k := 1) (by decide) (h.trans (by decide))
  | long _ hlen => exact spells_lengthOctets hlen (bigEndian_lt _)

/-- A spelling as short as the shortest is that one. -/
theorem Spells.eq_of_length {octets : Bytes} {n : Nat} (h : Spells octets n)
    (hlength : octets.length = (Der.lengthOctets n).length) : octets = Der.lengthOctets n := by
  rw [Der.lengthOctets] at hlength ⊢
  cases h with
  | short h => rw [if_pos h]
  | @long digits hpos hlen =>
      split_ifs at hlength ⊢ with hshort
      · exact absurd (Nat.succ_injective hlength) (List.length_pos_of_ne_nil hpos).ne'
      · have hsame : digits.length = (digitsOf (bigEndian digits)).length :=
          Nat.succ_injective hlength
        have hdigits := bigEndian_injective hsame (bigEndian_digitsOf _).symm
        rw [← hsame, ← hdigits]

/-- **One spelling is the shortest.** -/
theorem Spells.isShortest_iff {octets : Bytes} {n : Nat} (h : Spells octets n) :
    IsShortest octets n ↔ octets = Der.lengthOctets n := by
  constructor
  · exact fun hshortest => h.eq_of_length (le_antisymm (hshortest _ h.lengthOctets)
      h.length_lengthOctets_le)
  · rintro rfl other hother
    exact hother.length_lengthOctets_le

theorem ofNat_injective {m n : Nat} (hm : m < 256) (hn : n < 256)
    (h : UInt8.ofNat m = UInt8.ofNat n) : m = n := by
  have hbytes := congrArg UInt8.toNat h
  rwa [Utf8.toNat_byte hm, Utf8.toNat_byte hn] at hbytes

/-- A spelling tells where it ends. -/
theorem Spells.append_inj {octets octets' rest rest' : Bytes} {n n' : Nat} (h : Spells octets n)
    (h' : Spells octets' n') (heq : octets ++ rest = octets' ++ rest') :
    octets = octets' ∧ n = n' ∧ rest = rest' := by
  cases h with
  | short h =>
      cases h' with
      | short h' =>
          obtain ⟨hfirst, rfl⟩ := List.cons.inj heq
          obtain rfl := ofNat_injective (by omega) (by omega) hfirst
          exact ⟨rfl, rfl, rfl⟩
      | long _ hlen =>
          have hfirst := ofNat_injective (by omega) (by omega) (List.cons.inj heq).1
          omega
  | @long digits hpos hlen =>
      cases h' with
      | short h' =>
          have hfirst := ofNat_injective (by omega) (by omega) (List.cons.inj heq).1
          omega
      | @long digits' hpos' hlen' =>
          obtain ⟨hfirst, htail⟩ := List.cons.inj heq
          have hsame := ofNat_injective (by omega) (by omega) hfirst
          obtain ⟨rfl, rfl⟩ := List.append_inj htail (by omega)
          exact ⟨rfl, rfl, rfl⟩

/-- An element tells its parts and where it ends. -/
theorem written_append_inj {tag tag' : UInt8} {octets octets' value value' rest rest' : Bytes}
    (h : Spells octets value.length) (h' : Spells octets' value'.length)
    (heq : written tag octets value ++ rest = written tag' octets' value' ++ rest') :
    tag = tag' ∧ octets = octets' ∧ value = value' ∧ rest = rest' := by
  rw [written, written, List.cons_append, List.cons_append, List.append_assoc,
    List.append_assoc] at heq
  obtain ⟨rfl, htail⟩ := List.cons.inj heq
  obtain ⟨rfl, hlen, hvalue⟩ := h.append_inj h' htail
  obtain ⟨rfl, rfl⟩ := List.append_inj hvalue hlen
  exact ⟨rfl, rfl, rfl, rfl⟩

theorem written_inj {tag tag' : UInt8} {octets octets' value value' : Bytes}
    (h : Spells octets value.length) (h' : Spells octets' value'.length)
    (heq : written tag octets value = written tag' octets' value') :
    tag = tag' ∧ octets = octets' ∧ value = value' := by
  obtain ⟨htag, hoctets, hvalue, -⟩ :=
    written_append_inj h h' (congrArg (· ++ ([] : Bytes)) heq)
  exact ⟨htag, hoctets, hvalue⟩

end Genaryx.Der
