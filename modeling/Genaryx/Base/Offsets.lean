import Genaryx.Base.Utf8

/-!
# Byte offsets in a text

A text is taken apart at a byte offset where a character begins.
-/

namespace Genaryx.Utf8

/-- `str::split_at_checked`. -/
def splitAt : Nat → Text → Option (Text × Text)
  | 0, t => some ([], t)
  | _ + 1, [] => none
  | n + 1, c :: t =>
      if (encodeChar c).length ≤ n + 1 then
        (splitAt (n + 1 - (encodeChar c).length) t).map fun p => (c :: p.1, p.2)
      else none

/-- `str::is_char_boundary`. -/
def isCharBoundary (t : Text) (n : Nat) : Bool := (splitAt n t).isSome

/-- The part of a text between two offsets that begin characters. -/
def slice (t : Text) (start stop : Nat) : Text :=
  (((splitAt stop t).bind fun p => splitAt start p.1).map Prod.snd).getD []

theorem length_encodeChar_pos (c : Char) : 0 < (encodeChar c).length :=
  List.length_pos_iff.mpr (encodeChar_ne_nil c)

theorem len_nil : len [] = 0 := rfl

theorem len_cons (c : Char) (t : Text) : len (c :: t) = (encodeChar c).length + len t := by
  rw [len, encode, List.flatMap_cons, List.length_append]
  rfl

theorem len_append (s t : Text) : len (s ++ t) = len s + len t := by
  rw [len, encode_append, List.length_append]
  rfl

theorem len_reverse (t : Text) : len t.reverse = len t := by
  induction t with
  | nil => rfl
  | cons c t ih => rw [List.reverse_cons, len_append, ih, len_cons, len_cons, len_nil]; omega

theorem len_eq_zero_iff {t : Text} : len t = 0 ↔ t = [] := by
  cases t with
  | nil => simp [len_nil]
  | cons c t =>
      have hpos := length_encodeChar_pos c
      rw [len_cons]
      simp only [List.cons_ne_nil, iff_false]
      omega

/-- Each character of an ASCII text is one byte. -/
theorem len_of_ascii {t : Text} (h : ∀ c ∈ t, c.toNat < 0x80) : len t = t.length := by
  induction t with
  | nil => rfl
  | cons c t ih =>
      obtain ⟨hc, ht⟩ := List.forall_mem_cons.mp h
      rw [len_cons, ih ht, encodeChar, if_pos hc, List.length_singleton, List.length_cons]
      omega

theorem splitAt_append (a b : Text) : splitAt (len a) (a ++ b) = some (a, b) := by
  induction a with
  | nil => rw [len_nil, List.nil_append, splitAt]
  | cons c a ih =>
      have hpos := length_encodeChar_pos c
      obtain ⟨n, hn⟩ := Nat.exists_eq_succ_of_ne_zero (n := len (c :: a)) (by rw [len_cons]; omega)
      have hrest : n + 1 - (encodeChar c).length = len a := by
        rw [len_cons] at hn
        omega
      have hle : (encodeChar c).length ≤ n + 1 := by
        rw [len_cons] at hn
        omega
      rw [hn, List.cons_append, splitAt, if_pos hle, hrest, ih]
      rfl

/-- A text splits at an offset into what is before and after it. -/
theorem splitAt_eq_some_iff {n : Nat} {t a b : Text} :
    splitAt n t = some (a, b) ↔ t = a ++ b ∧ len a = n := by
  constructor
  · intro h
    induction t generalizing n a with
    | nil =>
        cases n with
        | zero =>
            cases h
            exact ⟨rfl, rfl⟩
        | succ n => cases h
    | cons c t ih =>
        cases n with
        | zero =>
            cases h
            exact ⟨rfl, rfl⟩
        | succ n =>
            rw [splitAt] at h
            split at h
            · next hle =>
                obtain ⟨⟨a', b'⟩, hsplit, heq⟩ := Option.map_eq_some_iff.mp h
                obtain ⟨rfl, rfl⟩ := Prod.mk.inj heq
                obtain ⟨rfl, hlen⟩ := ih hsplit
                refine ⟨rfl, ?_⟩
                rw [len_cons, hlen]
                omega
            · cases h
  · rintro ⟨rfl, rfl⟩
    exact splitAt_append a b

theorem isCharBoundary_iff {t : Text} {n : Nat} :
    isCharBoundary t n = true ↔ ∃ a b, t = a ++ b ∧ len a = n := by
  rw [isCharBoundary, Option.isSome_iff_exists]
  constructor
  · rintro ⟨⟨a, b⟩, h⟩
    exact ⟨a, b, splitAt_eq_some_iff.mp h⟩
  · rintro ⟨a, b, h⟩
    exact ⟨(a, b), splitAt_eq_some_iff.mpr h⟩

theorem slice_append (a b c : Text) : slice (a ++ b ++ c) (len a) (len a + len b) = b := by
  have hstop : splitAt (len a + len b) (a ++ b ++ c) = some (a ++ b, c) := by
    rw [← len_append]
    exact splitAt_append (a ++ b) c
  rw [slice, hstop, Option.bind_some, splitAt_append]
  rfl

/-- Two beginnings of a text that are equally long in bytes are the same. -/
theorem append_inj {a b c d : Text} (h : a ++ b = c ++ d) (hlen : len a = len c) :
    a = c ∧ b = d := by
  have hsplit := splitAt_append a b
  rw [h, hlen, splitAt_append] at hsplit
  obtain ⟨rfl, rfl⟩ := Prod.mk.inj (Option.some.inj hsplit)
  exact ⟨rfl, rfl⟩

/-- A beginning that is no longer in bytes than another one is a beginning of it. -/
theorem prefix_of_len_le {a b c d : Text} (h : a ++ b = c ++ d) (hlen : len a ≤ len c) :
    ∃ m, c = a ++ m ∧ b = m ++ d := by
  rcases List.append_eq_append_iff.mp h with ⟨m, hc, hb⟩ | ⟨m, ha, hd⟩
  · exact ⟨m, hc, hb⟩
  · rw [ha, len_append] at hlen
    obtain rfl : m = [] := len_eq_zero_iff.mp (by omega)
    rw [List.append_nil] at ha
    exact ⟨[], by rw [ha, List.append_nil], by rw [hd, List.nil_append, List.nil_append]⟩

end Genaryx.Utf8
