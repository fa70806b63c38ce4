import Genaryx.Base.Matches

/-!
# A part between fixed pieces

A text of fixed pieces with a part between each two of them. Where the part stands nowhere
else, replacing it leaves the pieces as they are. Cutting such a text to a length or trimming
it gives pieces again, unless the cut falls into one of the copies.
-/

namespace Genaryx.Text

/-- Fixed pieces: each of the first ones is followed by a copy, the last one is not. -/
structure Pieces where
  first : List Text
  last : Text
  deriving DecidableEq

namespace Pieces

/-- The text with this part for the copies. -/
def fill (part : Text) (ps : Pieces) : Text := ps.first.flatMap (· ++ part) ++ ps.last

@[simp] theorem fill_nil (part last : Text) : fill part ⟨[], last⟩ = last := rfl

@[simp] theorem fill_cons (part p : Text) (l : List Text) (last : Text) :
    fill part ⟨p :: l, last⟩ = p ++ part ++ fill part ⟨l, last⟩ := by
  simp [fill]

theorem length_fill_congr {part part' : Text} (h : part.length = part'.length) (ps : Pieces) :
    (fill part ps).length = (fill part' ps).length := by
  obtain ⟨l, last⟩ := ps
  induction l with
  | nil => rfl
  | cons p l ih => simp only [fill_cons, List.length_append, ih, h]

/-- The part stands between the pieces and nowhere else. -/
def OnlyBetween (part : Text) (ps : Pieces) : Prop :=
  ∀ a b, fill part ps = a ++ part ++ b →
    ∃ l₁ p l₂, ps.first = l₁ ++ p :: l₂ ∧ a = fill part ⟨l₁, p⟩

section OnlyBetween

variable {part p last : Text} {l : List Text}

theorem OnlyBetween.clean (h : OnlyBetween part ⟨p :: l, last⟩) : Clean part p := by
  intro a b hab
  obtain ⟨l₁, q, l₂, hfirst, rfl⟩ := h a (b ++ fill part ⟨l, last⟩) (by
    rw [fill_cons, hab, List.append_assoc])
  cases l₁ with
  | nil =>
      cases hfirst
      exact le_rfl
  | cons r l₁ =>
      cases hfirst
      simp only [fill_cons, List.length_append]
      omega

theorem OnlyBetween.tail (hne : part ≠ []) (h : OnlyBetween part ⟨p :: l, last⟩) :
    OnlyBetween part ⟨l, last⟩ := by
  intro a b hab
  obtain ⟨l₁, q, l₂, hfirst, ha⟩ := h (p ++ part ++ a) b (by
    rw [fill_cons, hab]
    simp only [List.append_assoc])
  cases l₁ with
  | nil =>
      cases hfirst
      have hlength := congrArg List.length ha
      simp only [fill_nil, List.length_append] at hlength
      have hpos := List.length_pos_iff.mpr hne
      omega
  | cons r l₁ =>
      cases hfirst
      rw [fill_cons] at ha
      exact ⟨l₁, q, l₂, rfl, List.append_cancel_left ha⟩

/-- A part that stands between the pieces only is found at no earlier place. -/
theorem OnlyBetween.spaced (hne : part ≠ []) (h : OnlyBetween part ⟨l, last⟩) :
    (∀ p ∈ l, Clean part p) ∧ ¬ part <:+: last := by
  induction l with
  | nil =>
      refine ⟨fun _ hp => absurd hp List.not_mem_nil, fun ⟨a, b, hab⟩ => ?_⟩
      obtain ⟨l₁, p, l₂, hfirst, -⟩ := h a b hab.symm
      exact absurd hfirst (by simp)
  | cons p l ih =>
      obtain ⟨hclean, hlast⟩ := ih (h.tail hne)
      exact ⟨List.forall_mem_cons.mpr ⟨h.clean, hclean⟩, hlast⟩

/-- What does not hold the first character of a word is passed before the word is found. -/
theorem exists_append_of_notMem {c : Char} {x y a w : Text} (hx : c ∉ x)
    (h : x ++ y = a ++ c :: w) : ∃ m, a = x ++ m ∧ y = m ++ c :: w := by
  rcases List.append_eq_append_iff.mp h with ⟨m, ha, hy⟩ | ⟨m, hxa, hcw⟩
  · exact ⟨m, ha, hy⟩
  · cases m with
    | nil => exact ⟨[], by rw [hxa, List.append_nil, List.append_nil], hcw.symm⟩
    | cons d m =>
        have hd : c = d := (List.cons.inj hcw).1
        exact absurd (hxa ▸ List.mem_append_right a (hd ▸ List.mem_cons_self)) hx

/-- A part that begins with a character found nowhere else stands between the pieces only. -/
theorem onlyBetween_of_notMem {c : Char} {w : Text} (hw : c ∉ w) (hl : ∀ p ∈ l, c ∉ p)
    (hlast : c ∉ last) : OnlyBetween (c :: w) ⟨l, last⟩ := by
  induction l with
  | nil =>
      intro a b hab
      rw [fill_nil] at hab
      exact absurd (hab ▸ List.mem_append_left b (List.mem_append_right a List.mem_cons_self)) hlast
  | cons p l ih =>
      obtain ⟨hp, hl⟩ := List.forall_mem_cons.mp hl
      intro a b hab
      rw [fill_cons, List.append_assoc, List.append_assoc a] at hab
      obtain ⟨m, rfl, hm⟩ := exists_append_of_notMem hp hab
      cases m with
      | nil => exact ⟨[], p, l, rfl, by rw [List.append_nil, fill_nil]⟩
      | cons d m =>
          simp only [List.cons_append, List.cons.injEq] at hm
          obtain ⟨rfl, hm⟩ := hm
          obtain ⟨a', rfl, ha'⟩ := exists_append_of_notMem hw hm
          obtain ⟨l₁, q, l₂, rfl, rfl⟩ := ih hl a' b (by rw [ha', List.append_assoc]; rfl)
          refine ⟨p :: l₁, q, l₂, rfl, ?_⟩
          rw [fill_cons, List.append_assoc]
          rfl

end OnlyBetween

section Replace

variable {part : Text}

/-- Replacing a part goes on behind its first occurrence. -/
theorem replace_append (hne : part ≠ []) {p : Text} (h : Clean part p) (new rest : Text) :
    replace part new (p ++ part ++ rest) = p ++ new ++ replace part new rest := by
  rw [replace_eq_intercalate, replace_eq_intercalate, cut_append hne h]
  exact List.intercalate_cons_of_ne_nil (cutFrom_ne_nil _ _ _)

theorem replace_of_not_infix {t : Text} (h : ¬ part <:+: t) (new : Text) :
    replace part new t = t := by
  rw [replace_eq_intercalate, cut_of_not_infix h, List.intercalate_singleton]

/-- Replacing a part that is found only between the pieces leaves the pieces. -/
theorem replace_fill (hne : part ≠ []) {l : List Text} {last : Text}
    (hl : ∀ p ∈ l, Clean part p) (hlast : ¬ part <:+: last) (new : Text) :
    replace part new (fill part ⟨l, last⟩) = fill new ⟨l, last⟩ := by
  induction l with
  | nil => exact replace_of_not_infix hlast new
  | cons p l ih =>
      obtain ⟨hp, hl⟩ := List.forall_mem_cons.mp hl
      rw [fill_cons, fill_cons, replace_append hne hp, ih hl]

end Replace

section Take

/-- The pieces that a text of so many characters is cut to. A copy that the cut falls into
leaves its beginning. -/
def takeFrom (part : Text) (last : Text) : Nat → List Text → Pieces
  | n, [] => ⟨[], last.take n⟩
  | n, p :: l =>
      if n ≤ p.length then ⟨[], p.take n⟩
      else if p.length + part.length ≤ n then
        let cut := takeFrom part last (n - (p.length + part.length)) l
        ⟨p :: cut.first, cut.last⟩
      else ⟨[], p ++ part.take (n - p.length)⟩

/-- How many characters of a copy stand before the cut that falls into it. -/
def cutInto (partLength : Nat) : Nat → List Text → Nat
  | _, [] => 0
  | n, p :: l =>
      if n ≤ p.length then 0
      else if p.length + partLength ≤ n then cutInto partLength (n - (p.length + partLength)) l
      else n - p.length

variable {part : Text}

theorem fill_takeFrom (last : Text) (n : Nat) (l : List Text) :
    fill part (takeFrom part last n l) = (fill part ⟨l, last⟩).take n := by
  induction l generalizing n with
  | nil => rfl
  | cons p l ih =>
      rw [takeFrom, fill_cons]
      split
      · next h =>
          rw [fill_nil, List.append_assoc, List.take_append_of_le_length h]
      · next hp =>
          split
          · next h =>
              have hwhole : (p ++ part).take n = p ++ part := List.take_of_length_le (by
                rw [List.length_append]
                exact h)
              rw [fill_cons, ih, List.take_append, hwhole, List.length_append]
          · next h =>
              have hwhole : p.take n = p := List.take_of_length_le (by omega)
              have hpart : (part ++ fill part ⟨l, last⟩).take (n - p.length) =
                  part.take (n - p.length) := List.take_append_of_le_length (by omega)
              rw [fill_nil, List.append_assoc, List.take_append, hwhole, hpart]

theorem takeFrom_first_subset (last : Text) (n : Nat) (l : List Text) :
    (takeFrom part last n l).first ⊆ l := by
  induction l generalizing n with
  | nil => exact List.nil_subset _
  | cons p l ih =>
      rw [takeFrom]
      split
      · exact List.nil_subset _
      · split
        · exact List.cons_subset_cons p (ih _)
        · exact List.nil_subset _

/-- Parts of one length leave the same pieces where they agree on what stands before the cut. -/
theorem takeFrom_eq_iff {part' : Text} (hlength : part.length = part'.length) (last : Text)
    (n : Nat) (l : List Text) :
    takeFrom part last n l = takeFrom part' last n l ↔
      part.take (cutInto part.length n l) = part'.take (cutInto part.length n l) := by
  induction l generalizing n with
  | nil => simp only [takeFrom, cutInto, List.take_zero]
  | cons p l ih =>
      rw [takeFrom, takeFrom, cutInto, ← hlength]
      split
      · simp only [List.take_zero]
      · split
        · rw [← ih, mk.injEq, List.cons_inj_right, ← mk.injEq]
        · simp only [mk.injEq, true_and, List.append_cancel_left_eq]

theorem takeFrom_first_eq {part' : Text} (hlength : part.length = part'.length) (last : Text)
    (n : Nat) (l : List Text) : (takeFrom part last n l).first = (takeFrom part' last n l).first := by
  induction l generalizing n with
  | nil => rfl
  | cons p l ih =>
      rw [takeFrom, takeFrom, ← hlength]
      split
      · rfl
      · split
        · exact congrArg (p :: ·) (ih _)
        · rfl

/-- A text that is not longer than the cut has no copy that the cut falls into. -/
theorem cutInto_of_length_le {last : Text} {n : Nat} {l : List Text}
    (h : (fill part ⟨l, last⟩).length ≤ n) : cutInto part.length n l = 0 := by
  induction l generalizing n with
  | nil => rfl
  | cons p l ih =>
      rw [fill_cons, List.length_append, List.length_append] at h
      rw [cutInto]
      split
      · rfl
      · rw [if_pos (by omega)]
        exact ih (by omega)

/-- The pieces of a text that is cut to so many characters, with a mark behind them. -/
def cutPieces (part : Text) (n : Nat) (mark : Text) (ps : Pieces) : Pieces :=
  ⟨(takeFrom part ps.last n ps.first).first, (takeFrom part ps.last n ps.first).last ++ mark⟩

theorem fill_cutPieces (n : Nat) (mark : Text) (ps : Pieces) :
    fill part (cutPieces part n mark ps) = (fill part ps).take n ++ mark := by
  rw [← fill_takeFrom, cutPieces, fill, fill, List.append_assoc]

/-- Cut texts with other parts of one length are told apart by the heads of the copy that the
cut falls into, and by nothing else. -/
theorem fill_cutPieces_eq_iff {part' : Text} (hlength : part.length = part'.length)
    (new : Text) (n : Nat) (mark : Text) (ps : Pieces) :
    fill new (cutPieces part n mark ps) = fill new (cutPieces part' n mark ps) ↔
      part.take (cutInto part.length n ps.first) = part'.take (cutInto part.length n ps.first) := by
  have hfirst := takeFrom_first_eq hlength ps.last n ps.first
  rw [← takeFrom_eq_iff hlength ps.last, fill, fill, cutPieces, cutPieces, hfirst,
    List.append_cancel_left_eq, List.append_cancel_right_eq]
  constructor
  · intro hlast
    calc takeFrom part ps.last n ps.first
        = ⟨(takeFrom part ps.last n ps.first).first, (takeFrom part ps.last n ps.first).last⟩ := rfl
      _ = takeFrom part' ps.last n ps.first := by rw [hfirst, hlast]
  · exact fun h => congrArg last h

/-- Replacing the copies in a cut text leaves the cut pieces, if the part does not stand where
the mark meets the last of them. -/
theorem replace_cut (hne : part ≠ []) {ps : Pieces} (h : OnlyBetween part ps) (n : Nat)
    {mark : Text} (hmark : ¬ part <:+: (cutPieces part n mark ps).last) (new : Text) :
    replace part new ((fill part ps).take n ++ mark) = fill new (cutPieces part n mark ps) := by
  rw [← fill_cutPieces]
  exact replace_fill hne
    (fun p hp => (h.spaced hne).1 p (takeFrom_first_subset ps.last n ps.first hp)) hmark new

end Take

section Trim

/-- `str::trim_end`. -/
def trimEnd (t : Text) : Text := (t.reverse.dropWhile isWhitespace).reverse

/-- The pieces with the blanks at their two ends gone. -/
def trim : Pieces → Pieces
  | ⟨[], last⟩ => ⟨[], Text.trim last⟩
  | ⟨p :: l, last⟩ => ⟨trimStart p :: l, trimEnd last⟩

/-- A text that is not blank. -/
def Visible (t : Text) : Prop := ∃ c ∈ t, isWhitespace c = false

instance (t : Text) : Decidable (Visible t) :=
  List.decidableBEx (fun c => isWhitespace c = false) t

/-- Trimming reaches no blank of a copy: there is no copy, or at each end stands a piece that is
not blank or a copy that does not end there in a blank. -/
def KeptByTrim (part : Text) : Pieces → Prop
  | ⟨[], _⟩ => True
  | ⟨p :: _, last⟩ =>
      (Visible p ∨ part.head?.all (!isWhitespace ·) = true) ∧
        (Visible last ∨ part.getLast?.all (!isWhitespace ·) = true)

instance (part : Text) (ps : Pieces) : Decidable (KeptByTrim part ps) := by
  unfold KeptByTrim
  split <;> infer_instance

variable {part : Text}

theorem dropWhile_append_kept {x y : Text}
    (h : Visible x ∨ y.head?.all (!isWhitespace ·) = true) :
    (x ++ y).dropWhile isWhitespace = x.dropWhile isWhitespace ++ y := by
  have hnil : x.dropWhile isWhitespace = [] ↔ ¬ Visible x := by
    simp [List.dropWhile_eq_nil_iff, Visible]
  rw [List.dropWhile_append]
  split
  · next hempty =>
      have hblank := List.isEmpty_iff.mp hempty
      have hy := h.resolve_left (hnil.mp hblank)
      rw [hblank, List.nil_append]
      cases y with
      | nil => rfl
      | cons c y =>
          rw [List.dropWhile_cons_of_neg]
          simpa using hy
  · rfl

/-- What stands before the last piece ends in a copy. -/
theorem exists_fill_cons (part p : Text) (l : List Text) :
    ∃ z, ∀ last, fill part ⟨p :: l, last⟩ = z ++ part ++ last := by
  induction l generalizing p with
  | nil => exact ⟨p, fun last => by rw [fill_cons, fill_nil]⟩
  | cons q l ih =>
      obtain ⟨z, hz⟩ := ih q
      exact ⟨p ++ part ++ z, fun last => by
        rw [fill_cons, hz]
        simp only [List.append_assoc]⟩

/-- A trimmed text is its trimmed pieces. -/
theorem trim_fill (hne : part ≠ []) {ps : Pieces} (h : KeptByTrim part ps) :
    Text.trim (fill part ps) = fill part ps.trim := by
  obtain ⟨l, last⟩ := ps
  cases l with
  | nil => rfl
  | cons p l =>
      obtain ⟨hstart, hend⟩ := h
      have hhead : ∀ rest, (part ++ rest).head? = part.head? := fun rest => by
        cases part with
        | nil => exact absurd rfl hne
        | cons c w => rfl
      have hreverse : ∀ z : Text, (part.reverse ++ z).head? = part.getLast? := fun z => by
        rw [List.head?_append_of_ne_nil _ (by simpa using hne), List.head?_reverse]
      have hvisible : Visible last.reverse ↔ Visible last := by simp [Visible]
      have hfirst : trimStart (fill part ⟨p :: l, last⟩) = fill part ⟨trimStart p :: l, last⟩ := by
        rw [fill_cons, fill_cons, List.append_assoc, List.append_assoc]
        refine dropWhile_append_kept ?_
        rwa [hhead]
      obtain ⟨z, hz⟩ := exists_fill_cons part (trimStart p) l
      calc Text.trim (fill part ⟨p :: l, last⟩)
          = trimEnd (trimStart (fill part ⟨p :: l, last⟩)) := rfl
        _ = trimEnd (z ++ part ++ last) := by rw [hfirst, hz]
        _ = z ++ part ++ trimEnd last := by
            rw [trimEnd, List.reverse_append, List.reverse_append, dropWhile_append_kept,
              List.reverse_append, trimEnd]
            · simp
            · rwa [hreverse, hvisible]
        _ = fill part (trim ⟨p :: l, last⟩) := (hz (trimEnd last)).symm

theorem trimEnd_prefix (t : Text) : trimEnd t <+: t := by
  have h := List.reverse_prefix.mpr (List.dropWhile_suffix isWhitespace (l := t.reverse))
  rwa [List.reverse_reverse] at h

theorem clean_of_append {p x : Text} (h : Clean part (x ++ p)) : Clean part p := by
  intro a b hab
  have hlength := h (x ++ a) b (by rw [List.append_assoc, hab]; simp only [List.append_assoc])
  simp only [List.length_append] at hlength
  omega

theorem clean_trimStart {p : Text} (h : Clean part p) : Clean part (trimStart p) := by
  refine clean_of_append (x := p.takeWhile isWhitespace) ?_
  rwa [trimStart, List.takeWhile_append_dropWhile]

/-- Replacing the copies in a trimmed text leaves the trimmed pieces. -/
theorem replace_trim_fill (hne : part ≠ []) {ps : Pieces} (h : OnlyBetween part ps)
    (hkept : KeptByTrim part ps) (new : Text) :
    replace part new (Text.trim (fill part ps)) = fill new ps.trim := by
  rw [trim_fill hne hkept]
  obtain ⟨l, last⟩ := ps
  obtain ⟨hclean, hlast⟩ := h.spaced hne
  cases l with
  | nil =>
      refine replace_fill hne hclean (fun hin => hlast (hin.trans ?_)) new
      exact ( trimEnd_prefix _).isInfix.trans (List.dropWhile_suffix isWhitespace).isInfix
  | cons p l =>
      obtain ⟨hp, hl⟩ := List.forall_mem_cons.mp hclean
      exact replace_fill hne (List.forall_mem_cons.mpr ⟨clean_trimStart hp, hl⟩)
        (fun hin => hlast (hin.trans ( trimEnd_prefix last).isInfix)) new

end Trim

end Pieces

end Genaryx.Text
