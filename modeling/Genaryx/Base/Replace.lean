import Genaryx.Base.Words
import Mathlib.Data.Nat.Find

/-!
# Replacing a part of a text

A text is cut at the occurrences of a part, from left to right and each after the end of the last
one. What is put for the part stands between the pieces.
-/

namespace Genaryx.Text

/-- The pieces between the occurrences of a part, the first of which has begun, after so many
characters of the last occurrence. -/
def cutFrom (part begun : Text) : Nat → Text → List Text
  | _, [] => [begun]
  | skip + 1, _ :: rest => cutFrom part begun skip rest
  | 0, c :: rest =>
      match stripPrefix part (c :: rest) with
      | some _ => begun :: cutFrom part [] (part.length - 1) rest
      | none => cutFrom part (begun ++ [c]) 0 rest

/-- `str::split` at a part that is not empty. -/
def cut (part t : Text) : List Text := cutFrom part [] 0 t

section Infix

variable {α : Type*} {w x y : List α}

/-- A word in two texts put together stands in one of them or at the place where they meet. -/
theorem infix_append_iff :
    w <:+: x ++ y ↔ w <:+: x ∨ w <:+: y ∨ ∃ s t, w = s ++ t ∧ s ≠ [] ∧ t ≠ [] ∧ s <:+ x ∧ t <+: y := by
  constructor
  · rintro ⟨a, b, h⟩
    rw [List.append_assoc] at h
    rcases List.append_eq_append_iff.mp h with ⟨m, hx, hwb⟩ | ⟨m, ha, hy⟩
    · -- The word begins in the first text.
      rcases List.append_eq_append_iff.mp hwb with ⟨n, hm, hb⟩ | ⟨n, hw, hy⟩
      · refine .inl ⟨a, n, ?_⟩
        rw [hx, hm, List.append_assoc]
      · rcases eq_or_ne m [] with rfl | hmne
        · refine .inr (.inl ⟨[], b, ?_⟩)
          rw [hy, hw]
          rfl
        · rcases eq_or_ne n [] with rfl | hnne
          · exact .inl ⟨a, [], by rw [hx, hw]; simp⟩
          · exact .inr (.inr ⟨m, n, hw, hmne, hnne, ⟨a, hx.symm⟩, ⟨b, hy.symm⟩⟩)
    · exact .inr (.inl ⟨m, b, by rw [hy, List.append_assoc]⟩)
  · rintro (h | h | ⟨s, t, rfl, _, _, ⟨a, rfl⟩, ⟨b, rfl⟩⟩)
    · exact List.infix_append_of_infix_left h
    · exact List.infix_append_of_infix_right h
    · exact ⟨a, b, by simp⟩

/-- A word without a separator stands on one side of it. -/
theorem infix_append_cons_iff {sep : α} (hw : sep ∉ w) :
    w <:+: x ++ sep :: y ↔ w <:+: x ∨ w <:+: y := by
  constructor
  · intro h
    rcases infix_append_iff.mp h with hx | hy | ⟨s, t, rfl, _, ht, _, hprefix⟩
    · exact .inl hx
    · rw [List.infix_cons_iff] at hy
      rcases hy with ⟨b, hb⟩ | hy
      · cases w with
        | nil => exact .inl List.nil_infix
        | cons c w =>
            have hc : c = sep := (List.cons.inj hb).1
            exact absurd List.mem_cons_self (hc ▸ hw)
      · exact .inr hy
    · obtain ⟨c, t, rfl⟩ := List.exists_cons_of_ne_nil ht
      have hc : c = sep := (List.cons_prefix_cons.mp hprefix).1
      exact absurd (List.mem_append_right s List.mem_cons_self) (hc ▸ hw)
  · rintro (h | h)
    · exact List.infix_append_of_infix_left h
    · exact List.infix_append_of_infix_right (h.trans (List.suffix_cons sep y).isInfix)

end Infix

section Cut

variable {part : Text}

theorem cutFrom_ne_nil (begun : Text) (skip : Nat) (t : Text) : cutFrom part begun skip t ≠ [] := by
  induction t generalizing begun skip with
  | nil => cases skip <;> exact List.cons_ne_nil _ _
  | cons c t ih =>
      cases skip with
      | succ skip => exact ih begun skip
      | zero =>
          rw [cutFrom]
          split
          · exact List.cons_ne_nil _ _
          · exact ih _ _

/-- A text with a part replaced is its pieces with the new text between them. -/
theorem intercalate_cutFrom (new begun : Text) (skip : Nat) (t : Text) :
    new.intercalate (cutFrom part begun skip t) = begun ++ replaceFrom part new skip t := by
  induction t generalizing begun skip with
  | nil => cases skip <;> simp [cutFrom, replaceFrom]
  | cons c t ih =>
      cases skip with
      | succ skip => exact ih begun skip
      | zero =>
          rw [cutFrom, replaceFrom]
          cases stripPrefix part (c :: t) with
          | some after =>
              obtain ⟨p, ps, hps⟩ := List.exists_cons_of_ne_nil
                (@cutFrom_ne_nil part [] (part.length - 1) t)
              have hrest := ih [] (part.length - 1)
              rw [hps, List.nil_append] at hrest
              simp only [hps, ← hrest, List.intercalate_cons_cons, List.append_assoc]
          | none =>
              simp only [ih, List.append_assoc]
              rfl

theorem replace_eq_intercalate (new t : Text) : replace part new t = new.intercalate (cut part t) :=
  (intercalate_cutFrom new [] 0 t).symm

/-- A piece before which the part is found nowhere earlier than at its end. -/
def Clean (part piece : Text) : Prop :=
  ∀ a b, piece ++ part = a ++ part ++ b → piece.length ≤ a.length

/-- A clean piece does not hold the part. -/
theorem Clean.not_infix (hne : part ≠ []) {piece : Text} (h : Clean part piece) :
    ¬ part <:+: piece := by
  rintro ⟨a, b, rfl⟩
  have hlength := h a (b ++ part) (by simp)
  have hpos := List.length_pos_iff.mpr hne
  simp only [List.length_append] at hlength
  omega

theorem Clean.tail {c : Char} {piece : Text} (h : Clean part (c :: piece)) : Clean part piece := by
  intro a b hab
  have hlength := h (c :: a) b (by rw [List.cons_append, hab]; rfl)
  simpa using hlength

/-- The part is not found at the front of a clean piece. -/
theorem Clean.stripPrefix_eq_none {c : Char} {piece : Text} (h : Clean part (c :: piece))
    (rest : Text) : stripPrefix part (c :: (piece ++ part ++ rest)) = none := by
  rw [stripPrefix_eq_none_iff, ← List.cons_append, ← List.cons_append]
  intro hprefix
  have hwithin : part <+: c :: piece ++ part := by
    refine List.prefix_of_prefix_length_le hprefix (List.prefix_append _ rest) ?_
    rw [List.length_append]
    exact Nat.le_add_left _ _
  obtain ⟨b, hb⟩ := hwithin
  have hlength := h [] b hb.symm
  simp at hlength

theorem cutFrom_skip (begun rest : Text) (gone : Text) :
    cutFrom part begun gone.length (gone ++ rest) = cutFrom part begun 0 rest := by
  induction gone with
  | nil => rfl
  | cons c gone ih => exact ih

/-- A text is cut after a clean piece. -/
theorem cutFrom_append (hne : part ≠ []) {piece : Text} (h : Clean part piece) (begun rest : Text) :
    cutFrom part begun 0 (piece ++ part ++ rest) = (begun ++ piece) :: cut part rest := by
  induction piece generalizing begun with
  | nil =>
      obtain ⟨c, tail, rfl⟩ := List.exists_cons_of_ne_nil hne
      have hstrip : stripPrefix (c :: tail) (c :: (tail ++ rest)) = some rest :=
        stripPrefix_append (c :: tail) rest
      rw [List.nil_append, List.cons_append, cutFrom, hstrip, List.append_nil]
      exact congrArg _ (cutFrom_skip [] rest tail)
  | cons c piece ih =>
      rw [List.cons_append, List.cons_append, cutFrom, h.stripPrefix_eq_none rest]
      simp only
      rw [ih h.tail, List.append_assoc]
      rfl

/-- A text that does not hold the part is one piece. -/
theorem cutFrom_of_not_infix {t : Text} (h : ¬ part <:+: t) (begun : Text) :
    cutFrom part begun 0 t = [begun ++ t] := by
  induction t generalizing begun with
  | nil => rw [cutFrom, List.append_nil]
  | cons c t ih =>
      rw [List.infix_cons_iff, not_or] at h
      rw [cutFrom, stripPrefix_eq_none_iff.mpr h.1]
      simp only
      rw [ih h.2, List.append_assoc]
      rfl

theorem cut_append (hne : part ≠ []) {piece : Text} (h : Clean part piece) (rest : Text) :
    cut part (piece ++ part ++ rest) = piece :: cut part rest :=
  cutFrom_append hne h [] rest

theorem cut_of_not_infix {t : Text} (h : ¬ part <:+: t) : cut part t = [t] :=
  cutFrom_of_not_infix h []

/-- Every text is cut at clean pieces, and what is left of it does not hold the part. -/
theorem cut_cases (hne : part ≠ []) (t : Text) :
    (¬ part <:+: t ∧ cut part t = [t]) ∨
      ∃ piece rest, t = piece ++ part ++ rest ∧ Clean part piece ∧
        cut part t = piece :: cut part rest := by
  by_cases h : part <:+: t
  · -- The first place where the part is found.
    have hfound : ∃ n, ∃ a b, t = a ++ part ++ b ∧ a.length = n := by
      obtain ⟨a, b, rfl⟩ := h
      exact ⟨_, a, b, rfl, rfl⟩
    classical
    obtain ⟨a, b, hab, hlength⟩ := Nat.find_spec hfound
    have hclean : Clean part a := by
      intro a' b' ha'
      rw [hlength]
      refine Nat.find_min' hfound ⟨a', b' ++ b, ?_, rfl⟩
      rw [hab, ha', List.append_assoc]
    exact .inr ⟨a, b, hab, hclean, hab ▸ cut_append hne hclean b⟩
  · exact .inl ⟨h, cut_of_not_infix h⟩

end Cut

end Genaryx.Text
