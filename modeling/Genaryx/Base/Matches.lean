import Genaryx.Base.Replace

/-!
# The places a search visits

A search for a part goes on at the end of each match, so it does not visit a place that begins
within a match it has made.
-/

namespace Genaryx.Text

/-- A text after which a search for a part has a match. -/
inductive Reached (part : Text) : Text → Prop
  | first {piece : Text} (hclean : Clean part piece) : Reached part piece
  | next {piece before : Text} (hclean : Clean part piece) (h : Reached part before) :
      Reached part (piece ++ part ++ before)

section Clean

variable {part piece : Text}

/-- A clean piece is no longer than what stands before any occurrence. -/
theorem Clean.length_le (h : Clean part piece) {a after rest : Text}
    (heq : a ++ part ++ after = piece ++ part ++ rest) : piece.length ≤ a.length := by
  by_contra hlt
  have hprefix : a ++ part <+: piece ++ part := by
    refine List.prefix_of_prefix_length_le (List.prefix_append (a ++ part) after)
      (heq ▸ List.prefix_append (piece ++ part) rest) ?_
    simp only [List.length_append]
    omega
  obtain ⟨r, hr⟩ := hprefix
  exact hlt (h a r hr.symm)

/-- A clean piece is told by the text that it and the part begin. -/
theorem Clean.unique (h : Clean part piece) {piece' rest rest' : Text} (h' : Clean part piece')
    (heq : piece ++ part ++ rest = piece' ++ part ++ rest') : piece = piece' ∧ rest = rest' := by
  have hlength : piece.length = piece'.length :=
    Nat.le_antisymm (h.length_le heq.symm) (h'.length_le heq)
  rw [List.append_assoc, List.append_assoc] at heq
  obtain ⟨hpiece, hrest⟩ := List.append_inj heq hlength
  exact ⟨hpiece, List.append_cancel_left hrest⟩

/-- A piece without the character that begins the part is clean. -/
theorem clean_of_notMem {c : Char} {w : Text} (h : c ∉ piece) : Clean (c :: w) piece := by
  intro a b hab
  rw [List.append_assoc] at hab
  rcases List.append_eq_append_iff.mp hab with ⟨m, ha, _⟩ | ⟨m, hpiece, hw⟩
  · rw [ha, List.length_append]
    exact Nat.le_add_right _ _
  · cases m with
    | nil => rw [hpiece, List.append_nil]
    | cons d m =>
        have hd : c = d := (List.cons.inj hw).1
        exact absurd (hpiece ▸ List.mem_append_right a (hd ▸ List.mem_cons_self)) h

/-- A word is looked for behind what does not hold the character that begins it. -/
theorem cons_infix_append_iff {c : Char} {w a t : Text} (h : c ∉ a) :
    c :: w <:+: a ++ t ↔ c :: w <:+: t := by
  induction a with
  | nil => rfl
  | cons d a ih =>
      rw [List.mem_cons, not_or] at h
      rw [List.cons_append, List.infix_cons_iff, ih h.2]
      exact or_iff_right fun hstart => h.1 (List.cons_prefix_cons.mp hstart).1

end Clean

section Occurrences

variable {part : Text}

theorem occurrencesFrom_skip (before rest gone : Text) :
    occurrencesFrom part before gone.length (gone ++ rest) =
      occurrencesFrom part (gone.reverse ++ before) 0 rest := by
  induction gone generalizing before with
  | nil => rfl
  | cons c gone ih =>
      rw [List.length_cons, List.cons_append, occurrencesFrom, ih, List.reverse_cons,
        List.append_assoc]
      rfl

theorem occurrencesFrom_of_absent {t : Text} (hne : part ≠ []) (h : ¬ part <:+: t)
    (before : Text) : occurrencesFrom part before 0 t = [] := by
  induction t generalizing before with
  | nil => rw [occurrencesFrom, if_neg (by rwa [List.isEmpty_iff])]
  | cons c t ih =>
      rw [List.infix_cons_iff, not_or] at h
      rw [occurrencesFrom, stripPrefix_eq_none_iff.mpr h.1]
      exact ih h.2 (c :: before)

/-- The first match stands after a clean piece, and the search goes on at its end. -/
theorem occurrencesFrom_append (hne : part ≠ []) {piece : Text} (h : Clean part piece)
    (before rest : Text) :
    occurrencesFrom part before 0 (piece ++ part ++ rest) =
      (piece.reverse ++ before, rest) ::
        occurrencesFrom part ((piece ++ part).reverse ++ before) 0 rest := by
  induction piece generalizing before with
  | nil =>
      obtain ⟨c, tail, rfl⟩ := List.exists_cons_of_ne_nil hne
      have hstrip : stripPrefix (c :: tail) (c :: (tail ++ rest)) = some rest :=
        stripPrefix_append (c :: tail) rest
      rw [List.nil_append, List.cons_append, occurrencesFrom, hstrip]
      have hskip := @occurrencesFrom_skip (c :: tail) (c :: before) rest tail
      rw [List.reverse_cons, List.append_assoc]
      exact congrArg ((before, rest) :: ·) hskip
  | cons c piece ih =>
      have hrest := ih h.tail (c :: before)
      rw [List.cons_append, List.cons_append, occurrencesFrom, h.stripPrefix_eq_none rest]
      simp only
      rw [hrest, List.reverse_cons, List.reverse_cons, List.append_assoc, List.append_assoc]
      rfl

/-- The matches of a search are the occurrences it reaches. -/
theorem mem_occurrencesFrom_iff (hne : part ≠ []) {t before x after : Text} :
    (x, after) ∈ occurrencesFrom part before 0 t ↔
      ∃ a, t = a ++ part ++ after ∧ Reached part a ∧ x = a.reverse ++ before := by
  induction hlength : t.length using Nat.strong_induction_on generalizing t before with
  | _ n ih =>
      rcases cut_cases hne t with ⟨hnot, _⟩ | ⟨piece, rest, rfl, hclean, _⟩
      · rw [occurrencesFrom_of_absent hne hnot]
        refine ⟨fun h => absurd h List.not_mem_nil, ?_⟩
        rintro ⟨a, rfl, _⟩
        exact absurd ⟨a, after, rfl⟩ hnot
      · have hshorter : rest.length < n := by
          have hpos := List.length_pos_iff.mpr hne
          rw [← hlength]
          simp only [List.length_append]
          omega
        rw [occurrencesFrom_append hne hclean, List.mem_cons, ih _ hshorter rfl, Prod.mk.injEq]
        constructor
        · rintro (⟨rfl, rfl⟩ | ⟨a, rfl, ha, rfl⟩)
          · exact ⟨piece, rfl, .first hclean, rfl⟩
          · exact ⟨piece ++ part ++ a, by simp only [List.append_assoc], .next hclean ha, by simp⟩
        · rintro ⟨a, heq, ha, rfl⟩
          cases ha with
          | first hfirst =>
              obtain ⟨rfl, rfl⟩ := hclean.unique hfirst heq
              exact .inl ⟨rfl, rfl⟩
          | next hfirst ha =>
              have hassoc := heq
              rw [List.append_assoc (_ ++ part), List.append_assoc (_ ++ part)] at hassoc
              obtain ⟨rfl, hrest⟩ := hclean.unique hfirst hassoc
              exact .inr ⟨_, by rw [hrest, List.append_assoc], ha, by simp⟩

theorem mem_occurrences_iff (hne : part ≠ []) {t x after : Text} :
    (x, after) ∈ occurrences part t ↔
      ∃ a, t = a ++ part ++ after ∧ Reached part a ∧ x = a.reverse := by
  rw [occurrences, mem_occurrencesFrom_iff hne]
  simp only [List.append_nil]

/-- An occurrence is reached, or begins within one that is. -/
theorem reached_or_within (hne : part ≠ []) (a after : Text) :
    Reached part a ∨ ∃ b u, Reached part b ∧ a = b ++ u ∧ u ≠ [] ∧ u.length < part.length ∧
      part <+: u ++ part ++ after := by
  induction hlength : a.length using Nat.strong_induction_on generalizing a with
  | _ n ih =>
      rcases cut_cases hne (a ++ part ++ after) with ⟨hnot, _⟩ | ⟨piece, rest, heq, hclean, _⟩
      · exact absurd ⟨a, after, rfl⟩ hnot
      · have hpiece : piece <+: a ++ part ++ after := ⟨part ++ rest, by rw [heq, List.append_assoc]⟩
        obtain ⟨m, rfl⟩ : piece <+: a :=
          List.prefix_of_prefix_length_le hpiece ⟨part ++ after, by rw [List.append_assoc]⟩
            (hclean.length_le heq)
        have hrest : m ++ part ++ after = part ++ rest := by
          simp only [List.append_assoc] at heq ⊢
          exact List.append_cancel_left heq
        have hwithin : part <+: m ++ part ++ after := ⟨rest, hrest.symm⟩
        rcases eq_or_ne m [] with rfl | hm
        · exact .inl (by rw [List.append_nil]; exact .first hclean)
        · rcases Nat.lt_or_ge m.length part.length with hshort | hlong
          · exact .inr ⟨piece, m, .first hclean, rfl, hm, hshort, hwithin⟩
          · -- The search goes on after the first match.
            obtain ⟨a, rfl⟩ : part <+: m := by
              refine List.prefix_of_prefix_length_le hwithin ?_ hlong
              exact ⟨part ++ after, by rw [List.append_assoc]⟩
            have hshorter : a.length < n := by
              have hpos := List.length_pos_iff.mpr hne
              rw [← hlength]
              simp only [List.length_append]
              omega
            rcases ih a.length hshorter a rfl with ha | ⟨b, u, hb, rfl, hu⟩
            · exact .inl (by rw [← List.append_assoc]; exact .next hclean ha)
            · exact .inr ⟨piece ++ part ++ b, u, .next hclean hb, by simp, hu⟩

end Occurrences

end Genaryx.Text
