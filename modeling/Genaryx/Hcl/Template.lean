import Genaryx.Base.Settings
import Mathlib.Data.List.Count

/-!
# Quoted templates

The quoted strings of HCL. A backslash escapes, and a dollar or a percent sign before a brace
begins an interpolation or a directive, unless the sign is doubled. A quoted string ends on the
line it begins on.

## Implementation notes

Only templates without interpolations and directives are read, since those are no fixed text.
The escapes that name a character by its number are left out.
-/

namespace Genaryx.Hcl

open Settings

/-- The escapes of one character after a backslash. -/
def escapes : List (Char × Char) :=
  [('"', '"'), ('\\', '\\'), ('n', '\n'), ('r', '\r'), ('t', '\t')]

/-- A sign that begins an interpolation or a directive before a brace. -/
def isMarker (c : Char) : Bool := c = '$' || c = '%'

def isNewline (c : Char) : Bool := c = '\n' || c = '\r'

/-- How the next character of a template is read. -/
inductive Mode
  | plain
  | literal
  | escaped

/-- Read a template up to its closing quote. -/
def readQuoted : Mode → Text → Option (Text × Text)
  | _, [] => none
  | .escaped, c :: rest =>
      (escapes.lookup c).bind fun d => (readQuoted .plain rest).map fun p => (d :: p.1, p.2)
  | .literal, c :: rest => (readQuoted .plain rest).map fun p => (c :: p.1, p.2)
  | .plain, c :: rest =>
      if c = '"' then some ([], rest)
      else if c = '\\' then readQuoted .escaped rest
      else if isNewline c then none
      else if isMarker c ∧ rest.head? = some '{' then none
      -- a doubled sign before a brace stands for the sign and the brace
      else if isMarker c ∧ rest.head? = some c ∧ rest.tail.head? = some '{' then
        readQuoted .literal rest
      else (readQuoted .plain rest).map fun p => (c :: p.1, p.2)

/-- A text that is on one line and begins no interpolation or directive. -/
structure Plain (t : Text) : Prop where
  line : ∀ c ∈ t, isNewline c = false
  interpolation : ¬ ['$', '{'] <:+: t
  directive : ¬ ['%', '{'] <:+: t

instance (t : Text) : Decidable (Plain t) :=
  decidable_of_iff ((∀ c ∈ t, isNewline c = false) ∧ ¬ ['$', '{'] <:+: t ∧ ¬ ['%', '{'] <:+: t)
    ⟨fun h => ⟨h.1, h.2.1, h.2.2⟩, fun h => ⟨h.line, h.interpolation, h.directive⟩⟩

/-- How many signs of either kind a text has. -/
def markers (t : Text) : Nat := t.countP isMarker

section Backslashed

variable {c : Char} {t : Text}

/-- What is no quote and no backslash begins an escaped text where it begins the text. -/
theorem head?_backslashed {d : Char} (hd : ¬ (d = '\\' ∨ d = '"')) (t rest : Text)
    (hrest : rest.head? ≠ some d) :
    (backslashed t ++ rest).head? = some d ↔ t.head? = some d := by
  cases t with
  | nil => exact iff_of_false hrest (by simp)
  | cons c t =>
      by_cases hc : c = '\\' ∨ c = '"'
      · rw [backslashed_cons_special hc]
        have hslash : '\\' ≠ d := fun h => hd (Or.inl h.symm)
        have hne : c ≠ d := fun h => hd (h ▸ hc)
        simp [hslash, hne]
      · rw [backslashed_cons hc]
        simp

theorem plain_cons_iff : Plain (c :: t) ↔
    isNewline c = false ∧ ¬ (isMarker c ∧ t.head? = some '{') ∧ Plain t := by
  have hpair : ∀ a : Char, [a, '{'] <:+: c :: t ↔
      (a = c ∧ t.head? = some '{') ∨ [a, '{'] <:+: t := fun a => by
    rw [List.infix_cons_iff, List.cons_prefix_cons]
    have hhead : ['{'] <+: t ↔ t.head? = some '{' := by
      cases t with
      | nil => simp
      | cons d t => simp [eq_comm]
    rw [hhead]
  constructor
  · rintro ⟨hline, hdollar, hpercent⟩
    rw [hpair, not_or] at hdollar hpercent
    obtain ⟨hc, ht⟩ := List.forall_mem_cons.mp hline
    refine ⟨hc, ?_, ht, hdollar.2, hpercent.2⟩
    rintro ⟨hmarker, hbrace⟩
    rcases Bool.or_eq_true_iff.mp hmarker with h | h
    · exact hdollar.1 ⟨(of_decide_eq_true h).symm, hbrace⟩
    · exact hpercent.1 ⟨(of_decide_eq_true h).symm, hbrace⟩
  · rintro ⟨hc, hopen, ht⟩
    refine ⟨List.forall_mem_cons.mpr ⟨hc, ht.line⟩, ?_, ?_⟩
    · rw [hpair]
      rintro (⟨rfl, hbrace⟩ | h)
      · exact hopen ⟨rfl, hbrace⟩
      · exact ht.interpolation h
    · rw [hpair]
      rintro (⟨rfl, hbrace⟩ | h)
      · exact hopen ⟨rfl, hbrace⟩
      · exact ht.directive h

end Backslashed

section Read

variable {t rest : Text}

theorem readQuoted_special {c : Char} (h : c = '\\' ∨ c = '"') (rest : Text) :
    readQuoted .plain ('\\' :: c :: rest) = (readQuoted .plain rest).map fun p => (c :: p.1, p.2) := by
  rcases h with rfl | rfl <;> rfl

/-- A plain text is read back up to the quote behind it. -/
theorem readQuoted_backslashed (h : Plain t) (rest : Text) :
    readQuoted .plain (backslashed t ++ '"' :: rest) = some (t, rest) := by
  induction t with
  | nil => rfl
  | cons c t ih =>
      obtain ⟨hline, hopen, ht⟩ := plain_cons_iff.mp h
      by_cases hc : c = '\\' ∨ c = '"'
      · rw [backslashed_cons_special hc, List.cons_append, List.cons_append,
          readQuoted_special hc, ih ht]
        rfl
      · have hbrace : (backslashed t ++ '"' :: rest).head? = some '{' ↔ t.head? = some '{' :=
          head?_backslashed (by decide) t _ (by simp)
        obtain ⟨hslash, hquote⟩ := not_or.mp hc
        rw [backslashed_cons hc, List.cons_append, readQuoted, if_neg hquote, if_neg hslash,
          if_neg (by rw [hline]; exact Bool.false_ne_true),
          if_neg fun hopens => hopen ⟨hopens.1, hbrace.mp hopens.2⟩, ih ht]
        split
        · next hdoubled =>
            obtain ⟨hmarker, hsame, hbehind⟩ := hdoubled
            rw [head?_backslashed hc t _ (by simpa using Ne.symm hquote)] at hsame
            cases t with
            | nil => cases hsame
            | cons d t =>
                obtain rfl := Option.some.inj hsame
                rw [backslashed_cons hc, List.cons_append, List.tail_cons,
                  head?_backslashed (by decide) t _ (by simp)] at hbehind
                exact absurd ⟨hmarker, hbehind⟩ (plain_cons_iff.mp ht).2.1
        · rfl

/-- A text in which a quoted string is read back has as many signs as the string, or it has more
and is not plain. -/
theorem markers_of_readQuoted {u r : Text}
    (h : readQuoted .plain (backslashed t ++ '"' :: rest) = some (u, r)) :
    r = rest ∧ markers u ≤ markers t ∧ (markers u = markers t → Plain t) := by
  induction hlength : t.length using Nat.strong_induction_on generalizing t u r with
  | _ n ih =>
      cases t with
      | nil =>
          cases h
          exact ⟨rfl, le_rfl, fun _ => by decide⟩
      | cons c t =>
          rw [List.length_cons] at hlength
          by_cases hc : c = '\\' ∨ c = '"'
          · rw [backslashed_cons_special hc, List.cons_append, List.cons_append,
              readQuoted_special hc, Option.map_eq_some_iff] at h
            obtain ⟨⟨v, r'⟩, hread, hcons⟩ := h
            cases hcons
            obtain ⟨rfl, hle, hplain⟩ := ih t.length (by omega) hread rfl
            have hmarker : isMarker c = false := by rcases hc with rfl | rfl <;> rfl
            have hline : isNewline c = false := by rcases hc with rfl | rfl <;> rfl
            simp only [markers, List.countP_cons, hmarker, Bool.false_eq_true, if_false,
              Nat.add_zero] at hle hplain ⊢
            refine ⟨trivial, hle, fun heq => plain_cons_iff.mpr ⟨hline, ?_, hplain heq⟩⟩
            rw [hmarker]
            exact fun h => absurd h.1 Bool.false_ne_true
          · obtain ⟨hslash, hquote⟩ := not_or.mp hc
            have hbrace : (backslashed t ++ '"' :: rest).head? = some '{' ↔ t.head? = some '{' :=
              head?_backslashed (by decide) t _ (by simp)
            rw [backslashed_cons hc, List.cons_append, readQuoted, if_neg hquote, if_neg hslash] at h
            split at h
            · cases h
            · next hline =>
                split at h
                · cases h
                · next hopen =>
                    split at h
                    · next hdoubled =>
                        obtain ⟨hmarker, hsame, hbehind⟩ := hdoubled
                        rw [head?_backslashed hc t _ (by simpa using Ne.symm hquote)] at hsame
                        cases t with
                        | nil => cases hsame
                        | cons d t =>
                            obtain rfl := Option.some.inj hsame
                            rw [backslashed_cons hc, List.cons_append, readQuoted,
                              Option.map_eq_some_iff] at h
                            obtain ⟨⟨v, r'⟩, hread, hcons⟩ := h
                            cases hcons
                            rw [List.length_cons] at hlength
                            obtain ⟨rfl, hle, -⟩ := ih t.length (by omega) hread rfl
                            simp only [markers, List.countP_cons, hmarker, if_true] at hle ⊢
                            exact ⟨trivial, by omega, fun heq => absurd heq (by omega)⟩
                    · rw [Option.map_eq_some_iff] at h
                      obtain ⟨⟨v, r'⟩, hread, hcons⟩ := h
                      cases hcons
                      obtain ⟨rfl, hle, hplain⟩ := ih t.length (by omega) hread rfl
                      simp only [markers, List.countP_cons, Nat.add_le_add_iff_right,
                        Nat.add_right_cancel_iff] at hle hplain ⊢
                      exact ⟨trivial, hle, fun heq => plain_cons_iff.mpr
                        ⟨Bool.eq_false_iff.mpr hline,
                          fun hopens => hopen ⟨hopens.1, hbrace.mpr hopens.2⟩, hplain heq⟩⟩

/-- Without a quote behind it an escaped text is no quoted string. -/
theorem readQuoted_unclosed (t : Text) : readQuoted .plain (backslashed t) = none := by
  induction hlength : t.length using Nat.strong_induction_on generalizing t with
  | _ n ih =>
      cases t with
      | nil => rfl
      | cons c t =>
          rw [List.length_cons] at hlength
          have hread := ih t.length (by omega) t rfl
          by_cases hc : c = '\\' ∨ c = '"'
          · rw [backslashed_cons_special hc, readQuoted_special hc, hread]
            rfl
          · obtain ⟨hslash, hquote⟩ := not_or.mp hc
            rw [backslashed_cons hc, readQuoted, if_neg hquote, if_neg hslash, hread]
            split
            · rfl
            · split
              · rfl
              · split
                · next hdoubled =>
                    cases t with
                    | nil => rfl
                    | cons d t =>
                        have hhead := hdoubled.2.1
                        by_cases hd : d = '\\' ∨ d = '"'
                        · rw [backslashed_cons_special hd] at hhead
                          exact absurd (Option.some.inj hhead).symm hslash
                        · rw [List.length_cons] at hlength
                          rw [backslashed_cons hd, readQuoted, ih t.length (by omega) t rfl]
                          rfl
                · rfl

end Read

end Genaryx.Hcl
