import Genaryx.Base.Text
import Genaryx.Base.Transition
import Mathlib.Algebra.BigOperators.Group.List.Lemmas
import Mathlib.Algebra.GroupWithZero.Nat

/-!
# The tokens of a query

How a query is cut into words, symbols and string literals. Within a literal every character stands
for itself, but for two quotes, which are one.

## Implementation notes

Only what is read alike by every dialect is read: a character that may open a comment or a quoted
name, and a literal right behind a word, give no tokens at all.
-/

namespace Genaryx.Sql

open Base

inductive Token
  | word (text : Text)
  | string (text : Text)
  | symbol (c : Char)
  deriving DecidableEq

/-- Where the reader stands. Behind a quote within a literal, the next character says whether the
literal goes on. -/
inductive Place
  | between
  | word (text : Text)
  | string (text : Text)
  | quote (text : Text)
  deriving DecidableEq

structure Cursor where
  place : Place
  tokens : List Token
  deriving DecidableEq

def isBlank (c : Char) : Bool := c = ' ' || c = '\n' || c = '\t'

def isSymbol (c : Char) : Bool := ['(', ')', ',', '=', '*'].contains c

def isWordChar (c : Char) : Bool := Text.isAsciiAlphanumeric c || c = '_'

/-- The next character, behind what ends here. -/
def afterToken (ended : List Token) (c : Char) : Option Cursor :=
  if isBlank c then some ⟨.between, ended⟩
  else if isSymbol c then some ⟨.between, ended ++ [.symbol c]⟩
  else none

def step (s : Cursor) (c : Char) : Option Cursor :=
  match s.place with
  | .between =>
      if c = '\'' then some ⟨.string [], s.tokens⟩
      else if isWordChar c then some ⟨.word [c], s.tokens⟩
      else afterToken s.tokens c
  | .word text =>
      if isWordChar c then some ⟨.word (text ++ [c]), s.tokens⟩
      else afterToken (s.tokens ++ [.word text]) c
  | .string text =>
      if c = '\'' then some ⟨.quote text, s.tokens⟩
      else some ⟨.string (text ++ [c]), s.tokens⟩
  | .quote text =>
      if c = '\'' then some ⟨.string (text ++ ['\'']), s.tokens⟩
      else afterToken (s.tokens ++ [.string text]) c

/-- A query ends behind a token. -/
def finish (s : Cursor) : Option (List Token) :=
  match s.place with
  | .between => some s.tokens
  | .word text => some (s.tokens ++ [.word text])
  | .quote text => some (s.tokens ++ [.string text])
  | .string _ => none

def tokens (query : Text) : Option (List Token) :=
  (Transition.run step ⟨.between, []⟩ query).bind finish

/-- A text without a quote is read as it is within a literal. -/
theorem run_string {t : Text} (h : '\'' ∉ t) (text : Text) (ts : List Token) :
    Transition.run step ⟨.string text, ts⟩ t = some ⟨.string (text ++ t), ts⟩ := by
  induction t generalizing text with
  | nil => rw [List.append_nil]; rfl
  | cons c t ih =>
      rw [List.mem_cons, not_or] at h
      obtain ⟨hc, ht⟩ := h
      have hstep : step ⟨.string text, ts⟩ c = some ⟨.string (text ++ [c]), ts⟩ :=
        if_neg (Ne.symm hc)
      rw [Transition.run_cons_of_step hstep, ih ht, List.append_assoc, List.singleton_append]

/-- A reader that has read other tokens before. -/
def Cursor.behind (ts : List Token) (s : Cursor) : Cursor := { s with tokens := ts ++ s.tokens }

theorem afterToken_behind (ts ended : List Token) (c : Char) :
    afterToken (ts ++ ended) c = (afterToken ended c).map (Cursor.behind ts) := by
  rw [afterToken, afterToken]
  split
  · rfl
  · split
    · rw [List.append_assoc]
      rfl
    · rfl

theorem step_behind (ts : List Token) (s : Cursor) (c : Char) :
    step (s.behind ts) c = (step s c).map (Cursor.behind ts) := by
  obtain ⟨place, us⟩ := s
  cases place with
  | between =>
      simp only [step, Cursor.behind]
      split
      · rfl
      · split
        · rfl
        · exact afterToken_behind ts us c
  | word text =>
      simp only [step, Cursor.behind]
      split
      · rfl
      · rw [List.append_assoc]
        exact afterToken_behind ts _ c
  | string text =>
      simp only [step, Cursor.behind]
      split <;> rfl
  | quote text =>
      simp only [step, Cursor.behind]
      split
      · rfl
      · rw [List.append_assoc]
        exact afterToken_behind ts _ c

/-- What is read of a text does not depend on the tokens before it. -/
theorem run_behind (ts : List Token) (s : Cursor) (t : Text) :
    Transition.run step (s.behind ts) t = (Transition.run step s t).map (Cursor.behind ts) := by
  induction t generalizing s with
  | nil => rfl
  | cons c t ih =>
      rw [Transition.run, Transition.run, step_behind]
      cases step s c with
      | none => rfl
      | some u => exact ih u

/-- A literal ends at a quote with a blank behind it. -/
theorem run_closing (text : Text) (ts : List Token) (t : Text) :
    Transition.run step ⟨.string text, ts⟩ ('\'' :: ' ' :: t) =
      Transition.run step ⟨.between, ts ++ [.string text]⟩ t := rfl

/-! ## The quotes of a query -/

/-- The quotes that a token is written with: a literal has one at each end, and two for each of its
own. -/
def Token.quotes : Token → Nat
  | .string text => 2 + 2 * text.count '\''
  | _ => 0

def quotesOf (ts : List Token) : Nat := (ts.map Token.quotes).sum

/-- The quotes that were read where the reader stands. -/
def Cursor.quotes (s : Cursor) : Nat :=
  quotesOf s.tokens +
    match s.place with
    | .between | .word _ => 0
    | .string text => 1 + 2 * text.count '\''
    | .quote text => 2 + 2 * text.count '\''

theorem quotesOf_append (ts us : List Token) : quotesOf (ts ++ us) = quotesOf ts + quotesOf us := by
  rw [quotesOf, List.map_append, List.sum_append]
  rfl

theorem quotesOf_singleton (t : Token) : quotesOf [t] = t.quotes := by
  rw [quotesOf, List.map_singleton, List.sum_singleton]

theorem quotes_afterToken {ended : List Token} {c : Char} {s : Cursor}
    (h : afterToken ended c = some s) : c ≠ '\'' ∧ s.quotes = quotesOf ended := by
  rw [afterToken] at h
  split at h
  · next hblank =>
      cases h
      refine ⟨?_, rfl⟩
      rintro rfl
      exact absurd hblank (by decide)
  · split at h
    · next hsymbol =>
        cases h
        refine ⟨?_, ?_⟩
        · rintro rfl
          exact absurd hsymbol (by decide)
        · rw [Cursor.quotes, quotesOf_append, quotesOf_singleton]
          rfl
    · cases h

/-- One step reads the quote it is given. -/
theorem quotes_step {s t : Cursor} {c : Char} (h : step s c = some t) :
    t.quotes = s.quotes + if c = '\'' then 1 else 0 := by
  obtain ⟨place, ts⟩ := s
  have hword : isWordChar c = true → c ≠ '\'' := by
    rintro hc rfl
    exact absurd hc (by decide)
  cases place with
  | between =>
      simp only [step] at h
      split at h
      · next hquote =>
          cases h
          rw [if_pos hquote]
          rfl
      · next hother =>
          rw [if_neg hother]
          split at h
          · cases h
            rfl
          · exact (quotes_afterToken h).2
  | word text =>
      simp only [step] at h
      split at h
      · next hc =>
          cases h
          rw [if_neg (hword hc)]
          rfl
      · obtain ⟨hother, hquotes⟩ := quotes_afterToken h
        rw [if_neg hother, hquotes, quotesOf_append, quotesOf_singleton]
        rfl
  | string text =>
      simp only [step] at h
      split at h
      · next hquote =>
          cases h
          rw [if_pos hquote]
          simp only [Cursor.quotes]
          omega
      · next hother =>
          cases h
          rw [if_neg hother]
          simp only [Cursor.quotes, List.count_append, List.count_singleton]
          rw [if_neg (by simpa using hother), Nat.add_zero, Nat.add_zero]
  | quote text =>
      simp only [step] at h
      split at h
      · next hquote =>
          cases h
          rw [if_pos hquote]
          simp only [Cursor.quotes, List.count_append, List.count_singleton, beq_self_eq_true,
            if_true]
          omega
      · obtain ⟨hother, hquotes⟩ := quotes_afterToken h
        rw [if_neg hother, hquotes, quotesOf_append, quotesOf_singleton]
        rfl

theorem quotes_run {s t : Cursor} {query : Text} (h : Transition.run step s query = some t) :
    t.quotes = s.quotes + query.count '\'' := by
  induction query generalizing s with
  | nil =>
      cases h
      rw [List.count_nil, Nat.add_zero]
  | cons c query ih =>
      obtain ⟨u, hu, hrun⟩ := Transition.run_cons_eq_some h
      rw [ih hrun, quotes_step hu, List.count_cons, Nat.add_assoc, Nat.add_comm (query.count _)]
      simp only [beq_iff_eq]

/-- A query has the quotes that its tokens are written with. -/
theorem count_of_tokens {query : Text} {ts : List Token} (h : tokens query = some ts) :
    query.count '\'' = quotesOf ts := by
  obtain ⟨s, hrun, hfinish⟩ := Option.bind_eq_some_iff.mp h
  have hcount := quotes_run hrun
  have hstart : Cursor.quotes ⟨.between, []⟩ = 0 := rfl
  have hend : quotesOf ts = s.quotes := by
    obtain ⟨place, read⟩ := s
    cases place with
    | between => cases hfinish; rfl
    | word text =>
        cases hfinish
        rw [quotesOf_append, quotesOf_singleton]
        rfl
    | string text => cases hfinish
    | quote text =>
        cases hfinish
        rw [quotesOf_append, quotesOf_singleton]
        rfl
  omega

end Genaryx.Sql
