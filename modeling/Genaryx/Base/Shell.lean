import Genaryx.Base.Text

/-!
# The words of a shell command

How a POSIX shell cuts the text of a simple command into words. Between single quotes every
character stands for itself, and outside them a backslash makes the next one do so.

## Implementation notes

Only what can be read without any expansion is read: outside quotes, a character that might mean
more than itself anywhere in a command gives no words at all. A word that is spelled by its pieces
is put together by `Spells.append`, and a command of such words by `words_intercalate`.
-/

namespace Genaryx.Shell

/-- Where a shell stands in a command. A place in a word has what is read of the word. -/
inductive Place
  | between
  | word (read : Text)
  | quoted (read : Text)
  | escaped (read : Text)

def isBlank (c : Char) : Bool := c = ' ' || c = '\t'

/-- A character that stands for itself wherever it is in a command. -/
def isPlain (c : Char) : Bool := Text.isAsciiAlphanumeric c || "-+_./:,@".toList.contains c

/-- The words of what is left of a command. -/
def wordsFrom : Place → Text → Option (List Text)
  | .between, [] => some []
  | .word read, [] => some [read]
  | .quoted _, [] | .escaped _, [] => none
  | .between, c :: rest =>
      if isBlank c then wordsFrom .between rest
      else if c = '\'' then wordsFrom (.quoted []) rest
      else if c = '\\' then wordsFrom (.escaped []) rest
      else if isPlain c then wordsFrom (.word [c]) rest
      else none
  | .word read, c :: rest =>
      if isBlank c then (wordsFrom .between rest).map (read :: ·)
      else if c = '\'' then wordsFrom (.quoted read) rest
      else if c = '\\' then wordsFrom (.escaped read) rest
      else if isPlain c then wordsFrom (.word (read ++ [c])) rest
      else none
  | .quoted read, c :: rest =>
      if c = '\'' then wordsFrom (.word read) rest else wordsFrom (.quoted (read ++ [c])) rest
  -- A backslash and the end of a line join two lines: that is left out with what is not plain.
  | .escaped read, c :: rest =>
      if c = '\n' then none else wordsFrom (.word (read ++ [c])) rest

def words (command : Text) : Option (List Text) := wordsFrom .between command

/-- A piece of a command spells a part of a word, wherever in the word it stands. -/
structure Spells (piece part : Text) : Prop where
  within : ∀ read rest, wordsFrom (.word read) (piece ++ rest) = wordsFrom (.word (read ++ part)) rest
  opening : ∀ rest, wordsFrom .between (piece ++ rest) = wordsFrom (.word part) rest

variable {a b u v : Text}

theorem isPlain_not_special {c : Char} (h : isPlain c = true) :
    isBlank c = false ∧ c ≠ '\'' ∧ c ≠ '\\' := by
  refine ⟨?_, ?_, ?_⟩
  · rw [isBlank, Bool.or_eq_false_iff, decide_eq_false_iff_not, decide_eq_false_iff_not]
    constructor <;> rintro rfl <;> revert h <;> decide
  · rintro rfl
    revert h
    decide
  · rintro rfl
    revert h
    decide

theorem Spells.append (h : Spells a u) (h' : Spells b v) : Spells (a ++ b) (u ++ v) where
  within read rest := by
    rw [List.append_assoc, h.within, h'.within, List.append_assoc]
  opening rest := by
    rw [List.append_assoc, h.opening, h'.within]

/-- A plain character spells itself. -/
theorem spells_char {c : Char} (hc : isPlain c = true) : Spells [c] [c] := by
  obtain ⟨hblank, hquote, hbackslash⟩ := isPlain_not_special hc
  constructor
  · intro read rest
    simp [wordsFrom, hblank, hquote, hbackslash, hc]
  · intro rest
    simp [wordsFrom, hblank, hquote, hbackslash, hc]

/-- A text of plain characters spells itself. -/
theorem spells_plain (hne : a ≠ []) (h : ∀ c ∈ a, isPlain c = true) : Spells a a := by
  induction a with
  | nil => exact absurd rfl hne
  | cons c rest ih =>
      have hc := spells_char (h c List.mem_cons_self)
      cases rest with
      | nil => exact hc
      | cons d rest =>
          apply hc.append
          apply ih (List.cons_ne_nil d rest)
          intro x hx
          exact h x (List.mem_cons_of_mem c hx)

/-- A piece that is read within single quotes spells what is read, with a quote around it. -/
theorem spells_quoted
    (h : ∀ read rest,
      wordsFrom (.quoted read) (a ++ '\'' :: rest) = wordsFrom (.word (read ++ u)) rest) :
    Spells ('\'' :: (a ++ ['\''])) u := by
  have hjoin : ∀ rest, '\'' :: (a ++ ['\'']) ++ rest = '\'' :: (a ++ '\'' :: rest) := by
    intro rest
    simp
  constructor
  · intro read rest
    rw [hjoin, ← h read rest]
    simp [wordsFrom, isBlank]
  · intro rest
    rw [hjoin, ← List.nil_append u, ← h [] rest]
    simp [wordsFrom, isBlank]

/-- A command of words that are spelled has just these words. -/
theorem words_intercalate {pieces parts : List Text} (h : List.Forall₂ Spells pieces parts) :
    words (List.intercalate [' '] pieces) = some parts := by
  rw [words]
  induction h with
  | nil => rfl
  | @cons piece part pieces parts hpiece htail ih =>
      cases htail with
      | nil =>
          have hlast : wordsFrom .between (piece ++ []) = some [part] := hpiece.opening []
          rw [List.append_nil] at hlast
          simpa [List.intercalate] using hlast
      | cons hnext htail =>
          rw [List.intercalate_cons_cons, List.append_assoc, hpiece.opening]
          rw [List.singleton_append, wordsFrom, if_pos (by decide), ih, Option.map_some]

end Genaryx.Shell
