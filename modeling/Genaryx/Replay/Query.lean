import Genaryx.Base.Offsets
import Genaryx.Base.Sql

/-!
# The query that copies a run

A run id is a producer's text, and it is put into a query between two quotes. Only short names made
of a few characters are, so that the query has the id as one literal, whatever the id is.
-/

namespace Genaryx.Replay

open Utf8

/-- The longest run id a proof puts in a query. -/
def runIdMaxBytes : Nat := 128

/-- `u8::is_ascii_alphanumeric`. -/
def isAlphanumericByte (b : UInt8) : Bool :=
  (48 ≤ b && b ≤ 57) || (65 ≤ b && b ≤ 90) || (97 ≤ b && b ≤ 122)

def isNameByte (b : UInt8) : Bool :=
  isAlphanumericByte b || [0x2E, 0x5F, 0x3A, 0x2D].contains b

def isPathByte (b : UInt8) : Bool :=
  isAlphanumericByte b || [0x2E, 0x5F, 0x2D, 0x2F].contains b

def runLength : Text := "the run id is empty or longer than 128 bytes".toList

def runCharacters : Text :=
  "the run id holds characters the proof will not put in a query".toList

def pathCharacters : Text :=
  "the scratch path holds characters the proof will not put in a query".toList

/-- A run id that the proof will put in a query. -/
def querySafeRun (run : Text) : Except Text Unit :=
  if run.isEmpty || runIdMaxBytes < len run then .error runLength
  else if !(encode run).all isNameByte then .error runCharacters
  else .ok ()

def copyHead : Text := "copy (select * from calls where run_id = '".toList

def copyMiddle : Text := "' order by ts_millis, step) to '".toList

def copyTail : Text := "' stored as parquet".toList

/-- The text of the statement, whatever the run id and the path are. -/
def copyText (run file : Text) : Text := copyHead ++ run ++ copyMiddle ++ file ++ copyTail

/-- The statement that copies one run's calls, in the order they happened, into a trace of its own. -/
def copyStatement (run file : Text) : Except Text Text := do
  querySafeRun run
  if file.isEmpty || !(encode file).all isPathByte then .error pathCharacters
  else .ok (copyText run file)

/-- The statement that counts a trace's calls and the distinct steps among them. -/
def stepCountStatement : Text :=
  "select count(*) as n, count(distinct step) as steps from calls".toList

/-! ## What is put in a query -/

section Names

variable {p : UInt8 → Bool} {t : Text}

/-- A character of one byte. -/
def IsByte (p : UInt8 → Bool) (c : Char) : Prop := c.toNat < 0x80 ∧ p (UInt8.ofNat c.toNat) = true

instance (p : UInt8 → Bool) (c : Char) : Decidable (IsByte p c) :=
  inferInstanceAs (Decidable (_ ∧ _))

/-- A character beyond ASCII ends in a byte beyond ASCII. -/
theorem exists_high_byte {c : Char} (hc : ¬ c.toNat < 0x80) : ∃ b ∈ encodeChar c, ¬ b < 0x80 := by
  refine ⟨UInt8.ofNat (0x80 + c.toNat % 64), ?_, ?_⟩
  · rw [encodeChar, if_neg hc]
    split
    · exact List.mem_cons_of_mem _ List.mem_cons_self
    · split
      · exact List.mem_cons_of_mem _ (List.mem_cons_of_mem _ List.mem_cons_self)
      · exact List.mem_cons_of_mem _
          (List.mem_cons_of_mem _ (List.mem_cons_of_mem _ List.mem_cons_self))
  · intro hlt
    rw [UInt8.lt_iff_toNat_lt, toNat_byte (by omega)] at hlt
    have htop : (0x80 : UInt8).toNat = 0x80 := rfl
    omega

/-- Where no byte beyond ASCII is allowed, the bytes of a text are its characters. -/
theorem all_encode_iff (hp : ∀ b, p b = true → b < 0x80) :
    (encode t).all p = true ↔ ∀ c ∈ t, IsByte p c := by
  have hchar : ∀ c, (encodeChar c).all p = true ↔ IsByte p c := by
    intro c
    by_cases hc : c.toNat < 0x80
    · rw [encodeChar, if_pos hc, List.all_cons, List.all_nil, Bool.and_true]
      exact ⟨fun h => ⟨hc, h⟩, And.right⟩
    · constructor
      · intro h
        obtain ⟨b, hb, hhigh⟩ := exists_high_byte hc
        exact absurd (hp b (List.all_eq_true.mp h b hb)) hhigh
      · intro h
        exact absurd h.1 hc
  rw [encode, List.all_flatMap, List.all_eq_true]
  exact forall₂_congr fun c _ => hchar c

/-- A text of such characters has as many bytes as characters. -/
theorem len_of_isByte (h : ∀ c ∈ t, IsByte p c) : len t = t.length := by
  induction t with
  | nil => rfl
  | cons c t ih =>
      have hc := (h c List.mem_cons_self).1
      rw [len_cons, ih fun d hd => h d (List.mem_cons_of_mem c hd), encodeChar, if_pos hc,
        List.length_singleton, List.length_cons, Nat.add_comm]

/-- The bytes that are let through are ASCII. -/
theorem lt_of_isByte : ∀ b, isNameByte b = true ∨ isPathByte b = true → b < 0x80 :=
  of_bytes (by decide +kernel)

theorem isNameByte_lt (b : UInt8) (h : isNameByte b = true) : b < 0x80 := lt_of_isByte b (.inl h)

theorem isPathByte_lt (b : UInt8) (h : isPathByte b = true) : b < 0x80 := lt_of_isByte b (.inr h)

theorem not_isByte_quote : ¬ IsByte isNameByte '\'' ∧ ¬ IsByte isPathByte '\'' := by decide

/-- A run id of which a proof makes a query: 1 to 128 letters, digits and marks. -/
structure QueryName (run : Text) : Prop where
  ne_nil : run ≠ []
  length_le : run.length ≤ 128
  chars : ∀ c ∈ run, IsByte isNameByte c

/-- A path that a proof puts in a query. -/
structure QueryPath (file : Text) : Prop where
  ne_nil : file ≠ []
  chars : ∀ c ∈ file, IsByte isPathByte c

variable {run file : Text}

theorem querySafeRun_eq_ok_iff : querySafeRun run = .ok () ↔ QueryName run := by
  have hchars := all_encode_iff (t := run) isNameByte_lt
  rw [querySafeRun]
  split
  · next hlength =>
      rw [Bool.or_eq_true, List.isEmpty_iff, decide_eq_true_eq] at hlength
      constructor
      · nofun
      · rintro ⟨hne, hle, hrun⟩
        rw [len_of_isByte hrun] at hlength
        exact absurd (hlength.resolve_left hne) (Nat.not_lt.mpr hle)
  · next hlength =>
      rw [Bool.or_eq_true, List.isEmpty_iff, decide_eq_true_eq, not_or, Nat.not_lt] at hlength
      split
      · next hother =>
          rw [Bool.not_eq_true', ← Bool.not_eq_true, hchars] at hother
          constructor
          · nofun
          · intro h
            exact absurd h.chars hother
      · next hall =>
          rw [Bool.not_eq_true', Bool.not_eq_false, hchars] at hall
          refine ⟨fun _ => ⟨hlength.1, ?_, hall⟩, fun _ => rfl⟩
          rw [← len_of_isByte hall]
          exact hlength.2

theorem copyStatement_eq_ok_iff {statement : Text} : copyStatement run file = .ok statement ↔
    QueryName run ∧ QueryPath file ∧ statement = copyText run file := by
  have hchars := all_encode_iff (t := file) isPathByte_lt
  rw [copyStatement]
  cases hrun : querySafeRun run with
  | error e =>
      refine ⟨nofun, fun h => ?_⟩
      rw [querySafeRun_eq_ok_iff.mpr h.1] at hrun
      cases hrun
  | ok u =>
      have hname : QueryName run := querySafeRun_eq_ok_iff.mp hrun
      simp only [bind, Except.bind]
      split
      · next hother =>
          rw [Bool.or_eq_true, List.isEmpty_iff, Bool.not_eq_true', ← Bool.not_eq_true,
            hchars] at hother
          refine ⟨nofun, fun h => ?_⟩
          exact absurd h.2.1.chars (hother.resolve_left h.2.1.ne_nil)
      · next hpath =>
          rw [Bool.or_eq_true, List.isEmpty_iff, Bool.not_eq_true', not_or, Bool.not_eq_false,
            hchars] at hpath
          rw [Except.ok.injEq, eq_comm]
          exact ⟨fun h => ⟨hname, ⟨hpath.1, hpath.2⟩, h⟩, fun h => h.2.2⟩

end Names

/-! ## What the query says -/

section Tokens

open Sql Base

variable {run file : Text}

/-- The tokens of the statement, with the run id and the path as one literal each. -/
def copyTokens (run file : Text) : List Token :=
  [.word "copy".toList, .symbol '(', .word "select".toList, .symbol '*', .word "from".toList,
    .word "calls".toList, .word "where".toList, .word "run_id".toList, .symbol '=', .string run,
    .word "order".toList, .word "by".toList, .word "ts_millis".toList, .symbol ',',
    .word "step".toList, .symbol ')', .word "to".toList, .string file, .word "stored".toList,
    .word "as".toList, .word "parquet".toList]

/-- Up to the run id, nine tokens and an open literal are read. -/
theorem run_copyHead : Transition.run step ⟨.between, []⟩ copyHead =
    some ⟨.string [], (copyTokens [] []).take 9⟩ := by
  rfl

theorem copyMiddle_eq : copyMiddle = '\'' :: ' ' :: "order by ts_millis, step) to '".toList :=
  rfl

theorem copyTail_eq : copyTail = '\'' :: ' ' :: "stored as parquet".toList := rfl

/-- From the run id to the path. -/
theorem run_order : Transition.run step ⟨.between, []⟩ "order by ts_millis, step) to '".toList =
    some ⟨.string [], ((copyTokens [] []).drop 10).take 7⟩ := by
  rfl

theorem run_stored : Transition.run step ⟨.between, []⟩ "stored as parquet".toList =
    some ⟨.word "parquet".toList, [.word "stored".toList, .word "as".toList]⟩ := by
  rfl

/-- Without quotes in the run id and the path, these are the literals of the statement. -/
theorem tokens_copyText (hrun : '\'' ∉ run) (hfile : '\'' ∉ file) :
    tokens (copyText run file) = some (copyTokens run file) := by
  have hstring := run_string hrun [] ((copyTokens [] []).take 9)
  rw [List.nil_append] at hstring
  have horder := run_behind ((copyTokens [] []).take 9 ++ [.string run]) ⟨.between, []⟩
    "order by ts_millis, step) to '".toList
  rw [run_order, Option.map_some] at horder
  have hpath := run_string hfile []
    ((copyTokens [] []).take 9 ++ [.string run] ++ ((copyTokens [] []).drop 10).take 7)
  rw [List.nil_append] at hpath
  have hstored := run_behind ((copyTokens [] []).take 9 ++ [.string run] ++
    ((copyTokens [] []).drop 10).take 7 ++ [.string file]) ⟨.between, []⟩ "stored as parquet".toList
  rw [run_stored, Option.map_some] at hstored
  simp only [Cursor.behind, List.append_nil] at horder hstored
  rw [tokens, copyText, Transition.run_append, Transition.run_append, Transition.run_append,
    Transition.run_append, run_copyHead, Option.bind_some, hstring, Option.bind_some,
    copyMiddle_eq, run_closing, horder, Option.bind_some, hpath, Option.bind_some, copyTail_eq,
    run_closing, hstored, Option.bind_some]
  rfl

theorem count_literals (run file : Text) : (copyText run file).count '\'' =
    4 + run.count '\'' + file.count '\'' := by
  have hhead : copyHead.count '\'' = 1 := by rfl
  have hmiddle : copyMiddle.count '\'' = 2 := by rfl
  have htail : copyTail.count '\'' = 1 := by rfl
  rw [copyText, List.count_append, List.count_append, List.count_append, List.count_append, hhead,
    hmiddle, htail]
  omega

theorem quotesOf_copyTokens (run file : Text) : quotesOf (copyTokens run file) =
    4 + 2 * run.count '\'' + 2 * file.count '\'' := by
  simp only [quotesOf, copyTokens, List.map_cons, List.map_nil, List.sum_cons, List.sum_nil,
    Token.quotes]
  omega

/-- A quote in either is read as something else: the statement would need two for each. -/
theorem tokens_copyText_iff : tokens (copyText run file) = some (copyTokens run file) ↔
    '\'' ∉ run ∧ '\'' ∉ file := by
  constructor
  · intro h
    have hcount := count_of_tokens h
    rw [count_literals, quotesOf_copyTokens] at hcount
    rw [← List.count_eq_zero, ← List.count_eq_zero]
    omega
  · rintro ⟨hrun, hfile⟩
    exact tokens_copyText hrun hfile

end Tokens

/-- What the statement is made for, and what a reader of queries makes of it. -/
structure CopiesOneRun : Prop where
  accepted : ∀ run file, (∃ statement, copyStatement run file = .ok statement) ↔
    QueryName run ∧ QueryPath file
  checked : ∀ run file e, querySafeRun run = .ok () → copyStatement run file = .error e →
    ¬ QueryPath file
  tokens : ∀ run file statement, copyStatement run file = .ok statement →
    Sql.tokens statement = some (copyTokens run file)
  unguarded : ∀ run file, Sql.tokens (copyText run file) = some (copyTokens run file) ↔
    '\'' ∉ run ∧ '\'' ∉ file
  apart : ∀ run file run' file' statement, copyStatement run file = .ok statement →
    copyStatement run' file' = .ok statement → run = run' ∧ file = file'

/-- **The statement copies the calls of one run, whatever a producer called it.** -/
theorem copies_one_run : CopiesOneRun := by
  have hread : ∀ {run file statement}, copyStatement run file = .ok statement →
      Sql.tokens statement = some (copyTokens run file) := by
    intro run file statement h
    obtain ⟨hrun, hfile, rfl⟩ := copyStatement_eq_ok_iff.mp h
    apply tokens_copyText
    · exact fun hmem => not_isByte_quote.1 (hrun.chars _ hmem)
    · exact fun hmem => not_isByte_quote.2 (hfile.chars _ hmem)
  constructor
  · intro run file
    constructor
    · rintro ⟨statement, h⟩
      obtain ⟨hrun, hfile, -⟩ := copyStatement_eq_ok_iff.mp h
      exact ⟨hrun, hfile⟩
    · rintro ⟨hrun, hfile⟩
      exact ⟨_, copyStatement_eq_ok_iff.mpr ⟨hrun, hfile, rfl⟩⟩
  · intro run file e hrun h hfile
    rw [copyStatement_eq_ok_iff.mpr ⟨querySafeRun_eq_ok_iff.mp hrun, hfile, rfl⟩] at h
    cases h
  · intro run file statement
    exact hread
  · intro run file
    exact tokens_copyText_iff
  · intro run file run' file' statement h h'
    have hsame : copyTokens run file = copyTokens run' file' :=
      Option.some.inj ((hread h).symm.trans (hread h'))
    simp only [copyTokens, List.cons.injEq, Sql.Token.string.injEq] at hsame
    tauto

end Genaryx.Replay
