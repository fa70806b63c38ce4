import Genaryx.Replay.Reading

/-!
# Legible decisions

Where the agent of every decision is one word, its run is one word or none and its reasons are
one line each, the lines of a decision spell just its own row, and the report is read as it was
written.
-/

namespace Genaryx.Replay

open Base Text

/-- A text that is one word. -/
def IsWord (t : Text) : Prop := t ≠ [] ∧ ∀ c ∈ t, isWhitespace c = false

/-- A text that is one line, as the lines of a text are told apart. -/
def IsLine (t : Text) : Prop := '\n' ∉ t ∧ t.getLast? ≠ some '\r'

theorem isWord_verdict (v : Verdict) : IsWord v.text := by
  cases v <;> exact ⟨by decide, by decide⟩

theorem IsWord.splitWhitespace {t : Text} (h : IsWord t) : Text.splitWhitespace t = [t] :=
  splitWhitespace_word h.1 h.2

/-- Characters that are blanks stand in no word. -/
theorem IsWord.notMem {t : Text} (h : IsWord t) {x : Char} (hx : isWhitespace x = true) :
    x ∉ t := fun hmem => by
  rw [h.2 x hmem] at hx
  cases hx

/-- A line after a label is a line. -/
theorem IsLine.append {t : Text} (h : IsLine t) {label : Text} (hlabel : '\n' ∉ label)
    (hlast : label.getLast? ≠ some '\r') :
    '\n' ∉ label ++ t ∧ stripCarriageReturn (label ++ t) = label ++ t := by
  refine ⟨List.not_mem_append hlabel h.1, ?_⟩
  rw [stripCarriageReturn_append hlast, stripCarriageReturn, if_neg h.2]

/-- The agent of a decision is a word, its run is a word or empty, and its reasons are lines. -/
structure Change.Legible (c : Change) : Prop where
  agent : IsWord c.agent
  run : c.run = [] ∨ IsWord c.run
  was : IsLine c.was
  now : IsLine c.now

namespace Change

variable {c : Change}

/-- A run that is empty or a word is the first of its words. -/
theorem Legible.head_run (h : c.Legible) : (splitWhitespace c.run).head?.getD [] = c.run := by
  obtain hnone | hword := h.run
  · rw [hnone]
    rfl
  · rw [hword.splitWhitespace]
    rfl

/-- The words after the arrow of a legible decision. -/
theorem words_of_legible (h : c.Legible) :
    splitWhitespace (c.toVerdict.text ++ ("   ".toList ++ (c.agent ++ ("  run ".toList ++ c.run)))) =
      c.toVerdict.text :: c.agent :: "run".toList :: splitWhitespace c.run := by
  have hgap : "   ".toList = ' ' :: [' ', ' '] := by decide
  have hrun : "  run ".toList = ' ' :: ([' '] ++ ("run".toList ++ [' '])) := by decide
  have htwo : ∀ x ∈ [' ', ' '], isWhitespace x = true := by decide
  have hone : ∀ x ∈ [' '], isWhitespace x = true := by decide
  rw [hgap, List.cons_append, splitWhitespace_append _ rfl, splitWhitespace_blank htwo, hrun,
    List.cons_append, splitWhitespace_append _ rfl, List.append_assoc,
    splitWhitespace_blank hone, List.append_assoc, List.singleton_append,
    splitWhitespace_append _ rfl, (isWord_verdict _).splitWhitespace, h.agent.splitWhitespace,
    splitWhitespace_word (by decide) (by decide)]
  rfl

theorem headerLine_clean (h : c.Legible) {x : Char} (hx : x = '\n' ∨ x = '\r') :
    x ∉ c.headerLine := by
  have hblank : isWhitespace x = true := by obtain rfl | rfl := hx <;> rfl
  have hclosed : ∀ part ∈ ["  ".toList, " -> ".toList, "   ".toList, "  run ".toList],
      x ∉ part := by
    obtain rfl | rfl := hx <;> decide
  have hrun : x ∉ c.run := by
    obtain hnone | hword := h.run
    · rw [hnone]
      exact List.not_mem_nil
    · exact hword.notMem hblank
  have hpart : ∀ i (hi : i < 4), x ∉ ["  ".toList, " -> ".toList, "   ".toList,
      "  run ".toList][i] := fun i hi => hclosed _ (List.getElem_mem hi)
  exact List.not_mem_append (hpart 0 (by decide)) (List.not_mem_append
    ((isWord_verdict _).notMem hblank) (List.not_mem_append (hpart 1 (by decide))
      (List.not_mem_append ((isWord_verdict _).notMem hblank)
        (List.not_mem_append (hpart 2 (by decide)) (List.not_mem_append (h.agent.notMem hblank)
          (List.not_mem_append (hpart 3 (by decide)) hrun))))))

/-- The lines of a legible decision. -/
theorem lines_of_legible (h : c.Legible) :
    Text.lines c.text = [c.headerLine, c.wasLine, c.nowLine] := by
  have hwas : '\n' ∉ c.wasLine ∧ stripCarriageReturn c.wasLine = c.wasLine :=
    h.was.append (by decide) (by decide)
  have hnow : '\n' ∉ c.nowLine ∧ stripCarriageReturn c.nowLine = c.nowLine :=
    h.now.append (by decide) (by decide)
  rw [text, lines_cons_newline (headerLine_clean h (.inl rfl)),
    lines_cons_newline hwas.1, lines_cons_newline hnow.1, lines_nil,
    stripCarriageReturn_of_notMem (headerLine_clean h (.inr rfl)), hwas.2, hnow.2]

/-- The first line of a decision is split at its arrow. -/
theorem split_headerLine (c : Change) :
    splitOnceAt " -> ".toList (trimStart c.headerLine) = some (c.fromVerdict.text,
      c.toVerdict.text ++ ("   ".toList ++ (c.agent ++ ("  run ".toList ++ c.run)))) := by
  have hheader : trimStart c.headerLine = c.fromVerdict.text ++ (' ' :: ("-> ".toList ++
      (c.toVerdict.text ++ ("   ".toList ++ (c.agent ++ ("  run ".toList ++ c.run)))))) := by
    have hblank : ∀ x ∈ "  ".toList, isWhitespace x = true := by decide
    refine trimStart_append hblank fun x hx => ?_
    obtain ⟨hne, hclean⟩ := isWord_verdict c.fromVerdict
    rw [List.head?_append_of_ne_nil _ hne] at hx
    exact hclean x (List.mem_of_mem_head? hx)
  rw [hheader]
  exact splitOnceAt_of_head ((isWord_verdict _).notMem rfl) _ _

/-- The reasons of a decision stand behind their labels. -/
theorem strip_reasons (c : Change) :
    stripPrefix "was: ".toList (trimStart c.wasLine) = some c.was ∧
      stripPrefix "now: ".toList (trimStart c.nowLine) = some c.now := by
  have hindent : ∀ x ∈ List.replicate 8 ' ', isWhitespace x = true := by decide
  have hlabel : "        was: ".toList = List.replicate 8 ' ' ++ "was: ".toList ∧
      "        now: ".toList = List.replicate 8 ' ' ++ "now: ".toList := by decide
  constructor
  · unfold wasLine
    rw [hlabel.1, List.append_assoc, trimStart_append hindent, stripPrefix_append]
    intro x hx
    cases hx
    rfl
  · unfold nowLine
    rw [hlabel.2, List.append_assoc, trimStart_append hindent, stripPrefix_append]
    intro x hx
    cases hx
    rfl

theorem isVerdict_text (v : Verdict) : isVerdict v.text = true := by
  cases v <;> decide

/-- A legible decision spells just its own row. -/
theorem spelled_of_legible (h : c.Legible) : c.spelled = [c.shown] := by
  have hrow : rowAt c.headerLine c.wasLine c.nowLine = some c.shown := by
    obtain ⟨hwas, hnow⟩ := c.strip_reasons
    rw [rowAt, c.split_headerLine, hwas, hnow]
    simp only [Option.bind_eq_bind, Option.bind_some, words_of_legible h, List.head?_cons,
      List.tail_cons, Option.getD_some, isVerdict_text, Bool.and_self, if_true, runOf, h.head_run]
    rfl
  rw [spelled, lines_of_legible h, rowsIn, hrow]
  rfl

end Change

/-- The numbers of a report contradict each other, or none of them wraps around and its decisions
are legible. A report of no replayed decision lists none, or says nowhere that there are none. -/
structure Printed.Legible (r : Printed) : Prop where
  empty : r.replayed = 0 →
    r.changes = [] ∨ (Text.lines r.text).any (·.contains noDecisions) = false
  replayed : r.replayed ≠ 0 →
    (r.outcomes.sum % u64Size ≠ r.replayed ∨ r.replayable ≠ r.outcomes.replayable) ∨
      (r.outcomes.sum < u64Size ∧ ∀ c ∈ r.changes, c.Legible)

/-- Legible decisions spell just themselves. -/
theorem Printed.spelled_of_legible {r : Printed} (h : ∀ c ∈ r.changes, c.Legible) :
    r.spelled = r.changes.map Change.shown := by
  have hrows : r.changes.map Change.spelled = r.changes.map fun c => [c.shown] :=
    List.map_congr_left fun c hc => Change.spelled_of_legible (h c hc)
  rw [spelled, List.flatMap_def, hrows, ← List.flatMap_def]
  exact List.flatMap_pure_eq_map Change.shown r.changes

/-- **What is read is what was written** in a report that is legible. -/
theorem Printed.readAsWritten_of_legible (r : Printed) (h : r.Legible) : r.ReadAsWritten := by
  by_cases hsome : r.replayed = 0
  · exact (r.readAsWritten_none_iff hsome).mpr (h.empty hsome)
  · refine (r.readAsWritten_some_iff hsome).mpr ((h.replayed hsome).imp ?_ ?_)
    · rintro (htotal | hreplayable)
      · exact .inl htotal
      · exact .inr (.inr hreplayable)
    · exact fun ⟨hfits, hlegible⟩ => ⟨hfits, Printed.spelled_of_legible hlegible⟩

/-- A report of one legible decision, whose reason holds a row's text within its line. -/
def legibleReport : Printed :=
  { forgedReport with
    changes := [⟨.deny, .allow, "agent://a/bot".toList, "r1".toList,
      "denied: allow -> deny   agent://b  run r2".toList, "allowed".toList⟩]
    changes_lt := by decide }

theorem Printed.readAsWritten_of_legible_legibleReport :
    (∃ report, parseReport legibleReport.text = .ok report) ∧ legibleReport.ReadAsWritten := by
  have hlegible : ∀ c ∈ legibleReport.changes, c.Legible := by
    intro c hc
    obtain rfl := List.mem_singleton.mp hc
    exact ⟨⟨by decide, by decide⟩, .inr ⟨by decide, by decide⟩, ⟨by decide, by decide⟩,
      ⟨by decide, by decide⟩⟩
  have hone : legibleReport.spelled.length = legibleReport.changes.length := by
    rw [Printed.spelled_of_legible hlegible, List.length_map]
  refine ⟨?_, legibleReport.readAsWritten_of_legible
    ⟨fun h => absurd h (by decide), fun _ => .inr ⟨by decide, hlegible⟩⟩⟩
  rw [Printed.parseReport_text _ (by decide), if_neg (by decide), if_neg (not_not.mpr hone),
    if_neg (by decide)]
  exact ⟨_, rfl⟩

end Genaryx.Replay
