import Genaryx.Replay.Report

/-!
# What is read back from a replay report

The lines of a report are those of its parts, and no row is spelled across two decisions. So
the rows that are read are the ones each decision spells, and the only other check on them is
that they are as many as the decisions.
-/

namespace Genaryx.Replay

open Base Text

def labels : List Text :=
  ["reproduced".toList, "approval-decided".toList, "approval-spent".toList,
    "approval-refused".toList, "not archived".toList, "unreadable".toList, "diverged".toList]

section Counters

variable {label label' note : Text} {n : Nat}

theorem counter_nil (hlabel : label ∈ labels) : counter label [] = none := by
  have hall : ∀ label ∈ labels, counter label [] = none := by decide
  exact hall label hlabel

/-- The number of a counter line is its first word after the label. -/
theorem head_words_number (blank : Text) (hblank : ∀ c ∈ blank, isWhitespace c = true)
    (hnote : note = [] ∨ ∃ t, note = ' ' :: t) :
    (splitWhitespace (blank ++ (decimal n ++ note))).head? = some (decimal n) := by
  have hclean : ∀ c ∈ decimal n, isWhitespace c = false :=
    fun c hc => not_isWhitespace_of_mem_decimal hc
  rw [splitWhitespace_blank hblank]
  obtain rfl | ⟨t, rfl⟩ := hnote
  · rw [List.append_nil, splitWhitespace_word (decimal_ne_nil n) hclean]
    rfl
  · rw [splitWhitespace_append _ rfl, splitWhitespace_word (decimal_ne_nil n) hclean]
    rfl

/-- A counter line is read as the counter of its own label only. -/
theorem counter_counterLine (hlabel : label ∈ labels) (hlabel' : label' ∈ labels)
    (hnote : note = [] ∨ ∃ t, note = ' ' :: t) :
    counter label (counterLine label' note n) =
      if label = label' then parseU64 (decimal n) else none := by
  have hshape : ∀ label ∈ labels, ∀ label' ∈ labels,
      (label ≠ label' → stripPrefix label (padRight 20 label') = none) ∧
        label.length ≤ (padRight 20 label').length ∧
        (padRight 20 label').head?.all (fun c => !isWhitespace c) = true ∧
        padRight 20 label = label ++ ' ' :: List.replicate (19 - label.length) ' ' := by
    decide
  obtain ⟨hother, hlength, hhead, -⟩ := hshape label hlabel label' hlabel'
  have hpad := (hshape label hlabel label hlabel).2.2.2
  have hnote' : (if n = 0 then [] else note) = [] ∨ ∃ t, (if n = 0 then [] else note) = ' ' :: t := by
    split
    · exact .inl rfl
    · exact hnote
  have htrim : trimStart (counterLine label' note n) =
      padRight 20 label' ++
        ([' '] ++ padLeft 3 (decimal n) ++ if n = 0 then [] else note) := by
    have hline : counterLine label' note n = "  ".toList ++ (padRight 20 label' ++
        ([' '] ++ padLeft 3 (decimal n) ++ if n = 0 then [] else note)) := by
      simp only [counterLine, List.append_assoc]
    rw [hline]
    refine trimStart_append (by decide) fun c hc => ?_
    obtain ⟨d, rest, hcons⟩ : ∃ d rest, padRight 20 label' = d :: rest := by
      cases hpadded : padRight 20 label' with
      | nil =>
          have hbound := (hshape label' hlabel' label' hlabel').2.2.2
          rw [hpadded] at hbound
          exact absurd (congrArg List.length hbound) (by simp)
      | cons d rest => exact ⟨d, rest, rfl⟩
    rw [hcons] at hhead hc
    cases hc
    simpa using hhead
  rw [counter, htrim]
  by_cases hsame : label = label'
  · subst hsame
    have hblank : ∀ c ∈ ' ' :: (List.replicate (19 - label.length) ' ' ++
        ([' '] ++ List.replicate (3 - (decimal n).length) ' ')), isWhitespace c = true := by
      intro c hc
      have hspace : c = ' ' := by
        simp only [List.mem_cons, List.mem_append, List.mem_replicate, List.not_mem_nil] at hc
        tauto
      rw [hspace]
      rfl
    have hrest : padRight 20 label ++
        ([' '] ++ padLeft 3 (decimal n) ++ if n = 0 then [] else note) =
        label ++ (' ' :: (List.replicate (19 - label.length) ' ' ++
          ([' '] ++ List.replicate (3 - (decimal n).length) ' ')) ++
          (decimal n ++ if n = 0 then [] else note)) := by
      rw [hpad, padLeft]
      simp only [List.append_assoc, List.cons_append]
    rw [if_pos rfl, hrest, stripPrefix_append]
    change (splitWhitespace _).head?.bind parseU64 = _
    rw [head_words_number _ hblank hnote']
    rfl
  · rw [if_neg hsame, stripPrefix_eq_none_append (hother hsame) hlength]
    rfl

end Counters

namespace Printed

variable (r : Printed)

/-- A report of nothing. -/
def silent : Printed where
  file := []
  replayed := 0
  outcomes := {}
  name := []
  replayable := 0
  changes := []
  file_line := List.not_mem_nil
  name_line := List.not_mem_nil
  replayed_lt := by decide
  outcomes_lt := by decide
  replayable_lt := by decide
  changes_lt := by decide

theorem newline_notMem_firstLine : '\n' ∉ r.firstLine :=
  List.not_mem_append (notMem_literal (by decide)) (List.not_mem_append (newline_notMem_decimal _)
    (List.not_mem_append (s := ' ' :: "decision(s) from ".toList) (by decide) r.file_line))

theorem newline_notMem_againstLine : '\n' ∉ r.againstLine :=
  List.not_mem_append (List.not_mem_append (notMem_literal (by decide))
    (List.not_mem_append r.name_line (List.not_mem_append (notMem_literal (by decide))
      (List.not_mem_append (newline_notMem_decimal _)
        (List.not_mem_append (notMem_literal (by decide)) (newline_notMem_decimal _))))))
    (notMem_literal (by decide))

/-- A counter line holds the characters of its label and note, blanks and digits. -/
theorem notMem_counterLine {c : Char} {label note : Text} (hblank : c ≠ ' ')
    (hdigit : c.isDigit = false) (hlabel : c ∉ label) (hnote : c ∉ note) (n : Nat) :
    c ∉ counterLine label note n := by
  have hpad : ∀ k, c ∉ List.replicate k ' ' := fun k h => hblank (List.eq_of_mem_replicate h)
  have hnumber : c ∉ decimal n := fun h => by
    rw [isDigit_of_mem_decimal h] at hdigit
    cases hdigit
  have hnote' : c ∉ if n = 0 then [] else note := by
    split
    · exact List.not_mem_nil
    · exact hnote
  exact List.not_mem_append (List.not_mem_append (List.not_mem_append (List.not_mem_append
    (hpad 2) (List.not_mem_append hlabel (hpad _))) (hpad 1))
    (List.not_mem_append (hpad _) hnumber)) hnote'

/-- The labels and notes do not depend on the numbers. -/
theorem counters_texts (p : Text → Text → Prop)
    (h : ∀ entry ∈ (silent.counters), p entry.1 entry.2.1) :
    ∀ entry ∈ r.counters, p entry.1 entry.2.1 := by
  intro entry hentry
  have htexts : r.counters.map (fun entry => (entry.1, entry.2.1)) =
      silent.counters.map fun entry => (entry.1, entry.2.1) := rfl
  have hmem := List.mem_map_of_mem (f := fun entry => (entry.1, entry.2.1)) hentry
  rw [htexts] at hmem
  obtain ⟨other, hother, heq⟩ := List.mem_map.mp hmem
  have hp := h other hother
  rw [Prod.mk.injEq] at heq
  rwa [heq.1, heq.2] at hp

/-- The labels and notes hold no control character. -/
theorem counters_visible : ∀ entry ∈ silent.counters,
    (∀ c ∈ entry.1, ' ' ≤ c) ∧ ∀ c ∈ entry.2.1, ' ' ≤ c := by
  simp only [counters, List.forall_mem_cons]
  and_intros
  all_goals first
    | exact fun _ h => absurd h List.not_mem_nil
    | exact forall_mem_literal (by decide)

/-- The counter lines hold no newline and no carriage return. -/
theorem counterLines_clean {c : Char} (hc : c = '\n' ∨ c = '\r') :
    ∀ line ∈ r.counterLines, c ∉ line := by
  have hblank : c ≠ ' ' := by rintro rfl; exact absurd hc (by decide)
  have hdigit : c.isDigit = false := by obtain rfl | rfl := hc <;> rfl
  have hcontrol : ¬ ' ' ≤ c := by obtain rfl | rfl := hc <;> decide
  have htexts := r.counters_texts (fun label note => c ∉ label ∧ c ∉ note) fun entry hentry =>
    (counters_visible entry hentry).imp (fun hvisible h => hcontrol (hvisible c h))
      fun hvisible h => hcontrol (hvisible c h)
  intro line hline
  obtain ⟨entry, hentry, rfl⟩ := List.mem_map.mp hline
  obtain ⟨hlabel, hnote⟩ := htexts entry hentry
  exact notMem_counterLine hblank hdigit hlabel hnote entry.2.2

/-- The first line without a carriage return at its end. -/
def shownFirst : Text :=
  "Replayed ".toList ++ (decimal r.replayed ++
    ' ' :: ("decision(s) from ".toList ++ stripCarriageReturn r.file))

/-- The number of the first line is its first word after `Replayed `. -/
theorem replayedOf_shownFirst : replayedOf r.shownFirst = some r.replayed := by
  have hwords := head_words_number (n := r.replayed) [] (fun _ hc => nomatch hc)
    (.inr ⟨"decision(s) from ".toList ++ stripCarriageReturn r.file, rfl⟩)
  unfold replayedOf shownFirst
  rw [stripPrefix_append]
  change ((splitWhitespace _).head?.bind parseU64) = _
  rw [List.nil_append] at hwords
  rw [hwords]
  exact (parseU64_decimal r.replayed).trans (if_pos r.replayed_lt)

theorem stripCarriageReturn_firstLine : stripCarriageReturn r.firstLine = r.shownFirst := by
  have hsplit : ∀ file : Text, "Replayed ".toList ++ (decimal r.replayed ++
      ' ' :: ("decision(s) from ".toList ++ file)) =
        "Replayed ".toList ++ (decimal r.replayed ++ ' ' :: "decision(s) from ".toList) ++ file :=
    fun file => by simp only [List.append_assoc, List.cons_append]
  unfold firstLine shownFirst
  rw [hsplit, hsplit]
  refine stripCarriageReturn_append ?_ r.file
  rw [List.getLast?_append_of_ne_nil _ (List.append_ne_nil_of_right_ne_nil _ (List.cons_ne_nil _ _)),
    List.getLast?_append_of_ne_nil _ (List.cons_ne_nil _ _)]
  decide

theorem stripCarriageReturn_againstLine : stripCarriageReturn r.againstLine = r.againstLine := by
  refine if_neg ?_
  unfold againstLine
  rw [List.getLast?_append_of_ne_nil _ (by decide)]
  decide

/-- The lines of a report. -/
theorem lines_text : Text.lines r.text =
    [r.shownFirst, []] ++ r.counterLines ++ [[], r.againstLine] ++ Text.lines r.changesText := by
  have hclean : ∀ t ∈ [r.firstLine, []] ++ r.counterLines ++ [[], r.againstLine], '\n' ∉ t := by
    intro t ht
    simp only [List.mem_append, List.mem_cons, List.not_mem_nil, or_false] at ht
    obtain ((rfl | rfl) | ht) | rfl | rfl := ht
    · exact r.newline_notMem_firstLine
    · exact List.not_mem_nil
    · exact r.counterLines_clean (.inl rfl) t ht
    · exact List.not_mem_nil
    · exact r.newline_notMem_againstLine
  have hcounters : r.counterLines.map stripCarriageReturn = r.counterLines := by
    rw [List.map_congr_left fun t ht =>
      stripCarriageReturn_of_notMem (r.counterLines_clean (.inr rfl) t ht), List.map_id']
  rw [text, lines_terminated_append hclean]
  simp only [List.map_append, List.map_cons, List.map_nil, hcounters,
    stripCarriageReturn_firstLine, stripCarriageReturn_againstLine]
  rfl

/-- A counter is found on the line with its own label. -/
theorem findSome?_counter {label : Text} (hlabel : label ∈ labels)
    {entries : List (Text × Text × Nat)} {entry : Text × Text × Nat}
    (hentries : ∀ e ∈ entries, e.1 ∈ labels ∧ (e.2.1 = [] ∨ ∃ t, e.2.1 = ' ' :: t))
    (hfind : entries.find? (fun e => decide (label = e.1)) = some entry)
    (hlt : entry.2.2 < u64Size) (tail : List Text) :
    ((entries.map fun e => counterLine e.1 e.2.1 e.2.2) ++ tail).findSome? (counter label) =
      some entry.2.2 := by
  induction entries with
  | nil => cases hfind
  | cons e entries ih =>
      obtain ⟨⟨he, hnote⟩, hrest⟩ := List.forall_mem_cons.mp hentries
      rw [List.map_cons, List.cons_append, List.findSome?_cons,
        counter_counterLine hlabel he hnote]
      rw [List.find?_cons] at hfind
      by_cases hsame : label = e.1
      · rw [decide_eq_true hsame] at hfind
        cases hfind
        rw [if_pos hsame, parseU64_decimal, if_pos hlt]
      · rw [decide_eq_false hsame] at hfind
        rw [if_neg hsame]
        exact ih hrest hfind

/-- The seven counters are read as they were printed. -/
theorem readOutcomes_counterLines (tail : List Text) :
    readOutcomes ([] :: (r.counterLines ++ tail)) = some r.outcomes := by
  obtain ⟨h1, h2, h3, h4, h5, h6, h7⟩ := r.outcomes_lt
  have hentries : ∀ e ∈ r.counters, e.1 ∈ labels ∧ (e.2.1 = [] ∨ ∃ t, e.2.1 = ' ' :: t) := by
    refine r.counters_texts (fun label note => label ∈ labels ∧ (note = [] ∨ ∃ t, note = ' ' :: t))
      fun e he => ?_
    have hlabels : labels = silent.counters.map Prod.fst := rfl
    have hnotes : ∀ e ∈ silent.counters, e.2.1 = [] ∨ e.2.1.head? = some ' ' := by
      simp only [counters, List.forall_mem_cons]
      and_intros
      all_goals first
        | exact fun _ h => absurd h List.not_mem_nil
        | exact .inl trivial
        | exact .inr (head?_literal.trans rfl)
    exact ⟨hlabels ▸ List.mem_map_of_mem he, (hnotes e he).imp_right List.head?_eq_some_iff.mp⟩
  have hread : ∀ label ∈ labels, ∀ entry,
      r.counters.find? (fun e => decide (label = e.1)) = some entry → entry.2.2 < u64Size →
      ([] :: (r.counterLines ++ tail)).findSome? (counter label) = some entry.2.2 := by
    intro label hlabel entry hfind hlt
    rw [List.findSome?_cons, counter_nil hlabel]
    exact findSome?_counter hlabel hentries hfind hlt tail
  have hlabel : ∀ (k : Nat) {label : Text}, labels[k]? = some label → label ∈ labels :=
    fun _ _ => List.mem_of_getElem?
  rw [readOutcomes, hread "reproduced".toList (hlabel 0 rfl) _ rfl h1,
    hread "approval-decided".toList (hlabel 1 rfl) _ rfl h2,
    hread "approval-spent".toList (hlabel 2 rfl) _ rfl h3,
    hread "approval-refused".toList (hlabel 3 rfl) _ rfl h4,
    hread "not archived".toList (hlabel 4 rfl) _ rfl h5,
    hread "unreadable".toList (hlabel 5 rfl) _ rfl h6,
    hread "diverged".toList (hlabel 6 rfl) _ rfl h7]
  rfl

theorem lines_change_append (c : Change) (b : Text) :
    Text.lines ('\n' :: (c.text ++ b)) = [] :: (Text.lines c.text ++ Text.lines b) := by
  have hends : ∃ body : Text, c.text = body ++ ['\n'] :=
    ⟨c.headerLine ++ '\n' :: (c.wasLine ++ '\n' :: c.nowLine), by
      rw [Change.text]
      simp only [List.append_assoc, List.cons_append]⟩
  obtain ⟨body, hbody⟩ := hends
  have hfirst := lines_cons_newline (List.not_mem_nil (a := '\n')) (c.text ++ b)
  rw [List.nil_append] at hfirst
  rw [hfirst, hbody, List.append_assoc, List.singleton_append, lines_append_newline]
  rfl

/-- No row is spelled across two decisions. -/
theorem rowsIn_changes (front : List Text) (cs : List Change) :
    rowsIn (front ++ Text.lines (cs.flatMap fun c => '\n' :: c.text)) =
      rowsIn front ++ cs.flatMap Change.spelled := by
  induction cs generalizing front with
  | nil =>
      rw [List.flatMap_nil, List.flatMap_nil, lines_nil, List.append_nil, List.append_nil]
  | cons c cs ih =>
      have hrest := ih (Text.lines c.text)
      rw [List.flatMap_cons, List.cons_append, lines_change_append, rowsIn_append_blank, hrest]
      rfl

/-- The rows of the changes are those that each decision spells. -/
theorem rowsIn_changesText : rowsIn (Text.lines r.changesText) = r.spelled := by
  rw [changesText, spelled]
  split
  · next hnone =>
      rw [hnone]
      decide +kernel
  · exact rowsIn_changes [] r.changes

/-- The two numbers of the `Against ` line are read as they were printed. -/
theorem counts_againstLine :
    (do let head ← stripSuffix " replayable decision(s) change:".toList r.againstLine
        let (_, counts) ← rsplitOnceAt ", ".toList head
        let (changed, replayable) ← splitOnceAt " of ".toList counts
        let changed ← parseU64 (trim changed)
        let replayable ← parseU64 (trim replayable)
        some (changed, replayable)) = some (r.changes.length, r.replayable) := by
  have hcomma : ∀ n, ',' ∉ decimal n := fun n h => absurd (isDigit_of_mem_decimal h) (by decide)
  have hspace : ∀ n, ' ' ∉ decimal n := fun n h => absurd (isDigit_of_mem_decimal h) (by decide)
  have hsep : (", ".toList).reverse = [' '] ++ [','] := by decide
  have hlast : ∀ tail : Text, ',' ∉ tail →
      rsplitOnceAt ", ".toList ("Against ".toList ++ (r.name ++ (", ".toList ++ tail))) =
        some ("Against ".toList ++ r.name, tail) := by
    intro tail htail
    have hfound := splitOnceAt_of_last (fun h => htail (List.mem_reverse.mp h))
      (by decide : ',' ∉ [' ']) ("Against ".toList ++ r.name).reverse
    have hreverse : ("Against ".toList ++ (r.name ++ (", ".toList ++ tail))).reverse =
        tail.reverse ++ ([' '] ++ ',' :: ("Against ".toList ++ r.name).reverse) := by
      simp only [List.reverse_append, hsep, List.append_assoc, List.cons_append, List.nil_append]
    rw [rsplitOnceAt, hreverse, hsep, hfound, Option.map_some, List.reverse_reverse,
      List.reverse_reverse]
  have hcounts := hlast (decimal r.changes.length ++ (" of ".toList ++ decimal r.replayable))
    (List.not_mem_append (hcomma _) (List.not_mem_append (notMem_literal (by decide)) (hcomma _)))
  have hof : splitOnceAt " of ".toList
      (decimal r.changes.length ++ (" of ".toList ++ decimal r.replayable)) =
      some (decimal r.changes.length, decimal r.replayable) :=
    splitOnceAt_of_head (hspace _) "of ".toList (decimal r.replayable)
  have htrim : ∀ n, trim (decimal n) = decimal n := fun n =>
    trim_of_clean fun c hc => not_isWhitespace_of_mem_decimal hc
  unfold againstLine
  rw [stripSuffix_append]
  simp only [Option.bind_eq_bind, Option.bind_some, hcounts, hof, htrim, parseU64_decimal,
    if_pos r.changes_lt, if_pos r.replayable_lt]

/-- The section of the candidate is read, if its rows are as many as it says. -/
theorem parseCandidate_lines :
    parseCandidate ([r.shownFirst, []] ++ r.counterLines ++ [[], r.againstLine] ++
        Text.lines r.changesText) =
      if r.spelled.length ≠ r.changes.length then
        .error (.inconsistent "the rows listed are not as many as the report says changed")
      else .ok (some ⟨r.changes.length, r.replayable, r.spelled⟩) := by
  have hdrop : ([r.shownFirst, []] ++ r.counterLines ++ [[], r.againstLine] ++
      Text.lines r.changesText).dropWhile (fun l => !l.startsWith "Against ".toList) =
      r.againstLine :: Text.lines r.changesText := by
    have hskip : ∀ l ∈ [r.shownFirst, []] ++ r.counterLines ++ [[]],
        (!l.startsWith "Against ".toList) = true := by
      intro l hl
      simp only [List.mem_append, List.mem_cons, List.not_mem_nil, or_false] at hl
      obtain ((rfl | rfl) | hl) | rfl := hl
      · rfl
      · rfl
      · obtain ⟨entry, -, rfl⟩ := List.mem_map.mp hl
        rfl
      · rfl
    have hfirst : (!r.againstLine.startsWith "Against ".toList) = false := by
      rw [Bool.not_eq_false', startsWith_iff]
      exact ⟨_, (List.append_assoc _ _ _).symm⟩
    have hshape : [r.shownFirst, []] ++ r.counterLines ++ [[], r.againstLine] ++
        Text.lines r.changesText = ([r.shownFirst, []] ++ r.counterLines ++ [[]]) ++
          r.againstLine :: Text.lines r.changesText := by
      simp only [List.append_assoc, List.cons_append, List.nil_append]
    rw [hshape, List.dropWhile_append_of_pos hskip]
    exact List.dropWhile_cons_of_neg (by rw [hfirst]; exact Bool.false_ne_true)
  rw [parseCandidate, hdrop]
  simp only [counts_againstLine, rowsIn_changesText]

/-- What is read from a report of some decisions. -/
theorem parseReport_text (hsome : r.replayed ≠ 0) :
    parseReport r.text =
      if r.outcomes.total ≠ r.replayed then
        .error (.inconsistent "the outcomes do not add up to the decisions replayed")
      else if r.spelled.length ≠ r.changes.length then
        .error (.inconsistent "the rows listed are not as many as the report says changed")
      else if r.replayable ≠ r.outcomes.replayable then
        .error (.inconsistent "the replayable decisions differ from the outcomes that carry a counterfactual")
      else .ok ⟨r.replayed, r.outcomes, some ⟨r.changes.length, r.replayable, r.spelled⟩⟩ := by
  have hcandidate := r.parseCandidate_lines
  have houtcomes := r.readOutcomes_counterLines ([[], r.againstLine] ++ Text.lines r.changesText)
  have hshape : [r.shownFirst, []] ++ r.counterLines ++ [[], r.againstLine] ++
      Text.lines r.changesText = r.shownFirst :: [] ::
        (r.counterLines ++ ([[], r.againstLine] ++ Text.lines r.changesText)) := by
    simp only [List.append_assoc, List.cons_append, List.nil_append]
  rw [hshape] at hcandidate
  rw [parseReport, lines_text, hshape]
  simp only [replayedOf_shownFirst, if_neg hsome, houtcomes]
  split
  · rfl
  · rw [hcandidate]
    by_cases hrows : r.spelled.length ≠ r.changes.length
    · rw [if_pos hrows, if_pos hrows]
    · rw [if_neg hrows, if_neg hrows]
      simp only [Option.any_some, bne_iff_ne]

/-- What is read from a report of no decisions. -/
theorem parseReport_text_none (hnone : r.replayed = 0) :
    parseReport r.text =
      if (Text.lines r.text).any (·.contains noDecisions) then .ok ⟨0, {}, none⟩
      else .error .unrecognised := by
  have hlines := r.lines_text
  obtain ⟨rest, hcons⟩ : ∃ rest, Text.lines r.text = r.shownFirst :: rest := ⟨_, hlines⟩
  rw [parseReport, hcons]
  simp only [replayedOf_shownFirst, hnone, if_true]

/-- The numbers of a report contradict each other, so that it is refused. -/
def Refused : Prop :=
  r.outcomes.total ≠ r.replayed ∨ r.spelled.length ≠ r.changes.length ∨
    r.replayable ≠ r.outcomes.replayable

/-- A report that is accepted shows the decisions it was printed from, in order, and its
counters add up as integers. -/
def ReadAsWritten : Prop :=
  ∀ report, parseReport r.text = .ok report →
    report.rows = r.changes.map Change.shown ∧ report.outcomes.sum = report.replayed

/-- The sum that the code computes is the integer sum exactly when that fits. -/
theorem sum_eq_replayed_iff (htotal : r.outcomes.total = r.replayed) :
    r.outcomes.sum = r.replayed ↔ r.outcomes.sum < u64Size := by
  have hlt := r.replayed_lt
  rw [Outcomes.total] at htotal
  constructor
  · intro hsum
    rwa [hsum]
  · intro hfits
    rwa [Nat.mod_eq_of_lt hfits] at htotal

/-- A report of no replayed decision is read as it was written just where it lists no change, or
does not say that there is no decision. -/
theorem readAsWritten_none_iff (hnone : r.replayed = 0) :
    r.ReadAsWritten ↔
      r.changes = [] ∨ (Text.lines r.text).any (·.contains noDecisions) = false := by
  rw [ReadAsWritten, r.parseReport_text_none hnone]
  by_cases hsays : (Text.lines r.text).any (·.contains noDecisions) = true
  · rw [if_pos hsays, hsays]
    constructor
    · intro hread
      have hrows := (hread _ rfl).1
      exact .inl (List.map_eq_nil_iff.mp hrows.symm)
    · rintro (hchanges | hno) report hreport
      · cases hreport
        rw [hchanges]
        exact ⟨rfl, rfl⟩
      · cases hno
  · rw [if_neg hsays]
    exact ⟨fun _ => .inr (Bool.eq_false_iff.mpr hsays), fun _ report hreport => nomatch hreport⟩

/-- Another report is read as it was written just where it is refused, or its counters do not wrap
around and the lines of its decisions spell just the decisions. -/
theorem readAsWritten_some_iff (hsome : r.replayed ≠ 0) :
    r.ReadAsWritten ↔
      r.Refused ∨ (r.outcomes.sum < u64Size ∧ r.spelled = r.changes.map Change.shown) := by
  rw [ReadAsWritten, r.parseReport_text hsome, Refused]
  by_cases htotal : r.outcomes.total = r.replayed
  · by_cases hrows : r.spelled.length = r.changes.length
    · by_cases hreplayable : r.replayable = r.outcomes.replayable
      · rw [if_neg (not_not.mpr htotal), if_neg (not_not.mpr hrows),
          if_neg (not_not.mpr hreplayable)]
        constructor
        · intro hread
          obtain ⟨hshown, hsum⟩ := hread _ rfl
          exact .inr ⟨(r.sum_eq_replayed_iff htotal).mp hsum, hshown⟩
        · rintro (hrefused | ⟨hfits, hshown⟩) report hreport
          · exact absurd hrefused (by simp [htotal, hrows, hreplayable])
          · cases hreport
            exact ⟨hshown, (r.sum_eq_replayed_iff htotal).mpr hfits⟩
      · rw [if_neg (not_not.mpr htotal), if_neg (not_not.mpr hrows), if_pos hreplayable]
        exact ⟨fun _ => .inl (.inr (.inr hreplayable)), fun _ report hreport => nomatch hreport⟩
    · rw [if_neg (not_not.mpr htotal), if_pos hrows]
      exact ⟨fun _ => .inl (.inr (.inl hrows)), fun _ report hreport => nomatch hreport⟩
  · rw [if_pos htotal]
    exact ⟨fun _ => .inl (.inl htotal), fun _ report hreport => nomatch hreport⟩

end Printed

/-- A decision whose run id spells another row's first line, so that its own reasons become
the reasons of that row. -/
def forgingChange : Change where
  fromVerdict := .deny
  toVerdict := .allow
  agent := "agent://a/bot".toList
  run := "r1\n  allow -> deny   agent://forged  run r-incident".toList
  was := "denied".toList
  now := "allowed".toList

/-- A report of one decision that a forged row takes the place of. -/
def forgedReport : Printed where
  file := "e.ndjson".toList
  replayed := 1
  outcomes := { reproduced := 1 }
  name := "c.yaml".toList
  replayable := 1
  changes := [forgingChange]
  file_line := by decide
  name_line := by decide
  replayed_lt := by decide
  outcomes_lt := by decide
  replayable_lt := by decide
  changes_lt := by decide

/-- The forged row is believed: the report is accepted and does not show its decision. -/
theorem forged_row_believed : ¬ forgedReport.ReadAsWritten := by
  intro hread
  have hparsed : (parseReport forgedReport.text).toOption.any (fun report =>
      report.rows != forgedReport.changes.map Change.shown) = true := by
    decide +kernel
  cases hreport : parseReport forgedReport.text with
  | error e =>
      rw [hreport] at hparsed
      cases hparsed
  | ok report =>
      rw [hreport] at hparsed
      exact bne_iff_ne.mp hparsed (hread report hreport).1

end Genaryx.Replay
