import Genaryx.Replay.Legible

/-!
# The two halves of a policy proof

The changed decisions of a report are filed under the incident, if their run is the incident's,
or elsewhere. The run id of a decision is cut to its first word and to a bound on the way, and
the incident's run id is not.

## Implementation notes

The changes elsewhere are counted by natural numbers. There are at most as many as the report
says, which is a `u64`.
-/

namespace Genaryx.Replay

open Base Text

/-- How the changes elsewhere sort. -/
structure Elsewhere where
  /-- Allowed then, denied or held under the candidate. -/
  tightened : Nat := 0
  /-- Denied or held then, allowed under the candidate. -/
  loosened : Nat := 0
  /-- Deny to hold or hold to deny. -/
  reclassified : Nat := 0
  deriving DecidableEq

/-- A proof, in both halves, with what could not be examined beside it. -/
structure PolicyProof where
  replayed : Nat
  outcomes : Outcomes
  trustworthy : Bool
  candidateGiven : Bool
  stopsThisIncident : Option Bool
  incidentChanges : List ChangedRow
  elsewhere : Elsewhere
  elsewhereChanges : List ChangedRow
  deriving DecidableEq

def allow : Text := "allow".toList

/-- One more change elsewhere. -/
def Elsewhere.add (e : Elsewhere) (row : ChangedRow) : Elsewhere :=
  if row.fromVerdict = allow then { e with tightened := e.tightened + 1 }
  else if row.toVerdict = allow then { e with loosened := e.loosened + 1 }
  else { e with reclassified := e.reclassified + 1 }

/-- A change that stops what was allowed. -/
def ChangedRow.stops (row : ChangedRow) : Bool :=
  row.fromVerdict = allow && (row.toVerdict = "deny".toList || row.toVerdict = "hold".toList)

/-- Turn a report into a proof about the incident that ran as `incidentRun`. -/
def judge (report : ReplayReport) (incidentRun : Text) : PolicyProof :=
  let trustworthy := decide (report.outcomes.diverged = 0)
  match report.candidate with
  | none =>
      { replayed := report.replayed
        outcomes := report.outcomes
        trustworthy
        candidateGiven := false
        stopsThisIncident := none
        incidentChanges := []
        elsewhere := {}
        elsewhereChanges := [] }
  | some candidate =>
      let halves := candidate.rows.partition fun row => row.run.text = incidentRun
      let stops := halves.1.any ChangedRow.stops
      { replayed := report.replayed
        outcomes := report.outcomes
        trustworthy
        candidateGiven := true
        stopsThisIncident :=
          if trustworthy && decide (candidate.replayable > 0) then some stops else none
        incidentChanges := halves.1
        elsewhere := halves.2.foldl Elsewhere.add {}
        elsewhereChanges := halves.2 }

/-! ## The decisions as they are written -/

/-- What follows the first word of a text. -/
def afterWord (t : Text) : Text := (trimStart t).dropWhile fun c => !isWhitespace c

def firstWord (t : Text) : Text := (splitWhitespace t).head?.getD []

/-- A changed decision as three lines write it. -/
structure Written where
  fromVerdict : Text
  toVerdict : Text
  agent : Text
  run : Text
  was : Text
  now : Text
  deriving DecidableEq

/-- The run id in what stands behind the arrow of a decision: all that follows the word `run`
and a blank. -/
def runWritten (rest : Text) : Text :=
  let behind := afterWord (afterWord rest)
  if firstWord behind = "run".toList then (afterWord behind).tail else []

/-- The decision that three lines write. -/
def writtenAt (header was now : Text) : Option Written := do
  let (fromVerdict, rest) ← splitOnceAt " -> ".toList (trimStart header)
  let was ← stripPrefix "was: ".toList (trimStart was)
  let now ← stripPrefix "now: ".toList (trimStart now)
  let toVerdict := firstWord rest
  let agent := firstWord (afterWord rest)
  let run := runWritten rest
  if isVerdict fromVerdict && isVerdict toVerdict then
    some { fromVerdict, toVerdict, agent, run, was, now }
  else none

/-- The decisions written by lines, each by three of them that no other uses. -/
def writtenIn : List Text → List Written
  | header :: was :: now :: rest =>
      match writtenAt header was now with
      | some w => w :: writtenIn rest
      | none => writtenIn (was :: now :: rest)
  | _ => []

/-- The changed decisions that a report was read from. -/
def changedDecisions (text : Text) (report : ReplayReport) : List Written :=
  match report.candidate with
  | none => []
  | some _ =>
      writtenIn ((Text.lines text).dropWhile fun l => !l.startsWith "Against ".toList).tail

/-- The row that a decision is read as. -/
def Written.row (w : Written) : ChangedRow where
  fromVerdict := w.fromVerdict
  toVerdict := w.toVerdict
  agent := .bounded w.agent
  run := .bounded (firstWord w.run)
  was := .bounded w.was
  now := .bounded w.now

section Words

/-- What follows a word begins with a blank, if it is not empty. -/
theorem afterWord_cases (t : Text) :
    afterWord t = [] ∨ ∃ c rest, afterWord t = c :: rest ∧ isWhitespace c = true := by
  cases h : afterWord t with
  | nil => exact .inl rfl
  | cons c rest =>
      have hhead := List.head?_dropWhile_not (fun c => !isWhitespace c) (trimStart t)
      rw [afterWord] at h
      rw [h] at hhead
      exact .inr ⟨c, rest, rfl, by simpa using hhead⟩

/-- The words of what follows a word are not changed by the blank before them. -/
theorem splitWhitespace_tail_afterWord (t : Text) :
    splitWhitespace (afterWord t).tail = splitWhitespace (afterWord t) := by
  obtain hnil | ⟨c, rest, hcons, hc⟩ := afterWord_cases t
  · rw [hnil]
    rfl
  · rw [hcons]
    exact (splitWhitespace_append [] hc rest).symm

/-- The words after the first one are those of what follows it. -/
theorem tail_splitWhitespace (t : Text) :
    (splitWhitespace t).tail = splitWhitespace (afterWord t) := by
  have hblank : splitWhitespace t = splitWhitespace (trimStart t) := by
    have hcut : splitWhitespace (t.takeWhile isWhitespace ++ trimStart t) =
        splitWhitespace (trimStart t) :=
      splitWhitespace_blank (fun c hc => List.mem_takeWhile_imp hc) (trimStart t)
    rwa [trimStart, List.takeWhile_append_dropWhile] at hcut
  have hparts : (trimStart t).takeWhile (fun c => !isWhitespace c) ++ afterWord t = trimStart t :=
    List.takeWhile_append_dropWhile
  have hclean : ∀ c ∈ (trimStart t).takeWhile (fun c => !isWhitespace c),
      isWhitespace c = false := fun c hc => by simpa using List.mem_takeWhile_imp hc
  rw [hblank]
  by_cases hword : (trimStart t).takeWhile (fun c => !isWhitespace c) = []
  · have hempty : trimStart t = [] := by
      cases hcons : trimStart t with
      | nil => rfl
      | cons c rest =>
          have hc := List.head?_dropWhile_not isWhitespace t
          rw [← trimStart, hcons] at hc
          rw [hcons, List.takeWhile_cons] at hword
          simp_all
    rw [hempty] at hparts
    rw [hempty, (List.append_eq_nil_iff.mp hparts).2]
    rfl
  · obtain hnil | ⟨c, rest, hcons, hc⟩ := afterWord_cases t
    · rw [hnil, List.append_nil] at hparts
      rw [hnil, ← hparts, splitWhitespace_word hword hclean]
      rfl
    · rw [← splitWhitespace_tail_afterWord, hcons, ← hparts, hcons,
        splitWhitespace_append _ hc, splitWhitespace_word hword hclean]
      rfl

/-- The run of a row is the first word of the run id that is written. -/
theorem runOf_words (rest : Text) :
    runOf (splitWhitespace rest).tail.tail = firstWord (runWritten rest) := by
  rw [tail_splitWhitespace, tail_splitWhitespace, runWritten]
  have hnext := tail_splitWhitespace (afterWord (afterWord rest))
  have hsame := splitWhitespace_tail_afterWord (afterWord (afterWord rest))
  cases hwords : splitWhitespace (afterWord (afterWord rest)) with
  | nil =>
      have hfirst : firstWord (afterWord (afterWord rest)) ≠ "run".toList := by
        rw [firstWord, hwords]
        decide
      rw [if_neg hfirst]
      rfl
  | cons word words =>
      rw [hwords] at hnext
      have hfirst : firstWord (afterWord (afterWord rest)) = word := by
        rw [firstWord, hwords]
        rfl
      rw [runOf, hfirst]
      split
      · rw [firstWord, hsame, ← hnext]
        rfl
      · rfl

/-- A row is read from lines exactly when a decision is written by them. -/
theorem rowAt_eq (header was now : Text) :
    rowAt header was now = (writtenAt header was now).map Written.row := by
  have hto : ∀ rest, (splitWhitespace rest).head?.getD [] = firstWord rest := fun _ => rfl
  have hagent : ∀ rest, (splitWhitespace rest).tail.head?.getD [] = firstWord (afterWord rest) :=
    fun rest => by rw [tail_splitWhitespace, firstWord]
  rw [rowAt, writtenAt]
  cases splitOnceAt " -> ".toList (trimStart header) with
  | none => rfl
  | some p =>
      cases stripPrefix "was: ".toList (trimStart was) with
      | none => rfl
      | some w =>
          cases stripPrefix "now: ".toList (trimStart now) with
          | none => rfl
          | some n =>
              simp only [Option.bind_eq_bind, Option.bind_some, hto, hagent, runOf_words]
              split
              · rfl
              · rfl

theorem rowsIn_eq (ls : List Text) : rowsIn ls = (writtenIn ls).map Written.row := by
  fun_induction writtenIn ls with
  | case1 header was now rest w hw ih =>
      rw [rowsIn, rowAt_eq, hw, List.map_cons, ← ih]
      rfl
  | case2 header was now rest hw ih =>
      rw [rowsIn, rowAt_eq, hw, ← ih]
      rfl
  | case3 ls hshort =>
      rcases ls with _ | ⟨header, _ | ⟨was, _ | ⟨now, rest⟩⟩⟩
      · rfl
      · rfl
      · rfl
      · exact absurd rfl (hshort header was now rest)

end Words

section Reports

variable {text incidentRun : Text} {report : ReplayReport}

/-- The rows of a section are those that its lines spell. -/
theorem rows_of_parseCandidate {lines : List Text} {c : CandidateResult}
    (h : parseCandidate lines = .ok (some c)) :
    c.rows = rowsIn (lines.dropWhile fun l => !l.startsWith "Against ".toList).tail := by
  unfold parseCandidate at h
  split at h
  · cases h
  · next head rest hsection =>
      simp only at h
      split at h
      · cases h
      · split at h
        · cases h
        · cases h
          rw [hsection]
          rfl

/-- The rows of a report are the decisions it was read from. -/
theorem rows_eq (h : parseReport text = .ok report) :
    report.rows = (changedDecisions text report).map Written.row := by
  have hcandidate : report.candidate = none ∨
      parseCandidate (Text.lines text) = .ok report.candidate := by
    unfold parseReport at h
    split at h
    · cases h
    · next first rest hlines =>
        split at h
        · cases h
        · split at h
          · split at h
            · cases h
              exact .inl rfl
            · cases h
          · split at h
            · cases h
            · split at h
              · cases h
              · split at h
                · cases h
                · next hparsed =>
                    split at h
                    · cases h
                    · cases h
                      rw [hlines]
                      exact .inr hparsed
  rw [ReplayReport.rows, changedDecisions]
  obtain hnone | hparsed := hcandidate
  · rw [hnone]
    rfl
  · cases hsome : report.candidate with
    | none => rfl
    | some c =>
        rw [hsome] at hparsed
        exact (rows_of_parseCandidate hparsed).trans (rowsIn_eq _)

/-- The halves of a proof are the rows of its report, told apart by their run. -/
theorem judge_halves (report : ReplayReport) (incidentRun : Text) :
    (judge report incidentRun).incidentChanges =
        report.rows.filter (fun row => row.run.text = incidentRun) ∧
      (judge report incidentRun).elsewhereChanges =
        report.rows.filter (fun row => !decide (row.run.text = incidentRun)) := by
  rw [judge, ReplayReport.rows]
  cases report.candidate with
  | none => exact ⟨rfl, rfl⟩
  | some c =>
      simp only [List.partition_eq_filter_filter]
      exact ⟨rfl, rfl⟩

/-- Every change elsewhere is counted once. -/
theorem judge_counts (report : ReplayReport) (incidentRun : Text) :
    (judge report incidentRun).elsewhere.tightened +
        (judge report incidentRun).elsewhere.loosened +
        (judge report incidentRun).elsewhere.reclassified =
      (judge report incidentRun).elsewhereChanges.length := by
  have hadd : ∀ (e : Elsewhere) (row : ChangedRow),
      (e.add row).tightened + (e.add row).loosened + (e.add row).reclassified =
        e.tightened + e.loosened + e.reclassified + 1 := by
    intro e row
    rw [Elsewhere.add]
    split_ifs <;> simp only <;> omega
  have hfold : ∀ (rows : List ChangedRow) (e : Elsewhere),
      (rows.foldl Elsewhere.add e).tightened + (rows.foldl Elsewhere.add e).loosened +
          (rows.foldl Elsewhere.add e).reclassified =
        e.tightened + e.loosened + e.reclassified + rows.length := by
    intro rows
    induction rows with
    | nil => exact fun _ => rfl
    | cons row rows ih =>
        intro e
        rw [List.foldl_cons, ih, hadd, List.length_cons]
        omega
  rw [judge]
  cases report.candidate with
  | none => rfl
  | some c => exact (hfold _ _).trans (Nat.zero_add _)

/-- Each changed decision is filed under the incident if its run is the incident's, and
elsewhere if not. -/
structure FiledRight (ws : List Written) (incidentRun : Text) (p : PolicyProof) : Prop where
  incident : p.incidentChanges =
    (ws.filter fun w => w.run = incidentRun).map Written.row
  elsewhere : p.elsewhereChanges =
    (ws.filter fun w => !decide (w.run = incidentRun)).map Written.row

/-- A run id is cut to what the incident's run id is exactly when it is that run id. -/
def CutRight (incidentRun run : Text) : Prop :=
  (firstWord run).take upstreamTextMax = incidentRun ↔ run = incidentRun

/-- Two filters of mapped items agree exactly when their tests do. -/
theorem filter_map_eq_iff {α β : Type} (f : α → β) (p : β → Bool) (q : α → Bool) (xs : List α) :
    ((xs.map f).filter p = (xs.filter q).map f ∧
        (xs.map f).filter (!p ·) = (xs.filter (!q ·)).map f) ↔
      ∀ x ∈ xs, p (f x) = q x := by
  constructor
  · rintro ⟨hpass, hfail⟩ x hx
    cases hq : q x with
    | true =>
        have hmem : f x ∈ (xs.filter q).map f :=
          List.mem_map_of_mem (List.mem_filter.mpr ⟨hx, hq⟩)
        rw [← hpass] at hmem
        exact (List.mem_filter.mp hmem).2
    | false =>
        have hmem : f x ∈ (xs.filter (!q ·)).map f :=
          List.mem_map_of_mem (List.mem_filter.mpr ⟨hx, by rw [hq]; rfl⟩)
        rw [← hfail] at hmem
        exact (Bool.not_eq_true' _).mp (List.mem_filter.mp hmem).2
  · intro h
    rw [List.filter_map, List.filter_map]
    constructor
    · exact congrArg (List.map f) (List.filter_congr h)
    · exact congrArg (List.map f) (List.filter_congr fun x hx => congrArg (!·) (h x hx))

theorem filedRight_iff (h : parseReport text = .ok report) :
    FiledRight (changedDecisions text report) incidentRun (judge report incidentRun) ↔
      ∀ w ∈ changedDecisions text report, CutRight incidentRun w.run := by
  obtain ⟨hincident, helsewhere⟩ := judge_halves report incidentRun
  have hiff := filter_map_eq_iff Written.row
    (fun row => decide (row.run.text = incidentRun)) (fun w => decide (w.run = incidentRun))
    (changedDecisions text report)
  rw [← rows_eq h, ← hincident, ← helsewhere] at hiff
  refine (Iff.intro (fun hfiled => ⟨hfiled.incident, hfiled.elsewhere⟩)
    fun hboth => ⟨hboth.1, hboth.2⟩).trans (hiff.trans ?_)
  exact forall₂_congr fun w _ => decide_eq_decide

end Reports

section Written

variable {blank word : Text} {c : Char}

/-- The first word of a text, and what follows it. -/
theorem firstWord_append (hblank : ∀ c ∈ blank, isWhitespace c = true) (hword : IsWord word)
    (hc : isWhitespace c = true) (rest : Text) :
    firstWord (blank ++ (word ++ c :: rest)) = word ∧
      afterWord (blank ++ (word ++ c :: rest)) = c :: rest := by
  have htrim : trimStart (blank ++ (word ++ c :: rest)) = word ++ c :: rest := by
    refine trimStart_append hblank fun d hd => ?_
    rw [List.head?_append_of_ne_nil _ hword.1] at hd
    exact hword.2 d (List.mem_of_mem_head? hd)
  constructor
  · rw [firstWord, splitWhitespace_blank hblank, splitWhitespace_append _ hc,
      hword.splitWhitespace]
    rfl
  · rw [afterWord, htrim, List.dropWhile_append_of_pos fun d hd => by rw [hword.2 d hd]; rfl]
    exact List.dropWhile_cons_of_neg (by rw [hc]; decide)

/-- What the lines of a decision write, if its agent is a word: its run id is the whole rest of
the first line. -/
def Change.written (c : Change) : Written where
  fromVerdict := c.fromVerdict.text
  toVerdict := c.toVerdict.text
  agent := c.agent
  run := c.run
  was := c.was
  now := c.now

theorem writtenAt_change {c : Change} (hagent : IsWord c.agent) :
    writtenAt c.headerLine c.wasLine c.nowLine = some c.written := by
  have hgap : "   ".toList = ' ' :: [' ', ' '] := by decide
  have hlabel : "  run ".toList = ' ' :: ([' '] ++ ("run".toList ++ [' '])) := by decide
  have hword : IsWord "run".toList := ⟨by decide, by decide⟩
  -- What stands behind the arrow, behind the verdict and behind the agent.
  let behindAgent := [' ', ' '] ++ ("run".toList ++ ' ' :: c.run)
  let behindTo := [' ', ' ', ' '] ++ (c.agent ++ behindAgent)
  let behindArrow := [] ++ (c.toVerdict.text ++ behindTo)
  have hshape : c.toVerdict.text ++ ("   ".toList ++ (c.agent ++ ("  run ".toList ++ c.run))) =
      behindArrow := by
    rw [hgap, hlabel]
    simp only [behindArrow, behindTo, behindAgent, List.cons_append, List.append_assoc,
      List.nil_append]
  obtain ⟨hto, hafterTo⟩ : firstWord behindArrow = c.toVerdict.text ∧
      afterWord behindArrow = behindTo :=
    firstWord_append (fun d hd => absurd hd List.not_mem_nil) (isWord_verdict c.toVerdict) rfl _
  obtain ⟨hagentWord, hafterAgent⟩ : firstWord behindTo = c.agent ∧
      afterWord behindTo = behindAgent :=
    firstWord_append (by decide) hagent rfl _
  obtain ⟨hrunWord, hafterRun⟩ : firstWord behindAgent = "run".toList ∧
      afterWord behindAgent = ' ' :: c.run :=
    firstWord_append (by decide) hword rfl _
  obtain ⟨hwas, hnow⟩ := c.strip_reasons
  rw [writtenAt, c.split_headerLine, hwas, hnow, hshape]
  simp only [Option.bind_eq_bind, Option.bind_some, runWritten, hafterTo, hto, hagentWord,
    hafterAgent, hrunWord, hafterRun, Change.isVerdict_text, Bool.and_self, if_true]
  rfl

end Written

/-- The changed decisions of a report are filed under the right half exactly when no run id
is cut to the incident's. All are filed once, and those elsewhere are counted. -/
structure FiledWhen (text incidentRun : Text) : Prop where
  filed_iff : ∀ report, parseReport text = .ok report → incidentRun ≠ [] →
    (FiledRight (changedDecisions text report) incidentRun (judge report incidentRun) ↔
      ∀ w ∈ changedDecisions text report, CutRight incidentRun w.run)
  counted : ∀ report,
    (judge report incidentRun).elsewhere.tightened +
        (judge report incidentRun).elsewhere.loosened +
        (judge report incidentRun).elsewhere.reclassified =
      (judge report incidentRun).elsewhereChanges.length
  written : ∀ c : Change, IsWord c.agent →
    writtenAt c.headerLine c.wasLine c.nowLine = some c.written
  short : ∀ run, IsWord run → incidentRun.length < upstreamTextMax → CutRight incidentRun run

/-- **Changes are filed under the right half** exactly when no run id is cut to the incident's. -/
theorem filed_when (text incidentRun : Text) : FiledWhen text incidentRun where
  filed_iff := fun _ hread _ => filedRight_iff hread
  counted := fun report => judge_counts report incidentRun
  written := fun _ hagent => writtenAt_change hagent
  short := by
    intro run hrun hshort
    have hfirst : firstWord run = run := by
      rw [firstWord, hrun.splitWhitespace]
      rfl
    rw [CutRight, hfirst]
    constructor
    · intro hcut
      have hlength := congrArg List.length hcut
      rw [List.length_take] at hlength
      rw [← hcut, List.take_of_length_le (by omega)]
    · rintro rfl
      exact List.take_of_length_le hshort.le

section Example

/-- A run id of one character more than a row keeps. -/
def longRun : Text := List.replicate 301 'a'

/-- What is printed of one decision that the candidate stops. -/
def longRunReport : Printed :=
  { forgedReport with
    changes := [⟨.allow, .deny, "agent://a/bot".toList, longRun, "allowed".toList, "denied".toList⟩]
    changes_lt := by decide }

/-- The incident's own decision is filed elsewhere, and that of another run is filed under the
incident. -/
theorem long_run_misfiled : ∃ report, parseReport longRunReport.text = .ok report ∧
    changedDecisions longRunReport.text report = longRunReport.changes.map Change.written ∧
    (judge report longRun).incidentChanges = [] ∧
    (judge report (longRun.take 300)).elsewhereChanges = [] ∧
    ¬ FiledRight (changedDecisions longRunReport.text report) longRun (judge report longRun) := by
  let report : ReplayReport := ⟨1, { reproduced := 1 }, some ⟨1, 1,
    [Change.written ⟨.allow, .deny, "agent://a/bot".toList, longRun, "allowed".toList,
      "denied".toList⟩ |>.row]⟩⟩
  have hwritten : changedDecisions longRunReport.text report =
      longRunReport.changes.map Change.written := by
    decide +kernel
  have hmissed : (judge report longRun).incidentChanges = [] := by decide +kernel
  refine ⟨report, by decide +kernel, hwritten, hmissed, by decide +kernel, fun hfiled => ?_⟩
  have hincident := hfiled.incident
  rw [hmissed, hwritten] at hincident
  exact absurd hincident (by decide +kernel)

end Example

end Genaryx.Replay
