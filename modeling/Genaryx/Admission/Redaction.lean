import Genaryx.Base.Pieces
import Genaryx.Base.Utf8
import Genaryx.Base.Words

/-!
# An admission baseline

The baseline of a newcomer is an eval run of the `verdryx` binary under the newcomer's own key,
a snapshot of that run, and its summary read back from the store. The key goes to the child
process in its environment only, and is taken out of every text of the child that an error
shows.

## Implementation notes

What a child process does, and the store that it writes, are parameters.
-/

namespace Genaryx.Admission

open Base

variable {F : Type}

/-- What a run of the store comes to. -/
structure RunSummary (F : Type) where
  caseCount : Nat
  meanScore : Option F
  totalCostUsd : F

structure AdmissionBaselineDto (F : Type) where
  runId : Text
  caseCount : Nat
  meanScore : Option F
  totalCostUsd : F
  baselineIdOrLabel : Text

/-- The errors that a baseline can end in. -/
inductive AdmissionError
  | verdryx (message : Text)
  | unparseableOutput (context stdoutExcerpt : Text)
  | runNotFound (runId : Text)
  deriving DecidableEq

/-- A child process: its program, its arguments and what is set in its environment. -/
structure Command where
  bin : Text
  args : List Text
  env : List (Text × Text)

/-- What a child process leaves: its exit code, unless a signal ended it, and what it printed. -/
structure Output where
  code : Option Int
  stdout : Bytes
  stderr : Bytes

/-- The processes and the store around a baseline, with the texts of their errors. -/
structure Verdryx (F : Type) where
  output : Command → Except Text Output
  openStore : Text → Except Text Unit
  runSummary : Text → Text → Except Text (Option (RunSummary F))

/-- Replace every occurrence of a secret, unless it is empty. -/
def redactSecret (text secret : Text) : Text :=
  if secret.isEmpty then text else Text.replace secret "[redacted]" text

def excerptMaxChars : Nat := 400

/-- What stands behind a text that was cut. -/
def truncated : Text := "... [truncated]"

/-- The beginning of a text, as long as an error may show. -/
def excerpt (s : Text) : Text :=
  let out := s.take excerptMaxChars
  if s.length > excerptMaxChars then out ++ truncated else out

/-- The first word behind a prefix, on the first line that begins with it. -/
def parseId (before stdout : Text) : Option Text :=
  (((Text.lines stdout).findSome? fun line => Text.stripPrefix before (Text.trimStart line)).bind
    fun rest => (Text.splitWhitespace rest).head?).filter fun s => !s.isEmpty

def parseEvalRunId (stdout : Text) : Option Text := parseId "Eval run " stdout

def parseBaselineId (stdout : Text) : Option Text := parseId "Baseline " stdout

variable (V : Verdryx F)

/-- Run the binary once and read its stdout. -/
def spawnVerdryx (bin : Text) (args : List Text) (gatewayUrl apiKey : Text) :
    Except AdmissionError Text :=
  match V.output ⟨bin, args, [("ANTHROPIC_BASE_URL", gatewayUrl), ("ANTHROPIC_API_KEY", apiKey)]⟩ with
  | .error e => .error (.verdryx ("could not spawn ".toList ++ bin ++ ": ".toList ++ e))
  | .ok out =>
      if out.code = some 0 then .ok (Utf8.fromUtf8Lossy out.stdout)
      else
        let stderr := Utf8.fromUtf8Lossy out.stderr
        let safeStderr := redactSecret (Text.trim stderr) apiKey
        .error (.verdryx ("verdryx exited ".toList ++ Text.displayInt (out.code.getD (-1)) ++
          ": ".toList ++ safeStderr))

/-- The arguments of an eval run. -/
def evalArgs (evalsetPath model agentId dbPath : Text) : List Text :=
  ["eval", evalsetPath, "--model", model, "--agent-id", agentId, "--db", dbPath]

/-- The arguments of a baseline of a run. -/
def baselineArgs (runId dbPath label : Text) : List Text :=
  ["baseline", runId, "--db", dbPath, "--label", label]

/-- An error of the store as an error of the baseline. -/
def ofStore {α : Type} : Except Text α → Except AdmissionError α
  | .error e => .error (.verdryx e)
  | .ok a => .ok a

/-- The eval run, its baseline and the read-back. -/
def runBaselineBlocking (bin evalsetPath model agentId apiKey gatewayUrl dbPath label : Text) :
    Except AdmissionError (AdmissionBaselineDto F) := do
  let evalOut ← spawnVerdryx V bin (evalArgs evalsetPath model agentId dbPath) gatewayUrl apiKey
  match parseEvalRunId evalOut with
  | none => .error (.unparseableOutput "eval run id" (redactSecret (excerpt evalOut) apiKey))
  | some runId =>
      let baselineOut ← spawnVerdryx V bin (baselineArgs runId dbPath label) gatewayUrl apiKey
      let baselineId := parseBaselineId baselineOut
      let _ ← ofStore (V.openStore dbPath)
      match ← ofStore (V.runSummary dbPath runId) with
      | none => .error (.runNotFound runId)
      | some summary =>
          .ok {
            runId := runId
            caseCount := summary.caseCount
            meanScore := summary.meanScore
            totalCostUsd := summary.totalCostUsd
            baselineIdOrLabel := baselineId.getD label }

end Genaryx.Admission

/-!
## What an admission error shows of a key

A child that prints copies of its key between fixed pieces is run once with each of two keys.
The error is the same for both where the copies are found whole. The excerpt is cut before its
copies are replaced, so it shows the beginning of a copy that the cut falls into.

### Implementation notes

The keys are compared in what they leave behind, so they have one length and stand nowhere but
in the copies.
-/

namespace Genaryx.Admission

open Base Text

variable {F : Type}

/-- What a child prints, with its key in the copies. -/
structure Prints where
  code : Option Int
  stdout : Pieces
  stderr : Pieces

/-- The output of a child under a key. -/
def Prints.output (p : Prints) (key : Text) : Output :=
  ⟨p.code, Utf8.encode (p.stdout.fill key), Utf8.encode (p.stderr.fill key)⟩

/-- One baseline under each of two keys, around a child that prints the key it was given. -/
structure TwoRuns (F : Type) where
  child : List Text → Except Text Prints
  openStore : Text → Except Text Unit
  runSummary : Text → Text → Except Text (Option (RunSummary F))
  bin : Text
  evalsetPath : Text
  model : Text
  agentId : Text
  gatewayUrl : Text
  dbPath : Text
  label : Text
  key : Text
  key' : Text
  key_ne : key ≠ []
  length_eq : key.length = key'.length
  onlyBetween : ∀ args p, child args = .ok p →
    ∀ ps ∈ [p.stdout, p.stderr], ps.OnlyBetween key ∧ ps.OnlyBetween key'

namespace TwoRuns

variable (r : TwoRuns F)

/-- The child prints the key that is set in its environment. -/
def verdryx : Verdryx F where
  output cmd := (r.child cmd.args).map fun p =>
    p.output ((cmd.env.lookup "ANTHROPIC_API_KEY".toList).getD [])
  openStore := r.openStore
  runSummary := r.runSummary

/-- The baseline under a key. -/
def run (key : Text) : Except AdmissionError (AdmissionBaselineDto F) :=
  runBaselineBlocking r.verdryx r.bin r.evalsetPath r.model r.agentId key r.gatewayUrl r.dbPath
    r.label

/-- The error a run ends in, if it does. -/
def errorOf {α : Type} : Except AdmissionError α → Option AdmissionError
  | .error e => some e
  | .ok _ => none

/-- Both runs end in the same error, or neither does in one. -/
def SameError : Prop := errorOf (r.run r.key) = errorOf (r.run r.key')

def evalChild : Except Text Prints :=
  r.child (evalArgs r.evalsetPath r.model r.agentId r.dbPath)

def baselineChild (runId : Text) : Except Text Prints := r.child (baselineArgs runId r.dbPath r.label)

/-- What the baseline of a run id ends in if it fails, with the copies of the key hidden. -/
def baselineError (runId : Text) : Option AdmissionError :=
  match r.baselineChild runId with
  | .error e => some (.verdryx ("could not spawn ".toList ++ r.bin ++ ": ".toList ++ e))
  | .ok q =>
      if q.code = some 0 then
        match r.openStore r.dbPath with
        | .error e => some (.verdryx e)
        | .ok () =>
            match r.runSummary r.dbPath runId with
            | .error e => some (.verdryx e)
            | .ok none => some (.runNotFound runId)
            | .ok (some _) => none
      else some (.verdryx ("verdryx exited ".toList ++ Text.displayInt (q.code.getD (-1)) ++
        ": ".toList ++ q.stderr.trim.fill "[redacted]"))

/-- Trimming breaks no copy of a key in what a failing child printed. -/
def KeptInStderr (key : Text) (p : Prints) : Prop := p.code ≠ some 0 → p.stderr.KeptByTrim key

/-- Wherever a text is redacted, its copies are whole: trimming reaches none of them, and no key
stands where the mark of a cut excerpt meets what is shown before it. -/
structure Clear : Prop where
  eval_kept : ∀ p, r.evalChild = .ok p → KeptInStderr r.key p ∧ KeptInStderr r.key' p
  unmarked : ∀ p, r.evalChild = .ok p → p.code = some 0 →
    parseEvalRunId (p.stdout.fill r.key) = none → parseEvalRunId (p.stdout.fill r.key') = none →
    excerptMaxChars < (p.stdout.fill r.key).length →
    ¬ r.key <:+: (p.stdout.cutPieces r.key excerptMaxChars truncated).last ∧
      ¬ r.key' <:+: (p.stdout.cutPieces r.key' excerptMaxChars truncated).last
  baseline_kept : ∀ p, r.evalChild = .ok p → p.code = some 0 →
    ∀ key ∈ [r.key, r.key'], ∀ runId, parseEvalRunId (p.stdout.fill key) = some runId →
      ∀ q, r.baselineChild runId = .ok q → KeptInStderr key q

/-- The keys begin alike as far as an excerpt shows the copy that it is cut in. -/
def HeadsAgree (p : Prints) : Prop :=
  r.key.take (Pieces.cutInto r.key.length excerptMaxChars p.stdout.first) =
    r.key'.take (Pieces.cutInto r.key.length excerptMaxChars p.stdout.first)

/-- What a successful eval run prints leads both keys to the same end: no run id and an excerpt
that is cut where the keys are alike, or two run ids whose baselines end alike. -/
def LedAlike (p : Prints) : Prop :=
  match parseEvalRunId (p.stdout.fill r.key), parseEvalRunId (p.stdout.fill r.key') with
  | none, none => r.HeadsAgree p
  | some runId, some runId' => r.baselineError runId = r.baselineError runId'
  | _, _ => False

variable {r}

theorem key'_ne : r.key' ≠ [] := by
  have hpos := List.length_pos_iff.mpr r.key_ne
  rw [r.length_eq] at hpos
  exact List.length_pos_iff.mp hpos

/-- A child under a key prints its text with the key in the copies. -/
theorem output_verdryx (key : Text) (args : List Text) :
    r.verdryx.output ⟨r.bin, args, [("ANTHROPIC_BASE_URL", r.gatewayUrl),
      ("ANTHROPIC_API_KEY", key)]⟩ = (r.child args).map fun p => p.output key := rfl

/-- A child run under a key: why it could not be started, how it failed, or its stdout. -/
theorem spawnVerdryx_verdryx (key : Text) (args : List Text) :
    spawnVerdryx r.verdryx r.bin args r.gatewayUrl key =
      match r.child args with
      | .error e => .error (.verdryx ("could not spawn ".toList ++ r.bin ++ ": ".toList ++ e))
      | .ok p =>
          if p.code = some 0 then .ok (p.stdout.fill key)
          else .error (.verdryx ("verdryx exited ".toList ++
            Text.displayInt (p.code.getD (-1)) ++ ": ".toList ++
              redactSecret (Text.trim (p.stderr.fill key)) key)) := by
  rw [spawnVerdryx, output_verdryx]
  cases r.child args with
  | error e => rfl
  | ok p =>
      simp only [Except.map, Prints.output, Utf8.fromUtf8Lossy_encode]

theorem redactSecret_of_ne {key : Text} (h : key ≠ []) (text : Text) :
    redactSecret text key = Text.replace key "[redacted]" text := by
  rw [redactSecret, if_neg (by simpa using h)]

/-- The stderr of a failing child is shown with the copies hidden. -/
theorem redactSecret_stderr {key : Text} (hkey : key ∈ [r.key, r.key']) {args : List Text}
    {p : Prints} (hp : r.child args = .ok p) (hkept : p.stderr.KeptByTrim key) :
    redactSecret (Text.trim (p.stderr.fill key)) key = p.stderr.trim.fill "[redacted]" := by
  have hbetween := r.onlyBetween args p hp p.stderr (by simp)
  obtain rfl | rfl := List.mem_pair.mp hkey
  · rw [redactSecret_of_ne r.key_ne, Pieces.replace_trim_fill r.key_ne hbetween.1 hkept]
  · rw [redactSecret_of_ne key'_ne, Pieces.replace_trim_fill key'_ne hbetween.2 hkept]

/-- An excerpt is shown as the cut pieces of the text with its copies replaced. -/
theorem redactSecret_excerpt {key : Text} (hne : key ≠ []) {ps : Pieces}
    (hbetween : ps.OnlyBetween key)
    (hmark : excerptMaxChars < (ps.fill key).length →
      ¬ key <:+: (ps.cutPieces key excerptMaxChars truncated).last) :
    redactSecret (excerpt (ps.fill key)) key =
      if excerptMaxChars < (ps.fill key).length then
        (ps.cutPieces key excerptMaxChars truncated).fill "[redacted]"
      else ps.fill "[redacted]" := by
  rw [redactSecret_of_ne hne, excerpt]
  split
  · next hlong => rw [Pieces.replace_cut hne hbetween excerptMaxChars (hmark hlong)]
  · next hshort =>
      obtain ⟨hclean, hlast⟩ := hbetween.spaced hne
      rw [List.take_of_length_le (by omega)]
      exact Pieces.replace_fill hne hclean hlast _

/-- The excerpts that are shown with the two keys are the same where the keys begin alike as far
as the cut copy is shown. -/
theorem redactSecret_excerpt_iff {p : Prints} {args : List Text} (hp : r.child args = .ok p)
    (hmark : excerptMaxChars < (p.stdout.fill r.key).length →
      ¬ r.key <:+: (p.stdout.cutPieces r.key excerptMaxChars truncated).last ∧
        ¬ r.key' <:+: (p.stdout.cutPieces r.key' excerptMaxChars truncated).last) :
    redactSecret (excerpt (p.stdout.fill r.key)) r.key =
        redactSecret (excerpt (p.stdout.fill r.key')) r.key' ↔ r.HeadsAgree p := by
  have hbetween := r.onlyBetween args p hp p.stdout (by simp)
  have hlength := Pieces.length_fill_congr r.length_eq p.stdout
  rw [redactSecret_excerpt r.key_ne hbetween.1 fun h => (hmark h).1,
    redactSecret_excerpt key'_ne hbetween.2 fun h => (hmark (hlength ▸ h)).2, ← hlength]
  split
  · exact Pieces.fill_cutPieces_eq_iff r.length_eq _ _ _ _
  · next hshort =>
      rw [HeadsAgree, Pieces.cutInto_of_length_le (not_lt.mp hshort)]
      exact iff_of_true rfl rfl

/-- A run whose eval run printed a run id fails as the baseline of this id does. -/
theorem errorOf_run_of_runId (h : r.Clear) {key : Text} (hkey : key ∈ [r.key, r.key'])
    {p : Prints} (hchild : r.evalChild = .ok p) (hcode : p.code = some 0) {runId : Text}
    (hid : parseEvalRunId (p.stdout.fill key) = some runId) :
    errorOf (r.run key) = r.baselineError runId := by
  rw [run, runBaselineBlocking, spawnVerdryx_verdryx, ← evalChild, hchild, baselineError]
  simp only [hcode, if_true, Except.bind, bind, hid]
  rw [spawnVerdryx_verdryx, ← baselineChild]
  cases hbaseline : r.baselineChild runId with
  | error e => rfl
  | ok q =>
      dsimp only
      by_cases hexit : q.code = some 0
      · rw [if_pos hexit, if_pos hexit]
        change errorOf (Except.bind (ofStore (r.openStore r.dbPath)) fun _ =>
          Except.bind (ofStore (r.runSummary r.dbPath runId)) _) = _
        cases r.openStore r.dbPath with
        | error e => rfl
        | ok u =>
            change errorOf (Except.bind (ofStore (r.runSummary r.dbPath runId)) _) = _
            cases r.runSummary r.dbPath runId with
            | error e => rfl
            | ok found => cases found <;> rfl
      · have hkept := h.baseline_kept p hchild hcode key hkey runId hid q hbaseline hexit
        rw [if_neg hexit, if_neg hexit, redactSecret_stderr hkey hbaseline hkept]
        rfl

/-- A run whose eval run printed no run id shows an excerpt. -/
theorem errorOf_run_of_no_runId {key : Text} {p : Prints} (hchild : r.evalChild = .ok p)
    (hcode : p.code = some 0) (hid : parseEvalRunId (p.stdout.fill key) = none) :
    errorOf (r.run key) = some (.unparseableOutput "eval run id"
      (redactSecret (excerpt (p.stdout.fill key)) key)) := by
  rw [run, runBaselineBlocking, spawnVerdryx_verdryx, ← evalChild, hchild]
  simp only [hcode, if_true, Except.bind, bind, hid]
  rfl

/-- The baseline of a run id does not end in an excerpt. -/
theorem baselineError_ne (runId context text : Text) :
    r.baselineError runId ≠ some (.unparseableOutput context text) := by
  unfold baselineError
  rintro h
  split at h
  · cases h
  · split at h
    · split at h
      · cases h
      · split at h <;> cases h
    · cases h

/-- A failing eval run is shown with the copies hidden. -/
theorem errorOf_run_of_exit (h : r.Clear) {key : Text} (hkey : key ∈ [r.key, r.key']) {p : Prints}
    (hchild : r.evalChild = .ok p) (hcode : p.code ≠ some 0) :
    errorOf (r.run key) = some (.verdryx ("verdryx exited ".toList ++
      Text.displayInt (p.code.getD (-1)) ++ ": ".toList ++ p.stderr.trim.fill "[redacted]")) := by
  have hkept : p.stderr.KeptByTrim key := by
    obtain rfl | rfl := List.mem_pair.mp hkey
    · exact (h.eval_kept p hchild).1 hcode
    · exact (h.eval_kept p hchild).2 hcode
  rw [run, runBaselineBlocking, spawnVerdryx_verdryx, ← evalChild, hchild]
  simp only [hcode, if_false, redactSecret_stderr hkey hchild hkept]
  rfl

/-- Where the redacted texts have their copies whole, the error tells the two keys apart exactly
where the eval run does not lead them to the same end. -/
theorem sameError_iff (h : r.Clear) :
    r.SameError ↔ ∀ p, r.evalChild = .ok p → p.code = some 0 → r.LedAlike p := by
  have hkey : r.key ∈ [r.key, r.key'] := List.mem_cons_self
  have hkey' : r.key' ∈ [r.key, r.key'] := List.mem_cons_of_mem _ List.mem_cons_self
  rcases hchild : r.evalChild with e | p
  · refine iff_of_true ?_ fun p hp => nomatch hp
    rw [SameError, run, run, runBaselineBlocking, runBaselineBlocking, spawnVerdryx_verdryx,
      spawnVerdryx_verdryx, ← evalChild, hchild]
    rfl
  · simp only [Except.ok.injEq, forall_eq']
    by_cases hcode : p.code = some 0
    · rw [SameError, imp_iff_right hcode, LedAlike]
      rcases hid : parseEvalRunId (p.stdout.fill r.key) with _ | runId <;>
        rcases hid' : parseEvalRunId (p.stdout.fill r.key') with _ | runId' <;> dsimp only
      · rw [errorOf_run_of_no_runId hchild hcode hid, errorOf_run_of_no_runId hchild hcode hid',
          ← redactSecret_excerpt_iff hchild (h.unmarked p hchild hcode hid hid'),
          Option.some.injEq, AdmissionError.unparseableOutput.injEq]
        exact and_iff_right rfl
      · rw [errorOf_run_of_no_runId hchild hcode hid,
          errorOf_run_of_runId h hkey' hchild hcode hid', iff_false]
        exact (baselineError_ne runId' _ _).symm
      · rw [errorOf_run_of_no_runId hchild hcode hid',
          errorOf_run_of_runId h hkey hchild hcode hid, iff_false]
        exact baselineError_ne runId _ _
      · rw [errorOf_run_of_runId h hkey hchild hcode hid,
          errorOf_run_of_runId h hkey' hchild hcode hid']
    · refine iff_of_true ?_ fun hzero => absurd hzero hcode
      rw [SameError, errorOf_run_of_exit h hkey hchild hcode,
        errorOf_run_of_exit h hkey' hchild hcode]

end TwoRuns

section Sample

/-- An eval run without a run id, that prints its key behind one text and before another. -/
def sampleRuns (before after : Text) (hbefore : 'k' ∉ before ∧ 'm' ∉ before)
    (hafter : 'k' ∉ after ∧ 'm' ∉ after) : TwoRuns Unit where
  child _ := .ok ⟨some 0, ⟨[before], after⟩, ⟨[], []⟩⟩
  openStore _ := .ok ()
  runSummary _ _ := .ok none
  bin := "verdryx"
  evalsetPath := "set"
  model := "claude"
  agentId := "agent://acme.example/a"
  gatewayUrl := "http://127.0.0.1:8080"
  dbPath := "verdryx.db"
  label := "first"
  key := ['k', 'e', 'y', '-', 'o', 'n', 'e']
  key' := ['m', 'y', '-', 'k', 'e', 'y', 's']
  key_ne := by decide
  length_eq := by decide
  onlyBetween := by
    intro args p hp ps hps
    cases hp
    obtain rfl | rfl := List.mem_pair.mp hps
    · exact ⟨Pieces.onlyBetween_of_notMem (by decide) (by simpa using hbefore.1) hafter.1,
        Pieces.onlyBetween_of_notMem (by decide) (by simpa using hbefore.2) hafter.2⟩
    · exact ⟨Pieces.onlyBetween_of_notMem (by decide) (by simp) (by simp),
        Pieces.onlyBetween_of_notMem (by decide) (by simp) (by simp)⟩

/-- A copy that is printed before the cut is not shown. -/
theorem whole_copy_hidden :
    (sampleRuns "auth: " " refused\n" (by decide) (by decide)).SameError := by
  refine (TwoRuns.sameError_iff ⟨?_, ?_, ?_⟩).mpr ?_
  · intro p hp
    cases hp
    exact ⟨fun hcode => absurd rfl hcode, fun hcode => absurd rfl hcode⟩
  · intro p hp _ _ _ hlong
    cases hp
    exact absurd hlong (by decide)
  · intro p hp _ key _ runId _ q hq hcode
    cases hq
    exact absurd rfl hcode
  · intro p hp _
    cases hp
    have hnone : parseEvalRunId "auth: key-one refused\n" = none := by decide +kernel
    have hnone' : parseEvalRunId "auth: my-keys refused\n" = none := by decide +kernel
    unfold TwoRuns.LedAlike
    split
    · unfold TwoRuns.HeadsAgree
      decide
    · next hid _ => exact nomatch hnone.symm.trans hid
    · next hother _ => exact hother hnone hnone'

/-- A copy that the cut falls into is shown up to the cut. -/
theorem cut_copy_shown : ¬ ∀ r : TwoRuns Unit, r.SameError := by
  intro h
  have hsame := h (sampleRuns (List.replicate 396 'x') [] (by decide) (by decide))
  revert hsame
  unfold TwoRuns.SameError
  decide +kernel

end Sample

end Genaryx.Admission
