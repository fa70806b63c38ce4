import Genaryx.Base.Lines
import Genaryx.Replay.Backtest

/-!
# The rest of the trace

What a report is known to hold once it is accepted, and when the whole trace less the incident's
run could itself be the report of a trace.
-/

namespace Genaryx.Replay

open Base Text

/-- The counters of a report could be those of a trace. -/
structure BacktestReport.Sound (r : BacktestReport) : Prop where
  affected_le : r.runsAffected ≤ r.runsTotal
  blocked_le : r.callsBlocked ≤ r.callsTotal
  affected_le_blocked : r.runsAffected ≤ r.callsBlocked
  affected_iff : 0 < r.runsAffected ↔ 0 < r.callsBlocked

/-- The counters of the rest could be those of a trace. -/
structure BudgetElsewhere.Sound (e : BudgetElsewhere) : Prop where
  affected_le : e.runsAffected ≤ e.runs
  blocked_le : e.callsBlocked ≤ e.calls
  affected_le_blocked : e.runsAffected ≤ e.callsBlocked
  affected_iff : 0 < e.runsAffected ↔ 0 < e.callsBlocked

section Accepted

variable {text echoed : Text} {asked : BudgetCandidate} {r r' : BacktestReport} {projected : Int}

/-- A report passes the checks with its own candidate line and counters that hold together. -/
theorem checkReport_eq_ok_iff : checkReport asked echoed r projected = .ok r' ↔
    r = r' ∧ echoed = asked.describe ∧ r.Sound ∧
      some projected = checkedI64 (r.spentMicros - r.savedMicros) := by
  rw [checkReport]
  by_cases hecho : echoed = asked.describe
  · rw [if_neg (not_not.mpr hecho)]
    split
    · next hmore =>
        refine ⟨(nomatch ·), fun h => ?_⟩
        have hsound := h.2.2.1
        have haffected := hsound.affected_le
        have hblocked := hsound.blocked_le
        have hboth := hsound.affected_le_blocked
        omega
    · next hmore =>
        split
        · next hdiffer =>
            refine ⟨(nomatch ·), fun h => absurd ?_ hdiffer⟩
            exact decide_eq_decide.mpr h.2.2.1.affected_iff
        · next hsame =>
            have hiff : 0 < r.runsAffected ↔ 0 < r.callsBlocked :=
              decide_eq_decide.mp (not_not.mp hsame)
            have hsound : r.Sound := ⟨by omega, by omega, by omega, hiff⟩
            split
            · next hproject => exact ⟨(nomatch ·), fun h => absurd h.2.2.2 hproject⟩
            · next hproject =>
                constructor
                · intro h
                  exact ⟨Except.ok.inj h, hecho, hsound, not_not.mp hproject⟩
                · intro h
                  exact congrArg Except.ok h.1
  · rw [if_pos hecho]
    exact ⟨(nomatch ·), fun h => absurd h.2.1 hecho⟩

/-- An accepted text is a head line and six lines that say the report for the candidate. -/
theorem parseBacktest_eq_ok_iff : parseBacktest text asked = .ok r ↔
    ∃ l1 l2 l3 l4 l5 l6 projected, Text.lines text = [headLine, l1, l2, l3, l4, l5, l6] ∧
      readLines l1 l2 l3 l4 l5 l6 = some (asked.describe, r, projected) ∧ r.Sound ∧
      some projected = checkedI64 (r.spentMicros - r.savedMicros) := by
  constructor
  · intro h
    unfold parseBacktest at h
    split at h
    · split at h <;> cases h
    · next l0 l1 l2 l3 l4 l5 l6 hlines =>
        split at h
        · cases h
        · next hhead =>
            split at h
            · cases h
            · next echoed report projected hread =>
                obtain ⟨rfl, rfl, hsound, hproject⟩ := checkReport_eq_ok_iff.mp h
                rw [not_not.mp hhead] at hlines
                exact ⟨l1, l2, l3, l4, l5, l6, projected, hlines, hread, hsound, hproject⟩
    · cases h
  · rintro ⟨l1, l2, l3, l4, l5, l6, projected, hlines, hread, hsound, hproject⟩
    rw [parseBacktest, hlines]
    simp only [ne_eq, not_true_eq_false, if_false, hread]
    exact checkReport_eq_ok_iff.mpr ⟨rfl, rfl, hsound, hproject⟩

end Accepted

section Judged

variable {runId : Text} {c : BudgetCandidate} {run trace : BacktestReport} {copied : Nat}
  {tied : Bool} {proof : BudgetProof}

/-- The whole trace holds what the incident's run holds. -/
structure Within (run trace : BacktestReport) : Prop where
  runs_eq : run.runsTotal = 1
  runs_pos : 1 ≤ trace.runsTotal
  calls_le : run.callsTotal ≤ trace.callsTotal
  affected_le : run.runsAffected ≤ trace.runsAffected
  blocked_le : run.callsBlocked ≤ trace.callsBlocked

theorem subtract_of_le {a b : Nat} (h : b ≤ a) : subtract a b = .ok (a - b) := if_pos h

/-- Nothing underflows in a trace that holds what the run holds. -/
theorem elsewhereOf_of_within (h : Within run trace) : elsewhereOf run trace = .ok
    { runs := trace.runsTotal - run.runsTotal
      runsAffected := trace.runsAffected - run.runsAffected
      calls := trace.callsTotal - run.callsTotal
      callsBlocked := trace.callsBlocked - run.callsBlocked
      savedMicros := saturatingSub trace.savedMicros run.savedMicros } := by
  have hruns : run.runsTotal ≤ trace.runsTotal := h.runs_eq.le.trans h.runs_pos
  rw [elsewhereOf, subtract_of_le hruns, subtract_of_le h.affected_le, subtract_of_le h.calls_le,
    subtract_of_le h.blocked_le]
  rfl

/-- Every pair of reports is refused, or judged without an underflow. -/
theorem judgeBudget_cases (runId : Text) (c : BudgetCandidate) (run trace : BacktestReport)
    (copied : Nat) (tied : Bool) :
    (∃ reason, judgeBudget runId c run trace copied tied = .error (.refused reason)) ∨
      (Within run trace ∧ ∃ proof, judgeBudget runId c run trace copied tied = .ok proof ∧
        elsewhereOf run trace = .ok proof.elsewhere) := by
  rw [judgeBudget]
  split
  · exact .inl ⟨_, rfl⟩
  · next hruns =>
      split
      · exact .inl ⟨_, rfl⟩
      · split
        · exact .inl ⟨_, rfl⟩
        · next hpos =>
            split
            · exact .inl ⟨_, rfl⟩
            · next hcalls =>
                split
                · exact .inl ⟨_, rfl⟩
                · next hblocks =>
                    have hwithin : Within run trace :=
                      ⟨not_not.mp hruns, by omega, by omega, by omega, by omega⟩
                    have helsewhere := elsewhereOf_of_within hwithin
                    rw [helsewhere]
                    exact .inr ⟨hwithin, _, rfl, rfl⟩

theorem judgeBudget_ne_underflowed :
    judgeBudget runId c run trace copied tied ≠ .error .underflowed := by
  obtain ⟨reason, hrefused⟩ | ⟨-, proof, hok, -⟩ :=
    judgeBudget_cases runId c run trace copied tied
  · rw [hrefused]
    simp
  · rw [hok]
    simp

/-- The rest of a judged pair is the trace less the run, counter by counter. -/
structure IsRest (run trace : BacktestReport) (e : BudgetElsewhere) : Prop where
  runs : e.runs + run.runsTotal = trace.runsTotal
  runsAffected : e.runsAffected + run.runsAffected = trace.runsAffected
  calls : e.calls + run.callsTotal = trace.callsTotal
  callsBlocked : e.callsBlocked + run.callsBlocked = trace.callsBlocked

theorem isRest_of_judged (h : judgeBudget runId c run trace copied tied = .ok proof) :
    Within run trace ∧ IsRest run trace proof.elsewhere := by
  obtain ⟨reason, hrefused⟩ | ⟨hwithin, proof', hok, helsewhere⟩ :=
    judgeBudget_cases runId c run trace copied tied
  · rw [hrefused] at h
    cases h
  · rw [hok] at h
    cases h
    rw [elsewhereOf_of_within hwithin] at helsewhere
    obtain ⟨hruns, hpos, hcalls, haffected, hblocked⟩ := hwithin
    rw [← Except.ok.inj helsewhere]
    refine ⟨⟨hruns, hpos, hcalls, haffected, hblocked⟩, ?_, ?_, ?_, ?_⟩
    all_goals
      simp only
      omega

/-- The trace leaves room for what it holds beside the run: a run that is spared if the
incident's own is, the calls of the run that are not blocked, and other blocked calls for the
other affected runs, and only for those. -/
structure RestPossible (run trace : BacktestReport) : Prop where
  spared : run.runsAffected = 0 → trace.runsAffected < trace.runsTotal
  passed : run.callsTotal - run.callsBlocked ≤ trace.callsTotal - trace.callsBlocked
  stopped : run.runsAffected ≠ 0 →
    trace.runsAffected - 1 ≤ trace.callsBlocked - run.callsBlocked ∧
      (1 < trace.runsAffected ↔ run.callsBlocked < trace.callsBlocked)

/-- The rest of two sound reports is sound exactly when the trace has room for it. -/
theorem sound_rest_iff {e : BudgetElsewhere} (hrun : run.Sound) (htrace : trace.Sound)
    (hwithin : Within run trace) (hrest : IsRest run trace e) :
    e.Sound ↔ RestPossible run trace := by
  obtain ⟨hruns, haffected, hcalls, hblocked⟩ := hrest
  have hsingle := hwithin.runs_eq
  have hone : run.runsAffected ≤ 1 := hsingle ▸ hrun.affected_le
  constructor
  · intro he
    refine ⟨fun hspared => ?_, ?_, fun hstopped => ⟨?_, ?_⟩⟩
    · have hle := he.affected_le
      have hpos := hwithin.runs_pos
      omega
    · have hle := he.blocked_le
      omega
    · have hle := he.affected_le_blocked
      omega
    · have hiff := he.affected_iff
      omega
  · rintro ⟨hspared, hpassed, hstopped⟩
    by_cases hzero : run.runsAffected = 0
    · have hlt := hspared hzero
      have hnone : run.callsBlocked = 0 :=
        Nat.eq_zero_of_not_pos fun h => (hrun.affected_iff.mpr h).ne' hzero
      have hle := htrace.affected_le_blocked
      have hiff := htrace.affected_iff
      have hfits := htrace.blocked_le
      constructor <;> omega
    · obtain ⟨hothers, hiff⟩ := hstopped hzero
      have hpos := htrace.affected_le
      have hfits := htrace.blocked_le
      have hown := hrun.blocked_le
      constructor <;> omega

end Judged

/-- No subtraction underflows, and the rest of two accepted reports that are judged together is
their difference, which is a report that could be exactly when the trace has room for it. -/
structure RemainderSoundWhen (runText traceText runId : Text) (asked : BudgetCandidate) (copied : Nat)
    (tied : Bool) : Prop where
  no_underflow : ∀ run trace, judgeBudget runId asked run trace copied tied ≠ .error .underflowed
  rest : ∀ run trace proof,
    parseBacktest runText asked = .ok run → parseBacktest traceText asked = .ok trace →
    judgeBudget runId asked run trace copied tied = .ok proof →
    IsRest run trace proof.elsewhere ∧ (proof.elsewhere.Sound ↔ RestPossible run trace)

/-- **The rest of a trace is a possible report** exactly when the trace has room for it. -/
theorem remainder_sound_when (runText traceText runId : Text) (asked : BudgetCandidate)
    (copied : Nat) (tied : Bool) :
    RemainderSoundWhen runText traceText runId asked copied tied where
  no_underflow := fun _ _ => judgeBudget_ne_underflowed
  rest := by
    intro run trace proof hrun htrace hjudged
    obtain ⟨_, _, _, _, _, _, _, -, -, hrunSound, -⟩ := parseBacktest_eq_ok_iff.mp hrun
    obtain ⟨_, _, _, _, _, _, _, -, -, htraceSound, -⟩ := parseBacktest_eq_ok_iff.mp htrace
    obtain ⟨hwithin, hrest⟩ := isRest_of_judged hjudged
    exact ⟨hrest, sound_rest_iff hrunSound htraceSound hwithin hrest⟩

section Example

/-- A step limit and nothing else. -/
def stepsOnly : BudgetCandidate := ⟨none, none, some 1⟩

/-- What is printed of a run whose one call is not blocked. -/
def sparedRun : Text :=
  Framing.terminated '\n' [headLine, candidateLine ++ "max_steps 1".toList,
    runsLine ++ "1 (0 affected)".toList, callsLine ++ "1 (0 would be blocked)".toList,
    spendLine ++ "$0.000001".toList, savedLine ++ "$0.000000 (0.0%)".toList,
    projectedLine ++ "$0.000001".toList]

/-- What is printed of a trace whose one run is affected. -/
def affectedTrace : Text :=
  Framing.terminated '\n' [headLine, candidateLine ++ "max_steps 1".toList,
    runsLine ++ "1 (1 affected)".toList, callsLine ++ "2 (1 would be blocked)".toList,
    spendLine ++ "$0.000002".toList, savedLine ++ "$0.000001 (50.0%)".toList,
    projectedLine ++ "$0.000001".toList]

/-- The rest of a trace is accepted with an affected run among none. -/
theorem affected_run_among_none : ∃ run trace proof,
    parseBacktest sparedRun stepsOnly = .ok run ∧
      parseBacktest affectedTrace stepsOnly = .ok trace ∧
      judgeBudget "r-1".toList stepsOnly run trace 1 false = .ok proof ∧
      ¬ proof.elsewhere.Sound := by
  refine ⟨⟨1, 0, 1, 0, 1, 0⟩, ⟨1, 1, 2, 1, 2, 1⟩, _, ?_, ?_, rfl, ?_⟩
  · decide +kernel
  · decide +kernel
  · exact fun h => absurd h.affected_le (by decide)

end Example

end Genaryx.Replay
