import Genaryx.Replay.Remainder
import Mathlib.Data.Option.Basic

/-!
# The candidate that a report echoes

A report carries the line that its candidate is printed as, with four decimals of each amount.
Candidates that are printed alike share their reports.
-/

namespace Genaryx.Replay

open Base Json Text

/-- An operator can ask for this candidate. -/
def BudgetCandidate.Built (c : BudgetCandidate) : Prop :=
  ∃ perRun perStep maxSteps, BudgetCandidate.fromParts perRun perStep maxSteps = .ok c

/-- Two candidates set the same limits, with one step limit and amounts that are printed alike. -/
structure BudgetCandidate.SameLine (c d : BudgetCandidate) : Prop where
  perRun : c.perRunMicros.map tenThousandths = d.perRunMicros.map tenThousandths
  perStep : c.perStepMicros.map tenThousandths = d.perStepMicros.map tenThousandths
  maxSteps : c.maxSteps = d.maxSteps

/-- An amount that a limit may have. -/
def InRange (micros : Int) : Prop := 1 ≤ micros ∧ micros ≤ maxLimitMicros

section Amounts

variable {m n : Int}

/-- What is printed of an amount is the nearest ten-thousandth of a dollar. -/
theorem tenThousandths_near (h : InRange n) : |100 * tenThousandths n - n| ≤ 50 := by
  have hmax : maxLimitMicros = 1000000000000 := rfl
  obtain ⟨hlow, hhigh⟩ := h
  have hexact : toDouble n = n := toDouble_intCast (by rw [abs_lt]; constructor <;> omega)
  have hlowq : (0 : ℚ) ≤ n := by exact_mod_cast (by omega : (0 : Int) ≤ n)
  have hhighq : (n : ℚ) ≤ 1000000000000 := by exact_mod_cast hmax ▸ hhigh
  have hdouble := toDouble_near ((n : ℚ) / 1000000)
  have hround := roundEven_near (toDouble ((n : ℚ) / 1000000) * 10000)
  have hprinted : roundEven (toDouble ((n : ℚ) / 1000000) * 10000) = tenThousandths n := by
    rw [tenThousandths, hexact]
  rw [abs_of_nonneg (by positivity : (0 : ℚ) ≤ (n : ℚ) / 1000000)] at hdouble
  rw [hprinted] at hround
  have hlt : |(100 * tenThousandths n - n : ℚ)| < 51 := by
    rw [abs_le] at hdouble hround
    rw [abs_lt]
    constructor <;> linarith
  have hint : |100 * tenThousandths n - n| < 51 := by exact_mod_cast hlt
  omega

theorem tenThousandths_nonneg (h : InRange n) : 0 ≤ tenThousandths n := by
  have hnear := abs_le.mp (tenThousandths_near h)
  have hlow := h.1
  omega

/-- Amounts that are printed alike differ by a hundred micro-dollars at most. -/
theorem abs_sub_le_of_tenThousandths_eq (hm : InRange m) (hn : InRange n)
    (h : tenThousandths m = tenThousandths n) : |m - n| ≤ 100 := by
  have hmnear := abs_le.mp (tenThousandths_near hm)
  have hnnear := abs_le.mp (tenThousandths_near hn)
  rw [abs_le]
  omega

/-- An amount of whole ten-thousandths is printed as it is. -/
theorem tenThousandths_of_dvd (hn : InRange n) (h : 100 ∣ n) : 100 * tenThousandths n = n := by
  have hnear := abs_le.mp (tenThousandths_near hn)
  obtain ⟨k, rfl⟩ := h
  omega

theorem fourDecimals_eq_iff (hm : InRange m) (hn : InRange n) :
    fourDecimals m = fourDecimals n ↔ tenThousandths m = tenThousandths n := by
  have hpoint : ∀ k, '.' ∉ decimal k := fun k => point_notMem (isDigits_decimal k).2
  have htext : ∀ {k : Int}, InRange k → fourDecimals k =
      decimal ((tenThousandths k).natAbs / 10000) ++
        '.' :: padded 4 ((tenThousandths k).natAbs % 10000) := by
    intro k hk
    have hlow := hk.1
    rw [fourDecimals, if_neg (by omega)]
    rfl
  have hmnonneg := tenThousandths_nonneg hm
  have hnnonneg := tenThousandths_nonneg hn
  constructor
  · intro h
    rw [htext hm, htext hn] at h
    obtain ⟨hwhole, hfraction⟩ := append_cons_inj (hpoint _) (hpoint _) h
    have hquot := decimal_injective hwhole
    have hrem := congrArg digitsValue hfraction
    rw [digitsValue_padded, digitsValue_padded] at hrem
    omega
  · intro h
    rw [htext hm, htext hn, h]

end Amounts

section Lines

/-- A prefix that differs from how a text begins is no prefix of it. -/
theorem stripPrefix_eq_none_of_take {p s : Text} {k : Nat} (hp : k ≤ p.length)
    (hs : k ≤ s.length) (hne : p.take k ≠ s.take k) (t : Text) :
    stripPrefix p (s ++ t) = none := by
  rw [stripPrefix_eq_none_iff]
  rintro ⟨r, hr⟩
  have hwhole := congrArg (List.take k) hr
  rw [List.take_append_of_le_length hs, List.take_append_of_le_length hp] at hwhole
  exact hne hwhole

/-- Joined pieces without the first character of the separator are told apart. -/
theorem intercalate_inj {x : Char} {sep : Text} {ps qs : List Text} (hps : ps ≠ [])
    (hqs : qs ≠ []) (hp : ∀ p ∈ ps, x ∉ p) (hq : ∀ q ∈ qs, x ∉ q)
    (h : (x :: sep).intercalate ps = (x :: sep).intercalate qs) : ps = qs := by
  have hone : ∀ {p q q' : Text} {rest : List Text}, x ∉ p →
      (x :: sep).intercalate [p] ≠ (x :: sep).intercalate (q :: q' :: rest) := by
    intro p q q' rest hp heq
    rw [List.intercalate_singleton, List.intercalate_cons_cons] at heq
    rw [heq] at hp
    simp at hp
  induction ps generalizing qs with
  | nil => exact absurd rfl hps
  | cons p ps ih =>
      obtain ⟨hpx, hprest⟩ := List.forall_mem_cons.mp hp
      cases qs with
      | nil => exact absurd rfl hqs
      | cons q qs =>
          obtain ⟨hqx, hqrest⟩ := List.forall_mem_cons.mp hq
          cases ps with
          | nil =>
              cases qs with
              | nil =>
                  rw [List.intercalate_singleton, List.intercalate_singleton] at h
                  rw [h]
              | cons q' qs => exact absurd h (hone hpx)
          | cons p' ps =>
              cases qs with
              | nil => exact absurd h.symm (hone hqx)
              | cons q' qs =>
                  rw [List.intercalate_cons_cons, List.intercalate_cons_cons, List.append_assoc,
                    List.append_assoc] at h
                  obtain ⟨hhead, htail⟩ := append_cons_inj hpx hqx h
                  have hrest := ih (List.cons_ne_nil p' ps) (List.cons_ne_nil q' qs) hprest hqrest
                    (List.append_cancel_left htail)
                  rw [hhead, hrest]

end Lines

namespace BudgetCandidate

variable {c d : BudgetCandidate}

theorem inRange_of_mapM {text : Option Text} {micros : Option Int}
    (h : text.mapM parseUsd = .ok micros) : ∀ n, micros = some n → InRange n := by
  rintro n rfl
  cases text with
  | none => cases h
  | some t =>
      cases hread : parseUsd t with
      | error e =>
          rw [Option.mapM_some, hread] at h
          cases h
      | ok m =>
          rw [Option.mapM_some, hread] at h
          cases h
          exact (parseUsd_eq_ok_iff.mp hread).2

/-- The amounts of a built candidate are in range, and it sets a limit. -/
theorem Built.bounds (h : c.Built) : (∀ n, c.perRunMicros = some n → InRange n) ∧
    (∀ n, c.perStepMicros = some n → InRange n) ∧ c.parts ≠ [] := by
  obtain ⟨perRun, perStep, maxSteps, hbuilt⟩ := h
  unfold fromParts at hbuilt
  cases hrun : perRun.mapM parseUsd with
  | error e =>
      rw [hrun] at hbuilt
      cases hbuilt
  | ok runMicros =>
      cases hstep : perStep.mapM parseUsd with
      | error e =>
          rw [hrun, hstep] at hbuilt
          cases hbuilt
      | ok stepMicros =>
          rw [hrun, hstep] at hbuilt
          simp only [bind, Except.bind] at hbuilt
          split at hbuilt
          · cases hbuilt
          · split at hbuilt
            · cases hbuilt
            · next hlimit =>
                cases hbuilt
                refine ⟨inRange_of_mapM hrun, inRange_of_mapM hstep, fun hnil => hlimit ?_⟩
                simp only [parts, List.append_eq_nil_iff, Option.toList_eq_nil_iff,
                  Option.map_eq_none_iff] at hnil
                obtain ⟨rfl, rfl, rfl⟩ := hnil
                rfl

theorem comma_notMem_fourDecimals (n : Int) : ',' ∉ fourDecimals n := by
  have hdigits : ∀ {t : Text}, IsDigits t → ',' ∉ t := fun h hmem =>
    absurd (h.2 ',' hmem) (by decide)
  refine List.not_mem_append ?_ (List.not_mem_append (hdigits (isDigits_decimal _)) ?_)
  · split
    · decide
    · exact List.not_mem_nil
  · exact List.not_mem_cons_of_ne_of_not_mem (by decide) (hdigits (isDigits_padded _ _))

theorem comma_notMem_parts : ∀ p ∈ c.parts, ',' ∉ p := by
  intro p hp
  simp only [parts, List.mem_append, Option.mem_toList, Option.map_eq_some_iff] at hp
  rcases hp with ⟨n, -, rfl⟩ | ⟨n, -, rfl⟩ | ⟨n, -, rfl⟩
  · exact List.not_mem_append (notMem_literal (by decide)) (comma_notMem_fourDecimals n)
  · exact List.not_mem_append (notMem_literal (by decide)) (comma_notMem_fourDecimals n)
  · exact List.not_mem_append (notMem_literal (by decide)) fun hmem =>
      absurd (isDigit_of_mem_decimal hmem) (by decide)

/-- The parts that begin with a label are those of its limit. -/
theorem filterMap_parts :
    c.parts.filterMap (stripPrefix "budget/run $".toList) =
        (c.perRunMicros.map fourDecimals).toList ∧
      c.parts.filterMap (stripPrefix "budget/step $".toList) =
        (c.perStepMicros.map fourDecimals).toList ∧
      c.parts.filterMap (stripPrefix "max_steps ".toList) =
        (c.maxSteps.map fun n => decimal n.toNat).toList := by
  have hsame : ∀ {α : Type} (o : Option α) (label : Text) (f : α → Text),
      (o.map fun a => label ++ f a).toList.filterMap (stripPrefix label) =
        (o.map f).toList := by
    intro α o label f
    cases o with
    | none => rfl
    | some a =>
        rw [Option.map_some, Option.toList_some, List.filterMap_cons, stripPrefix_append]
        rfl
  have hother : ∀ {α : Type} (o : Option α) (p label : Text) (f : α → Text),
      (8 ≤ p.length ∧ 8 ≤ label.length ∧ p.take 8 ≠ label.take 8) →
      (o.map fun a => label ++ f a).toList.filterMap (stripPrefix p) = [] := by
    rintro α o p label f ⟨hp, hlabel, hne⟩
    cases o with
    | none => rfl
    | some a =>
        rw [Option.map_some, Option.toList_some, List.filterMap_cons,
          stripPrefix_eq_none_of_take hp hlabel hne]
        rfl
  rw [parts]
  simp only [List.filterMap_append, hsame]
  refine ⟨?_, ?_, ?_⟩
  · rw [hother _ _ _ _ (by decide), hother _ _ _ _ (by decide),
      List.append_nil, List.append_nil]
  · rw [hother _ _ _ _ (by decide), hother _ _ _ _ (by decide),
      List.append_nil, List.nil_append]
  · rw [hother _ _ _ _ (by decide), hother _ _ _ _ (by decide),
      List.nil_append, List.nil_append]

theorem toList_inj {α : Type} {x y : Option α} (h : x.toList = y.toList) : x = y := by
  cases x with
  | none =>
      cases y with
      | none => rfl
      | some b => cases h
  | some a =>
      cases y with
      | none => cases h
      | some b => exact congrArg some (List.singleton_inj.mp h)

/-- Built candidates are printed as one line exactly when they are alike in what is printed. -/
theorem describe_eq_iff (hc : c.Built) (hd : d.Built) :
    c.describe = d.describe ↔ c.SameLine d := by
  obtain ⟨hcrun, hcstep, hcparts⟩ := hc.bounds
  obtain ⟨hdrun, hdstep, hdparts⟩ := hd.bounds
  have hprinted : ∀ {x y : Option Int}, (∀ n, x = some n → InRange n) →
      (∀ n, y = some n → InRange n) →
      (x.map fourDecimals = y.map fourDecimals ↔ x.map tenThousandths = y.map tenThousandths) := by
    intro x y hx hy
    cases x with
    | none => cases y <;> simp
    | some m =>
        cases y with
        | none => simp
        | some n =>
            rw [Option.map_some, Option.map_some, Option.map_some, Option.map_some,
              Option.some.injEq, Option.some.injEq]
            exact fourDecimals_eq_iff (hx m rfl) (hy n rfl)
  constructor
  · intro h
    have hparts : c.parts = d.parts :=
      intercalate_inj hcparts hdparts comma_notMem_parts comma_notMem_parts h
    obtain ⟨hc1, hc2, hc3⟩ := filterMap_parts (c := c)
    obtain ⟨hd1, hd2, hd3⟩ := filterMap_parts (c := d)
    rw [hparts] at hc1 hc2 hc3
    refine ⟨?_, ?_, ?_⟩
    · exact (hprinted hcrun hdrun).mp (toList_inj (hc1.symm.trans hd1))
    · exact (hprinted hcstep hdstep).mp (toList_inj (hc2.symm.trans hd2))
    · have hsteps := toList_inj (hc3.symm.trans hd3)
      refine Option.map_injective ?_ hsteps
      exact decimal_injective.comp fun _ _ => UInt32.toNat_inj.mp
  · rintro ⟨hrun, hstep, hsteps⟩
    have hlabelled : ∀ {x y : Option Int} (label : Text),
        x.map fourDecimals = y.map fourDecimals →
        (x.map fun n => label ++ fourDecimals n) = y.map fun n => label ++ fourDecimals n := by
      intro x y label h
      have hwith := congrArg (Option.map (label ++ ·)) h
      rwa [Option.map_map, Option.map_map] at hwith
    rw [describe, describe, parts, parts, hsteps,
      hlabelled _ ((hprinted hcrun hdrun).mpr hrun),
      hlabelled _ ((hprinted hcstep hdstep).mpr hstep)]

theorem visible_describe (c : BudgetCandidate) : Visible c.describe := by
  have hamount : ∀ n, Visible (fourDecimals n) := by
    intro n
    refine Visible.append ?_ (Visible.append (isDigits_decimal _).visible
      (Visible.cons (by decide) (isDigits_padded _ _).visible))
    split
    · exact Visible.cons (by decide) visible_nil
    · exact visible_nil
  have hparts : ∀ p ∈ c.parts, Visible p := by
    intro p hp
    simp only [parts, List.mem_append, Option.mem_toList, Option.map_eq_some_iff] at hp
    rcases hp with ⟨n, -, rfl⟩ | ⟨n, -, rfl⟩ | ⟨n, -, rfl⟩
    · exact Visible.append (forall_mem_literal (by decide)) (hamount n)
    · exact Visible.append (forall_mem_literal (by decide)) (hamount n)
    · exact Visible.append (forall_mem_literal (by decide)) (isDigits_decimal _).visible
  have hsep : Visible ", ".toList := forall_mem_literal (by decide)
  rw [describe]
  generalize c.parts = ps at hparts
  induction ps with
  | nil => exact visible_nil
  | cons p ps ih =>
      obtain ⟨hp, hrest⟩ := List.forall_mem_cons.mp hparts
      cases ps with
      | nil =>
          rw [List.intercalate_singleton]
          exact hp
      | cons p' ps =>
          rw [List.intercalate_cons_cons]
          exact Visible.append (Visible.append hp hsep) (ih hrest)

/-- A report of one call that is not blocked, with a candidate line. -/
def sampleReport (line : Text) : Text :=
  Framing.terminated '\n' [headLine, candidateLine ++ line, runsLine ++ "1 (0 affected)".toList,
    callsLine ++ "1 (0 would be blocked)".toList, spendLine ++ "$0.000001".toList,
    savedLine ++ "$0.000000 (0.0%)".toList, projectedLine ++ "$0.000001".toList]

/-- What is echoed has no part in what is read besides. -/
theorem readLines_echo (line l2 l3 l4 l5 l6 : Text) :
    readLines (candidateLine ++ line) l2 l3 l4 l5 l6 =
      (readLines candidateLine l2 l3 l4 l5 l6).map fun p => (line, p.2) := by
  have hnil : stripPrefix candidateLine candidateLine = some [] := by
    rw [stripPrefix_eq_some_iff, List.append_nil]
  rw [readLines, readLines, stripPrefix_append, hnil]
  simp only [Option.bind_eq_bind, Option.bind_some, Option.map_bind, Function.comp_def,
    Option.map_some]

/-- Every candidate has a report that is accepted for it. -/
theorem parseBacktest_sampleReport (c : BudgetCandidate) :
    parseBacktest (sampleReport c.describe) c = .ok ⟨1, 0, 1, 0, 1, 0⟩ := by
  have hlines : Text.lines (sampleReport c.describe) =
      [headLine, candidateLine ++ c.describe, runsLine ++ "1 (0 affected)".toList,
        callsLine ++ "1 (0 would be blocked)".toList, spendLine ++ "$0.000001".toList,
        savedLine ++ "$0.000000 (0.0%)".toList, projectedLine ++ "$0.000001".toList] := by
    refine lines_terminated ?_
    have hline : ∀ x ∈ candidateLine ++ c.describe, 0x20 ≤ x.toNat :=
      Visible.append (forall_mem_literal (by decide)) (visible_describe c)
    refine List.forall_mem_cons.mpr ⟨by decide, List.forall_mem_cons.mpr ⟨hline, ?_⟩⟩
    decide
  have hread : readLines (candidateLine ++ c.describe) (runsLine ++ "1 (0 affected)".toList)
      (callsLine ++ "1 (0 would be blocked)".toList) (spendLine ++ "$0.000001".toList)
      (savedLine ++ "$0.000000 (0.0%)".toList) (projectedLine ++ "$0.000001".toList) =
      some (c.describe, ⟨1, 0, 1, 0, 1, 0⟩, 1) := by
    have hrest : readLines candidateLine (runsLine ++ "1 (0 affected)".toList)
        (callsLine ++ "1 (0 would be blocked)".toList) (spendLine ++ "$0.000001".toList)
        (savedLine ++ "$0.000000 (0.0%)".toList) (projectedLine ++ "$0.000001".toList) =
        some ([], ⟨1, 0, 1, 0, 1, 0⟩, 1) := by
      decide
    rw [readLines_echo, hrest]
    rfl
  exact parseBacktest_eq_ok_iff.mpr ⟨_, _, _, _, _, _, 1, hlines, hread,
    ⟨by decide, by decide, by decide, by decide⟩, rfl⟩

/-- A report is accepted for two candidates exactly when these are printed as one line. -/
theorem exists_shared_iff : (∃ text r r', parseBacktest text c = .ok r ∧
    parseBacktest text d = .ok r') ↔ c.describe = d.describe := by
  constructor
  · rintro ⟨text, r, r', hc, hd⟩
    obtain ⟨l1, l2, l3, l4, l5, l6, _, hlines, hread, -⟩ := parseBacktest_eq_ok_iff.mp hc
    obtain ⟨_, _, _, _, _, _, _, hlines', hread', -⟩ := parseBacktest_eq_ok_iff.mp hd
    rw [hlines] at hlines'
    cases hlines'
    rw [hread] at hread'
    exact (Prod.mk.inj (Option.some.inj hread')).1
  · intro h
    have hd := parseBacktest_sampleReport d
    rw [← h] at hd
    exact ⟨_, _, _, parseBacktest_sampleReport c, hd⟩

end BudgetCandidate

/-- Every amount of a candidate is whole ten-thousandths of a dollar. -/
def BudgetCandidate.Coarse (c : BudgetCandidate) : Prop :=
  (∀ n, c.perRunMicros = some n → 100 ∣ n) ∧ ∀ n, c.perStepMicros = some n → 100 ∣ n

/-- Candidates that are printed alike have amounts within a hundred micro-dollars. -/
structure BudgetCandidate.Near (c d : BudgetCandidate) : Prop where
  perRun : ∀ m n, c.perRunMicros = some m → d.perRunMicros = some n → |m - n| ≤ 100
  perStep : ∀ m n, c.perStepMicros = some m → d.perStepMicros = some n → |m - n| ≤ 100

namespace BudgetCandidate

variable {c d : BudgetCandidate}

theorem SameLine.near (hc : c.Built) (hd : d.Built) (h : c.SameLine d) : c.Near d := by
  have hnear : ∀ {x y : Option Int}, (∀ n, x = some n → InRange n) →
      (∀ n, y = some n → InRange n) → x.map tenThousandths = y.map tenThousandths →
      ∀ m n, x = some m → y = some n → |m - n| ≤ 100 := by
    rintro x y hx hy heq m n rfl rfl
    exact abs_sub_le_of_tenThousandths_eq (hx m rfl) (hy n rfl) (Option.some.inj heq)
  obtain ⟨hcrun, hcstep, -⟩ := hc.bounds
  obtain ⟨hdrun, hdstep, -⟩ := hd.bounds
  exact ⟨hnear hcrun hdrun h.perRun, hnear hcstep hdstep h.perStep⟩

/-- Whole ten-thousandths are printed as they are, so that the line tells the candidate. -/
theorem SameLine.eq (hc : c.Built) (hd : d.Built) (hcc : c.Coarse) (hdc : d.Coarse)
    (h : c.SameLine d) : c = d := by
  have hexact : ∀ {x y : Option Int}, (∀ n, x = some n → InRange n) →
      (∀ n, y = some n → InRange n) → (∀ n, x = some n → 100 ∣ n) → (∀ n, y = some n → 100 ∣ n) →
      x.map tenThousandths = y.map tenThousandths → x = y := by
    intro x y hx hy hxc hyc heq
    cases x with
    | none =>
        cases y with
        | none => rfl
        | some n => cases heq
    | some m =>
        cases y with
        | none => cases heq
        | some n =>
            have hm := tenThousandths_of_dvd (hx m rfl) (hxc m rfl)
            have hn := tenThousandths_of_dvd (hy n rfl) (hyc n rfl)
            rw [← hm, ← hn, Option.some.inj heq]
  obtain ⟨hcrun, hcstep, -⟩ := hc.bounds
  obtain ⟨hdrun, hdstep, -⟩ := hd.bounds
  obtain ⟨crun, cstep, csteps⟩ := c
  obtain ⟨drun, dstep, dsteps⟩ := d
  obtain ⟨hrun, hstep, hsteps⟩ := h
  have hrunEq : crun = drun := hexact hcrun hdrun hcc.1 hdc.1 hrun
  have hstepEq : cstep = dstep := hexact hcstep hdstep hcc.2 hdc.2 hstep
  have hstepsEq : csteps = dsteps := hsteps
  rw [hrunEq, hstepEq, hstepsEq]

end BudgetCandidate

/-- A report that is accepted for a candidate is accepted for just those that are printed as it
is: their amounts are near, and none of them is another if all amounts are whole ten-thousandths
of a dollar. -/
structure AcceptedAsPrinted : Prop where
  shared_iff : ∀ c d : BudgetCandidate, c.Built → d.Built →
    ((∃ text r r', parseBacktest text c = .ok r ∧ parseBacktest text d = .ok r') ↔ c.SameLine d)
  near : ∀ c d : BudgetCandidate, c.Built → d.Built → c.SameLine d → c.Near d
  distinct : ∀ c d : BudgetCandidate, c.Built → d.Built → c.Coarse → d.Coarse → c.SameLine d →
    c = d

/-- **A report is accepted for what is printed of its candidate.** -/
theorem accepted_as_printed : AcceptedAsPrinted where
  shared_iff := fun _ _ hc hd =>
    BudgetCandidate.exists_shared_iff.trans (BudgetCandidate.describe_eq_iff hc hd)
  near := fun _ _ hc hd h => h.near hc hd
  distinct := fun _ _ hc hd hcc hdc h => h.eq hc hd hcc hdc

section Example

def oneDollar : BudgetCandidate := ⟨some 1000000, none, none⟩

/-- A dollar and a micro-dollar. -/
def dollarAndMore : BudgetCandidate := ⟨some 1000001, none, none⟩

/-- What is printed for one dollar is accepted for a micro-dollar more. -/
theorem micro_dollar_not_echoed : oneDollar.Built ∧ dollarAndMore.Built ∧
    oneDollar ≠ dollarAndMore ∧ ∃ text r r', parseBacktest text oneDollar = .ok r ∧
      parseBacktest text dollarAndMore = .ok r' := by
  have hone : oneDollar.Built := ⟨some "1".toList, none, none, by decide⟩
  have hmore : dollarAndMore.Built := ⟨some "1.000001".toList, none, none, by decide⟩
  have hprinted : tenThousandths 1000000 = tenThousandths 1000001 := by
    have hlow := abs_le.mp (tenThousandths_near (n := 1000000) ⟨by decide, by decide⟩)
    have hhigh := abs_le.mp (tenThousandths_near (n := 1000001) ⟨by decide, by decide⟩)
    omega
  refine ⟨hone, hmore, by decide, BudgetCandidate.exists_shared_iff.mpr ?_⟩
  rw [BudgetCandidate.describe_eq_iff hone hmore]
  exact ⟨congrArg some hprinted, rfl, rfl⟩

end Example

end Genaryx.Replay
