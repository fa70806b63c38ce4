import Genaryx.Copilot.Screened
import Mathlib.Data.List.Chain

/-!
# What is left of a draft

The statements of a text cover it. With the unsupported ones taken out, what is left is the others
in order, and a finding in it lies in a statement that taking one out has joined.

## Implementation notes

What is said of a statement does not depend on white space at its ends, so the white space that is
trimmed from what is left changes no finding.
-/

namespace Genaryx.Copilot

open Text (IgnoresEnds isWhitespace)

variable {F : Type} (L : Library F)

/-- The statements of a text as texts, the first of which has begun. -/
def piecesFrom (begun : Text) : Text → List Text
  | [] => if begun = [] then [] else [begun]
  | c :: rest =>
      if endsStatement c rest.head? then (begun ++ [c]) :: piecesFrom [] rest
      else piecesFrom (begun ++ [c]) rest

/-- The statements of a text as texts. -/
def pieces (text : Text) : List Text := piecesFrom [] text

section Pieces

theorem slice_append (before part rest : Text) :
    slice (before ++ part ++ rest) ⟨before.length, before.length + part.length⟩ = part := by
  rw [slice, ← List.length_append, List.take_left, List.drop_left]

/-- The ranges of the statements cut the text into its pieces. -/
theorem map_slice_statementsFrom (before begun rest : Text) :
    (statementsFrom before.length (before.length + begun.length) rest).map
        (slice (before ++ begun ++ rest)) = piecesFrom begun rest := by
  induction rest generalizing before begun with
  | nil =>
      rw [statementsFrom, piecesFrom]
      cases begun with
      | nil => simp
      | cons c begun =>
          have hlt : before.length < before.length + (c :: begun).length :=
            Nat.lt_add_of_pos_right (Nat.succ_pos _)
          rw [if_pos hlt, if_neg (List.cons_ne_nil c begun), List.map_singleton, slice_append]
  | cons c rest ih =>
      have hlength : before.length + begun.length + 1 = before.length + (begun ++ [c]).length := by
        rw [List.length_append, List.length_singleton, Nat.add_assoc]
      have htext : before ++ begun ++ c :: rest = before ++ (begun ++ [c]) ++ rest := by simp
      rw [statementsFrom, piecesFrom, hlength, htext]
      split
      · have hrest := ih (before ++ (begun ++ [c])) []
        rw [List.length_append, List.length_nil, Nat.add_zero, List.append_nil] at hrest
        rw [List.map_cons, slice_append, hrest]
      · exact ih before (begun ++ [c])

theorem map_slice_statements (text : Text) : (statements text).map (slice text) = pieces text :=
  map_slice_statementsFrom [] [] text

/-- The pieces of a text cover it. -/
theorem flatten_piecesFrom (begun rest : Text) :
    (piecesFrom begun rest).flatten = begun ++ rest := by
  induction rest generalizing begun with
  | nil =>
      rw [piecesFrom, List.append_nil]
      split
      · next hnil => exact hnil.symm
      · exact List.flatten_singleton
  | cons c rest ih =>
      rw [piecesFrom]
      split
      · rw [List.flatten_cons, ih, List.nil_append, List.append_assoc]
        rfl
      · rw [ih, List.append_assoc]
        rfl

theorem flatten_pieces (text : Text) : (pieces text).flatten = text := flatten_piecesFrom [] text

end Pieces

section Runs

/-- A piece ends where the next one begins. -/
def parted (piece : Text) (next : Option Text) : Bool :=
  piece.getLast?.any fun c => endsStatement c (next.bind List.head?)

/-- Pieces put together run on until one is parted from the next. -/
def runsFrom (begun : List Text) : List Text → List (List Text)
  | [] => if begun = [] then [] else [begun]
  | piece :: rest =>
      if parted piece rest.head? then (begun ++ [piece]) :: runsFrom [] rest
      else runsFrom (begun ++ [piece]) rest

/-- The runs that pieces come together in. -/
def runs (kept : List Text) : List (List Text) := runsFrom [] kept

/-- A text in which no statement ends before its last character. -/
def Whole (piece : Text) : Prop :=
  piece.IsChain fun c d => endsStatement c (some d) = false

/-- A whole piece after what has begun is one piece with it, up to its end. -/
theorem piecesFrom_whole {piece : Text} (hwhole : Whole piece) (hne : piece ≠ [])
    (begun rest : Text) :
    piecesFrom begun (piece ++ rest) =
      if parted piece (some rest) then (begun ++ piece) :: piecesFrom [] rest
      else piecesFrom (begun ++ piece) rest := by
  induction piece generalizing begun with
  | nil => exact absurd rfl hne
  | cons c piece ih =>
      cases piece with
      | nil => rfl
      | cons d piece =>
          obtain ⟨hcd, htail⟩ := List.isChain_cons_cons.mp hwhole
          have hstep : piecesFrom begun (c :: d :: piece ++ rest) =
              piecesFrom (begun ++ [c]) (d :: piece ++ rest) := by
            rw [List.cons_append, piecesFrom]
            exact if_neg (by rw [List.cons_append, List.head?_cons, hcd]; exact Bool.false_ne_true)
          have hlast : parted (c :: d :: piece) (some rest) = parted (d :: piece) (some rest) := by
            rw [parted, parted, List.getLast?_cons_cons]
          rw [hstep, ih htail (List.cons_ne_nil d piece), hlast, List.append_assoc]
          rfl

theorem piecesFrom_flatten {kept : List Text} (hkept : ∀ p ∈ kept, Whole p ∧ p ≠ [])
    (begun : List Text) (hbegun : ∀ p ∈ begun, p ≠ []) :
    piecesFrom begun.flatten kept.flatten = (runsFrom begun kept).map List.flatten := by
  induction kept generalizing begun with
  | nil =>
      rw [List.flatten_nil, piecesFrom, runsFrom]
      cases begun with
      | nil => rfl
      | cons p begun =>
          have hne : (p :: begun).flatten ≠ [] := by
            rw [List.flatten_cons]
            exact List.append_ne_nil_of_left_ne_nil (hbegun p List.mem_cons_self) _
          rw [if_neg hne, if_neg (List.cons_ne_nil p begun)]
          rfl
  | cons piece rest ih =>
      obtain ⟨⟨hwhole, hne⟩, hrest⟩ := List.forall_mem_cons.mp hkept
      have hnext : (some rest.flatten).bind List.head? = rest.head?.bind List.head? := by
        cases rest with
        | nil => rfl
        | cons p rest =>
            obtain ⟨c, p, rfl⟩ := List.exists_cons_of_ne_nil (hrest p List.mem_cons_self).2
            rfl
      have hparted : parted piece (some rest.flatten) = parted piece rest.head? := by
        rw [parted, parted, hnext]
      have hlonger : begun.flatten ++ piece = (begun ++ [piece]).flatten := by
        rw [List.flatten_append, List.flatten_singleton]
      have hall : ∀ p ∈ begun ++ [piece], p ≠ [] := by
        intro p hp
        rcases List.mem_append.mp hp with hp | hp
        · exact hbegun p hp
        · exact List.mem_singleton.mp hp ▸ hne
      rw [List.flatten_cons, piecesFrom_whole hwhole hne, runsFrom, hparted, hlonger]
      split
      · rw [List.map_cons]
        exact congrArg _ (ih hrest [] fun _ h => absurd h List.not_mem_nil)
      · exact ih hrest _ hall

/-- The pieces of whole pieces put together are the runs they come together in. -/
theorem pieces_flatten {kept : List Text} (hkept : ∀ p ∈ kept, Whole p ∧ p ≠ []) :
    pieces kept.flatten = (runs kept).map List.flatten :=
  piecesFrom_flatten hkept [] fun _ h => absurd h List.not_mem_nil

/-- The pieces of a text are whole. -/
theorem whole_piecesFrom {begun : Text} (rest : Text)
    (hbegun : Whole begun ∧ ∀ c ∈ begun.getLast?, ∀ d ∈ rest.head?, endsStatement c (some d) = false) :
    ∀ p ∈ piecesFrom begun rest, Whole p ∧ p ≠ [] := by
  induction rest generalizing begun with
  | nil =>
      intro p hp
      rw [piecesFrom] at hp
      split at hp
      · cases hp
      · next hne =>
          rw [List.mem_singleton.mp hp]
          exact ⟨hbegun.1, hne⟩
  | cons c rest ih =>
      have hlonger : Whole (begun ++ [c]) := by
        refine hbegun.1.append (List.isChain_singleton c) ?_
        intro d hd e he
        exact hbegun.2 d hd e he
      rw [piecesFrom]
      split
      · refine List.forall_mem_cons.mpr ⟨⟨hlonger, List.append_ne_nil_of_right_ne_nil _
          (List.cons_ne_nil c [])⟩, ih ⟨List.isChain_nil, fun d hd => ?_⟩⟩
        cases hd
      · next hends =>
          refine ih ⟨hlonger, ?_⟩
          intro d hd e he
          rw [List.getLast?_concat] at hd
          cases hd
          rw [Option.mem_def.mp he] at hends
          exact Bool.eq_false_iff.mpr hends

theorem whole_pieces (text : Text) : ∀ p ∈ pieces text, Whole p ∧ p ≠ [] :=
  whole_piecesFrom text ⟨List.isChain_nil, fun _ h => nomatch h⟩

end Runs

section Said

/-- The statements of a text without the white space at their ends, as far as they say something. -/
def saidFrom (begun rest : Text) : List Text :=
  ((piecesFrom begun rest).map Text.trim).filter (!·.isEmpty)

theorem trim_blank {c : Char} (hc : isWhitespace c = true) : Text.trim [c] = [] :=
  Text.ignoresEnds_trim.head c [] hc

/-- White space before a statement is not said. -/
theorem saidFrom_cons {c : Char} (hc : isWhitespace c = true) (begun rest : Text) :
    saidFrom (c :: begun) rest = saidFrom begun rest := by
  induction rest generalizing begun with
  | nil =>
      rw [saidFrom, saidFrom, piecesFrom, piecesFrom, if_neg (List.cons_ne_nil c begun)]
      split
      · next hnil =>
          rw [hnil, List.map_singleton, trim_blank hc]
          rfl
      · rw [List.map_singleton, Text.ignoresEnds_trim.head c begun hc, List.map_singleton]
  | cons d rest ih =>
      rw [saidFrom, saidFrom, piecesFrom, piecesFrom]
      split
      · rw [List.map_cons, List.map_cons, List.cons_append,
          Text.ignoresEnds_trim.head c (begun ++ [d]) hc]
      · exact ih (begun ++ [d])

/-- White space after the last statement is not said. -/
theorem saidFrom_concat {c : Char} (hc : isWhitespace c = true) (begun rest : Text) :
    saidFrom begun (rest ++ [c]) = saidFrom begun rest := by
  induction rest generalizing begun with
  | nil =>
      have hwhole : piecesFrom begun [c] = [begun ++ [c]] := by
        rw [piecesFrom]
        split
        · rfl
        · rw [piecesFrom, if_neg (List.append_ne_nil_of_right_ne_nil _ (List.cons_ne_nil c []))]
      rw [List.nil_append, saidFrom, saidFrom, hwhole, List.map_singleton,
        Text.ignoresEnds_trim.last c begun hc, piecesFrom]
      split
      · next hnil =>
          rw [hnil]
          rfl
      · rfl
  | cons d rest ih =>
      have hnext : endsStatement d (rest ++ [c]).head? = endsStatement d rest.head? := by
        cases rest with
        | nil => simp only [List.nil_append, List.head?_cons, endsStatement, hc, List.head?_nil]
        | cons e rest => rfl
      rw [List.cons_append, saidFrom, saidFrom, piecesFrom, piecesFrom, hnext]
      split
      · have hrest := ih []
        rw [saidFrom, saidFrom] at hrest
        simp only [List.map_cons, List.filter_cons, hrest]
      · exact ih (begun ++ [d])

/-- What a text says in its statements does not depend on white space at its ends. -/
theorem ignoresEnds_said : IgnoresEnds (saidFrom []) := by
  constructor
  · intro c t hc
    have hfirst : saidFrom [] (c :: t) = saidFrom [c] t := by
      rw [saidFrom, piecesFrom]
      split
      · rw [List.nil_append, List.map_cons, trim_blank hc]
        exact (saidFrom_cons hc [] t).symm
      · rfl
    rw [hfirst, saidFrom_cons hc]
  · exact fun c t hc => saidFrom_concat hc [] t

end Said

section Findings

variable {L} {e : Evidence} {operator : Option Text}

theorem ignoresEnds_repeatedDemands :
    IgnoresEnds fun statement => e.repeatedDemands L statement operator := by
  constructor
  · intro c t hc
    simp only [Evidence.repeatedDemands, (ignoresEnds_actionNamed L.letters _).head c t hc,
      (ignoresEnds_names L.letters _).head c t hc]
  · intro c t hc
    simp only [Evidence.repeatedDemands, (ignoresEnds_actionNamed L.letters _).last c t hc,
      (ignoresEnds_names L.letters _).last c t hc]

/-- What is said of a statement does not depend on white space at its ends. -/
theorem ignoresEnds_findings : IgnoresEnds (e.findings L operator) := by
  constructor
  · intro c t hc
    simp only [Evidence.findings, ignoresEnds_reported.head c t hc,
      ignoresEnds_saysAbsent.head c t hc, ignoresEnds_references.head c t hc,
      ignoresEnds_amounts.head c t hc, ignoresEnds_refused.head c t hc,
      ignoresEnds_repeatedDemands.head c t hc]
  · intro c t hc
    simp only [Evidence.findings, ignoresEnds_reported.last c t hc,
      ignoresEnds_saysAbsent.last c t hc, ignoresEnds_references.last c t hc,
      ignoresEnds_amounts.last c t hc, ignoresEnds_refused.last c t hc,
      ignoresEnds_repeatedDemands.last c t hc]

theorem wordsOn_nil (p : Char → Bool) : Text.wordsOn p [] = [] := by
  rw [Text.wordsOn, List.splitOnP_nil]
  rfl

/-- An empty statement names no action. -/
theorem actionNamed_nil (kind : ActionKind) : actionNamed L.letters [] kind = false := by
  have hplain : plain L.letters [] = [] := by
    rw [plain, List.filter_nil, Text.splitWhitespace, List.splitOnP_nil]
    rfl
  have hwords : actionWords L.letters [] = [] := by
    rw [actionWords, hplain]
    exact wordsOn_nil _
  cases kind <;> simp [actionNamed, hwords]

/-- Nothing is said of an empty statement. -/
theorem findings_nil : e.findings L operator [] = [] := by
  have hclean : cleanWords [] = [] := by
    rw [cleanWords, List.splitOnP_nil]
    rfl
  have hreferences : references L.letters [] = [] := by
    rw [references, hclean]
    rfl
  have hamounts : amounts L.letters [] = [] := rfl
  have hdemands : e.repeatedDemands L [] operator = [] := by
    simp only [Evidence.repeatedDemands, actionNamed_nil, Bool.false_eq_true, if_false]
    exact List.flatMap_eq_nil_iff.mpr fun _ _ => rfl
  simp only [Evidence.findings, hreferences, hamounts, hdemands, List.filterMap_nil, List.map_nil,
    List.append_nil, ite_self]

theorem mem_check {text : Text} {f : Finding} :
    f ∈ e.check L text operator ↔
      f.statement ∈ statements text ∧ f.message ∈ e.findings L operator (slice text f.statement) := by
  rw [Evidence.check, List.mem_flatMap]
  constructor
  · rintro ⟨range, hrange, hf⟩
    obtain ⟨message, hmessage, rfl⟩ := List.mem_map.mp hf
    exact ⟨hrange, hmessage⟩
  · rintro ⟨hrange, hmessage⟩
    exact ⟨f.statement, hrange, List.mem_map.mpr ⟨f.message, hmessage, rfl⟩⟩

end Findings

/-- The statements of a draft that no finding names, in order. -/
def unnamed (draft : Text) (found : List Finding) : List Text :=
  ((statements draft).filter fun range => !found.any (·.statement = range)).map (slice draft)

/-- What taking statements out of a draft leaves. -/
structure LeavesUnnamed (e : Evidence) (operator : Option Text) (draft : Text) : Prop where
  /-- The statements cover the draft. -/
  cover : ((statements draft).map (slice draft)).flatten = draft
  /-- A draft without findings is left as it is. -/
  untouched : e.check L draft operator = [] →
    withoutStatements draft (e.check L draft operator) = draft
  /-- The statements that no finding names are left unchanged and in order, and the white space at
  the two ends of them all is trimmed. -/
  kept : e.check L draft operator ≠ [] →
    withoutStatements draft (e.check L draft operator) =
      Text.trim (unnamed draft (e.check L draft operator)).flatten
  /-- A finding in what is left lies in a statement that was joined: it is several statements that
  no finding named, none but the last of which ends before the next. -/
  joined : ∀ f ∈ e.check L (withoutStatements draft (e.check L draft operator)) operator,
    ∃ run ∈ runs (unnamed draft (e.check L draft operator)), 2 ≤ run.length ∧
      Text.trim (slice (withoutStatements draft (e.check L draft operator)) f.statement) =
        Text.trim run.flatten
  /-- Where no two neighbours join, there is no finding in what is left. -/
  clean : (unnamed draft (e.check L draft operator)).IsChain
      (fun p q => parted p (some q) = true) →
    e.check L (withoutStatements draft (e.check L draft operator)) operator = []

section Left

variable {L} {e : Evidence} {operator : Option Text} {draft : Text}

/-- A statement that no finding names is a piece of the draft, of which nothing is said. -/
theorem of_mem_unnamed {p : Text} (hp : p ∈ unnamed draft (e.check L draft operator)) :
    p ∈ pieces draft ∧ e.findings L operator p = [] := by
  obtain ⟨range, hrange, rfl⟩ := List.mem_map.mp hp
  obtain ⟨hstatement, hnot⟩ := List.mem_filter.mp hrange
  refine ⟨map_slice_statements draft ▸ List.mem_map_of_mem hstatement, ?_⟩
  rw [Bool.not_eq_true', List.any_eq_false] at hnot
  refine List.eq_nil_iff_forall_not_mem.mpr fun message hmessage => ?_
  exact hnot ⟨message, range⟩ (mem_check.mpr ⟨hstatement, hmessage⟩) (decide_eq_true rfl)

theorem runsFrom_length_pos {begun kept : List Text} :
    ∀ run ∈ runsFrom begun kept, run ≠ [] ∧ ∀ p ∈ run, p ∈ begun ++ kept := by
  induction kept generalizing begun with
  | nil =>
      intro run hrun
      rw [runsFrom] at hrun
      split at hrun
      · cases hrun
      · next hne =>
          rw [List.mem_singleton.mp hrun]
          exact ⟨hne, fun p hp => List.mem_append_left [] hp⟩
  | cons piece rest ih =>
      have happend : begun ++ piece :: rest = begun ++ [piece] ++ rest := by simp
      intro run hrun
      rw [runsFrom] at hrun
      rw [happend]
      split at hrun
      · rcases List.mem_cons.mp hrun with rfl | hrun
        · exact ⟨List.append_ne_nil_of_right_ne_nil _ (List.cons_ne_nil piece []),
            fun p hp => List.mem_append_left rest hp⟩
        · obtain ⟨hne, hmem⟩ := ih run hrun
          exact ⟨hne, fun p hp => List.mem_append_right _ (hmem p hp)⟩
      · exact ih run hrun

/-- Pieces that are parted from each other come together in no run. -/
theorem length_le_one_of_isChain {kept : List Text}
    (h : kept.IsChain fun p q => parted p (some q) = true) :
    ∀ run ∈ runs kept, run.length ≤ 1 := by
  induction kept with
  | nil => exact fun _ hrun => nomatch hrun
  | cons piece rest ih =>
      have hsingle : ([] ++ [piece]).length ≤ 1 := Nat.le_refl 1
      rw [runs, runsFrom]
      split
      · exact List.forall_mem_cons.mpr ⟨hsingle, ih h.tail⟩
      · next hnot =>
          cases rest with
          | nil => exact List.forall_mem_singleton.mpr hsingle
          | cons q rest => exact absurd (List.isChain_cons_cons.mp h).1 hnot

/-- A finding in what is left is of a statement that several statements were joined to. -/
theorem joined_of_mem_check {f : Finding}
    (hf : f ∈ e.check L (Text.trim (unnamed draft (e.check L draft operator)).flatten) operator) :
    ∃ run ∈ runs (unnamed draft (e.check L draft operator)), 2 ≤ run.length ∧
      Text.trim (slice (Text.trim (unnamed draft (e.check L draft operator)).flatten)
        f.statement) = Text.trim run.flatten := by
  generalize hkept : unnamed draft (e.check L draft operator) = kept at hf ⊢
  have hunnamed : ∀ p ∈ kept, p ∈ pieces draft ∧ e.findings L operator p = [] := fun p hp =>
    of_mem_unnamed (hkept ▸ hp)
  obtain ⟨hstatement, hmessage⟩ := mem_check.mp hf
  generalize hs : slice (Text.trim kept.flatten) f.statement = s at hmessage ⊢
  have hpiece : s ∈ pieces (Text.trim kept.flatten) := by
    rw [← hs, ← map_slice_statements]
    exact List.mem_map_of_mem hstatement
  -- The statement says something, so it is among what the text says without its ends trimmed.
  have hsays : Text.trim s ≠ [] := by
    intro hblank
    have hnil : e.findings L operator s = e.findings L operator [] :=
      ignoresEnds_findings.eq_of_trim_eq (hblank.trans rfl)
    rw [hnil, findings_nil] at hmessage
    cases hmessage
  have hsaid : Text.trim s ∈ saidFrom [] kept.flatten := by
    rw [← ignoresEnds_said.trim]
    refine List.mem_filter.mpr ⟨List.mem_map_of_mem hpiece, ?_⟩
    rw [List.isEmpty_eq_false_iff.mpr hsays]
    rfl
  obtain ⟨q, hq, hqs⟩ := List.mem_map.mp (List.mem_filter.mp hsaid).1
  have hwhole : ∀ p ∈ kept, Whole p ∧ p ≠ [] := fun p hp => whole_pieces draft p (hunnamed p hp).1
  have hruns : q ∈ (runs kept).map List.flatten := pieces_flatten hwhole ▸ hq
  obtain ⟨run, hrun, rfl⟩ := List.mem_map.mp hruns
  refine ⟨run, hrun, ?_, hqs.symm⟩
  obtain ⟨hne, hmem⟩ := runsFrom_length_pos run hrun
  rcases run with _ | ⟨p, _ | ⟨p', rest⟩⟩
  · exact absurd rfl hne
  · -- A statement by itself has no finding.
    have hp : p ∈ kept := by simpa using hmem p List.mem_cons_self
    have hnone : e.findings L operator s = e.findings L operator p := by
      refine ignoresEnds_findings.eq_of_trim_eq ?_
      rw [← hqs, List.flatten_singleton]
    rw [hnone, (hunnamed p hp).2] at hmessage
    cases hmessage
  · exact Nat.le_add_left 2 rest.length

end Left

/-- Whatever the evidence, the operator's words and the draft, what is left of it is the statements
that no finding names, and a finding in it lies in a statement that was joined. -/
theorem leavesUnnamed (e : Evidence) (operator : Option Text) (draft : Text) :
    LeavesUnnamed L e operator draft := by
  have huntouched (h : e.check L draft operator = []) :
      withoutStatements draft (e.check L draft operator) = draft := by
    rw [h]
    rfl
  have hkept (h : e.check L draft operator ≠ []) :
      withoutStatements draft (e.check L draft operator) =
        Text.trim (unnamed draft (e.check L draft operator)).flatten := by
    rw [withoutStatements, if_neg (by simpa using h)]
    rfl
  have hjoined : ∀ f ∈ e.check L (withoutStatements draft (e.check L draft operator)) operator,
      ∃ run ∈ runs (unnamed draft (e.check L draft operator)), 2 ≤ run.length ∧
        Text.trim (slice (withoutStatements draft (e.check L draft operator)) f.statement) =
          Text.trim run.flatten := by
    intro f hf
    by_cases hfound : e.check L draft operator = []
    · rw [huntouched hfound, hfound] at hf
      cases hf
    · rw [hkept hfound] at hf ⊢
      exact joined_of_mem_check hf
  refine ⟨?_, huntouched, hkept, hjoined, fun hparted => ?_⟩
  · rw [map_slice_statements, flatten_pieces]
  · refine List.eq_nil_iff_forall_not_mem.mpr fun f hf => ?_
    obtain ⟨run, hrun, hlength, _⟩ := hjoined f hf
    exact absurd (length_le_one_of_isChain hparted run hrun) (Nat.not_le.mpr hlength)

/-- What the operator reads has no finding, and is the statements that no finding names, unchanged
and in order. -/
def ReadsSupported (e : Evidence) (operator : Option Text) (draft : Text) : Prop :=
  e.check L (withoutStatements draft (e.check L draft operator)) operator = [] ∧
    withoutStatements draft (e.check L draft operator) =
      (unnamed draft (e.check L draft operator)).flatten

/-- The statements of a draft of which nothing is said by themselves. -/
def supported (e : Evidence) (operator : Option Text) (draft : Text) : List Text :=
  (pieces draft).filter fun p => (e.findings L operator p).isEmpty

/-- Every statement of the draft is supported. Or the supported ones put together have no white
space at their two ends, and where several of them come together nothing is said of them either. -/
def JoinsSupported (e : Evidence) (operator : Option Text) (draft : Text) : Prop :=
  supported L e operator draft = pieces draft ∨
    (Text.trim (supported L e operator draft).flatten = (supported L e operator draft).flatten ∧
      ∀ run ∈ runs (supported L e operator draft), 2 ≤ run.length →
        e.findings L operator run.flatten = [])

section Supported

variable {L} {e : Evidence} {operator : Option Text} {draft : Text}

theorem unnamed_check : unnamed draft (e.check L draft operator) = supported L e operator draft := by
  rw [unnamed, supported, ← map_slice_statements, List.filter_map]
  congr 1
  refine List.filter_congr fun range hrange => ?_
  rw [Bool.eq_iff_iff, Bool.not_eq_true', List.any_eq_false, Function.comp_apply,
    List.isEmpty_iff]
  constructor
  · intro h
    refine List.eq_nil_iff_forall_not_mem.mpr fun message hmessage => ?_
    exact h ⟨message, range⟩ (mem_check.mpr ⟨hrange, hmessage⟩) (decide_eq_true rfl)
  · intro h f hf
    rw [decide_eq_true_eq]
    rintro rfl
    have hmessage := (mem_check.mp hf).2
    rw [h] at hmessage
    cases hmessage

theorem check_eq_nil_iff : e.check L draft operator = [] ↔ supported L e operator draft = pieces draft := by
  rw [supported, List.filter_eq_self, ← map_slice_statements, List.forall_mem_map,
    List.eq_nil_iff_forall_not_mem]
  constructor
  · intro h range hrange
    refine List.isEmpty_iff.mpr (List.eq_nil_iff_forall_not_mem.mpr fun message hmessage => ?_)
    exact h ⟨message, range⟩ (mem_check.mpr ⟨hrange, hmessage⟩)
  · intro h f hf
    obtain ⟨hrange, hmessage⟩ := mem_check.mp hf
    rw [List.isEmpty_iff.mp (h f.statement hrange)] at hmessage
    cases hmessage

/-- What is said where statements come together is said of the text they are put together to. -/
theorem mem_check_of_run {kept : List Text} (hkept : ∀ p ∈ kept, Whole p ∧ p ≠ [])
    {run : List Text} (hrun : run ∈ runs kept) (hsaid : e.findings L operator run.flatten ≠ []) :
    e.check L (Text.trim kept.flatten) operator ≠ [] := by
  have hsays : Text.trim run.flatten ≠ [] := by
    intro hblank
    have hsame : e.findings L operator run.flatten = e.findings L operator [] :=
      ignoresEnds_findings.eq_of_trim_eq (hblank.trans rfl)
    exact hsaid (hsame.trans findings_nil)
  have hmem : Text.trim run.flatten ∈ saidFrom [] (Text.trim kept.flatten) := by
    rw [ignoresEnds_said.trim]
    have hwhole : run.flatten ∈ pieces kept.flatten := by
      rw [pieces_flatten hkept]
      exact List.mem_map_of_mem hrun
    refine List.mem_filter.mpr ⟨List.mem_map.mpr ⟨run.flatten, hwhole, rfl⟩, ?_⟩
    · rw [List.isEmpty_eq_false_iff.mpr hsays]
      rfl
  obtain ⟨s, hs, htrim⟩ := List.mem_map.mp (List.mem_filter.mp hmem).1
  have hpiece : s ∈ pieces (Text.trim kept.flatten) := hs
  rw [← map_slice_statements] at hpiece
  obtain ⟨range, hrange, rfl⟩ := List.mem_map.mp hpiece
  intro hnone
  obtain ⟨message, hmessage⟩ := List.exists_mem_of_ne_nil _ hsaid
  rw [← ignoresEnds_findings.eq_of_trim_eq htrim] at hmessage
  have hfound := mem_check (f := ⟨message, range⟩).mpr ⟨hrange, hmessage⟩
  rw [hnone] at hfound
  cases hfound

end Supported

/-- What the operator reads is supported exactly where the statements that are left are, also where
they come together. -/
theorem readsSupported_iff (e : Evidence) (operator : Option Text) (draft : Text) :
    ReadsSupported L e operator draft ↔ JoinsSupported L e operator draft := by
  have hleaves := leavesUnnamed L e operator draft
  have hkept : ∀ p ∈ supported L e operator draft, Whole p ∧ p ≠ [] :=
    fun p hp => whole_pieces draft p (List.mem_of_mem_filter hp)
  rw [ReadsSupported, JoinsSupported]
  by_cases hnone : e.check L draft operator = []
  · refine iff_of_true ⟨?_, ?_⟩ (.inl (check_eq_nil_iff.mp hnone))
    · rw [hleaves.untouched hnone, hnone]
    · rw [hleaves.untouched hnone, unnamed_check, check_eq_nil_iff.mp hnone, flatten_pieces]
  · have hleft := hleaves.kept hnone
    have hjoined := hleaves.joined
    rw [unnamed_check] at hleft hjoined
    rw [unnamed_check, hleft, or_iff_right (mt check_eq_nil_iff.mpr hnone), and_comm]
    refine and_congr_right fun _ => ⟨fun hclean run hrun _ => ?_, fun hruns => ?_⟩
    · by_contra hsaid
      exact mem_check_of_run hkept hrun hsaid hclean
    · refine List.eq_nil_iff_forall_not_mem.mpr fun f hf => ?_
      rw [hleft] at hjoined
      obtain ⟨run, hrun, hlength, htrim⟩ := hjoined f hf
      have hmessage := (mem_check.mp hf).2
      rw [ignoresEnds_findings.eq_of_trim_eq htrim, hruns run hrun hlength] at hmessage
      cases hmessage

section Example

/-- The evidence of an answer that two runs were returned in. -/
def sampleEvidence : Evidence :=
  evidenceAfter sampleLibrary ["list_runs".toList] none [.read "list_runs".toList true
    (.array [.object [("run_id".toList, .string "p-1".toList)],
      .object [("run_id".toList, .string "p-2".toList)]])]

/-- A draft that names a run no tool returned, between two that were. -/
def sampleDraft : Text := "See p-1. run zz9;p-2".toList

/-- With the statement about the unknown run taken out, the two runs are joined to an id that no
tool returned either. -/
theorem neighbours_joined : ¬ ReadsSupported sampleLibrary sampleEvidence none sampleDraft := by
  have hfound : sampleEvidence.check sampleLibrary (withoutStatements sampleDraft
      (sampleEvidence.check sampleLibrary sampleDraft none)) none ≠ [] := by
    decide
  exact fun h => hfound h.1

end Example

end Genaryx.Copilot
