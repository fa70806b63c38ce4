import Genaryx.Copilot.Agent

/-!
# What a finding quotes

A finding of the checks repeats what the draft names, beside the name of a tool and the console's
own words. Beyond that it quotes the models that a tool returned for a run, and the incident that is
explained.
-/

namespace Genaryx.Copilot

open Json

section Budget

variable (L : Letters) (facts : BudgetFacts) (clause : Text)

/-- The list of models that a tool returned for a run. -/
def ModelsOf (run : Text) (list : List Text) : Prop :=
  ∃ fact, facts.runModels.lookup run = some fact ∧ fact.models = some list

/-- How a finding on a model begins. -/
def modelOpening (model run : Text) : Text :=
  "names `".toList ++ model ++ "` as the model run `".toList ++ run ++
    "` used, but the tools return".toList

/-- A finding on the model that a clause names for a run, and the models it quotes beside. -/
inductive ModelRemark (model run : Text) : Text → List Text → Prop
  | noModel : ModelRemark model run
      (modelOpening model run ++ "ed no model for `".toList ++ run ++ ['\x60']) []
  | otherModel {only : Text} (hmodels : ModelsOf facts run [only]) : ModelRemark model run
      (modelOpening model run ++ "ed `".toList ++ only ++ "` for `".toList ++ run ++ ['\x60']) [only]
  | models {list : List Text} (hmodels : ModelsOf facts run list) : ModelRemark model run
      (modelOpening model run ++ "ed ".toList ++ Text.decimal list.length ++
        " models for `".toList ++ run ++ "`: ".toList ++ ", ".toList.intercalate list) list
  | lastOnly : ModelRemark model run
      (modelOpening model run ++ " only the model of `".toList ++ run ++
        "`'s last call, so which models `".toList ++ run ++ "` used is not known".toList) []

/-- A finding of the budget check, and what it quotes that the clause does not name. -/
inductive BudgetRemark : Text → List Text → Prop
  | unread : BudgetRemark ("states budget facts without calling `budgets`, the only " ++
      "tool that says which runs have a budget").toList []
  | overBudget {run : Text} (hrun : run ∈ runsNamed L clause facts.knownRuns) :
      BudgetRemark ("says run `".toList ++ run ++
        "` is over its budget, but the tools returned `".toList ++ run ++ "` under it".toList) []
  | agentOver {label : Text} {ids : List Text}
      (hagent : (label, ids) ∈ agentsNamed L clause facts.agents) :
      BudgetRemark ("says agent `".toList ++ label ++
        "` is over a budget, but no tool returned a run of `".toList ++ label ++
        "` at or over its budget".toList) []
  | noBudget {run : Text} (hrun : run ∈ runsNamed L clause facts.knownRuns) :
      BudgetRemark ("says run `".toList ++ run ++
        "` has no budget, but a tool returned a budget for `".toList ++ run ++ ['\x60']) []
  | budget {run : Text} (hrun : run ∈ runsNamed L clause facts.knownRuns) :
      BudgetRemark ("states a budget for run `".toList ++ run ++
        "`, but no tool returned a budget for `".toList ++ run ++ ['\x60']) []
  | model {model run finding : Text} {quoted : List Text}
      (hclaim : modelClaim L clause facts ≠ none)
      (hrun : run ∈ runsNamed L clause facts.knownRuns)
      (hmodel : model ∈ modelsNamed L clause facts.knownModels)
      (h : ModelRemark facts model run finding quoted) : BudgetRemark finding quoted

variable {L facts clause}

/-- A claim about a model is remarked on in one of four ways. -/
theorem modelRemark_of_modelClaim {key finding : Text}
    (h : modelClaim L clause facts = some (key, finding)) :
    ∃ quoted, BudgetRemark L facts clause finding quoted := by
  have hclaim : modelClaim L clause facts ≠ none := by
    rw [h]
    exact Option.some_ne_none _
  unfold modelClaim at h
  split at h
  · next run hrun =>
      have hnamed : run ∈ runsNamed L clause facts.knownRuns := by rw [hrun]; exact List.mem_cons_self
      obtain ⟨fact, hfact, h⟩ := Option.bind_eq_some_iff.mp h
      split at h
      · cases h
      · split at h
        · next model hmodel =>
            have hmodels : model ∈ modelsNamed L clause facts.knownModels := by
              rw [hmodel]
              exact List.mem_cons_self
            have hremark (quoted : List Text) (hr : ModelRemark facts model run finding quoted) :
                ∃ quoted, BudgetRemark L facts clause finding quoted :=
              ⟨quoted, .model hclaim hnamed hmodels hr⟩
            obtain ⟨_, hfinding, hpair⟩ := Option.map_eq_some_iff.mp h
            cases hpair
            split at hfinding
            · cases hfinding
              exact hremark [] .noModel
            · next only honly =>
                split at hfinding
                · cases hfinding
                · cases hfinding
                  exact hremark [only] (.otherModel ⟨fact, hfact, honly⟩)
            · next list _ _ hlist =>
                cases hfinding
                exact hremark list (.models ⟨fact, hfact, hlist⟩)
            · cases hfinding
              exact hremark [] .lastOnly
        · cases h
  · cases h

theorem mem_findings_note {P : Text → Prop} {g : Grounded} {key finding f : Text}
    (hfinding : P finding) (h : f ∈ (g.note key finding).findings) : f ∈ g.findings ∨ P f := by
  unfold Grounded.note at h
  split at h
  · exact .inl h
  · refine (List.mem_append.mp h).imp_right fun hf => ?_
    cases List.mem_singleton.mp hf
    exact hfinding

/-- Findings that are noted one after another are among what was noted. -/
theorem mem_findings_foldl {α : Type*} {step : Grounded → α → Grounded} {P : Text → Prop}
    {items : List α} (hstep : ∀ g, ∀ a ∈ items, ∀ f ∈ (step g a).findings, f ∈ g.findings ∨ P f)
    {g : Grounded} {f : Text} (h : f ∈ (items.foldl step g).findings) : f ∈ g.findings ∨ P f := by
  induction items generalizing g with
  | nil => exact .inl h
  | cons a items ih =>
      have hlater := ih (fun g b hb => hstep g b (List.mem_cons_of_mem a hb)) h
      exact hlater.elim (hstep g a List.mem_cons_self f) .inr

/-- A remark of the budget check on a clause. -/
def Remarked (L : Letters) (facts : BudgetFacts) (clause f : Text) : Prop :=
  ∃ quoted, BudgetRemark L facts clause f quoted

theorem remarked_checkOver {g : Grounded} {f : Text}
    (h : f ∈ (Grounded.checkOver L facts clause (runsNamed L clause facts.knownRuns) g).findings) :
    f ∈ g.findings ∨ Remarked L facts clause f := by
  unfold Grounded.checkOver at h
  have hagents := mem_findings_foldl (P := Remarked L facts clause) (fun g entry hentry f hf => by
    simp only at hf
    split at hf
    · exact .inl hf
    · exact mem_findings_note ⟨[], .agentOver hentry⟩ hf) h
  rcases hagents with hruns | hagent
  · split at hruns
    · next run hrun =>
        split at hruns
        · have hnamed : run ∈ runsNamed L clause facts.knownRuns := by
            rw [hrun]
            exact List.mem_cons_self
          exact mem_findings_note ⟨[], .overBudget hnamed⟩ hruns
        · exact .inl hruns
    · exact .inl hruns
  · exact .inr hagent

theorem remarked_checkHas {words : List Text} {g : Grounded} {f : Text}
    (h : f ∈ (Grounded.checkHas facts words (runsNamed L clause facts.knownRuns) g).findings) :
    f ∈ g.findings ∨ Remarked L facts clause f := by
  unfold Grounded.checkHas at h
  split at h
  · refine mem_findings_foldl (fun g run hrun f hf => ?_) h
    split at hf
    · exact mem_findings_note ⟨[], .noBudget hrun⟩ hf
    · exact .inl hf
  · split at h
    · next run hrun =>
        split at h
        · exact .inl h
        · have hnamed : run ∈ runsNamed L clause facts.knownRuns := by
            rw [hrun]
            exact List.mem_cons_self
          exact mem_findings_note ⟨[], .budget hnamed⟩ h
    · exact .inl h

theorem remarked_modelClaim {g : Grounded} {f : Text}
    (h : f ∈ (match modelClaim L clause facts with
      | some (key, finding) => g.note key finding
      | none => g).findings) :
    f ∈ g.findings ∨ Remarked L facts clause f := by
  split at h
  · next key finding hclaim => exact mem_findings_note (modelRemark_of_modelClaim hclaim) h
  · exact .inl h

theorem remarked_unread {g : Grounded} {f : Text} {flagged : Bool}
    (h : f ∈ (if flagged then
      { g with
        unreadFlagged := true
        findings := g.findings ++ [("states budget facts without calling `budgets`, the only " ++
          "tool that says which runs have a budget").toList] } else g).findings) :
    f ∈ g.findings ∨ Remarked L facts clause f := by
  split at h
  · refine (List.mem_append.mp h).imp_right fun hf => ?_
    cases List.mem_singleton.mp hf
    exact ⟨[], .unread⟩
  · exact .inl h

/-- The check of a clause makes remarks on it. -/
theorem remarked_checkClause {budgetsAvailable : Bool} {g : Grounded} {f : Text}
    (h : f ∈ (Grounded.checkClause L facts budgetsAvailable g clause).findings) :
    f ∈ g.findings ∨ Remarked L facts clause f := by
  unfold Grounded.checkClause at h
  simp only at h
  split at h
  · exact remarked_modelClaim h
  · refine (remarked_checkHas h).elim (fun h => ?_) .inr
    split at h
    · refine (remarked_checkOver h).elim (fun h => ?_) .inr
      exact (remarked_unread h).elim remarked_modelClaim .inr
    · exact (remarked_unread h).elim remarked_modelClaim .inr

/-- Every finding of the budget check is a remark on a clause. -/
theorem remarked_of_mem_groundingCheck {text : Text} {budgetsAvailable : Bool} {f : Text}
    (h : f ∈ groundingCheck L text facts budgetsAvailable) :
    ∃ clause ∈ clauses L text, Remarked L facts clause f := by
  refine (mem_findings_foldl (P := fun f => ∃ clause ∈ clauses L text, Remarked L facts clause f)
    (fun g clause hclause f hf => ?_) h).resolve_left List.not_mem_nil
  exact (remarked_checkClause hf).imp_right fun hremark => ⟨clause, hclause, hremark⟩

end Budget

section Answer

variable {F : Type} (L : Library F)

/-- What a statement says: a reference or an amount of its own. -/
inductive Says (statement : Text) : Text → Prop
  | reference {r : Reference} (hr : r ∈ references L.letters statement) : Says statement
      ("names ".toList ++ r.kind.label ++ " `".toList ++ r.token ++ ['\x60'])
  | amount {a : Amount} (ha : a ∈ amounts L.letters statement) : Says statement
      ("states the amount ".toList ++ a.text)

/-- A finding of the references check on a statement. All it quotes, the statement says. -/
inductive EvidenceRemark (e : Evidence) (statement : Text) : Text → Prop
  | notReturned {what : Text} (hwhat : Says L statement what) : EvidenceRemark e statement
      (what ++ ", which no tool returned in this answer".toList)
  | inText {what : Text} {span : Span} (hwhat : Says L statement what) (hspan : span ∈ e.spans) :
      EvidenceRemark e statement (Evidence.onlyInText what span)
  | demanded {id : Text} {span : Span} (hid : names L.letters statement id = true)
      (hspan : span ∈ e.spans) : EvidenceRemark e statement
      ("recommends an action on `".toList ++ id ++ "` that text from `".toList ++ span.tool ++
        "` asks for, and that text is data, not an instruction".toList)

/-- Why a proposal is withheld. All that is quoted, the proposal says. -/
inductive Withholding (action : ProposedAction F) : Text → Prop
  | demanded {span : Span} : Withholding action ("text from `".toList ++ span.tool ++
      "` asks for this action, and text from a plane is data, not an instruction".toList)
  | notReturned : Withholding action ("no tool returned ".toList ++ (targetKind action.kind).label ++
      " `".toList ++ action.target ++ "` in this answer".toList)
  | rationale {e : Evidence} {range : Range} {message : Text} (hrange : range ∈ statements action.rationale)
      (h : EvidenceRemark L e (slice action.rationale range) message) :
      Withholding action ("its rationale ".toList ++ message)

variable {L} {e : Evidence}

theorem remark_of_missing {byText : Bool} {statement what named message : Text}
    (hwhat : Says L statement what) (h : e.missing L byText what named = some message) :
    EvidenceRemark L e statement message := by
  unfold Evidence.missing at h
  split at h
  · next span hspan =>
      split at h
      · cases h
      · cases h
        exact .inText hwhat (List.mem_of_find?_eq_some hspan)
  · cases h
    exact .notReturned hwhat

/-- Every finding on a statement quotes what the statement says. -/
theorem remark_of_mem_findings {operator : Option Text} {statement message : Text}
    (h : message ∈ e.findings L operator statement) : EvidenceRemark L e statement message := by
  unfold Evidence.findings at h
  simp only at h
  rcases List.mem_append.mp h with h | h
  · split at h
    · cases h
    · rcases List.mem_append.mp h with h | h
      · obtain ⟨r, hr, hmessage⟩ := List.mem_filterMap.mp h
        unfold Evidence.checkReference at hmessage
        split at hmessage
        · cases hmessage
        · exact remark_of_missing (.reference hr) hmessage
      · obtain ⟨a, ha, hmessage⟩ := List.mem_filterMap.mp h
        unfold Evidence.checkAmount at hmessage
        split at hmessage
        · cases hmessage
        · exact remark_of_missing (.amount ha) hmessage
  · split at h
    · obtain ⟨⟨id, tool⟩, hdemand, rfl⟩ := List.mem_map.mp h
      obtain ⟨kind, -, hkind⟩ := List.mem_flatMap.mp hdemand
      split at hkind
      · obtain ⟨⟨held, kinds⟩, -, hheld⟩ := List.mem_filterMap.mp hkind
        simp only at hheld
        split at hheld
        · cases hheld
        · next hnot =>
            obtain ⟨span, hspan, hpair⟩ := Option.map_eq_some_iff.mp hheld
            cases hpair
            have hnames : names L.letters statement id = true := by
              by_contra hfalse
              simp [hfalse] at hnot
            exact .demanded hnames (List.mem_of_find?_eq_some hspan)
      · cases hkind
    · cases h

theorem remark_of_mem_check {operator : Option Text} {text : Text} {finding : Finding}
    (h : finding ∈ e.check L text operator) :
    ∃ range ∈ statements text, EvidenceRemark L e (slice text range) finding.message := by
  obtain ⟨range, hrange, hfinding⟩ := List.mem_flatMap.mp h
  obtain ⟨message, hmessage, rfl⟩ := List.mem_map.mp hfinding
  exact ⟨range, hrange, remark_of_mem_findings hmessage⟩

theorem withholding_of_settle {action action' : ProposedAction F} {operator : Option Text}
    {e' : Evidence} {reason : Text}
    (h : e.settle L action operator = (.error reason, e', action')) :
    Withholding L action reason := by
  unfold Evidence.settle at h
  split at h
  · next finding rest hcheck =>
      cases h
      have hmem : finding ∈ e.check L action.rationale operator := by
        rw [hcheck]
        exact List.mem_cons_self
      obtain ⟨range, hrange, hremark⟩ := remark_of_mem_check hmem
      exact .rationale hrange hremark
  · cases h

/-- What is said of a proposal that is withheld quotes the proposal. -/
theorem withholding_of_screen {action action' : ProposedAction F} {operator : Option Text}
    {e' : Evidence} {reason : Text}
    (h : e.screen L action operator = (.error reason, e', action')) :
    Withholding L action reason := by
  unfold Evidence.screen at h
  split at h
  · exact withholding_of_settle h
  · split at h
    · next hadmits =>
        cases h
        unfold Evidence.admits at hadmits
        split at hadmits
        · cases hadmits
          exact .demanded
        · simp only at hadmits
          split at hadmits
          · cases hadmits
            exact .notReturned
          · cases hadmits
    · exact withholding_of_settle h

/-- The screen changes what a card cites, and not the policies it shows. -/
theorem policyContext_screen {action action' : ProposedAction F} {operator : Option Text}
    {e' : Evidence} {dropped : List Text}
    (h : e.screen L action operator = (.ok dropped, e', action')) :
    action'.policyContext = action.policyContext := by
  have hsettle {e : Evidence} (h : e.settle L action operator = (.ok dropped, e', action')) :
      action'.policyContext = action.policyContext := by
    unfold Evidence.settle at h
    split at h
    · cases h
    · cases h
      rfl
  unfold Evidence.screen at h
  split at h
  · exact hsettle h
  · split at h
    · cases h
    · exact hsettle h

end Answer

section Draft

variable {F : Type} (felyx : Felyx F) (brief : Brief) (s : Conversation F) (text : Text)

/-- A finding on a draft, and what it quotes that the draft does not say. -/
inductive DraftRemark : Text → List Text → Prop
  | budget {clause finding : Text} {quoted : List Text}
      (hclause : clause ∈ clauses felyx.library.letters text)
      (h : BudgetRemark felyx.library.letters s.facts clause finding quoted) :
      DraftRemark finding quoted
  | evidence {range : Range} {message : Text} (hrange : range ∈ statements text)
      (h : EvidenceRemark felyx.library s.evidence (slice text range) message) :
      DraftRemark message []
  | incident {id : Text} (hid : brief.incident = some id)
      (hheld : s.evidence.groundedAs felyx.library .incident id = false) :
      DraftRemark ("explains incident `".toList ++ id ++ "`, which no tool returned".toList) [id]

variable {felyx brief s text}

theorem mem_of_mem_findings {draft : Draft} {f : Text} (h : f ∈ draft.findings) :
    f ∈ draft.claims ∨ (∃ finding ∈ draft.references, finding.message = f) ∨
      draft.noIncident = some f := by
  have hfold : ∀ (messages out : List Text),
      f ∈ messages.foldl (fun out message => if message ∈ out then out else out ++ [message]) out →
        f ∈ out ∨ f ∈ messages := by
    intro messages
    induction messages with
    | nil => exact fun out h => .inl h
    | cons message messages ih =>
        intro out h
        rcases ih _ h with h | h
        · dsimp only at h
          split at h
          · exact .inl h
          · refine (List.mem_append.mp h).imp_right fun hf => ?_
            exact List.mem_singleton.mp hf ▸ List.mem_cons_self
        · exact .inr (List.mem_cons_of_mem _ h)
  rcases List.mem_append.mp h with h | h
  · refine (hfold _ _ h).imp_right fun hmessage => .inl ?_
    exact List.mem_map.mp hmessage
  · exact .inr (.inr (Option.mem_toList.mp h))

/-- Every finding on a draft is a remark on it. -/
theorem remark_of_mem_draft {f : Text} (h : f ∈ (felyx.draft brief s text).findings) :
    ∃ quoted, DraftRemark felyx brief s text f quoted := by
  rcases mem_of_mem_findings h with hclaim | ⟨finding, hfinding, rfl⟩ | hincident
  · obtain ⟨clause, hclause, quoted, hremark⟩ := remarked_of_mem_groundingCheck hclaim
    exact ⟨quoted, .budget hclause hremark⟩
  · obtain ⟨range, hrange, hremark⟩ := remark_of_mem_check hfinding
    exact ⟨[], .evidence hrange hremark⟩
  · obtain ⟨id, hid, rfl⟩ := Option.map_eq_some_iff.mp hincident
    obtain ⟨hbrief, hheld⟩ := Option.filter_eq_some_iff.mp hid
    rw [Bool.not_eq_eq_eq_not, Bool.not_true] at hheld
    exact ⟨[id], .incident hbrief hheld⟩

end Draft

end Genaryx.Copilot
