import Genaryx.Hcl.Read
import Genaryx.Onboard.Accepted
import Genaryx.Yaml.Read

/-!
# What the stub and the snippet mean

The Terraform snippet is meant to be two resources with the entered texts, and the policy stub a
mapping with comments. They are read so exactly where no entered text has a line end or begins an
interpolation, and no declared folder has a character that ends a comment or that YAML refuses.
-/

namespace Genaryx.Onboard

open Base Settings
open Json (Double)

variable {F : Type}

/-- The number of an amount, if it is one. -/
def Amount.number? : Amount F → Option F
  | finite x => some x
  | infinite _ | nan => none

section Meaning

variable (r : OnboardGenerateRequest F)

/-- The limit on what needs no human. -/
def limit : Option F := r.requireHumanAboveUsd.bind Amount.number?

def textAttr (name : Text) (t : Text) : Hcl.Item F := .attr name (.text t)

def scopeItem (s : ValidatedFsScope) : Hcl.Item F :=
  .block "filesystem" [] [textAttr "path" s.path, textAttr "mode" s.mode]

def modelItem (m : ValidatedModelDecl) : Hcl.Item F :=
  .block "models" [] (textAttr "provider" m.provider ::
    ((m.model.map (textAttr "model")).toList ++ (m.endpoint.map (textAttr "endpoint")).toList))

/-- The passport as a resource. -/
def passportBody : List (Hcl.Item F) :=
  [textAttr "id" r.agentId, textAttr "owner" r.ownerText] ++
    ((given r.displayName).map (textAttr "display_name")).toList ++
    ((given r.runtime).map (textAttr "runtime")).toList ++
    (r.attestation.map (textAttr "attestation_method")).toList ++
    r.declared.filesystem.map scopeItem ++ r.declared.models.map modelItem

/-- The policy as a resource. -/
def policyBody : List (Hcl.Item F) :=
  [textAttr "id" r.policyId, textAttr "target" r.resolvedPattern] ++
    ((limit r).map fun x => .attr "require_human_above_usd" (.number x)).toList ++
    (if r.deniesUnattested then [.attr "deny_if_unattested" (.bool true)] else [])

/-- What the Terraform snippet is meant to be. -/
def terraformMeaning : List (Hcl.Item F) :=
  [.block "resource" ["taipan_agent_passport", r.tfName] (passportBody r),
    .block "resource" ["taipan_wardryx_policy", r.tfName] (policyBody r)]

/-- A line of comment without its sign. -/
def commentNode (line : Text) : Yaml.Node F := .comment line.tail

/-- What the policy stub is meant to be. -/
def policyMeaning : List (Yaml.Node F) :=
  policyHead.map commentNode ++
    [.entry "name" (.text r.policyId), .entry "target" (.text r.resolvedPattern)] ++
    ((limit r).map fun x => .entry "require_human_above_usd" (.number x)).toList ++
    (if r.deniesUnattested then [.entry "deny_if_unattested" (.bool true)] else []) ++
    (if r.declared.filesystem.isEmpty then [] else
      scopesHead.map commentNode ++ r.declared.filesystem.map (fun s => commentNode (scopeComment s)) ++
        scopesNote.map commentNode)

/-- The texts that are entered freely. -/
def enteredTexts : List Text :=
  r.ownerText :: ((given r.displayName).toList ++ (given r.runtime).toList ++
    r.declared.filesystem.map (·.path) ++
    r.declared.models.flatMap fun m => m.provider :: (m.model.toList ++ m.endpoint.toList))

end Meaning

namespace Generated

variable (g : Generated F) (n : Hcl.Normalizer) (v : Yaml.Version)

/-- The snippet and the stub are read as what was entered. -/
structure Meant : Prop where
  terraform : Hcl.read n g.around.double g.bundle.terraformSnippet =
    some (terraformMeaning g.request)
  policy : Yaml.read v g.around.double g.bundle.wardryxPolicyStub = some (policyMeaning g.request)

/-- No entered text has a line end or begins an interpolation, all are in normal form, and every
folder stands on one line of YAML. -/
structure EnteredPlainly : Prop where
  exact : ∀ t ∈ enteredTexts g.request, n.Exact t
  folders : ∀ s ∈ g.request.declared.filesystem, Yaml.OneLine v s.path

end Generated

section Safe

/-- A character that no request needs to quote. -/
def safeChar (c : Char) : Bool := 0x20 ≤ c.toNat && c.toNat ≤ 0x7E && c ≠ '\x7b'

def Safe (t : Text) : Prop := ∀ c ∈ t, safeChar c = true

instance (t : Text) : Decidable (Safe t) :=
  List.decidableBAll (fun c : Char => safeChar c = true) t

theorem Safe.append {s t : Text} (hs : Safe s) (ht : Safe t) : Safe (s ++ t) :=
  fun c hc => (List.mem_append.mp hc).elim (hs c) (ht c)

theorem Safe.cons {c : Char} {t : Text} (hc : safeChar c = true) (ht : Safe t) : Safe (c :: t) :=
  List.forall_mem_cons.mpr ⟨hc, ht⟩

theorem Safe.bounds {t : Text} (h : Safe t) {c : Char} (hc : c ∈ t) :
    (0x20 ≤ c.toNat ∧ c.toNat ≤ 0x7E) ∧ c ≠ '\x7b' := by
  have hsafe := h c hc
  simp only [safeChar, Bool.and_eq_true, decide_eq_true_eq] at hsafe
  exact hsafe

theorem Safe.plain {t : Text} (h : Safe t) : Hcl.Plain t := by
  have hbrace : ∀ a : Char, ¬ [a, '\x7b'] <:+: t := fun a hmem =>
    (h.bounds (hmem.subset (List.mem_cons_of_mem a List.mem_cons_self))).2 rfl
  refine ⟨fun c hc => ?_, hbrace _, hbrace _⟩
  have hlow := (h.bounds hc).1.1
  rw [Hcl.isNewline, Bool.or_eq_false_iff]
  constructor <;> refine decide_eq_false ?_ <;> rintro rfl <;> exact absurd hlow (by decide)

/-- A safe text is read as itself, whatever strings are normalised to. -/
theorem Safe.exact {t : Text} (h : Safe t) (n : Hcl.Normalizer) : n.Exact t :=
  ⟨h.plain, n.nfc_ascii t fun _ hc => lt_of_le_of_lt (h.bounds hc).1.2 (by decide)⟩

theorem Safe.oneLine {t : Text} (h : Safe t) (v : Yaml.Version) : Yaml.OneLine v t :=
  fun _ hc => Yaml.isInLine_of_ascii v (h.bounds hc).1

theorem safeChar_of_segmentChar {c : Char} (h : segmentChar c = true) : safeChar c = true := by
  simp only [segmentChar, Bool.or_eq_true, decide_eq_true_eq] at h
  rcases h with ((h | rfl) | rfl) | rfl
  · have halphanum := isAlphanum_of_lowerOrDigit h
    have hbounds := Yaml.ascii_of_isAlphanum halphanum
    have hbrace : c ≠ '\x7b' := by
      rintro rfl
      exact absurd halphanum (by decide)
    simp [safeChar, hbounds.1, hbounds.2, hbrace]
  · rfl
  · rfl
  · rfl

end Safe

theorem safe_of_validPath {path : Text} (h : validPath path = true) : Safe path := fun c hc => by
  have hall := List.all_eq_true.mp (Bool.and_eq_true_iff.mp h).2
  rcases Text.eq_or_mem_of_mem_splitOn '/' hc with rfl | ⟨seg, hseg, hmem⟩
  · rfl
  · have hchars := (Bool.and_eq_true_iff.mp (hall seg hseg)).2
    exact safeChar_of_segmentChar (List.all_eq_true.mp hchars c hmem)

section Passed

variable {D : Double F} {r : OnboardGenerateRequest F} (h : Passed D r)

include h

theorem safe_agentId : Safe r.agentId := by
  have hdomain : Safe r.domain := fun c hc => by
    have hall := (Bool.and_eq_true_iff.mp (Bool.and_eq_true_iff.mp h.domain).1).2
    have hchar := List.all_eq_true.mp hall c hc
    refine safeChar_of_segmentChar ?_
    simp only [Bool.or_eq_true, decide_eq_true_eq] at hchar
    rcases hchar with (hchar | rfl) | rfl
    · simp [segmentChar, hchar]
    · rfl
    · rfl
  have hscheme : Safe "agent://".toList := by decide
  exact (hscheme.append hdomain).append (.cons rfl (safe_of_validPath h.agentPath))

/-- A pattern is the id of its agent, or a beginning of it and a star. -/
theorem safe_resolvedPattern : Safe r.resolvedPattern := by
  have hmatched := h.matched
  rw [patternMatches] at hmatched
  split at hmatched
  · next start hstart =>
      obtain ⟨reversed, hreversed, rfl⟩ := Option.map_eq_some_iff.mp hstart
      have hpattern : r.resolvedPattern = reversed.reverse ++ ['*'] := by
        rw [← List.reverse_reverse r.resolvedPattern,
          (Text.stripPrefix_eq_some_iff _ _ _).mp hreversed]
        simp
      rw [hpattern]
      refine .append (fun c hc => safe_agentId h c ?_) (by decide)
      exact ((Text.startsWith_iff _ _).mp hmatched).subset hc
  · rw [of_decide_eq_true hmatched]
    exact safe_agentId h

theorem safe_resolvedKeyId : Safe r.resolvedKeyId := fun c hc =>
  safeChar_of_segmentChar (h.keyId.2 c hc)

theorem safe_policyId : Safe r.policyId :=
  .append (by decide) (safe_resolvedKeyId h)

theorem safe_tfName : Safe r.tfName := fun c hc => by
  obtain ⟨d, hd, hmem⟩ := List.mem_flatMap.mp hc
  split at hmem
  · rw [List.mem_singleton.mp hmem]
    rfl
  · rw [List.mem_singleton.mp hmem]
    exact safe_resolvedKeyId h d hd

theorem backslashed_tfName : backslashed r.tfName = r.tfName := by
  have hclean : ∀ c ∈ r.tfName, segmentChar c = true := fun c hc => by
    obtain ⟨d, hd, hmem⟩ := List.mem_flatMap.mp hc
    split at hmem
    · rw [List.mem_singleton.mp hmem]
      rfl
    · rw [List.mem_singleton.mp hmem]
      exact h.keyId.2 d hd
  generalize r.tfName = t at hclean
  induction t with
  | nil => rfl
  | cons c t ih =>
      obtain ⟨hc, ht⟩ := List.forall_mem_cons.mp hclean
      rw [backslashed_cons, ih ht]
      rintro (rfl | rfl)
      · exact absurd hc (by decide)
      · exact absurd hc (by decide)

theorem safe_attestation {m : Text} (hm : r.attestation = some m) : Safe m := by
  have hall : ∀ m ∈ attestationMethods, Safe m := by decide
  exact hall m (h.attestation m hm)

theorem safe_mode {s : ValidatedFsScope} (hs : s ∈ r.declared.filesystem) : Safe s.mode := by
  have hall : ∀ mode ∈ fsModes, Safe mode := by decide
  exact hall s.mode (h.scopes s hs).1

/-- The limit is written as a constant that has its value. -/
theorem exists_limitConstant : ∃ c : Option (Constant D),
    (∀ before, requireHumanLine D before r.requireHumanAboveUsd =
      (c.map fun c => before ++ c.text).toList) ∧
    (limit r).map Settings.Value.number = c.map Constant.value := by
  rw [limit]
  cases hv : r.requireHumanAboveUsd with
  | none => exact ⟨none, fun _ => rfl, rfl⟩
  | some v =>
      have hpositive := h.requireHuman v hv
      cases v with
      | infinite => cases hpositive
      | nan => cases hpositive
      | finite x =>
          obtain ⟨hzero, hsign⟩ := Bool.and_eq_true_iff.mp hpositive
          rw [Bool.not_eq_true'] at hzero hsign
          refine ⟨some (.ofPositive x hzero hsign), fun before => ?_, rfl⟩
          have hdisplay := Json.display_of_pos D hzero hsign
          rw [requireHumanLine, Option.map_some, Option.map_some, Amount.display, hdisplay]
          rfl

end Passed

/-- Escaping the backslashes and then the quotes escapes both. -/
theorem quoted_eq_quote (t : Text) : quoted t = quote t := by
  have hchars : replaceChars (· = '"') "\\\"" (replaceChars (· = '\\') "\\\\" t) = backslashed t := by
    induction t with
    | nil => rfl
    | cons c t ih =>
        rw [replaceChars] at ih ⊢
        by_cases hslash : c = '\\'
        · rw [hslash, backslashed_cons_special (Or.inl rfl), ← ih]
          rfl
        · by_cases hquote : c = '"'
          · rw [hquote, backslashed_cons_special (Or.inr rfl), ← ih]
            rfl
          · rw [backslashed_cons (not_or.mpr ⟨hslash, hquote⟩), ← ih]
            simp [replaceChars, hslash, hquote]
  rw [quoted, quote, hchars]

end Genaryx.Onboard
