import Genaryx.Onboard.Distinct
import Genaryx.Onboard.Snippet

/-!
# The stub as it is read

The policy stub says its mapping and its comments. It is read so exactly where every declared
folder stands on one line, and the generated artifacts mean what was entered exactly where all
that was entered freely is plain.
-/

namespace Genaryx.Onboard

open Base Settings
open Json (Decimal Double)

variable {F : Type} {D : Double F}

section Stub

variable (r : OnboardGenerateRequest F)

/-- A line of comment as it is meant. -/
def commentWritten (line : Text) : Yaml.Written D := .comment line.tail

/-- The stub's lines as they are meant. -/
def stubWritten (human : Option (Constant D)) (hpolicy : Yaml.IsBare r.policyId)
    (htarget : ∀ v, Yaml.OneLine v r.resolvedPattern) : List (Yaml.Written D) :=
  policyHead.map commentWritten ++
    [.bare Words.name r.policyId hpolicy, .quoted Words.target r.resolvedPattern htarget] ++
    (human.map (.constant Words.requireHuman)).toList ++
    (if r.deniesUnattested then [.constant Words.denyUnattested (.bool true)] else []) ++
    (if r.declared.filesystem.isEmpty then [] else
      scopesHead.map commentWritten ++
        r.declared.filesystem.map (fun s => commentWritten (scopeComment s)) ++
        scopesNote.map commentWritten)

variable {r}

theorem isBare_policyId (h : Passed D r) : Yaml.IsBare r.policyId := by
  have honboard : "onboard-".toList = ['o', 'n', 'b', 'o', 'a', 'r', 'd', '-'] := by decide
  have hshape : r.policyId = ['o', 'n', 'b', 'o', 'a', 'r', 'd', '-'] ++ r.resolvedKeyId :=
    congrArg (· ++ r.resolvedKeyId) honboard
  have hbare : ∀ c ∈ r.policyId, Yaml.bareChar c = true := by
    rw [hshape]
    refine List.forall_mem_append.mpr ⟨by decide, fun c hc => ?_⟩
    have hchar := h.keyId.2 c hc
    have halphanum := isAlphanum_of_lowerOrDigit (c := c)
    simp only [segmentChar, Bool.or_eq_true, decide_eq_true_eq] at hchar
    simp only [Yaml.bareChar, wordChar, Bool.or_eq_true, decide_eq_true_eq]
    tauto
  have hlong : ∀ t ∈ Yaml.reserved, t.length ≤ 5 := by decide
  refine ⟨by rw [hshape]; rfl, hbare, fun hmem => ?_⟩
  have hlength := hlong _ hmem
  rw [hshape, List.length_append, List.length_cons] at hlength
  simp only [List.length_cons] at hlength
  omega

theorem toText_commentWritten (line : Text) (h : line.head? = some '#') :
    (commentWritten line : Yaml.Written D).toText = line := by
  cases line with
  | nil => cases h
  | cons c line =>
      cases h
      rfl

theorem map_toText_commentWritten (lines : List Text)
    (h : ∀ line ∈ lines, line.head? = some '#') :
    (lines.map (commentWritten (D := D))).map Yaml.Written.toText = lines := by
  rw [List.map_map]
  refine (List.map_congr_left fun line hline => ?_).trans (List.map_id lines)
  exact toText_commentWritten line (h line hline)

/-- The meant lines are written as the stub is. -/
theorem toText_stubWritten {human : Option (Constant D)} (hpolicy : Yaml.IsBare r.policyId)
    (htarget : ∀ v, Yaml.OneLine v r.resolvedPattern)
    (hhuman : ∀ before, requireHumanLine D before r.requireHumanAboveUsd =
      (human.map fun c => before ++ c.text).toList) :
    (stubWritten r human hpolicy htarget).map Yaml.Written.toText =
      wardryxPolicyLines D r r.declared := by
  have hname : Words.name.text ++ ':' :: ' ' :: r.policyId = "name: ".toList ++ r.policyId := by
    have hbefore : "name: ".toList = Words.name.text ++ [':', ' '] := by decide
    rw [hbefore, List.append_assoc]
    rfl
  have htarget' : Words.target.text ++ ':' :: ' ' :: quote r.resolvedPattern =
      "target: ".toList ++ quoted r.resolvedPattern := by
    have hbefore : "target: ".toList = Words.target.text ++ [':', ' '] := by decide
    rw [hbefore, List.append_assoc, quoted_eq_quote]
    rfl
  have hlimit : (human.map (Yaml.Written.constant Words.requireHuman)).toList.map
      Yaml.Written.toText = requireHumanLine D "require_human_above_usd: " r.requireHumanAboveUsd := by
    have hbefore : "require_human_above_usd: ".toList = Words.requireHuman.text ++ [':', ' '] := by
      decide
    rw [hhuman, hbefore]
    cases human with
    | none => rfl
    | some c => exact congrArg ([·]) (List.append_assoc _ [':', ' '] _).symm
  have hdeny : (if r.deniesUnattested then
      [Yaml.Written.constant Words.denyUnattested (.bool true : Constant D)] else []).map
        Yaml.Written.toText =
          if r.deniesUnattested then ["deny_if_unattested: true".toList] else [] := by
    have hline : (Yaml.Written.constant Words.denyUnattested (.bool true : Constant D)).toText =
        "deny_if_unattested: true".toList := rfl
    split
    · exact congrArg ([·]) hline
    · rfl
  have hhead := map_toText_commentWritten (D := D) policyHead (by decide)
  have hscopes := map_toText_commentWritten (D := D) scopesHead (by decide)
  have hnote := map_toText_commentWritten (D := D) scopesNote (by decide)
  have hfolders : (r.declared.filesystem.map fun s =>
      commentWritten (D := D) (scopeComment s)).map Yaml.Written.toText =
        r.declared.filesystem.map scopeComment := by
    rw [List.map_map]
    exact List.map_congr_left fun s _ => toText_commentWritten _ rfl
  have hbehind : (if r.declared.filesystem.isEmpty then [] else
      scopesHead.map commentWritten ++
        r.declared.filesystem.map (fun s => commentWritten (D := D) (scopeComment s)) ++
          scopesNote.map commentWritten).map Yaml.Written.toText =
      if r.declared.filesystem.isEmpty then [] else
        scopesHead ++ r.declared.filesystem.map scopeComment ++ scopesNote := by
    split
    · rfl
    · rw [List.map_append, List.map_append, hscopes, hfolders, hnote]
  have hentries : ([.bare Words.name r.policyId hpolicy,
      .quoted Words.target r.resolvedPattern htarget] : List (Yaml.Written D)).map
        Yaml.Written.toText =
      ["name: ".toList ++ r.policyId, "target: ".toList ++ quoted r.resolvedPattern] :=
    congrArg₂ (fun a b => [a, b]) hname htarget'
  rw [stubWritten, wardryxPolicyLines, List.map_append, List.map_append, List.map_append,
    List.map_append, hhead, hentries, hlimit, hdeny, hbehind]

/-- The meant lines mean the mapping and the comments. -/
theorem node_stubWritten {human : Option (Constant D)} (hpolicy : Yaml.IsBare r.policyId)
    (htarget : ∀ v, Yaml.OneLine v r.resolvedPattern)
    (hvalue : (limit r).map Settings.Value.number = human.map Constant.value) :
    (stubWritten r human hpolicy htarget).map Yaml.Written.node = policyMeaning r := by
  have hcomments : ∀ lines : List Text,
      (lines.map (commentWritten (D := D))).map Yaml.Written.node = lines.map commentNode := by
    intro lines
    rw [List.map_map]
    rfl
  have hfolders : (r.declared.filesystem.map fun s =>
      commentWritten (D := D) (scopeComment s)).map Yaml.Written.node =
        r.declared.filesystem.map fun s => commentNode (scopeComment s) := by
    rw [List.map_map]
    rfl
  have hlimit : (human.map (Yaml.Written.constant Words.requireHuman)).toList.map
      Yaml.Written.node =
        ((limit r).map fun x => Yaml.Node.entry "require_human_above_usd" (.number x)).toList := by
    have hmap := congrArg (Option.map (Yaml.Node.entry Words.requireHuman.text)) hvalue
    rw [Option.map_map, Option.map_map] at hmap
    cases human <;> cases hx : limit r <;> rw [hx] at hmap
    · rfl
    · cases hmap
    · cases hmap
    · exact congrArg Option.toList hmap.symm
  have hdeny : (if r.deniesUnattested then
      [Yaml.Written.constant Words.denyUnattested (.bool true : Constant D)] else []).map
        Yaml.Written.node =
          if r.deniesUnattested then [.entry "deny_if_unattested" (.bool true)] else [] := by
    split <;> rfl
  have hbehind : (if r.declared.filesystem.isEmpty then [] else
      scopesHead.map commentWritten ++
        r.declared.filesystem.map (fun s => commentWritten (D := D) (scopeComment s)) ++
          scopesNote.map commentWritten).map Yaml.Written.node =
      if r.declared.filesystem.isEmpty then [] else
        scopesHead.map commentNode ++
          r.declared.filesystem.map (fun s => commentNode (scopeComment s)) ++
            scopesNote.map commentNode := by
    split
    · rfl
    · rw [List.map_append, List.map_append, hcomments, hfolders, hcomments]
  have hentries : ([.bare Words.name r.policyId hpolicy,
      .quoted Words.target r.resolvedPattern htarget] : List (Yaml.Written D)).map
        Yaml.Written.node =
      [.entry "name" (.text r.policyId), .entry "target" (.text r.resolvedPattern)] := rfl
  rw [stubWritten, policyMeaning, List.map_append, List.map_append, List.map_append,
    List.map_append, hcomments, hentries, hlimit, hdeny, hbehind]

/-- The stub sets no name twice. -/
theorem nodup_policyMeaning : ((policyMeaning r).filterMap Yaml.Node.key?).Nodup := by
  have hcomments : ∀ lines : List Text,
      (lines.map (commentNode (F := F))).filterMap Yaml.Node.key? = [] := by
    intro lines
    rw [List.filterMap_map]
    exact List.filterMap_eq_nil_iff.mpr fun _ _ => rfl
  have hfolders : (r.declared.filesystem.map fun s =>
      commentNode (F := F) (scopeComment s)).filterMap Yaml.Node.key? = [] := by
    rw [List.filterMap_map]
    exact List.filterMap_eq_nil_iff.mpr fun _ _ => rfl
  have hbehind : (if r.declared.filesystem.isEmpty then [] else
      scopesHead.map (commentNode (F := F)) ++
        r.declared.filesystem.map (fun s => commentNode (scopeComment s)) ++
          scopesNote.map commentNode).filterMap Yaml.Node.key? = [] := by
    split
    · rfl
    · rw [List.filterMap_append, List.filterMap_append, hcomments, hfolders, hcomments]
      rfl
  have hnames : ((policyMeaning r).filterMap Yaml.Node.key?).Sublist
      ([Words.name.text, Words.target.text] ++ [Words.requireHuman.text] ++
        [Words.denyUnattested.text]) := by
    rw [policyMeaning, List.filterMap_append, List.filterMap_append, List.filterMap_append,
      List.filterMap_append, hcomments, hbehind, List.append_nil, List.nil_append]
    refine .append (.append (.refl _) ?_) ?_
    · cases limit r with
      | none => exact List.nil_sublist _
      | some x => exact .refl _
    · split
      · exact .refl _
      · exact List.nil_sublist _
  exact hnames.nodup (by decide)

variable {v : Yaml.Version}

/-- The comment on a folder stands on one line exactly where the folder does. -/
theorem oneLine_scopeComment_iff {s : ValidatedFsScope} (hmode : Safe s.mode) :
    Yaml.OneLine v (scopeComment s).tail ↔ Yaml.OneLine v s.path := by
  have hbefore : Safe (("#   ".toList ++ padEnd 6 (s.mode ++ [':']) ++ [' ']).tail) := by
    have hblanks : ∀ k, Safe (List.replicate k ' ') := fun k c hc => by
      rw [List.eq_of_mem_replicate hc]
      rfl
    have hpad : Safe (padEnd 6 (s.mode ++ [':'])) :=
      (hmode.append (by decide)).append (hblanks _)
    exact ((by decide : Safe "   ".toList).append hpad).append (by decide)
  have hshape : (scopeComment s).tail =
      ("#   ".toList ++ padEnd 6 (s.mode ++ [':']) ++ [' ']).tail ++ s.path := by
    simp [scopeComment]
  rw [hshape]
  constructor
  · exact fun h c hc => h c (List.mem_append_right _ hc)
  · exact fun h => (hbefore.oneLine v).append h

/-- The comments of the stub that are not on one line anyway are those on the folders. -/
theorem oneLine_stubWritten_iff (h : Passed D r) (human : Option (Constant D))
    (hpolicy : Yaml.IsBare r.policyId) (htarget : ∀ v, Yaml.OneLine v r.resolvedPattern) :
    (∀ w ∈ stubWritten r human hpolicy htarget, ∀ t ∈ w.comment?, Yaml.OneLine v t) ↔
      ∀ s ∈ r.declared.filesystem, Yaml.OneLine v s.path := by
  have hplain : ∀ lines : List Text, (∀ line ∈ lines, Safe line.tail) →
      ∀ w ∈ lines.map (commentWritten (D := D)), ∀ t ∈ w.comment?, Yaml.OneLine v t := by
    intro lines hlines
    refine List.forall_mem_map.mpr fun line hline t ht => ?_
    cases ht
    exact (hlines line hline).oneLine v
  have hfolders : (∀ w ∈ r.declared.filesystem.map
      (fun s => commentWritten (D := D) (scopeComment s)), ∀ t ∈ w.comment?, Yaml.OneLine v t) ↔
        ∀ s ∈ r.declared.filesystem, Yaml.OneLine v s.path := by
    rw [List.forall_mem_map]
    refine forall₂_congr fun s hs => ?_
    rw [← oneLine_scopeComment_iff (safe_mode h hs)]
    exact ⟨fun hall => hall _ rfl, fun hline t ht => by cases ht; exact hline⟩
  have hlimit : ∀ w ∈ (human.map (Yaml.Written.constant Words.requireHuman)).toList,
      ∀ t ∈ w.comment?, Yaml.OneLine v t := by
    cases human <;> simp [Yaml.Written.comment?]
  have hdeny : ∀ w ∈ (if r.deniesUnattested then
      [(.constant Words.denyUnattested (.bool true) : Yaml.Written D)] else []),
      ∀ t ∈ w.comment?, Yaml.OneLine v t := by
    split <;> simp [Yaml.Written.comment?]
  have hentries : ∀ w ∈ ([.bare Words.name r.policyId hpolicy,
      .quoted Words.target r.resolvedPattern htarget] : List (Yaml.Written D)),
      ∀ t ∈ w.comment?, Yaml.OneLine v t := by
    simp [Yaml.Written.comment?]
  have hbefore := hplain policyHead (by decide)
  have hscopes := hplain scopesHead (by decide)
  have hnote := hplain scopesNote (by decide)
  simp only [stubWritten, List.forall_mem_append, iff_true_intro hbefore, iff_true_intro hentries,
    iff_true_intro hlimit, iff_true_intro hdeny, true_and]
  split
  · next hempty =>
      rw [List.isEmpty_iff.mp hempty]
      simp
  · rw [List.forall_mem_append, List.forall_mem_append]
    exact ⟨fun hall => hfolders.mp hall.1.2, fun hall => ⟨⟨hscopes, hfolders.mpr hall⟩, hnote⟩⟩

/-- The stub is read as its mapping and its comments exactly where every folder stands on one
line. -/
theorem read_wardryxPolicyStub_iff (h : Passed D r) :
    Yaml.read v D (wardryxPolicyStub D r r.declared) = some (policyMeaning r) ↔
      ∀ s ∈ r.declared.filesystem, Yaml.OneLine v s.path := by
  obtain ⟨human, hhuman, hvalue⟩ := exists_limitConstant h
  have hpolicy := isBare_policyId h
  have htarget := (safe_resolvedPattern h).oneLine
  have hstub : wardryxPolicyStub D r r.declared =
      Yaml.fileText (stubWritten r human hpolicy htarget) := by
    rw [wardryxPolicyStub, Yaml.fileText, toText_stubWritten hpolicy htarget hhuman]
  have hnode := node_stubWritten hpolicy htarget hvalue
  have hkeys := nodup_policyMeaning (r := r)
  rw [← hnode] at hkeys ⊢
  rw [hstub, Yaml.read_fileText_iff hkeys]
  exact oneLine_stubWritten_iff h human hpolicy htarget

end Stub

namespace Generated

/-- The snippet and the stub are read as what was entered exactly where all that was entered
freely is plain. -/
theorem meant_iff (g : Generated F) (n : Hcl.Normalizer) (v : Yaml.Version) :
    g.Meant n v ↔ g.EnteredPlainly n v := by
  have hterraform := read_terraformSnippet_iff (n := n) g.passed
  have hpolicy := read_wardryxPolicyStub_iff (v := v) g.passed
  rw [← g.terraformSnippet_eq] at hterraform
  rw [← g.wardryxPolicyStub_eq] at hpolicy
  constructor
  · exact fun h => ⟨hterraform.mp h.terraform, hpolicy.mp h.policy⟩
  · exact fun h => ⟨hterraform.mpr h.exact, hpolicy.mpr h.folders⟩

end Generated

section Sample

def interpolatedRequest : OnboardGenerateRequest Decimal :=
  { sampleRequest "bank.example" "recon" with owner := "olena $\x7bvar.team\x7d" }

def interpolatedAgent : Generated Decimal :=
  .ofCheck sampleSurroundings interpolatedRequest ⟨[], []⟩ sampleSecret
    (by decide) (by decide) minted_sample

/-- An owner that begins an interpolation is not read as that owner. -/
theorem interpolation_read : ¬ ∀ (g : Generated Decimal) (n : Hcl.Normalizer) (v : Yaml.Version),
    g.Meant n v := by
  intro h
  have hread := (h interpolatedAgent .none .v1_2).terraform
  rw [interpolatedAgent.terraformSnippet_eq, read_terraformSnippet_iff interpolatedAgent.passed] at hread
  have hplain := (hread interpolatedRequest.ownerText List.mem_cons_self).plain
  exact absurd hplain (by decide)

end Sample

end Genaryx.Onboard
