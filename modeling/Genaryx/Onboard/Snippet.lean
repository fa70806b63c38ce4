import Genaryx.Onboard.Meant

/-!
# The snippet as it is read

The lines of the Terraform snippet say the two resources, which set no attribute twice. They are
read so exactly where the entered texts are exact.
-/

namespace Genaryx.Onboard

open Base Settings
open Json (Double)

variable {F : Type}

namespace Words

def resource : Word := ⟨"resource", by decide, by decide⟩
def id : Word := ⟨"id", by decide, by decide⟩
def owner : Word := ⟨"owner", by decide, by decide⟩
def displayName : Word := ⟨"display_name", by decide, by decide⟩
def runtime : Word := ⟨"runtime", by decide, by decide⟩
def attestationMethod : Word := ⟨"attestation_method", by decide, by decide⟩
def filesystem : Word := ⟨"filesystem", by decide, by decide⟩
def path : Word := ⟨"path", by decide, by decide⟩
def mode : Word := ⟨"mode", by decide, by decide⟩
def models : Word := ⟨"models", by decide, by decide⟩
def provider : Word := ⟨"provider", by decide, by decide⟩
def model : Word := ⟨"model", by decide, by decide⟩
def endpoint : Word := ⟨"endpoint", by decide, by decide⟩
def name : Word := ⟨"name", by decide, by decide⟩
def target : Word := ⟨"target", by decide, by decide⟩
def requireHuman : Word := ⟨"require_human_above_usd", by decide, by decide⟩
def denyUnattested : Word := ⟨"deny_if_unattested", by decide, by decide⟩

end Words

section Terraform

variable {D : Double F} (r : OnboardGenerateRequest F)

/-- The line of a field that may be left out. -/
def optionalWritten (indent : Nat) (name : Word) (field : Option Text) : List (Hcl.Written D) :=
  (field.map (.text indent name 1)).toList

def scopeWritten (s : ValidatedFsScope) : List (Hcl.Written D) :=
  [.opening 2 Words.filesystem [], .text 4 Words.path 1 s.path, .text 4 Words.mode 1 s.mode,
    .closing 2]

def modelWritten (m : ValidatedModelDecl) : List (Hcl.Written D) :=
  [.opening 2 Words.models [], .text 4 Words.provider 1 m.provider] ++
    optionalWritten 4 Words.model m.model ++ optionalWritten 4 Words.endpoint m.endpoint ++
    [.closing 2]

def headComment : Hcl.Written D :=
  .comment " Generated by the Genaryx onboard wizard (docs/ONBOARD.md). Review and commit."
    (by decide)

/-- The header of one of the two resources. -/
def resourceWritten (type : { t : Text // Hcl.Plain t }) (hname : Safe r.tfName) : Hcl.Written D :=
  .opening 0 Words.resource [type, ⟨r.tfName, hname.plain⟩]

/-- The passport's lines as they are meant. -/
def passportWritten : List (Hcl.Written D) :=
  [.text 2 Words.id 4 r.agentId, .text 2 Words.owner 1 r.ownerText] ++
    optionalWritten 2 Words.displayName (given r.displayName) ++
    optionalWritten 2 Words.runtime (given r.runtime) ++
    optionalWritten 2 Words.attestationMethod r.attestation ++
    r.declared.filesystem.flatMap scopeWritten ++ r.declared.models.flatMap modelWritten

/-- The policy's lines as they are meant. -/
def policyWritten (human : Option (Constant D)) : List (Hcl.Written D) :=
  [.text 2 Words.id 5 r.policyId, .text 2 Words.target 1 r.resolvedPattern] ++
    (human.map (.constant 2 Words.requireHuman 1)).toList ++
    (if r.deniesUnattested then [.constant 2 Words.denyUnattested 1 (.bool true)] else [])

/-- The snippet's lines as they are meant. -/
def terraformWritten (human : Option (Constant D)) (hname : Safe r.tfName) :
    List (Hcl.Written D) :=
  headComment ::
    ((resourceWritten r ⟨"taipan_agent_passport", by decide⟩ hname ::
        (passportWritten r ++ [.closing 0])) ++
      .blank :: (resourceWritten r ⟨"taipan_wardryx_policy", by decide⟩ hname ::
        (policyWritten r human ++ [.closing 0])))

/-- Setting a name to a text is written as the text in quotes. -/
theorem toText_text (indent : Nat) (name : Word) (pad : Nat) (before : Text)
    (h : Hcl.Written.assign indent name pad = before) (t : Text) :
    (Hcl.Written.text indent name pad t : Hcl.Written D).toText = before ++ quoted t := by
  rw [Hcl.Written.toText, h, quoted_eq_quote]

theorem toText_optionalWritten (indent : Nat) (name : Word) (before : Text)
    (h : Hcl.Written.assign indent name 1 = before) (field : Option Text) :
    (optionalWritten indent name field : List (Hcl.Written D)).map Hcl.Written.toText =
      optionalLine before field := by
  cases field with
  | none => rfl
  | some t => exact congrArg ([·]) (toText_text indent name 1 before h t)

theorem toText_scopeWritten (s : ValidatedFsScope) :
    (scopeWritten s : List (Hcl.Written D)).map Hcl.Written.toText = scopeLines s := by
  simp only [scopeWritten, scopeLines, List.map_cons, List.map_nil,
    toText_text 4 Words.path 1 "    path = " (by decide) s.path,
    toText_text 4 Words.mode 1 "    mode = " (by decide) s.mode]
  rfl

theorem toText_modelWritten (m : ValidatedModelDecl) :
    (modelWritten m : List (Hcl.Written D)).map Hcl.Written.toText = modelLines m := by
  simp only [modelWritten, modelLines, List.map_append, List.map_cons, List.map_nil,
    toText_text 4 Words.provider 1 "    provider = " (by decide) m.provider,
    toText_optionalWritten 4 Words.model "    model = " (by decide) m.model,
    toText_optionalWritten 4 Words.endpoint "    endpoint = " (by decide) m.endpoint]
  rfl

theorem toText_flatMap {α : Type} {f : α → List (Hcl.Written D)} {g : α → List Text}
    (h : ∀ a, (f a).map Hcl.Written.toText = g a) (l : List α) :
    (l.flatMap f).map Hcl.Written.toText = l.flatMap g := by
  rw [List.map_flatMap]
  exact congrArg (l.flatMap ·) (funext h)

theorem resourceLine_eq (type name : Text) : resourceLine type name =
    "resource".toList ++ ' ' :: '"' :: (type ++ '"' :: ' ' :: '"' :: (name ++ ['"', ' ', '\x7b'])) := by
  have hbefore : "resource \"".toList = "resource".toList ++ [' ', '"'] := by decide
  have hbetween : "\" \"".toList = ['"', ' ', '"'] := by decide
  have hbehind : "\" \x7b".toList = ['"', ' ', '\x7b'] := by decide
  unfold resourceLine
  simp only [hbefore, hbetween, hbehind, List.append_assoc, List.cons_append, List.nil_append]

/-- The meant lines are written as the snippet is. -/
theorem toText_terraformWritten {human : Option (Constant D)} (hname : Safe r.tfName)
    (hquote : backslashed r.tfName = r.tfName)
    (hhuman : ∀ before, requireHumanLine D before r.requireHumanAboveUsd =
      (human.map fun c => before ++ c.text).toList) :
    (terraformWritten r human hname).map Hcl.Written.toText = terraformLines D r r.declared := by
  have hlimit : (human.map (Hcl.Written.constant 2 Words.requireHuman 1)).toList.map
      Hcl.Written.toText =
        requireHumanLine D "  require_human_above_usd = " r.requireHumanAboveUsd := by
    rw [hhuman]
    have hassign : Hcl.Written.assign 2 Words.requireHuman 1 = "  require_human_above_usd = " := by
      decide
    cases human with
    | none => rfl
    | some c => exact congrArg (fun before => [before ++ c.text]) hassign
  have hdenied : Hcl.Written.assign 2 Words.denyUnattested 1 = "  deny_if_unattested = " := by
    decide
  have hdeny : (if r.deniesUnattested then
      [Hcl.Written.constant 2 Words.denyUnattested 1 (.bool true : Constant D)] else []).map
        Hcl.Written.toText =
          if r.deniesUnattested then ["  deny_if_unattested = true".toList] else [] := by
    split
    · exact congrArg (fun before => [before ++ "true".toList]) hdenied
    · rfl
  have hheader : ∀ type : { t : Text // Hcl.Plain t }, backslashed type.1 = type.1 →
      (resourceWritten r type hname : Hcl.Written D).toText = resourceLine type.1 r.tfName := by
    intro type htype
    have hname' : quote r.tfName = '"' :: (r.tfName ++ ['"']) :=
      congrArg (fun t => '"' :: (t ++ ['"'])) hquote
    have htype' : quote type.1 = '"' :: (type.1 ++ ['"']) :=
      congrArg (fun t => '"' :: (t ++ ['"'])) htype
    have hshape : (resourceWritten r type hname : Hcl.Written D).toText =
        "resource".toList ++ ' ' :: (quote type.1 ++ ' ' :: (quote r.tfName ++ [' ', '\x7b'])) := rfl
    rw [hshape, hname', htype', resourceLine_eq]
    simp only [List.append_assoc, List.cons_append, List.nil_append]
  have hcomment : (headComment : Hcl.Written D).toText =
      "# Generated by the Genaryx onboard wizard (docs/ONBOARD.md). Review and commit.".toList :=
    rfl
  have hclosing : (Hcl.Written.closing 0 : Hcl.Written D).toText = "\x7d".toList := rfl
  have hblank : (Hcl.Written.blank : Hcl.Written D).toText = [] := rfl
  simp only [terraformWritten, passportWritten, policyWritten, terraformLines, List.map_append,
    List.map_cons, List.map_nil, hlimit, hdeny, hcomment, hclosing, hblank,
    toText_text 2 Words.id 4 "  id    = " (by decide) r.agentId,
    toText_text 2 Words.owner 1 "  owner = " (by decide) r.ownerText,
    toText_text 2 Words.id 5 "  id     = " (by decide) r.policyId,
    toText_text 2 Words.target 1 "  target = " (by decide) r.resolvedPattern,
    toText_optionalWritten 2 Words.displayName "  display_name = " (by decide),
    toText_optionalWritten 2 Words.runtime "  runtime = " (by decide),
    toText_optionalWritten 2 Words.attestationMethod "  attestation_method = " (by decide),
    toText_flatMap toText_scopeWritten, toText_flatMap toText_modelWritten,
    hheader ⟨"taipan_agent_passport", by decide⟩ (by decide),
    hheader ⟨"taipan_wardryx_policy", by decide⟩ (by decide),
    List.append_assoc, List.cons_append, List.nil_append]

section Says

variable {r}

theorem says_optionalWritten (indent : Nat) (name : Word) (field : Option Text) :
    Hcl.Says (optionalWritten indent name field : List (Hcl.Written D))
      (field.map (textAttr name.text)).toList :=
  .option field fun t => .text indent name 1 t

theorem says_scopeWritten (s : ValidatedFsScope) :
    Hcl.Says (scopeWritten s : List (Hcl.Written D)) [scopeItem s] :=
  .block 2 Words.filesystem [] 2 (.append (.text 4 Words.path 1 s.path) (.text 4 Words.mode 1 s.mode))

theorem says_modelWritten (m : ValidatedModelDecl) :
    Hcl.Says (modelWritten m : List (Hcl.Written D)) [modelItem m] := by
  have hbody : Hcl.Says (.text 4 Words.provider 1 m.provider ::
      (optionalWritten 4 Words.model m.model ++ optionalWritten 4 Words.endpoint m.endpoint) :
        List (Hcl.Written D))
      (textAttr "provider" m.provider :: ((m.model.map (textAttr "model")).toList ++
        (m.endpoint.map (textAttr "endpoint")).toList)) :=
    .append (.text 4 Words.provider 1 m.provider) (.append
      (says_optionalWritten 4 Words.model m.model)
      (says_optionalWritten 4 Words.endpoint m.endpoint))
  have hblock := Hcl.Says.block 2 Words.models [] 2 hbody
  simpa only [modelWritten, modelItem, Words.models, List.map_nil, List.cons_append,
    List.append_assoc, List.nil_append] using hblock

theorem says_passportWritten : Hcl.Says (passportWritten r : List (Hcl.Written D))
    (passportBody r) := by
  refine .append (.append (.append (.append (.append ?_ ?_) ?_) ?_) ?_) ?_
  · exact .append (.text 2 Words.id 4 r.agentId) (.text 2 Words.owner 1 r.ownerText)
  · exact says_optionalWritten 2 Words.displayName _
  · exact says_optionalWritten 2 Words.runtime _
  · exact says_optionalWritten 2 Words.attestationMethod _
  · exact .flatMap _ says_scopeWritten
  · exact .flatMap _ says_modelWritten

theorem says_policyWritten {human : Option (Constant D)}
    (hvalue : (limit r).map Settings.Value.number = human.map Constant.value) :
    Hcl.Says (policyWritten r human) (policyBody r) := by
  have hlimit : ((limit r).map fun x => (.attr "require_human_above_usd" (.number x) : Hcl.Item F)) =
      human.map fun c => .attr Words.requireHuman.text c.value := by
    have hmap := congrArg (Option.map (Hcl.Item.attr Words.requireHuman.text)) hvalue
    rw [Option.map_map, Option.map_map] at hmap
    exact hmap
  rw [policyBody, hlimit]
  refine .append (.append ?_ (.option human fun c => .constant 2 Words.requireHuman 1 c)) ?_
  · exact .append (.text 2 Words.id 5 r.policyId) (.text 2 Words.target 1 r.resolvedPattern)
  · split
    · exact .constant 2 Words.denyUnattested 1 (.bool true)
    · exact .nil

theorem says_terraformWritten {human : Option (Constant D)} (hname : Safe r.tfName)
    (hvalue : (limit r).map Settings.Value.number = human.map Constant.value) :
    Hcl.Says (terraformWritten r human hname) (terraformMeaning r) := by
  have hmeaning : terraformMeaning r =
      [.block "resource" ["taipan_agent_passport", r.tfName] (passportBody r)] ++
        [.block "resource" ["taipan_wardryx_policy", r.tfName] (policyBody r)] := rfl
  rw [hmeaning]
  refine .cons_blank (w := headComment) rfl (.append ?_ (.cons_blank (w := .blank) rfl ?_))
  · exact .block 0 Words.resource [⟨"taipan_agent_passport", by decide⟩, ⟨r.tfName, hname.plain⟩] 0
      says_passportWritten
  · exact .block 0 Words.resource [⟨"taipan_wardryx_policy", by decide⟩, ⟨r.tfName, hname.plain⟩] 0
      (says_policyWritten hvalue)

end Says

section Distinct

variable {r}

theorem attributeNames_option {α : Type} (o : Option α) (name : Text)
    (value : α → Settings.Value F) :
    (Hcl.attributeNames (o.map fun a => Hcl.Item.attr name (value a)).toList).Sublist [name] := by
  cases o with
  | none => exact List.nil_sublist _
  | some a => exact List.Sublist.refl _

theorem attributeNames_map_block {α : Type} (l : List α) {g : α → Hcl.Item F}
    (h : ∀ a, Hcl.attributeNames [g a] = []) : Hcl.attributeNames (l.map g) = [] := by
  induction l with
  | nil => rfl
  | cons a l ih => rw [List.map_cons, ← List.singleton_append, Hcl.attributeNames_append, h, ih]; rfl

theorem distinct_option {α : Type} (o : Option α) {g : α → Hcl.Item F}
    (h : ∀ a, (g a).Distinct) : ∀ item ∈ (o.map g).toList, item.Distinct := by
  cases o with
  | none => exact fun item hitem => absurd hitem List.not_mem_nil
  | some a => exact fun item hitem => List.mem_singleton.mp hitem ▸ h a

theorem distinct_scopeItem (s : ValidatedFsScope) : (scopeItem s : Hcl.Item F).Distinct :=
  have hnames : [Words.path.text, Words.mode.text].Nodup := by decide
  ⟨hnames, trivial, trivial, trivial⟩

theorem distinct_modelItem (m : ValidatedModelDecl) : (modelItem m : Hcl.Item F).Distinct := by
  have hnames : (Hcl.attributeNames (textAttr (F := F) "provider" m.provider ::
      ((m.model.map (textAttr "model")).toList ++
        (m.endpoint.map (textAttr "endpoint")).toList))).Sublist
        ([Words.provider.text] ++ ([Words.model.text] ++ [Words.endpoint.text])) := by
    rw [← List.singleton_append, Hcl.attributeNames_append, Hcl.attributeNames_append]
    exact (List.Sublist.refl _).append ((attributeNames_option _ _ _).append
      (attributeNames_option _ _ _))
  refine ⟨hnames.nodup (by decide), Hcl.allDistinct_of_forall ?_⟩
  refine List.forall_mem_cons.mpr ⟨trivial, List.forall_mem_append.mpr ⟨?_, ?_⟩⟩
  · exact distinct_option _ fun _ => trivial
  · exact distinct_option _ fun _ => trivial

/-- The passport sets each of its attributes once. -/
theorem nodup_passportBody : (Hcl.attributeNames (passportBody r)).Nodup := by
  have hnames : (Hcl.attributeNames (passportBody r)).Sublist
      ([Words.id.text, Words.owner.text] ++ [Words.displayName.text] ++ [Words.runtime.text] ++
        [Words.attestationMethod.text] ++ [] ++ []) := by
    simp only [passportBody, Hcl.attributeNames_append,
      attributeNames_map_block r.declared.filesystem (g := scopeItem (F := F)) fun _ => rfl,
      attributeNames_map_block r.declared.models (g := modelItem (F := F)) fun _ => rfl]
    refine .append (.append (.append (.append (.append (.refl _) ?_) ?_) ?_) (.refl _)) (.refl _)
    · exact attributeNames_option _ _ _
    · exact attributeNames_option _ _ _
    · exact attributeNames_option _ _ _
  exact hnames.nodup (by decide)

/-- The policy sets each of its attributes once. -/
theorem nodup_policyBody : (Hcl.attributeNames (policyBody r)).Nodup := by
  have hnames : (Hcl.attributeNames (policyBody r)).Sublist
      ([Words.id.text, Words.target.text] ++ [Words.requireHuman.text] ++
        [Words.denyUnattested.text]) := by
    simp only [policyBody, Hcl.attributeNames_append]
    refine .append (.append (.refl _) (attributeNames_option _ _ _)) ?_
    split
    · exact .refl _
    · exact List.nil_sublist _
  exact hnames.nodup (by decide)

theorem allDistinct_terraformMeaning : Hcl.AllDistinct (terraformMeaning r) := by
  refine ⟨⟨nodup_passportBody, Hcl.allDistinct_of_forall ?_⟩,
    ⟨nodup_policyBody, Hcl.allDistinct_of_forall ?_⟩, trivial⟩
  · simp only [passportBody, List.forall_mem_append]
    refine ⟨⟨⟨⟨⟨?_, ?_⟩, ?_⟩, ?_⟩, ?_⟩, ?_⟩
    · exact List.forall_mem_cons.mpr ⟨trivial, List.forall_mem_singleton.mpr trivial⟩
    · exact distinct_option _ fun _ => trivial
    · exact distinct_option _ fun _ => trivial
    · exact distinct_option _ fun _ => trivial
    · exact List.forall_mem_map.mpr fun s _ => distinct_scopeItem s
    · exact List.forall_mem_map.mpr fun m _ => distinct_modelItem m
  · simp only [policyBody, List.forall_mem_append]
    refine ⟨⟨?_, ?_⟩, ?_⟩
    · exact List.forall_mem_cons.mpr ⟨trivial, List.forall_mem_singleton.mpr trivial⟩
    · exact distinct_option _ fun _ => trivial
    · split
      · exact List.forall_mem_singleton.mpr trivial
      · exact fun item hitem => absurd hitem List.not_mem_nil

end Distinct

section Entered

variable {n : Hcl.Normalizer}

theorem exact_optionalWritten_iff (indent : Nat) (name : Word) (field : Option Text) :
    (∀ w ∈ (optionalWritten indent name field : List (Hcl.Written D)), ∀ t ∈ w.entered, n.Exact t) ↔
      ∀ t ∈ field.toList, n.Exact t := by
  cases field <;> simp [optionalWritten, Hcl.Written.entered]

theorem exact_scopeWritten_iff {s : ValidatedFsScope} (hmode : n.Exact s.mode) :
    (∀ w ∈ (scopeWritten s : List (Hcl.Written D)), ∀ t ∈ w.entered, n.Exact t) ↔
      n.Exact s.path := by
  simp [scopeWritten, Hcl.Written.entered, hmode]

theorem exact_modelWritten_iff (m : ValidatedModelDecl) :
    (∀ w ∈ (modelWritten m : List (Hcl.Written D)), ∀ t ∈ w.entered, n.Exact t) ↔
      ∀ t ∈ m.provider :: (m.model.toList ++ m.endpoint.toList), n.Exact t := by
  simp only [modelWritten, List.forall_mem_append, exact_optionalWritten_iff, List.forall_mem_cons]
  simp [Hcl.Written.entered, and_assoc]

/-- The texts of the snippet that are not safe anyway are those that are entered freely. -/
theorem exact_terraformWritten_iff {r : OnboardGenerateRequest F} (h : Passed D r)
    (human : Option (Constant D)) (hname : Safe r.tfName) :
    (∀ w ∈ terraformWritten r human hname, ∀ t ∈ w.entered, n.Exact t) ↔
      ∀ t ∈ enteredTexts r, n.Exact t := by
  have hid := (safe_agentId h).exact n
  have hpolicy := (safe_policyId h).exact n
  have hpattern := (safe_resolvedPattern h).exact n
  have hattestation : ∀ t ∈ r.attestation.toList, n.Exact t := fun t ht =>
    (safe_attestation h (Option.mem_toList.mp ht)).exact n
  have hscopes : (∀ s ∈ r.declared.filesystem, ∀ w ∈ (scopeWritten s : List (Hcl.Written D)),
      ∀ t ∈ w.entered, n.Exact t) ↔ ∀ s ∈ r.declared.filesystem, n.Exact s.path :=
    forall₂_congr fun s hs => exact_scopeWritten_iff ((safe_mode h hs).exact n)
  have hlimit : ∀ w ∈ (human.map (Hcl.Written.constant 2 Words.requireHuman 1)).toList,
      ∀ t ∈ w.entered, n.Exact t := by
    cases human <;> simp [Hcl.Written.entered]
  have hdeny : ∀ w ∈ (if r.deniesUnattested then
      [(.constant 2 Words.denyUnattested 1 (.bool true) : Hcl.Written D)] else []),
      ∀ t ∈ w.entered, n.Exact t := by
    split <;> simp [Hcl.Written.entered]
  have htext : ∀ (indent : Nat) (name : Word) (pad : Nat) (u : Text),
      (∀ t ∈ (.text indent name pad u : Hcl.Written D).entered, n.Exact t) ↔ n.Exact u :=
    fun _ _ _ _ => by simp [Hcl.Written.entered]
  have hsilent : ∀ w : Hcl.Written D, w.entered = none → ∀ t ∈ w.entered, n.Exact t :=
    fun w hw t ht => absurd (hw ▸ ht) (Option.not_mem_none t)
  have hresource : ∀ type, ∀ t ∈ (resourceWritten r type hname : Hcl.Written D).entered, n.Exact t :=
    fun type => hsilent _ rfl
  simp only [terraformWritten, passportWritten, policyWritten, enteredTexts,
    List.forall_mem_append, List.forall_mem_cons, List.not_mem_nil, false_imp_iff, implies_true, List.forall_mem_map,
    List.forall_mem_flatMap, exact_optionalWritten_iff, exact_modelWritten_iff, hscopes, htext,
    iff_true_intro (hsilent headComment rfl), iff_true_intro (hsilent (.closing 0) rfl),
    iff_true_intro (hsilent .blank rfl), iff_true_intro (hresource _), iff_true_intro hlimit,
    iff_true_intro hdeny, iff_true_intro hattestation, iff_true_intro hid, iff_true_intro hpolicy,
    iff_true_intro hpattern, true_and, and_true, and_assoc]

/-- The snippet is read as the two resources exactly where the entered texts are exact. -/
theorem read_terraformSnippet_iff {r : OnboardGenerateRequest F} (h : Passed D r) :
    Hcl.read n D (terraformSnippet D r r.declared) = some (terraformMeaning r) ↔
      ∀ t ∈ enteredTexts r, n.Exact t := by
  obtain ⟨human, hhuman, hvalue⟩ := exists_limitConstant h
  have hname := safe_tfName h
  have hsnippet : terraformSnippet D r r.declared = Hcl.fileText (terraformWritten r human hname) := by
    rw [terraformSnippet, Hcl.fileText,
      toText_terraformWritten r hname (backslashed_tfName h) hhuman]
  have hnames : (Hcl.attributeNames (terraformMeaning r)).Nodup := List.nodup_nil
  rw [hsnippet, (says_terraformWritten hname hvalue).read_iff hnames allDistinct_terraformMeaning]
  exact exact_terraformWritten_iff h human hname

end Entered

end Terraform

end Genaryx.Onboard
