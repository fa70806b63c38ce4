import Genaryx.Onboard.Accepted

/-!
# Which agents share their artifacts

The default key id, the name of the passport file, the policy id and the name of the Terraform
resources are made of the agent's path alone, and each puts one sign for several. Two agents share
them exactly where their paths differ in such signs at most, whatever their trust domains.
-/

namespace Genaryx.Onboard

open Base Json

/-- The texts have one length, and differ only where both have one of the given signs. -/
def SameUpTo (sign : Char → Bool) (a b : Text) : Prop :=
  List.Forall₂ (fun c d => c = d ∨ sign c = true ∧ sign d = true) a b

/-- The signs that a key id puts a hyphen for. -/
def keySign (c : Char) : Bool := c = '/' || c = '-'

/-- The signs that a Terraform name puts an underscore for. -/
def nameSign (c : Char) : Bool := c = '/' || c = '-' || c = '.' || c = '_'

theorem replaceChars_eq_map (p : Char → Bool) (d : Char) (t : Text) :
    replaceChars p [d] t = t.map fun c => if p c then d else c := by
  induction t with
  | nil => rfl
  | cons c t ih =>
      rw [replaceChars, List.flatMap_cons, List.map_cons, ← ih]
      split <;> rfl

/-- Texts are mapped alike where each two characters are. -/
theorem map_eq_map_iff {f : Char → Char} {sign : Char → Bool}
    (h : ∀ c d, f c = f d ↔ c = d ∨ sign c = true ∧ sign d = true) (a b : Text) :
    a.map f = b.map f ↔ SameUpTo sign a b := by
  rw [← List.forall₂_eq_eq_eq, List.forall₂_map_left_iff, List.forall₂_map_right_iff]
  simp only [h]
  rfl

/-- One sign put for several, itself among them, takes apart all but these. -/
theorem map_sign_eq_iff {sign : Char → Bool} {d : Char} (hd : sign d = true) (a b : Text) :
    (a.map fun c => if sign c then d else c) = (b.map fun c => if sign c then d else c) ↔
      SameUpTo sign a b := by
  refine map_eq_map_iff (fun x y => ?_) a b
  by_cases hx : sign x = true
  · by_cases hy : sign y = true
    · simp only [hx, hy, if_true, and_self, or_true]
    · have hne : x ≠ y := fun h => hy (h ▸ hx)
      have hdy : d ≠ y := fun h => hy (h ▸ hd)
      simp only [hx, hy, if_true, if_false, hne, hdy, and_false, or_self, Bool.false_eq_true]
  · by_cases hy : sign y = true
    · have hne : x ≠ y := fun h => hx (h ▸ hy)
      have hxd : x ≠ d := fun h => hx (h ▸ hd)
      simp only [hx, hy, if_true, if_false, hne, hxd, false_and, or_self, Bool.false_eq_true]
    · simp only [hx, hy, if_false, false_and, or_false, Bool.false_eq_true]

variable {F : Type}

/-- The name that a passport is staged under is one component of a path. -/
theorem isName_passportFile (r : OnboardGenerateRequest F) : Path.IsName (passportFile r) := by
  have hlength : 5 ≤ (passportFile r).length := by
    rw [passportFile, List.length_append]
    exact Nat.le_add_left 5 _
  refine ⟨?_, ?_, ?_, ?_⟩
  · intro h
    rw [h] at hlength
    exact absurd hlength (by decide)
  · intro h
    rw [h] at hlength
    exact absurd hlength (by decide)
  · intro h
    rw [h] at hlength
    exact absurd hlength (by decide)
  · rw [passportFile, OnboardGenerateRequest.flatPath, replaceChars_eq_map, List.mem_append, not_or]
    refine ⟨fun h => ?_, by decide⟩
    obtain ⟨c, -, hc⟩ := List.mem_map.mp h
    split at hc
    · exact absurd hc (by decide)
    · next hne => exact hne (decide_eq_true hc)

section Names

variable (r : OnboardGenerateRequest F)

theorem flatPath_eq_map :
    r.flatPath = r.agentPath.map fun c => if keySign c then '-' else c := by
  rw [OnboardGenerateRequest.flatPath, replaceChars_eq_map]
  refine List.map_congr_left fun c _ => ?_
  by_cases hslash : c = '/'
  · rw [hslash]
    rfl
  · by_cases hhyphen : c = '-'
    · rw [hhyphen]
      rfl
    · simp [keySign, hslash, hhyphen]

theorem resolvedKeyId_of_default (h : given r.keyId = none) : r.resolvedKeyId = r.flatPath := by
  rw [OnboardGenerateRequest.resolvedKeyId, h]
  rfl

theorem policyId_eq_iff (s : OnboardGenerateRequest F) :
    r.policyId = s.policyId ↔ r.resolvedKeyId = s.resolvedKeyId := by
  unfold OnboardGenerateRequest.policyId
  exact List.append_right_inj _

theorem tfName_eq_map (h : given r.keyId = none) :
    r.tfName = r.agentPath.map fun c => if nameSign c then '_' else c := by
  rw [OnboardGenerateRequest.tfName, resolvedKeyId_of_default r h, flatPath_eq_map,
    replaceChars_eq_map, List.map_map]
  refine List.map_congr_left fun c _ => ?_
  by_cases hslash : c = '/'
  · rw [hslash]
    rfl
  · by_cases hhyphen : c = '-'
    · rw [hhyphen]
      rfl
    · by_cases hunderscore : c = '_'
      · rw [hunderscore]
        rfl
      · simp [keySign, nameSign, hslash, hhyphen, hunderscore]

end Names

/-- Two accepted requests that leave the key id to the console and stage their passports in one
directory. -/
structure TwoAgents (F : Type) where
  first : Generated F
  second : Generated F
  first_default : given first.request.keyId = none
  second_default : given second.request.keyId = none
  same_dir : resolvePassportsDir first.around first.request.passportsDir =
    resolvePassportsDir second.around second.request.passportsDir

section Texts

/-- What the first line of a text that begins so says up to its end. -/
def saidBetween (before after text : Text) : Option Text :=
  (((Framing.delimited '\n').split text).1.findSome? (Text.stripPrefix before)).bind
    (Text.stripSuffix after)

/-- The policy that a stub is of. -/
def policyNamed (stub : Text) : Option Text := saidBetween "name: " [] stub

/-- The name of the passport's resource in a snippet. -/
def resourceNamed (snippet : Text) : Option Text :=
  saidBetween "resource \"taipan_agent_passport\" \"" "\" \x7b" snippet

/-- Lines that begin otherwise are passed over. -/
theorem saidBetween_terminated {before after said : Text} {skipped rest : List Text}
    (hskipped : ∀ line ∈ skipped, '\n' ∉ line ∧ Text.stripPrefix before line = none)
    (hline : '\n' ∉ before ++ (said ++ after)) :
    saidBetween before after
      (Framing.terminated '\n' (skipped ++ (before ++ (said ++ after)) :: rest)) = some said := by
  unfold saidBetween
  induction skipped with
  | nil =>
      have hcons : Framing.terminated '\n' ([] ++ (before ++ (said ++ after)) :: rest) =
          (before ++ (said ++ after)) ++ '\n' :: Framing.terminated '\n' rest := by
        simp [Framing.terminated]
      rw [hcons, Framing.delimited_split_append_cons hline, List.findSome?_cons,
        Text.stripPrefix_append]
      exact Text.stripSuffix_append said after
  | cons line skipped ih =>
      obtain ⟨⟨hnewline, hother⟩, hrest⟩ := List.forall_mem_cons.mp hskipped
      have hcons : Framing.terminated '\n'
          (line :: skipped ++ (before ++ (said ++ after)) :: rest) =
            line ++ '\n' :: Framing.terminated '\n'
              (skipped ++ (before ++ (said ++ after)) :: rest) := by
        simp [Framing.terminated]
      rw [hcons, Framing.delimited_split_append_cons hnewline, List.findSome?_cons, hother]
      exact ih hrest

variable (g : Generated F)

theorem newline_notMem_keyId : '\n' ∉ g.request.resolvedKeyId := fun h =>
  absurd (g.passed.keyId.2 '\n' h) (by decide)

theorem policyNamed_stub : policyNamed g.bundle.wardryxPolicyStub = some g.request.policyId := by
  have hline : '\n' ∉ "name: ".toList ++ (g.request.policyId ++ []) := by
    intro h
    rcases List.mem_append.mp h with h | h
    · exact absurd h (by decide)
    rcases List.mem_append.mp h with h | h
    · rcases List.mem_append.mp h with h | h
      · exact absurd h (by decide)
      · exact newline_notMem_keyId g h
    · exact absurd h List.not_mem_nil
  rw [policyNamed, g.wardryxPolicyStub_eq, wardryxPolicyStub, wardryxPolicyLines]
  have hhead : ∀ line ∈ policyHead, '\n' ∉ line ∧ Text.stripPrefix "name: " line = none := by
    decide +kernel
  have hsaid : ∀ rest, saidBetween "name: " [] (Framing.terminated '\n'
      (policyHead ++ ("name: ".toList ++ g.request.policyId) :: rest)) =
        some g.request.policyId := by
    intro rest
    have hnamed : saidBetween "name: " [] (Framing.terminated '\n'
        (policyHead ++ ("name: ".toList ++ (g.request.policyId ++ [])) :: rest)) =
          some g.request.policyId := saidBetween_terminated hhead hline
    rwa [List.append_nil] at hnamed
  simp only [List.append_assoc, List.cons_append]
  exact hsaid _

theorem resourceNamed_snippet :
    resourceNamed g.bundle.terraformSnippet = some g.request.tfName := by
  have hname : '\n' ∉ g.request.tfName := by
    rw [OnboardGenerateRequest.tfName, replaceChars_eq_map]
    intro h
    obtain ⟨c, hc, heq⟩ := List.mem_map.mp h
    split at heq
    · exact absurd heq (by decide)
    · exact newline_notMem_keyId g (heq ▸ hc)
  have hline : '\n' ∉ "resource \"taipan_agent_passport\" \"".toList ++
      (g.request.tfName ++ "\" \x7b".toList) := by
    rw [List.mem_append, List.mem_append]
    rintro (h | h | h)
    · exact absurd h (by decide)
    · exact hname h
    · exact absurd h (by decide)
  have hhead : ∀ line ∈ (["# Generated by the Genaryx onboard wizard (docs/ONBOARD.md). " ++
      "Review and commit."] : List String).map String.toList, '\n' ∉ line ∧
        Text.stripPrefix "resource \"taipan_agent_passport\" \"" line = none := by
    decide +kernel
  rw [resourceNamed, g.terraformSnippet_eq, terraformSnippet, terraformLines]
  simp only [List.append_assoc, List.cons_append]
  exact saidBetween_terminated hhead hline

end Texts

namespace TwoAgents

variable (t : TwoAgents F)

theorem flatPath_eq_iff (r s : OnboardGenerateRequest F) :
    r.flatPath = s.flatPath ↔ SameUpTo keySign r.agentPath s.agentPath := by
  rw [flatPath_eq_map, flatPath_eq_map]
  exact map_sign_eq_iff rfl _ _

/-- Two agents share each artifact exactly where their paths differ in the signs at most that
the artifact does not tell apart. -/
theorem shared_iff :
    (t.first.bundle.keyId = t.second.bundle.keyId ↔
        SameUpTo keySign t.first.request.agentPath t.second.request.agentPath) ∧
      (t.first.bundle.passportPath = t.second.bundle.passportPath ↔
        SameUpTo keySign t.first.request.agentPath t.second.request.agentPath) ∧
      (t.first.request.policyId = t.second.request.policyId ↔
        SameUpTo keySign t.first.request.agentPath t.second.request.agentPath) ∧
      (t.first.request.tfName = t.second.request.tfName ↔
        SameUpTo nameSign t.first.request.agentPath t.second.request.agentPath) ∧
      (policyNamed t.first.bundle.wardryxPolicyStub =
          policyNamed t.second.bundle.wardryxPolicyStub ↔
        SameUpTo keySign t.first.request.agentPath t.second.request.agentPath) ∧
      (resourceNamed t.first.bundle.terraformSnippet =
          resourceNamed t.second.bundle.terraformSnippet ↔
        SameUpTo nameSign t.first.request.agentPath t.second.request.agentPath) := by
  have hfirst := resolvedKeyId_of_default t.first.request t.first_default
  have hsecond := resolvedKeyId_of_default t.second.request t.second_default
  have hpolicy : t.first.request.policyId = t.second.request.policyId ↔
      SameUpTo keySign t.first.request.agentPath t.second.request.agentPath := by
    rw [policyId_eq_iff, hfirst, hsecond]
    exact flatPath_eq_iff _ _
  have hname : t.first.request.tfName = t.second.request.tfName ↔
      SameUpTo nameSign t.first.request.agentPath t.second.request.agentPath := by
    rw [tfName_eq_map _ t.first_default, tfName_eq_map _ t.second_default]
    exact map_sign_eq_iff rfl _ _
  refine ⟨?_, ?_, hpolicy, hname, ?_, ?_⟩
  · rw [t.first.keyId_eq, t.second.keyId_eq, hfirst, hsecond, flatPath_eq_iff]
  · rw [t.first.passportPath_eq, t.second.passportPath_eq, ← flatPath_eq_iff, passportPath,
      passportPath, t.same_dir]
    constructor
    · intro h
      have hname := Path.join_injective _ (isName_passportFile _) (isName_passportFile _) h
      exact List.append_cancel_right hname
    · intro h
      rw [passportFile, passportFile, h]
  · rw [policyNamed_stub, policyNamed_stub, Option.some_inj, hpolicy]
  · rw [resourceNamed_snippet, resourceNamed_snippet, Option.some_inj, hname]

end TwoAgents

section Sample

/-- A machine with a home directory and nothing else that the wizard reads. -/
def sampleSurroundings : Surroundings Decimal where
  double := Decimal.double
  floatText _ := "1.0"
  identityMapVar := none
  taipanHome := none
  home := some "/home/olena"
  readFile _ := .error "No such file or directory (os error 2)"
  parseMap _ := .error "expected value at line 1 column 1"
  nowRfc3339 := "2026-08-28T09:00:00Z"
  today := "2026-08-28"
  entropy := .ok (List.replicate 16 7)

/-- A request with nothing filled in but what it must have. -/
def sampleRequest (trustDomain path : Text) : OnboardGenerateRequest Decimal where
  trustDomain := trustDomain
  path := path
  unit := "treasury"
  owner := "olena"
  displayName := none
  runtime := none
  attestationMethod := none
  keyId := none
  bindPattern := none
  requireHumanAboveUsd := none
  unitBudgetUsdMonth := none
  filesystem := []
  models := []
  mapPath := none
  passportsDir := none

def sampleSecret : Text := "gx_07070707070707070707070707070707"

theorem minted_sample : mintSecret sampleSurroundings = .ok sampleSecret := by decide

def bankAgent : Generated Decimal :=
  .ofCheck sampleSurroundings (sampleRequest "bank.example" "recon") ⟨[], []⟩ sampleSecret
    (by decide) (by decide) minted_sample

def shopAgent : Generated Decimal :=
  .ofCheck sampleSurroundings (sampleRequest "shop.example" "recon") ⟨[], []⟩ sampleSecret
    (by decide) (by decide) minted_sample

/-- Agents of one path in two trust domains get one key id, one passport file, one policy id and
one name. -/
theorem domains_share :
    ¬ ∀ t : TwoAgents Decimal, t.first.bundle.agentId ≠ t.second.bundle.agentId →
      t.first.bundle.keyId ≠ t.second.bundle.keyId ∧
        t.first.bundle.passportPath ≠ t.second.bundle.passportPath ∧
          t.first.request.policyId ≠ t.second.request.policyId ∧
            t.first.request.tfName ≠ t.second.request.tfName := by
  intro h
  have hsame := h ⟨bankAgent, shopAgent, by decide, by decide, by decide⟩
    (by decide)
  exact hsame.1 (by decide)

end Sample

end Genaryx.Onboard
