import Genaryx.Onboard.Generate

/-!
# Accepted requests

What a request has passed when its artifacts are generated, and which artifacts these are.
-/

namespace Genaryx.Onboard

open Base Json

variable {F : Type}

section Declared

/-- A scope as it is declared. -/
def FsScopeDto.declared (s : FsScopeDto) : ValidatedFsScope := ⟨Text.trim s.path, s.mode⟩

/-- A model as it is declared. -/
def ModelDeclDto.declared (m : ModelDeclDto) : ValidatedModelDecl :=
  ⟨Text.trim m.provider, given m.model, given m.endpoint⟩

/-- The declarations of a request. -/
def OnboardGenerateRequest.declared (r : OnboardGenerateRequest F) : Checked :=
  ⟨r.filesystem.map FsScopeDto.declared, r.models.map ModelDeclDto.declared⟩

theorem validateFsScope_eq_ok {idx : Nat} {seen : List Text} {s : FsScopeDto}
    {v : ValidatedFsScope} (h : validateFsScope idx seen s = .ok v) :
    v = s.declared ∧ v.mode ∈ fsModes ∧ printable v.path = true := by
  rw [validateFsScope] at h
  split at h
  · cases h
  · next hpath =>
      split at h
      · cases h
      · next hmode =>
          split at h
          · cases h
          · cases h
            exact ⟨rfl, not_not.mp hmode, by simpa [validFsScopePath] using hpath⟩

/-- Scopes that are checked are kept as they are declared, in their order. -/
theorem validateFsScopesFrom_eq_ok {before : List ValidatedFsScope} {scopes : List FsScopeDto}
    {out : List ValidatedFsScope} (h : validateFsScopesFrom before scopes = .ok out) :
    out = before ++ scopes.map FsScopeDto.declared ∧
      ∀ s ∈ scopes, s.declared.mode ∈ fsModes ∧ printable s.declared.path = true := by
  induction scopes generalizing before with
  | nil =>
      cases h
      exact ⟨(List.append_nil _).symm, fun s hs => absurd hs List.not_mem_nil⟩
  | cons scope rest ih =>
      obtain ⟨valid, hvalid, hrest⟩ := bind_eq_ok h
      obtain ⟨rfl, hmode, hpath⟩ := validateFsScope_eq_ok hvalid
      obtain ⟨rfl, hall⟩ := ih hrest
      exact ⟨by simp, List.forall_mem_cons.mpr ⟨⟨hmode, hpath⟩, hall⟩⟩

theorem optionalModelField_eq_ok {idx : Nat} {name : Text} {field out : Option Text}
    (h : optionalModelField idx name field = .ok out) : out = given field := by
  rw [optionalModelField] at h
  rw [given]
  split at h
  · next hnone =>
      cases h
      rw [hnone]
      rfl
  · next hblank =>
      cases h
      rw [hblank]
      rfl
  · next m hne hm =>
      split at h
      · cases h
        rw [hm, Option.filter_some, if_pos]
        simpa using hne
      · cases h

theorem validateModelDecl_eq_ok {idx : Nat} {seen : List ValidatedModelDecl} {m : ModelDeclDto}
    {v : ValidatedModelDecl} (h : validateModelDecl idx seen m = .ok v) :
    v = m.declared ∧ v.provider ≠ [] := by
  rw [validateModelDecl] at h
  split at h
  · cases h
  · next hprovider =>
      obtain ⟨model, hmodel, h⟩ := bind_eq_ok h
      obtain ⟨endpoint, hendpoint, h⟩ := bind_eq_ok h
      split at h
      · cases h
      · cases h
        rw [optionalModelField_eq_ok hmodel, optionalModelField_eq_ok hendpoint]
        refine ⟨rfl, fun hnil => hprovider ?_⟩
        simp only at hnil
        rw [hnil]
        rfl

/-- Models that are checked are kept as they are declared, in their order. -/
theorem validateModelDeclsFrom_eq_ok {before : List ValidatedModelDecl} {decls : List ModelDeclDto}
    {out : List ValidatedModelDecl} (h : validateModelDeclsFrom before decls = .ok out) :
    out = before ++ decls.map ModelDeclDto.declared ∧
      ∀ m ∈ decls, m.declared.provider ≠ [] := by
  induction decls generalizing before with
  | nil =>
      cases h
      exact ⟨(List.append_nil _).symm, fun m hm => absurd hm List.not_mem_nil⟩
  | cons decl rest ih =>
      obtain ⟨valid, hvalid, hrest⟩ := bind_eq_ok h
      obtain ⟨rfl, hprovider⟩ := validateModelDecl_eq_ok hvalid
      obtain ⟨rfl, hall⟩ := ih hrest
      exact ⟨by simp, List.forall_mem_cons.mpr ⟨hprovider, hall⟩⟩

end Declared

/-- What the checks of a request establish. -/
structure Passed (D : Double F) (r : OnboardGenerateRequest F) : Prop where
  domain : validDomain r.domain = true
  agentPath : validPath r.agentPath = true
  owner : r.ownerText ≠ []
  attestation : ∀ m, r.attestation = some m → m ∈ attestationMethods
  requireHuman : ∀ v, r.requireHumanAboveUsd = some v → v.isPositive D = true
  scopes : ∀ s ∈ r.declared.filesystem, s.mode ∈ fsModes ∧ printable s.path = true
  providers : ∀ m ∈ r.declared.models, m.provider ≠ []
  agentId : validAgentId r.agentId = true
  keyId : r.resolvedKeyId ≠ [] ∧ ∀ ch ∈ r.resolvedKeyId, segmentChar ch = true
  pattern : validPattern r.resolvedPattern = true
  matched : patternMatches r.resolvedPattern r.agentId = true

theorem ensure_eq_ok {condition : Bool} {message : Text} {u : Unit}
    (h : ensure condition message = .ok u) : condition = true := by
  rw [ensure] at h
  split at h
  · assumption
  · cases h

theorem isPositive_of_ensurePositive {D : Double F} {v : Option (Amount F)} {what : Text}
    {u : Unit} (h : ensurePositive D v what = .ok u) : ∀ w, v = some w → w.isPositive D = true := by
  rintro w rfl
  rw [ensurePositive, finitePositive] at h
  split at h
  · assumption
  · cases h

theorem passed_of_checkRequest {D : Double F} {r : OnboardGenerateRequest F} {c : Checked}
    (h : checkRequest D r = .ok c) : c = r.declared ∧ Passed D r := by
  obtain ⟨_, hdomain, h⟩ := bind_eq_ok h
  obtain ⟨_, hpath, h⟩ := bind_eq_ok h
  obtain ⟨_, hunit, h⟩ := bind_eq_ok h
  obtain ⟨_, howner, h⟩ := bind_eq_ok h
  obtain ⟨_, hattestation, h⟩ := bind_eq_ok h
  obtain ⟨_, hhuman, h⟩ := bind_eq_ok h
  obtain ⟨_, hbudget, h⟩ := bind_eq_ok h
  obtain ⟨filesystem, hfilesystem, h⟩ := bind_eq_ok h
  obtain ⟨models, hmodels, h⟩ := bind_eq_ok h
  obtain ⟨_, hid, h⟩ := bind_eq_ok h
  obtain ⟨_, hkey, h⟩ := bind_eq_ok h
  obtain ⟨_, hpattern, h⟩ := bind_eq_ok h
  obtain ⟨_, hmatched, h⟩ := bind_eq_ok h
  cases h
  obtain ⟨rfl, hscopes⟩ := validateFsScopesFrom_eq_ok hfilesystem
  obtain ⟨rfl, hproviders⟩ := validateModelDeclsFrom_eq_ok hmodels
  have hkey := Bool.and_eq_true_iff.mp (ensure_eq_ok hkey)
  exact ⟨rfl, {
    domain := ensure_eq_ok hdomain
    agentPath := ensure_eq_ok hpath
    owner := by simpa using ensure_eq_ok howner
    attestation := fun m hm => by simpa [hm] using ensure_eq_ok hattestation
    requireHuman := isPositive_of_ensurePositive hhuman
    scopes := List.forall_mem_map.mpr hscopes
    providers := List.forall_mem_map.mpr hproviders
    agentId := ensure_eq_ok hid
    keyId := ⟨by simpa using hkey.1, List.all_eq_true.mp hkey.2⟩
    pattern := ensure_eq_ok hpattern
    matched := ensure_eq_ok hmatched }⟩

/-- The artifacts of a request that has passed. -/
def bundleOf (S : Surroundings F) (r : OnboardGenerateRequest F) (c : Checked) (secret : Text)
    (unitIsNew : Bool) : OnboardBundleDto where
  agentId := r.agentId
  passportJson := passportJson S r c
  passportPath := passportPath S r
  clientKeySecret := secret
  clientKeysLine := secret ++ ':' :: r.resolvedKeyId
  keyId := r.resolvedKeyId
  identityMapFragment := identityMapFragment S r unitIsNew
  unitIsNew := unitIsNew
  wardryxPolicyStub := wardryxPolicyStub S.double r c
  terraformSnippet := terraformSnippet S.double r c

/-- What is generated is generated of a request that has passed. -/
theorem onboardGenerate_eq_ok {S : Surroundings F} {r : OnboardGenerateRequest F}
    {b : OnboardBundleDto} (h : onboardGenerate S r = .ok b) :
    Passed S.double r ∧ ∃ secret unitIsNew, b = bundleOf S r r.declared secret unitIsNew := by
  obtain ⟨c, hc, h⟩ := bind_eq_ok h
  obtain ⟨rfl, hpassed⟩ := passed_of_checkRequest hc
  obtain ⟨known, -, h⟩ := bind_eq_ok h
  obtain ⟨secret, -, h⟩ := bind_eq_ok h
  cases h
  exact ⟨hpassed, secret, _, rfl⟩

/-- A request with the artifacts that were generated of it. -/
structure Generated (F : Type) where
  around : Surroundings F
  request : OnboardGenerateRequest F
  bundle : OnboardBundleDto
  generated : onboardGenerate around request = .ok bundle

namespace Generated

variable (g : Generated F)

theorem passed : Passed g.around.double g.request := (onboardGenerate_eq_ok g.generated).1

theorem keyId_eq : g.bundle.keyId = g.request.resolvedKeyId := by
  obtain ⟨-, secret, unitIsNew, hbundle⟩ := onboardGenerate_eq_ok g.generated
  rw [hbundle]
  rfl

theorem agentId_eq : g.bundle.agentId = g.request.agentId := by
  obtain ⟨-, secret, unitIsNew, hbundle⟩ := onboardGenerate_eq_ok g.generated
  rw [hbundle]
  rfl

theorem passportPath_eq : g.bundle.passportPath = passportPath g.around g.request := by
  obtain ⟨-, secret, unitIsNew, hbundle⟩ := onboardGenerate_eq_ok g.generated
  rw [hbundle]
  rfl

theorem passportJson_eq :
    g.bundle.passportJson = passportJson g.around g.request g.request.declared := by
  obtain ⟨-, secret, unitIsNew, hbundle⟩ := onboardGenerate_eq_ok g.generated
  rw [hbundle]
  rfl

theorem wardryxPolicyStub_eq : g.bundle.wardryxPolicyStub =
    wardryxPolicyStub g.around.double g.request g.request.declared := by
  obtain ⟨-, secret, unitIsNew, hbundle⟩ := onboardGenerate_eq_ok g.generated
  rw [hbundle]
  rfl

theorem terraformSnippet_eq : g.bundle.terraformSnippet =
    terraformSnippet g.around.double g.request g.request.declared := by
  obtain ⟨-, secret, unitIsNew, hbundle⟩ := onboardGenerate_eq_ok g.generated
  rw [hbundle]
  rfl

/-- The artifacts of a request that is alone in the world and has passed. -/
def ofCheck (S : Surroundings F) (r : OnboardGenerateRequest F) (c : Checked) (secret : Text)
    (hcheck : checkRequest S.double r = .ok c) (hmap : knownUnits S r.mapPath = .ok [])
    (hsecret : mintSecret S = .ok secret) : Generated F where
  around := S
  request := r
  bundle := bundleOf S r c secret true
  generated := by
    rw [onboardGenerate, hcheck, hmap, hsecret]
    rfl

end Generated

end Genaryx.Onboard
