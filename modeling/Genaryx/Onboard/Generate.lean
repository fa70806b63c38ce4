import Genaryx.Base.Digest
import Genaryx.Base.Items
import Genaryx.Base.Lines
import Genaryx.Json.Pretty
import Genaryx.Onboard.Grammar

/-!
# The artifacts of a new agent

One request gives a passport, a client key, a fragment of the identity map, a policy stub and a
Terraform snippet, all from the same checked inputs.

## Implementation notes

What a command finds around it is a parameter: the environment, the files, the clock, the random
bytes, the doubles and how JSON writes them. Paths are texts. The stub and the snippet are given
as their lines.
-/

namespace Genaryx.Onboard

open Base Json

variable {F : Type}

/-- A business unit of the identity map. -/
structure MapUnit (F : Type) where
  id : Text
  name : Option Text
  budgetUsdMonth : Option F

/-- A key of the identity map, with the patterns of the agents that are bound to it. -/
structure MapKey where
  agents : List Text

structure MapFile (F : Type) where
  units : List (MapUnit F)
  keys : List MapKey

/-- What a command finds around it. -/
structure Surroundings (F : Type) where
  double : Double F
  floatText : F → Text
  identityMapVar : Option Text
  taipanHome : Option Text
  home : Option Text
  readFile : Text → Except Text Bytes
  parseMap : Bytes → Except Text (MapFile F)
  nowRfc3339 : Text
  today : Text
  entropy : Except Text Bytes

/-- A field that is trimmed, and absent where it is blank. -/
def given (field : Option Text) : Option Text := (field.map Text.trim).filter (!·.isEmpty)

/-- The identity map that is consulted, if any is. -/
def resolveMapPath (S : Surroundings F) (arg : Option Text) : Option Text :=
  (given arg).or (given S.identityMapVar)

/-- The directory that passports are staged in. -/
def resolvePassportsDir (S : Surroundings F) (arg : Option Text) : Text :=
  match given arg with
  | some dir => dir
  | none =>
      match S.taipanHome with
      | some home => Path.join home "passports"
      | none =>
          match S.home with
          | some home => Path.join (Path.join home ".taipan") "passports"
          | none => Path.join ".taipan" "passports"

def loadMap (S : Surroundings F) (path : Text) : Except Text (MapFile F) :=
  match S.readFile path with
  | .error e => .error ("could not read ".toList ++ path ++ ": ".toList ++ e)
  | .ok bytes =>
      match S.parseMap bytes with
      | .error e => .error ("could not parse ".toList ++ path ++ ": ".toList ++ e)
      | .ok map => .ok map

structure OnboardGenerateRequest (F : Type) where
  trustDomain : Text
  path : Text
  unit : Text
  owner : Text
  displayName : Option Text
  runtime : Option Text
  attestationMethod : Option Text
  keyId : Option Text
  bindPattern : Option Text
  requireHumanAboveUsd : Option (Amount F)
  unitBudgetUsdMonth : Option (Amount F)
  filesystem : List FsScopeDto
  models : List ModelDeclDto
  mapPath : Option Text
  passportsDir : Option Text

/-- `str::trim_matches` of a slash. -/
def trimSlashes (t : Text) : Text :=
  ((t.dropWhile (· = '/')).reverse.dropWhile (· = '/')).reverse

/-- `str::replace` of some characters. -/
def replaceChars (p : Char → Bool) (new t : Text) : Text :=
  t.flatMap fun c => if p c then new else [c]

/-- A free text in the quotes of YAML and HCL. -/
def quoted (s : Text) : Text :=
  '"' :: (replaceChars (· = '"') "\\\"" (replaceChars (· = '\\') "\\\\" s) ++ ['"'])

namespace OnboardGenerateRequest

variable (r : OnboardGenerateRequest F)

def domain : Text := Text.trim r.trustDomain

def agentPath : Text := trimSlashes (Text.trim r.path)

def unitId : Text := Text.trim r.unit

def ownerText : Text := Text.trim r.owner

def attestation : Option Text := given r.attestationMethod

def agentId : Text := "agent://".toList ++ r.domain ++ '/' :: r.agentPath

/-- The path of the agent in one word. -/
def flatPath : Text := replaceChars (· = '/') ['-'] r.agentPath

def resolvedKeyId : Text := (given r.keyId).getD r.flatPath

def resolvedPattern : Text := (given r.bindPattern).getD r.agentId

/-- Whether the policy denies what is not attested. -/
def deniesUnattested : Bool := r.attestation.any fun m => m ≠ "none".toList

/-- The name of the policy. -/
def policyId : Text := "onboard-".toList ++ r.resolvedKeyId

/-- The name of the Terraform resources. -/
def tfName : Text := replaceChars (fun c => c = '-' || c = '.') ['_'] r.resolvedKeyId

end OnboardGenerateRequest

/-- Refuse the request unless a condition holds. -/
def ensure (condition : Bool) (message : Text) : Except OnboardError Unit :=
  if condition then .ok () else .error (.invalid message)

/-- Check an amount, if there is one. -/
def ensurePositive (D : Double F) (v : Option (Amount F)) (what : Text) :
    Except OnboardError Unit :=
  match v with
  | none => .ok ()
  | some v => finitePositive D v what

/-- What the checks of a request leave of its lists. -/
structure Checked where
  filesystem : List ValidatedFsScope
  models : List ValidatedModelDecl
  deriving DecidableEq

def checkRequest (D : Double F) (r : OnboardGenerateRequest F) : Except OnboardError Checked := do
  ensure (validDomain r.domain) ("trust domain \x60".toList ++ r.domain ++
    "\x60 is not valid: lowercase labels of [a-z0-9-] separated by dots (SPEC.md section 3)".toList)
  ensure (validPath r.agentPath) ("agent path \x60".toList ++ r.agentPath ++
    "\x60 is not valid: non-empty segments of [a-z0-9._-] separated by \x60/\x60 (SPEC.md section 3)".toList)
  ensure (!r.unitId.isEmpty) "the unit must not be empty"
  ensure (!r.ownerText.isEmpty) "the owner must not be empty"
  ensure (r.attestation.all (· ∈ attestationMethods)) ("attestation method \x60".toList ++
    r.attestation.getD [] ++
      "\x60 is not one of [\"none\", \"oidc\", \"spiffe-svid\", \"enclave-key\", \"mtls-cert\"]".toList)
  ensurePositive D r.requireHumanAboveUsd "require_human_above_usd"
  ensurePositive D r.unitBudgetUsdMonth "unit_budget_usd_month"
  let filesystem ← validateFilesystemScopes r.filesystem
  let models ← validateModelDecls r.models
  ensure (validAgentId r.agentId) ("the generated agent id \x60".toList ++ r.agentId ++
    "\x60 is not valid (it may be over the 255-byte cap)".toList)
  ensure (!r.resolvedKeyId.isEmpty && r.resolvedKeyId.all segmentChar) ("key id \x60".toList ++
    r.resolvedKeyId ++
      "\x60 is not valid: non-empty, chars [a-z0-9._-] (it becomes half of a TOKENFUSE_CLIENT_KEYS entry, so \x60:\x60 and \x60,\x60 cannot appear)".toList)
  ensure (validPattern r.resolvedPattern) ("bind pattern \x60".toList ++ r.resolvedPattern ++
    "\x60 is not valid: a literal, or a single \x60*\x60 as the final character (docs/20)".toList)
  ensure (patternMatches r.resolvedPattern r.agentId) ("bind pattern \x60".toList ++
    r.resolvedPattern ++ "\x60 does not match the generated agent id \x60".toList ++ r.agentId ++
      "\x60; a binding that misses its own agent cannot be intended".toList)
  return ⟨filesystem, models⟩

/-- The units that the identity map knows. -/
def knownUnits (S : Surroundings F) (arg : Option Text) : Except OnboardError (List Text) :=
  match resolveMapPath S arg with
  | none => .ok []
  | some path =>
      match loadMap S path with
      | .error e => .error (.map e)
      | .ok map => .ok (map.units.map (·.id))

/-- A fresh secret of a client key. -/
def mintSecret (S : Surroundings F) : Except OnboardError Text :=
  match S.entropy with
  | .error e => .error (.io ("could not gather entropy for the secret: ".toList ++ e))
  | .ok bytes => .ok ("gx_".toList ++ hexLower bytes)

section Passport

/-- A member that is left out where there is nothing to say. -/
def optionalMember (name : Text) (value : Option (Value F)) : List (Text × Value F) :=
  (value.map fun v => (name, v)).toList

def fsScopeJson (s : ValidatedFsScope) : Value F :=
  .object [("path", .string s.path), ("mode", .string s.mode)]

def modelJson (m : ValidatedModelDecl) : Value F :=
  .object (("provider".toList, .string m.provider) ::
    (optionalMember "model" (m.model.map .string) ++
      optionalMember "endpoint" (m.endpoint.map .string)))

/-- A list that is left out where it is empty. -/
def listMember (name : Text) (items : List (Value F)) : List (Text × Value F) :=
  if items.isEmpty then [] else [(name, .array items)]

/-- The members of a passport, in the order they are written in. -/
def passportMembers (S : Surroundings F) (r : OnboardGenerateRequest F) (c : Checked) :
    List (Text × Value F) :=
  [("schema".toList, .string passportSchema), ("id".toList, .string r.agentId),
    ("owner".toList, .string r.ownerText)] ++
    optionalMember "display_name" ((given r.displayName).map .string) ++
    optionalMember "runtime" ((given r.runtime).map .string) ++
    optionalMember "attestation" (r.attestation.map fun method =>
      .object [("method", .string method)]) ++
    listMember "filesystem" (c.filesystem.map fsScopeJson) ++
    listMember "models" (c.models.map modelJson) ++
    [("created_at".toList, .string S.nowRfc3339)]

def passportJson (S : Surroundings F) (r : OnboardGenerateRequest F) (c : Checked) : Text :=
  pretty S.floatText 0 (.object (passportMembers S r c)) ++ ['\n']

/-- The name of the file that a passport is staged in. -/
def passportFile (r : OnboardGenerateRequest F) : Text := r.flatPath ++ ".json".toList

def passportPath (S : Surroundings F) (r : OnboardGenerateRequest F) : Text :=
  Path.join (resolvePassportsDir S r.passportsDir) (passportFile r)

end Passport

/-- An `f64` as JSON: what is not finite has no number. -/
def Amount.json : Amount F → Value F
  | finite x => .number (.float x)
  | infinite _ | nan => .null

def identityMapFragment (S : Surroundings F) (r : OnboardGenerateRequest F) (unitIsNew : Bool) :
    Text :=
  let unit : Value F := .object (("id".toList, .string r.unitId) ::
    optionalMember "budget_usd_month" (r.unitBudgetUsdMonth.map Amount.json))
  let key : Value F := .object [("key_id", .string r.resolvedKeyId), ("unit", .string r.unitId),
    ("agents", .array [.string r.resolvedPattern]), ("created", .string S.today)]
  let units := if unitIsNew then [("units".toList, .array [unit])] else []
  pretty S.floatText 0 (.object (units ++ [("keys".toList, .array [key])])) ++ ['\n']

/-- A text with blanks behind it up to a width. -/
def padEnd (width : Nat) (t : Text) : Text := t ++ List.replicate (width - t.length) ' '

section Policy

/-- How the policy limits what needs no human, if it does. -/
def requireHumanLine (D : Double F) (before : Text) (v : Option (Amount F)) : List Text :=
  (v.map fun v => before ++ v.display D).toList

/-- The comment on one declared folder. -/
def scopeComment (s : ValidatedFsScope) : Text :=
  "#   ".toList ++ padEnd 6 (s.mode ++ [':']) ++ ' ' :: s.path

/-- The comment that a policy stub begins with. -/
def policyHead : List Text :=
  ["# Wardryx policy stub generated by the Genaryx onboard wizard (docs/ONBOARD.md).",
    "# Review, adjust, and commit it next to your other policies."]

/-- The comment before the declared folders. -/
def scopesHead : List Text := ["# filesystem scopes declared on the passport (informational):"]

/-- The comment behind the declared folders. -/
def scopesNote : List Text :=
  ["# NOTE: wardryx does not enforce filesystem paths in v1 (its policy",
    "# surface is deny_tool / allow_domains / require_human_above_usd /",
    "# deny_above_usd / max_steps / deny_if_unattested). These lines are a",
    "# declaration carried on the passport, not an enforced control."]

/-- The lines of the policy stub. -/
def wardryxPolicyLines (D : Double F) (r : OnboardGenerateRequest F) (c : Checked) : List Text :=
  policyHead ++
    ["name: ".toList ++ r.policyId, "target: ".toList ++ quoted r.resolvedPattern] ++
    requireHumanLine D "require_human_above_usd: " r.requireHumanAboveUsd ++
    (if r.deniesUnattested then ["deny_if_unattested: true".toList] else []) ++
    (if c.filesystem.isEmpty then [] else
      scopesHead ++ c.filesystem.map scopeComment ++ scopesNote)

def wardryxPolicyStub (D : Double F) (r : OnboardGenerateRequest F) (c : Checked) : Text :=
  Framing.terminated '\n' (wardryxPolicyLines D r c)

end Policy

section Terraform

/-- The line that opens a resource. -/
def resourceLine (type name : Text) : Text :=
  "resource \"".toList ++ type ++ "\" \"".toList ++ name ++ "\" \x7b".toList

/-- A line for a field that may be left out. -/
def optionalLine (before : Text) (field : Option Text) : List Text :=
  (field.map fun t => before ++ quoted t).toList

def scopeLines (s : ValidatedFsScope) : List Text :=
  ["  filesystem \x7b".toList, "    path = ".toList ++ quoted s.path,
    "    mode = ".toList ++ quoted s.mode, "  \x7d".toList]

def modelLines (m : ValidatedModelDecl) : List Text :=
  ["  models \x7b".toList, "    provider = ".toList ++ quoted m.provider] ++
    optionalLine "    model = " m.model ++ optionalLine "    endpoint = " m.endpoint ++
    ["  \x7d".toList]

/-- The lines of the Terraform snippet. -/
def terraformLines (D : Double F) (r : OnboardGenerateRequest F) (c : Checked) : List Text :=
  ["# Generated by the Genaryx onboard wizard (docs/ONBOARD.md). Review and commit.".toList,
    resourceLine "taipan_agent_passport" r.tfName, "  id    = ".toList ++ quoted r.agentId,
    "  owner = ".toList ++ quoted r.ownerText] ++
    optionalLine "  display_name = " (given r.displayName) ++
    optionalLine "  runtime = " (given r.runtime) ++
    optionalLine "  attestation_method = " r.attestation ++
    c.filesystem.flatMap scopeLines ++ c.models.flatMap modelLines ++
    ["\x7d".toList, [], resourceLine "taipan_wardryx_policy" r.tfName,
      "  id     = ".toList ++ quoted r.policyId,
      "  target = ".toList ++ quoted r.resolvedPattern] ++
    requireHumanLine D "  require_human_above_usd = " r.requireHumanAboveUsd ++
    (if r.deniesUnattested then ["  deny_if_unattested = true".toList] else []) ++
    ["\x7d".toList]

def terraformSnippet (D : Double F) (r : OnboardGenerateRequest F) (c : Checked) : Text :=
  Framing.terminated '\n' (terraformLines D r c)

end Terraform

structure OnboardBundleDto where
  agentId : Text
  passportJson : Text
  passportPath : Text
  clientKeySecret : Text
  clientKeysLine : Text
  keyId : Text
  identityMapFragment : Text
  unitIsNew : Bool
  wardryxPolicyStub : Text
  terraformSnippet : Text

/-- All artifacts of a request. Nothing is written. -/
def onboardGenerate (S : Surroundings F) (r : OnboardGenerateRequest F) :
    Except OnboardError OnboardBundleDto := do
  let c ← checkRequest S.double r
  let known ← knownUnits S r.mapPath
  let unitIsNew := r.unitId ∉ known
  let secret ← mintSecret S
  return {
    agentId := r.agentId
    passportJson := passportJson S r c
    passportPath := passportPath S r
    clientKeySecret := secret
    clientKeysLine := secret ++ ':' :: r.resolvedKeyId
    keyId := r.resolvedKeyId
    identityMapFragment := identityMapFragment S r unitIsNew
    unitIsNew := unitIsNew
    wardryxPolicyStub := wardryxPolicyStub S.double r c
    terraformSnippet := terraformSnippet S.double r c }

end Genaryx.Onboard
