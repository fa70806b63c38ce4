import Genaryx.Base.Path
import Genaryx.Base.Utf8
import Genaryx.Base.Words
import Genaryx.Json.Display

/-!
# What an agent may be called

The grammar of agent ids and of the patterns that bind a key to agents, and the checks of the
declared folders and models.
-/

namespace Genaryx.Onboard

open Json

variable {F : Type}

structure OnboardError where
  kind : Text
  message : Text
  deriving DecidableEq

namespace OnboardError

/-- A refusal of the request. -/
def invalid (message : Text) : OnboardError := ⟨"invalid_input", message⟩

/-- A failure of the file system. -/
def io (message : Text) : OnboardError := ⟨"io", message⟩

/-- An identity map that cannot be used. -/
def map (message : Text) : OnboardError := ⟨"map", message⟩

end OnboardError

def passportSchema : Text := "taipanbox.dev/agent-passport/v0.1"

def attestationMethods : List Text := ["none", "oidc", "spiffe-svid", "enclave-key", "mtls-cert"]

/-- A lowercase letter or a digit of ASCII. -/
def lowerOrDigit (c : Char) : Bool := c.isLower || c.isDigit

theorem isAlphanum_of_lowerOrDigit {c : Char} (h : lowerOrDigit c = true) :
    c.isAlphanum = true := by
  rcases Bool.or_eq_true_iff.mp h with hlower | hdigit
  · exact Bool.or_eq_true_iff.mpr (.inl (Bool.or_eq_true_iff.mpr (.inr hlower)))
  · exact Bool.or_eq_true_iff.mpr (.inr hdigit)

/-- The characters of a path segment, and of a key id. -/
def segmentChar (c : Char) : Bool := lowerOrDigit c || c = '.' || c = '_' || c = '-'

def validDomain (domain : Text) : Bool :=
  !domain.isEmpty && domain.all (fun c => lowerOrDigit c || c = '.' || c = '-') &&
    (domain.splitOn '.').all fun label => !label.isEmpty

def validPath (path : Text) : Bool :=
  !path.isEmpty && (path.splitOn '/').all fun seg => !seg.isEmpty && seg.all segmentChar

def validAgentId (id : Text) : Bool :=
  match Text.stripPrefix "agent://" id with
  | none => false
  | some rest =>
      match Text.splitOnce '/' rest with
      | none => false
      | some (domain, path) => Utf8.len id ≤ 255 && validDomain domain && validPath path

/-- A pattern: a literal, or a single star as the final character. -/
def validPattern (pattern : Text) : Bool :=
  if pattern.isEmpty then false
  else
    match Text.splitOnce '*' pattern with
    | none => true
    | some (_, rest) => rest.isEmpty

def patternMatches (pattern value : Text) : Bool :=
  match Text.stripSuffix "*" pattern with
  | some start => Text.startsWith value start
  | none => pattern = value

/-- An `f64`. -/
inductive Amount (F : Type)
  | finite (x : F)
  | infinite (negative : Bool)
  | nan

/-- `f64::to_string`. -/
def Amount.display (D : Double F) : Amount F → Text
  | finite x => D.display x
  | infinite negative => if negative then "-inf".toList else "inf".toList
  | nan => "NaN"

/-- Whether an amount is finite and greater than zero. -/
def Amount.isPositive (D : Double F) : Amount F → Bool
  | finite x => !D.isZero x && !D.isNegative x
  | infinite _ | nan => false

def finitePositive (D : Double F) (v : Amount F) (what : Text) : Except OnboardError Unit :=
  if v.isPositive D then .ok ()
  else
    .error (.invalid (what ++ " must be a finite number greater than zero, got \x60".toList ++
      v.display D ++ "\x60".toList))

/-- A text that is not empty and has no control character of ASCII but the last one. -/
def printable (t : Text) : Bool := !t.isEmpty && !t.any fun c => c.toNat < 0x20

def fsModes : List Text := ["read", "write"]

/-- A folder, and what may be done in it, as a request declares them. -/
structure FsScopeDto where
  path : Text
  mode : Text
  deriving DecidableEq

structure ValidatedFsScope where
  path : Text
  mode : Text
  deriving DecidableEq

def validFsScopePath (path : Text) : Bool := printable path

/-- Check the scope at a place, after those with these paths. -/
def validateFsScope (idx : Nat) (seenPaths : List Text) (scope : FsScopeDto) :
    Except OnboardError ValidatedFsScope :=
  let path := Text.trim scope.path
  if !validFsScopePath path then
    .error (.invalid ("filesystem scope #".toList ++ Text.decimal idx ++
      ": path must be non-empty and free of control characters, got \x60".toList ++ scope.path ++
        "\x60".toList))
  else if scope.mode ∉ fsModes then
    .error (.invalid ("filesystem scope #".toList ++ Text.decimal idx ++ ": mode \x60".toList ++
      scope.mode ++ "\x60 is not one of [\"read\", \"write\"]".toList))
  else if path ∈ seenPaths then
    .error (.invalid ("filesystem scope \x60".toList ++ path ++
      "\x60 is declared more than once; one row per folder (which mode would win is ambiguous otherwise)".toList))
  else .ok ⟨path, scope.mode⟩

/-- The scopes after those that were checked before them. -/
def validateFsScopesFrom (before : List ValidatedFsScope) :
    List FsScopeDto → Except OnboardError (List ValidatedFsScope)
  | [] => .ok before
  | scope :: rest => do
      let valid ← validateFsScope before.length (before.map (·.path)) scope
      validateFsScopesFrom (before ++ [valid]) rest

def validateFilesystemScopes (scopes : List FsScopeDto) :
    Except OnboardError (List ValidatedFsScope) :=
  validateFsScopesFrom [] scopes

/-- A provider, and one of its models or endpoints, as a request declares them. -/
structure ModelDeclDto where
  provider : Text
  model : Option Text
  endpoint : Option Text
  deriving DecidableEq

structure ValidatedModelDecl where
  provider : Text
  model : Option Text
  endpoint : Option Text
  deriving DecidableEq

def validModelField (s : Text) : Bool := printable s

def formatModelLabel (provider : Text) : Option Text → Option Text → Text
  | none, none => provider
  | some m, none => provider ++ " (model: ".toList ++ m ++ ")".toList
  | none, some e => provider ++ " (endpoint: ".toList ++ e ++ ")".toList
  | some m, some e =>
      provider ++ " (model: ".toList ++ m ++ ", endpoint: ".toList ++ e ++ ")".toList

/-- A field that may be left blank. -/
def optionalModelField (idx : Nat) (name : Text) (field : Option Text) :
    Except OnboardError (Option Text) :=
  match field.map Text.trim with
  | none | some [] => .ok none
  | some m =>
      if validModelField m then .ok (some m)
      else
        .error (.invalid ("model declaration #".toList ++ Text.decimal idx ++ ": ".toList ++ name ++
          " must be free of control characters, got \x60".toList ++ m ++ "\x60".toList))

/-- Check the declaration at a place, after those before it. -/
def validateModelDecl (idx : Nat) (seen : List ValidatedModelDecl) (decl : ModelDeclDto) :
    Except OnboardError ValidatedModelDecl := do
  let provider := Text.trim decl.provider
  if !validModelField provider then
    .error (.invalid ("model declaration #".toList ++ Text.decimal idx ++
      ": provider must be non-empty and free of control characters, got \x60".toList ++
        decl.provider ++ "\x60".toList))
  else
    let model ← optionalModelField idx "model" decl.model
    let endpoint ← optionalModelField idx "endpoint" decl.endpoint
    if ⟨provider, model, endpoint⟩ ∈ seen then
      .error (.invalid ("model declaration \x60".toList ++ formatModelLabel provider model endpoint ++
        "\x60 is declared more than once; one row per provider/model/endpoint combination (which entry would be authoritative is ambiguous otherwise)".toList))
    else .ok ⟨provider, model, endpoint⟩

/-- The declarations after those that were checked before them. -/
def validateModelDeclsFrom (before : List ValidatedModelDecl) :
    List ModelDeclDto → Except OnboardError (List ValidatedModelDecl)
  | [] => .ok before
  | decl :: rest => do
      let valid ← validateModelDecl before.length before decl
      validateModelDeclsFrom (before ++ [valid]) rest

def validateModelDecls (decls : List ModelDeclDto) :
    Except OnboardError (List ValidatedModelDecl) :=
  validateModelDeclsFrom [] decls

end Genaryx.Onboard
