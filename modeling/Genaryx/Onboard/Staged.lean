import Genaryx.Onboard.Generate

/-!
# The passports directory

The wizard's one write stages a passport in its directory, and the status lists what is staged
there.

## Implementation notes

The file system is a parameter. It is asked by the components of a path, since the paths that the
two commands ask it for are those of directories and of names in them. Entries that could not be
read while a directory was listed are left out, as the command does. A passport is read as a value
first, so a file that names a member twice is read as its last one says, and what is wrong with a
member is said without its place in the file.
-/

namespace Genaryx.Onboard

open Base Json
open Genaryx.Path (Component)

variable {F : Type}

section Peek

/-- A field as it is read: by its name in an object, by its place in an array. -/
def peekField (v : Value F) (name : Text) (place : Nat) : Option (Value F) :=
  match v with
  | .array items => items[place]?
  | v => v.get name

/-- Refuse what is no object and no array of so many fields at most. -/
def peekStruct (v : Value F) (size : Nat) : Except Text Unit :=
  match v with
  | .object _ => .ok ()
  | .array items => if items.length ≤ size then .ok () else .error "trailing characters"
  | _ => .error "invalid type, expected a struct"

/-- A text that is empty where it is left out. -/
def peekText : Option (Value F) → Except Text Text
  | none => .ok []
  | some (.string s) => .ok s
  | some _ => .error "invalid type, expected a string"

/-- A list that is empty where it is left out. -/
def peekList {α : Type} (ofValue : Value F → Except Text α) :
    Option (Value F) → Except Text (List α)
  | none => .ok []
  | some (.array items) => items.mapM ofValue
  | some _ => .error "invalid type, expected a sequence"

structure FsScopePeek where
  path : Text
  mode : Text

structure ModelPeek where
  provider : Text
  model : Text
  endpoint : Text

/-- What is read of a passport to list it. -/
structure PassportPeek where
  schema : Text
  id : Text
  owner : Text
  filesystem : List FsScopePeek
  models : List ModelPeek

def FsScopePeek.ofValue (v : Value F) : Except Text FsScopePeek := do
  peekStruct v 2
  let path ← peekText (peekField v "path" 0)
  let mode ← peekText (peekField v "mode" 1)
  return ⟨path, mode⟩

def ModelPeek.ofValue (v : Value F) : Except Text ModelPeek := do
  peekStruct v 3
  let provider ← peekText (peekField v "provider" 0)
  let model ← peekText (peekField v "model" 1)
  let endpoint ← peekText (peekField v "endpoint" 2)
  return ⟨provider, model, endpoint⟩

def PassportPeek.ofValue (v : Value F) : Except Text PassportPeek := do
  peekStruct v 5
  let schema ← peekText (peekField v "schema" 0)
  let id ← peekText (peekField v "id" 1)
  let owner ← peekText (peekField v "owner" 2)
  let filesystem ← peekList FsScopePeek.ofValue (peekField v "filesystem" 3)
  let models ← peekList ModelPeek.ofValue (peekField v "models" 4)
  return ⟨schema, id, owner, filesystem, models⟩

/-- How deep `serde_json` lets values nest. -/
def recursionLimit : Nat := 127

variable (P : PrettyReader F recursionLimit)

def peekStr (t : Text) : Except Text PassportPeek := do PassportPeek.ofValue (← P.fromStr t)

/-- The passport in the bytes of a file. -/
def peekSlice (bytes : Bytes) : Except Text PassportPeek :=
  match Utf8.fromUtf8 bytes with
  | none => .error "invalid unicode code point"
  | some t => peekStr P t

/-- A text that is trimmed, and not declared where it is blank. -/
def declaredText (raw : Text) : Option Text := given (some raw)

structure DeclaredFsScopeDto where
  path : Option Text
  mode : Option Text
  deriving DecidableEq

structure DeclaredModelDto where
  provider : Option Text
  model : Option Text
  endpoint : Option Text
  deriving DecidableEq

def FsScopePeek.intoDto (p : FsScopePeek) : DeclaredFsScopeDto :=
  ⟨declaredText p.path, declaredText p.mode⟩

def ModelPeek.intoDto (p : ModelPeek) : DeclaredModelDto :=
  ⟨declaredText p.provider, declaredText p.model, declaredText p.endpoint⟩

end Peek

/-- Where a path leads: its components. -/
abbrev Place := List Component

/-- Why a directory could not be listed. -/
inductive DirError
  | notFound
  | other (message : Text)

/-- A file system with states `σ`. What has been written is read back, a new file changes no path
to a directory and is listed in its own, and what is in a directory is found behind each path to
it. -/
structure FileSystem (σ : Type) where
  isThere : σ → Place → Bool
  createDirAll : σ → Place → Except Text σ
  canonicalize : σ → Place → Except Text Text
  write : σ → Place → Bytes → Except Text σ
  readDir : σ → Place → Except DirError (List Text)
  read : σ → Place → Except Text Bytes
  isThere_createDirAll : ∀ {s s' dir name}, isThere s (dir ++ [.normal name]) = false →
    createDirAll s dir = .ok s' → isThere s' (dir ++ [.normal name]) = false
  isThere_canonicalize : ∀ {s dir c name}, canonicalize s dir = .ok c →
    isThere s (dir ++ [.normal name]) = isThere s (Path.components c ++ [.normal name])
  read_canonicalize : ∀ {s dir c name}, canonicalize s dir = .ok c →
    read s (dir ++ [.normal name]) = read s (Path.components c ++ [.normal name])
  canonicalize_write : ∀ {s s' dir c file bytes}, isThere s file = false →
    write s file bytes = .ok s' → canonicalize s dir = .ok c → canonicalize s' dir = .ok c
  read_write : ∀ {s s' file bytes}, isThere s file = false → write s file bytes = .ok s' →
    read s' file = .ok bytes
  readDir_write : ∀ {s s' dir c name bytes names}, canonicalize s dir = .ok c →
    isThere s (Path.components c ++ [.normal name]) = false →
      write s (Path.components c ++ [.normal name]) bytes = .ok s' →
        readDir s' dir = .ok names → name ∈ names
  nodup_readDir : ∀ {s dir names}, readDir s dir = .ok names → names.Nodup
  isName_readDir : ∀ {s dir names}, readDir s dir = .ok names → ∀ name ∈ names, Path.IsName name

section Write

structure OnboardWritePassportRequest where
  passportJson : Text
  passportPath : Text
  passportsDir : Option Text
  overwrite : Bool

structure OnboardWriteDto where
  writtenPath : Text
  createdDir : Bool
  deriving DecidableEq

/-- Refuse what is no passport with an owner. -/
def checkContent (P : PrettyReader F recursionLimit) (json : Text) : Except OnboardError Unit :=
  match peekStr P json with
  | .error e => .error (.invalid ("the content is not valid JSON: ".toList ++ e))
  | .ok peek => do
      ensure (peek.schema = passportSchema) ("the content's schema is \x60".toList ++ peek.schema ++
        "\x60, expected \x60".toList ++ passportSchema ++
          "\x60; this command writes passports only".toList)
      ensure (validAgentId peek.id) ("the content's id \x60".toList ++ peek.id ++
        "\x60 is not a well-formed agent:// id".toList)
      ensure (!(Text.trim peek.owner).isEmpty)
        "the content has no owner; a passport without an owner is not valid (SPEC.md section 4)"

/-- The directory and the name that a path stages a passport under. -/
def checkPath (path dir : Text) : Except OnboardError (Place × Text) := do
  ensure (.parentDir ∉ Path.components path) ("\x60".toList ++ path ++
    "\x60 contains \x60..\x60; the passport must land inside the passports dir \x60".toList ++ dir ++
      "\x60".toList)
  match (Path.parent path).filter (· ≠ []) with
  | none =>
      .error (.invalid ("\x60".toList ++ path ++
        "\x60 has no parent directory; expected a path inside \x60".toList ++ dir ++ "\x60".toList))
  | some parent =>
      match Path.fileName path with
      | none => .error (.invalid ("\x60".toList ++ path ++ "\x60 has no file name".toList))
      | some name => .ok (parent, name)

variable {σ : Type}

/-- A failure of the file system as an error of a command. -/
def onFailure {α : Type} (error : Text → OnboardError) : Except Text α → Except OnboardError α
  | .ok a => .ok a
  | .error e => .error (error e)

/-- Stage a passport in its directory. -/
def onboardWritePassport (S : Surroundings F) (P : PrettyReader F recursionLimit)
    (fs : FileSystem σ) (s : σ) (request : OnboardWritePassportRequest) :
    Except OnboardError (OnboardWriteDto × σ) := do
  checkContent P request.passportJson
  let dir := resolvePassportsDir S request.passportsDir
  let path := request.passportPath
  let (parent, name) ← checkPath path dir
  let createdDir := !fs.isThere s (Path.components dir)
  let s ← onFailure (fun e => .io ("could not create \x60".toList ++ dir ++ "\x60: ".toList ++ e))
    (fs.createDirAll s (Path.components dir))
  let dirCanon ← onFailure
    (fun e => .io ("could not resolve \x60".toList ++ dir ++ "\x60: ".toList ++ e))
    (fs.canonicalize s (Path.components dir))
  let parentCanon ← onFailure
    (fun e => .invalid ("\x60".toList ++ path ++
      "\x60 does not resolve inside the passports dir \x60".toList ++ dir ++ "\x60: ".toList ++ e))
    (fs.canonicalize s parent)
  ensure (Path.same parentCanon dirCanon) ("\x60".toList ++ path ++
    "\x60 resolves outside the passports dir \x60".toList ++ dir ++
      "\x60; refusing to write there".toList)
  let target := Path.join dirCanon name
  if fs.isThere s (Path.components target) && !request.overwrite then
    .error (.io ("\x60".toList ++ target ++
      "\x60 already exists; enable overwrite to replace it".toList))
  else
    let s ← onFailure
      (fun e => .io ("could not write \x60".toList ++ target ++ "\x60: ".toList ++ e))
      (fs.write s (Path.components target) (Utf8.encode request.passportJson))
    return (⟨target, createdDir⟩, s)

end Write

section Status

structure OnboardStatusRequest where
  mapPath : Option Text
  passportsDir : Option Text

structure ProvisionedDto where
  agentId : Text
  owner : Text
  file : Text
  filesystemCount : Nat
  filesystem : List DeclaredFsScopeDto
  modelsCount : Nat
  models : List DeclaredModelDto
  inMap : Bool
  deriving DecidableEq

structure SkippedDto where
  file : Text
  reason : Text
  deriving DecidableEq

structure OnboardStatusDto (F : Type) where
  mapPath : Option Text
  mapLoaded : Bool
  mapError : Option Text
  units : List (MapUnit F)
  passportsDir : Text
  passports : List ProvisionedDto
  skipped : List SkippedDto

/-- Whether a key of the map is bound to an agent. -/
def idBoundInMap (map : MapFile F) (agentId : Text) : Bool :=
  (map.keys.flatMap (·.agents)).any fun p => validPattern p && patternMatches p agentId

variable {σ : Type} (P : PrettyReader F recursionLimit) (fs : FileSystem σ)

/-- How one file of the directory is listed. -/
def listFile (map : Option (MapFile F)) (s : σ) (file : Text) : SkippedDto ⊕ ProvisionedDto :=
  match fs.read s (Path.components file) with
  | .error e => .inl ⟨file, "could not read: ".toList ++ e⟩
  | .ok bytes =>
      match peekSlice P bytes with
      | .error e => .inl ⟨file, "could not parse: ".toList ++ e⟩
      | .ok p =>
          if p.schema ≠ passportSchema then
            .inl ⟨file, "schema is \x60".toList ++ p.schema ++ "\x60, expected \x60".toList ++
              passportSchema ++ "\x60".toList⟩
          else if !validAgentId p.id then
            .inl ⟨file, "id \x60".toList ++ p.id ++ "\x60 is not a well-formed agent:// id".toList⟩
          else
            let filesystem := p.filesystem.map FsScopePeek.intoDto
            let models := p.models.map ModelPeek.intoDto
            .inr {
              agentId := p.id
              owner := p.owner
              file := file
              filesystemCount := filesystem.length
              filesystem := filesystem
              modelsCount := models.length
              models := models
              inMap := map.any fun m => idBoundInMap m p.id }

/-- The JSON files of a directory, in the order of their paths. -/
def jsonFiles (dir : Text) (names : List Text) : List Text :=
  ((names.map (Path.join dir)).filter fun file => Path.extension file = some "json".toList).mergeSort
    Path.le

/-- What is provisioned, and what could not be used. -/
def listDir (map : Option (MapFile F)) (s : σ) (dir : Text) :
    List ProvisionedDto × List SkippedDto :=
  match fs.readDir s (Path.components dir) with
  | .ok names =>
      let listed := (jsonFiles dir names).map (listFile P fs map s)
      (listed.filterMap Sum.getRight?, listed.filterMap Sum.getLeft?)
  | .error .notFound => ([], [])
  | .error (.other e) => ([], [⟨dir, "could not list the passports dir: ".toList ++ e⟩])

/-- What the wizard has to work with. -/
def onboardStatus (S : Surroundings F) (s : σ) (request : OnboardStatusRequest) :
    OnboardStatusDto F :=
  let mapPath := resolveMapPath S request.mapPath
  let loaded := mapPath.map (loadMap S)
  let map := loaded.bind Except.toOption
  let dir := resolvePassportsDir S request.passportsDir
  let listed := listDir P fs map s dir
  { mapPath := mapPath
    mapLoaded := map.isSome
    mapError := loaded.bind fun
      | .ok _ => none
      | .error e => some e
    units := (map.map (·.units)).getD []
    passportsDir := dir
    passports := listed.1
    skipped := listed.2 }

end Status

end Genaryx.Onboard
