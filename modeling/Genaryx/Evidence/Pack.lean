import Genaryx.Base.Digest
import Genaryx.Base.Utf8
import Genaryx.Json.Pretty

/-!
# Evidence packs

Artifacts are put into a zip beside a manifest, which lists each of them with its digest and size,
and the signature of the manifest.

## Implementation notes

The zip crate is a parameter that stores every entry under the name it is given. The digest is a
parameter too. No buffer is longer than `isize::MAX`.
-/

namespace Genaryx.Evidence

open Json Text

/-- The pack format identifier written into every manifest. -/
def packVersion : Text := "genaryx-evidence/v1".toList

/-- What can go wrong when a pack is assembled. -/
inductive EvidenceError
  | unsafeFilename (name : Text)
  | duplicateFilename (name : Text)
  | zip (e : Text)
  | json (e : Text)
  deriving DecidableEq

/-- One artifact, with the bytes that the tool emitted. -/
structure Artifact where
  name : Text
  filename : Text
  contentType : Text
  source : Text
  toolVersion : Option Text
  verifyStatus : Option Text
  bytes : Bytes
  bytes_fit : bytes.length < 2 ^ 63

/-- A source that could not be included. -/
structure MissingSource where
  name : Text
  reason : Text

/-- An artifact's entry in the manifest. -/
structure ManifestArtifact where
  name : Text
  filename : Text
  contentType : Text
  source : Text
  toolVersion : Option Text
  verifyStatus : Option Text
  sha256 : Text
  sizeBytes : UInt64

structure EvidenceManifest where
  packVersion : Text
  generatedAt : Text
  operator : Text
  org : Text
  artifacts : List ManifestArtifact
  missing : List MissingSource

/-- A signature over the bytes of a manifest. -/
structure SignatureBlock where
  alg : Text
  signatureB64 : Text
  publicKeyB64 : Text
  «over» : Text

/-! ## The manifest -/

section Manifest

variable (sha256 : Bytes → Bytes)

def sha256Hex (bytes : Bytes) : Text := "sha256:".toList ++ hexLower (sha256 bytes)

namespace EvidenceManifest

/-- A manifest of artifacts and of the sources that are missing. -/
def build (artifacts : List Artifact) (missing : List MissingSource)
    (generatedAt operator org : Text) : EvidenceManifest where
  packVersion := Evidence.packVersion
  generatedAt := generatedAt
  operator := operator
  org := org
  artifacts := artifacts.map fun a =>
    { name := a.name
      filename := a.filename
      contentType := a.contentType
      source := a.source
      toolVersion := a.toolVersion
      verifyStatus := a.verifyStatus
      sha256 := sha256Hex sha256 a.bytes
      sizeBytes := UInt64.ofNat a.bytes.length }
  missing := missing

end EvidenceManifest

/-- A member that is left out where there is nothing to say. -/
def optionMember (key : Text) : Option Text → List (Text × Value Empty)
  | some s => [(key, .string s)]
  | none => []

def ManifestArtifact.toJson (a : ManifestArtifact) : Value Empty :=
  .object ([("name".toList, .string a.name), ("filename".toList, .string a.filename),
      ("content_type".toList, .string a.contentType), ("source".toList, .string a.source)] ++
    optionMember "tool_version".toList a.toolVersion ++
    optionMember "verify_status".toList a.verifyStatus ++
    [("sha256".toList, .string a.sha256), ("size_bytes".toList, .ofU64 a.sizeBytes)])

def MissingSource.toJson (m : MissingSource) : Value Empty :=
  .object [("name".toList, .string m.name), ("reason".toList, .string m.reason)]

def EvidenceManifest.toJson (m : EvidenceManifest) : Value Empty :=
  .object [("pack_version".toList, .string m.packVersion),
    ("generated_at".toList, .string m.generatedAt), ("operator".toList, .string m.operator),
    ("org".toList, .string m.org),
    ("artifacts".toList, .array (m.artifacts.map ManifestArtifact.toJson)),
    ("missing".toList, .array (m.missing.map MissingSource.toJson))]

def SignatureBlock.toJson (s : SignatureBlock) : Value Empty :=
  .object [("alg".toList, .string s.alg), ("signature_b64".toList, .string s.signatureB64),
    ("public_key_b64".toList, .string s.publicKeyB64), ("over".toList, .string s.«over»)]

/-- `serde_json::to_vec_pretty`, which writes all of these. -/
def toVecPretty (v : Value Empty) : Except EvidenceError Bytes :=
  .ok (Utf8.encode (pretty Empty.elim 0 v))

/-- The bytes to sign. -/
def EvidenceManifest.canonicalBytes (m : EvidenceManifest) : Except EvidenceError Bytes :=
  toVecPretty m.toJson

end Manifest

/-! ## Assembly -/

/-- What the zip crate does with a writer, and what a reader finds in an archive. -/
structure ZipCrate (Writer Archive : Type) where
  new : Writer
  startFile : Writer → Text → Except Text Writer
  writeAll : Writer → Bytes → Except Text Writer
  finish : Writer → Except Text Archive
  /-- The entries of a writer so far. -/
  stored : Writer → List (Text × Bytes)
  entries : Archive → List (Text × Bytes)
  stored_new : stored new = []
  /-- An entry is stored under the name that is given. -/
  stored_startFile : ∀ {w w' name}, startFile w name = .ok w' →
    stored w' = stored w ++ [(name, [])]
  stored_writeAll : ∀ {w w' bytes done name old}, writeAll w bytes = .ok w' →
    stored w = done ++ [(name, old)] → stored w' = done ++ [(name, old ++ bytes)]
  entries_finish : ∀ {w archive}, finish w = .ok archive → entries archive = stored w

/-- Reject what is not a bare filename inside the archive root. -/
def validateFilename (name : Text) : Except EvidenceError Unit :=
  if name.isEmpty || List.contains name '/' || List.contains name '\\' ||
      (name.splitOnP fun c => c = '/' || c = '\\').any (· = ['.', '.']) || name = ['.', '.'] then
    .error (.unsafeFilename name)
  else .ok ()

/-- The names that the pack takes for itself. -/
def manifestName : Text := "manifest.json".toList

def signatureName : Text := "manifest.sig.json".toList

/-- Check the filenames one after another, with the ones seen before. -/
def checkFilenames : List Text → List Artifact → Except EvidenceError Unit
  | _, [] => .ok ()
  | seen, a :: rest => do
      validateFilename a.filename
      if a.filename = manifestName || a.filename = signatureName then
        .error (.unsafeFilename a.filename)
      else if a.filename ∈ seen then .error (.duplicateFilename a.filename)
      else checkFilenames (a.filename :: seen) rest

variable {Writer Archive : Type} (Z : ZipCrate Writer Archive)

/-- One entry of the pack. -/
def addFile (w : Writer) (name : Text) (bytes : Bytes) : Except EvidenceError Writer := do
  let w ← (Z.startFile w name).mapError .zip
  (Z.writeAll w bytes).mapError .zip

/-- Assemble the pack, once every filename is checked. -/
def assembleZip (manifestBytes : Bytes) (signature : Option SignatureBlock)
    (artifacts : List Artifact) : Except EvidenceError Archive := do
  checkFilenames [] artifacts
  let w ← addFile Z Z.new manifestName manifestBytes
  let w ← match signature with
    | some sig => do addFile Z w signatureName (← toVecPretty sig.toJson)
    | none => pure w
  let w ← artifacts.foldlM (fun w a => addFile Z w a.filename a.bytes) w
  (Z.finish w).mapError .zip

end Genaryx.Evidence
