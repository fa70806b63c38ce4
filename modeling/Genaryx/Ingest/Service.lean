import Genaryx.Base.Path
import Genaryx.Ingest.FileTail
import Mathlib.Data.List.Sort

/-!
# The ingest service

One cycle polls every source, conforms each line, quarantines what fails, inserts the
rest as one batch, and then journals the offsets. Every one of these steps may be refused
from outside, and the first refusal ends the cycle.

## Implementation notes

`Outside` is what one cycle meets: the files, the clock and the refusals. `Cycle.taken`
has no counterpart in the program: it collects the records that the polls of this cycle
returned, so that results can speak about them. The journal is a hash map, so the files
journaled before a refusal are any of those the cycle read.
-/

namespace Genaryx.Ingest

open Base Genaryx.Core

variable {F : Type}

/-- How much of a file's head its fingerprint covers. -/
def headFingerprintBytes : Nat := 64 * 1024

def inodeOf (disk : Disk) (path : Text) : Option Nat := (disk path).bind OnDisk.inode

/-- The fingerprint of the bytes before `offset`, if the file is that long. -/
def headFingerprint (sha256Hex : Bytes → Text) (disk : Disk) (path : Text) (offset : Nat) :
    Option Text :=
  if offset = 0 then none
  else
    match disk path with
    | none => none
    | some file =>
        if file.bytes.length < offset then none
        else some (sha256Hex (file.bytes.take (min offset headFingerprintBytes)))

/-- The reason of a conforming line whose source its pinned stream may not carry. -/
def pinnedSourceRefused : Text :=
  "the line claims a source its stream may not carry (a pinned stream carries only its own source)"

def conformanceFailed : Text := "conformance failed"

structure IngestStats where
  inserted : Nat := 0
  quarantined : Nat := 0
  deriving DecidableEq

structure IngestService (F : Type) where
  store : Store F
  parseValid : Text → Except ConformReport (AgentEvent F)
  env : Text
  sources : List FileTail := []
  pinned : AList (fun _ : Text => Text) := ∅

/-- What one cycle meets. -/
structure Outside where
  disk : Disk
  now : Nat → Text
  sourceFault : Nat → Option PollFault := fun _ => none
  quarantineFault : Nat → Option Text := fun _ => none
  insertFault : Option Text := none
  journalFault : Option (List Text × Text) := none

/-- The accumulators of one cycle. -/
structure Cycle (F : Type) where
  store : Store F
  stats : IngestStats := {}
  validEvents : List (ConsoleEvent F) := []
  offsetsToJournal : AList (fun _ : Text => Nat) := ∅
  taken : List RawRecord := []

/-- The furthest offset of one file: just past the record, counted in the bytes of its
text. -/
def noteOffset (offsets : AList (fun _ : Text => Nat)) (record : RawRecord) :
    AList (fun _ : Text => Nat) :=
  match record.file, record.offset with
  | some file, some offset =>
      let next := offset + Utf8.len record.raw + 1
      offsets.insert file (max ((offsets.lookup file).getD next) next)
  | _, _ => offsets

namespace IngestService

variable (svc : IngestService F) (out : Outside)

/-- The stream's pinned source, when it has one and the event claims another. -/
def refusedByPin (record : RawRecord) (event : AgentEvent F) : Bool :=
  match record.file.bind svc.pinned.lookup with
  | some want => event.source ≠ want
  | none => false

def quarantineRecord (reason receivedTs : Text) (record : RawRecord) (c : Cycle F) :
    Except Error Unit × Cycle F :=
  match c.store.quarantine (out.quarantineFault c.stats.quarantined)
      ⟨svc.env, record.file, record.offset, record.raw, reason, receivedTs⟩ with
  | (.error e, store) => (.error e, { c with store := store })
  | (.ok (), store) =>
      (.ok (), { c with
        store := store
        stats := { c.stats with quarantined := c.stats.quarantined + 1 } })

/-- Conform one record, the `i`-th of its cycle: keep its event for the batch, or
quarantine it. -/
def processRecord (connector : Text) (i : Nat) (c : Cycle F) (record : RawRecord) :
    Except Error Unit × Cycle F :=
  let receivedTs := out.now i
  let c := { c with offsetsToJournal := noteOffset c.offsetsToJournal record }
  match svc.parseValid record.raw with
  | .error report =>
      let reason := if report.errors.isEmpty then conformanceFailed
        else List.intercalate "; ".toList report.errors
      svc.quarantineRecord out reason receivedTs record c
  | .ok event =>
      if svc.refusedByPin record event then
        svc.quarantineRecord out pinnedSourceRefused receivedTs record c
      else
        match event.schemaVersion with
        | none => (.error (.unrecognizedSchema event.schema), c)
        | some schemaVersion =>
            (.ok (), { c with
              validEvents := c.validEvents ++
                [⟨event, ⟨svc.env, connector, record.file, record.offset, none, receivedTs⟩,
                  record.raw, schemaVersion⟩] })

/-- The records of one source, the first of which is the `i`-th of the cycle. -/
def processRecords (connector : Text) : Nat → Cycle F → List RawRecord →
    Except Error Unit × Cycle F
  | _, c, [] => (.ok (), c)
  | i, c, record :: rest =>
      match svc.processRecord out connector i c record with
      | (.error e, c) => (.error e, c)
      | (.ok (), c) => processRecords connector (i + 1) c rest

/-- Poll the sources in order, from the `i`-th on. -/
def pollSources : Nat → Cycle F → List FileTail →
    Except Error Unit × Cycle F × List FileTail
  | _, c, [] => (.ok (), c, [])
  | i, c, source :: rest =>
      match source.poll (out.sourceFault i) out.disk with
      | (.error e, source) => (.error e, c, source :: rest)
      | (.ok records, source) =>
          match svc.processRecords out source.id c.taken.length
              { c with taken := c.taken ++ records } records with
          | (.error e, c) => (.error e, c, source :: rest)
          | (.ok (), c) =>
              let tail := pollSources (i + 1) c rest
              (tail.1, tail.2.1, source :: tail.2.2)

end IngestService

/-- Journal the offset of one file, with what identifies the file. -/
def journalOffset (sha256Hex : Bytes → Text) (disk : Disk) (s : Store F)
    (entry : Text × Nat) : Store F :=
  s.setOffset entry.1
    ⟨entry.2, inodeOf disk entry.1, headFingerprint sha256Hex disk entry.1 entry.2⟩

/-- Journal the offsets one by one, up to a refusal. -/
def journalOffsets (sha256Hex : Bytes → Text) (out : Outside)
    (offsets : List (Text × Nat)) (s : Store F) : Except Error Unit × Store F :=
  match out.journalFault with
  | none => (.ok (), offsets.foldl (journalOffset sha256Hex out.disk) s)
  | some (done, message) =>
      let before := offsets.filter fun entry => entry.1 ∈ done
      let s := before.foldl (journalOffset sha256Hex out.disk) s
      if before.length = offsets.length then (.ok (), s) else (.error (.store message), s)

/-- The outcome of one cycle, the service after it, what was broadcast, and the records
that were taken from the sources. -/
structure Polled (F : Type) where
  outcome : Except Error IngestStats
  service : IngestService F
  sent : List (ConsoleEvent F)
  taken : List RawRecord

namespace IngestService

/-- One poll cycle: poll, conform, insert, journal, broadcast. -/
def pollOnce (sha256Hex : Bytes → Text) (out : Outside) (svc : IngestService F) : Polled F :=
  match svc.pollSources out 0 { store := svc.store } svc.sources with
  | (.error e, c, sources) =>
      ⟨.error e, { svc with store := c.store, sources := sources }, [], c.taken⟩
  | (.ok (), c, sources) =>
      match c.store.insertBatch sha256Hex out.insertFault c.validEvents with
      | (.error e, store) =>
          ⟨.error e, { svc with store := store, sources := sources }, [], c.taken⟩
      | (.ok inserted, store) =>
          let entries := c.offsetsToJournal.entries.map fun entry => (entry.1, entry.2)
          match journalOffsets sha256Hex out entries store with
          | (.error e, store) =>
              ⟨.error e, { svc with store := store, sources := sources }, [], c.taken⟩
          | (.ok (), store) =>
              ⟨.ok { c.stats with inserted := inserted },
                { svc with store := store, sources := sources }, c.validEvents, c.taken⟩

/-- Where a new tail of a file starts: at the journaled offset, unless the file's inode or
the bytes before that offset are other ones. -/
def resumeOffset (sha256Hex : Bytes → Text) (disk : Disk) (key : Text) (s : Store F) : Nat :=
  match s.getSourceState key with
  | none => 0
  | some state =>
      let inodeSaysNew :=
        match state.inode, inodeOf disk key with
        | some was, some now => was ≠ now
        | _, _ => false
      let headSaysNew :=
        match state.headSha, headFingerprint sha256Hex disk key state.offset with
        | some was, some now => was ≠ now
        | _, _ => false
      if inodeSaysNew || headSaysNew then 0 else state.offset

/-- Register a tail of a file, seeded from the store's journal. -/
def addFileSource (sha256Hex : Bytes → Text) (disk : Disk) (id : Text) (path : FilePath)
    (svc : IngestService F) : IngestService F :=
  { svc with sources :=
      svc.sources ++ [⟨id, path, resumeOffset sha256Hex disk path.text svc.store⟩] }

/-- Register a tail whose lines must claim one source. -/
def addPinnedFileSource (sha256Hex : Bytes → Text) (disk : Disk) (id : Text)
    (path : FilePath) (source : Text) (svc : IngestService F) : IngestService F :=
  let svc := svc.addFileSource sha256Hex disk id path
  { svc with pinned := svc.pinned.insert path.text source }

end IngestService

/-!
## What a live bus tails

The streams of the environment's own directory and the extra streams that the operator
named, each of them registered as a source: an extra stream pinned to the source that its
file is named for.

### Implementation notes

The texts that say why an entry was not taken are only printed and stand here as the cases
they tell apart. A directory is read as the paths of its entries.
-/

/-- Why an entry of the extra streams is not read. -/
inductive RefusedEntry
  | notAbsolute (entry : Text)
  | climbsOut (entry : Text)
  | notOneFile (entry : Text)
  deriving DecidableEq

/-- One step of the loop over the entries. -/
def takeEntry (acc : List Text × List RefusedEntry) (entry : Text) :
    List Text × List RefusedEntry :=
  if !Path.isAbsolute entry then (acc.1, acc.2 ++ [.notAbsolute entry])
  else if Path.Component.parentDir ∈ Path.components entry then
    (acc.1, acc.2 ++ [.climbsOut entry])
  else if Path.extension entry ≠ some "ndjson" ∨ ((Path.fileStem entry).getD []).isEmpty then
    (acc.1, acc.2 ++ [.notOneFile entry])
  else if !acc.1.any fun kept => Path.same kept entry then (acc.1 ++ [entry], acc.2)
  else acc

/-- The streams that the environment variable names, and the entries that were refused. -/
def parseExtraStreams (raw : Text) : List Text × List RefusedEntry :=
  (((raw.splitOn ',').map Text.trim).filter fun entry => !entry.isEmpty).foldl takeEntry ([], [])

/-- What a bus tails. -/
structure BusPaths where
  dir : Text
  extra : List FilePath

/-- What a listing finds: the entries of each directory, and which paths are regular files. -/
structure Listing where
  readDir : Text → Option (List FilePath)
  isRegularFile : Text → Bool

def collectNdjsonFiles (found : Listing) (dir : Text) : Option (List FilePath) :=
  (found.readDir dir).map fun entries =>
    (entries.filter fun path => Path.extension path.text = some "ndjson").insertionSort
      fun p q => p.text ≤ q.text

/-- Every stream the bus should tail right now. -/
def collectSources (found : Listing) (paths : BusPaths) : List FilePath :=
  paths.extra.foldl
    (fun out extra =>
      if !found.isRegularFile extra.text then out
      else if !out.any fun path => Path.same path.text extra.text then out ++ [extra]
      else out)
    ((collectNdjsonFiles found paths.dir).getD [])

def stemOf (path : FilePath) : Text := (Path.fileStem path.text).getD "unknown"

def fileTailId (path : FilePath) : Text := ("filetail:" : Text) ++ stemOf path

/-- The source that a stream is pinned to: the name of an extra stream. -/
def BusPaths.pinOf (paths : BusPaths) (path : FilePath) : Option Text :=
  if paths.extra.any fun extra => Path.same extra.text path.text then some (stemOf path)
  else none

/-- Register one stream of a live bus. -/
def addBusSource (sha256Hex : Bytes → Text) (disk : Disk) (paths : BusPaths) (path : FilePath)
    (svc : IngestService F) : IngestService F :=
  if !paths.extra.any fun extra => Path.same extra.text path.text then
    svc.addFileSource sha256Hex disk (fileTailId path) path
  else svc.addPinnedFileSource sha256Hex disk (fileTailId path) path (stemOf path)

/-- A bus pins a stream alike under every spelling of its path. -/
theorem BusPaths.pinOf_congr (paths : BusPaths) {p q : FilePath}
    (h : Path.same p.text q.text = true) : paths.pinOf p = paths.pinOf q := by
  have hsame : ∀ extra : FilePath,
      Path.same extra.text p.text = Path.same extra.text q.text := fun extra => by
    simp only [Path.same, Path.same_iff.mp h]
  simp only [pinOf, stemOf, hsame, Path.fileStem_congr h]

end Genaryx.Ingest
