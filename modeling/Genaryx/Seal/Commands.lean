import Genaryx.Base.Digest
import Genaryx.Base.Transition
import Genaryx.Base.Utf8
import Genaryx.Command.Journal
import Genaryx.Json.Read
import Genaryx.Seal.Numbers

/-!
# Sealed packs

A pack is sealed as its canonical text and the digest of that text, and verified by reading
the text back. A sealed pack verifies just when it nests no deeper than the reader goes and
no double in it is written as an integer that reads back as one past `2^53 - 1`.
-/

namespace Genaryx.Seal

open Json

variable {F : Type}

/-- The pack's format name, which a reader checks before anything else. -/
def packFormat : Text := "genaryx.case-pack/1"

/-- The largest pack that is sealed, in bytes of canonical text. -/
def packMaxBytes : Nat := 1024 * 1024

/-- A sealed pack. -/
structure Sealed where
  canonical : Text
  digest : Text
  deriving DecidableEq

/-- Why a pack was not sealed. -/
inductive SealError
  | notCanonical (e : JcsError)
  | tooLarge (bytes : Nat)
  deriving DecidableEq

/-- Why a document is not the pack its digest names. -/
inductive VerifyError
  | notJson
  | notCanonical
  | wrongFormat
  | digestDiffers (found : Text)
  deriving DecidableEq

variable (sha256 : Bytes → Bytes) (D : Double F)

/-- `sha256:<hex>` of a text. -/
def digestOfText (text : Text) : Text := "sha256:" ++ hexLower (sha256 (Utf8.encode text))

/-- Canonicalise the pack and take its digest. -/
def sealValue (pack : Value F) : Except SealError Sealed :=
  match canonical D pack with
  | .error e => .error (.notCanonical e)
  | .ok text =>
      if packMaxBytes < Utf8.len text then .error (.tooLarge (Utf8.len text))
      else .ok ⟨text, digestOfText sha256 text⟩

/-- Whether a text is the pack a digest names: JSON, in canonical form, of this format, and
hashing to the digest. -/
def verify (R : Reader D.ofDecimal recursionLimit) (text digest : Text) :
    Except VerifyError Unit :=
  match R.fromStr text with
  | none => .error .notJson
  | some value =>
      if canonical D value ≠ .ok text then .error .notCanonical
      else if (value.get "format").bind Value.asStr ≠ some packFormat then .error .wrongFormat
      else
        let found := digestOfText sha256 text
        if found ≠ digest then .error (.digestDiffers found) else .ok ()

variable {sha256 D}

theorem sealValue_eq_ok {pack : Value F} {s : Sealed} (h : sealValue sha256 D pack = .ok s) :
    canonical D pack = .ok s.canonical ∧ s.digest = digestOfText sha256 s.canonical := by
  rw [sealValue] at h
  cases htext : canonical D pack with
  | error e => rw [htext] at h; cases h
  | ok text =>
      rw [htext] at h
      simp only at h
      split at h
      · cases h
      · cases h; exact ⟨rfl, rfl⟩

/-- A sealed pack verifies just when it nests no deeper than the reader goes and every double
in it is reread exactly. -/
theorem verify_sealed_iff (R : Reader D.ofDecimal recursionLimit) {pack : Value F} {s : Sealed}
    (hordered : pack.Ordered) (hformat : (pack.get "format").bind Value.asStr = some packFormat)
    (hseal : sealValue sha256 D pack = .ok s) :
    verify sha256 D R s.canonical s.digest = .ok () ↔
      pack.depth ≤ recursionLimit ∧ pack.AllNumbers (RereadsExactly D) := by
  obtain ⟨hcanonical, hdigest⟩ := sealValue_eq_ok hseal
  have hread := R.fromStr_of_denotes (denotes_writeValue pack hcanonical hordered)
  rw [reread, Value.depth_mapNumbers] at hread
  obtain ⟨hexact, hnot⟩ := writeValue_reread pack hcanonical
  have hget : ((reread D pack).get "format").bind Value.asStr = some packFormat := by
    have hstr : Value.asStr ∘ Value.mapNumbers (rereadNumber D) = Value.asStr :=
      funext fun v => Value.asStr_mapNumbers _ v
    rw [reread, Value.get_mapNumbers, Option.bind_map, hstr, hformat]
  rw [verify, hread]
  by_cases hdepth : pack.depth ≤ recursionLimit
  · rw [if_pos hdepth]
    by_cases hall : pack.AllNumbers (RereadsExactly D)
    · have hsame : canonical D (reread D pack) = .ok s.canonical := hexact hall
      rw [reread] at hsame hget
      simp only [hsame, ne_eq, not_true_eq_false, if_false, hget, hdigest, hdepth, hall,
        and_self]
    · have hrefused : canonical D (reread D pack) = .error .integerNotExact := hnot hall
      rw [reread] at hrefused
      simp only [hrefused, ne_eq, reduceCtorEq, not_false_eq_true, if_true, hall, and_false]
  · rw [if_neg hdepth]
    simp only [reduceCtorEq, hdepth, false_and]

section Sample

/-- A double that is not an integer. -/
def half : Decimal := .nonzero false 5 (-1) (by decide)

/-- The double `9007199254740992.0`, which is `2^53`. -/
def twoPow53 : Decimal := .nonzero false 9007199254740992 0 (by decide)

/-- A pack of the format with one more member. -/
def samplePack (x : Decimal) : Value Decimal :=
  .object [("format", .string packFormat), ("x", .array [.number (.float x)])]

def sampleReader : Reader Decimal.double.ofDecimal recursionLimit :=
  Reader.ofRead Decimal.ofDecimal recursionLimit

end Sample

theorem verify_sealed_half :
    ∃ s, sealValue id Decimal.double (samplePack half) = .ok s ∧
      verify id Decimal.double sampleReader s.canonical s.digest = .ok () := by
  obtain ⟨s, hseal⟩ : ∃ s, sealValue id Decimal.double (samplePack half) = .ok s := ⟨_, rfl⟩
  refine ⟨s, hseal, (verify_sealed_iff sampleReader ?_ rfl hseal).mpr ⟨by decide, ?_⟩⟩
  · exact ⟨by decide, trivial, ⟨trivial, trivial⟩, trivial⟩
  · exact ⟨trivial, ⟨fun _ n hn => (by cases hn), trivial⟩, trivial⟩

theorem sealed_twoPow53_refused :
    ¬ ∀ s, sealValue id Decimal.double (samplePack twoPow53) = .ok s →
      verify id Decimal.double sampleReader s.canonical s.digest = .ok () := by
  intro h
  exact absurd (h _ rfl) (by decide +kernel)

end Genaryx.Seal

/-!
## Sealing a case and reading a pack back

A seal writes one `console.case_close` line in the console's chain and then one file named by
the digest, by way of a temporary file. Between two steps of one call any other call may run,
and the process may stop.

### Implementation notes

What the planes and the proofs answer is given to the call that asks. A call is as many steps
as there are operations on the journal and on the directory; the text is written in chunks.
`Call.sealed` and `Call.clean` have no counterpart in the program: the pack that a call is
of, and whether no operation of the call has failed.
-/

namespace Genaryx.Seal

open Base Json Genaryx.Core Command

variable {F : Type}

def caseCloseAction : Text := "console.case_close"

/-- The longest decision note, in characters. -/
def noteMaxChars : Nat := 2000

/-- The most proofs one pack holds. -/
def proofsMax : Nat := 4

/-- What the operator says was done. -/
inductive Outcome
  | applied
  | declined
  | deferred
  deriving DecidableEq

def Outcome.asStr : Outcome → Text
  | .applied => "applied".toList
  | .declined => "declined".toList
  | .deferred => "deferred".toList

/-- The decision, in the operator's words. -/
structure Decision where
  outcome : Outcome
  note : Text
  deriving DecidableEq

/-- The decision as it is sealed. -/
def Decision.checked (d : Decision) : Except Text Decision :=
  let note := Text.trim d.note
  if noteMaxChars < note.length then .error "the note is longer than 2000 characters".toList
  else if note.any fun c => Text.isControl c && c ≠ '\n' then
    .error "the note holds a control character".toList
  else .ok { d with note }

/-- A proof the operator asks to have sealed with the case. -/
inductive ProofSpec
  | policy (candidate : Text)
  | budget (perRunUsd perStepUsd : Option Text) (maxSteps : Option UInt32)
  deriving DecidableEq

/-- A proof as sealed: what was asked and what came of it. -/
structure ProofRecord (F : Type) where
  kind : Text
  request : Value F
  result : Value F

def ProofRecord.toValue (r : ProofRecord F) : Value F :=
  .object (ofMembers [("kind", .string r.kind), ("request", r.request), ("result", r.result)])

/-- An optional field as JSON. -/
def optional (toValue : α → Value F) : Option α → Value F
  | none => .null
  | some a => toValue a

/-- The record of a proof that came to a result. -/
def ProofSpec.record (incidentId : Text) (result : Value F) : ProofSpec → ProofRecord F
  | .policy candidate =>
      ⟨"policy", .object (ofMembers [("incident_id", .string incidentId),
        ("candidate", .string candidate)]), result⟩
  | .budget perRunUsd perStepUsd maxSteps =>
      ⟨"budget", .object (ofMembers [("incident_id", .string incidentId),
        ("per_run_usd", optional .string perRunUsd),
        ("per_step_usd", optional .string perStepUsd),
        ("max_steps", optional (fun n => ofUsize n.toNat) maxSteps)]), result⟩

/-- A case file, with the digest it carries. -/
structure CaseFile (F : Type) where
  value : Value F
  digest : Text

/-- The pack, as a JSON value. -/
def buildPack (case : CaseFile F) (proofs : List (ProofRecord F)) (decision : Decision)
    (sealedBy sealedAt : Text) : Value F :=
  .object (ofMembers [
    ("format", .string packFormat),
    ("case", case.value),
    ("proofs", .array (proofs.map ProofRecord.toValue)),
    ("decision", .object (ofMembers [
      ("outcome", .string decision.outcome.asStr),
      ("note", .string decision.note),
      ("said_by", .string sealedBy)])),
    ("sealed_by", .string sealedBy),
    ("sealed_at", .string sealedAt)])

/-- A request to seal a case. -/
structure SealRequest where
  incidentId : Text
  proofs : List ProofSpec
  decision : Decision

/-- Why nothing was sealed. -/
inductive SealFailure
  | refused (reason : Text)
  | case (error : Text)
  | notCanonical
  | tooLarge (bytes : Nat)
  | notJournaled (reason : Text)
  deriving DecidableEq

/-- A sealed case. -/
structure SealedCase where
  digest : Text
  bytes : Nat
  stored : Bool
  storeError : Option Text
  pack : Text
  deriving DecidableEq

/-- A pack that is ready to be journaled. -/
structure Prepared (F : Type) where
  pack : Sealed
  params : Value F
  verifyResult : Text

/-- What the planes answer to one call, and who makes it when. -/
structure Asked (F : Type) where
  case : Except Text (CaseFile F)
  proof : ProofSpec → Value F
  ambient : Ambient
  sealedAt : Text

variable (sha256 : Bytes → Bytes) (D : Double F)

/-- The steps of `case_seal_at` before its line in the chain. -/
def prepare (request : SealRequest) (asked : Asked F) : Except SealFailure (Prepared F) :=
  match request.decision.checked with
  | .error reason => .error (.refused reason)
  | .ok decision =>
      if proofsMax < request.proofs.length then
        .error (.refused "a pack holds at most four proofs".toList)
      else
        match asked.case with
        | .error error => .error (.case error)
        | .ok case =>
            let records := request.proofs.map fun spec =>
              spec.record request.incidentId (asked.proof spec)
            let by_ := asked.ambient.operatorOr
              ("user://".toList ++ asked.ambient.org ++ "/operator".toList)
            match sealValue sha256 D (buildPack case records decision by_ asked.sealedAt) with
            | .error (.notCanonical _) => .error .notCanonical
            | .error (.tooLarge bytes) => .error (.tooLarge bytes)
            | .ok pack =>
                .ok {
                  pack
                  params := .object (ofMembers [
                    ("incident_id", .string request.incidentId),
                    ("case_digest", .string case.digest),
                    ("pack_bytes", ofUsize (Utf8.len pack.canonical)),
                    ("proofs", ofUsize records.length),
                    ("outcome", .string decision.outcome.asStr)])
                  verifyResult := "sealed:".toList ++ decision.outcome.asStr }

/-- The directory `case-packs`: the packs under the digits of their digests, and the
temporary files under digits and process ids. -/
structure Storage where
  packs : Text → Option Bytes := fun _ => none
  temporaries : Text → Nat → Option Bytes := fun _ _ => none

namespace Storage

variable (d : Storage)

def setTemporary (hex : Text) (pid : Nat) (bytes : Option Bytes) : Storage :=
  { d with temporaries := fun h p => if h = hex ∧ p = pid then bytes else d.temporaries h p }

/-- Rename a temporary file into place. -/
def rename (hex : Text) (pid : Nat) (bytes : Bytes) : Storage :=
  { (d.setTemporary hex pid none) with
    packs := fun h => if h = hex then some bytes else d.packs h }

end Storage

/-- Where a call stands: its next operation. -/
inductive Pc (F : Type)
  | journal (ambient : Ambient) (prepared : Prepared F)
  | createDir (s : Sealed)
  | exists (s : Sealed) (hex : Text)
  | read (s : Sealed) (hex : Text)
  | openTemporary (s : Sealed) (hex : Text)
  | write (s : Sealed) (hex : Text) (written : Nat)
  | rename (s : Sealed) (hex : Text)
  | finished (result : Except SealFailure SealedCase)

structure Call (F : Type) where
  pc : Pc F
  sealed : Option Sealed
  clean : Bool := true

/-- A console: its process id, its journal, its store directory and the calls it runs. -/
structure Console (F : Type) where
  pid : Nat
  bus : Option (CommandBus F)
  store : Option Storage
  calls : Nat → Option (Call F) := fun _ => none

/-- What may go wrong with one operation. `io` is the error of an operation on the directory,
`cleanup` says that the removal of the temporary file fails too, and `chunk` is how much a
write takes. -/
structure Conditions where
  ts : Text := []
  journal : JournalFaults := {}
  io : Option Text := none
  cleanup : Bool := false
  chunk : Nat := 0

/-- The operations of a call fail neither on the journal nor on the directory. -/
def Conditions.quiet (e : Conditions) : Bool :=
  e.journal.openStore.isNone && e.journal.record.insertCommand.isNone &&
    e.journal.record.createDir.isNone && e.journal.record.openFile.isNone &&
    e.journal.record.write.isNone && e.io.isNone

namespace Sealed

variable (s : Sealed)

/-- The case of a pack whose file was not written. -/
def unstored (error : Text) : Pc F :=
  .finished (.ok ⟨s.digest, Utf8.len s.canonical, false, some error, s.canonical⟩)

/-- The case of a pack whose file is there. -/
def stored : Pc F :=
  .finished (.ok ⟨s.digest, Utf8.len s.canonical, true, none, s.canonical⟩)

end Sealed

variable (C : Codec F recursionLimit) (debug : Text → Text)

namespace Storage

variable (d : Storage)

/-- What a failed operation leaves of a temporary file. -/
def cleaned (e : Conditions) (hex : Text) (pid : Nat) : Storage :=
  if e.cleanup then d else d.setTemporary hex pid none

/-- One operation of `store_pack` in the directory. -/
def advance (pid : Nat) (e : Conditions) : Pc F → Option (Storage × Pc F)
  | .exists s hex =>
      if (d.packs hex).isSome && e.io.isNone then some (d, .read s hex)
      else some (d, .openTemporary s hex)
  | .read s hex =>
      match e.io, (d.packs hex).bind Utf8.fromUtf8 with
      | some error, _ => some (d, s.unstored error)
      | none, none => some (d, s.unstored "stream did not contain valid UTF-8")
      | none, some held =>
          if held = s.canonical then some (d, s.stored)
          else some (d, s.unstored "a different document is already stored under this digest")
  | .openTemporary s hex =>
      match e.io, d.temporaries hex pid with
      | some error, _ => some (d, s.unstored error)
      | none, some _ => some (d, s.unstored "File exists (os error 17)")
      | none, none => some (d.setTemporary hex pid (some []), .write s hex 0)
  | .write s hex written =>
      let bytes := Utf8.encode s.canonical
      let reached := written + e.chunk
      match e.io with
      | some error =>
          some ((d.setTemporary hex pid (some (bytes.take reached))).cleaned e hex pid,
            s.unstored error)
      | none =>
          -- All bytes are in the file: what is left is to sync it.
          if bytes.length ≤ written then some (d, .rename s hex)
          else some (d.setTemporary hex pid (some (bytes.take reached)), .write s hex reached)
  | .rename s hex =>
      match e.io, d.temporaries hex pid with
      | some error, _ => some (d.cleaned e hex pid, s.unstored error)
      | none, none => some (d.cleaned e hex pid, s.unstored "No such file or directory (os error 2)")
      | none, some bytes => some (d.rename hex pid bytes, s.stored)
  | _ => none

end Storage

/-- What happens to a console. -/
inductive SealAction (F : Type)
  | caseSeal (i : Nat) (request : SealRequest) (asked : Asked F)
  | advance (i : Nat) (e : Conditions)
  | stop (pid : Nat)

namespace Console

variable (w : Console F)

def setCall (i : Nat) (call : Call F) : Console F :=
  { w with calls := fun j => if j = i then some call else w.calls j }

/-- The next operation of a call: its place, the journal and the directory after it. -/
def operate (e : Conditions) : Pc F → Option (Console F × Pc F)
  | .journal ambient prepared =>
      let done := recordConsoleAction C sha256 debug ambient e.journal e.ts w.bus
        caseCloseAction prepared.pack.digest prepared.params prepared.verifyResult
      if done.1.1 then some ({ w with bus := done.2 }, .createDir prepared.pack)
      else some ({ w with bus := done.2 },
        .finished (.error (.notJournaled (done.1.2.getD []))))
  | .createDir s =>
      match w.store with
      | none => some (w, s.unstored "the console has no store directory")
      | some _ =>
          match Text.stripPrefix "sha256:" s.digest with
          | none => some (w, s.unstored "the digest is not a sha256")
          | some hex =>
              match e.io with
              | some error => some (w, s.unstored error)
              | none => some (w, .exists s hex)
  | pc => w.store.bind fun d =>
      (d.advance w.pid e pc).map fun done => ({ w with store := some done.1 }, done.2)

def step (w : Console F) : SealAction F → Option (Console F)
  | .caseSeal i request asked =>
      match w.calls i with
      | some _ => none
      | none =>
          match prepare sha256 D request asked with
          | .error failure => some (w.setCall i ⟨.finished (.error failure), none, true⟩)
          | .ok prepared =>
              some (w.setCall i ⟨.journal asked.ambient prepared, some prepared.pack, true⟩)
  | .advance i e =>
      (w.calls i).bind fun call =>
        (w.operate sha256 C debug e call.pc).map fun done =>
          done.1.setCall i ⟨done.2, call.sealed, call.clean && e.quiet⟩
  | .stop pid =>
      some { w with
        pid
        bus := w.bus.map fun bus => { bus with sink := none }
        calls := fun _ => none }

/-- A console that has just started for the first time. -/
def start (pid : Nat) (bus : Option (CommandBus F)) (hasStore : Bool) : Console F where
  pid
  bus
  store := if hasStore then some {} else none

/-- The journal holds the line of a sealed case with this digest. -/
def Journaled (digest : Text) : Prop :=
  ∃ bus, w.bus = some bus ∧ ∃ orgDomain host ts prevHash, ∃ rec : CommandRecord F,
    rec.action = caseCloseAction ∧ rec.target = digest ∧
      consoleCommandLine C orgDomain host rec ts prevHash ∈ bus.written

/-- The bytes of a stored pack. -/
def packAt (hex : Text) : Option Bytes := w.store.bind fun d => d.packs hex

/-- Every stored pack is the whole text that hashes to its name, and its line is in the
journal. -/
def HoldsPacks : Prop :=
  ∀ hex bytes, w.packAt hex = some bytes →
    (∃ text, bytes = Utf8.encode text ∧ digestOfText sha256 text = "sha256:".toList ++ hex) ∧
      w.Journaled C ("sha256:".toList ++ hex)

/-- The file of a sealed pack is there. -/
def Stores (s : Sealed) : Prop :=
  ∃ hex, s.digest = "sha256:".toList ++ hex ∧ w.packAt hex = some (Utf8.encode s.canonical)

/-- Every call that sealed a pack and met no fault has ended with its file stored. -/
def EndsStored : Prop :=
  ∀ i s result, w.calls i = some ⟨.finished result, some s, true⟩ → w.Stores s

/-- The console has a journal and a store directory, and the name of the temporary file that
is opened is free. -/
def keepsFree (w : Console F) : SealAction F → Bool
  | .advance i _ =>
      match (w.calls i).map Call.pc, w.store with
      | some (.journal _ _), _ => w.bus.isSome
      | some (.createDir _), store => store.isSome
      | some (.openTemporary _ hex), some d => (d.temporaries hex w.pid).isNone
      | _, _ => true
  | _ => true

end Console

/-- Why a stored pack was not handed back. -/
inductive PackError
  | badDigest
  | noStore
  | notFound
  | unreadable (reason : Text)
  | notThePack (why : Text)
  deriving DecidableEq

/-- `sha256:` and 64 lowercase hex digits. -/
def isDigest (digest : Text) : Bool :=
  match Text.stripPrefix "sha256:" digest with
  | none => false
  | some hex => hex.length = 64 && hex.all fun c => c.isDigit || ('a' ≤ c && c ≤ 'f')

/-- The text of an error that keeps a pack from being handed back. -/
def VerifyError.why : VerifyError → Text
  | .notJson => "the file is not JSON".toList
  | .notCanonical => "the file is not in canonical form".toList
  | .wrongFormat => "the file is not a case pack".toList
  | .digestDiffers _ => "the file hashes to another digest".toList

/-- Read a sealed pack back, only if it is still the pack its digest names. -/
def casePack (R : Reader D.ofDecimal recursionLimit) (digest : Text) (store : Option Storage)
    (io : Option Text) : Except PackError Text :=
  if !isDigest digest then .error .badDigest
  else
    match store with
    | none => .error .noStore
    | some d =>
        match io, d.packs ((Text.stripPrefix "sha256:" digest).getD []) with
        | some reason, _ => .error (.unreadable reason)
        | none, none => .error .notFound
        | none, some bytes =>
            match Utf8.fromUtf8 bytes with
            | none => .error (.unreadable "stream did not contain valid UTF-8")
            | some text =>
                match verify sha256 D R text digest with
                | .error e => .error (.notThePack e.why)
                | .ok () => .ok text

end Genaryx.Seal
