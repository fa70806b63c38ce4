import Genaryx.Base.Words
import Genaryx.Command.Chain
import Genaryx.Lifecycle.Dispatch

/-!
# Journaling a completed action

One place writes the `console_command` of an action that has already happened, with the
operator and the signature of the request. A block or unblock is journaled there with the
agents it was for.
-/

namespace Genaryx.Command

open Base Json Genaryx.Core Lifecycle

variable {F : Type}

/-- What a request and the process around it say about who acts where. -/
structure Ambient where
  actor : Option Text := none
  signature : Option (Text × Text) := none
  orgDomain : Option Text := none
  hostname : Option Text := none

namespace Ambient

variable (a : Ambient)

def signatureOr (fallbackAlg fallbackFpr : Text) : Text × Text :=
  a.signature.getD (fallbackAlg, fallbackFpr)

/-- The default operator, with its last path segment replaced by who signed in. -/
def operatorOr (fallback : Text) : Text :=
  match a.actor with
  | none => fallback
  | some user =>
      match Text.rsplitOnceAt "/" fallback with
      | some (before, _) => before ++ '/' :: user
      | none => user

def org : Text := a.orgDomain.getD "local"

def host : Text := a.hostname.getD "console"

/-- The record of a completed action. -/
def commandRecord (action target : Text) (params : Value F) (verifyResult : Text) :
    CommandRecord F :=
  let signature := a.signatureOr "software-signed" "software-signed"
  { operator := a.operatorOr ("user://".toList ++ a.org ++ "/operator".toList)
    env := a.org
    action := action
    target := target
    params := params
    decision := "allow"
    sigAlg := signature.1
    sigFpr := signature.2
    httpStatus := 200
    verifyResult := verifyResult }

end Ambient

/-- What may fail around one journaled action: opening the store, or recording. -/
structure JournalFaults where
  openStore : Option Error := none
  record : Faults := {}

variable (C : Codec F recursionLimit) (sha256 : Bytes → Bytes) (debug : Text → Text)

/-- Journal one completed action: whether it was written, and why not. -/
def recordConsoleAction (a : Ambient) (faults : JournalFaults) (ts : Text)
    (bus : Option (CommandBus F)) (action target : Text) (params : Value F)
    (verifyResult : Text) : (Bool × Option Text) × Option (CommandBus F) :=
  match bus with
  | none => ((false, some "no live event bus"), none)
  | some w =>
      match faults.openStore with
      | some e => ((false, some (e.display debug)), some w)
      | none =>
          match w.record C sha256 a.org a.host (a.commandRecord action target params verifyResult)
              ts faults.record with
          | (.ok (), w) => ((true, none), some w)
          | (.error e, w) => ((false, some (e.display debug)), some w)

/-- A count of things in memory as a JSON number. -/
def ofUsize (n : Nat) : Value F :=
  .number (.posInt (n % 2 ^ 64) (Nat.mod_lt n (by decide)))

/-- The parameters that a block is journaled with. -/
def blockParams (action : ConsoleAction) : Value F :=
  .object (ofMembers [("policies", ofUsize action.policies),
    ("members", .array (action.members.map .string))])

/-- Put a completed block or unblock on the console's own bus. -/
def journalAction (a : Ambient) (faults : JournalFaults) (ts : Text)
    (bus : Option (CommandBus F)) (action : ConsoleAction) :
    (Bool × Option Text) × Option (CommandBus F) :=
  recordConsoleAction C sha256 debug a faults ts bus action.action action.target
    (blockParams action) action.verifyResult

variable {C sha256 debug}

/-- A command that is recorded has written one line of it. -/
theorem CommandBus.written_of_record {w w' : CommandBus F} {orgDomain host ts : Text}
    {rec : CommandRecord F} {faults : Faults}
    (h : w.record C sha256 orgDomain host rec ts faults = (.ok (), w')) :
    ∃ prevHash, w'.written =
      w.written ++ [consoleCommandLine C orgDomain host rec ts prevHash] := by
  unfold CommandBus.record at h
  split at h
  · cases h
  split at h
  · cases h
  split at h
  · cases h
  · next sink _ =>
      unfold CommandBus.appendChained at h
      dsimp only at h
      split at h
      · cases h
      · cases h
        exact ⟨sink.next, rfl⟩

/-- A journaled action has written one line of its record. -/
theorem written_of_journalAction {a : Ambient} {faults : JournalFaults} {ts : Text}
    {w w' : CommandBus F} {action : ConsoleAction}
    (h : journalAction C sha256 debug a faults ts (some w) action = ((true, none), some w')) :
    ∃ prevHash, w'.written = w.written ++ [consoleCommandLine C a.org a.host
      (a.commandRecord action.action action.target (blockParams action) action.verifyResult) ts
        prevHash] := by
  unfold journalAction recordConsoleAction at h
  split at h
  · cases h
  · next heq =>
      cases heq
      split at h
      · cases h
      · split at h
        · next w'' hrecord =>
            cases h
            exact CommandBus.written_of_record hrecord
        · cases h

end Genaryx.Command

/-!
## Attempts to journal

A privileged command hands its records to the journal one by one. Whether each is written is
told to the operator, and never stops the command.

### Implementation notes

`Chronicle.attempts` is kept for the statements: the records that were handed over so far,
written or not. The time and the faults of each attempt are given by its number.
-/

namespace Genaryx.Command

open Base Json Genaryx.Core Lifecycle

variable {F : Type}

/-- What the journal of this process works with. -/
structure Journaling (F : Type) where
  codec : Codec F recursionLimit
  sha256 : Bytes → Bytes
  debug : Text → Text
  moments : Nat → JournalFaults × Text

/-- The console's bus, if it was seeded, and the records that were handed to it. -/
structure Chronicle (F : Type) where
  bus : Option (CommandBus F)
  attempts : List (CommandRecord F) := []

namespace Chronicle

variable (J : Journaling F) (orgDomain host : Text) (c : Chronicle F) (rec : CommandRecord F)

/-- Journal one record: whether it was written, and why not. -/
def journal : (Bool × Option Text) × Chronicle F :=
  let moment := J.moments c.attempts.length
  let attempts := c.attempts ++ [rec]
  match c.bus with
  | none =>
      ((false, some "no live event bus available (startup seeding did not complete)".toList),
        { c with attempts := attempts })
  | some w =>
      match moment.1.openStore with
      | some e => ((false, some (e.display J.debug)), { c with attempts := attempts })
      | none =>
          match w.record J.codec J.sha256 orgDomain host rec moment.2 moment.1.record with
          | (.ok (), w) => ((true, none), ⟨some w, attempts⟩)
          | (.error e, w) => ((false, some (e.display J.debug)), ⟨some w, attempts⟩)

/-- Each call of the journal is one attempt, whatever becomes of it. -/
@[simp]
theorem attempts_journal : (c.journal J orgDomain host rec).2.attempts = c.attempts ++ [rec] := by
  unfold journal
  dsimp only
  split
  · rfl
  · split
    · rfl
    · split <;> rfl

end Chronicle

end Genaryx.Command
