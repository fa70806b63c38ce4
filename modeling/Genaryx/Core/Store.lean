import Genaryx.Base.Utf8
import Genaryx.Core.Event
import Mathlib.Data.List.AList

/-!
# The console's local store

Three tables: the events in insertion order, unique under their dedupe key, the
quarantined lines, and one read offset for each tailed file.

## Implementation notes

`sha256Hex` stands for the lowercase hexadecimal SHA-256 digest. The columns that
`insert_batch` derives from the event are not stored a second time.
-/

namespace Genaryx.Core

variable {F : Type} (sha256Hex : Bytes → Text)

/-- What the offset journal remembers about one tailed file. -/
structure SourceState where
  offset : Nat
  inode : Option Nat
  headSha : Option Text
  deriving DecidableEq

structure QuarantineRow where
  env : Text
  file : Option Text
  off : Option Nat
  raw : Text
  reason : Text
  ts : Text
  deriving DecidableEq

/-- The text whose digest is the dedupe key: where the line came from and what it said. -/
def dedupeText (env : Text) (file : Option Text) (offset : Option Nat) (raw : Text) : Text :=
  env ++ '\x00' :: (file.getD [] ++ '\x00' :: ((offset.map Text.decimal).getD [] ++
    '\x00' :: raw))

def dedupeKey (env : Text) (file : Option Text) (offset : Option Nat) (raw : Text) : Text :=
  sha256Hex (Utf8.encode (dedupeText env file offset raw))

/-- The bytes that the dedupe key of an event row is the digest of. -/
def ConsoleEvent.keyBytes (e : ConsoleEvent F) : Bytes :=
  Utf8.encode (dedupeText e.provenance.env e.provenance.file e.provenance.offset e.raw)

/-- The dedupe key an event row is stored under. -/
def ConsoleEvent.dedupe (e : ConsoleEvent F) : Text :=
  dedupeKey sha256Hex e.provenance.env e.provenance.file e.provenance.offset e.raw

structure Store (F : Type) where
  events : List (ConsoleEvent F) := []
  quarantined : List QuarantineRow := []
  sourceOffsets : AList (fun _ : Text => SourceState) := ∅

namespace Store

/-- One `INSERT OR IGNORE` into `events`, and how many rows it changed. -/
def insertEvent (events : List (ConsoleEvent F)) (e : ConsoleEvent F) :
    List (ConsoleEvent F) × Nat :=
  if e.dedupe sha256Hex ∈ events.map (ConsoleEvent.dedupe sha256Hex) then (events, 0)
  else (events ++ [e], 1)

/-- The insert loop, with the rows written so far. -/
def insertEvents : List (ConsoleEvent F) → List (ConsoleEvent F) → Nat →
    List (ConsoleEvent F) × Nat
  | events, [], inserted => (events, inserted)
  | events, e :: rest, inserted =>
      let here := insertEvent sha256Hex events e
      insertEvents here.1 rest (inserted + here.2)

/-- Insert a batch in one transaction: all of it or, on a failure, none. An empty batch
opens no transaction. -/
def insertBatch (failure : Option Text) (batch : List (ConsoleEvent F)) (s : Store F) :
    Except Error Nat × Store F :=
  if batch.isEmpty then (.ok 0, s)
  else
    match failure with
    | some message => (.error (.store message), s)
    | none =>
        let table := insertEvents sha256Hex s.events batch 0
        (.ok table.2, { s with events := table.1 })

/-- File one refused line. -/
def quarantine (failure : Option Text) (row : QuarantineRow) (s : Store F) :
    Except Error Unit × Store F :=
  match failure with
  | some message => (.error (.store message), s)
  | none => (.ok (), { s with quarantined := s.quarantined ++ [row] })

/-- What the offset journal holds about a file. -/
def getSourceState (file : Text) (s : Store F) : Option SourceState :=
  s.sourceOffsets.lookup file

/-- Journal a file's read offset; the latest call wins. -/
def setOffset (file : Text) (state : SourceState) (s : Store F) : Store F :=
  { s with sourceOffsets := s.sourceOffsets.insert file state }

end Store

variable {sha256Hex}

/-- Without a NUL in the file names, what is digested in one environment tells apart every file,
offset and line. -/
theorem dedupeText_inj {env file file' raw raw' : Text} {offset offset' : Nat}
    (hfile : '\x00' ∉ file) (hfile' : '\x00' ∉ file')
    (h : dedupeText env (some file) (some offset) raw =
      dedupeText env (some file') (some offset') raw') :
    file = file' ∧ offset = offset' ∧ raw = raw' := by
  simp only [dedupeText, List.append_cancel_left_eq, List.cons.injEq, true_and,
    Option.getD_some, Option.map_some] at h
  obtain ⟨hsame, hrest⟩ := Text.append_cons_inj hfile hfile' h
  have hdigits : ∀ n, '\x00' ∉ Text.decimal n := fun n hmem =>
    absurd (Text.isDigit_of_mem_decimal hmem) (by decide)
  obtain ⟨hoffset, hraw⟩ := Text.append_cons_inj (hdigits _) (hdigits _) hrest
  exact ⟨hsame, Text.decimal_injective hoffset, hraw⟩

namespace Store

theorem mem_insertEvents_of_mem {events batch : List (ConsoleEvent F)} {inserted : Nat}
    {e : ConsoleEvent F} (h : e ∈ events) :
    e ∈ (insertEvents sha256Hex events batch inserted).1 := by
  induction batch generalizing events inserted with
  | nil => exact h
  | cons b rest ih =>
      rw [insertEvents, insertEvent]
      split
      · exact ih h
      · exact ih (List.mem_append_left _ h)

/-- A row of the table after a batch was there before or is in the batch. -/
theorem mem_of_mem_insertEvents {events batch : List (ConsoleEvent F)} {inserted : Nat}
    {e : ConsoleEvent F} (h : e ∈ (insertEvents sha256Hex events batch inserted).1) :
    e ∈ events ∨ e ∈ batch := by
  induction batch generalizing events inserted with
  | nil => exact Or.inl h
  | cons b rest ih =>
      rw [insertEvents, insertEvent] at h
      split at h
      · rcases ih h with hold | hnew
        · exact Or.inl hold
        · exact Or.inr (List.mem_cons_of_mem _ hnew)
      · rcases ih h with hold | hnew
        · rcases List.mem_append.mp hold with hold | hb
          · exact Or.inl hold
          · exact Or.inr (List.mem_singleton.mp hb ▸ List.mem_cons_self)
        · exact Or.inr (List.mem_cons_of_mem _ hnew)

/-- A batch leaves the rows that were there and adds those of its events that are not stored. -/
theorem insertEvents_eq_append (sha256Hex : Bytes → Text) (events batch : List (ConsoleEvent F))
    (inserted : Nat) :
    ∃ rows, (insertEvents sha256Hex events batch inserted).1 = events ++ rows ∧
      ∀ e ∈ rows, e.dedupe sha256Hex ∉ events.map (ConsoleEvent.dedupe sha256Hex) := by
  induction batch generalizing events inserted with
  | nil => exact ⟨[], (List.append_nil events).symm, fun e he => absurd he List.not_mem_nil⟩
  | cons b rest ih =>
      rw [insertEvents, insertEvent]
      split
      · exact ih events _
      · next hkey =>
          obtain ⟨rows, hrows, hnew⟩ := ih (events ++ [b]) (inserted + 1)
          refine ⟨b :: rows, ?_, fun e he hmem => ?_⟩
          · rw [hrows, List.append_assoc, List.singleton_append]
          · rcases List.mem_cons.mp he with rfl | he
            · exact hkey hmem
            · refine hnew e he ?_
              rw [List.map_append]
              exact List.mem_append_left _ hmem

/-- After a batch every event of it is stored, itself or under the same dedupe key. -/
theorem exists_dedupe_of_mem_batch (sha256Hex : Bytes → Text)
    (events : List (ConsoleEvent F)) {batch : List (ConsoleEvent F)} (inserted : Nat) {e : ConsoleEvent F} (h : e ∈ batch) :
    ∃ row ∈ (insertEvents sha256Hex events batch inserted).1,
      row.dedupe sha256Hex = e.dedupe sha256Hex := by
  induction batch generalizing events inserted with
  | nil => cases h
  | cons b rest ih =>
      rw [insertEvents, insertEvent]
      rcases List.mem_cons.mp h with rfl | hrest
      · split
        · next hkey =>
            obtain ⟨row, hrow, hsame⟩ := List.mem_map.mp hkey
            exact ⟨row, mem_insertEvents_of_mem hrow, hsame⟩
        · exact ⟨e, mem_insertEvents_of_mem (List.mem_append_right _ (List.mem_singleton_self e)),
            rfl⟩
      · exact ih _ _ hrest

end Store

end Genaryx.Core
