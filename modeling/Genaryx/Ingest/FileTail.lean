import Genaryx.Base.Framing
import Genaryx.Core.Store

/-!
# Tailing one NDJSON file

A tail opens its file anew on every poll, yields the complete lines past its offset, and
leaves a trailing partial line for the next poll. Its offset counts raw bytes, while the
records it yields hold the decoded text of each line.
-/

namespace Genaryx.Ingest

open Base Genaryx.Core

/-- A path as the operating system takes it: no NUL. -/
structure FilePath where
  text : Text
  nulFree : '\x00' ∉ text
  deriving DecidableEq

structure OnDisk where
  bytes : Bytes
  inode : Option Nat
  deriving DecidableEq

/-- The file each path leads to, if there is one. -/
abbrev Disk := Text → Option OnDisk

/-- A raw line with the file and the byte offset it starts at. -/
structure RawRecord where
  raw : Text
  file : Option Text
  offset : Option Nat
  deriving DecidableEq

structure FileTail where
  id : Text
  path : FilePath
  offset : Nat
  deriving DecidableEq

/-- Where the operating system refuses a poll: opening the file or reading its length, or
reading past the offset. -/
inductive PollFault
  | opening (message : Text)
  | reading (message : Text)
  deriving DecidableEq

/-- The rule that a line ends in a line feed. -/
abbrev newlines : Framing UInt8 := Framing.delimited 10

/-- The loop of `poll` over the bytes read, with the current line so far and the offset
it starts at. -/
def takeLines (fileKey : Text) : Bytes → Nat → Bytes → List RawRecord × Nat
  | _, cursor, [] => ([], cursor)
  | line, cursor, b :: rest =>
      if b ≠ 10 then takeLines fileKey (line ++ [b]) cursor rest
      else
        let tail := takeLines fileKey [] (cursor + (line.length + 1)) rest
        (⟨Utf8.fromUtf8Lossy line, some fileKey, some cursor⟩ :: tail.1, tail.2)

/-- A file shorter than the offset was replaced or truncated, so the tail starts over. -/
def FileTail.rewound (t : FileTail) (file : OnDisk) : FileTail :=
  if file.bytes.length < t.offset then { t with offset := 0 } else t

/-- Poll for new complete lines; a missing file has none. -/
def FileTail.poll (fault : Option PollFault) (disk : Disk) (t : FileTail) :
    Except Error (List RawRecord) × FileTail :=
  match fault, disk t.path.text with
  | some (.opening message), _ => (.error (.io message), t)
  | _, none => (.ok [], t)
  | fault, some file =>
      let t := t.rewound file
      if file.bytes.length = t.offset then (.ok [], t)
      else
        match fault with
        | some (.reading message) => (.error (.io message), t)
        | _ =>
            let taken := takeLines t.path.text [] t.offset (file.bytes.drop t.offset)
            (.ok taken.1, { t with offset := taken.2 })

/-- The records of consecutive lines, the first of which starts at `cursor`. -/
def recordsOf (fileKey : Text) (cursor : Nat) : List Bytes → List RawRecord
  | [] => []
  | line :: rest =>
      ⟨Utf8.fromUtf8Lossy line, some fileKey, some cursor⟩ ::
        recordsOf fileKey (cursor + (line.length + 1)) rest

theorem recordsOf_append (fileKey : Text) (cursor : Nat) (xs ys : List Bytes) :
    recordsOf fileKey cursor (xs ++ ys) =
      recordsOf fileKey cursor xs ++ recordsOf fileKey (cursor + Framing.extent xs) ys := by
  induction xs generalizing cursor with
  | nil => simp [recordsOf]
  | cons x xs ih => simp [recordsOf, ih, Nat.add_assoc]

theorem file_of_mem_recordsOf {fileKey : Text} {cursor : Nat} {lines : List Bytes}
    {r : RawRecord} (h : r ∈ recordsOf fileKey cursor lines) :
    r.file = some fileKey ∧ ∃ offset, r.offset = some offset := by
  induction lines generalizing cursor with
  | nil => cases h
  | cons line rest ih =>
      rcases List.mem_cons.mp h with rfl | hrest
      · exact ⟨rfl, cursor, rfl⟩
      · exact ih hrest

/-- The loop yields the complete lines in order and ends just past the last of them. -/
theorem takeLines_eq (fileKey : Text) {line : Bytes} (hline : 10 ∉ line) (cursor : Nat)
    (buf : Bytes) : takeLines fileKey line cursor buf =
      (recordsOf fileKey cursor (newlines.split (line ++ buf)).1,
        cursor + Framing.extent (newlines.split (line ++ buf)).1) := by
  induction buf generalizing line cursor with
  | nil => simp [takeLines, Framing.delimited_split_of_not_mem hline, recordsOf]
  | cons b rest ih =>
      by_cases hb : b = 10
      · subst hb
        rw [takeLines, if_neg (by simp), ih (List.not_mem_nil),
          Framing.delimited_split_append_cons hline]
        simp [recordsOf, Nat.add_assoc]
      · have hgrown : 10 ∉ line ++ [b] := by
          simp only [List.mem_append, List.mem_singleton, not_or]
          exact ⟨hline, Ne.symm hb⟩
        rw [takeLines, if_pos hb, ih hgrown, List.append_assoc]
        rfl

/-- The complete lines of a file from an offset on. -/
def linesFrom (offset : Nat) (file : OnDisk) : List Bytes :=
  (newlines.split (file.bytes.drop offset)).1

@[simp] theorem linesFrom_length (file : OnDisk) :
    linesFrom file.bytes.length file = [] := by
  rw [linesFrom, List.drop_length]
  exact congrArg Prod.fst (Framing.delimited_split_of_not_mem List.not_mem_nil)

@[simp] theorem FileTail.rewound_path (t : FileTail) (file : OnDisk) :
    (t.rewound file).path = t.path := by
  unfold rewound
  split <;> rfl

@[simp] theorem FileTail.rewound_id (t : FileTail) (file : OnDisk) :
    (t.rewound file).id = t.id := by
  unfold rewound
  split <;> rfl

theorem FileTail.rewound_eq (t : FileTail) (file : OnDisk) :
    t.rewound file = { t with offset := (t.rewound file).offset } := by
  unfold rewound
  split <;> rfl

theorem FileTail.rewound_of_le {t : FileTail} {file : OnDisk}
    (h : t.offset ≤ file.bytes.length) : t.rewound file = t :=
  if_neg (Nat.not_lt.mpr h)

/-- The complete lines past the offset. -/
def FileTail.newLines (disk : Disk) (t : FileTail) : List Bytes :=
  match disk t.path.text with
  | none => []
  | some file => linesFrom (t.rewound file).offset file

/-- The complete lines past the offset, as records. -/
def FileTail.newRecords (disk : Disk) (t : FileTail) : List RawRecord :=
  match disk t.path.text with
  | none => []
  | some file =>
      recordsOf t.path.text (t.rewound file).offset (linesFrom (t.rewound file).offset file)

/-- The tail with its offset just past the last complete line. -/
def FileTail.advanced (disk : Disk) (t : FileTail) : FileTail :=
  match disk t.path.text with
  | none => t
  | some file =>
      { t with offset := (t.rewound file).offset +
          Framing.extent (linesFrom (t.rewound file).offset file) }

@[simp] theorem FileTail.advanced_path (disk : Disk) (t : FileTail) :
    (t.advanced disk).path = t.path := by
  unfold advanced
  split <;> rfl

/-- Every poll that succeeds takes the complete lines past the offset. -/
theorem FileTail.poll_ok {fault : Option PollFault} {disk : Disk} {t t' : FileTail}
    {records : List RawRecord} (h : t.poll fault disk = (.ok records, t')) :
    records = t.newRecords disk ∧ t' = t.advanced disk := by
  cases hfile : disk t.path.text with
  | none =>
      rcases fault with _ | _ | _ <;>
        simp only [poll, hfile, Prod.mk.injEq, Except.ok.injEq, reduceCtorEq, false_and] at h
      all_goals
        simp only [newRecords, advanced, hfile]
        exact ⟨h.1.symm, h.2.symm⟩
  | some file =>
      have htake := takeLines_eq t.path.text List.not_mem_nil (t.rewound file).offset
        (file.bytes.drop (t.rewound file).offset)
      rw [List.nil_append] at htake
      simp only [newRecords, advanced, hfile]
      by_cases hend : file.bytes.length = (t.rewound file).offset
      · rcases fault with _ | _ | _ <;>
          simp only [poll, hfile, if_pos hend, Prod.mk.injEq, Except.ok.injEq, reduceCtorEq,
            false_and] at h
        all_goals
          rw [← hend, linesFrom_length]
          exact ⟨h.1.symm, h.2 ▸ hend ▸ t.rewound_eq file⟩
      · rcases fault with _ | _ | _ <;>
          simp only [poll, hfile, if_neg hend, rewound_path, rewound_id, htake, Prod.mk.injEq,
            Except.ok.injEq, reduceCtorEq, false_and] at h
        exact ⟨h.1.symm, h.2.symm⟩

/-- Every record that a poll yields carries the tail's own file and an offset. -/
theorem FileTail.file_of_mem_newRecords {disk : Disk} {t : FileTail} {r : RawRecord}
    (h : r ∈ t.newRecords disk) :
    r.file = some t.path.text ∧ ∃ offset, r.offset = some offset := by
  unfold newRecords at h
  split at h
  · cases h
  · exact file_of_mem_recordsOf h

end Genaryx.Ingest
