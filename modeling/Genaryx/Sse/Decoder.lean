import Genaryx.Base.Framing
import Genaryx.Base.Utf8

/-!
# The SSE decoder

The decoder buffers bytes until a line terminator is certain, applies each line to the
event under construction, and emits the event at a blank line. A trailing lone carriage
return is held back, since the next byte may be the line feed that belongs to it.
-/

namespace Genaryx.Sse

open Base

/-- One decoded event: its payload and the two optional framing fields. -/
structure SseEvent where
  id : Option Text
  event : Option Text
  data : Text
  deriving DecidableEq

/-- The decoder's state across chunks. -/
structure SseDecoder where
  buffer : Bytes := []
  dataBuffer : Text := []
  eventType : Option Text := none
  lastId : Option Text := none
  deriving DecidableEq

/-- Where the next complete line ends, or why that cannot be told yet. -/
inductive LineEnd
  | found (lineLen consumed : Nat)
  | incomplete
  | needsMoreData
  deriving DecidableEq

/-- The scan for a terminator from index `i` on. -/
def findLineEndFrom (i : Nat) : Bytes → LineEnd
  | [] => .incomplete
  | b :: rest =>
      if b = 10 then .found i (i + 1)
      else if b = 13 then
        match rest with
        | [] => .needsMoreData
        | c :: _ => if c = 10 then .found i (i + 2) else .found i (i + 1)
      else findLineEndFrom (i + 1) rest

/-- Scan for the next line terminator: LF, CRLF or a bare CR. -/
def findLineEnd (buffer : Bytes) : LineEnd := findLineEndFrom 0 buffer

theorem findLineEndFrom_found {i : Nat} {b : Bytes} {len used : Nat}
    (h : findLineEndFrom i b = .found len used) :
    i ≤ len ∧ len < used ∧ used ≤ i + b.length := by
  induction b generalizing i with
  | nil => simp [findLineEndFrom] at h
  | cons x rest ih =>
      simp only [findLineEndFrom] at h
      split_ifs at h with hlf hcr
      · cases h
        simp
      · cases rest with
        | nil => simp at h
        | cons c rest =>
            simp only at h
            split_ifs at h <;> cases h <;> simp
      · have := ih h
        simp only [List.length_cons]
        omega

/-- A terminator that is found stays where it is when more bytes arrive. -/
theorem findLineEndFrom_append {i : Nat} {b : Bytes} {len used : Nat}
    (h : findLineEndFrom i b = .found len used) (c : Bytes) :
    findLineEndFrom i (b ++ c) = .found len used := by
  induction b generalizing i with
  | nil => simp [findLineEndFrom] at h
  | cons x rest ih =>
      simp only [List.cons_append, findLineEndFrom] at h ⊢
      split_ifs at h ⊢ with hlf hcr
      · exact h
      · cases rest with
        | nil => simp at h
        | cons y rest => exact h
      · exact ih h

/-- The first complete line: its length and the bytes it consumes. -/
def nextLine (buffer : Bytes) : Option (Nat × Nat) :=
  match findLineEnd buffer with
  | .found lineLen consumed => some (lineLen, consumed)
  | .incomplete => none
  | .needsMoreData => none

theorem nextLine_eq_some_iff (buffer : Bytes) (lineLen consumed : Nat) :
    nextLine buffer = some (lineLen, consumed) ↔
      findLineEnd buffer = .found lineLen consumed := by
  unfold nextLine
  cases findLineEnd buffer <;> simp

/-- The decoder's line rule as a framing of the byte stream. -/
def lines : Framing UInt8 where
  next := nextLine
  next_bounds {b len used} h := by
    have hfound := findLineEndFrom_found ((nextLine_eq_some_iff b len used).mp h)
    omega
  next_append {b p} h c := by
    have hfound := (nextLine_eq_some_iff b p.1 p.2).mp h
    exact (nextLine_eq_some_iff _ _ _).mpr (findLineEndFrom_append hfound c)

namespace SseDecoder

/-- The decoder with other unresolved bytes. -/
def withBuffer (d : SseDecoder) (b : Bytes) : SseDecoder := { d with buffer := b }

@[simp] theorem withBuffer_buffer (d : SseDecoder) (b : Bytes) :
    (d.withBuffer b).buffer = b := rfl

@[simp] theorem withBuffer_withBuffer (d : SseDecoder) (b c : Bytes) :
    (d.withBuffer b).withBuffer c = d.withBuffer c := rfl

@[simp] theorem withBuffer_self (d : SseDecoder) : d.withBuffer d.buffer = d := rfl

/-- A blank line: emit the accumulated event if it has data, and reset the buffers of
the event either way. -/
def dispatch (d : SseDecoder) : Option SseEvent × SseDecoder :=
  if d.dataBuffer.isEmpty then (none, { d with eventType := none })
  else
    let data := if d.dataBuffer.getLast? = some '\n' then d.dataBuffer.dropLast else d.dataBuffer
    (some ⟨d.lastId, d.eventType, data⟩, { d with eventType := none, dataBuffer := [] })

/-- The field name and the value of a line, one leading space of the value dropped. A
line without a colon is a field name with an empty value. -/
def fieldOf (line : Text) : Text × Text :=
  match Text.splitOnce ':' line with
  | some (field, rawValue) => (field, (Text.stripPrefix " " rawValue).getD rawValue)
  | none => (line, [])

/-- Apply one line to the decoder's fields. -/
def processLine (d : SseDecoder) (line : Text) : Option SseEvent × SseDecoder :=
  if line.isEmpty then d.dispatch
  else if Text.startsWith line ":" then (none, d)
  else
    let (field, value) := fieldOf line
    if field = "data" then (none, { d with dataBuffer := d.dataBuffer ++ value ++ ['\n'] })
    else if field = "event" then (none, { d with eventType := some value })
    else if field = "id" ∧ '\x00' ∉ value then (none, { d with lastId := some value })
    else (none, d)

theorem dispatch_withBuffer (d : SseDecoder) (b : Bytes) :
    (d.withBuffer b).dispatch = (d.dispatch.1, d.dispatch.2.withBuffer b) := by
  unfold dispatch withBuffer
  by_cases hdata : d.dataBuffer.isEmpty <;> simp only [hdata] <;> rfl

/-- A line changes the event under construction and never the buffer. -/
theorem processLine_withBuffer (d : SseDecoder) (b : Bytes) (line : Text) :
    (d.withBuffer b).processLine line =
      ((d.processLine line).1, (d.processLine line).2.withBuffer b) := by
  simp only [processLine]
  split_ifs
  · exact dispatch_withBuffer d b
  all_goals rfl

/-- The loop of `feed`: take the first complete line off the buffer and apply it. -/
def drain (d : SseDecoder) : List SseEvent × SseDecoder :=
  match _h : nextLine d.buffer with
  | none => ([], d)
  | some (lineLen, consumed) =>
      let line := Utf8.fromUtf8Lossy (d.buffer.take lineLen)
      let applied := (d.withBuffer (d.buffer.drop consumed)).processLine line
      let tail := drain applied.2
      (applied.1.toList ++ tail.1, tail.2)
termination_by d.buffer.length
decreasing_by
  rw [processLine_withBuffer]
  exact lines.length_drop_lt _h

/-- Feed one chunk, exactly as the transport delivered it. -/
def feed (d : SseDecoder) (chunk : Bytes) : List SseEvent × SseDecoder :=
  (d.withBuffer (d.buffer ++ chunk)).drain

/-- Feed chunks one after another. -/
def feedAll (d : SseDecoder) : List Bytes → List SseEvent × SseDecoder
  | [] => ([], d)
  | chunk :: chunks =>
      let here := d.feed chunk
      let tail := here.2.feedAll chunks
      (here.1 ++ tail.1, tail.2)

/-- One complete line as a step on the event under construction. -/
def applyLine (d : SseDecoder) (bytes : Bytes) : List SseEvent × SseDecoder :=
  let applied := d.processLine (Utf8.fromUtf8Lossy bytes)
  (applied.1.toList, applied.2)

theorem consume_withBuffer (d : SseDecoder) (b : Bytes) (frames : List Bytes) :
    Framing.consume applyLine (d.withBuffer b) frames =
      ((Framing.consume applyLine d frames).1,
        (Framing.consume applyLine d frames).2.withBuffer b) := by
  induction frames generalizing d with
  | nil => rfl
  | cons frame frames ih =>
      simp only [Framing.consume, applyLine, processLine_withBuffer d b, ih]

/-- The loop applies the complete lines of the buffer in order and keeps the rest. -/
theorem drain_eq (d : SseDecoder) :
    d.drain =
      ((Framing.consume applyLine d (lines.split d.buffer).1).1,
        (Framing.consume applyLine d (lines.split d.buffer).1).2.withBuffer
          (lines.split d.buffer).2) := by
  induction hn : d.buffer.length using Nat.strongRecOn generalizing d with
  | _ n ih =>
      rw [drain]
      split
      · next hnone => rw [lines.split_of_none hnone]; rfl
      · next lineLen consumed hsome =>
          have hshort := hn ▸ lines.length_drop_lt hsome
          have htail := ih _ hshort ((d.processLine (Utf8.fromUtf8Lossy
            (d.buffer.take lineLen))).2.withBuffer (d.buffer.drop consumed)) rfl
          simp only [processLine_withBuffer, htail, lines.split_of_some hsome, withBuffer_buffer,
            consume_withBuffer, withBuffer_withBuffer, Framing.consume, applyLine]

/-- What is left in the buffer after a chunk holds no complete line. -/
theorem nextLine_feed (d : SseDecoder) (chunk : Bytes) :
    nextLine (d.feed chunk).2.buffer = none := by
  rw [feed, drain_eq]
  exact lines.next_split_rest _

/-- Feeding a longer chunk is feeding its two parts. -/
theorem feed_append (d : SseDecoder) (a b : Bytes) :
    d.feed (a ++ b) =
      ((d.feed a).1 ++ ((d.feed a).2.feed b).1, ((d.feed a).2.feed b).2) := by
  simp only [feed, drain_eq, withBuffer_buffer, consume_withBuffer, withBuffer_withBuffer,
    ← List.append_assoc]
  rw [lines.split_append (d.buffer ++ a), Framing.consume_append]

theorem feed_nil {d : SseDecoder} (h : nextLine d.buffer = none) : d.feed [] = ([], d) := by
  simp only [feed, List.append_nil, withBuffer_self, drain_eq, lines.split_of_none h]
  rfl

/-- From a state whose buffer holds no complete line, the chunks can be joined. -/
theorem feedAll_eq_feed_flatten {d : SseDecoder} (h : nextLine d.buffer = none)
    (chunks : List Bytes) : d.feedAll chunks = d.feed chunks.flatten := by
  induction chunks generalizing d with
  | nil => exact (feed_nil h).symm
  | cons chunk chunks ih =>
      rw [feedAll, ih (nextLine_feed d chunk), List.flatten_cons, feed_append]

/-- A new decoder yields the same events and ends in the same state however the stream
is cut into chunks. -/
theorem feedAll_new (chunks : List Bytes) :
    feedAll {} chunks = feed {} chunks.flatten :=
  feedAll_eq_feed_flatten rfl chunks

end SseDecoder

end Genaryx.Sse
