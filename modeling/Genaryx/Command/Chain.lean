import Genaryx.Base.Transition
import Genaryx.Command.Line

/-!
# The console's own chain

Every command is journaled and then appended to the console's events file as one line that
links to the line before it. The link is kept in memory and seeded from the file when it is
opened. The lines stay one chain as long as no line is appended behind a torn one, and the
file can be read when it is opened.

## Implementation notes

A bus is the one process that writes the file, and a restart is a new process on the same
file. `written` is a history variable: the lines whose write succeeded.
-/

namespace Genaryx.Command

open Base Json Genaryx.Core

variable {F : Type}

/-- What fails around one command: each failure with its message, and for the write how many
bytes reach the file before it. -/
structure Faults where
  insertCommand : Option Text := none
  createDir : Option Text := none
  openFile : Option Text := none
  readable : Bool := true
  write : Option (Nat × Text) := none

/-- An open events file, as far as it is remembered: the link of its next line. -/
structure ChainSink where
  next : Option Text
  deriving DecidableEq

structure CommandBus (F : Type) where
  commandsJournal : List (Text × CommandRecord F) := []
  file : Bytes := []
  sink : Option ChainSink := none
  written : List Text := []

/-- The last line of a file that is not blank. -/
def lastLineOf (readable : Bool) (file : Bytes) : Option Text :=
  if readable then
    (Utf8.fromUtf8 file).bind fun text =>
      (Text.lines text).reverse.find? fun line => !(Text.trim line).isEmpty
  else none

theorem lastLineOf_nil (readable : Bool) : lastLineOf readable [] = none := by
  cases readable <;> decide +kernel

variable (C : Codec F recursionLimit) (sha256 : Bytes → Bytes)

namespace CommandBus

/-- The sink of the file, opened and seeded on first use. -/
def sinkFor (faults : Faults) (w : CommandBus F) : Except Error ChainSink :=
  match faults.createDir with
  | some message => .error (.io message)
  | none =>
      match w.sink with
      | some existing => .ok existing
      | none =>
          match faults.openFile with
          | some message => .error (.io message)
          | none => .ok ⟨(lastLineOf faults.readable w.file).bind (chainHashOfLine C sha256)⟩

/-- Write a line and its newline in one write, and advance the link if it succeeds. -/
def appendChained (fault : Option (Nat × Text)) (sink : ChainSink)
    (build : Option Text → Text) (w : CommandBus F) : Except Error Unit × CommandBus F :=
  let line := build sink.next
  let framed := Utf8.encode line ++ [10]
  match fault.filter fun f => f.1 < framed.length with
  | some f =>
      (.error (.io f.2), { w with file := w.file ++ framed.take f.1, sink := some sink })
  | none =>
      (.ok (), { w with
        file := w.file ++ framed
        sink := some ⟨chainHashOfLine C sha256 line⟩
        written := w.written ++ [line] })

/-- Journal a command and report it on the bus. -/
def record (orgDomain host : Text) (rec : CommandRecord F) (ts : Text) (faults : Faults)
    (w : CommandBus F) : Except Error Unit × CommandBus F :=
  match requireBreakGlassReason rec with
  | .error e => (.error e, w)
  | .ok () =>
      match faults.insertCommand with
      | some message => (.error (.store message), w)
      | none =>
          let journaled := { w with commandsJournal := w.commandsJournal ++ [(ts, rec)] }
          match sinkFor C sha256 faults w with
          | .error e => (.error e, journaled)
          | .ok sink =>
              appendChained C sha256 faults.write sink
                (consoleCommandLine C orgDomain host rec ts) journaled

end CommandBus

/-- One thing that happens to the bus. -/
inductive CommandAction (F : Type)
  | record (orgDomain host : Text) (rec : CommandRecord F) (ts : Text) (faults : Faults)
  | restart

namespace CommandBus

def step (w : CommandBus F) : CommandAction F → Option (CommandBus F)
  | .record orgDomain host rec ts faults =>
      some (w.record C sha256 orgDomain host rec ts faults).2
  | .restart => some { w with sink := none }

/-- The complete lines of the file that the console wrote. -/
def consoleLines (w : CommandBus F) : List Text :=
  ((Framing.delimited 10).split w.file).1.filterMap fun bytes =>
    (Utf8.fromUtf8 bytes).filter (· ∈ w.written)

/-- The complete lines the console wrote are one hash chain. -/
def OneChain (w : CommandBus F) : Prop := (busLinking C sha256).Chained w.consoleLines

instance (w : CommandBus F) : Decidable (w.OneChain C sha256) := by
  unfold OneChain
  infer_instance

/-- A command gets as far as its write. -/
def reachesWrite (w : CommandBus F) (rec : CommandRecord F) (faults : Faults) : Bool :=
  (requireBreakGlassReason rec).isOk && faults.insertCommand.isNone && faults.createDir.isNone &&
    (w.sink.isSome || faults.openFile.isNone)

/-- Nothing is written behind a torn line, and a file with something in it can be read when it
is opened. -/
def keepsWhole (w : CommandBus F) : CommandAction F → Bool
  | .record _ _ rec _ faults =>
      !w.reachesWrite rec faults ||
        ((w.sink.isSome || faults.readable || w.file.isEmpty) &&
          (w.file.getLast?.all (· = 10) || (faults.write.map Prod.fst) = some 0))
  | .restart => true

variable {C sha256}

/-- What the file and the memory of a bus hold, as far as the file is whole. -/
structure Sound (C : Codec F recursionLimit) (sha256 : Bytes → Bytes) (w : CommandBus F)
    (torn : Bytes) : Prop where
  visible : ∀ line ∈ w.written, Visible line
  nonblank : ∀ line ∈ w.written, Text.trim line ≠ []
  hashed : ∀ line ∈ w.written, (chainHashOfLine C sha256 line).isSome = true
  chained : (busLinking C sha256).Chained w.written
  torn_clean : 10 ∉ torn
  file_eq : w.file = Framing.terminated 10 (w.written.map Utf8.encode) ++ torn
  in_step : torn = [] → ∀ sink, w.sink = some sink →
    sink.next = (busLinking C sha256).head w.written

theorem newline_notMem_of_visible {line : Text} (h : Visible line) :
    (10 : UInt8) ∉ Utf8.encode line :=
  Utf8.newline_notMem_encode fun hmem => absurd (h _ hmem) (by decide)

variable {w : CommandBus F} {torn : Bytes}

theorem Sound.split_file (h : Sound C sha256 w torn) :
    (Framing.delimited 10).split w.file = (w.written.map Utf8.encode, torn) := by
  rw [h.file_eq]
  refine Framing.delimited_split_terminated ?_ h.torn_clean
  intro frame hframe
  obtain ⟨line, hline, rfl⟩ := List.mem_map.mp hframe
  exact newline_notMem_of_visible (h.visible line hline)

/-- The complete lines of the file are the lines that were written. -/
theorem Sound.consoleLines_eq (h : Sound C sha256 w torn) : w.consoleLines = w.written := by
  have hread : ∀ line ∈ w.written,
      (Utf8.fromUtf8 (Utf8.encode line)).filter (· ∈ w.written) = some line := by
    intro line hline
    rw [Utf8.fromUtf8_encode, Option.filter_some, if_pos (decide_eq_true hline)]
  rw [consoleLines, h.split_file, List.filterMap_map]
  exact (List.filterMap_congr hread).trans List.filterMap_some

theorem Sound.oneChain (h : Sound C sha256 w torn) : w.OneChain C sha256 := by
  rw [OneChain, h.consoleLines_eq]
  exact h.chained

/-- A whole file is reopened at the head of its chain. -/
theorem Sound.lastLineOf_eq (h : Sound C sha256 w []) :
    lastLineOf true w.file = w.written.getLast? := by
  have hfile : w.file = Utf8.encode (Framing.terminated '\n' w.written) := by
    rw [Utf8.encode_terminated, h.file_eq, List.append_nil]
  have hfirst : ∀ ls : List Text, (∀ line ∈ ls, Text.trim line ≠ []) →
      (ls.find? fun line => !(Text.trim line).isEmpty) = ls.head? := by
    intro ls hls
    cases ls with
    | nil => rfl
    | cons line ls =>
        rw [List.find?_cons_of_pos, List.head?_cons]
        simpa using hls line List.mem_cons_self
  rw [lastLineOf, if_pos rfl, hfile, Utf8.fromUtf8_encode, Option.bind_some,
    Text.lines_terminated h.visible, hfirst, List.head?_reverse]
  exact fun line hline => h.nonblank line (List.mem_reverse.mp hline)

/-- The sink that a command gets is in step with a whole file. -/
theorem Sound.sinkFor_in_step (h : Sound C sha256 w torn) {faults : Faults} {sink : ChainSink}
    (hsink : sinkFor C sha256 faults w = .ok sink)
    (hread : w.sink.isSome = true ∨ faults.readable = true ∨ w.file = []) (htorn : torn = []) :
    sink.next = (busLinking C sha256).head w.written := by
  subst htorn
  rw [sinkFor] at hsink
  split at hsink
  · cases hsink
  · split at hsink
    · next existing hw =>
        cases hsink
        exact h.in_step rfl _ hw
    · next hw =>
        split at hsink
        · cases hsink
        · cases hsink
          have hlast : lastLineOf faults.readable w.file = w.written.getLast? := by
            rcases hread with hopen | hread | hempty
            · rw [hw] at hopen
              cases hopen
            · rw [hread, h.lastLineOf_eq]
            · rw [← h.lastLineOf_eq, hempty, lastLineOf_nil, lastLineOf_nil]
          rw [hlast]
          rfl

/-- A write behind whole lines leaves whole lines and what was torn off. -/
theorem Sound.appendChained (h : Sound C sha256 w []) {sink : ChainSink}
    (hsink : sink.next = (busLinking C sha256).head w.written) (fault : Option (Nat × Text))
    (orgDomain host : Text) (rec : CommandRecord F) (ts : Text) :
    ∃ torn, Sound C sha256
      (w.appendChained C sha256 fault sink (consoleCommandLine C orgDomain host rec ts)).2
      torn := by
  have hvisible := visible_consoleCommandLine (C := C) orgDomain host rec ts sink.next
  have hclean := newline_notMem_of_visible hvisible
  have hfile := h.file_eq
  rw [List.append_nil] at hfile
  rw [CommandBus.appendChained]
  split
  · next f hfault =>
      have hk : f.1 ≤
          (Utf8.encode (consoleCommandLine C orgDomain host rec ts sink.next)).length := by
        have hlt := of_decide_eq_true (Option.filter_eq_some_iff.mp hfault).2
        simp only [List.length_append, List.length_singleton] at hlt
        omega
      have hin : ∀ s : ChainSink, some sink = some s →
          s.next = (busLinking C sha256).head w.written := fun s hs => by cases hs; exact hsink
      refine ⟨(Utf8.encode (consoleCommandLine C orgDomain host rec ts sink.next)).take f.1,
        h.visible, h.nonblank, h.hashed, h.chained,
        fun hmem => hclean (List.mem_of_mem_take hmem), ?_, fun _ => hin⟩
      rw [hfile, List.take_append_of_le_length hk]
  · refine ⟨[], ?_, ?_, ?_, ?_, List.not_mem_nil, ?_, ?_⟩
    · exact List.forall_mem_append.mpr ⟨h.visible, List.forall_mem_singleton.mpr hvisible⟩
    · exact List.forall_mem_append.mpr ⟨h.nonblank,
        List.forall_mem_singleton.mpr (trim_consoleCommandLine orgDomain host rec ts sink.next)⟩
    · exact List.forall_mem_append.mpr ⟨h.hashed,
        List.forall_mem_singleton.mpr (isSome_chainHashOfLine orgDomain host rec ts sink.next)⟩
    · refine h.chained.concat ?_ fun line hline => h.hashed line (List.mem_of_getLast? hline)
      rw [← hsink]
      exact prevHashOfLine_consoleCommandLine orgDomain host rec ts sink.next
    · simp only [List.map_append, List.map_cons, List.map_nil, Framing.terminated_concat,
        List.append_nil, hfile]
    · intro _ s hs
      cases hs
      exact (Linking.head_concat (L := busLinking C sha256) w.written _).symm

/-- A write of nothing changes no more than the memory. -/
theorem appendChained_nothing {sink : ChainSink} {build : Option Text → Text}
    {fault : Option (Nat × Text)} (h : fault.map Prod.fst = some 0) :
    (w.appendChained C sha256 fault sink build).2 = { w with sink := some sink } := by
  obtain ⟨f, rfl, hf⟩ := Option.map_eq_some_iff.mp h
  have hpos : f.1 < (Utf8.encode (build sink.next) ++ [10]).length := by simp [hf]
  rw [appendChained, Option.filter_some, if_pos (decide_eq_true hpos)]
  simp only [hf, List.take_zero, List.append_nil]

variable (C sha256) in
/-- A command that does not get as far as its write is at most journaled. -/
theorem record_of_not_reachesWrite (orgDomain host ts : Text) {rec : CommandRecord F}
    {faults : Faults} (h : w.reachesWrite rec faults = false) :
    ∃ rows, (w.record C sha256 orgDomain host rec ts faults).2 =
      { w with commandsJournal := rows } := by
  cases hreason : requireBreakGlassReason rec with
  | error e => exact ⟨w.commandsJournal, by rw [record, hreason]⟩
  | ok _ =>
      cases hinsert : faults.insertCommand with
      | some message =>
          refine ⟨w.commandsJournal, ?_⟩
          simp only [record, hreason, hinsert]
      | none =>
          refine ⟨w.commandsJournal ++ [(ts, rec)], ?_⟩
          cases hdir : faults.createDir with
          | some message => simp only [record, hreason, hinsert, sinkFor, hdir]
          | none =>
              have hopen : w.sink.isSome = false ∧ faults.openFile.isNone = false := by
                simpa [reachesWrite, hreason, hinsert, hdir, Except.isOk, Except.toBool] using h
              obtain ⟨message, hmessage⟩ := Option.isSome_iff_exists.mp
                (Option.isNone_eq_false_iff.mp hopen.2)
              have hsink : w.sink = none := Option.isNone_iff_eq_none.mp (Option.isSome_eq_false_iff.mp hopen.1)
              simp only [record, hreason, hinsert, sinkFor, hdir, hsink, hmessage]

variable (C sha256) in
/-- A command that gets as far as its write gets a sink. -/
theorem record_of_reachesWrite (orgDomain host ts : Text) {rec : CommandRecord F}
    {faults : Faults} (h : w.reachesWrite rec faults = true) :
    ∃ sink, sinkFor C sha256 faults w = .ok sink ∧
      w.record C sha256 orgDomain host rec ts faults =
        appendChained C sha256 faults.write sink (consoleCommandLine C orgDomain host rec ts)
          { w with commandsJournal := w.commandsJournal ++ [(ts, rec)] } := by
  simp only [reachesWrite, Bool.and_eq_true, Option.isNone_iff_eq_none] at h
  obtain ⟨⟨⟨hreason, hinsert⟩, hdir⟩, hopen⟩ := h
  have hok : requireBreakGlassReason rec = .ok () := by
    cases hr : requireBreakGlassReason rec with
    | error e => rw [hr] at hreason; cases hreason
    | ok _ => rfl
  have hsome : ∃ sink, sinkFor C sha256 faults w = .ok sink := by
    cases hsink : w.sink with
    | some existing => exact ⟨existing, by simp only [sinkFor, hdir, hsink]⟩
    | none =>
        rw [hsink, Option.isSome_none, Bool.false_or, Option.isNone_iff_eq_none] at hopen
        exact ⟨_, by simp only [sinkFor, hdir, hsink, hopen]; rfl⟩
  obtain ⟨sink, hsink⟩ := hsome
  exact ⟨sink, hsink, by simp only [record, hok, hinsert, hsink]⟩

/-- One action that keeps whole files whole keeps a bus sound. -/
theorem sound_step (w : CommandBus F) (a : CommandAction F) (w' : CommandBus F)
    (h : ∃ torn, Sound C sha256 w torn) (hwhole : w.keepsWhole a = true)
    (hstep : step C sha256 w a = some w') : ∃ torn, Sound C sha256 w' torn := by
  obtain ⟨torn, h⟩ := h
  cases a with
  | restart =>
      cases hstep
      exact ⟨torn, { h with in_step := fun _ sink hsink => by cases hsink }⟩
  | record orgDomain host rec ts faults =>
      cases hstep
      cases hreach : w.reachesWrite rec faults with
      | false =>
          obtain ⟨rows, hrows⟩ := record_of_not_reachesWrite C sha256 orgDomain host ts hreach
          rw [hrows]
          exact ⟨torn, { h with }⟩
      | true =>
          obtain ⟨sink, hsink, hrecord⟩ := record_of_reachesWrite C sha256 orgDomain host ts hreach
          simp only [keepsWhole, hreach, Bool.not_true, Bool.false_or, Bool.and_eq_true,
            Bool.or_eq_true, List.isEmpty_iff, or_assoc, decide_eq_true_eq] at hwhole
          obtain ⟨hread, hlast⟩ := hwhole
          have hin := h.sinkFor_in_step hsink hread
          have hjournaled : Sound C sha256
              { w with commandsJournal := w.commandsJournal ++ [(ts, rec)] } torn := { h with }
          rw [hrecord]
          by_cases htorn : torn = []
          · subst htorn
            exact hjournaled.appendChained (hin rfl) faults.write orgDomain host rec ts
          · -- Behind a torn line only a write of nothing is left.
            have hzero : faults.write.map Prod.fst = some 0 := by
              refine hlast.resolve_left fun hnewline => h.torn_clean ?_
              rw [h.file_eq, List.getLast?_append_of_ne_nil _ htorn,
                List.getLast?_eq_getLast_of_ne_nil htorn, Option.all_some,
                decide_eq_true_eq] at hnewline
              exact hnewline ▸ List.getLast_mem htorn
            rw [appendChained_nothing hzero]
            exact ⟨torn, { hjournaled with in_step := fun htorn' => absurd htorn' htorn }⟩

/-- In every run that writes nothing behind a torn line and can read the file it opens, the
complete lines the console wrote are one hash chain. -/
theorem oneChain_of_keepsWhole {w : CommandBus F} {actions : List (CommandAction F)}
    (hwhole : Transition.Along (step C sha256) (fun w a => w.keepsWhole a = true) {} actions)
    (hrun : Transition.run (step C sha256) {} actions = some w) : w.OneChain C sha256 := by
  have hempty : ∃ torn, Sound C sha256 ({} : CommandBus F) torn :=
    ⟨[], by simp, by simp, by simp, Linking.chained_nil, List.not_mem_nil, rfl,
      fun _ sink hsink => by cases hsink⟩
  obtain ⟨torn, h⟩ := Transition.run_invariant_along sound_step hwhole hrun hempty
  exact h.oneChain

section Sample

/-- The compact writer with its reader. -/
def sampleCodec : Codec Decimal recursionLimit :=
  Codec.ofCompact Decimal.ofDecimal (fun _ => "0.0") recursionLimit

def killRun : CommandRecord Decimal where
  operator := "user://acme/alice"
  env := "local"
  action := "console.kill_run"
  target := "run-1"
  params := .object []
  decision := "allow"
  sigAlg := "none"
  sigFpr := "test"
  httpStatus := 200
  verifyResult := "killed:true"

def killAt (ts : Text) (faults : Faults) : CommandAction Decimal :=
  .record "acme" "box" killRun ts faults

/-- A second command whose write fails, before it wrote anything or after one byte, then a
third one, and a fourth one after a restart. -/
def failingSecond (written : Nat) : List (CommandAction Decimal) :=
  [killAt "1" {}, killAt "2" { write := some (written, "disk full") }, killAt "3" {}, .restart,
    killAt "4" {}]

end Sample

theorem oneChain_failingSecond :
    ∃ w, Transition.run (step sampleCodec id) {} (failingSecond 0) = some w ∧
      w.OneChain sampleCodec id := by
  obtain ⟨w, hrun⟩ :
      ∃ w, Transition.run (step sampleCodec id) {} (failingSecond 0) = some w := ⟨_, rfl⟩
  refine ⟨w, hrun, oneChain_of_keepsWhole ?_ hrun⟩
  exact Transition.along_of_check (by decide +kernel)

theorem second_head_after_torn_line :
    ¬ ∀ w, Transition.run (step sampleCodec id) {} (failingSecond 1) = some w →
      w.OneChain sampleCodec id := by
  intro h
  exact absurd (h _ rfl) (by decide +kernel)

end CommandBus

end Genaryx.Command
