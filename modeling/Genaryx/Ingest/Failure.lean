import Genaryx.Base.Digest
import Genaryx.Base.Transition
import Genaryx.Ingest.Cycle
import Mathlib.Data.Rat.Defs
import Mathlib.Data.Set.Function

/-!
# What a failed cycle loses

A tail moves its offset when it is polled, and a cycle that ends early drops the lines
that are neither in the events table nor in quarantine by then. No later cycle of the same
service reads them again.
-/

namespace Genaryx.Ingest

open Base Genaryx.Core

variable {F : Type}

/-- The line is in the events table or in the quarantine table. -/
def Kept (env : Text) (s : Store F) (r : RawRecord) : Prop :=
  (∃ e ∈ s.events, EventOf env r e) ∨ ∃ q ∈ s.quarantined, RowOf env r q

instance (env : Text) (s : Store F) (r : RawRecord) : Decidable (Kept env s r) :=
  inferInstanceAs (Decidable (_ ∨ _))

/-- The stored event is a line of a file of this environment. -/
def Placed (env : Text) (e : ConsoleEvent F) : Prop :=
  e.provenance.env = env ∧
    ∃ file offset, '\x00' ∉ file ∧ e.provenance.file = some file ∧
      e.provenance.offset = some offset

/-- The line was read from a file, from some offset on. -/
def FromFile (r : RawRecord) : Prop :=
  ∃ file offset, '\x00' ∉ file ∧ r.file = some file ∧ r.offset = some offset

/-- The bytes that the dedupe key of a line is the digest of. -/
def RawRecord.keyBytes (env : Text) (r : RawRecord) : Bytes :=
  Utf8.encode (dedupeText env r.file r.offset r.raw)

/-- A row is stored under the line's dedupe key, or the line is in the quarantine table. -/
def Keyed (sha256Hex : Bytes → Text) (env : Text) (s : Store F) (r : RawRecord) : Prop :=
  (∃ e ∈ s.events, e.dedupe sha256Hex = sha256Hex (r.keyBytes env)) ∨
    ∃ q ∈ s.quarantined, RowOf env r q

/-- What is digested for the stored events and for some lines. -/
def digested (env : Text) (s : Store F) (records : List RawRecord) : List Bytes :=
  s.events.map ConsoleEvent.keyBytes ++ records.map (RawRecord.keyBytes env)

/-- Where no two of the digested texts share a digest, the row under a line's key is the line. -/
theorem Keyed.kept {sha256Hex : Bytes → Text} {env : Text} {s : Store F}
    {records : List RawRecord} {r : RawRecord}
    (hsha : Set.InjOn sha256Hex {bytes | bytes ∈ digested env s records})
    (hplaced : ∀ e ∈ s.events, Placed env e) (hr : r ∈ records) (hfile : FromFile r)
    (h : Keyed sha256Hex env s r) : Kept env s r := by
  rcases h with ⟨row, hrow, hkey⟩ | hq
  · obtain ⟨rowEnv, file, offset, hnul, hrowFile, hrowOffset⟩ := hplaced row hrow
    obtain ⟨file', offset', hnul', hrFile, hrOffset⟩ := hfile
    have hbytes : row.keyBytes = r.keyBytes env :=
      hsha (List.mem_append_left _ (List.mem_map_of_mem hrow))
        (List.mem_append_right _ (List.mem_map_of_mem hr)) hkey
    have htext := Utf8.encode_injective hbytes
    rw [rowEnv, hrowFile, hrowOffset, hrFile, hrOffset] at htext
    obtain ⟨hsameFile, hsameOffset, hsameRaw⟩ := dedupeText_inj hnul hnul' htext
    refine Or.inl ⟨row, hrow, rowEnv, ?_, ?_, hsameRaw⟩
    · rw [hrowFile, hrFile, hsameFile]
    · rw [hrowOffset, hrOffset, hsameOffset]
  · exact Or.inr hq

namespace IngestService

variable {svc : IngestService F} {out : Outside} {sha256Hex : Bytes → Text}

/-- The refusals of a cycle fall where they strand no line: no quarantine write is refused,
every accepted line declares a known schema, and if any line the sources yield is accepted
then neither the poll of a later source nor the insert is refused. -/
structure StrandsNothing (svc : IngestService F) (out : Outside) : Prop where
  untroubled : Untroubled svc out 0 (yields out 0 svc.sources).1
  batch : (∃ r ∈ (yields out 0 svc.sources).1, svc.accepts r = true) →
    (yields out 0 svc.sources).2 = false ∧ out.insertFault = none

/-- Every yielded line is one of a registered file. -/
theorem placed_of_mem_yields {i : Nat} {sources : List FileTail} {r : RawRecord}
    (h : r ∈ (yields out i sources).1) : FromFile r := by
  induction sources generalizing i with
  | nil => cases h
  | cons t rest ih =>
      rw [yields] at h
      rcases hpoll : t.poll (out.sourceFault i) out.disk with ⟨_ | records, t'⟩ <;>
        rw [hpoll] at h
      · cases h
      · rcases List.mem_append.mp h with hr | hr
        · rw [(FileTail.poll_ok hpoll).1] at hr
          obtain ⟨hfile, offset, hoffset⟩ := FileTail.file_of_mem_newRecords hr
          exact ⟨t.path.text, offset, t.path.nulFree, hfile, hoffset⟩
        · exact ih hr

theorem insertBatch_eq (sha256Hex : Bytes → Text) {failure : Option Text}
    {batch : List (ConsoleEvent F)} (h : batch ≠ [] → failure = none) (s : Store F) :
    ∃ n, s.insertBatch sha256Hex failure batch =
      (.ok n, { s with events := (Store.insertEvents sha256Hex s.events batch 0).1 }) := by
  cases batch with
  | nil => exact ⟨0, rfl⟩
  | cons e rest =>
      rw [h (by simp)]
      exact ⟨_, rfl⟩

theorem insertBatch_ok {failure : Option Text} {batch : List (ConsoleEvent F)} {s s' : Store F}
    {n : Nat} (h : s.insertBatch sha256Hex failure batch = (.ok n, s')) :
    s' = { s with events := (Store.insertEvents sha256Hex s.events batch 0).1 } := by
  cases batch with
  | nil => cases h; rfl
  | cons e rest =>
      cases failure with
      | none => cases h; rfl
      | some message => cases h

theorem foldl_journalOffset_frame (disk : Disk) (entries : List (Text × Nat)) (s : Store F) :
    (entries.foldl (journalOffset sha256Hex disk) s).events = s.events ∧
      (entries.foldl (journalOffset sha256Hex disk) s).quarantined = s.quarantined := by
  induction entries generalizing s with
  | nil => exact ⟨rfl, rfl⟩
  | cons entry rest ih => exact ih (journalOffset sha256Hex disk s entry)

/-- Journaling, refused or not, leaves the events and the quarantine alone. -/
theorem journalOffsets_frame (sha256Hex : Bytes → Text) (out : Outside)
    (entries : List (Text × Nat)) (s : Store F) :
    (journalOffsets sha256Hex out entries s).2.events = s.events ∧
      (journalOffsets sha256Hex out entries s).2.quarantined = s.quarantined := by
  unfold journalOffsets
  split
  · exact foldl_journalOffset_frame out.disk entries s
  · dsimp only
    split <;> exact foldl_journalOffset_frame out.disk _ s

/-- A cycle that strands nothing handles all that its sources yield and stores the batch,
even when it fails. -/
theorem pollOnce_handled (sha256Hex : Bytes → Text) (h : StrandsNothing svc out) :
    (svc.pollOnce sha256Hex out).taken = (yields out 0 svc.sources).1 ∧
      ∃ c, svc.Handled (yields out 0 svc.sources).1 { store := svc.store } c ∧
        (svc.pollOnce sha256Hex out).service.store.events =
          (Store.insertEvents sha256Hex svc.store.events c.validEvents 0).1 ∧
        (svc.pollOnce sha256Hex out).service.store.quarantined = c.store.quarantined := by
  obtain ⟨hhandled, htaken, hok⟩ := pollSources_untroubled (c := { store := svc.store })
    h.untroubled
  rcases hres : svc.pollSources out 0 { store := svc.store } svc.sources with
    ⟨e | _, c, sources⟩ <;> rw [hres] at hhandled htaken hok
  · have hempty : c.validEvents = [] := by
      by_contra hne
      obtain ⟨e, he⟩ := List.exists_mem_of_ne_nil _ hne
      rcases hhandled.mem_batch he with hold | ⟨r, hr, haccepts, _⟩
      · cases hold
      · have := hok (h.batch ⟨r, hr, haccepts⟩).1
        cases this
    simp only [pollOnce, hres]
    refine ⟨by simpa using htaken, c, hhandled, ?_, rfl⟩
    rw [hempty]
    exact hhandled.events
  · have hinsert : c.validEvents ≠ [] → out.insertFault = none := by
      intro hne
      obtain ⟨e, he⟩ := List.exists_mem_of_ne_nil _ hne
      rcases hhandled.mem_batch he with hold | ⟨r, hr, haccepts, _⟩
      · cases hold
      · exact (h.batch ⟨r, hr, haccepts⟩).2
    obtain ⟨n, hn⟩ := insertBatch_eq sha256Hex hinsert c.store
    have hevents : c.store.events = svc.store.events := hhandled.events
    have hjournal := journalOffsets_frame sha256Hex out
      (c.offsetsToJournal.entries.map fun entry => (entry.1, entry.2))
      { c.store with events := (Store.insertEvents sha256Hex c.store.events c.validEvents 0).1 }
    simp only [pollOnce, hres, hn]
    rcases hj : journalOffsets sha256Hex out _ _ with ⟨_ | _, s⟩ <;>
      rw [hj, hevents] at hjournal
    · exact ⟨by simpa using htaken, c, hhandled, hjournal⟩
    · exact ⟨by simpa using htaken, c, hhandled, hjournal⟩

/-- A cycle that returns `Ok` handles all new records, stores the batch and sends it. -/
theorem pollOnce_stored (sha256Hex : Bytes → Text)
    (h : (svc.pollOnce sha256Hex out).outcome.isOk = true) :
    ∃ c stats store, svc.Handled (svc.newRecords out.disk) { store := svc.store } c ∧
      svc.pollOnce sha256Hex out =
        ⟨.ok stats,
          { svc with store := store, sources := svc.sources.map (FileTail.advanced out.disk) },
          c.validEvents, svc.newRecords out.disk⟩ ∧
      store.events = (Store.insertEvents sha256Hex svc.store.events c.validEvents 0).1 ∧
      store.quarantined = c.store.quarantined := by
  rcases hres : svc.pollSources out 0 { store := svc.store } svc.sources with ⟨_ | _, c, sources⟩
  · simp [pollOnce, hres, Except.isOk, Except.toBool] at h
  obtain ⟨hhandled, htaken, hsources⟩ := pollSources_handled hres
  rcases hinsert : c.store.insertBatch sha256Hex out.insertFault c.validEvents with ⟨_ | n, s⟩
  · simp [pollOnce, hres, hinsert, Except.isOk, Except.toBool] at h
  have hs := insertBatch_ok hinsert
  have hevents : c.store.events = svc.store.events := hhandled.events
  have hjournal := journalOffsets_frame sha256Hex out
    (c.offsetsToJournal.entries.map fun entry => (entry.1, entry.2)) s
  simp only [pollOnce, hres, hinsert] at h ⊢
  rcases hj : journalOffsets sha256Hex out _ _ with ⟨_ | _, s'⟩ <;> rw [hj] at hjournal
  · simp [hj, Except.isOk, Except.toBool] at h
  · rw [List.nil_append] at htaken
    refine ⟨c, _, s', hhandled, by rw [htaken, hsources, newRecords], ?_, ?_⟩
    · rw [hjournal.1, hs, ← hevents]
    · rw [hjournal.2, hs]

theorem pollOnce_env (svc : IngestService F) (out : Outside) (sha256Hex : Bytes → Text) :
    (svc.pollOnce sha256Hex out).service.env = svc.env := by
  unfold pollOnce
  split
  · rfl
  · split
    · rfl
    · dsimp only
      split <;> rfl

/-- A store that holds a handled batch has a row or a quarantined line for each of its records,
and for each record that it had one for before. -/
theorem Handled.keyed {records : List RawRecord} {c : Cycle F}
    (h : svc.Handled records { store := svc.store } c) (hfiles : ∀ r ∈ records, FromFile r)
    (hplaced : ∀ e ∈ svc.store.events, Placed svc.env e) {s : Store F}
    (hevents : s.events = (Store.insertEvents sha256Hex svc.store.events c.validEvents 0).1)
    (hquarantined : s.quarantined = c.store.quarantined) :
    (∀ e ∈ s.events, Placed svc.env e) ∧
      (∀ r, Keyed sha256Hex svc.env svc.store r → Keyed sha256Hex svc.env s r) ∧
      ∀ r ∈ records, Keyed sha256Hex svc.env s r := by
  have hbatch : ∀ e ∈ c.validEvents, Placed svc.env e := by
    intro e he
    rcases h.mem_batch he with hold | ⟨r, hr, _, henv, hfile, hoffset, _⟩
    · cases hold
    · obtain ⟨file, offset, hnul, hrfile, hroffset⟩ := hfiles r hr
      exact ⟨henv, file, offset, hnul, hfile.trans hrfile, hoffset.trans hroffset⟩
  refine ⟨fun e he => ?_, ?_, fun r hr => ?_⟩
  · rw [hevents] at he
    exact (Store.mem_of_mem_insertEvents he).elim (hplaced e) (hbatch e)
  · rintro r (⟨e, he, hkey⟩ | ⟨q, hq, hof⟩)
    · exact Or.inl ⟨e, hevents ▸ Store.mem_insertEvents_of_mem he, hkey⟩
    · obtain ⟨qs, hqs, _⟩ := h.quarantine
      refine Or.inr ⟨q, ?_, hof⟩
      rw [hquarantined, hqs]
      exact List.mem_append_left _ hq
  · rcases h.mem hr with ⟨e, he, henv, hfile, hoffset, hraw⟩ | ⟨q, hq, hof⟩
    · -- the batch's event went into the table, or its key was there
      obtain ⟨row, hrow, hkey⟩ :=
        Store.exists_dedupe_of_mem_batch sha256Hex svc.store.events 0 he
      refine Or.inl ⟨row, hevents ▸ hrow, hkey.trans ?_⟩
      rw [ConsoleEvent.dedupe, dedupeKey, henv, hfile, hoffset, hraw]
      rfl
    · exact Or.inr ⟨q, hquarantined ▸ hq, hof⟩

/-- A cycle that strands nothing has a row or a quarantined line for what it takes, and for what
it had one for before. -/
theorem pollOnce_keyed (sha256Hex : Bytes → Text) (h : StrandsNothing svc out)
    (hplaced : ∀ e ∈ svc.store.events, Placed svc.env e) :
    (∀ e ∈ (svc.pollOnce sha256Hex out).service.store.events, Placed svc.env e) ∧
      (∀ r, Keyed sha256Hex svc.env svc.store r →
        Keyed sha256Hex svc.env (svc.pollOnce sha256Hex out).service.store r) ∧
      ∀ r ∈ (svc.pollOnce sha256Hex out).taken,
        FromFile r ∧ Keyed sha256Hex svc.env (svc.pollOnce sha256Hex out).service.store r := by
  obtain ⟨htaken, c, hhandled, hevents, hquarantined⟩ := pollOnce_handled sha256Hex h
  have hfiles : ∀ r ∈ (yields out 0 svc.sources).1, FromFile r := fun r hr =>
    placed_of_mem_yields hr
  obtain ⟨hafter, hold, hnew⟩ := hhandled.keyed hfiles hplaced hevents hquarantined
  rw [htaken]
  exact ⟨hafter, hold, fun r hr => ⟨hfiles r hr, hnew r hr⟩⟩

end IngestService

/-- A service at work: the lines its calls have consumed, and whether the last step was a
call that returned `Ok`. -/
structure Tailing (F : Type) where
  service : IngestService F
  consumed : List RawRecord := []
  lastOk : Bool := false

/-- What happens to the service. The files may be other ones at every step. -/
inductive TailingAction
  | addFileSource (disk : Disk) (id : Text) (path : FilePath)
  | addPinnedFileSource (disk : Disk) (id : Text) (path : FilePath) (source : Text)
  | pollOnce (out : Outside)
  | restart

namespace Tailing

variable (sha256Hex : Bytes → Text)

/-- One step. A restart is a new service over the same store. -/
def step (w : Tailing F) : TailingAction → Option (Tailing F)
  | .addFileSource disk id path =>
      some { w with
        service := w.service.addFileSource sha256Hex disk id path
        lastOk := false }
  | .addPinnedFileSource disk id path source =>
      some { w with
        service := w.service.addPinnedFileSource sha256Hex disk id path source
        lastOk := false }
  | .pollOnce out =>
      let polled := w.service.pollOnce sha256Hex out
      some ⟨polled.service, w.consumed ++ polled.taken, polled.outcome.isOk⟩
  | .restart =>
      some { service := ⟨w.service.store, w.service.parseValid, w.service.env, [], ∅⟩ }

/-- A new service over an empty store. -/
def start (parseValid : Text → Except ConformReport (AgentEvent F)) (env : Text) : Tailing F where
  service := ⟨{}, parseValid, env, [], ∅⟩

/-- After a call that returned `Ok`, every line the service consumed is in a table. -/
def LosesNothing (w : Tailing F) : Prop :=
  w.lastOk = true → ∀ r ∈ w.consumed, Kept w.service.env w.service.store r

instance (w : Tailing F) : Decidable (LosesNothing w) := inferInstanceAs (Decidable (_ → _))

/-- The step is no call, or a call whose refusals strand no line. -/
def StepStrandsNothing (w : Tailing F) : TailingAction → Prop
  | .pollOnce out => w.service.StrandsNothing out
  | _ => True

/-- Every consumed line has a row under its key or is quarantined, and the events are lines of
this environment's files. -/
structure Sound (sha256Hex : Bytes → Text) (w : Tailing F) : Prop where
  placed : ∀ e ∈ w.service.store.events, Placed w.service.env e
  keyed : ∀ r ∈ w.consumed, FromFile r ∧ Keyed sha256Hex w.service.env w.service.store r

variable {sha256Hex}

theorem sound_step (w : Tailing F) (a : TailingAction) (w' : Tailing F) (hw : Sound sha256Hex w)
    (ha : StepStrandsNothing w a) (hstep : w.step sha256Hex a = some w') :
    Sound sha256Hex w' := by
  cases a with
  | addFileSource disk id path => cases hstep; exact ⟨hw.placed, hw.keyed⟩
  | addPinnedFileSource disk id path source => cases hstep; exact ⟨hw.placed, hw.keyed⟩
  | pollOnce out =>
      cases hstep
      obtain ⟨hplaced, hold, hnew⟩ := IngestService.pollOnce_keyed sha256Hex ha hw.placed
      have henv := IngestService.pollOnce_env w.service out sha256Hex
      refine ⟨fun e he => ?_, fun r hr => ?_⟩
      · exact henv.symm ▸ hplaced e he
      · simp only [henv]
        rcases List.mem_append.mp hr with hr | hr
        · exact (hw.keyed r hr).imp_right (hold r)
        · exact hnew r hr
  | restart => cases hstep; exact ⟨hw.placed, fun r hr => absurd hr List.not_mem_nil⟩

/-- In a run whose failed calls strand nothing, every consumed line is in a table. -/
theorem losesNothing_of_strandsNothing {parseValid : Text → Except ConformReport (AgentEvent F)}
    {env : Text} {actions : List TailingAction} {w : Tailing F}
    (hsha : Set.InjOn sha256Hex
      {bytes | bytes ∈ digested w.service.env w.service.store w.consumed})
    (halong : Transition.Along (step sha256Hex) StepStrandsNothing
      (start parseValid env) actions)
    (hrun : Transition.run (step sha256Hex) (start parseValid env) actions = some w) :
    LosesNothing w := by
  have hsound : Sound sha256Hex w := Transition.run_invariant_along sound_step halong hrun
    ⟨fun e he => absurd he List.not_mem_nil, fun r hr => absurd hr List.not_mem_nil⟩
  intro _ r hr
  obtain ⟨hfile, hkeyed⟩ := hsound.keyed r hr
  exact hkeyed.kept hsha hsound.placed hr hfile

end Tailing

section Sample

/-- A line as the budget product writes it. -/
def sampleLine : Text :=
  "\x7b\"schema\":\"taipanbox.dev/agent-event/v0.1\",\"ts\":\"2026-09-01T10:00:00Z\",\"source\":\"tokenfuse\",\"type\":\"budget_block\",\"agent_id\":\"agent://acme/pay/bot\"\x7d"

def sampleEvent : AgentEvent ℚ where
  schema := "taipanbox.dev/agent-event/v0.1"
  ts := "2026-09-01T10:00:00Z"
  source := "tokenfuse"
  eventType := "budget_block"
  agentId := "agent://acme/pay/bot"

def sampleParse (raw : Text) : Except ConformReport (AgentEvent ℚ) :=
  if raw = sampleLine then .ok sampleEvent
  else .error ⟨false, none, ["malformed json: expected value at line 1 column 1"]⟩

def busA : FilePath := ⟨"/bus/a.ndjson", by decide⟩

def busB : FilePath := ⟨"/bus/b.ndjson", by decide⟩

/-- One line in the first file and an empty second file. -/
def sampleDisk : Disk := fun path =>
  if path = busA.text then some ⟨Utf8.encode sampleLine ++ [10], some 1⟩
  else if path = busB.text then some ⟨[], some 2⟩
  else none

def sampleOutside : Outside where
  disk := sampleDisk
  now := fun _ => "2026-09-01T10:00:01+00:00"

end Sample

namespace Tailing

/-- A first call whose journaling is refused and a second call that succeeds. -/
def refusedJournal : List TailingAction :=
  [.addFileSource sampleDisk "filetail:a" busA,
    .pollOnce { sampleOutside with journalFault := some ([], "disk I/O error") },
    .pollOnce sampleOutside]

theorem losesNothing_refusedJournal :
    ∃ w, Transition.run (step plainDigest) (start sampleParse "prod") refusedJournal = some w ∧
      LosesNothing w := by
  obtain ⟨w, hrun⟩ : ∃ w, Transition.run (step plainDigest) (start sampleParse "prod")
    refusedJournal = some w := ⟨_, rfl⟩
  refine ⟨w, hrun, losesNothing_of_strandsNothing plainDigest_injective.injOn ?_ hrun⟩
  refine Transition.along_cons trivial rfl (Transition.along_cons ?_ rfl
    (Transition.along_cons ?_ rfl trivial))
  · exact ⟨⟨by decide +kernel, fun _ _ => rfl⟩, fun _ => ⟨by decide +kernel, rfl⟩⟩
  · exact ⟨⟨by decide +kernel, fun _ _ => rfl⟩, fun _ => ⟨by decide +kernel, rfl⟩⟩

/-- A line of the first file is taken, the poll of the second file is refused, and the next
call returns `Ok` without that line in either table. -/
theorem line_lost_after_refused_source :
    ¬ ∀ w, Transition.run (step plainDigest) (start sampleParse "prod")
      [.addFileSource sampleDisk "filetail:a" busA, .addFileSource sampleDisk "filetail:b" busB,
        .pollOnce { sampleOutside with
          sourceFault := fun i => if i = 1 then some (.opening "permission denied") else none },
        .pollOnce sampleOutside] = some w → LosesNothing w := by
  intro h
  exact absurd (h _ rfl) (by decide +kernel)

end Tailing

end Genaryx.Ingest

/-!
## Reading lines a second time

After a truncation, a rotation or a restart a file is read again from the top. The events
table knows its lines by their dedupe keys. The quarantine table and the broadcast do not.
-/

namespace Genaryx.Ingest

open Base Genaryx.Core

variable {F : Type} (sha256Hex : Bytes → Text)

/-- The event's line is in the events table. -/
def Stored (s : Store F) (e : ConsoleEvent F) : Prop :=
  e.dedupe sha256Hex ∈ s.events.map (ConsoleEvent.dedupe sha256Hex)

instance (s : Store F) (e : ConsoleEvent F) : Decidable (Stored sha256Hex s e) :=
  inferInstanceAs (Decidable (_ ∈ _))

/-- The row's line is in the quarantine table. -/
def Filed (s : Store F) (row : QuarantineRow) : Prop :=
  ∃ q ∈ s.quarantined, RowOf row.env ⟨row.raw, row.file, row.off⟩ q

/-- A call keeps both tables as they were but for lines that were not in them, and broadcasts
no event that was already stored. -/
structure Harmless (before : Store F) (polled : Polled F) : Prop where
  events : ∃ rows, polled.service.store.events = before.events ++ rows ∧
    ∀ e ∈ rows, ¬ Stored sha256Hex before e
  quarantine : ∃ rows, polled.service.store.quarantined = before.quarantined ++ rows ∧
    ∀ row ∈ rows, ¬ Filed before row
  broadcast : ∀ e ∈ polled.sent, ¬ Stored sha256Hex before e

namespace IngestService

variable (svc : IngestService F)

/-- The line is in the table where the service puts it. -/
def Ingested (r : RawRecord) : Prop :=
  if svc.accepts r then
    dedupeKey sha256Hex svc.env r.file r.offset r.raw ∈
      svc.store.events.map (ConsoleEvent.dedupe sha256Hex)
  else ∃ q ∈ svc.store.quarantined, RowOf svc.env r q

instance (r : RawRecord) : Decidable (svc.Ingested sha256Hex r) :=
  inferInstanceAs (Decidable (ite _ _ _))

variable {sha256Hex svc}

theorem stored_iff {r : RawRecord} {e : ConsoleEvent F} (h : EventOf svc.env r e) :
    Stored sha256Hex svc.store e ↔ dedupeKey sha256Hex svc.env r.file r.offset r.raw ∈
      svc.store.events.map (ConsoleEvent.dedupe sha256Hex) := by
  obtain ⟨henv, hfile, hoffset, hraw⟩ := h
  rw [Stored, ConsoleEvent.dedupe, henv, hfile, hoffset, hraw]

theorem filed_iff {r : RawRecord} {row : QuarantineRow} (h : RowOf svc.env r row) :
    Filed svc.store row ↔ ∃ q ∈ svc.store.quarantined, RowOf svc.env r q := by
  obtain ⟨henv, hfile, hoffset, hraw⟩ := h
  rw [Filed, henv, hfile, hoffset, hraw]

/-- A call that returns `Ok` is harmless exactly when no line that it reads was ingested
before. -/
theorem harmless_iff {out : Outside}
    (hok : (svc.pollOnce sha256Hex out).outcome.isOk = true) :
    Harmless sha256Hex svc.store (svc.pollOnce sha256Hex out) ↔
      ∀ r ∈ svc.newRecords out.disk, ¬ svc.Ingested sha256Hex r := by
  obtain ⟨c, stats, store, hhandled, hpolled, hevents, hquarantined⟩ :=
    pollOnce_stored sha256Hex hok
  rw [hpolled]
  obtain ⟨es, hes, hbatch⟩ := hhandled.batch
  obtain ⟨qs, hqs, hrefused⟩ := hhandled.quarantine
  rw [List.nil_append] at hes
  constructor
  · intro h r hr hingested
    rw [Ingested] at hingested
    split at hingested
    · next haccepts =>
        -- an accepted line is sent whether or not it was stored
        obtain ⟨e, he, hof⟩ := exists_of_forall₂ hbatch (List.mem_filter.mpr ⟨hr, haccepts⟩)
        refine h.broadcast e ?_ ((stored_iff hof).mpr hingested)
        rw [hes]
        exact he
    · next haccepts =>
        -- a refused line gets a row whether or not it has one
        obtain ⟨q, hq, hof⟩ := exists_of_forall₂ hrefused
          (List.mem_filter.mpr ⟨hr, by simpa using haccepts⟩)
        obtain ⟨rows, hrows, hnew⟩ := h.quarantine
        have hrows : store.quarantined = _ := hrows
        rw [hquarantined, hqs] at hrows
        refine hnew q ?_ ((filed_iff hof).mpr hingested)
        rw [← List.append_cancel_left hrows]
        exact hq
  · intro hnew
    refine ⟨?_, ⟨qs, hquarantined.trans hqs, ?_⟩, ?_⟩
    · obtain ⟨rows, hrows, hfresh⟩ :=
        Store.insertEvents_eq_append sha256Hex svc.store.events c.validEvents 0
      exact ⟨rows, hevents.trans hrows, hfresh⟩
    · intro q hq hfiled
      obtain ⟨r, hr, hof⟩ := exists_of_forall₂ hrefused.flip hq
      obtain ⟨hmem, haccepts⟩ := List.mem_filter.mp hr
      refine hnew r hmem ?_
      rw [Ingested, if_neg (by simpa using haccepts)]
      exact (filed_iff hof).mp hfiled
    · intro e he hstored
      have he : e ∈ c.validEvents := he
      rw [hes] at he
      obtain ⟨r, hr, hof⟩ := exists_of_forall₂ hbatch.flip he
      obtain ⟨hmem, haccepts⟩ := List.mem_filter.mp hr
      refine hnew r hmem ?_
      rw [Ingested, if_pos haccepts]
      exact (stored_iff hof).mp hstored

end IngestService

section Sample

/-- A bus file with a line that conforms and one that does not. -/
def twoLines (inode : Nat) : Disk := fun path =>
  if path = busA.text then
    some ⟨Utf8.encode sampleLine ++ [10] ++ Utf8.encode "not json".toList ++ [10], some inode⟩
  else none

/-- A call that finds the file with this inode. -/
def twoLinesOutside (inode : Nat) : Outside where
  disk := twoLines inode
  now := fun _ => "2026-09-01T10:00:01+00:00"

/-- A service that tails the file from the top, over an empty store. -/
def firstReading : IngestService ℚ :=
  (Tailing.start sampleParse "prod").service.addFileSource plainDigest (twoLines 1) "filetail:a"
    busA

theorem harmless_firstReading :
    Harmless plainDigest firstReading.store
      (firstReading.pollOnce plainDigest (twoLinesOutside 1)) :=
  (IngestService.harmless_iff (by decide +kernel)).mpr (by decide +kernel)

/-- A file that was rotated and rewritten with the same lines is read again after a restart:
its conforming line is broadcast a second time and its other line is quarantined a second
time. -/
theorem line_sent_again_after_rotation :
    ¬ ∀ w, Transition.run (Tailing.step plainDigest) (Tailing.start sampleParse "prod")
      [.addFileSource (twoLines 1) "filetail:a" busA, .pollOnce (twoLinesOutside 1), .restart,
        .addFileSource (twoLines 2) "filetail:a" busA] = some w →
      Harmless plainDigest w.service.store
        (w.service.pollOnce plainDigest (twoLinesOutside 2)) := by
  intro h
  exact absurd (h _ rfl).broadcast (by decide +kernel)

end Sample

end Genaryx.Ingest
