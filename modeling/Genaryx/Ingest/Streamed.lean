import Genaryx.Base.Digest
import Genaryx.Base.Transition
import Genaryx.Core.LastSeen
import Genaryx.Ingest.Failure
import Genaryx.Ingest.Live

/-!
# What the live stream shows

A live row is the stored row of the same line, but for its number and for how the numbers in its
data are read back. The numbers of live rows are no row's. A page is given the live rows in order,
up to those that it is told it missed. And no stored event is left out of the stream but those
that were there before and those of a cycle that failed after it stored them.
-/

namespace Genaryx.Ingest

open Base Genaryx.Core Json

variable {F : Type} {sha256Hex : Bytes → Text}

namespace IngestService

variable (svc : IngestService F) {out : Outside}

/-- The event is what the service reads of a line of a file. -/
structure Reads (e : ConsoleEvent F) : Prop where
  placed : Placed svc.env e
  parsed : svc.parseValid e.raw = .ok e.event

/-- The cycle has not touched the events and has collected only what the service reads. -/
structure Collects (events : List (ConsoleEvent F)) (c : Cycle F) : Prop where
  events : c.store.events = events
  batch : ∀ e ∈ c.validEvents, svc.Reads e

variable {svc}

theorem Collects.quarantineRecord {events : List (ConsoleEvent F)} {c : Cycle F}
    (h : svc.Collects events c) (reason receivedTs : Text) (r : RawRecord) :
    svc.Collects events (svc.quarantineRecord out reason receivedTs r c).2 := by
  unfold IngestService.quarantineRecord Store.quarantine
  cases out.quarantineFault c.stats.quarantined with
  | none => exact ⟨h.events, h.batch⟩
  | some message => exact ⟨h.events, h.batch⟩

theorem Collects.processRecord {events : List (ConsoleEvent F)} {c : Cycle F}
    (h : svc.Collects events c) (connector : Text) (i : Nat) {r : RawRecord}
    (hr : ∃ file offset, '\x00' ∉ file ∧ r.file = some file ∧ r.offset = some offset) :
    svc.Collects events (svc.processRecord out connector i c r).2 := by
  have hnoted : svc.Collects events
      { c with offsetsToJournal := noteOffset c.offsetsToJournal r } := ⟨h.events, h.batch⟩
  unfold IngestService.processRecord
  cases hparse : svc.parseValid r.raw with
  | error report => exact hnoted.quarantineRecord _ _ r
  | ok event =>
      dsimp only
      split
      · exact hnoted.quarantineRecord _ _ r
      · cases event.schemaVersion with
        | none => exact hnoted
        | some version =>
            refine ⟨h.events, ?_⟩
            intro e he
            rcases List.mem_append.mp he with hold | hnew
            · exact h.batch e hold
            · obtain rfl := List.mem_singleton.mp hnew
              exact ⟨⟨rfl, hr⟩, hparse⟩

theorem Collects.processRecords {events : List (ConsoleEvent F)} {connector : Text} {i : Nat}
    {c : Cycle F} {records : List RawRecord} (h : svc.Collects events c)
    (hrecords : ∀ r ∈ records,
      ∃ file offset, '\x00' ∉ file ∧ r.file = some file ∧ r.offset = some offset) :
    svc.Collects events (svc.processRecords out connector i c records).2 := by
  induction records generalizing i c with
  | nil => exact h
  | cons r rest ih =>
      have hstep : svc.Collects events (svc.processRecord out connector i c r).2 :=
        h.processRecord connector i (hrecords r List.mem_cons_self)
      rw [IngestService.processRecords]
      rcases hres : svc.processRecord out connector i c r with ⟨_ | _, d⟩ <;>
        rw [hres] at hstep
      · exact hstep
      · exact ih hstep fun r hr => hrecords r (List.mem_cons_of_mem _ hr)

theorem Collects.pollSources {events : List (ConsoleEvent F)} {i : Nat} {c : Cycle F}
    {sources : List FileTail} (h : svc.Collects events c) :
    svc.Collects events (svc.pollSources out i c sources).2.1 := by
  induction sources generalizing i c with
  | nil => exact h
  | cons t rest ih =>
      rw [IngestService.pollSources]
      rcases hpoll : t.poll (out.sourceFault i) out.disk with ⟨_ | records, t'⟩
      · exact h
      · dsimp only
        have hplaced : ∀ r ∈ records,
            ∃ file offset, '\x00' ∉ file ∧ r.file = some file ∧ r.offset = some offset := by
          intro r hr
          rw [(FileTail.poll_ok hpoll).1] at hr
          obtain ⟨hfile, offset, hoffset⟩ := FileTail.file_of_mem_newRecords hr
          exact ⟨t.path.text, offset, t.path.nulFree, hfile, hoffset⟩
        have hrest : svc.Collects events (svc.processRecords out t'.id c.taken.length
            { c with taken := c.taken ++ records } records).2 :=
          Collects.processRecords ⟨h.events, h.batch⟩ hplaced
        rcases hres : svc.processRecords out t'.id c.taken.length
            { c with taken := c.taken ++ records } records with ⟨_ | _, d⟩ <;>
          rw [hres] at hrest
        · exact hrest
        · exact ih hrest

/-- What one cycle does with the events: those of its batch that are not stored yet are stored, and
the batch is announced if the cycle returns `Ok` and nothing of it otherwise. -/
structure Cycled (svc : IngestService F) (sha256Hex : Bytes → Text) (batch : List (ConsoleEvent F))
    (polled : Polled F) : Prop where
  reads : ∀ e ∈ batch, svc.Reads e
  events : polled.service.store.events =
    (Store.insertEvents sha256Hex svc.store.events batch 0).1
  sent : polled.sent = if polled.outcome.isOk then batch else []

theorem exists_cycled (svc : IngestService F) (sha256Hex : Bytes → Text) (out : Outside) :
    ∃ batch, Cycled svc sha256Hex batch (svc.pollOnce sha256Hex out) := by
  have hcollects : svc.Collects svc.store.events
      (svc.pollSources out 0 { store := svc.store } svc.sources).2.1 :=
    Collects.pollSources ⟨rfl, fun e he => absurd he List.not_mem_nil⟩
  rcases hres : svc.pollSources out 0 { store := svc.store } svc.sources with ⟨_ | _, c, sources⟩ <;>
    rw [hres] at hcollects
  · refine ⟨[], fun e he => absurd he List.not_mem_nil, ?_, ?_⟩
    · simp only [pollOnce, hres]
      exact hcollects.events
    · simp only [pollOnce, hres]
      rfl
  rcases hinsert : c.store.insertBatch sha256Hex out.insertFault c.validEvents with ⟨err | n, s⟩
  · -- a refused insert stores nothing
    have hs : s = c.store := by
      unfold Store.insertBatch at hinsert
      split at hinsert
      · cases hinsert
      · split at hinsert
        · cases hinsert
          rfl
        · cases hinsert
    refine ⟨[], fun e he => absurd he List.not_mem_nil, ?_, ?_⟩
    · simp only [pollOnce, hres, hinsert, hs]
      exact hcollects.events
    · simp only [pollOnce, hres, hinsert]
      rfl
  · have hs := insertBatch_ok hinsert
    have hjournal := (journalOffsets_frame sha256Hex out
      (c.offsetsToJournal.entries.map fun entry => (entry.1, entry.2)) s).1
    have hevents : s.events =
        (Store.insertEvents sha256Hex svc.store.events c.validEvents 0).1 := by
      rw [hs, ← hcollects.events]
    refine ⟨c.validEvents, hcollects.batch, ?_, ?_⟩
    · simp only [pollOnce, hres, hinsert]
      rcases hj : journalOffsets sha256Hex out _ s with ⟨_ | _, s'⟩ <;> rw [hj] at hjournal <;>
        exact hjournal.trans hevents
    · simp only [pollOnce, hres, hinsert]
      rcases journalOffsets sha256Hex out _ s with ⟨_ | _, s'⟩ <;> rfl

theorem pollOnce_parseValid (svc : IngestService F) (out : Outside) (sha256Hex : Bytes → Text) :
    (svc.pollOnce sha256Hex out).service.parseValid = svc.parseValid := by
  unfold pollOnce
  split
  · rfl
  · split
    · rfl
    · dsimp only
      split <;> rfl

end IngestService

namespace Bus

variable {w v : Bus F}

/-- What holds of a process at any time. The feeder has turned what it was given into live rows,
numbered from -1 down. -/
structure Sound (sha256Hex : Bytes → Text) (w : Bus F) : Prop where
  stored : ∀ e ∈ w.service.store.events, w.service.Reads e
  sent : ∀ e ∈ w.channel.sent, w.service.Reads e ∧
    ∃ row ∈ w.service.store.events, row.dedupe sha256Hex = e.dedupe sha256Hex
  feeder : w.channel.Follows w.feeder
  from_start : w.feeder.start = 0
  hub : w.hub.sent = w.feeder.got.mapIdx fun i e => UiEvent.ofConsole (-1 - (i : Int)) e
  nextLiveId : w.nextLiveId = -1 - (w.feeder.got.length : Int)
  pages : ∀ page r, w.pages page = some r → w.hub.Follows r
  idle : w.phase = .idle → w.feeder.next = w.channel.sent.length
  accounted : ∀ e ∈ w.service.store.events,
    e ∈ w.inherited ∨ e ∈ w.unannounced ∨ e ∈ w.channel.sent

theorem sound_start {parseValid : Text → Except ConformReport (AgentEvent F)} {env : Text}
    {store : Store F}
    (h : ∀ e ∈ store.events, (start parseValid env store).service.Reads e) :
    Sound sha256Hex (start parseValid env store) where
  stored := h
  sent _ he := absurd he List.not_mem_nil
  feeder := Channel.follows_subscribe
  from_start := rfl
  hub := rfl
  nextLiveId := rfl
  pages _ _ hr := nomatch hr
  idle _ := rfl
  accounted _ he := Or.inl he

/-- A source that is taken up changes neither the store nor how a line is read. -/
theorem Sound.addSource (h : Sound sha256Hex w) {service : IngestService F}
    (hstore : service.store = w.service.store) (henv : service.env = w.service.env)
    (hparse : service.parseValid = w.service.parseValid) :
    Sound sha256Hex { w with service := service } := by
  have hreads : ∀ {e}, w.service.Reads e → service.Reads e := by
    intro e he
    exact ⟨henv.symm ▸ he.placed, hparse.symm ▸ he.parsed⟩
  refine { h with stored := ?_, sent := ?_, accounted := ?_ }
  · intro e he
    exact hreads (h.stored e (hstore ▸ he))
  · intro e he
    obtain ⟨hread, row, hrow, hkey⟩ := h.sent e he
    exact ⟨hreads hread, row, hstore.symm ▸ hrow, hkey⟩
  · intro e he
    exact h.accounted e (hstore ▸ he)

theorem Sound.poll (h : Sound sha256Hex w) (out : Outside) :
    Sound sha256Hex (w.poll sha256Hex out) := by
  obtain ⟨batch, hreads, hevents, hsent⟩ := IngestService.exists_cycled w.service sha256Hex out
  have henv := IngestService.pollOnce_env w.service out sha256Hex
  have hparse := IngestService.pollOnce_parseValid w.service out sha256Hex
  unfold Bus.poll
  generalize w.service.pollOnce sha256Hex out = polled at *
  dsimp only
  have hkeep : ∀ {e}, w.service.Reads e → polled.service.Reads e := by
    intro e he
    exact ⟨henv.symm ▸ he.placed, hparse.symm ▸ he.parsed⟩
  have hannounced : ∀ e ∈ polled.sent, e ∈ batch ∧ polled.outcome.isOk = true := by
    intro e he
    rw [hsent] at he
    split at he
    · next hok => exact ⟨he, hok⟩
    · cases he
  constructor
  · intro e he
    rw [hevents] at he
    rcases Store.mem_of_mem_insertEvents he with hold | hnew
    · exact hkeep (h.stored e hold)
    · exact hkeep (hreads e hnew)
  · intro e he
    rw [Channel.sendAll_sent] at he
    rw [hevents]
    rcases List.mem_append.mp he with hold | hnew
    · obtain ⟨hread, row, hrow, hkey⟩ := h.sent e hold
      exact ⟨hkeep hread, row, Store.mem_insertEvents_of_mem hrow, hkey⟩
    · have hbatch := (hannounced e hnew).1
      exact ⟨hkeep (hreads e hbatch),
        Store.exists_dedupe_of_mem_batch sha256Hex w.service.store.events 0 hbatch⟩
  · exact h.feeder.sendAll polled.sent
  · exact h.from_start
  · exact h.hub
  · exact h.nextLiveId
  · exact h.pages
  · -- only a failed cycle leaves the tailer idle, and it announces nothing
    intro hidle
    cases hok : polled.outcome.isOk with
    | true =>
        rw [hok] at hidle
        unfold Phase.after at hidle
        split at hidle
        · cases hidle
        · cases hidle
    | false =>
        rw [hok] at hidle hsent
        have hwas : w.phase = .idle := by
          unfold Phase.after at hidle
          split at hidle
          · cases hidle
          · exact hidle
        rw [Channel.sendAll_sent, hsent]
        exact (h.idle hwas).trans (by simp)
  · intro e he
    rw [Channel.sendAll_sent]
    obtain ⟨rows, hrows, -⟩ :=
      Store.insertEvents_eq_append sha256Hex w.service.store.events batch 0
    cases hok : polled.outcome.isOk with
    | true =>
        rw [hok, if_pos rfl] at hsent
        rw [hevents] at he
        rw [hsent, if_pos rfl]
        rcases Store.mem_of_mem_insertEvents he with hold | hnew
        · exact (h.accounted e hold).imp_right (Or.imp_right (List.mem_append_left _))
        · exact Or.inr (Or.inr (List.mem_append_right _ hnew))
    | false =>
        rw [if_neg Bool.false_ne_true, hevents, hrows, List.drop_left]
        rw [hevents, hrows] at he
        rcases List.mem_append.mp he with hold | hnew
        · exact (h.accounted e hold).imp_right
            (Or.imp (List.mem_append_left _) (List.mem_append_left _))
        · exact Or.inr (Or.inl (List.mem_append_right _ hnew))

/-- The tailer gives one live row for each event that it is given. -/
theorem Sound.drain (h : Sound sha256Hex w) (hphase : w.phase = .draining) :
    Sound sha256Hex w.drain := by
  have hfollows := h.feeder.tryRecv
  have hstart := (Channel.tryRecv_start w.channel w.feeder).trans h.from_start
  unfold Bus.drain
  rcases hheard : w.channel.tryRecv w.feeder with ⟨heard, feeder⟩
  rw [hheard] at hfollows hstart
  have hnotIdle : w.phase ≠ .idle := by
    rw [hphase]
    exact nofun
  cases heard with
  | empty =>
      have hsame := Channel.tryRecv_empty (congrArg Prod.fst hheard)
      obtain rfl : feeder = w.feeder := (congrArg Prod.snd hheard).symm.trans hsame
      refine { h with idle := ?_ }
      intro _
      exact h.feeder.next_eq (congrArg Prod.fst hheard)
  | lagged n =>
      have hsame := Channel.tryRecv_got (c := w.channel) (r := w.feeder) <| by
        rw [hheard]
        exact nofun
      rw [hheard] at hsame
      refine { h with feeder := hfollows, from_start := hstart, hub := ?_, nextLiveId := ?_,
                      idle := fun hidle => absurd hidle hnotIdle }
      · exact hsame.symm ▸ h.hub
      · exact hsame.symm ▸ h.nextLiveId
  | value e =>
      have hgot := (Channel.tryRecv_value (congrArg Prod.fst hheard)).1
      rw [hheard] at hgot
      refine { h with feeder := hfollows, from_start := hstart, hub := ?_, nextLiveId := ?_,
                      pages := ?_, idle := fun hidle => absurd hidle hnotIdle }
      · rw [Channel.send_sent, h.hub, hgot, List.mapIdx_append, h.nextLiveId]
        simp
      · dsimp only
        rw [hgot, h.nextLiveId, List.length_append, List.length_singleton]
        omega
      · intro page r hr
        exact (h.pages page r hr).send _

theorem Sound.setPage (h : Sound sha256Hex w) {page : Nat} {r : Option (Receiver (UiEvent F))}
    (hr : ∀ r' ∈ r, w.hub.Follows r') : Sound sha256Hex (w.setPage page r) := by
  refine { h with pages := ?_ }
  intro page' r' hpage
  change Function.update w.pages page r page' = some r' at hpage
  by_cases heq : page' = page
  · rw [heq, Function.update_self] at hpage
    exact hr r' hpage
  · rw [Function.update_of_ne heq] at hpage
    exact h.pages page' r' hpage

theorem parseValid_step {a : BusAction F} (hstep : w.step sha256Hex a = some v) :
    v.service.parseValid = w.service.parseValid := by
  cases a with
  | addFileSource disk id path =>
      obtain ⟨-, hv⟩ := Option.ite_none_right_eq_some.mp hstep
      cases hv
      rfl
  | addPinnedFileSource disk id path source =>
      obtain ⟨-, hv⟩ := Option.ite_none_right_eq_some.mp hstep
      cases hv
      rfl
  | poll out =>
      obtain ⟨-, hv⟩ := Option.ite_none_right_eq_some.mp hstep
      cases hv
      exact IngestService.pollOnce_parseValid w.service out sha256Hex
  | drain =>
      obtain ⟨-, hv⟩ := Option.ite_none_right_eq_some.mp hstep
      cases hv
      unfold drain
      split <;> rfl
  | connect page =>
      rw [step] at hstep
      split at hstep <;> cases hstep
      rfl
  | read page =>
      rw [step] at hstep
      split at hstep
      · cases hstep
      · split at hstep <;> cases hstep
        rfl
  | leave page =>
      cases hstep
      rfl
  | restart keeps =>
      cases hstep
      rfl

theorem sound_step (w : Bus F) (a : BusAction F) (v : Bus F) (h : Sound sha256Hex w)
    (hstep : w.step sha256Hex a = some v) : Sound sha256Hex v := by
  cases a with
  | addFileSource disk id path =>
      obtain ⟨-, hv⟩ := Option.ite_none_right_eq_some.mp hstep
      cases hv
      exact h.addSource rfl rfl rfl
  | addPinnedFileSource disk id path source =>
      obtain ⟨-, hv⟩ := Option.ite_none_right_eq_some.mp hstep
      cases hv
      exact h.addSource rfl rfl rfl
  | poll out =>
      obtain ⟨-, hv⟩ := Option.ite_none_right_eq_some.mp hstep
      cases hv
      exact h.poll out
  | drain =>
      obtain ⟨hphase, hv⟩ := Option.ite_none_right_eq_some.mp hstep
      cases hv
      exact h.drain hphase
  | connect page =>
      rw [step] at hstep
      split at hstep
      · cases hstep
        apply h.setPage
        rintro r' ⟨⟩
        exact Channel.follows_subscribe
      · cases hstep
  | read page =>
      rw [step] at hstep
      split at hstep
      · cases hstep
      · next r hr =>
          have hfollows := (h.pages page r hr).tryRecv
          split at hstep
          · cases hstep
          · next r' _ hread =>
              rw [hread] at hfollows
              cases hstep
              apply h.setPage
              rintro r'' ⟨⟩
              exact hfollows
  | leave page =>
      cases hstep
      apply h.setPage
      exact nofun
  | restart keeps =>
      cases hstep
      apply sound_start
      intro e he
      have hread := h.stored e (List.mem_filter.mp he).1
      exact ⟨hread.placed, hread.parsed⟩

end Bus

/-- What a service reads of the same line of the same file is the same event. -/
theorem IngestService.Reads.ofConsole_eq {svc : IngestService F} {row e : ConsoleEvent F}
    (hrow : svc.Reads row) (he : svc.Reads e) (hbytes : row.keyBytes = e.keyBytes) (id : Int) :
    UiEvent.ofConsole id row = UiEvent.ofConsole id e := by
  obtain ⟨⟨hrowEnv, rowFile, rowOffset, hrowNul, hrowFile, hrowOffset⟩, hrowParsed⟩ := hrow
  obtain ⟨⟨heEnv, file, offset, hnul, heFile, heOffset⟩, heParsed⟩ := he
  have htext := Utf8.encode_injective hbytes
  rw [hrowEnv, hrowFile, hrowOffset, heEnv, heFile, heOffset] at htext
  obtain ⟨hfile, hoffset, hraw⟩ := dedupeText_inj hrowNul hnul htext
  have hevent : row.event = e.event := by
    rw [hraw, heParsed] at hrowParsed
    exact (Except.ok.inj hrowParsed).symm
  rw [UiEvent.ofConsole, UiEvent.ofConsole, hevent, hraw, hrowEnv, heEnv, hrowFile, heFile,
    hrowOffset, heOffset, hfile, hoffset]

section Rows

variable [DecidableEq F] (E : Engine F)

/-- A stored row is the live row of its event, with the numbers in its data read back. -/
theorem exists_storedRow {e : ConsoleEvent F}
    (hdata : ∀ v, e.event.data = some v → v.Ordered ∧ v.depth ≤ recursionLimit) (id : Nat) :
    ∃ row, storedRow E id e = .ok row ∧
      UiEvent.ofStored row =
        { UiEvent.ofConsole id e with
          data := e.event.data.map (Value.mapNumbers E.codec.reread) } := by
  have hchain : E.chainColumn (onBehalfOfColumn E.codec e.event.onBehalfOf) =
      .ok e.event.onBehalfOf := by
    unfold onBehalfOfColumn Engine.chainColumn
    cases e.event.onBehalfOf with
    | nil => rfl
    | cons text rest =>
        have hread := textsOf_toText E.codec (text :: rest)
        simp only [List.isEmpty_cons, Bool.false_eq_true, if_false, hread]
  have hjson : E.jsonColumn (E.dataOf e) =
      .ok (e.event.data.map (Value.mapNumbers E.codec.reread)) := by
    unfold Engine.dataOf
    cases hv : e.event.data with
    | none => rfl
    | some v =>
        obtain ⟨hordered, hdepth⟩ := hdata v hv
        rw [dataColumn, Engine.jsonColumn, E.codec.fromStr_toText hordered hdepth]
        rfl
  have hcolumns : E.storedEventFromRow e = .ok ⟨e.event.ts, e.event.source, e.event.eventType,
      e.event.agentId, e.event.runId, e.event.onBehalfOf,
      e.event.data.map (Value.mapNumbers E.codec.reread)⟩ := by
    rw [Engine.storedEventFromRow, hchain, hjson]
    rfl
  exact ⟨_, by rw [storedRow, hcolumns], rfl⟩

/-- The live rows of a process are stored rows, numbered from -1 down, and each page is given them
in order from where it opened the stream, up to as many as it is told that it missed. -/
structure ShowsStored (w : Bus F) : Prop where
  rows : ∀ ui ∈ w.hub.sent, ∃ e ∈ w.service.store.events, ∀ id : Nat, ∃ row,
    storedRow E id e = .ok row ∧
      UiEvent.ofStored row =
        { ui with id := id, data := ui.data.map (Value.mapNumbers E.codec.reread) }
  ids : w.hub.sent.map UiEvent.id = (List.range w.hub.sent.length).map fun i : Nat => -1 - (i : Int)
  pages : ∀ page r, w.pages page = some r → w.hub.Follows r

end Rows

section Runs

variable {parseValid : Text → Except ConformReport (AgentEvent F)} {env : Text} {w : Bus F}
  {actions : List (BusAction F)}

theorem Bus.sound_of_run (hrun : Transition.run (Bus.step sha256Hex)
    (Bus.start parseValid env {}) actions = some w) : w.Sound sha256Hex :=
  Transition.run_invariant Bus.sound_step hrun
    (Bus.sound_start fun _ he => absurd he List.not_mem_nil)

theorem Bus.parseValid_of_run (hrun : Transition.run (Bus.step sha256Hex)
    (Bus.start parseValid env {}) actions = some w) : w.service.parseValid = parseValid := by
  have hstep : ∀ (w : Bus F) a v, w.service.parseValid = parseValid →
      w.step sha256Hex a = some v → v.service.parseValid = parseValid := by
    intro w a v h hstep
    exact (Bus.parseValid_step hstep).trans h
  exact Transition.run_invariant hstep hrun rfl

/-- A page shows on the live stream what it shows after it is loaded again. -/
theorem live_rows_stored [DecidableEq F] (E : Engine F)
    (hsha : Set.InjOn sha256Hex
      {bytes | bytes ∈ (w.service.store.events ++ w.channel.sent).map ConsoleEvent.keyBytes})
    (hdata : ∀ raw event, parseValid raw = .ok event →
      ∀ v, event.data = some v → v.Ordered ∧ v.depth ≤ recursionLimit)
    (hrun : Transition.run (Bus.step sha256Hex) (Bus.start parseValid env {}) actions = some w) :
    ShowsStored E w := by
  have hsound := Bus.sound_of_run hrun
  have hparse := Bus.parseValid_of_run hrun
  constructor
  · intro ui hui
    rw [hsound.hub] at hui
    obtain ⟨i, hi, rfl⟩ := List.mem_mapIdx.mp hui
    have hgot : w.feeder.got[i] ∈ w.channel.sent :=
      List.mem_of_mem_take (List.mem_of_mem_drop (hsound.feeder.got.subset (List.getElem_mem hi)))
    obtain ⟨hread, e, he, hkey⟩ := hsound.sent _ hgot
    have hbytes : e.keyBytes = (w.feeder.got[i]).keyBytes :=
      hsha (List.mem_map_of_mem (List.mem_append_left _ he))
        (List.mem_map_of_mem (List.mem_append_right _ hgot)) hkey
    have hsame := (hsound.stored e he).ofConsole_eq hread hbytes
    refine ⟨e, he, ?_⟩
    intro id
    obtain ⟨row, hrow, hshows⟩ := exists_storedRow E
      (hdata e.raw e.event (hparse ▸ (hsound.stored e he).parsed)) id
    refine ⟨row, hrow, hshows.trans ?_⟩
    have hevent : e.event.data = (w.feeder.got[i]).event.data := congrArg UiEvent.data (hsame id)
    rw [hsame id, hevent]
    rfl
  · rw [hsound.hub, List.length_mapIdx]
    apply List.ext_getElem
    · simp
    · intro i hi _
      simp [UiEvent.ofConsole]
  · exact hsound.pages

/-- Once the tailer has drained its channel, the stream has shown every stored event, but for those
that were stored before the process started, those of a cycle that failed before it announced them
and as many as the tailer was told that it missed. -/
theorem stored_rows_streamed (hrun : Transition.run (Bus.step sha256Hex)
    (Bus.start parseValid env {}) actions = some w) (hidle : w.phase = .idle) :
    w.hub.sent.length + w.feeder.missed = w.channel.sent.length ∧
      (w.feeder.missed = 0 → ∀ e ∈ w.service.store.events, e ∈ w.inherited ∨ e ∈ w.unannounced ∨
        ∃ id, UiEvent.ofConsole id e ∈ w.hub.sent) := by
  have hsound := Bus.sound_of_run hrun
  have hnext := hsound.idle hidle
  constructor
  · have hcounted := hsound.feeder.counted
    rw [hsound.from_start, Nat.sub_zero, hnext] at hcounted
    rw [hsound.hub, List.length_mapIdx, hcounted]
  · intro hmissed e he
    refine (hsound.accounted e he).imp_right (Or.imp_right ?_)
    intro hsent
    have hgot : w.feeder.got = w.channel.sent := by
      rw [hsound.feeder.got_eq hmissed, Channel.past, hsound.from_start, hnext, List.take_length,
        List.drop_zero]
    rw [← hgot] at hsent
    obtain ⟨i, hi, rfl⟩ := List.mem_iff_getElem.mp hsent
    refine ⟨-1 - (i : Int), ?_⟩
    rw [hsound.hub]
    exact List.mem_mapIdx.mpr ⟨i, hi, rfl⟩

end Runs

section Sample

/-- A file with a number of denials. -/
def denials (n : Nat) : Disk := fun path =>
  if path = busA.text then
    some ⟨Utf8.encode (List.replicate n "denied\n".toList).flatten, some 1⟩
  else none

def parseDenied (raw : Text) : Except ConformReport (AgentEvent Empty) :=
  if raw = "denied" then .ok denial else .error ⟨false, none, []⟩

def denialsOutside (n : Nat) : Outside where
  disk := denials n
  now := fun _ => "2026-09-01T10:00:01+00:00"

/-- A denial that is there when the process starts, and another one that is written later. -/
def twoDenialsStreamed : List (BusAction Empty) :=
  [.connect 0, .addFileSource (denials 1) "filetail:a" busA, .poll (denialsOutside 1),
    .poll (denialsOutside 2), .drain, .drain, .drain, .read 0, .read 0]

theorem live_rows_stored_twoDenials : ∃ w,
    Transition.run (Bus.step plainDigest) (Bus.start parseDenied "prod" {}) twoDenialsStreamed =
        some w ∧
      w.hub.sent.length = 2 ∧ ShowsStored sampleEngine w := by
  obtain ⟨w, hrun, hlength⟩ : ∃ w, Transition.run (Bus.step plainDigest)
      (Bus.start parseDenied "prod" {}) twoDenialsStreamed = some w ∧ w.hub.sent.length = 2 :=
    ⟨_, rfl, rfl⟩
  refine ⟨w, hrun, hlength, live_rows_stored sampleEngine plainDigest_injective.injOn ?_ hrun⟩
  intro raw event hparse v hv
  unfold parseDenied at hparse
  split at hparse <;> cases hparse
  cases hv

theorem stored_rows_streamed_twoDenials : ∃ w,
    Transition.run (Bus.step plainDigest) (Bus.start parseDenied "prod" {}) twoDenialsStreamed =
        some w ∧
      w.feeder.missed = 0 ∧ w.service.store.events.length = 2 ∧
        ∀ e ∈ w.service.store.events, e ∈ w.inherited ∨ e ∈ w.unannounced ∨
          ∃ id, UiEvent.ofConsole id e ∈ w.hub.sent := by
  obtain ⟨w, hrun, hidle, hmissed, hlength⟩ : ∃ w, Transition.run (Bus.step plainDigest)
      (Bus.start parseDenied "prod" {}) twoDenialsStreamed = some w ∧ w.phase = .idle ∧
        w.feeder.missed = 0 ∧ w.service.store.events.length = 2 := ⟨_, rfl, rfl, rfl, rfl⟩
  exact ⟨w, hrun, hmissed, hlength, (stored_rows_streamed hrun hidle).2 hmissed⟩

end Sample

end Genaryx.Ingest
