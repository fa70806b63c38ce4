import Genaryx.Ingest.Service

/-!
# What one cycle does

One record either joins the batch, or goes to quarantine, or ends the cycle. From that
follow what a cycle leaves alone and what it keeps of the lines it took.
-/

namespace Genaryx.Ingest

open Base Genaryx.Core

variable {F : Type}

/-- The stored event is this record's line. -/
def EventOf (env : Text) (r : RawRecord) (e : ConsoleEvent F) : Prop :=
  e.provenance.env = env ∧ e.provenance.file = r.file ∧ e.provenance.offset = r.offset ∧
    e.raw = r.raw

/-- The quarantined row is this record's line. -/
def RowOf (env : Text) (r : RawRecord) (q : QuarantineRow) : Prop :=
  q.env = env ∧ q.file = r.file ∧ q.off = r.offset ∧ q.raw = r.raw

instance (env : Text) (r : RawRecord) (e : ConsoleEvent F) : Decidable (EventOf env r e) :=
  inferInstanceAs (Decidable (_ ∧ _))

instance (env : Text) (r : RawRecord) (q : QuarantineRow) : Decidable (RowOf env r q) :=
  inferInstanceAs (Decidable (_ ∧ _))

theorem exists_of_forall₂ {α β : Type*} {R : α → β → Prop} {xs : List α} {ys : List β}
    (h : List.Forall₂ R xs ys) {x : α} (hx : x ∈ xs) : ∃ y ∈ ys, R x y := by
  induction h with
  | nil => cases hx
  | cons hxy _ ih =>
      rcases List.mem_cons.mp hx with rfl | hx
      · exact ⟨_, List.mem_cons_self, hxy⟩
      · obtain ⟨y, hy, hxy⟩ := ih hx
        exact ⟨y, List.mem_cons_of_mem _ hy, hxy⟩

/-- The cycle after it noted a record's offset. -/
def Cycle.noted (c : Cycle F) (r : RawRecord) : Cycle F :=
  { c with offsetsToJournal := noteOffset c.offsetsToJournal r }

/-- The cycle with one more event in its batch. -/
def Cycle.batched (c : Cycle F) (e : ConsoleEvent F) : Cycle F :=
  { c with validEvents := c.validEvents ++ [e] }

/-- The cycle after it quarantined one line. -/
def Cycle.quarantining (c : Cycle F) (q : QuarantineRow) : Cycle F :=
  { c with
    store := { c.store with quarantined := c.store.quarantined ++ [q] }
    stats := { c.stats with quarantined := c.stats.quarantined + 1 } }

namespace IngestService

variable (svc : IngestService F) (out : Outside)

/-- The line conforms and its stream may carry it. -/
def accepts (r : RawRecord) : Bool :=
  match svc.parseValid r.raw with
  | .ok event => !svc.refusedByPin r event
  | .error _ => false

/-- The line, if it conforms, declares a schema the console knows. -/
def schemaKnown (r : RawRecord) : Bool :=
  match svc.parseValid r.raw with
  | .ok event => event.schemaVersion.isSome
  | .error _ => true

/-- The four ways one record can go. -/
inductive RecordStep (c : Cycle F) (r : RawRecord) : Except Error Unit → Cycle F → Prop
  | batched (e : ConsoleEvent F) (haccepts : svc.accepts r = true)
      (he : EventOf svc.env r e) : RecordStep c r (.ok ()) ((c.noted r).batched e)
  | unrecognized (e : Error) (haccepts : svc.accepts r = true)
      (hschema : svc.schemaKnown r = false) : RecordStep c r (.error e) (c.noted r)
  | quarantined (q : QuarantineRow) (haccepts : svc.accepts r = false)
      (hq : RowOf svc.env r q) : RecordStep c r (.ok ()) ((c.noted r).quarantining q)
  | refused (e : Error) (haccepts : svc.accepts r = false)
      (hfault : out.quarantineFault c.stats.quarantined ≠ none) :
      RecordStep c r (.error e) (c.noted r)

theorem quarantineRecord_step (reason receivedTs : Text) (c : Cycle F) (r : RawRecord)
    (haccepts : svc.accepts r = false) :
    RecordStep svc out c r (svc.quarantineRecord out reason receivedTs r (c.noted r)).1
      (svc.quarantineRecord out reason receivedTs r (c.noted r)).2 := by
  cases hfault : out.quarantineFault c.stats.quarantined with
  | none =>
      simp only [quarantineRecord, Store.quarantine, Cycle.noted, hfault]
      exact .quarantined ⟨svc.env, r.file, r.offset, r.raw, reason, receivedTs⟩ haccepts
        ⟨rfl, rfl, rfl, rfl⟩
  | some message =>
      simp only [quarantineRecord, Store.quarantine, Cycle.noted, hfault]
      exact .refused _ haccepts (by simp [hfault])

/-- Every record goes one of the four ways. -/
theorem processRecord_step (connector : Text) (i : Nat) (c : Cycle F) (r : RawRecord) :
    RecordStep svc out c r (svc.processRecord out connector i c r).1
      (svc.processRecord out connector i c r).2 := by
  cases hparse : svc.parseValid r.raw with
  | error report =>
      simp only [processRecord, hparse]
      exact svc.quarantineRecord_step out _ _ c r (by simp [accepts, hparse])
  | ok event =>
      cases hpin : svc.refusedByPin r event with
      | true =>
          simp only [processRecord, hparse, hpin, if_true]
          exact svc.quarantineRecord_step out _ _ c r (by simp [accepts, hparse, hpin])
      | false =>
          have haccepts : svc.accepts r = true := by simp [accepts, hparse, hpin]
          cases hschema : event.schemaVersion with
          | none =>
              simp only [processRecord, hparse, hpin, hschema, Bool.false_eq_true, if_false]
              exact .unrecognized _ haccepts (by simp [schemaKnown, hparse, hschema])
          | some version =>
              simp only [processRecord, hparse, hpin, hschema, Bool.false_eq_true, if_false]
              exact .batched _ haccepts ⟨rfl, rfl, rfl, rfl⟩

/-- The complete lines past the offsets of the service's tails, as records. -/
def newRecords (disk : Disk) : List RawRecord :=
  svc.sources.flatMap (FileTail.newRecords disk)

/-- The records have all gone into the batch or to quarantine, in order. -/
structure Handled (records : List RawRecord) (c c' : Cycle F) : Prop where
  events : c'.store.events = c.store.events
  sourceOffsets : c'.store.sourceOffsets = c.store.sourceOffsets
  offsets : c'.offsetsToJournal = records.foldl noteOffset c.offsetsToJournal
  batch : ∃ es, c'.validEvents = c.validEvents ++ es ∧
    List.Forall₂ (EventOf svc.env) (records.filter svc.accepts) es
  quarantine : ∃ qs, c'.store.quarantined = c.store.quarantined ++ qs ∧
    List.Forall₂ (RowOf svc.env) (records.filter fun r => !svc.accepts r) qs
  count : c'.stats.quarantined =
    c.stats.quarantined + (records.filter fun r => !svc.accepts r).length

variable {svc out}

namespace Handled

theorem refl (c : Cycle F) : svc.Handled [] c c :=
  ⟨rfl, rfl, rfl, ⟨[], by simp⟩, ⟨[], by simp⟩, rfl⟩

theorem trans {xs ys : List RawRecord} {c d e : Cycle F} (h : svc.Handled xs c d)
    (h' : svc.Handled ys d e) : svc.Handled (xs ++ ys) c e := by
  obtain ⟨es, hes, hbatch⟩ := h.batch
  obtain ⟨es', hes', hbatch'⟩ := h'.batch
  obtain ⟨qs, hqs, hquarantine⟩ := h.quarantine
  obtain ⟨qs', hqs', hquarantine'⟩ := h'.quarantine
  refine ⟨h'.events.trans h.events, h'.sourceOffsets.trans h.sourceOffsets, ?_,
    ⟨es ++ es', ?_, ?_⟩, ⟨qs ++ qs', ?_, ?_⟩, ?_⟩
  · rw [h'.offsets, h.offsets, List.foldl_append]
  · rw [hes', hes, List.append_assoc]
  · rw [List.filter_append]
    exact List.rel_append hbatch hbatch'
  · rw [hqs', hqs, List.append_assoc]
  · rw [List.filter_append]
    exact List.rel_append hquarantine hquarantine'
  · rw [h'.count, h.count, List.filter_append, List.length_append, Nat.add_assoc]

/-- A record step that succeeds handles its record. -/
theorem of_step {c c' : Cycle F} {r : RawRecord}
    (h : RecordStep svc out c r (.ok ()) c') : svc.Handled [r] c c' := by
  cases h with
  | batched e haccepts he =>
      exact ⟨rfl, rfl, rfl, ⟨[e], rfl, by simpa [haccepts] using he⟩,
        ⟨[], by simp [Cycle.batched, Cycle.noted], by simp [haccepts]⟩,
        by simp [haccepts, Cycle.batched, Cycle.noted]⟩
  | quarantined q haccepts hq =>
      exact ⟨rfl, rfl, rfl,
        ⟨[], by simp [Cycle.quarantining, Cycle.noted], by simp [haccepts]⟩,
        ⟨[q], rfl, by simpa [haccepts] using hq⟩,
        by simp [haccepts, Cycle.quarantining, Cycle.noted]⟩

/-- Every handled record is in the batch or in quarantine. -/
theorem mem {records : List RawRecord} {c c' : Cycle F} (h : svc.Handled records c c')
    {r : RawRecord} (hr : r ∈ records) :
    (∃ e ∈ c'.validEvents, EventOf svc.env r e) ∨
      ∃ q ∈ c'.store.quarantined, RowOf svc.env r q := by
  cases haccepts : svc.accepts r with
  | true =>
      obtain ⟨es, hes, hbatch⟩ := h.batch
      obtain ⟨e, he, hof⟩ := exists_of_forall₂ hbatch (List.mem_filter.mpr ⟨hr, haccepts⟩)
      exact Or.inl ⟨e, hes ▸ List.mem_append_right _ he, hof⟩
  | false =>
      obtain ⟨qs, hqs, hquarantine⟩ := h.quarantine
      obtain ⟨q, hq, hof⟩ := exists_of_forall₂ hquarantine
        (List.mem_filter.mpr ⟨hr, by simp [haccepts]⟩)
      exact Or.inr ⟨q, hqs ▸ List.mem_append_right _ hq, hof⟩

/-- The batch only grows by events of the handled records. -/
theorem mem_batch {records : List RawRecord} {c c' : Cycle F} (h : svc.Handled records c c')
    {e : ConsoleEvent F} (he : e ∈ c'.validEvents) :
    e ∈ c.validEvents ∨ ∃ r ∈ records, svc.accepts r = true ∧ EventOf svc.env r e := by
  obtain ⟨es, hes, hbatch⟩ := h.batch
  rw [hes] at he
  rcases List.mem_append.mp he with hold | hnew
  · exact Or.inl hold
  · obtain ⟨r, hr, hof⟩ := exists_of_forall₂ hbatch.flip hnew
    exact Or.inr ⟨r, (List.mem_filter.mp hr).1, (List.mem_filter.mp hr).2, hof⟩

end Handled

theorem RecordStep.taken_eq {c c' : Cycle F} {r : RawRecord} {outcome : Except Error Unit}
    (h : RecordStep svc out c r outcome c') : c'.taken = c.taken := by
  cases h <;> rfl

theorem processRecords_taken {connector : Text} {i : Nat} {c c' : Cycle F}
    {records : List RawRecord} {outcome : Except Error Unit}
    (h : svc.processRecords out connector i c records = (outcome, c')) :
    c'.taken = c.taken := by
  induction records generalizing i c with
  | nil => cases h; rfl
  | cons r rest ih =>
      have hstep := svc.processRecord_step out connector i c r
      rw [processRecords] at h
      rcases hres : svc.processRecord out connector i c r with ⟨_ | _, d⟩ <;>
        rw [hres] at hstep h
      · cases h
        exact hstep.taken_eq
      · exact (ih h).trans hstep.taken_eq

/-- A source's records that were all processed are all handled. -/
theorem processRecords_handled {connector : Text} {i : Nat} {c c' : Cycle F}
    {records : List RawRecord}
    (h : svc.processRecords out connector i c records = (.ok (), c')) :
    svc.Handled records c c' := by
  induction records generalizing i c with
  | nil => cases h; exact .refl _
  | cons r rest ih =>
      have hstep := svc.processRecord_step out connector i c r
      rw [processRecords] at h
      rcases hres : svc.processRecord out connector i c r with ⟨_ | _, d⟩ <;>
        rw [hres] at hstep h
      · cases h
      · exact (Handled.of_step hstep).trans (ih h)

/-- The cycle's quarantine writes for these records are not refused, and every accepted
one declares a schema the console knows. -/
structure Untroubled (svc : IngestService F) (out : Outside) (quarantined : Nat)
    (records : List RawRecord) : Prop where
  schemas : ∀ r ∈ records, svc.accepts r = true → svc.schemaKnown r = true
  quarantine : ∀ n, n < (records.filter fun r => !svc.accepts r).length →
    out.quarantineFault (quarantined + n) = none

theorem Untroubled.append {quarantined : Nat} {xs ys : List RawRecord}
    (h : Untroubled svc out quarantined (xs ++ ys)) :
    Untroubled svc out quarantined xs ∧
      Untroubled svc out (quarantined + (xs.filter fun r => !svc.accepts r).length) ys := by
  refine ⟨⟨fun r hr => h.schemas r (List.mem_append_left _ hr), fun n hn => ?_⟩,
    ⟨fun r hr => h.schemas r (List.mem_append_right _ hr), fun n hn => ?_⟩⟩
  · exact h.quarantine n (by rw [List.filter_append, List.length_append]; omega)
  · rw [Nat.add_assoc]
    exact h.quarantine _ (by rw [List.filter_append, List.length_append]; omega)

/-- Untroubled records are all processed. -/
theorem processRecords_ok (connector : Text) (i : Nat) {c : Cycle F}
    {records : List RawRecord} (h : Untroubled svc out c.stats.quarantined records) :
    ∃ c', svc.processRecords out connector i c records = (.ok (), c') := by
  induction records generalizing i c with
  | nil => exact ⟨c, rfl⟩
  | cons r rest ih =>
      have happend : Untroubled svc out c.stats.quarantined ([r] ++ rest) := h
      obtain ⟨hr, hrest⟩ := happend.append
      have hstep := svc.processRecord_step out connector i c r
      rw [processRecords]
      rcases hres : svc.processRecord out connector i c r with ⟨_ | _, d⟩ <;>
        rw [hres] at hstep
      · cases hstep with
        | unrecognized e haccepts hschema =>
            rw [hr.schemas r (List.mem_singleton_self r) haccepts] at hschema
            cases hschema
        | refused e haccepts hfault =>
            exact absurd (hr.quarantine 0 (by simp [haccepts])) hfault
      · rw [← (Handled.of_step hstep).count] at hrest
        exact ih _ hrest

variable (out) in
/-- The records that the sources yield, up to the first poll that is refused, and whether
one is. -/
def yields : Nat → List FileTail → List RawRecord × Bool
  | _, [] => ([], false)
  | i, source :: rest =>
      match (source.poll (out.sourceFault i) out.disk).1 with
      | .error _ => ([], true)
      | .ok records => (records ++ (yields (i + 1) rest).1, (yields (i + 1) rest).2)

theorem Handled.of_taken {records taken : List RawRecord} {c c' : Cycle F}
    (h : svc.Handled records { c with taken := taken } c') : svc.Handled records c c' :=
  ⟨h.events, h.sourceOffsets, h.offsets, h.batch, h.quarantine, h.count⟩

/-- A cycle that gets past its sources has handled all new records of all of them. -/
theorem pollSources_handled {i : Nat} {c c' : Cycle F} {sources sources' : List FileTail}
    (h : svc.pollSources out i c sources = (.ok (), c', sources')) :
    svc.Handled (sources.flatMap (FileTail.newRecords out.disk)) c c' ∧
      c'.taken = c.taken ++ sources.flatMap (FileTail.newRecords out.disk) ∧
      sources' = sources.map (FileTail.advanced out.disk) := by
  induction sources generalizing i c c' sources' with
  | nil =>
      cases h
      exact ⟨.refl _, by simp, rfl⟩
  | cons t rest ih =>
      rw [pollSources] at h
      rcases hpoll : t.poll (out.sourceFault i) out.disk with ⟨_ | records, t'⟩ <;>
        simp only [hpoll, Prod.mk.injEq, reduceCtorEq, false_and] at h
      rcases hrecords : svc.processRecords out t'.id c.taken.length
          { c with taken := c.taken ++ records } records with ⟨_ | _, d⟩ <;>
        simp only [hrecords, Prod.mk.injEq, reduceCtorEq, false_and] at h
      obtain ⟨hok, hcycle, hsources⟩ := h
      obtain ⟨hnew, hadvanced⟩ := FileTail.poll_ok hpoll
      have hd := processRecords_taken hrecords
      obtain ⟨hhandled, htaken, hrest⟩ := ih (Prod.ext hok (Prod.ext hcycle rfl))
      rw [List.flatMap_cons, ← hnew]
      refine ⟨(Handled.of_taken (processRecords_handled hrecords)).trans hhandled, ?_, ?_⟩
      · rw [htaken, hd, List.append_assoc]
      · rw [← hsources, hadvanced]
        exact congrArg (List.cons _) hrest

/-- A cycle whose records are untroubled handles all that its sources yield, whether or
not one of the polls is refused. -/
theorem pollSources_untroubled {i : Nat} {c : Cycle F} {sources : List FileTail}
    (h : Untroubled svc out c.stats.quarantined (yields out i sources).1) :
    svc.Handled (yields out i sources).1 c (svc.pollSources out i c sources).2.1 ∧
      (svc.pollSources out i c sources).2.1.taken = c.taken ++ (yields out i sources).1 ∧
      ((yields out i sources).2 = false → (svc.pollSources out i c sources).1 = .ok ()) := by
  induction sources generalizing i c with
  | nil => exact ⟨.refl _, by simp [yields, pollSources], fun _ => rfl⟩
  | cons t rest ih =>
      rw [pollSources]
      rcases hpoll : t.poll (out.sourceFault i) out.disk with ⟨_ | records, t'⟩
      · have hyields : yields out i (t :: rest) = ([], true) := by rw [yields, hpoll]
        rw [hyields]
        exact ⟨.refl _, by simp, by simp⟩
      · have hyields : yields out i (t :: rest) =
            (records ++ (yields out (i + 1) rest).1, (yields out (i + 1) rest).2) := by
          rw [yields, hpoll]
        rw [hyields] at h ⊢
        obtain ⟨hrecords, hrest⟩ := h.append
        obtain ⟨d, hd⟩ := processRecords_ok t'.id c.taken.length
          (c := { c with taken := c.taken ++ records }) hrecords
        have htaken := processRecords_taken hd
        have hhandled := Handled.of_taken (processRecords_handled hd)
        rw [← hhandled.count] at hrest
        obtain ⟨htail, htailTaken, hok⟩ := ih hrest
        simp only [hd]
        refine ⟨hhandled.trans htail, ?_, hok⟩
        rw [htailTaken, htaken, List.append_assoc]

end IngestService

end Genaryx.Ingest
