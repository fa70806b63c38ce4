import Genaryx.Ingest.Failure
import Genaryx.Ingest.Service

/-!
# Streams pinned to their source

A pin is found by the text of the path that a line was read from. Where one file is
registered under two paths and only one of them is pinned, the other lets every source
through.

## Implementation notes

`Registering.registered` and `Registering.consumed` have no counterpart in the program: they
collect what was registered and which lines the calls took, over restarts too. Which file a
path leads to is a parameter.
-/

namespace Genaryx.Ingest

open Base Genaryx.Core

variable {F : Type}

/-- A line that conforms and claims the source that its stream is pinned to, if it is. -/
def carries (parseValid : Text → Except ConformReport (AgentEvent F)) (pin : Option Text)
    (raw : Text) : Bool :=
  match parseValid raw, pin with
  | .error _, _ => false
  | .ok _, none => true
  | .ok event, some want => event.source = want

theorem carries_pinned {parseValid : Text → Except ConformReport (AgentEvent F)} {raw : Text}
    {event : AgentEvent F} (h : parseValid raw = .ok event) (want : Text) :
    carries parseValid (some want) raw = decide (event.source = want) := by
  unfold carries
  rw [h]

namespace IngestService

variable {svc : IngestService F} {out : Outside}

theorem accepts_eq_carries {r : RawRecord} {file : Text} (h : r.file = some file) :
    svc.accepts r = carries svc.parseValid (svc.pinned.lookup file) r.raw := by
  simp only [accepts, refusedByPin, h, Option.bind_some]
  unfold carries
  cases svc.parseValid r.raw with
  | error report => rfl
  | ok event =>
      cases svc.pinned.lookup file with
      | none => rfl
      | some want => simp

/-- The event is what its line says. -/
def Parsed (svc : IngestService F) (e : ConsoleEvent F) : Prop :=
  svc.parseValid e.raw = .ok e.event

theorem parsed_processRecord (svc : IngestService F) (out : Outside) (connector : Text)
    (i : Nat) {c : Cycle F} (r : RawRecord) (h : ∀ e ∈ c.validEvents, svc.Parsed e) :
    ∀ e ∈ (svc.processRecord out connector i c r).2.validEvents, svc.Parsed e := by
  have hquarantine : ∀ reason ts (d : Cycle F),
      (svc.quarantineRecord out reason ts r d).2.validEvents = d.validEvents := by
    intro reason ts d
    rw [quarantineRecord]
    split <;> rfl
  unfold processRecord
  dsimp only
  split
  · rw [hquarantine]
    exact h
  · next event hparse =>
      split
      · rw [hquarantine]
        exact h
      · split
        · exact h
        · intro e he
          rcases List.mem_append.mp he with hold | hnew
          · exact h e hold
          · obtain rfl := List.mem_singleton.mp hnew
            exact hparse

theorem parsed_processRecords {connector : Text} {i : Nat} {c : Cycle F}
    {records : List RawRecord} (h : ∀ e ∈ c.validEvents, svc.Parsed e) :
    ∀ e ∈ (svc.processRecords out connector i c records).2.validEvents, svc.Parsed e := by
  induction records generalizing i c with
  | nil => exact h
  | cons r rest ih =>
      have hstep := parsed_processRecord svc out connector i r h
      rw [processRecords]
      split
      · next heq => rwa [heq] at hstep
      · next heq =>
          rw [heq] at hstep
          exact ih hstep

/-- A cycle batches events that are what their lines say. -/
theorem parsed_pollSources {i : Nat} {c : Cycle F} {sources : List FileTail}
    (h : ∀ e ∈ c.validEvents, svc.Parsed e) :
    ∀ e ∈ (svc.pollSources out i c sources).2.1.validEvents, svc.Parsed e := by
  induction sources generalizing i c with
  | nil => exact h
  | cons t rest ih =>
      rw [pollSources]
      split
      · exact h
      · next records t' hpoll =>
          have hstep : ∀ e ∈ (svc.processRecords out t'.id c.taken.length
              { c with taken := c.taken ++ records } records).2.validEvents, svc.Parsed e :=
            parsed_processRecords h
          split
          · next heq => rwa [heq] at hstep
          · next heq =>
              rw [heq] at hstep
              exact ih hstep

/-- A cycle sends events that are what their lines say. -/
theorem parsed_pollOnce (sha256Hex : Bytes → Text) (svc : IngestService F) (out : Outside) :
    ∀ e ∈ (svc.pollOnce sha256Hex out).sent, svc.Parsed e := by
  have hsources : ∀ e ∈ (svc.pollSources out 0 { store := svc.store }
      svc.sources).2.1.validEvents, svc.Parsed e :=
    svc.parsed_pollSources fun e he => absurd he List.not_mem_nil
  unfold pollOnce
  split
  · exact fun e he => absurd he List.not_mem_nil
  · next heq =>
      rw [heq] at hsources
      split
      · exact fun e he => absurd he List.not_mem_nil
      · dsimp only
        split
        · exact fun e he => absurd he List.not_mem_nil
        · exact hsources

end IngestService

/-- A console at work: what it registered, with the pins, and the lines its calls took. -/
structure Registering (F : Type) where
  service : IngestService F
  registered : List (Text × Option Text) := []
  consumed : List RawRecord := []

/-- What happens to the service. The files may be other ones at every step. -/
inductive RegisteringAction
  | register (disk : Disk) (id : Text) (path : FilePath) (pin : Option Text)
  | pollOnce (out : Outside)
  | restart

namespace Registering

section Step

variable (sha256Hex : Bytes → Text)

/-- One step. A call goes through when it returns `Ok`, and a restart is a new service over
the same store. -/
def step (w : Registering F) : RegisteringAction → Option (Registering F)
  | .register disk id path pin =>
      some { w with
        service :=
          match pin with
          | none => w.service.addFileSource sha256Hex disk id path
          | some source => w.service.addPinnedFileSource sha256Hex disk id path source
        registered := w.registered ++ [(path.text, pin)] }
  | .pollOnce out =>
      let polled := w.service.pollOnce sha256Hex out
      if polled.outcome.isOk then
        some { w with service := polled.service, consumed := w.consumed ++ polled.taken }
      else none
  | .restart =>
      some { w with service := ⟨w.service.store, w.service.parseValid, w.service.env, [], ∅⟩ }

/-- Register a stream as a bus does. -/
def busAction (disk : Disk) (paths : BusPaths) (path : FilePath) : RegisteringAction :=
  .register disk (fileTailId path) path (paths.pinOf path)

/-- What a bus does before its first call: register every stream that it finds. -/
def busActions (disk : Disk) (found : Listing) (paths : BusPaths) : List RegisteringAction :=
  (collectSources found paths).map (busAction disk paths)

/-- A new service over an empty store. -/
def start (parseValid : Text → Except ConformReport (AgentEvent F)) (env : Text) :
    Registering F where
  service := ⟨{}, parseValid, env, [], ∅⟩

theorem step_busAction (w : Registering F) (disk : Disk) (paths : BusPaths) (path : FilePath) :
    (w.step sha256Hex (busAction disk paths path)).map Registering.service =
      some (addBusSource sha256Hex disk paths path w.service) := by
  rw [busAction, BusPaths.pinOf, addBusSource]
  cases paths.extra.any fun extra => Path.same extra.text path.text <;> rfl

end Step

section Property

variable {ι : Type} (fileOf : Text → ι)

/-- Every line that was read is in exactly one of the two tables, and every event of a file
that was pinned claims the source of the pin. -/
structure SpeakForThemselves (w : Registering F) : Prop where
  one : ∀ r ∈ w.consumed, Xor (∃ e ∈ w.service.store.events, EventOf w.service.env r e)
    (∃ q ∈ w.service.store.quarantined, RowOf w.service.env r q)
  source : ∀ path source, (path, some source) ∈ w.registered →
    ∀ e ∈ w.service.store.events, ∀ file, e.provenance.file = some file →
      fileOf file = fileOf path → e.event.source = source

variable [DecidableEq ι]

/-- A registration names the pin of every other one of the same file. -/
def keepsPins (w : Registering F) : RegisteringAction → Bool
  | .register _ _ path pin =>
      w.registered.all fun x => fileOf x.1 ≠ fileOf path.text || x.2 = pin
  | _ => true

end Property

/-- The pins of the service are those that were registered, one for each file, and each row
is of a stream that carries it, or refuses it. -/
structure Agreed {ι : Type} (fileOf : Text → ι) (sha256Hex : Bytes → Text) (w : Registering F) :
    Prop where
  tails : ∀ t ∈ w.service.sources,
    (t.path.text, w.service.pinned.lookup t.path.text) ∈ w.registered
  pins : ∀ path source, w.service.pinned.lookup path = some source →
    (path, some source) ∈ w.registered
  agree : ∀ x ∈ w.registered, ∀ y ∈ w.registered, fileOf x.1 = fileOf y.1 → x.2 = y.2
  placed : ∀ e ∈ w.service.store.events, Placed w.service.env e
  events : ∀ e ∈ w.service.store.events, ∃ x ∈ w.registered, e.provenance.file = some x.1 ∧
    carries w.service.parseValid x.2 e.raw = true ∧ w.service.Parsed e
  quarantined : ∀ q ∈ w.service.store.quarantined, ∃ x ∈ w.registered, q.file = some x.1 ∧
    carries w.service.parseValid x.2 q.raw = false
  keyed : ∀ r ∈ w.consumed, FromFile r ∧ Keyed sha256Hex w.service.env w.service.store r

namespace Agreed

variable {ι : Type} {fileOf : Text → ι} {sha256Hex : Bytes → Text} {w : Registering F}

theorem start (parseValid : Text → Except ConformReport (AgentEvent F)) (env : Text) :
    Agreed fileOf sha256Hex (Registering.start parseValid env) where
  tails _ ht := absurd ht List.not_mem_nil
  pins _ _ h := by cases h
  agree _ hx := absurd hx List.not_mem_nil
  placed _ he := absurd he List.not_mem_nil
  events _ he := absurd he List.not_mem_nil
  quarantined _ hq := absurd hq List.not_mem_nil
  keyed _ hr := absurd hr List.not_mem_nil

theorem speakForThemselves (h : Agreed fileOf sha256Hex w)
    (hsha : Set.InjOn sha256Hex
      {bytes | bytes ∈ digested w.service.env w.service.store w.consumed}) :
    SpeakForThemselves fileOf w := by
  refine ⟨fun r hr => ?_, fun path source hpinned e he file hfile hsame => ?_⟩
  · -- a line in both tables would be carried and refused by one pin
    have hnot : ¬ ((∃ e ∈ w.service.store.events, EventOf w.service.env r e) ∧
        ∃ q ∈ w.service.store.quarantined, RowOf w.service.env r q) := by
      rintro ⟨⟨e, he, _, heFile, _, heRaw⟩, q, hq, _, hqFile, _, hqRaw⟩
      obtain ⟨x, hx, hxFile, hcarries, -⟩ := h.events e he
      obtain ⟨y, hy, hyFile, hrefuses⟩ := h.quarantined q hq
      have hfile : x.1 = y.1 := by
        have hxy : some x.1 = some y.1 := by rw [← hxFile, ← hyFile, heFile, hqFile]
        exact Option.some.inj hxy
      rw [h.agree x hx y hy (congrArg fileOf hfile), heRaw, ← hqRaw, hrefuses] at hcarries
      cases hcarries
    obtain ⟨hfile, hkeyed⟩ := h.keyed r hr
    rcases hkeyed.kept hsha h.placed hr hfile with hevent | hrow
    · exact Or.inl ⟨hevent, fun hrow => hnot ⟨hevent, hrow⟩⟩
    · exact Or.inr ⟨hrow, fun hevent => hnot ⟨hevent, hrow⟩⟩
  · obtain ⟨x, hx, hxFile, hcarries, hparsed⟩ := h.events e he
    have hxfile : x.1 = file := Option.some.inj (hxFile.symm.trans hfile)
    have hpin : x.2 = some source := h.agree x hx _ hpinned (by rw [hxfile, hsame])
    rw [hpin, carries_pinned hparsed] at hcarries
    exact of_decide_eq_true hcarries

theorem register [DecidableEq ι] (h : Agreed fileOf sha256Hex w) {disk : Disk} {id : Text}
    {path : FilePath} {pin : Option Text} {w' : Registering F}
    (hkeeps : w.keepsPins fileOf (.register disk id path pin) = true)
    (hstep : w.step sha256Hex (.register disk id path pin) = some w') :
    Agreed fileOf sha256Hex w' := by
  have hagrees : ∀ x ∈ w.registered, fileOf x.1 = fileOf path.text → x.2 = pin := by
    intro x hx hsame
    have hx := List.all_eq_true.mp hkeeps x hx
    simpa [hsame] using hx
  have hold : ∀ {x}, x ∈ w.registered → x ∈ w.registered ++ [(path.text, pin)] := fun hx =>
    List.mem_append_left _ hx
  have hnew : (path.text, pin) ∈ w.registered ++ [(path.text, pin)] :=
    List.mem_append_right _ (List.mem_singleton_self _)
  have hagree : ∀ x ∈ w.registered ++ [(path.text, pin)],
      ∀ y ∈ w.registered ++ [(path.text, pin)], fileOf x.1 = fileOf y.1 → x.2 = y.2 := by
    intro x hx y hy hsame
    rcases List.mem_append.mp hx with hx | hx <;> rcases List.mem_append.mp hy with hy | hy
    · exact h.agree x hx y hy hsame
    · obtain rfl := List.mem_singleton.mp hy
      exact hagrees x hx hsame
    · obtain rfl := List.mem_singleton.mp hx
      exact (hagrees y hy hsame.symm).symm
    · rw [List.mem_singleton.mp hx, List.mem_singleton.mp hy]
  have hevents : ∀ e ∈ w.service.store.events, ∃ x ∈ w.registered ++ [(path.text, pin)],
      e.provenance.file = some x.1 ∧ carries w.service.parseValid x.2 e.raw = true ∧
        w.service.Parsed e := by
    intro e he
    obtain ⟨x, hx, hrest⟩ := h.events e he
    exact ⟨x, hold hx, hrest⟩
  have hquarantined : ∀ q ∈ w.service.store.quarantined, ∃ x ∈ w.registered ++ [(path.text, pin)],
      q.file = some x.1 ∧ carries w.service.parseValid x.2 q.raw = false := by
    intro q hq
    obtain ⟨x, hx, hrest⟩ := h.quarantined q hq
    exact ⟨x, hold hx, hrest⟩
  cases pin with
  | none =>
      cases hstep
      refine ⟨fun t ht => ?_, fun p source hp => hold (h.pins p source hp), hagree, h.placed,
        hevents, hquarantined, h.keyed⟩
      rcases List.mem_append.mp ht with ht | ht
      · exact hold (h.tails t ht)
      · obtain rfl := List.mem_singleton.mp ht
        cases hlookup : w.service.pinned.lookup path.text with
        | none => exact List.mem_append_right _ (List.mem_singleton.mpr (Prod.ext rfl hlookup))
        | some source => exact absurd (hagrees _ (h.pins _ _ hlookup) rfl) (by simp)
  | some source =>
      cases hstep
      refine ⟨fun t ht => ?_, fun p want hp => ?_, hagree, h.placed, hevents, hquarantined, h.keyed⟩
      · have hpin : ∀ t : FileTail, t.path.text = path.text →
            (t.path.text, (w.service.pinned.insert path.text source).lookup t.path.text) ∈
              w.registered ++ [(path.text, some source)] := by
          intro t ht
          rw [ht, AList.lookup_insert]
          exact hnew
        rcases List.mem_append.mp ht with ht | ht
        · by_cases hpath : t.path.text = path.text
          · exact hpin t hpath
          · have hlookup : (w.service.pinned.insert path.text source).lookup t.path.text =
                w.service.pinned.lookup t.path.text := AList.lookup_insert_ne hpath
            exact hlookup ▸ hold (h.tails t ht)
        · obtain rfl := List.mem_singleton.mp ht
          exact hpin _ rfl
      · by_cases hpath : p = path.text
        · subst hpath
          have hlookup : (w.service.pinned.insert path.text source).lookup path.text =
              some source := AList.lookup_insert _
          rw [← Option.some.inj (hlookup.symm.trans hp)]
          exact hnew
        · have hlookup : (w.service.pinned.insert path.text source).lookup p =
              w.service.pinned.lookup p := AList.lookup_insert_ne hpath
          exact hold (h.pins p want (hlookup ▸ hp))

theorem pollOnce (h : Agreed fileOf sha256Hex w) {out : Outside} {w' : Registering F}
    (hstep : w.step sha256Hex (.pollOnce out) = some w') : Agreed fileOf sha256Hex w' := by
  simp only [step] at hstep
  split at hstep
  · next hok =>
      cases hstep
      have hparsed := IngestService.parsed_pollOnce sha256Hex w.service out
      obtain ⟨c, stats, store, hhandled, hpolled, hevents, hquarantined⟩ :=
        IngestService.pollOnce_stored sha256Hex hok
      rw [hpolled] at hparsed ⊢
      -- every line that was read is of a registered stream and goes by its pin
      have hread : ∀ r ∈ w.service.newRecords out.disk,
          FromFile r ∧
            ∃ x ∈ w.registered, r.file = some x.1 ∧
              w.service.accepts r = carries w.service.parseValid x.2 r.raw := by
        intro r hr
        obtain ⟨t, ht, hr⟩ := List.mem_flatMap.mp hr
        obtain ⟨hfile, offset, hoffset⟩ := FileTail.file_of_mem_newRecords hr
        exact ⟨⟨t.path.text, offset, t.path.nulFree, hfile, hoffset⟩, _, h.tails t ht, hfile,
          IngestService.accepts_eq_carries hfile⟩
      obtain ⟨hplaced, hold, hnew⟩ := hhandled.keyed (fun r hr => (hread r hr).1) h.placed
        hevents hquarantined
      refine ⟨fun t ht => ?_, h.pins, h.agree, hplaced, fun e he => ?_, fun q hq => ?_,
        fun r hr => ?_⟩
      · obtain ⟨u, hu, rfl⟩ := List.mem_map.mp ht
        rw [FileTail.advanced_path]
        exact h.tails u hu
      · have he : e ∈ store.events := he
        rw [hevents] at he
        rcases Store.mem_of_mem_insertEvents he with hold | hbatched
        · exact h.events e hold
        · rcases hhandled.mem_batch hbatched with hold | ⟨r, hr, haccepts, _, hfile, _, hraw⟩
          · cases hold
          · obtain ⟨x, hx, hxFile, hcarries⟩ := (hread r hr).2
            refine ⟨x, hx, hfile.trans hxFile, ?_, hparsed e hbatched⟩
            rw [hraw, ← haccepts, hcarries]
      · have hq : q ∈ store.quarantined := hq
        obtain ⟨qs, hqs, hrefused⟩ := hhandled.quarantine
        rw [hquarantined, hqs] at hq
        rcases List.mem_append.mp hq with hold | hq
        · exact h.quarantined q hold
        · obtain ⟨r, hr, _, hfile, _, hraw⟩ := exists_of_forall₂ hrefused.flip hq
          obtain ⟨hr, haccepts⟩ := List.mem_filter.mp hr
          obtain ⟨x, hx, hxFile, hcarries⟩ := (hread r hr).2
          refine ⟨x, hx, hfile.trans hxFile, ?_⟩
          rw [hraw, ← hcarries]
          simpa using haccepts
      · rcases List.mem_append.mp hr with hr | hr
        · exact (h.keyed r hr).imp_right (hold r)
        · exact ⟨(hread r hr).1, hnew r hr⟩
  · cases hstep

end Agreed

/-- One step that keeps the pins of the files keeps the invariant. -/
theorem agreed_step {ι : Type} [DecidableEq ι] {fileOf : Text → ι} {sha256Hex : Bytes → Text}
    (w : Registering F) (a : RegisteringAction) (w' : Registering F)
    (h : Agreed fileOf sha256Hex w) (ha : w.keepsPins fileOf a = true)
    (hstep : w.step sha256Hex a = some w') : Agreed fileOf sha256Hex w' := by
  cases a with
  | register disk id path pin => exact h.register ha hstep
  | pollOnce out => exact h.pollOnce hstep
  | restart =>
      cases hstep
      exact ⟨fun t ht => absurd ht List.not_mem_nil, fun _ _ hpin => (by cases hpin), h.agree,
        h.placed, h.events, h.quarantined, h.keyed⟩

/-- In a run where all registrations of one file name one pin, every line that was read is in
exactly one table and no event of a pinned file claims another source. -/
theorem speakForThemselves_of_keepsPins {ι : Type} [DecidableEq ι] {fileOf : Text → ι}
    {sha256Hex : Bytes → Text} {parseValid : Text → Except ConformReport (AgentEvent F)}
    {env : Text} {actions : List RegisteringAction} {w : Registering F}
    (hsha : Set.InjOn sha256Hex
      {bytes | bytes ∈ digested w.service.env w.service.store w.consumed})
    (halong : Transition.Along (step sha256Hex) (fun w a => w.keepsPins fileOf a = true)
      (start parseValid env) actions)
    (hrun : Transition.run (step sha256Hex) (start parseValid env) actions = some w) :
    SpeakForThemselves fileOf w :=
  (Transition.run_invariant_along agreed_step halong hrun
    (Agreed.start parseValid env)).speakForThemselves hsha

section Sample

def keyryx : FilePath := ⟨"/bus/keyryx.ndjson", by decide⟩

/-- The same file under the path that its directory is mounted at. -/
def mountedKeyryx : FilePath := ⟨"/mnt/bus/keyryx.ndjson", by decide⟩

def witnessFile (path : Text) : Text := if path = mountedKeyryx.text then keyryx.text else path

/-- A line that claims another source than the name of its file. -/
def witnessDisk : Disk := fun path =>
  if witnessFile path = keyryx.text then some ⟨Utf8.encode sampleLine ++ [10], some 1⟩ else none

def witnessOutside : Outside where
  disk := witnessDisk
  now := fun _ => "2026-09-01T10:00:01+00:00"

def witnessListing : Listing where
  readDir := fun dir => if dir = ("/bus" : Text) then some [keyryx] else none
  isRegularFile := fun path => (witnessDisk path).isSome

example : (parseExtraStreams "/mnt/bus/keyryx.ndjson").1 = [mountedKeyryx.text] := by decide

theorem speakForThemselves_pinned :
    ∃ w, Transition.run (step plainDigest) (start sampleParse "prod")
        (busActions witnessDisk witnessListing ⟨"/bus", [keyryx]⟩ ++
          [.pollOnce witnessOutside]) = some w ∧ SpeakForThemselves witnessFile w := by
  obtain ⟨w, hrun⟩ := Option.isSome_iff_exists.mp (by decide +kernel :
    (Transition.run (step plainDigest) (start sampleParse "prod")
      (busActions witnessDisk witnessListing ⟨"/bus", [keyryx]⟩ ++
        [.pollOnce witnessOutside])).isSome = true)
  refine ⟨w, hrun, speakForThemselves_of_keepsPins plainDigest_injective.injOn ?_ hrun⟩
  exact Transition.along_of_check (by decide +kernel)

/-- A stream of the bus directory is named as an extra stream by another path: it is tailed
under both, and under the first one a line of another source is stored. -/
theorem other_source_stored_beside_pin :
    ¬ ∀ w, Transition.run (step plainDigest) (start sampleParse "prod")
      (busActions witnessDisk witnessListing ⟨"/bus", [mountedKeyryx]⟩ ++
        [.pollOnce witnessOutside]) = some w → SpeakForThemselves witnessFile w := by
  intro h
  obtain ⟨w, hrun, hcheck⟩ := Option.any_eq_true _ _ |>.mp (by decide +kernel :
    (Transition.run (step plainDigest) (start sampleParse "prod")
      (busActions witnessDisk witnessListing ⟨"/bus", [mountedKeyryx]⟩ ++
        [.pollOnce witnessOutside])).any (fun w =>
          (mountedKeyryx.text, some ("keyryx" : Text)) ∈ w.registered ∧
            ∃ e ∈ w.service.store.events, e.provenance.file = some keyryx.text ∧
              e.event.source = ("tokenfuse" : Text)) = true)
  obtain ⟨hpinned, e, he, hfile, hsource⟩ := of_decide_eq_true hcheck
  have hclaims := (h w hrun).source _ _ hpinned e he _ hfile (by decide)
  exact absurd (hsource.symm.trans hclaims) (by decide)

end Sample

end Registering

end Genaryx.Ingest
