import Genaryx.Base.Digest
import Genaryx.Base.Transition
import Genaryx.Ingest.Cycle

/-!
# Resuming after a restart

The journaled offset is computed from the length of each line's decoded text, and the tail
counts the raw bytes. Decoding never shortens a line, so the two agree exactly when no
decoded line of a poll reaches past the end of the lines the poll took.
-/

namespace Genaryx.Ingest

open Base Genaryx.Core

variable {F : Type} {sha256Hex : Bytes → Text}

/-- The complete lines of a file's content. -/
abbrev completeLines (content : Bytes) : List Bytes := (newlines.split content).1

/-- The byte offset just past the last complete line. -/
def consumedLength (content : Bytes) : Nat := Framing.extent (completeLines content)

/-- No line's decoded text, counted in bytes, reaches past the end of the last line. -/
def LossyFits : List Bytes → Prop
  | [] => True
  | line :: rest =>
      Utf8.len (Utf8.fromUtf8Lossy line) ≤ line.length + Framing.extent rest ∧ LossyFits rest

instance decidableLossyFits : DecidablePred LossyFits
  | [] => isTrue trivial
  | _ :: rest => @instDecidableAnd _ _ (Nat.decLe _ _) (decidableLossyFits rest)

/-- One record's contribution to the furthest offset of its file. -/
def furthest (o : Option Nat) (r : RawRecord) : Option Nat :=
  match r.offset with
  | none => o
  | some offset =>
      let next := offset + Utf8.len r.raw + 1
      some (max (o.getD next) next)

theorem consumedLength_le (content : Bytes) : consumedLength content ≤ content.length :=
  Framing.extent_split_le content

/-- The complete lines of a longer content go on from where the shorter one's end. -/
theorem completeLines_append (content more : Bytes) :
    completeLines (content ++ more) = completeLines content ++
      completeLines ((content ++ more).drop (consumedLength content)) := by
  have hdrop : (content ++ more).drop (consumedLength content) =
      (newlines.split content).2 ++ more := by
    rw [List.drop_append_of_le_length (consumedLength_le content)]
    exact congrArg (· ++ more) (Framing.drop_extent_split content)
  rw [hdrop]
  exact congrArg Prod.fst (newlines.split_append content more)

/-- Only records of a file change its entry. -/
theorem lookup_foldl_noteOffset (path : Text) (records : List RawRecord)
    (offsets : AList (fun _ : Text => Nat)) :
    (records.foldl noteOffset offsets).lookup path =
      (records.filter fun r => r.file = some path).foldl furthest (offsets.lookup path) := by
  induction records generalizing offsets with
  | nil => rfl
  | cons r rest ih =>
      obtain ⟨raw, file, offset⟩ := r
      rw [List.foldl_cons, ih]
      by_cases hfile : file = some path
      · subst hfile
        cases offset <;> simp [noteOffset, furthest]
      · cases file with
        | none => simp [noteOffset]
        | some file =>
            have hne : path ≠ file := fun h => hfile (congrArg some h.symm)
            cases offset <;> simp [noteOffset, AList.lookup_insert_ne hne, hfile]

/-- Over the lines of one poll the furthest offset is the end of the last line, if the
decoded texts fit. -/
theorem foldl_furthest_recordsOf {path : Text} {cursor : Nat} {lines : List Bytes}
    (hfits : LossyFits lines) (hne : lines ≠ []) {o : Option Nat}
    (ho : ∀ k, o = some k → k ≤ cursor + Framing.extent lines) :
    (recordsOf path cursor lines).foldl furthest o = some (cursor + Framing.extent lines) := by
  induction lines generalizing cursor o with
  | nil => exact absurd rfl hne
  | cons line rest ih =>
      obtain ⟨hline, hrest⟩ := hfits
      have hlonger := Utf8.length_le_len_fromUtf8Lossy line
      rw [Framing.extent_cons] at ho ⊢
      have hnext : ∀ k, furthest o ⟨Utf8.fromUtf8Lossy line, some path, some cursor⟩ = some k →
          k ≤ cursor + (line.length + 1) + Framing.extent rest ∧ cursor + line.length + 1 ≤ k := by
        intro k hk
        cases o with
        | none =>
            simp only [furthest, Option.getD_none, max_self, Option.some.injEq] at hk
            omega
        | some k' =>
            have := ho k' rfl
            simp only [furthest, Option.getD_some, Option.some.injEq] at hk
            omega
      rw [recordsOf, List.foldl_cons]
      by_cases hempty : rest = []
      · subst hempty
        obtain ⟨k, hk⟩ : ∃ k, furthest o ⟨Utf8.fromUtf8Lossy line, some path, some cursor⟩ =
          some k := ⟨_, rfl⟩
        have := hnext k hk
        simp only [recordsOf, List.foldl_nil, hk, Framing.extent_nil, Option.some.injEq] at this ⊢
        omega
      · rw [ih hrest hempty fun k hk => (hnext k hk).1]
        congr 1
        omega

/-- Journaling sets the state of the journaled files and of no other. -/
theorem getSourceState_foldl_journalOffset (disk : Disk) (path : Text)
    (entries : List (Sigma fun _ : Text => Nat)) (hnodup : entries.NodupKeys) (s : Store F) :
    ((entries.map fun entry => (entry.1, entry.2)).foldl (journalOffset sha256Hex disk)
        s).getSourceState path =
      match entries.dlookup path with
      | none => s.getSourceState path
      | some offset =>
          some ⟨offset, inodeOf disk path, headFingerprint sha256Hex disk path offset⟩ := by
  induction entries generalizing s with
  | nil => rfl
  | cons entry rest ih =>
      obtain ⟨file, offset⟩ := entry
      obtain ⟨hfile, hrest⟩ := List.nodupKeys_cons.mp hnodup
      rw [List.map_cons, List.foldl_cons, ih hrest]
      by_cases hsame : file = path
      · subst hsame
        rw [List.dlookup_cons_eq, List.dlookup_eq_none.mpr hfile]
        simp [journalOffset, Store.setOffset, Store.getSourceState]
      · rw [List.dlookup_cons_ne _ _ (Ne.symm hsame)]
        cases rest.dlookup path with
        | none =>
            simp [journalOffset, Store.setOffset, Store.getSourceState,
              AList.lookup_insert_ne (Ne.symm hsame)]
        | some offset => rfl

theorem insertBatch_sourceOffsets (sha256Hex : Bytes → Text) (failure : Option Text)
    (batch : List (ConsoleEvent F)) (s : Store F) :
    (s.insertBatch sha256Hex failure batch).2.sourceOffsets = s.sourceOffsets := by
  unfold Store.insertBatch
  split
  · rfl
  · split <;> rfl

/-- Journaling that is not refused journals every entry. -/
theorem journalOffsets_ok {out : Outside} {entries : List (Text × Nat)} {s s' : Store F}
    (h : journalOffsets sha256Hex out entries s = (.ok (), s')) :
    s' = entries.foldl (journalOffset sha256Hex out.disk) s := by
  unfold journalOffsets at h
  split at h
  · cases h; rfl
  · dsimp only at h
    split at h
    · next hall =>
        rw [List.filter_eq_self.mpr (List.length_filter_eq_length_iff.mp hall)] at h
        cases h; rfl
    · cases h

/-- What a cycle that returns `Ok` leaves behind. -/
theorem IngestService.pollOnce_ok {svc : IngestService F} {out : Outside}
    (h : (svc.pollOnce sha256Hex out).outcome.isOk = true) :
    (svc.pollOnce sha256Hex out).taken = svc.sources.flatMap (FileTail.newRecords out.disk) ∧
      (svc.pollOnce sha256Hex out).service.sources =
        svc.sources.map (FileTail.advanced out.disk) ∧
      ∀ path, (svc.pollOnce sha256Hex out).service.store.getSourceState path =
        match ((svc.sources.flatMap (FileTail.newRecords out.disk)).filter fun r =>
            r.file = some path).foldl furthest none with
        | none => svc.store.getSourceState path
        | some offset => some ⟨offset, inodeOf out.disk path,
            headFingerprint sha256Hex out.disk path offset⟩ := by
  rcases hres : svc.pollSources out 0 { store := svc.store } svc.sources with ⟨_ | _, c, sources⟩
  · simp [pollOnce, hres, Except.isOk, Except.toBool] at h
  obtain ⟨hhandled, htaken, hsources⟩ := pollSources_handled hres
  have hinsertFrame := insertBatch_sourceOffsets sha256Hex out.insertFault
    c.validEvents c.store
  rcases hinsert : c.store.insertBatch sha256Hex out.insertFault c.validEvents with ⟨_ | _, s⟩
  · simp [pollOnce, hres, hinsert, Except.isOk, Except.toBool] at h
  rcases hjournal : journalOffsets sha256Hex out
      (c.offsetsToJournal.entries.map fun entry => (entry.1, entry.2)) s with ⟨_ | _, s'⟩
  · simp [pollOnce, hres, hinsert, hjournal, Except.isOk, Except.toBool] at h
  simp only [pollOnce, hres, hinsert, hjournal]
  refine ⟨by simpa using htaken, hsources, fun path => ?_⟩
  rw [hinsert, hhandled.sourceOffsets] at hinsertFrame
  have hlookup : c.offsetsToJournal.entries.dlookup path =
      ((svc.sources.flatMap (FileTail.newRecords out.disk)).filter fun r =>
        r.file = some path).foldl furthest none := by
    have hnoted := lookup_foldl_noteOffset path
      (svc.sources.flatMap (FileTail.newRecords out.disk)) ∅
    rw [← hhandled.offsets] at hnoted
    exact hnoted
  rw [journalOffsets_ok hjournal, getSourceState_foldl_journalOffset _ _ _
    c.offsetsToJournal.nodupKeys, hlookup]
  have hstate : s.getSourceState path = svc.store.getSourceState path :=
    congrArg (AList.lookup path) hinsertFrame
  rw [hstate]

/-- A console that is stopped and started while its files grow: `yielded` are the records
of all its polls, and `seen` is the content each file had when it was last polled. -/
structure Restarting (F : Type) where
  disk : Disk
  service : IngestService F
  yielded : List RawRecord := []
  seen : Text → Bytes := fun _ => []

inductive RestartingAction
  | create (path : Text) (inode : Option Nat)
  | append (path : Text) (more : Bytes)
  | addFileSource (id : Text) (path : FilePath)
  | addPinnedFileSource (id : Text) (path : FilePath) (source : Text)
  | pollOnce (out : Outside)
  | restart

namespace Restarting

variable (sha256Hex : Bytes → Text)

/-- The file is tailed already. -/
def tails (w : Restarting F) (path : Text) : Bool :=
  w.service.sources.any fun t => t.path.text = path

/-- What each tailed file holds becomes what was seen of it. -/
def look (w : Restarting F) (path : Text) : Bytes :=
  match w.disk path with
  | some file => if w.tails path then file.bytes else w.seen path
  | none => w.seen path

/-- One step: a file appears or grows, a file is tailed that is not tailed yet, a call
returns `Ok`, or the console restarts over the same store. -/
def step (w : Restarting F) : RestartingAction → Option (Restarting F)
  | .create path inode =>
      match w.disk path with
      | some _ => none
      | none => some { w with disk := Function.update w.disk path (some ⟨[], inode⟩) }
  | .append path more =>
      match w.disk path with
      | none => none
      | some file =>
          some { w with
            disk := Function.update w.disk path (some { file with bytes := file.bytes ++ more }) }
  | .addFileSource id path =>
      if w.tails path.text then none
      else some { w with service := w.service.addFileSource sha256Hex w.disk id path }
  | .addPinnedFileSource id path source =>
      if w.tails path.text then none
      else some { w with
        service := w.service.addPinnedFileSource sha256Hex w.disk id path source }
  | .pollOnce out =>
      let polled := w.service.pollOnce sha256Hex { out with disk := w.disk }
      if polled.outcome.isOk then
        some { w with
          service := polled.service
          yielded := w.yielded ++ polled.taken
          seen := w.look }
      else none
  | .restart =>
      some { w with service := ⟨w.service.store, w.service.parseValid, w.service.env, [], ∅⟩ }

/-- A new service over an empty store, in front of any files. -/
def start (disk : Disk) (parseValid : Text → Except ConformReport (AgentEvent F)) (env : Text) :
    Restarting F where
  disk := disk
  service := ⟨{}, parseValid, env, [], ∅⟩

/-- The journaled offset of a file; a file without one starts at zero. -/
def journaled (w : Restarting F) (path : Text) : Nat :=
  ((w.service.store.getSourceState path).map SourceState.offset).getD 0

/-- Every complete line seen of a file was yielded once and in order, and the journaled
offset is just past the last of them. -/
def ResumesExactly (w : Restarting F) : Prop :=
  ∀ path,
    (w.yielded.filter fun r => r.file = some path) =
        recordsOf path 0 (completeLines (w.seen path)) ∧
      w.journaled path = consumedLength (w.seen path)

/-- The step is no call, or the decoded texts of the lines it reads fit. -/
def StepFits (w : Restarting F) : RestartingAction → Prop
  | .pollOnce _ => ∀ t ∈ w.service.sources, LossyFits (t.newLines w.disk)
  | _ => True

instance (w : Restarting F) : DecidablePred (StepFits w)
  | .pollOnce _ => inferInstanceAs (Decidable (∀ t ∈ w.service.sources, _))
  | .create _ _ => isTrue trivial
  | .append _ _ => isTrue trivial
  | .addFileSource _ _ => isTrue trivial
  | .addPinnedFileSource _ _ _ => isTrue trivial
  | .restart => isTrue trivial

/-- The journal entry of a file of which this content was seen. -/
def entryFor (disk : Disk) (path : Text) (content : Bytes) : Option SourceState :=
  if consumedLength content = 0 then none
  else some ⟨consumedLength content, inodeOf disk path,
    some (sha256Hex (content.take (min (consumedLength content) headFingerprintBytes)))⟩

/-- The journal, the tails and the records all stand at the end of what was seen. -/
structure Sound (w : Restarting F) : Prop where
  distinct : (w.service.sources.map fun t => t.path.text).Nodup
  grown : ∀ path, match w.disk path with
    | none => w.seen path = []
    | some file => w.seen path <+: file.bytes
  yielded : ∀ path, (w.yielded.filter fun r => r.file = some path) =
    recordsOf path 0 (completeLines (w.seen path))
  journal : ∀ path, w.service.store.getSourceState path =
    entryFor sha256Hex w.disk path (w.seen path)
  offsets : ∀ t ∈ w.service.sources, t.offset = consumedLength (w.seen t.path.text)

variable {sha256Hex}

theorem Sound.resumesExactly {w : Restarting F} (h : Sound sha256Hex w) : ResumesExactly w := by
  intro path
  refine ⟨h.yielded path, ?_⟩
  rw [journaled, h.journal path, entryFor]
  split
  · next hzero => exact hzero.symm
  · rfl

@[simp] theorem consumedLength_nil : consumedLength [] = 0 := by
  rw [consumedLength, completeLines, Framing.delimited_split_of_not_mem List.not_mem_nil]
  rfl

/-- The fingerprint reads nothing past the offset, so a longer file has the same one. -/
theorem headFingerprint_congr (sha256Hex : Bytes → Text) {disk : Disk} {path : Text} {file : OnDisk}
    {content : Bytes} {offset : Nat} (hfile : disk path = some file)
    (hgrown : content <+: file.bytes) (hpos : offset ≠ 0) (hle : offset ≤ content.length) :
    headFingerprint sha256Hex disk path offset =
      some (sha256Hex (content.take (min offset headFingerprintBytes))) := by
  obtain ⟨more, hmore⟩ := hgrown
  have hlong : ¬ file.bytes.length < offset := by
    rw [← hmore, List.length_append]
    omega
  have htake : file.bytes.take (min offset headFingerprintBytes) =
      content.take (min offset headFingerprintBytes) := by
    rw [← hmore, List.take_append_of_le_length (by omega)]
  simp only [headFingerprint, if_neg hpos, hfile, if_neg hlong, htake]

/-- A new tail starts where the records end. -/
theorem Sound.resumeOffset_eq {w : Restarting F} (h : Sound sha256Hex w) (path : Text) :
    IngestService.resumeOffset sha256Hex w.disk path w.service.store =
      consumedLength (w.seen path) := by
  rw [IngestService.resumeOffset, h.journal path, entryFor]
  by_cases hzero : consumedLength (w.seen path) = 0
  · rw [if_pos hzero, hzero]
  · have hgrown := h.grown path
    cases hfile : w.disk path with
    | none =>
        rw [hfile] at hgrown
        exact absurd (hgrown ▸ consumedLength_nil) hzero
    | some file =>
        rw [hfile] at hgrown
        have hhead := headFingerprint_congr sha256Hex hfile hgrown hzero
          (consumedLength_le _)
        simp only [if_neg hzero, hhead]
        cases inodeOf w.disk path <;> simp

theorem tails_iff (w : Restarting F) (path : Text) :
    w.tails path = true ↔ ∃ t ∈ w.service.sources, t.path.text = path := by
  simp [tails]

/-- Registering a file that is not tailed yet keeps the invariant. -/
theorem Sound.add {w : Restarting F} (h : Sound sha256Hex w) {id : Text} {path : FilePath}
    (hnew : ¬ w.tails path.text = true) (pinned : AList (fun _ : Text => Text)) :
    Sound sha256Hex { w with service :=
      { w.service.addFileSource sha256Hex w.disk id path with pinned := pinned } } := by
  refine ⟨?_, h.grown, h.yielded, h.journal, fun t ht => ?_⟩
  · simp only [IngestService.addFileSource, List.map_append, List.map_cons, List.map_nil]
    rw [List.nodup_append]
    refine ⟨h.distinct, List.nodup_singleton _, fun key hkey other hother => ?_⟩
    obtain ⟨t, ht, rfl⟩ := List.mem_map.mp hkey
    rw [List.mem_singleton.mp hother]
    exact fun heq => hnew ((w.tails_iff _).mpr ⟨t, ht, heq⟩)
  · rcases List.mem_append.mp ht with hold | hlast
    · exact h.offsets t hold
    · rw [List.mem_singleton.mp hlast]
      exact h.resumeOffset_eq path.text

/-- Among distinct files only a file's own tail yields its records. -/
theorem filter_flatMap_newRecords {disk : Disk} {sources : List FileTail} {t : FileTail}
    (hdistinct : (sources.map fun t => t.path.text).Nodup) (ht : t ∈ sources) :
    ((sources.flatMap (FileTail.newRecords disk)).filter fun r => r.file = some t.path.text) =
      t.newRecords disk := by
  have hown : ∀ u : FileTail, ((u.newRecords disk).filter fun r => r.file = some t.path.text) =
      if u.path.text = t.path.text then u.newRecords disk else [] := by
    intro u
    split
    · next hsame =>
        rw [List.filter_eq_self]
        intro r hr
        simp [(FileTail.file_of_mem_newRecords hr).1, hsame]
    · next hother =>
        rw [List.filter_eq_nil_iff]
        intro r hr
        simp [(FileTail.file_of_mem_newRecords hr).1, hother]
  induction sources with
  | nil => cases ht
  | cons u rest ih =>
      simp only [List.map_cons, List.nodup_cons] at hdistinct
      rw [List.flatMap_cons, List.filter_append, hown u]
      rcases List.mem_cons.mp ht with rfl | hrest
      · have hnone : ((rest.flatMap (FileTail.newRecords disk)).filter fun r =>
            r.file = some t.path.text) = [] := by
          rw [List.filter_eq_nil_iff]
          intro r hr
          obtain ⟨v, hv, hmem⟩ := List.mem_flatMap.mp hr
          rw [(FileTail.file_of_mem_newRecords hmem).1]
          simp only [Option.some.injEq, decide_eq_true_eq]
          exact fun heq => hdistinct.1 (List.mem_map.mpr ⟨v, hv, heq⟩)
        rw [if_pos rfl, hnone, List.append_nil]
      · have hne : u.path.text ≠ t.path.text := fun heq =>
          hdistinct.1 (List.mem_map.mpr ⟨t, hrest, heq.symm⟩)
        rw [if_neg hne, List.nil_append, ih hdistinct.2 hrest]

theorem filter_flatMap_newRecords_of_not_tailed {disk : Disk} {sources : List FileTail}
    {path : Text} (h : ∀ t ∈ sources, t.path.text ≠ path) :
    ((sources.flatMap (FileTail.newRecords disk)).filter fun r => r.file = some path) = [] := by
  rw [List.filter_eq_nil_iff]
  intro r hr
  obtain ⟨t, ht, hmem⟩ := List.mem_flatMap.mp hr
  rw [(FileTail.file_of_mem_newRecords hmem).1]
  simp only [Option.some.injEq, decide_eq_true_eq]
  exact h t ht

/-- Bytes that complete no line leave a file's journal entry as it is. -/
theorem entryFor_congr {disk disk' : Disk} {path : Text} {content content' : Bytes}
    (hinode : inodeOf disk path = inodeOf disk' path) (hgrown : content <+: content')
    (hsame : consumedLength content' = consumedLength content) :
    entryFor sha256Hex disk path content = entryFor sha256Hex disk' path content' := by
  obtain ⟨more, rfl⟩ := hgrown
  have hle := consumedLength_le content
  rw [entryFor, entryFor, hsame, hinode, List.take_append_of_le_length (by omega)]

/-- What a tail at the end of the seen lines takes from its grown file. -/
theorem Sound.newRecords_eq {w : Restarting F} (h : Sound sha256Hex w) {t : FileTail}
    (ht : t ∈ w.service.sources) {file : OnDisk} (hfile : w.disk t.path.text = some file) :
    t.newRecords w.disk = recordsOf t.path.text (consumedLength (w.seen t.path.text))
        (linesFrom (consumedLength (w.seen t.path.text)) file) ∧
      t.rewound file = t ∧
      completeLines file.bytes = completeLines (w.seen t.path.text) ++
        linesFrom (consumedLength (w.seen t.path.text)) file := by
  have hgrown := h.grown t.path.text
  rw [hfile] at hgrown
  obtain ⟨more, hmore⟩ := hgrown
  have hle := consumedLength_le (w.seen t.path.text)
  have hrewound : t.rewound file = t := by
    apply FileTail.rewound_of_le
    rw [h.offsets t ht, ← hmore, List.length_append]
    omega
  refine ⟨?_, hrewound, ?_⟩
  · simp only [FileTail.newRecords, hfile, hrewound, h.offsets t ht]
  · rw [linesFrom, ← hmore]
    exact completeLines_append _ _

/-- A call that returns `Ok` and reads texts that fit keeps the invariant. -/
theorem Sound.poll {w : Restarting F} (h : Sound sha256Hex w) (out : Outside)
    (hfits : StepFits w (.pollOnce out)) (hdisk : out.disk = w.disk)
    (hok : (w.service.pollOnce sha256Hex out).outcome.isOk = true) :
    Sound sha256Hex { w with
      service := (w.service.pollOnce sha256Hex out).service
      yielded := w.yielded ++ (w.service.pollOnce sha256Hex out).taken
      seen := w.look } := by
  obtain ⟨htaken, hsources, hstate⟩ := IngestService.pollOnce_ok hok
  rw [hdisk] at htaken hsources hstate
  -- the files that are not tailed, the missing ones, and the ones a tail reads
  have hcases : ∀ path, (w.look path = w.seen path ∧
        ((w.service.sources.flatMap (FileTail.newRecords w.disk)).filter fun r =>
          r.file = some path) = []) ∨
      ∃ t ∈ w.service.sources, t.path.text = path ∧ ∃ file, w.disk path = some file ∧
        w.look path = file.bytes := by
    intro path
    cases htail : w.tails path with
    | false =>
        refine Or.inl ⟨?_, filter_flatMap_newRecords_of_not_tailed fun t ht heq => ?_⟩
        · rw [look, htail]
          cases w.disk path <;> rfl
        · rw [(w.tails_iff path).mpr ⟨t, ht, heq⟩] at htail
          cases htail
    | true =>
        obtain ⟨t, ht, rfl⟩ := (w.tails_iff path).mp htail
        cases hfile : w.disk t.path.text with
        | none =>
            refine Or.inl ⟨by rw [look, hfile], ?_⟩
            rw [filter_flatMap_newRecords h.distinct ht, FileTail.newRecords, hfile]
        | some file =>
            exact Or.inr ⟨t, ht, rfl, file, rfl, by rw [look, hfile, htail]; rfl⟩
  refine ⟨?_, fun path => ?_, fun path => ?_, fun path => ?_, fun t' ht' => ?_⟩
  · have hpaths : ∀ t : FileTail, (t.advanced w.disk).path.text = t.path.text := fun t => by
      unfold FileTail.advanced
      split <;> rfl
    simp only [hsources, List.map_map, Function.comp_def, hpaths]
    exact h.distinct
  · have hgrown := h.grown path
    simp only [look]
    cases hfile : w.disk path with
    | none => simpa only [hfile] using hgrown
    | some file =>
        rw [hfile] at hgrown
        dsimp only
        split
        · exact List.prefix_refl _
        · exact hgrown
  · simp only [htaken, List.filter_append, h.yielded path]
    rcases hcases path with ⟨hlook, hnone⟩ | ⟨t, ht, rfl, file, hfile, hlook⟩
    · rw [hlook, hnone, List.append_nil]
    · obtain ⟨hnew, _, hlines⟩ := h.newRecords_eq ht hfile
      rw [filter_flatMap_newRecords h.distinct ht, hnew, hlook, hlines, recordsOf_append,
        Nat.zero_add]
      rfl
  · simp only [hstate path]
    rcases hcases path with ⟨hlook, hnone⟩ | ⟨t, ht, rfl, file, hfile, hlook⟩
    · rw [hlook, hnone]
      exact h.journal path
    · obtain ⟨hnew, hrewound, hlines⟩ := h.newRecords_eq ht hfile
      have hgrown := h.grown t.path.text
      rw [hfile] at hgrown
      have hlength : consumedLength file.bytes = consumedLength (w.seen t.path.text) +
          Framing.extent (linesFrom (consumedLength (w.seen t.path.text)) file) := by
        rw [consumedLength, hlines, Framing.extent_append]
        rfl
      rw [filter_flatMap_newRecords h.distinct ht, hnew, hlook]
      by_cases hempty : linesFrom (consumedLength (w.seen t.path.text)) file = []
      · rw [hempty] at hlength ⊢
        simp only [recordsOf, List.foldl_nil]
        rw [h.journal t.path.text]
        exact entryFor_congr rfl hgrown hlength
      · have hfit := hfits t ht
        simp only [FileTail.newLines, hfile, hrewound, h.offsets t ht] at hfit
        rw [foldl_furthest_recordsOf hfit hempty (fun k hk => by cases hk), ← hlength]
        have hpos : consumedLength file.bytes ≠ 0 := by
          obtain ⟨line, rest, hcons⟩ := List.exists_cons_of_ne_nil hempty
          rw [hlength, hcons, Framing.extent_cons]
          omega
        simp only [entryFor, if_neg hpos]
        rw [headFingerprint_congr sha256Hex hfile (List.prefix_refl _) hpos (consumedLength_le _)]
  · simp only [hsources, List.mem_map] at ht'
    obtain ⟨t, ht, rfl⟩ := ht'
    cases hfile : w.disk t.path.text with
    | none =>
        simp only [FileTail.advanced, hfile, look]
        exact h.offsets t ht
    | some file =>
        obtain ⟨_, hrewound, hlines⟩ := h.newRecords_eq ht hfile
        have htail : w.tails t.path.text = true := (w.tails_iff _).mpr ⟨t, ht, rfl⟩
        simp only [FileTail.advanced, hfile, look, htail, hrewound, h.offsets t ht, if_true,
          consumedLength, hlines, Framing.extent_append]

/-- A file that appears or grows, with the inode it has, keeps the invariant. -/
theorem Sound.grow {w : Restarting F} (h : Sound sha256Hex w) {path : Text} {file : OnDisk}
    (hgrows : w.seen path <+: file.bytes)
    (hinode : w.seen path = [] ∨ inodeOf w.disk path = file.inode) :
    Sound sha256Hex { w with disk := Function.update w.disk path (some file) } := by
  refine ⟨h.distinct, fun other => ?_, h.yielded, fun other => ?_, h.offsets⟩
  · by_cases hother : other = path
    · subst hother
      simpa using hgrows
    · simpa [Function.update_of_ne hother] using h.grown other
  · rw [h.journal other]
    by_cases hother : other = path
    · subst hother
      rcases hinode with hseen | hinode
      · simp [entryFor, hseen]
      · exact entryFor_congr (by simp [inodeOf, ← hinode]) (List.prefix_refl _) rfl
    · exact entryFor_congr (by simp [inodeOf, Function.update_of_ne hother])
        (List.prefix_refl _) rfl

/-- Each step whose lines fit keeps the invariant. -/
theorem sound_step (w : Restarting F) (a : RestartingAction) (w' : Restarting F)
    (h : Sound sha256Hex w) (ha : StepFits w a) (hstep : w.step sha256Hex a = some w') :
    Sound sha256Hex w' := by
  cases a with
  | create path inode =>
      have hgrown := h.grown path
      simp only [step] at hstep
      split at hstep
      · cases hstep
      · next hmissing =>
          cases hstep
          rw [hmissing] at hgrown
          exact h.grow (by rw [hgrown]) (Or.inl hgrown)
  | append path more =>
      have hgrown := h.grown path
      simp only [step] at hstep
      split at hstep
      · cases hstep
      · next file hfile =>
          cases hstep
          rw [hfile] at hgrown
          exact h.grow (hgrown.trans (List.prefix_append _ _))
            (Or.inr (by simp [inodeOf, hfile]))
  | addFileSource id path =>
      simp only [step] at hstep
      split at hstep
      · cases hstep
      · next hnew =>
          cases hstep
          exact h.add hnew w.service.pinned
  | addPinnedFileSource id path source =>
      simp only [step] at hstep
      split at hstep
      · cases hstep
      · next hnew =>
          cases hstep
          exact h.add hnew _
  | pollOnce out =>
      simp only [step] at hstep
      split at hstep
      · next hok =>
          cases hstep
          exact h.poll { out with disk := w.disk } ha rfl hok
      · cases hstep
  | restart =>
      cases hstep
      exact ⟨List.nodup_nil, h.grown, h.yielded, h.journal,
        fun t ht => absurd ht List.not_mem_nil⟩

theorem sound_start (disk : Disk) (parseValid : Text → Except ConformReport (AgentEvent F))
    (env : Text) : Sound sha256Hex (start disk parseValid env) := by
  refine ⟨List.nodup_nil, fun path => ?_, fun path => ?_, fun path => ?_,
    fun t ht => absurd ht List.not_mem_nil⟩
  · cases hfile : disk path with
    | none => simp [start, hfile]
    | some file => simp [start, hfile]
  · simp [start, completeLines, Framing.delimited_split_of_not_mem, recordsOf]
  · simp [start, entryFor, Store.getSourceState]

/-- In a run whose lines fit, every complete line is yielded once and in order, across
restarts, and the journal stands just past the last of them. -/
theorem resumesExactly_of_fits {disk : Disk}
    {parseValid : Text → Except ConformReport (AgentEvent F)} {env : Text}
    {actions : List RestartingAction} {w : Restarting F}
    (halong : Transition.Along (step sha256Hex) StepFits (start disk parseValid env) actions)
    (hrun : Transition.run (step sha256Hex) (start disk parseValid env) actions = some w) :
    ResumesExactly w :=
  (Transition.run_invariant_along sound_step halong hrun
    (sound_start disk parseValid env)).resumesExactly

section Sample

/-- A conformer that meets lines of no schema only. -/
def refuseAll (_ : Text) : Except ConformReport (AgentEvent F) :=
  .error ⟨false, none, ["malformed json: expected value at line 1 column 1"]⟩

def busFile : FilePath := ⟨"/bus/console.ndjson", by decide⟩

def oneFile (bytes : Bytes) : Disk := fun path =>
  if path = busFile.text then some ⟨bytes, some 1⟩ else none

def quietOutside : Outside where
  disk := fun _ => none
  now := fun _ => "2026-09-01T10:00:01+00:00"

/-- Poll a file, let it grow by one line, restart, and poll it again. -/
def growAndRestart : List RestartingAction :=
  [.addFileSource "filetail:console" busFile, .pollOnce quietOutside,
    .append busFile.text [97, 10], .restart, .addFileSource "filetail:console" busFile,
    .pollOnce quietOutside]

theorem resumesExactly_ascii :
    ∃ w, Transition.run (step plainDigest) (start (F := Unit) (oneFile [98, 10]) refuseAll "prod")
      growAndRestart = some w ∧ ResumesExactly w := by
  obtain ⟨w, hrun⟩ : ∃ w, Transition.run (step plainDigest)
    (start (F := Unit) (oneFile [98, 10]) refuseAll "prod") growAndRestart = some w := ⟨_, rfl⟩
  refine ⟨w, hrun, resumesExactly_of_fits ?_ hrun⟩
  refine Transition.along_cons trivial rfl (Transition.along_cons ?_ rfl
    (Transition.along_cons trivial rfl (Transition.along_cons trivial rfl
      (Transition.along_cons trivial rfl (Transition.along_cons ?_ rfl trivial)))))
  · exact by decide +kernel
  · exact by decide +kernel

/-- The line `FF` decodes to three bytes, so two bytes are journaled too many, and after the
restart the next line is never yielded. -/
theorem line_skipped_after_invalid_utf8 :
    ¬ ∀ w, Transition.run (step plainDigest)
      (start (F := Unit) (oneFile [0xFF, 10]) refuseAll "prod") growAndRestart = some w →
        ResumesExactly w := by
  intro h
  exact absurd (h _ rfl busFile.text).1 (by decide +kernel)

end Sample

end Restarting

end Genaryx.Ingest
