import Genaryx.Seal.Commands

/-!
# What one operation of a seal can do

Every operation is one of fourteen kinds. Each kind says which place it starts from, what it
changes and which place follows, and an operation that leaves its pack unstored says why it
could not be a quiet one.
-/

namespace Genaryx.Seal

open Base Json Genaryx.Core Command

variable {F : Type} {C : Codec F recursionLimit} {sha256 : Bytes → Bytes} {D : Double F}
  {debug : Text → Text}

/-- The pack and the digits whose temporary file is the call's own. -/
def Pc.owns : Pc F → Option (Sealed × Text)
  | .write s hex _ | .rename s hex => some (s, hex)
  | _ => none

namespace Storage

variable (d : Storage)

@[simp] theorem setTemporary_packs (hex : Text) (pid : Nat) (bytes : Option Bytes) :
    (d.setTemporary hex pid bytes).packs = d.packs := rfl

@[simp] theorem setTemporary_same (hex : Text) (pid : Nat) (bytes : Option Bytes) :
    (d.setTemporary hex pid bytes).temporaries hex pid = bytes := if_pos ⟨rfl, rfl⟩

theorem setTemporary_other {hex other : Text} (h : other ≠ hex) (pid : Nat)
    (bytes : Option Bytes) :
    (d.setTemporary hex pid bytes).temporaries other pid = d.temporaries other pid :=
  if_neg fun hboth => h hboth.1

/-- Two directories differ in one temporary file at most. -/
structure Keeps (d d' : Storage) (hex : Text) (pid : Nat) : Prop where
  packs : d'.packs = d.packs
  other : ∀ h, h ≠ hex → d'.temporaries h pid = d.temporaries h pid

theorem keeps_setTemporary (hex : Text) (pid : Nat) (bytes : Option Bytes) :
    Keeps d (d.setTemporary hex pid bytes) hex pid :=
  ⟨rfl, fun _ h => d.setTemporary_other h pid bytes⟩

theorem keeps_cleaned {d d' : Storage} {hex : Text} {pid : Nat} (h : Keeps d d' hex pid)
    (e : Conditions) : Keeps d (d'.cleaned e hex pid) hex pid := by
  unfold cleaned
  split
  · exact h
  · exact ⟨h.packs, fun other hne => (d'.setTemporary_other hne pid none).trans (h.other other hne)⟩

end Storage

namespace Console

/-- Lines are only added to the journal. -/
def Extends (w w' : Console F) : Prop :=
  ∀ digest, w.Journaled C digest → w'.Journaled C digest

/-- The operations of a call. -/
inductive Operates (C : Codec F recursionLimit) (w : Console F) (e : Conditions) :
    Pc F → Console F → Pc F → Prop
  | journaled {ambient : Ambient} {p : Prepared F} {bus : Option (CommandBus F)}
      (hkeeps : w.Extends (C := C) { w with bus })
      (hline : { w with bus }.Journaled C p.pack.digest) :
      Operates C w e (.journal ambient p) { w with bus } (.createDir p.pack)
  | unjournaled {ambient : Ambient} {p : Prepared F} {bus : Option (CommandBus F)}
      {failure : SealFailure} (hkeeps : w.Extends (C := C) { w with bus })
      (hloud : e.quiet = true → w.bus = none) :
      Operates C w e (.journal ambient p) { w with bus } (.finished (.error failure))
  | placed {s : Sealed} {hex : Text} (hhex : s.digest = "sha256:".toList ++ hex)
      (hstore : w.store.isSome = true) :
      Operates C w e (.createDir s) w (.exists s hex)
  | unplaced {s : Sealed} {error : Text}
      (hloud : e.quiet = true → w.store = none ∨ ∀ hex, s.digest ≠ "sha256:".toList ++ hex) :
      Operates C w e (.createDir s) w (s.unstored error)
  | found {s : Sealed} {hex : Text} (hheld : (w.packAt hex).isSome = true) :
      Operates C w e (.exists s hex) w (.read s hex)
  | missing {s : Sealed} {hex : Text} :
      Operates C w e (.exists s hex) w (.openTemporary s hex)
  | same {s : Sealed} {hex : Text} {bytes : Bytes} (hheld : w.packAt hex = some bytes)
      (htext : Utf8.fromUtf8 bytes = some s.canonical) : Operates C w e (.read s hex) w s.stored
  | different {s : Sealed} {hex error : Text}
      (hloud : e.quiet = true → ∀ bytes, w.packAt hex = some bytes →
        Utf8.fromUtf8 bytes ≠ some s.canonical) :
      Operates C w e (.read s hex) w (s.unstored error)
  | opened {s : Sealed} {hex : Text} {d : Storage} (hstore : w.store = some d)
      (hfree : d.temporaries hex w.pid = none) :
      Operates C w e (.openTemporary s hex)
        { w with store := some (d.setTemporary hex w.pid (some [])) } (.write s hex 0)
  | unopened {s : Sealed} {hex error : Text} {d : Storage} (hstore : w.store = some d)
      (hloud : e.quiet = true → (d.temporaries hex w.pid).isSome = true) :
      Operates C w e (.openTemporary s hex) w (s.unstored error)
  | wrote {s : Sealed} {hex : Text} {written : Nat} {d : Storage} (hstore : w.store = some d)
      (hleft : written < (Utf8.encode s.canonical).length) :
      Operates C w e (.write s hex written)
        { w with store := some (d.setTemporary hex w.pid
          (some ((Utf8.encode s.canonical).take (written + e.chunk)))) }
        (.write s hex (written + e.chunk))
  | synced {s : Sealed} {hex : Text} {written : Nat}
      (hall : (Utf8.encode s.canonical).length ≤ written) :
      Operates C w e (.write s hex written) w (.rename s hex)
  | dropped {pc : Pc F} {s : Sealed} {hex error : Text} {d d' : Storage}
      (hstore : w.store = some d) (howns : pc.owns = some (s, hex))
      (hkeeps : Storage.Keeps d d' hex w.pid)
      (hloud : e.quiet = true → d.temporaries hex w.pid = none) :
      Operates C w e pc { w with store := some d' } (s.unstored error)
  | renamed {s : Sealed} {hex : Text} {d : Storage} {bytes : Bytes} (hstore : w.store = some d)
      (hheld : d.temporaries hex w.pid = some bytes) :
      Operates C w e (.rename s hex) { w with store := some (d.rename hex w.pid bytes) } s.stored

theorem quiet_io {e : Conditions} (h : e.quiet = true) : e.io = none := by
  rw [Conditions.quiet, Bool.and_eq_true] at h
  exact Option.isNone_iff_eq_none.mp h.2

/-- A command that overrides nothing is recorded if nothing fails. -/
theorem record_quiet {e : Conditions} (hquiet : e.quiet = true) (bus : CommandBus F)
    (orgDomain host : Text) {rec : CommandRecord F} (hallow : rec.decision = "allow".toList) :
    ∃ bus', bus.record C sha256 orgDomain host rec e.ts e.journal.record = (.ok (), bus') := by
  simp only [Conditions.quiet, Bool.and_eq_true, Option.isNone_iff_eq_none] at hquiet
  obtain ⟨⟨⟨⟨⟨-, hinsert⟩, hdir⟩, hopen⟩, hwrite⟩, -⟩ := hquiet
  have hreason : requireBreakGlassReason rec = .ok () := by
    rw [requireBreakGlassReason, hallow, if_neg (by decide)]
  unfold CommandBus.record CommandBus.sinkFor CommandBus.appendChained
  rw [hreason]
  simp only [hinsert, hdir, hopen, hwrite]
  cases bus.sink with
  | none => exact ⟨_, rfl⟩
  | some sink => exact ⟨_, rfl⟩

/-- Recording a command keeps the lines that are written, and adds its own if it succeeds. -/
theorem written_of_record (sha256 : Bytes → Bytes) (bus : CommandBus F) (orgDomain host ts : Text)
    (rec : CommandRecord F) (faults : Faults) :
    ∃ lines, (bus.record C sha256 orgDomain host rec ts faults).2.written = bus.written ++ lines ∧
      ((bus.record C sha256 orgDomain host rec ts faults).1 = .ok () →
        ∃ prevHash, consoleCommandLine C orgDomain host rec ts prevHash ∈ lines) := by
  unfold CommandBus.record
  split
  · exact ⟨[], (List.append_nil _).symm, fun h => by cases h⟩
  split
  · exact ⟨[], (List.append_nil _).symm, fun h => by cases h⟩
  split
  · exact ⟨[], (List.append_nil _).symm, fun h => by cases h⟩
  unfold CommandBus.appendChained
  dsimp only
  split
  · exact ⟨[], (List.append_nil _).symm, fun h => by cases h⟩
  · exact ⟨_, rfl, fun _ => ⟨_, List.mem_singleton_self _⟩⟩

theorem operates_journal (sha256 : Bytes → Bytes) (debug : Text → Text) (w : Console F)
    (e : Conditions) (ambient : Ambient) (p : Prepared F) :
    ∃ u pc, w.operate sha256 C debug e (.journal ambient p) = some (u, pc) ∧
      Operates C w e (.journal ambient p) u pc := by
  unfold operate recordConsoleAction
  cases hbus : w.bus with
  | none =>
      refine ⟨_, _, rfl, .unjournaled (fun digest h => ?_) fun _ => hbus⟩
      obtain ⟨bus, hsome, -⟩ := h
      rw [hbus] at hsome
      cases hsome
  | some bus =>
      have hsame : ∀ digest, w.Journaled C digest →
          { w with bus := some bus }.Journaled C digest := by
        rintro digest ⟨bus', hsome, hline⟩
        exact ⟨bus', hbus.symm.trans hsome, hline⟩
      cases hopen : e.journal.openStore with
      | some error =>
          refine ⟨_, _, rfl, .unjournaled hsame fun hquiet => ?_⟩
          rw [Conditions.quiet, hopen] at hquiet
          cases hquiet
      | none =>
          obtain ⟨rec, hrec⟩ : ∃ rec, ambient.commandRecord caseCloseAction p.pack.digest p.params
            p.verifyResult = rec := ⟨_, rfl⟩
          obtain ⟨lines, hlines, hwritten⟩ := written_of_record (C := C) sha256 bus
            ambient.org ambient.host e.ts rec e.journal.record
          have hkeeps : ∀ bus', bus'.written = bus.written ++ lines →
              w.Extends (C := C) { w with bus := some bus' } := by
            rintro bus' hbus' digest ⟨was, hsome, org, host, ts, prev, rec', haction, htarget, hmem⟩
            obtain rfl := Option.some.inj (hbus.symm.trans hsome)
            exact ⟨bus', rfl, org, host, ts, prev, rec', haction, htarget,
              hbus' ▸ List.mem_append_left _ hmem⟩
          have hquiet : e.quiet = true → ∃ bus', bus.record C sha256 ambient.org ambient.host rec
              e.ts e.journal.record = (.ok (), bus') := fun h =>
            record_quiet h bus ambient.org ambient.host (hrec ▸ rfl)
          simp only [hrec]
          cases hrecord : bus.record C sha256 ambient.org ambient.host rec e.ts
              e.journal.record with
          | mk result bus' =>
              rw [hrecord] at hlines hwritten hquiet
              cases result with
              | ok =>
                  refine ⟨_, _, rfl, .journaled (hkeeps bus' hlines) ?_⟩
                  obtain ⟨prevHash, hmem⟩ := hwritten rfl
                  exact ⟨bus', rfl, ambient.org, ambient.host, e.ts, prevHash, rec, hrec ▸ rfl,
                    hrec ▸ rfl, hlines ▸ List.mem_append_right _ hmem⟩
              | error failure =>
                  refine ⟨_, _, rfl, .unjournaled (hkeeps bus' hlines) fun h => ?_⟩
                  obtain ⟨_, hok⟩ := hquiet h
                  cases hok

variable {w : Console F} {e : Conditions}

theorem operates_createDir {s : Sealed} {u : Console F} {pc : Pc F}
    (h : w.operate sha256 C debug e (.createDir s) = some (u, pc)) :
    Operates C w e (.createDir s) u pc := by
  unfold operate at h
  dsimp only at h
  split at h
  · next hstore => cases h; exact .unplaced fun _ => .inl hstore
  next d hstore =>
  split at h
  · next hstrip =>
      cases h
      refine .unplaced fun _ => .inr fun hex hhex => ?_
      rw [hhex, Text.stripPrefix_append] at hstrip
      cases hstrip
  · next hstrip =>
      split at h
      · next hio =>
          cases h
          exact .unplaced fun hquiet => by rw [quiet_io hquiet] at hio; cases hio
      · cases h
        exact .placed ((Text.stripPrefix_eq_some_iff _ _ _).mp hstrip) (by rw [hstore]; rfl)

/-- What an operation does in the directory. -/
theorem operates_store {d d' : Storage} {pc pc' : Pc F} (hstore : w.store = some d)
    (h : d.advance w.pid e pc = some (d', pc')) :
    Operates C w e pc { w with store := some d' } pc' := by
  have hw : { w with store := some d } = w := by rw [← hstore]
  have hpacks : ∀ hex, w.packAt hex = d.packs hex := fun hex => by rw [packAt, hstore]; rfl
  have hloud : ∀ {error : Text}, e.io = some error → ∀ {p : Prop}, e.quiet = true → p :=
    fun hio _ hquiet => by rw [quiet_io hquiet] at hio; cases hio
  cases pc with
  | journal ambient p => cases h
  | createDir s => cases h
  | finished result => cases h
  | «exists» s hex =>
      unfold Storage.advance at h
      dsimp only at h
      split at h
      · next hheld =>
          cases h
          rw [hw]
          exact .found ((hpacks hex).symm ▸ ((Bool.and_eq_true _ _).mp hheld).1)
      · cases h
        rw [hw]
        exact .missing
  | read s hex =>
      unfold Storage.advance at h
      dsimp only at h
      split at h
      · next hio => cases h; rw [hw]; exact .different fun hquiet => hloud hio hquiet
      · next hread =>
          cases h
          rw [hw]
          refine .different fun _ bytes hbytes htext => ?_
          rw [← hpacks, hbytes, Option.bind_some, htext] at hread
          cases hread
      · next held _ hread =>
          obtain ⟨bytes, hbytes, htext⟩ := Option.bind_eq_some_iff.mp hread
          split at h
          · next hsame =>
              cases h
              rw [hw]
              exact .same ((hpacks hex).trans hbytes) (hsame ▸ htext)
          · next hne =>
              cases h
              rw [hw]
              refine .different fun _ other hother htext' => hne ?_
              rw [hpacks, hbytes] at hother
              cases hother
              exact Option.some.inj (htext.symm.trans htext')
  | openTemporary s hex =>
      unfold Storage.advance at h
      dsimp only at h
      split at h
      · next hio => cases h; rw [hw]; exact .unopened hstore fun hquiet => hloud hio hquiet
      · next htaken =>
          cases h
          rw [hw]
          exact .unopened hstore fun _ => by rw [htaken]; rfl
      · next hfree => cases h; exact .opened hstore hfree
  | write s hex written =>
      unfold Storage.advance at h
      dsimp only at h
      split at h
      · next hio =>
          cases h
          exact .dropped hstore rfl (Storage.keeps_cleaned (d.keeps_setTemporary _ _ _) e)
            fun hquiet => hloud hio hquiet
      · split at h
        · next hall => cases h; rw [hw]; exact .synced hall
        · next hshort => cases h; exact .wrote hstore (Nat.lt_of_not_le hshort)
  | rename s hex =>
      unfold Storage.advance at h
      dsimp only at h
      split at h
      · next hio =>
          cases h
          exact .dropped hstore rfl (Storage.keeps_cleaned ⟨rfl, fun _ _ => rfl⟩ e)
            fun hquiet => hloud hio hquiet
      · next hgone =>
          cases h
          exact .dropped hstore rfl (Storage.keeps_cleaned ⟨rfl, fun _ _ => rfl⟩ e)
            fun _ => hgone
      · next hheld => cases h; exact .renamed hstore hheld

/-- Every operation is of one of the kinds. -/
theorem operates_of_operate {pc pc' : Pc F} {u : Console F}
    (h : w.operate sha256 C debug e pc = some (u, pc')) : Operates C w e pc u pc' := by
  have hdirectory : ∀ pc : Pc F, (w.store.bind fun d =>
      (d.advance w.pid e pc).map fun done => ({ w with store := some done.1 }, done.2)) =
        some (u, pc') → Operates C w e pc u pc' := by
    intro pc h
    obtain ⟨d, hstore, h⟩ := Option.bind_eq_some_iff.mp h
    obtain ⟨done, hdone, heq⟩ := Option.map_eq_some_iff.mp h
    cases heq
    exact operates_store hstore hdone
  cases pc with
  | journal ambient p =>
      obtain ⟨u', pc'', heq, hop⟩ := operates_journal (C := C) sha256 debug w e ambient p
      rw [heq] at h
      cases h
      exact hop
  | createDir s => exact operates_createDir h
  | «exists» s hex => exact hdirectory _ h
  | read s hex => exact hdirectory _ h
  | openTemporary s hex => exact hdirectory _ h
  | write s hex written => exact hdirectory _ h
  | rename s hex => exact hdirectory _ h
  | finished result => exact hdirectory _ h

end Console

end Genaryx.Seal
