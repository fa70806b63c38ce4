import Genaryx.Seal.Operations
import Mathlib.Data.Set.Function

/-!
# Stored packs

In every interleaving of seals, with a failure or a stop at any operation, a stored file is
the whole text that its name is the digest of, its line was journaled before it, and it never
changes. A seal that meets no fault ends with its file stored, as long as the name of its
temporary file is free when it opens it.
-/

namespace Genaryx.Seal

open Base Json Genaryx.Core Command

variable {F : Type} {C : Codec F recursionLimit} {sha256 : Bytes → Bytes} {D : Double F}
  {debug : Text → Text}

theorem digestOfText_injective (hsha : Function.Injective sha256) :
    Function.Injective (digestOfText sha256) := fun _ _ h =>
  Utf8.encode_injective (hsha (hexLower_injective (List.append_cancel_left h)))

namespace SealAction

/-- The text of the pack that an action seals. -/
def sealedText (sha256 : Bytes → Bytes) (D : Double F) : SealAction F → Option Text
  | .caseSeal _ request asked =>
      match prepare sha256 D request asked with
      | .error _ => none
      | .ok p => some p.pack.canonical
  | _ => none

/-- An operation of a call. -/
def isOf (i : Nat) : SealAction F → Bool
  | .advance j _ => j = i
  | _ => false

/-- The console goes on, and a write of the call takes at least one byte. -/
def letsOn (i : Nat) : SealAction F → Bool
  | .caseSeal _ _ _ => true
  | .advance j e => j ≠ i || 0 < e.chunk
  | .stop _ => false

end SealAction

/-- The texts of the packs that a run seals. -/
def sealedTexts (sha256 : Bytes → Bytes) (D : Double F) (actions : List (SealAction F)) :
    List Text :=
  actions.filterMap (SealAction.sealedText sha256 D)

/-- How many operations a call has left at most, if each of its writes takes a byte. -/
def Pc.left : Pc F → Nat
  | .journal _ p => (Utf8.encode p.pack.canonical).length + 6
  | .createDir s => (Utf8.encode s.canonical).length + 5
  | .exists s _ => (Utf8.encode s.canonical).length + 4
  | .openTemporary s _ => (Utf8.encode s.canonical).length + 3
  | .write s _ written => (Utf8.encode s.canonical).length - written + 2
  | .read _ _ | .rename _ _ => 1
  | .finished _ => 0

namespace Console

/-- The temporary file of this process for some digits. -/
def temporaryAt (w : Console F) (hex : Text) : Option Bytes :=
  w.store.bind fun d => d.temporaries hex w.pid

/-- A pack whose line is journaled, at the digits of its digest. -/
structure Placed (C : Codec F recursionLimit) (sha256 : Bytes → Bytes) (w : Console F)
    (sealed : Option Sealed) (s : Sealed) (hex : Text) : Prop where
  sealed_eq : sealed = some s
  digest : s.digest = digestOfText sha256 s.canonical
  hex_eq : s.digest = "sha256:".toList ++ hex
  journaled : w.Journaled C s.digest
  stored : w.store.isSome = true

/-- What is so of a call at each place. -/
def PcSound (C : Codec F recursionLimit) (sha256 : Bytes → Bytes) (w : Console F)
    (sealed : Option Sealed) : Pc F → Prop
  | .journal _ p => sealed = some p.pack ∧ p.pack.digest = digestOfText sha256 p.pack.canonical
  | .createDir s =>
      sealed = some s ∧ s.digest = digestOfText sha256 s.canonical ∧ w.Journaled C s.digest
  | .exists s hex | .openTemporary s hex => w.Placed C sha256 sealed s hex
  | .read s hex => w.Placed C sha256 sealed s hex ∧ (w.packAt hex).isSome = true
  | .write s hex written => w.Placed C sha256 sealed s hex ∧
      w.temporaryAt hex = some ((Utf8.encode s.canonical).take written)
  | .rename s hex => w.Placed C sha256 sealed s hex ∧
      w.temporaryAt hex = some (Utf8.encode s.canonical)
  | .finished _ => True

/-- Stored packs are whole and journaled, every call is where it should be, and no two calls
own one temporary file. -/
structure Sound (C : Codec F recursionLimit) (sha256 : Bytes → Bytes) (w : Console F) : Prop where
  holds : w.HoldsPacks sha256 C
  calls : ∀ i call, w.calls i = some call → w.PcSound C sha256 call.sealed call.pc
  alone : ∀ i j call call' s s' hex, w.calls i = some call → w.calls j = some call' →
    call.pc.owns = some (s, hex) → call'.pc.owns = some (s', hex) → i = j

/-- What is stored and what is being sealed are packs of some texts. -/
structure Packed (texts : Set Text) (w : Console F) : Prop where
  packs : ∀ hex bytes, w.packAt hex = some bytes → ∃ text ∈ texts, bytes = Utf8.encode text
  calls : ∀ i call s, w.calls i = some call → call.sealed = some s → s.canonical ∈ texts

variable {w u : Console F} {e : Conditions} {pc pc' : Pc F} {sealed : Option Sealed}

/-- A call that owns a temporary file has it. -/
theorem PcSound.owned (h : w.PcSound C sha256 sealed pc) {s : Sealed} {hex : Text}
    (howns : pc.owns = some (s, hex)) :
    w.Placed C sha256 sealed s hex ∧ (w.temporaryAt hex).isSome = true := by
  cases pc with
  | write s' hex' written => cases howns; exact ⟨h.1, by rw [h.2]; rfl⟩
  | rename s' hex' => cases howns; exact ⟨h.1, by rw [h.2]; rfl⟩
  | _ => cases howns

theorem Placed.mono {s : Sealed} {hex : Text} (h : w.Placed C sha256 sealed s hex)
    (hextends : w.Extends (C := C) u) (hstore : w.store.isSome = true → u.store.isSome = true) :
    u.Placed C sha256 sealed s hex :=
  ⟨h.sealed_eq, h.digest, h.hex_eq, hextends _ h.journaled, hstore h.stored⟩

/-- A call stays where it should be if the journal grows, no pack goes and its own temporary
file is left alone. -/
theorem PcSound.mono (h : w.PcSound C sha256 sealed pc) (hextends : w.Extends (C := C) u)
    (hstore : w.store.isSome = true → u.store.isSome = true)
    (hpacks : ∀ hex, (w.packAt hex).isSome = true → (u.packAt hex).isSome = true)
    (hown : ∀ s hex, pc.owns = some (s, hex) → u.temporaryAt hex = w.temporaryAt hex) :
    u.PcSound C sha256 sealed pc := by
  cases pc with
  | journal ambient p => exact h
  | createDir s => exact ⟨h.1, h.2.1, hextends _ h.2.2⟩
  | «exists» s hex => exact Placed.mono h hextends hstore
  | openTemporary s hex => exact Placed.mono h hextends hstore
  | read s hex => exact ⟨h.1.mono hextends hstore, hpacks hex h.2⟩
  | write s hex written => exact ⟨h.1.mono hextends hstore, (hown s hex rfl).trans h.2⟩
  | rename s hex => exact ⟨h.1.mono hextends hstore, (hown s hex rfl).trans h.2⟩
  | finished result => trivial

namespace Operates

theorem calls_eq (h : Operates C w e pc u pc') : u.calls = w.calls := by
  cases h <;> rfl

theorem extends_journal (h : Operates C w e pc u pc') : w.Extends (C := C) u := by
  cases h with
  | journaled hkeeps _ => exact hkeeps
  | unjournaled hkeeps _ => exact hkeeps
  | _ => exact fun _ hline => hline

theorem isSome_store (h : Operates C w e pc u pc') (hstore : w.store.isSome = true) :
    u.store.isSome = true := by
  cases h <;> first | exact hstore | rfl

/-- A pack is there already, or it is the temporary file that is renamed. -/
theorem packAt_of_packAt (h : Operates C w e pc u pc') {hex : Text} {bytes : Bytes}
    (hheld : u.packAt hex = some bytes) :
    w.packAt hex = some bytes ∨ ∃ s, pc = .rename s hex ∧ w.temporaryAt hex = some bytes := by
  cases h with
  | opened hstore _ => rw [packAt, hstore]; exact .inl hheld
  | wrote hstore => rw [packAt, hstore]; exact .inl hheld
  | dropped hstore _ hkeeps _ =>
      rw [packAt, Option.bind_some, hkeeps.packs] at hheld
      rw [packAt, hstore]
      exact .inl hheld
  | @renamed s hex' d bytes' hstore htemporary =>
      rw [packAt, Option.bind_some, Storage.rename] at hheld
      dsimp only at hheld
      split at hheld
      · next heq =>
          subst heq
          cases hheld
          exact .inr ⟨s, rfl, by rw [temporaryAt, hstore]; exact htemporary⟩
      · rw [packAt, hstore]
        exact .inl hheld
  | _ => exact .inl hheld

/-- No pack goes. -/
theorem isSome_packAt (h : Operates C w e pc u pc') (hex : Text)
    (hheld : (w.packAt hex).isSome = true) : (u.packAt hex).isSome = true := by
  cases h with
  | opened hstore _ => rw [packAt, hstore] at hheld; exact hheld
  | wrote hstore => rw [packAt, hstore] at hheld; exact hheld
  | dropped hstore _ hkeeps _ =>
      rw [packAt, hstore] at hheld
      rw [packAt, Option.bind_some, hkeeps.packs]
      exact hheld
  | renamed hstore _ =>
      rw [packAt, hstore] at hheld
      rw [packAt, Option.bind_some, Storage.rename]
      dsimp only
      split
      · rfl
      · exact hheld
  | _ => exact hheld

/-- An operation leaves every temporary file alone that is neither its own nor opened by it. -/
theorem temporaryAt_eq (h : Operates C w e pc u pc') {hex : Text}
    (hown : ∀ s, pc.owns ≠ some (s, hex)) (hheld : (w.temporaryAt hex).isSome = true) :
    u.temporaryAt hex = w.temporaryAt hex := by
  cases h with
  | @opened s hex' d hstore hfree =>
      have hne : hex ≠ hex' := by
        rintro rfl
        rw [temporaryAt, hstore, Option.bind_some, hfree] at hheld
        cases hheld
      rw [temporaryAt, temporaryAt, hstore]
      exact d.setTemporary_other hne _ _
  | @wrote s hex' written d hstore =>
      have hne : hex ≠ hex' := by rintro rfl; exact hown s rfl
      rw [temporaryAt, temporaryAt, hstore]
      exact d.setTemporary_other hne _ _
  | @dropped _ s hex' error d d' hstore howns hkeeps hloud =>
      have hne : hex ≠ hex' := by rintro rfl; exact hown s howns
      rw [temporaryAt, temporaryAt, hstore]
      exact hkeeps.other hex hne
  | @renamed s hex' d bytes hstore hheld' =>
      have hne : hex ≠ hex' := by rintro rfl; exact hown s rfl
      rw [temporaryAt, temporaryAt, hstore]
      exact d.setTemporary_other hne _ _
  | _ => rfl

/-- An operation leaves its own call where it should be. -/
theorem pcSound (h : Operates C w e pc u pc') (hpc : w.PcSound C sha256 sealed pc) :
    u.PcSound C sha256 sealed pc' := by
  cases h with
  | journaled hkeeps hline => exact ⟨hpc.1, hpc.2, hline⟩
  | unjournaled hkeeps hloud => trivial
  | placed hhex hstore => exact ⟨hpc.1, hpc.2.1, hhex, hpc.2.2, hstore⟩
  | unplaced hloud => trivial
  | found hheld => exact ⟨hpc, hheld⟩
  | missing => exact hpc
  | same hheld htext => trivial
  | different hloud => trivial
  | @opened s hex d hstore hfree =>
      refine ⟨⟨hpc.sealed_eq, hpc.digest, hpc.hex_eq, hpc.journaled, rfl⟩, ?_⟩
      exact d.setTemporary_same hex w.pid (some [])
  | unopened hstore hloud => trivial
  | @wrote s hex written d hstore =>
      refine ⟨⟨hpc.1.sealed_eq, hpc.1.digest, hpc.1.hex_eq, hpc.1.journaled, rfl⟩, ?_⟩
      exact d.setTemporary_same hex w.pid _
  | synced hall => exact ⟨hpc.1, by rw [hpc.2, List.take_of_length_le hall]⟩
  | dropped hstore howns hkeeps hloud => trivial
  | renamed hstore hheld => trivial

/-- An operation brings its call nearer to its end. -/
theorem left_lt (h : Operates C w e pc u pc') (hchunk : 0 < e.chunk) : pc'.left < pc.left := by
  cases h with
  | wrote hstore hleft =>
      rw [Pc.left, Pc.left]
      omega
  | dropped hstore howns hkeeps hloud =>
      cases pc with
      | write s hex written => exact Nat.succ_pos _
      | rename s hex => exact Nat.succ_pos _
      | _ => cases howns
  | _ =>
      simp only [Pc.left, Sealed.stored, Sealed.unstored]
      omega

/-- A call that comes to own a temporary file owned it before or opened a free one. -/
theorem owns_of_owns (h : Operates C w e pc u pc') {s : Sealed} {hex : Text}
    (howns : pc'.owns = some (s, hex)) : pc.owns = some (s, hex) ∨ w.temporaryAt hex = none := by
  cases h with
  | opened hstore hfree =>
      cases howns
      exact .inr (by rw [temporaryAt, hstore]; exact hfree)
  | wrote hstore => cases howns; exact .inl rfl
  | synced hall => cases howns; exact .inl rfl
  | _ => cases howns

end Operates

/-- Which calls there are does not matter to one of them. -/
theorem PcSound.setCall (h : w.PcSound C sha256 sealed pc) (i : Nat) (call : Call F) :
    (w.setCall i call).PcSound C sha256 sealed pc :=
  h.mono (fun _ hline => hline) id (fun _ hheld => hheld) fun _ _ _ => rfl

/-- What an operation of one call leaves of a sound console. -/
theorem Sound.operated (hw : w.Sound C sha256) {i : Nat} {call : Call F} {clean : Bool}
    (hcall : w.calls i = some call) (h : Operates C w e call.pc u pc') :
    (u.setCall i ⟨pc', call.sealed, clean⟩).Sound C sha256 := by
  have hpc := hw.calls i call hcall
  refine ⟨fun hex bytes hheld => ?_, fun j other hother => ?_, ?_⟩
  · rcases h.packAt_of_packAt hheld with hheld | ⟨s, hrename, htemporary⟩
    · obtain ⟨htext, hline⟩ := hw.holds hex bytes hheld
      exact ⟨htext, h.extends_journal _ hline⟩
    · rw [hrename] at hpc
      obtain ⟨hplaced, hown⟩ := hpc
      obtain rfl := Option.some.inj (htemporary.symm.trans hown)
      exact ⟨⟨s.canonical, rfl, hplaced.digest.symm.trans hplaced.hex_eq⟩,
        h.extends_journal _ (hplaced.hex_eq ▸ hplaced.journaled)⟩
  · refine PcSound.setCall ?_ i _
    rw [Console.setCall] at hother
    dsimp only at hother
    split at hother
    · cases hother
      exact h.pcSound hpc
    · next hne =>
        rw [h.calls_eq] at hother
        refine (hw.calls j other hother).mono h.extends_journal h.isSome_store h.isSome_packAt
          fun s hex howns => ?_
        exact h.temporaryAt_eq (fun s' howns' => hne
          (hw.alone j i other call s s' hex hother hcall howns howns'))
          ((hw.calls j other hother).owned howns).2
  · -- A temporary file that a call comes to own was nobody else's.
    have hnew : ∀ j other s s' hex, j ≠ i → w.calls j = some other →
        pc'.owns = some (s, hex) → other.pc.owns = some (s', hex) → False := by
      intro j other s s' hex hne hother howns howns'
      rcases h.owns_of_owns howns with hbefore | hfree
      · exact hne (hw.alone j i other call s' s hex hother hcall howns' hbefore)
      · have hheld := ((hw.calls j other hother).owned howns').2
        rw [hfree] at hheld
        cases hheld
    intro j k one other s s' hex hone hother howns howns'
    rw [Console.setCall] at hone hother
    dsimp only at hone hother
    rw [h.calls_eq] at hone hother
    split at hone
    · next hj =>
        subst hj
        cases hone
        split at hother
        · next hk => exact hk.symm
        · next hk => exact (hnew k other s s' hex hk hother howns howns').elim
    · next hj =>
        split at hother
        · cases hother
          exact (hnew j one s' s hex hj hone howns' howns).elim
        · exact hw.alone j k one other s s' hex hone hother howns howns'

theorem prepare_digest {request : SealRequest} {asked : Asked F} {p : Prepared F}
    (h : prepare sha256 D request asked = .ok p) :
    p.pack.digest = digestOfText sha256 p.pack.canonical := by
  unfold prepare at h
  split at h
  · cases h
  split at h
  · cases h
  split at h
  · cases h
  dsimp only at h
  split at h
  · cases h
  · cases h
  · next hseal =>
      cases h
      exact (sealValue_eq_ok hseal).2

/-- A call that owns nothing begins. -/
theorem Sound.begin (hw : w.Sound C sha256) {i : Nat} {call : Call F}
    (hpc : w.PcSound C sha256 call.sealed call.pc) (hfree : call.pc.owns = none) :
    (w.setCall i call).Sound C sha256 := by
  have hcalls : ∀ j other, (w.setCall i call).calls j = some other →
      (j = i ∧ other = call) ∨ w.calls j = some other := by
    intro j other hother
    rw [Console.setCall] at hother
    dsimp only at hother
    split at hother
    · next hj => cases hother; exact .inl ⟨hj, rfl⟩
    · exact .inr hother
  refine ⟨hw.holds, fun j other hother => ?_, ?_⟩
  · rcases hcalls j other hother with ⟨-, rfl⟩ | hother
    · exact hpc.setCall i _
    · exact (hw.calls j other hother).setCall i _
  · intro j k one other s s' hex hone hother howns howns'
    rcases hcalls j one hone with ⟨-, rfl⟩ | hone
    · rw [hfree] at howns
      cases howns
    · rcases hcalls k other hother with ⟨-, rfl⟩ | hother
      · rw [hfree] at howns'
        cases howns'
      · exact hw.alone j k one other s s' hex hone hother howns howns'

theorem sound_step (w : Console F) (a : SealAction F) (u : Console F)
    (hw : w.Sound C sha256) (hstep : step sha256 D C debug w a = some u) : u.Sound C sha256 := by
  cases a with
  | caseSeal i request asked =>
      rw [step] at hstep
      split at hstep
      · cases hstep
      split at hstep
      · cases hstep
        exact hw.begin trivial rfl
      · next hprepare =>
          cases hstep
          exact hw.begin ⟨rfl, prepare_digest hprepare⟩ rfl
  | advance i e =>
      obtain ⟨call, hcall, hstep⟩ := Option.bind_eq_some_iff.mp hstep
      obtain ⟨⟨v, pc'⟩, hdone, rfl⟩ := Option.map_eq_some_iff.mp hstep
      exact hw.operated hcall (operates_of_operate hdone)
  | stop pid =>
      cases hstep
      refine ⟨fun hex bytes hheld => ?_, fun i call hcall => (nomatch hcall),
        fun i j call call' s s' hex hcall => (nomatch hcall)⟩
      obtain ⟨htext, bus, hbus, org, host, ts, prev, rec, haction, htarget, hline⟩ :=
        hw.holds hex bytes hheld
      exact ⟨htext, { bus with sink := none }, by rw [hbus]; rfl, org, host, ts, prev, rec,
        haction, htarget, hline⟩

theorem packed_start (texts : Set Text) (pid : Nat) (bus : Option (CommandBus F))
    (hasStore : Bool) : (start pid bus hasStore).Packed texts := by
  refine ⟨fun hex bytes hheld => ?_, fun i call s hcall => absurd hcall (by simp [start])⟩
  cases hasStore <;> cases hheld

/-- A stored pack is one of the texts, under its digest. -/
theorem Packed.digest_of_packAt {texts : Set Text} (h : w.Packed texts) (hw : w.Sound C sha256)
    {hex : Text} {bytes : Bytes} (hheld : w.packAt hex = some bytes) :
    ∃ text ∈ texts, bytes = Utf8.encode text ∧
      digestOfText sha256 text = "sha256:".toList ++ hex := by
  obtain ⟨text, hmem, rfl⟩ := h.packs hex bytes hheld
  obtain ⟨⟨text', heq, hdigest⟩, -⟩ := hw.holds hex _ hheld
  obtain rfl := Utf8.encode_injective heq
  exact ⟨text, hmem, rfl, hdigest⟩

/-- A step stores and seals nothing but the packs of texts that it keeps to. -/
theorem Packed.next {texts : Set Text} (h : w.Packed texts) (hw : w.Sound C sha256)
    {a : SealAction F} (ha : ∀ text, a.sealedText sha256 D = some text → text ∈ texts)
    (hstep : step sha256 D C debug w a = some u) : u.Packed texts := by
  have hset : ∀ {v : Console F} {i : Nat} {call : Call F}, v.calls = w.calls →
      (∀ s, call.sealed = some s → s.canonical ∈ texts) →
      ∀ j other s, (v.setCall i call).calls j = some other → other.sealed = some s →
        s.canonical ∈ texts := by
    intro v i call hcalls hcall j other s hother hs
    rw [setCall] at hother
    dsimp only at hother
    split at hother
    · cases hother
      exact hcall s hs
    · rw [hcalls] at hother
      exact h.calls j other s hother hs
  cases a with
  | caseSeal i request asked =>
      rw [step] at hstep
      split at hstep
      · cases hstep
      split at hstep
      · cases hstep
        exact ⟨h.packs, hset rfl fun s hs => by cases hs⟩
      · next p hprepare =>
          cases hstep
          refine ⟨h.packs, hset rfl ?_⟩
          rintro s ⟨⟩
          exact ha _ (by rw [SealAction.sealedText, hprepare])
  | advance i e =>
      obtain ⟨call, hcall, hstep⟩ := Option.bind_eq_some_iff.mp hstep
      obtain ⟨⟨v, pc'⟩, hdone, rfl⟩ := Option.map_eq_some_iff.mp hstep
      have hop := operates_of_operate hdone
      refine ⟨fun hex bytes hheld => ?_, hset hop.calls_eq fun s hs => h.calls i call s hcall hs⟩
      rcases hop.packAt_of_packAt hheld with hheld | ⟨s, hrename, htemporary⟩
      · exact h.packs hex bytes hheld
      · have hpc := hw.calls i call hcall
        rw [hrename] at hpc
        exact ⟨s.canonical, h.calls i call s hcall hpc.1.sealed_eq,
          Option.some.inj (htemporary.symm.trans hpc.2)⟩
  | stop pid =>
      cases hstep
      exact ⟨h.packs, fun i call s hcall => by cases hcall⟩

/-- A stored pack does not change. -/
theorem packAt_kept {texts : Set Text} (hsha : Set.InjOn (digestOfText sha256) texts)
    (hw : w.Sound C sha256) (hpacked : w.Packed texts) (hu : u.Sound C sha256)
    (hpacked' : u.Packed texts) {hex : Text} {bytes : Bytes} (hheld : w.packAt hex = some bytes)
    (hthere : (u.packAt hex).isSome = true) : u.packAt hex = some bytes := by
  obtain ⟨bytes', hbytes'⟩ := Option.isSome_iff_exists.mp hthere
  obtain ⟨text, hmem, rfl, htext⟩ := hpacked.digest_of_packAt hw hheld
  obtain ⟨text', hmem', rfl, htext'⟩ := hpacked'.digest_of_packAt hu hbytes'
  rw [hbytes', hsha hmem' hmem (htext'.trans htext.symm)]

/-- No pack goes in a step. -/
theorem isSome_packAt_step {a : SealAction F} (hstep : step sha256 D C debug w a = some u)
    (hex : Text) (hheld : (w.packAt hex).isSome = true) : (u.packAt hex).isSome = true := by
  cases a with
  | caseSeal i request asked =>
      rw [step] at hstep
      split at hstep
      · cases hstep
      split at hstep <;> (cases hstep; exact hheld)
  | advance i e =>
      obtain ⟨call, hcall, hstep⟩ := Option.bind_eq_some_iff.mp hstep
      obtain ⟨⟨v, pc'⟩, hdone, rfl⟩ := Option.map_eq_some_iff.mp hstep
      exact (operates_of_operate hdone).isSome_packAt hex hheld
  | stop pid => cases hstep; exact hheld

/-- A pack that appears in a step has its line in the journal before it. -/
theorem journaled_before (hw : w.Sound C sha256) {a : SealAction F}
    (hstep : step sha256 D C debug w a = some u) {hex : Text} (hnone : w.packAt hex = none)
    (hthere : (u.packAt hex).isSome = true) : w.Journaled C ("sha256:".toList ++ hex) := by
  have hsame : u.packAt hex = w.packAt hex → w.Journaled C ("sha256:".toList ++ hex) := by
    intro heq
    rw [heq, hnone] at hthere
    cases hthere
  cases a with
  | caseSeal i request asked =>
      rw [step] at hstep
      split at hstep
      · cases hstep
      split at hstep <;> (cases hstep; exact hsame rfl)
  | advance i e =>
      obtain ⟨call, hcall, hstep⟩ := Option.bind_eq_some_iff.mp hstep
      obtain ⟨⟨v, pc'⟩, hdone, rfl⟩ := Option.map_eq_some_iff.mp hstep
      obtain ⟨bytes, hbytes⟩ := Option.isSome_iff_exists.mp hthere
      rcases (operates_of_operate hdone).packAt_of_packAt hbytes with hheld | ⟨s, hrename, -⟩
      · exact hsame (hbytes.trans hheld.symm)
      · have hpc := hw.calls i call hcall
        rw [hrename] at hpc
        exact hpc.1.hex_eq ▸ hpc.1.journaled
  | stop pid => cases hstep; exact hsame rfl

theorem sound_start (pid : Nat) (bus : Option (CommandBus F)) (hasStore : Bool) :
    (start pid bus hasStore).Sound C sha256 := by
  refine ⟨fun hex bytes hheld => ?_, fun i call hcall => (nomatch hcall),
    fun i j call call' s s' hex hcall => (nomatch hcall)⟩
  cases hasStore <;> cases hheld

/-- A call that has not finished can go on. -/
theorem Sound.goesOn (hw : w.Sound C sha256) {i : Nat} {call : Call F}
    (hcall : w.calls i = some call) (hpc : ∀ result, call.pc ≠ .finished result)
    (e : Conditions) : ∃ u, step sha256 D C debug w (.advance i e) = some u := by
  have hsome : ∃ done, w.operate sha256 C debug e call.pc = some done := by
    have hsound := hw.calls i call hcall
    obtain ⟨pc, sealed, clean⟩ := call
    have hdirectory : ∀ {s hex}, w.Placed C sha256 sealed s hex →
        (∀ d : Storage, ∃ done, d.advance w.pid e pc = some done) →
        ∃ done, (w.store.bind fun d => (d.advance w.pid e pc).map fun done =>
          ({ w with store := some done.1 }, done.2)) = some done := by
      intro s hex hplaced hall
      obtain ⟨d, hd⟩ := Option.isSome_iff_exists.mp hplaced.stored
      obtain ⟨done, hdone⟩ := hall d
      exact ⟨_, by rw [hd, Option.bind_some, hdone, Option.map_some]⟩
    cases pc with
    | journal ambient p =>
        obtain ⟨u, pc', heq, -⟩ := operates_journal (C := C) sha256 debug w e ambient p
        exact ⟨_, heq⟩
    | createDir s =>
        unfold operate
        dsimp only
        split
        · exact ⟨_, rfl⟩
        split
        · exact ⟨_, rfl⟩
        split <;> exact ⟨_, rfl⟩
    | «exists» s hex =>
        refine hdirectory hsound fun d => ?_
        unfold Storage.advance
        dsimp only
        split <;> exact ⟨_, rfl⟩
    | read s hex =>
        refine hdirectory hsound.1 fun d => ?_
        unfold Storage.advance
        dsimp only
        split
        · exact ⟨_, rfl⟩
        · exact ⟨_, rfl⟩
        · split <;> exact ⟨_, rfl⟩
    | openTemporary s hex =>
        refine hdirectory hsound fun d => ?_
        unfold Storage.advance
        dsimp only
        split <;> exact ⟨_, rfl⟩
    | write s hex written =>
        refine hdirectory hsound.1 fun d => ?_
        unfold Storage.advance
        dsimp only
        split
        · exact ⟨_, rfl⟩
        · split <;> exact ⟨_, rfl⟩
    | rename s hex =>
        refine hdirectory hsound.1 fun d => ?_
        unfold Storage.advance
        dsimp only
        split <;> exact ⟨_, rfl⟩
    | finished result => exact absurd rfl (hpc result)
  obtain ⟨done, hdone⟩ := hsome
  exact ⟨_, by rw [step, hcall, Option.bind_some, hdone, Option.map_some]⟩

/-- A quiet operation that ends its call leaves the pack stored. -/
theorem Operates.stores (h : Operates C w e pc u pc') {texts : Set Text}
    (hsha : Set.InjOn (digestOfText sha256) texts) (hw : w.Sound C sha256)
    (hpacked : w.Packed texts) {i : Nat} {call : Call F} (hcall : w.calls i = some call)
    (hpc : call.pc = pc) (hfree : w.keepsFree (.advance i e) = true) (hquiet : e.quiet = true)
    {s : Sealed} (hs : call.sealed = some s) {result : Except SealFailure SealedCase}
    (hend : pc' = .finished result) : u.Stores s := by
  have hsound := hw.calls i call hcall
  rw [hpc, hs] at hsound
  rw [keepsFree, hcall, Option.map_some, hpc] at hfree
  -- What a read finds is the text that the digits are of.
  have hread : ∀ {t : Sealed} {hex bytes}, w.Placed C sha256 (some s) t hex →
      w.packAt hex = some bytes → bytes = Utf8.encode t.canonical := by
    intro t hex bytes hplaced hbytes
    obtain ⟨text, hmem, rfl, htext⟩ := hpacked.digest_of_packAt hw hbytes
    have hmem' : t.canonical ∈ texts :=
      hpacked.calls i call t hcall (hs.trans hplaced.sealed_eq)
    rw [hsha hmem hmem' (htext.trans (hplaced.hex_eq.symm.trans hplaced.digest))]
  cases h with
  | journaled hkeeps hline => cases hend
  | unjournaled hkeeps hloud =>
      rw [hloud hquiet] at hfree
      cases hfree
  | placed hhex hstore => cases hend
  | @unplaced t error hloud =>
      rcases hloud hquiet with hnone | hne
      · rw [hnone] at hfree
        cases hfree
      · exact absurd hsound.2.1 (hne (hexLower (sha256 (Utf8.encode t.canonical))))
  | found hheld => cases hend
  | missing => cases hend
  | @same t hex bytes hheld htext =>
      obtain rfl := Option.some.inj hsound.1.sealed_eq
      exact ⟨hex, hsound.1.hex_eq, hread hsound.1 hheld ▸ hheld⟩
  | @different t hex error hloud =>
      obtain ⟨bytes, hbytes⟩ := Option.isSome_iff_exists.mp hsound.2
      refine absurd ?_ (hloud hquiet bytes hbytes)
      rw [hread hsound.1 hbytes, Utf8.fromUtf8_encode]
  | opened hstore hfree' => cases hend
  | @unopened t hex error d hstore hloud =>
      rw [hstore] at hfree
      have htaken := hloud hquiet
      rw [Option.isNone_iff_eq_none.mp hfree] at htaken
      cases htaken
  | wrote hstore => cases hend
  | synced hall => cases hend
  | @dropped _ t hex error d d' hstore howns hkeeps hloud =>
      have hheld := (hsound.owned howns).2
      rw [temporaryAt, hstore, Option.bind_some, hloud hquiet] at hheld
      cases hheld
  | @renamed t hex d bytes hstore hheld =>
      obtain rfl := Option.some.inj hsound.1.sealed_eq
      have hown := hsound.2
      rw [temporaryAt, hstore, Option.bind_some, hheld] at hown
      refine ⟨hex, hsound.1.hex_eq, ?_⟩
      rw [packAt, Option.bind_some, Storage.rename]
      exact (if_pos rfl).trans hown

/-- What a step under the condition leaves of calls that have ended. -/
theorem endsStored_step {texts : Set Text} (hsha : Set.InjOn (digestOfText sha256) texts)
    (w : Console F) (a : SealAction F) (u : Console F)
    (hw : w.Sound C sha256 ∧ w.Packed texts ∧ w.EndsStored)
    (ha : w.keepsFree a = true ∧ ∀ text, a.sealedText sha256 D = some text → text ∈ texts)
    (hstep : step sha256 D C debug w a = some u) :
    u.Sound C sha256 ∧ u.Packed texts ∧ u.EndsStored := by
  obtain ⟨hw, hpacked, hends⟩ := hw
  obtain ⟨hfree, hkeeps⟩ := ha
  have hu := sound_step w a u hw hstep
  have hpacked' := hpacked.next hw hkeeps hstep
  have hkept : ∀ s, w.Stores s → u.Stores s := by
    rintro s ⟨hex, hhex, hheld⟩
    exact ⟨hex, hhex, packAt_kept hsha hw hpacked hu hpacked' hheld
      (isSome_packAt_step hstep hex (by rw [hheld]; rfl))⟩
  refine ⟨hu, hpacked', fun i s result hcall => ?_⟩
  cases a with
  | caseSeal j request asked =>
      rw [step] at hstep
      split at hstep
      · cases hstep
      split at hstep
      all_goals
        cases hstep
        rw [setCall] at hcall
        dsimp only at hcall
        split at hcall
        · cases hcall
        · exact hends i s result hcall
  | advance j e =>
      obtain ⟨call, hj, hstep⟩ := Option.bind_eq_some_iff.mp hstep
      obtain ⟨⟨v, pc'⟩, hdone, rfl⟩ := Option.map_eq_some_iff.mp hstep
      have hop := operates_of_operate hdone
      rw [setCall] at hcall
      dsimp only at hcall
      split at hcall
      · simp only [Option.some.injEq, Call.mk.injEq, Bool.and_eq_true] at hcall
        exact hop.stores hsha hw hpacked hj rfl hfree hcall.2.2.2 hcall.2.1 hcall.1
      · rw [hop.calls_eq] at hcall
        exact hkept s (hends i s result hcall)
  | stop pid => cases hstep; cases hcall

/-- In a run that keeps to some texts, its steps keep to them. -/
theorem along_of_sealedTexts {texts : Set Text} {actions : List (SealAction F)} {v : Console F}
    (h : ∀ text ∈ sealedTexts sha256 D actions, text ∈ texts) :
    Transition.Along (step sha256 D C debug)
      (fun _ a => ∀ text, a.sealedText sha256 D = some text → text ∈ texts) v actions := by
  refine Transition.along_iff.mpr fun before a after t hactions _ text htext => h text ?_
  refine List.mem_filterMap.mpr ⟨a, ?_, htext⟩
  rw [hactions]
  exact List.mem_append_right _ (List.mem_cons_self ..)

/-- The packs of a run are those that it seals. -/
theorem sound_packed_run {texts : Set Text} {actions : List (SealAction F)} {v w : Console F}
    (h : ∀ text ∈ sealedTexts sha256 D actions, text ∈ texts)
    (hrun : Transition.run (step sha256 D C debug) v actions = some w)
    (hv : v.Sound C sha256 ∧ v.Packed texts) : w.Sound C sha256 ∧ w.Packed texts :=
  Transition.run_invariant_along (I := fun v : Console F => v.Sound C sha256 ∧ v.Packed texts)
    (fun s a t hs ha hstep => ⟨sound_step s a t hs.1 hstep, hs.2.next hs.1 ha hstep⟩)
    (along_of_sealedTexts h) hrun hv

/-- Each operation of a call brings it nearer to its end, whatever other calls do meanwhile. -/
theorem left_add_countP {later : List (SealAction F)} {i : Nat} {call : Call F}
    (hcall : w.calls i = some call)
    (hlater : Transition.run (step sha256 D C debug) w later = some u)
    (hlets : later.all (·.letsOn i) = true) :
    ∃ call', u.calls i = some call' ∧
      call'.pc.left + later.countP (·.isOf i) ≤ call.pc.left := by
  induction later generalizing w call with
  | nil =>
      cases hlater
      exact ⟨call, hcall, Nat.le_refl _⟩
  | cons a later ih =>
      obtain ⟨v, hv, hrest⟩ := Transition.run_cons_eq_some hlater
      obtain ⟨ha, hall⟩ := (Bool.and_eq_true _ _).mp hlets
      obtain ⟨call₁, hcall₁, hleft⟩ : ∃ call₁, v.calls i = some call₁ ∧
          call₁.pc.left + (if a.isOf i then 1 else 0) ≤ call.pc.left := by
        cases a with
        | caseSeal j request asked =>
            have hne : i ≠ j := by
              rintro rfl
              rw [step, hcall] at hv
              cases hv
            refine ⟨call, ?_, Nat.le_refl _⟩
            rw [step] at hv
            split at hv
            · cases hv
            split at hv <;> (cases hv; exact (if_neg hne).trans hcall)
        | advance j e =>
            obtain ⟨other, hother, hv⟩ := Option.bind_eq_some_iff.mp hv
            obtain ⟨⟨v', pc'⟩, hdone, rfl⟩ := Option.map_eq_some_iff.mp hv
            have hop := operates_of_operate hdone
            by_cases hj : j = i
            · subst hj
              obtain rfl := Option.some.inj (hcall.symm.trans hother)
              refine ⟨_, if_pos rfl, ?_⟩
              have hchunk : 0 < e.chunk := by simpa [SealAction.letsOn] using ha
              simpa [SealAction.isOf] using Nat.succ_le_of_lt (hop.left_lt hchunk)
            · refine ⟨call, ?_, by simp [SealAction.isOf, hj]⟩
              exact (if_neg (Ne.symm hj)).trans ((congrFun hop.calls_eq i).trans hcall)
        | stop pid => cases ha
      obtain ⟨call', hcall', hcount⟩ := ih hcall₁ hrest hall
      refine ⟨call', hcall', ?_⟩
      rw [List.countP_cons]
      omega

theorem digestOfText_of_casePack {R : Reader D.ofDecimal recursionLimit} {digest text : Text}
    {store : Option Storage} {io : Option Text}
    (h : casePack sha256 D R digest store io = .ok text) : digestOfText sha256 text = digest := by
  unfold casePack at h
  split at h
  · cases h
  split at h
  · cases h
  split at h
  · cases h
  · cases h
  split at h
  · cases h
  split at h
  · cases h
  · next hverify =>
      cases h
      unfold verify at hverify
      split at hverify
      · cases hverify
      split at hverify
      · cases hverify
      split at hverify
      · cases hverify
      dsimp only at hverify
      split at hverify
      · cases hverify
      · next hfound => exact not_not.mp hfound

/-- In every run every stored pack is the whole text that hashes to its name, with its line
journaled before it, and never changes if no two packs share a digest; a pack is handed back only
if it hashes to its digest; a call can go on until it has finished, and has so many operations at
most; and in a run that keeps the temporary names free, every call that sealed a pack and met no
fault has ended with its file stored. -/
theorem packsStored {pid : Nat} {bus : Option (CommandBus F)} {hasStore : Bool}
    {actions : List (SealAction F)} {w : Console F}
    (hrun : Transition.run (step sha256 D C debug) (start pid bus hasStore) actions = some w) :
    w.HoldsPacks sha256 C ∧
      (∀ a u hex, step sha256 D C debug w a = some u → w.packAt hex = none →
        (u.packAt hex).isSome = true → w.Journaled C ("sha256:".toList ++ hex)) ∧
      (∀ later u hex bytes,
        Set.InjOn (digestOfText sha256)
          {text | text ∈ sealedTexts sha256 D (actions ++ later)} →
        Transition.run (step sha256 D C debug) w later = some u →
        w.packAt hex = some bytes → u.packAt hex = some bytes) ∧
      (∀ (R : Reader D.ofDecimal recursionLimit) digest store io text,
        casePack sha256 D R digest store io = .ok text → digestOfText sha256 text = digest) ∧
      (∀ i call e, w.calls i = some call → (∀ result, call.pc ≠ .finished result) →
        ∃ u, step sha256 D C debug w (.advance i e) = some u) ∧
      (∀ i call later u, w.calls i = some call →
        Transition.run (step sha256 D C debug) w later = some u →
        later.all (·.letsOn i) = true → later.countP (·.isOf i) ≤ call.pc.left) ∧
      (Set.InjOn (digestOfText sha256) {text | text ∈ sealedTexts sha256 D actions} →
        Transition.Along (step sha256 D C debug) (fun w a => w.keepsFree a = true)
          (start pid bus hasStore) actions → w.EndsStored) := by
  have hstart : (start pid bus hasStore).Sound C sha256 := sound_start pid bus hasStore
  have hw := Transition.run_invariant sound_step hrun hstart
  refine ⟨hw.holds, fun a u hex hstep hnone hthere => journaled_before hw hstep hnone hthere,
    fun later u hex bytes hsha hlater hheld => ?_, fun R digest store io text h =>
    digestOfText_of_casePack h, fun i call e hcall hpc => hw.goesOn hcall hpc e,
    fun i call later u hcall hlater hlets => ?_, fun hsha halong => ?_⟩
  · rw [sealedTexts, List.filterMap_append] at hsha
    obtain ⟨-, hpacked⟩ := sound_packed_run
      (fun text htext => List.mem_append_left _ htext) hrun ⟨hstart, packed_start _ pid bus hasStore⟩
    have hlaterTexts : ∀ text ∈ sealedTexts sha256 D later, text ∈ {text |
        text ∈ actions.filterMap (SealAction.sealedText sha256 D) ++
          later.filterMap (SealAction.sealedText sha256 D)} := fun text htext =>
      List.mem_append_right _ htext
    have hkept := Transition.run_invariant_along
      (I := fun v : Console F => v.Sound C sha256 ∧ v.Packed _ ∧ v.packAt hex = some bytes)
      (fun v a v' hv ha hstep =>
        have hv' := sound_step v a v' hv.1 hstep
        have hpacked' := hv.2.1.next hv.1 ha hstep
        ⟨hv', hpacked', packAt_kept hsha hv.1 hv.2.1 hv' hpacked' hv.2.2
          (isSome_packAt_step hstep hex (by rw [hv.2.2]; rfl))⟩)
      (along_of_sealedTexts hlaterTexts) hlater ⟨hw, hpacked, hheld⟩
    exact hkept.2.2
  · obtain ⟨call', -, hcount⟩ := left_add_countP hcall hlater hlets
    omega
  · have hkeeps : Transition.Along (step sha256 D C debug)
        (fun _ a => ∀ text, a.sealedText sha256 D = some text →
          text ∈ {text | text ∈ sealedTexts sha256 D actions})
        (start pid bus hasStore) actions := along_of_sealedTexts fun text htext => htext
    have hboth := Transition.along_iff.mpr fun before a after t hactions hbefore =>
      And.intro (Transition.along_iff.mp halong before a after t hactions hbefore)
        (Transition.along_iff.mp hkeeps before a after t hactions hbefore)
    exact (Transition.run_invariant_along (endsStored_step hsha) hboth hrun
      ⟨hstart, packed_start _ pid bus hasStore, fun i s result hcall => by cases hcall⟩).2.2

section Sample

open CommandBus

/-- A case with nothing in it, closed as applied. -/
def sampleRequest : SealRequest := ⟨"bus:1", [], ⟨.applied, []⟩⟩

def sampleAsked : Asked Decimal where
  case := .ok ⟨.object [], "sha256:0"⟩
  proof := fun _ => .null
  ambient := {}
  sealedAt := "t"

/-- A console with a journal and a store directory, under the process id 1. -/
def sampleStart : Console Decimal := start 1 (some {}) true

def sampleStep : Console Decimal → SealAction Decimal → Option (Console Decimal) :=
  step id Decimal.double sampleCodec id

/-- One seal that goes as far as its `n`-th operation. -/
def sampleSeal (i n : Nat) : List (SealAction Decimal) :=
  .caseSeal i sampleRequest sampleAsked :: List.replicate n (.advance i { chunk := 1024 })

/-- A call has ended without a fault, and no file is there for its pack. -/
def endsUnstored (w : Console F) (i : Nat) : Bool :=
  match w.calls i with
  | some ⟨.finished _, some s, true⟩ =>
      ((Text.stripPrefix "sha256:" s.digest).bind w.packAt).isNone
  | _ => false

theorem not_endsStored {i : Nat} (h : w.endsUnstored i = true) : ¬ w.EndsStored := by
  intro hends
  unfold endsUnstored at h
  split at h
  · next result s hcall =>
      obtain ⟨hex, hhex, hheld⟩ := hends i s result hcall
      rw [hhex, Text.stripPrefix_append, Option.bind_some, hheld] at h
      cases h
  · cases h

end Sample

theorem packsStored_once :
    ∃ w, Transition.run sampleStep sampleStart (sampleSeal 0 7) = some w ∧
      w.endsUnstored 0 = false ∧ w.HoldsPacks id CommandBus.sampleCodec ∧ w.EndsStored := by
  obtain ⟨w, hrun, hstored⟩ := Option.any_eq_true _ _ |>.mp (by decide +kernel :
    (Transition.run sampleStep sampleStart (sampleSeal 0 7)).any
      (fun w => !w.endsUnstored 0) = true)
  obtain ⟨hholds, -, -, -, -, -, hends⟩ := packsStored hrun
  exact ⟨w, hrun, by simpa using hstored, hholds,
    hends (digestOfText_injective Function.injective_id).injOn
      (Transition.along_of_check (by decide +kernel))⟩

/-- A process stops with its temporary file open. The next process has its id, as in a
container, and can never store that pack. -/
theorem unstored_after_stop :
    ¬ ∀ w, Transition.run sampleStep sampleStart
      (sampleSeal 0 4 ++ .stop 1 :: sampleSeal 1 4) = some w → w.EndsStored := by
  intro h
  obtain ⟨w, hrun, hunstored⟩ := Option.any_eq_true _ _ |>.mp (by decide +kernel :
    (Transition.run sampleStep sampleStart (sampleSeal 0 4 ++ .stop 1 :: sampleSeal 1 4)).any
      (fun w => w.endsUnstored 1) = true)
  exact not_endsStored hunstored (h w hrun)

end Console

end Genaryx.Seal
