import Genaryx.Replay.Slots
import Mathlib.Data.Finset.Card
import Mathlib.Data.List.Dedup

/-!
# Proofs are bounded

Over any run, the count of the slots is the number of requests that hold one, and never more than
the limit. A scratch directory, and a child that is waited for, are those of a request with a slot.

## Implementation notes

Directories and children are in the custody of the requests. What a step does to the slots is one of
three: nothing, taking one, or giving one back.
-/

namespace Genaryx.Replay

open Base Base.Transition

namespace World

variable (w : World)

/-- How many requests hold a slot. -/
def slotHolders : Nat := w.threads.countP Pc.holdsSlot

def thread (i : Nat) : Option Pc := w.threads[i]?

def dirCustody : Custody Holder := custody none Pc.scratch w.thread w.dirs []

def childCustody : Custody Holder := custody none Pc.child w.thread w.children w.strays

end World

/-- The child that a step of a request lets go of: one that could not be asked after. -/
def Pc.leaves (chance : Chance) : Pc → Option Nat
  | .wait _ _ child =>
      match chance.wait with
      | .failed _ => some child
      | _ => none
  | _ => none

/-- The child that an action lets go of. -/
def Action.leaves (w : World) : Action → Option Nat
  | .advance i chance => (w.thread i).bind (Pc.leaves chance)
  | .unwind i _ => (w.thread i).bind Pc.child
  | .request _ | .exitChild _ => none

variable {w v : World} {i : Nat} {pc next : Pc} {chance : Chance} {message : Text} {a : Action}

/-! ## What one step does -/

/-- What a request does to the slots. -/
inductive SlotMove (w v : World) (pc next : Pc) : Prop
  | keep (hslots : v.slots = w.slots) (hholds : next.holdsSlot = pc.holdsSlot)
  | take (hslots : w.slots.tryAcquire = some v.slots) (hpc : pc.holdsSlot = false)
      (hnext : next.holdsSlot = true)
  | give (hslots : v.slots = w.slots.release) (hpc : pc.holdsSlot = true)
      (hnext : next.holdsSlot = false)

/-- What a step of one request does: the other requests stay where they are, and what is made and
ended is in custody. -/
structure PcStep (w v : World) (i : Nat) (pc next : Pc) (left : Option Nat) : Prop where
  threads : v.threads = w.threads
  slots : SlotMove w v pc next
  strays : v.strays = left.toList ++ w.strays
  dirs : Custody.Moves w.dirCustody
    (custody none Pc.scratch (Function.update w.thread i (some next)) v.dirs [])
  children : Custody.Moves w.childCustody
    (custody none Pc.child (Function.update w.thread i (some next)) v.children v.strays)

/-- A request goes on with what it had. -/
theorem PcStep.quiet (hpc : w.thread i = some pc)
    (hholds : next.holdsSlot = pc.holdsSlot := by rfl)
    (hscratch : next.scratch = pc.scratch := by rfl) (hchild : next.child = pc.child := by rfl) :
    PcStep w w i pc next none :=
  ⟨rfl, .keep rfl hholds, rfl, moves_same hpc hscratch, moves_same hpc hchild⟩

theorem pcStep_of_advancePc (hpc : w.thread i = some pc)
    (h : advancePc w chance pc = some (v, next)) : PcStep w v i pc next (pc.leaves chance) := by
  cases pc with
  | check request =>
      rw [advancePc] at h
      split at h <;> cases h <;> exact .quiet hpc
  | acquire plan =>
      rw [advancePc] at h
      split at h
      next => cases h; exact .quiet hpc
      next slots hslots =>
          cases h
          exact ⟨rfl, .take hslots rfl rfl, rfl, moves_same hpc rfl, moves_same hpc rfl⟩
  | makeScratch plan =>
      rw [advancePc] at h
      split at h <;> cases h
      · exact .quiet hpc
      · exact ⟨rfl, .keep rfl rfl, rfl, moves_make hpc rfl rfl, moves_same hpc rfl⟩
  | prepare plan dir =>
      rw [advancePc] at h
      split at h <;> cases h <;> exact .quiet hpc
  | spawn dir stage =>
      rw [advancePc] at h
      split at h <;> cases h
      · exact .quiet hpc
      · exact ⟨rfl, .keep rfl rfl, rfl, moves_same hpc rfl, moves_make hpc rfl rfl⟩
  | wait dir stage child =>
      rw [advancePc] at h
      split at h
      next done hwait =>
          rw [Pc.leaves, hwait]
          split at h
          · cases h
          · dsimp only at h
            split at h <;> cases h <;>
              exact ⟨rfl, .keep rfl rfl, rfl, moves_same hpc rfl, moves_finish hpc rfl⟩
      next expired hwait =>
          rw [Pc.leaves, hwait]
          split at h
          · cases h
          · split at h <;> cases h
            · exact ⟨rfl, .keep rfl rfl, rfl, moves_same hpc rfl, moves_finish hpc rfl⟩
            · exact .quiet hpc
      next message hwait =>
          rw [Pc.leaves, hwait]
          cases h
          exact ⟨rfl, .keep rfl rfl, rfl, moves_same hpc rfl, moves_forget hpc rfl⟩
  | removeScratch dir answer =>
      cases h
      exact ⟨rfl, .keep rfl rfl, rfl, moves_finish hpc rfl, moves_same hpc rfl⟩
  | release answer =>
      cases h
      exact ⟨rfl, .give rfl rfl rfl, rfl, moves_same hpc rfl, moves_same hpc rfl⟩
  | answered answer => cases h

theorem pcStep_of_unwindPc (hpc : w.thread i = some pc)
    (h : unwindPc w message pc = some (v, next)) : PcStep w v i pc next pc.child := by
  cases pc with
  | check request | acquire plan | makeScratch plan | prepare plan dir | spawn dir stage =>
      cases h
      exact .quiet hpc
  | wait dir stage child =>
      cases h
      exact ⟨rfl, .keep rfl rfl, rfl, moves_same hpc rfl, moves_forget hpc rfl⟩
  | removeScratch dir answer | release answer | answered answer => cases h

/-! ## What every step keeps -/

/-- The count is that of the requests with a slot, and within the limit. -/
structure Counted (w : World) : Prop where
  count : w.slots.inUse.toNat = w.slotHolders
  limit : w.slots.inUse ≤ w.slots.limit

/-- What is kept in every state. -/
structure Bounded (w : World) : Prop where
  counted : Counted w
  dirs : w.dirCustody.Sound
  children : w.childCustody.Sound

theorem thread_setPc (hpc : w.thread i = some pc) (next : Pc) :
    (w.setPc i next).thread = Function.update w.thread i (some next) := by
  obtain ⟨hi, -⟩ := List.getElem?_eq_some_iff.mp hpc
  funext j
  change (w.threads.set i next)[j]? = _
  by_cases hj : j = i
  · rw [hj, Function.update_self, List.getElem?_set_self hi]
  · rw [Function.update_of_ne hj, List.getElem?_set_ne (Ne.symm hj)]
    rfl

/-- The holders of slots, when one request has gone on. -/
theorem slotHolders_setPc (hpc : w.thread i = some pc) (next : Pc) :
    (w.setPc i next).slotHolders + pc.holdsSlot.toNat =
      w.slotHolders + next.holdsSlot.toNat := by
  obtain ⟨hi, hget⟩ := List.getElem?_eq_some_iff.mp hpc
  change (w.threads.set i next).countP Pc.holdsSlot + _ = w.threads.countP Pc.holdsSlot + _
  have hpos : pc.holdsSlot = true → 0 < w.threads.countP Pc.holdsSlot := fun h =>
    List.countP_pos_iff.mpr ⟨pc, hget ▸ List.getElem_mem hi, h⟩
  rw [List.countP_set hi, hget]
  cases hholds : pc.holdsSlot with
  | false => cases next.holdsSlot <;> simp
  | true =>
      have hone := hpos hholds
      cases next.holdsSlot <;> simp <;> omega

theorem tryAcquire_eq_some {s t : Slots} (h : s.tryAcquire = some t) :
    s.inUse < s.limit ∧ t.limit = s.limit ∧ t.inUse = s.inUse + 1 := by
  rw [Slots.tryAcquire] at h
  split at h
  · next hfree => exact Option.some.inj h ▸ ⟨hfree, rfl, rfl⟩
  · cases h

theorem slots_limit (hmove : SlotMove w v pc next) : v.slots.limit = w.slots.limit := by
  cases hmove with
  | keep hslots => rw [hslots]
  | take hslots => exact (tryAcquire_eq_some hslots).2.1
  | give hslots => rw [hslots, Slots.release]

/-- A slot that is taken is within the limit, and one that is given back was counted. -/
theorem Counted.setPc (hw : Counted w) (hpc : w.thread i = some pc) (hthreads : v.threads = w.threads)
    (hmove : SlotMove w v pc next) : Counted (v.setPc i next) := by
  have hholders : (v.setPc i next).slotHolders = (w.setPc i next).slotHolders := by
    rw [World.slotHolders, World.slotHolders, World.setPc, World.setPc, hthreads]
  have hset := slotHolders_setPc hpc next
  have hcount := hw.count
  have hlimit : w.slots.inUse.toNat ≤ w.slots.limit.toNat := UInt64.le_iff_toNat_le.mp hw.limit
  have hbound := w.slots.limit.toNat_lt
  have hpos : pc.holdsSlot = true → 0 < w.slotHolders := by
    intro h
    obtain ⟨hi, hget⟩ := List.getElem?_eq_some_iff.mp hpc
    exact List.countP_pos_iff.mpr ⟨pc, hget ▸ List.getElem_mem hi, h⟩
  cases hmove with
  | keep hslots hholds =>
      rw [hholds] at hset
      refine ⟨?_, ?_⟩
      · change v.slots.inUse.toNat = _
        rw [hslots, hholders]
        omega
      · change v.slots.inUse ≤ v.slots.limit
        rw [hslots]
        exact hw.limit
  | take hslots hno hyes =>
      rw [hno, hyes] at hset
      obtain ⟨hfree, hvlimit, hvcount⟩ := tryAcquire_eq_some hslots
      have hlt : w.slots.inUse.toNat < w.slots.limit.toNat := UInt64.lt_iff_toNat_lt.mp hfree
      have hadd : (w.slots.inUse + 1).toNat = w.slots.inUse.toNat + 1 := by
        rw [UInt64.toNat_add]
        exact Nat.mod_eq_of_lt (by rw [UInt64.toNat_one]; omega)
      refine ⟨?_, ?_⟩
      · change v.slots.inUse.toNat = _
        rw [hvcount, hholders]
        simp only [Bool.toNat_false, Bool.toNat_true] at hset
        omega
      · change v.slots.inUse ≤ v.slots.limit
        rw [hvcount, hvlimit, UInt64.le_iff_toNat_le]
        omega
  | give hslots hyes hno =>
      have hone := hpos hyes
      rw [hno, hyes] at hset
      have hle : (1 : UInt64) ≤ w.slots.inUse := by
        rw [UInt64.le_iff_toNat_le, UInt64.toNat_one]
        omega
      have hsub : (w.slots.inUse - 1).toNat = w.slots.inUse.toNat - 1 := by
        rw [UInt64.toNat_sub_of_le _ _ hle, UInt64.toNat_one]
      refine ⟨?_, ?_⟩
      · change v.slots.inUse.toNat = _
        rw [hslots, hholders]
        change (w.slots.inUse - 1).toNat = _
        simp only [Bool.toNat_false, Bool.toNat_true] at hset
        omega
      · change v.slots.inUse ≤ v.slots.limit
        rw [hslots]
        change w.slots.inUse - 1 ≤ w.slots.limit
        rw [UInt64.le_iff_toNat_le]
        omega

theorem Bounded.setPc {left : Option Nat} (hw : Bounded w) (hpc : w.thread i = some pc)
    (hstep : PcStep w v i pc next left) : Bounded (v.setPc i next) := by
  have hv : v.thread i = some pc := by
    rw [World.thread, hstep.threads]
    exact hpc
  have hthread : (v.setPc i next).thread = Function.update w.thread i (some next) := by
    rw [thread_setPc hv]
    congr 1
    funext j
    rw [World.thread, World.thread, hstep.threads]
  refine ⟨hw.counted.setPc hpc hstep.threads hstep.slots, ?_, ?_⟩
  · rw [World.dirCustody, hthread]
    exact hw.dirs.moves hstep.dirs
  · rw [World.childCustody, hthread]
    exact hw.children.moves hstep.children

/-- What one action does: the limit stays, and what is let go of is on record. -/
structure Held (w v : World) (left : Option Nat) : Prop where
  bounded : Bounded v
  limit : v.slots.limit = w.slots.limit
  strays : v.strays = left.toList ++ w.strays

theorem held_step (hw : Bounded w) (h : step w a = some v) : Held w v (a.leaves w) := by
  cases a with
  | request request =>
      cases h
      have hthread : World.thread { w with threads := w.threads ++ [.check request] } =
          Function.update w.thread w.threads.length (some (.check request)) := by
        funext j
        change (w.threads ++ [.check request])[j]? = _
        by_cases hj : j = w.threads.length
        · rw [hj, Function.update_self, List.getElem?_concat_length]
        · rw [Function.update_of_ne hj, List.getElem?_append]
          split
          · rfl
          · next hlt =>
              rw [List.getElem?_eq_none (by simp; omega), World.thread,
                List.getElem?_eq_none (by omega)]
      have hfree : w.thread w.threads.length = none := List.getElem?_eq_none (le_refl _)
      refine ⟨⟨⟨?_, hw.counted.limit⟩, ?_, ?_⟩, rfl, rfl⟩
      · change w.slots.inUse.toNat = (w.threads ++ [Pc.check request]).countP Pc.holdsSlot
        rw [List.countP_append]
        exact hw.counted.count
      · rw [World.dirCustody, hthread]
        exact hw.dirs.moves (moves_arrive hfree rfl)
      · rw [World.childCustody, hthread]
        exact hw.children.moves (moves_arrive hfree rfl)
  | advance thread chance =>
      obtain ⟨pc, hpc, hadvance⟩ := Option.bind_eq_some_iff.mp h
      obtain ⟨⟨u, next⟩, hnext, rfl⟩ := Option.map_eq_some_iff.mp hadvance
      have hstep := pcStep_of_advancePc hpc hnext
      have hleaves : (Action.advance thread chance).leaves w = pc.leaves chance := by
        rw [Action.leaves, World.thread, hpc, Option.bind_some]
      rw [hleaves]
      exact ⟨hw.setPc hpc hstep, (slots_limit hstep.slots :), hstep.strays⟩
  | unwind thread message =>
      obtain ⟨pc, hpc, hunwind⟩ := Option.bind_eq_some_iff.mp h
      obtain ⟨⟨u, next⟩, hnext, rfl⟩ := Option.map_eq_some_iff.mp hunwind
      have hstep := pcStep_of_unwindPc hpc hnext
      have hleaves : (Action.unwind thread message).leaves w = pc.child := by
        rw [Action.leaves, World.thread, hpc, Option.bind_some]
      rw [hleaves]
      exact ⟨hw.setPc hpc hstep, (slots_limit hstep.slots :), hstep.strays⟩
  | exitChild child =>
      rw [step] at h
      split at h <;> cases h
      exact ⟨⟨⟨hw.counted.count, hw.counted.limit⟩, hw.dirs, hw.children.vanish child⟩, rfl, rfl⟩

theorem bounded_start (config : ProofConfig) (limit : UInt64) :
    Bounded (World.start config limit) := by
  have hnobody : ∀ (held : Pc → Option Nat) (k : Holder),
      (custody none held (World.start config limit).thread {} []).holds k = none := by
    intro held k
    cases k <;> rfl
  exact ⟨⟨rfl, UInt64.zero_le⟩, .start (hnobody _), .start (hnobody _)⟩

theorem held_of_run {config : ProofConfig} {limit : UInt64} {actions : List Action}
    (h : run step (World.start config limit) actions = some w) :
    Bounded w ∧ w.slots.limit = limit := by
  apply run_invariant (I := fun u => Bounded u ∧ u.slots.limit = limit) _ h
  · exact ⟨bounded_start config limit, rfl⟩
  · intro u a t hu hstep
    have hheld := held_step hu.1 hstep
    exact ⟨hheld.bounded, hheld.limit.trans hu.2⟩

/-! ## Whole runs -/

/-- Whatever is held by places that hold a slot is no more than the slots that are held. -/
theorem card_le_slotHolders {held : Pc → Option Nat} (hslot : ∀ pc, held pc ≠ none → pc.holdsSlot)
    {s : Finset Nat} (hs : ∀ n ∈ s, ∃ i pc, w.thread i = some pc ∧ held pc = some n) :
    s.card ≤ w.slotHolders := by
  have hsub : s ⊆ (w.threads.filterMap held).toFinset := by
    intro n hn
    obtain ⟨i, pc, hpc, hheld⟩ := hs n hn
    rw [List.mem_toFinset, List.mem_filterMap]
    exact ⟨pc, List.mem_of_getElem? hpc, hheld⟩
  calc s.card ≤ (w.threads.filterMap held).toFinset.card := Finset.card_le_card hsub
    _ ≤ (w.threads.filterMap held).length := List.toFinset_card_le _
    _ = w.threads.countP fun pc => (held pc).isSome := List.length_filterMap_eq_countP ..
    _ ≤ w.slotHolders := by
      apply List.countP_mono_left
      intro pc _ hsome
      apply hslot
      intro hnone
      rw [hnone] at hsome
      cases hsome

/-- What a run of requests leaves the console with. -/
structure ProofsBounded (config : ProofConfig) (limit : UInt64) (actions : List Action) (w : World) :
    Prop where
  count : w.slots.inUse.toNat = w.slotHolders
  within : w.slotHolders ≤ limit.toNat
  dirs : ∀ s : Finset Nat, (∀ n ∈ s, w.dirs.live n = true) → s.card ≤ w.slotHolders
  children : ∀ s : Finset Nat, (∀ n ∈ s, w.children.live n = true ∧ n ∉ w.strays) →
    s.card ≤ w.slotHolders
  busy : ∀ i plan chance v, w.thread i = some (.acquire plan) →
    step w (.advance i chance) = some v →
      v.thread i = some (if w.slotHolders = limit.toNat then .answered (.error (.busy limit))
        else .makeScratch plan)
  strays : w.strays = [] ↔
    Along step (fun w a => a.leaves w = none) (World.start config limit) actions
  rest : (∀ pc ∈ w.threads, pc.holdsSlot = false) →
    w.slots.inUse = 0 ∧ (∀ n, w.dirs.live n = false) ∧
      ∀ n, w.children.live n = true → n ∈ w.strays

/-- **However proofs are asked for, no more of them run than there are slots.** A request is told that
all are taken just where all are, and when every request is answered, nothing is left but children
that could not be asked after. -/
theorem proofs_bounded {config : ProofConfig} {limit : UInt64} {actions : List Action}
    (hrun : run step (World.start config limit) actions = some w) :
    ProofsBounded config limit actions w := by
  obtain ⟨hw, hlimit⟩ := held_of_run hrun
  have hcount := hw.counted.count
  have hle : w.slots.inUse.toNat ≤ limit.toNat :=
    hlimit ▸ UInt64.le_iff_toNat_le.mp hw.counted.limit
  have hdir : ∀ n, w.dirs.live n = true → ∃ i pc, w.thread i = some pc ∧ pc.scratch = some n := by
    intro n hn
    rcases hw.dirs.accounted n hn with ⟨holder, hholder⟩ | hstray
    · cases holder with
      | cell => exact nomatch hholder
      | thread i => exact ⟨i, Option.bind_eq_some_iff.mp hholder⟩
    · exact nomatch hstray
  have hchild : ∀ n, w.children.live n = true →
      (∃ i pc, w.thread i = some pc ∧ pc.child = some n) ∨ n ∈ w.strays := by
    intro n hn
    rcases hw.children.accounted n hn with ⟨holder, hholder⟩ | hstray
    · cases holder with
      | cell => exact nomatch hholder
      | thread i => exact .inl ⟨i, Option.bind_eq_some_iff.mp hholder⟩
    · exact .inr hstray
  have hscratch : ∀ pc : Pc, pc.scratch ≠ none → pc.holdsSlot = true := by
    intro pc h
    cases pc with
    | check _ | acquire _ | answered _ => exact absurd rfl h
    | _ => rfl
  have hwaits : ∀ pc : Pc, pc.child ≠ none → pc.holdsSlot = true := by
    intro pc h
    cases pc with
    | wait _ _ _ => rfl
    | _ => exact absurd rfl h
  constructor
  · exact hcount
  · exact hcount ▸ hle
  · intro s hs
    exact card_le_slotHolders hscratch fun n hn => hdir n (hs n hn)
  · intro s hs
    apply card_le_slotHolders hwaits
    intro n hn
    exact (hchild n (hs n hn).1).resolve_right (hs n hn).2
  · intro i plan chance v hpc h
    obtain ⟨pc, hpc', hadvance⟩ := Option.bind_eq_some_iff.mp h
    cases hpc.symm.trans hpc'
    obtain ⟨⟨u, next⟩, hnext, rfl⟩ := Option.map_eq_some_iff.mp hadvance
    have hnow : (u.setPc i next).thread i = some next := by
      have hu : u.thread i = some (.acquire plan) := by
        rw [World.thread, (pcStep_of_advancePc hpc hnext).threads]
        exact hpc
      rw [thread_setPc hu, Function.update_self]
    rw [hnow]
    rw [advancePc] at hnext
    split at hnext
    next hfull =>
        cases hnext
        rw [Slots.tryAcquire] at hfull
        split at hfull
        · cases hfull
        · next hnot =>
            rw [UInt64.lt_iff_toNat_lt, hlimit] at hnot
            rw [if_pos (by omega), hlimit]
    next slots hslots =>
        cases hnext
        have hlt := UInt64.lt_iff_toNat_lt.mp (tryAcquire_eq_some hslots).1
        rw [hlimit] at hlt
        rw [if_neg (by omega)]
  · exact nil_iff_along (fun _ _ _ hu hstep => (held_step hu hstep).bounded)
      (fun _ _ _ hu hstep => (held_step hu hstep).strays) hrun (bounded_start config limit) rfl
  · intro hrest
    have hnone : w.slotHolders = 0 :=
      List.countP_eq_zero.mpr fun pc hpc => by rw [hrest pc hpc]; exact Bool.false_ne_true
    have hfree : ∀ i pc, w.thread i = some pc → pc.holdsSlot = false := fun i pc hpc =>
      hrest pc (List.mem_of_getElem? hpc)
    refine ⟨UInt64.toNat_inj.mp (hcount.trans hnone), ?_, ?_⟩
    · intro n
      by_contra hlive
      obtain ⟨i, pc, hpc, hheld⟩ := hdir n (Bool.eq_true_of_not_eq_false hlive)
      have hholds := hscratch pc (by rw [hheld]; exact Option.some_ne_none n)
      rw [hfree i pc hpc] at hholds
      cases hholds
    · intro n hlive
      refine (hchild n hlive).resolve_left ?_
      rintro ⟨i, pc, hpc, hheld⟩
      have hholds := hwaits pc (by rw [hheld]; exact Option.some_ne_none n)
      rw [hfree i pc hpc] at hholds
      cases hholds

section Sample

def sampleConfig : ProofConfig where
  wardryxBin := []
  archive := some []
  events := some []
  tokenfuseBin := []
  traceDir := none
  seconds := 30

/-- The store has one incident, of the run `run-1`. -/
def sampleStore : Lookup := fun incidentId =>
  if incidentId = "bus:1" then .ok (some "run-1") else .error "no such incident"

def sampleChance : Chance := { store := sampleStore }

/-- Three requests at once, each of which is checked and then asks for a slot. -/
def threeRequests : List Action :=
  List.replicate 3 (.request (.policy "bus:1" "rules: []")) ++
    [.advance 0 sampleChance, .advance 1 sampleChance, .advance 2 sampleChance,
      .advance 0 sampleChance, .advance 1 sampleChance]

end Sample

/-- With two slots, the third of three requests is told that they are taken. -/
theorem proofs_bounded_threeRequests : ∃ w v,
    run step (World.start sampleConfig maxConcurrentProofs) threeRequests = some w ∧
      w.slotHolders = 2 ∧ step w (.advance 2 sampleChance) = some v ∧
      v.thread 2 = some (.answered (.error (.busy 2))) := by
  obtain ⟨w, plan, v, hrun, hholders, hpc, hstep⟩ : ∃ w plan v,
      run step (World.start sampleConfig maxConcurrentProofs) threeRequests = some w ∧
        w.slotHolders = 2 ∧ w.thread 2 = some (.acquire plan) ∧
        step w (.advance 2 sampleChance) = some v := ⟨_, _, _, rfl, rfl, rfl, rfl⟩
  have hbusy := (proofs_bounded hrun).busy 2 plan sampleChance v hpc hstep
  rw [if_pos (hholders.trans (by decide))] at hbusy
  exact ⟨w, v, hrun, hholders, hstep, hbusy⟩

end Genaryx.Replay
