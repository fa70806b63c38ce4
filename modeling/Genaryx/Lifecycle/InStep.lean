import Genaryx.Base.Transition
import Genaryx.Lifecycle.Dispatch
import Genaryx.Lifecycle.Members

/-!
# The console's sets and wardryx in step

The sets that a console keeps and the sets that a restart would rebuild from wardryx are the
same ones as long as no command leaves another entity without its last policy, or fails
after it changed whether its own entity has one.
-/

namespace Genaryx.Lifecycle

open Base

/-- Some stored policy, not counting those under the given ids, blocks the entity. -/
def names (w : Wardryx) (ids : List Text) (entity : Text × Text) : Bool :=
  w.entries.any fun record => record.1 ∉ ids && entityOf record.1 record.2 = some entity

/-- The ids that an unblock deletes: those under the prefix that wardryx accepts to delete,
up to the first refusal that is not a 404. -/
def deletedIds (plan : Plan) (pre : Text) : Nat → List Text → List Text
  | _, [] => []
  | sent, id :: rest =>
      if Text.startsWith id pre then
        match plan sent with
        | none => id :: deletedIds plan pre (sent + 1) rest
        | some (.api 404 _) => deletedIds plan pre (sent + 1) rest
        | some _ => []
      else deletedIds plan pre sent rest

/-- No delete of an unblock is refused with anything else than a 404. -/
def deletesAll (plan : Plan) (pre : Text) : Nat → List Text → Bool
  | _, [] => true
  | sent, id :: rest =>
      if Text.startsWith id pre then
        match plan sent with
        | none => deletesAll plan pre (sent + 1) rest
        | some (.api 404 _) => deletesAll plan pre (sent + 1) rest
        | some _ => false
      else deletesAll plan pre sent rest

namespace BlockCommand

/-- The ids whose policies a command writes or deletes. -/
def touchedIds (c : BlockCommand) (plan : Plan) (w : Wardryx) : List Text :=
  if c.blocked then (acceptedMembers plan 0 c.members).map (policyId c.kind c.key)
  else if (plan 0).isSome then []
  else deletedIds plan (blockPrefix c.kind c.key) 1 w.keys

/-- Wardryx accepts everything that a command asks of it. -/
def accepted (c : BlockCommand) (plan : Plan) (w : Wardryx) : Bool :=
  if c.blocked then !c.members.isEmpty && acceptedMembers plan 0 c.members = c.members
  else (plan 0).isNone && deletesAll plan (blockPrefix c.kind c.key) 1 w.keys

end BlockCommand

namespace Box

/-- A console that was just started. -/
def start (w : Wardryx) : Box := ⟨rehydrated w, w⟩

def step (box : Box) (call : BlockCommand × Plan) : Option Box :=
  some (call.1.run call.2 box).2

/-- The console's sets are the ones a restart would rebuild. -/
def InStep (box : Box) : Prop :=
  (rehydrated box.wardryx).frozenAgents = box.lifecycle.frozenAgents ∧
    (rehydrated box.wardryx).stoppedUnits = box.lifecycle.stoppedUnits ∧
      (rehydrated box.wardryx).stoppedUsers = box.lifecycle.stoppedUsers

/-- Every other entity with a policy keeps one that the command does not touch. -/
def othersKept (box : Box) (call : BlockCommand × Plan) : Bool :=
  box.wardryx.entries.all fun record =>
    match entityOf record.1 record.2 with
    | none => true
    | some entity => entity = (call.1.kind, call.1.key) ||
        names box.wardryx (call.1.touchedIds call.2 box.wardryx) entity

/-- The command's own entity has a policy afterwards exactly when the console says so: a
block is accepted and names somebody, writes nothing or renews a block, and an unblock
deletes every policy of the entity or leaves one of them when it fails. -/
def ownKept (box : Box) (call : BlockCommand × Plan) : Bool :=
  let w := box.wardryx
  let ids := call.1.touchedIds call.2 w
  let own := (call.1.kind, call.1.key)
  if call.1.blocked then
    ids.isEmpty || (!call.1.key.isEmpty && (call.1.accepted call.2 w || names w [] own))
  else if call.1.accepted call.2 w then !names w ids own
  else !names w [] own || names w ids own

def keepsInStep (box : Box) (call : BlockCommand × Plan) : Bool :=
  box.othersKept call && box.ownKept call

end Box

theorem names_iff {w : Wardryx} {ids : List Text} {entity : Text × Text} :
    names w ids entity = true ↔
      ∃ id policy, w.lookup id = some policy ∧ id ∉ ids ∧ entityOf id policy = some entity := by
  simp only [names, List.any_eq_true, Bool.and_eq_true, decide_eq_true_eq]
  constructor
  · rintro ⟨⟨id, policy⟩, hmem, hid, hentity⟩
    exact ⟨id, policy, AList.mem_lookup_iff.mpr hmem, hid, hentity⟩
  · rintro ⟨id, policy, hlookup, hid, hentity⟩
    exact ⟨⟨id, policy⟩, AList.mem_lookup_iff.mp hlookup, hid, hentity⟩

namespace LifecycleStore

theorem setOf_modifySet {kind kind' : Text} (hkind : kind ∈ rehydratedKinds)
    (hkind' : kind' ∈ rehydratedKinds) (f : Finset Text → Finset Text)
    (store : LifecycleStore) : (store.modifySet kind f).setOf kind' =
      if kind' = kind then f (store.setOf kind) else store.setOf kind' := by
  have hunit : "unit".toList ≠ "agent".toList := by decide
  have huser : "user".toList ≠ "agent".toList ∧ "user".toList ≠ "unit".toList := by decide
  simp only [rehydratedKinds, List.mem_cons, List.not_mem_nil, or_false] at hkind hkind'
  rw [modifySet, setOf, setOf, setOf]
  -- only that the three names differ counts from here on
  generalize "agent".toList = agent, "unit".toList = unit, "user".toList = user at *
  rcases hkind with rfl | rfl | rfl <;> rcases hkind' with rfl | rfl | rfl <;>
    simp only [hunit, huser.1, huser.2, hunit.symm, huser.1.symm, huser.2.symm, if_true, if_false]

end LifecycleStore

theorem fst_mem_of_entityOf {id : Text} {policy : Policy} {entity : Text × Text}
    (h : entityOf id policy = some entity) : entity.1 ∈ rehydratedKinds := by
  rw [entityOf] at h
  split at h
  · exact of_decide_eq_true (Option.filter_eq_some_iff.mp h).2
  · cases h

/-- A restart rebuilds exactly the entities that some policy blocks. -/
theorem mem_setOf_rehydrated {w : Wardryx} {kind key : Text} (hkind : kind ∈ rehydratedKinds) :
    key ∈ (rehydrated w).setOf kind ↔ names w [] (kind, key) = true := by
  have hread : ∀ (records : List (Sigma fun _ : Text => Policy)) (store : LifecycleStore),
      key ∈ (records.foldl rehydrateRecord store).setOf kind ↔
        key ∈ store.setOf kind ∨
          ∃ record ∈ records, entityOf record.1 record.2 = some (kind, key) := by
    intro records
    induction records with
    | nil => simp
    | cons record rest ih =>
        intro store
        rw [List.foldl_cons, ih, List.exists_mem_cons_iff, ← or_assoc, rehydrateRecord]
        refine or_congr_left ?_
        cases hentity : entityOf record.1 record.2 with
        | none => simp
        | some entity =>
            rw [LifecycleStore.setOf_modifySet (fst_mem_of_entityOf hentity) hkind]
            obtain ⟨kind', key'⟩ := entity
            by_cases hsame : kind = kind'
            · subst hsame
              simp [or_comm, eq_comm]
            · simp [hsame, Ne.symm hsame]
  rw [rehydrated, hread, names]
  have hempty : key ∉ ({} : LifecycleStore).setOf kind := by
    simp [LifecycleStore.setOf]
  simp [hempty]

theorem Box.inStep_iff {box : Box} : box.InStep ↔ ∀ kind ∈ rehydratedKinds, ∀ key,
    (key ∈ box.lifecycle.setOf kind ↔ names box.wardryx [] (kind, key) = true) := by
  have hsets : box.InStep ↔ ∀ kind ∈ rehydratedKinds,
      (rehydrated box.wardryx).setOf kind = box.lifecycle.setOf kind := by
    have hunit : "unit".toList ≠ "agent".toList := by decide
    have huser : "user".toList ≠ "agent".toList ∧ "user".toList ≠ "unit".toList := by decide
    simp only [InStep, rehydratedKinds, List.forall_mem_cons, List.not_mem_nil,
      false_imp_iff, implies_true, and_true, LifecycleStore.setOf, hunit, huser.1, huser.2,
      if_true, if_false]
  rw [hsets]
  refine forall₂_congr fun kind hkind => ?_
  rw [Finset.ext_iff]
  refine forall_congr' fun key => ?_
  rw [mem_setOf_rehydrated hkind]
  exact iff_comm

/-- What an entity blocks is what its policies are named after. -/
theorem entityOf_memberPolicy {kind : Text} (key agent : Text) (hkind : kind ∈ rehydratedKinds) :
    entityOf (memberPolicy kind key agent).1 (memberPolicy kind key agent).2 =
      if key = [] then none else some (kind, key) := by
  have hclean : ∀ kind ∈ rehydratedKinds, kind ≠ [] ∧ ':' ∉ kind := by decide
  obtain ⟨hne, hcolon⟩ := hclean kind hkind
  have hid : idPrefix <+: policyId kind key agent := by
    refine List.IsPrefix.trans ?_ (blockPrefix_prefix_policyId kind key agent)
    rw [blockPrefix, List.append_assoc]
    exact List.prefix_append _ _
  rw [entityOf, memberPolicy, if_pos ((Text.startsWith_iff _ _).mpr hid), denyAllPolicy]
  by_cases hkey : key = []
  · subst hkey
    have hempty : (kind.isEmpty || ([] : Text).isEmpty) = true := by simp
    rw [if_pos rfl, parseBlockName, blockName, List.append_assoc, Text.stripPrefix_append]
    simp only [Text.splitOnce_append ':' kind [] hcolon, hempty, if_true, Option.filter_none]
  · rw [if_neg hkey, parseBlockName_blockName kind key hne hkey hcolon, Option.filter_some,
      if_pos (decide_eq_true hkind)]

/-- After a block an entity has a policy if it had one that was not written over, or if it is
the one that was blocked. -/
theorem names_writeAll {kind key : Text} (hkind : kind ∈ rehydratedKinds) (agents : List Text)
    (w : Wardryx) (entity : Text × Text) :
    names (Writes.writeAll (agents.map (memberPolicy kind key)) w) [] entity = true ↔
      names w (agents.map (policyId kind key)) entity = true ∨
        agents ≠ [] ∧ key ≠ [] ∧ entity = (kind, key) := by
  have hkeys : (agents.map (memberPolicy kind key)).map Prod.fst =
      agents.map (policyId kind key) := by
    rw [List.map_map]
    rfl
  have hwrite : ∀ {id policy},
      Writes.lastWrite (agents.map (memberPolicy kind key)) id = some policy →
        entityOf id policy = if key = [] then none else some (kind, key) := by
    intro id policy h
    obtain ⟨agent, _, heq⟩ := List.mem_map.mp (Writes.mem_of_lastWrite h)
    have hentity := entityOf_memberPolicy key agent hkind
    rwa [heq] at hentity
  simp only [names_iff, Writes.lookup_writeAll, List.not_mem_nil, not_false_eq_true, true_and]
  constructor
  · rintro ⟨id, policy, hlookup, hentity⟩
    cases hlast : Writes.lastWrite (agents.map (memberPolicy kind key)) id with
    | none =>
        rw [hlast, Option.none_or] at hlookup
        exact Or.inl ⟨id, policy, hlookup, hkeys ▸ Writes.lastWrite_eq_none_iff.mp hlast, hentity⟩
    | some written =>
        rw [hlast, Option.some_or] at hlookup
        cases hlookup
        rw [hwrite hlast] at hentity
        by_cases hkey : key = []
        · rw [if_pos hkey] at hentity
          cases hentity
        · rw [if_neg hkey] at hentity
          refine Or.inr ⟨?_, hkey, (Option.some.inj hentity).symm⟩
          rintro rfl
          cases hlast
  · rintro (⟨id, policy, hlookup, hid, hentity⟩ | ⟨hagents, hkey, rfl⟩)
    · refine ⟨id, policy, ?_, hentity⟩
      rw [Writes.lastWrite_eq_none_iff.mpr (hkeys.symm ▸ hid), Option.none_or]
      exact hlookup
    · obtain ⟨agent, rest, rfl⟩ := List.exists_cons_of_ne_nil hagents
      have hmem : policyId kind key agent ∈
          ((agent :: rest).map (memberPolicy kind key)).map Prod.fst := by
        rw [hkeys]
        exact List.mem_cons_self
      obtain ⟨policy, hpolicy⟩ := Option.ne_none_iff_exists'.mp
        (mt Writes.lastWrite_eq_none_iff.mp (not_not_intro hmem))
      exact ⟨_, policy, by rw [hpolicy, Option.some_or], by rw [hwrite hpolicy, if_neg hkey]⟩

/-- The delete loop deletes what it does not meet a refusal at, and ends without an error when
every refusal is a 404. -/
theorem removePolicies_eq (plan : Plan) (pre : Text) (sent removed : Nat) (ids : List Text)
    (w : Wardryx) (hids : ∀ id ∈ ids, id ∈ w) (hnodup : ids.Nodup) :
    (∀ id, (removePolicies plan pre sent removed ids w).2.lookup id =
      if id ∈ deletedIds plan pre sent ids then none else w.lookup id) ∧
      ((∃ n, (removePolicies plan pre sent removed ids w).1 = .ok n) ↔
        deletesAll plan pre sent ids = true) := by
  induction ids generalizing sent removed w with
  | nil => exact ⟨fun id => by simp [removePolicies, deletedIds], by simp [removePolicies, deletesAll]⟩
  | cons listed rest ih =>
      obtain ⟨hlisted, hrest⟩ := List.forall_mem_cons.mp hids
      obtain ⟨hfresh, hnodup⟩ := List.nodup_cons.mp hnodup
      rw [removePolicies, deletedIds, deletesAll]
      by_cases hpre : Text.startsWith listed pre = true
      · simp only [hpre, if_true, deletePolicy]
        cases hplan : plan sent with
        | none =>
            have hkept : ∀ id ∈ rest, id ∈ w.erase listed := fun id hid =>
              AList.mem_erase.mpr ⟨fun heq => hfresh (heq ▸ hid), hrest id hid⟩
            obtain ⟨hlookup, hok⟩ := ih (sent + 1) (removed + 1) (w.erase listed) hkept hnodup
            simp only [hlisted, if_true]
            refine ⟨fun id => ?_, hok⟩
            rw [hlookup]
            simp only [List.mem_cons]
            by_cases hid : id = listed
            · subst hid
              simp [AList.lookup_erase]
            · simp [hid, AList.lookup_erase_ne hid]
        | some e =>
            cases e with
            | api status body =>
                by_cases hstatus : status = 404
                · subst hstatus
                  exact ih (sent + 1) removed w hrest hnodup
                · simp [hstatus]
            | other message => simp
      · simp only [hpre]
        exact ih sent removed w hrest hnodup

namespace BlockCommand

variable (c : BlockCommand) (plan : Plan) (box : Box)

theorem kind_mem : c.kind ∈ rehydratedKinds := by
  cases c <;> simp [kind, rehydratedKinds]

theorem setOf_cacheOwners (store : LifecycleStore) (kind : Text) :
    (c.cacheOwners store).setOf kind = store.setOf kind := by
  cases c <;> rfl

/-- What a command asks of wardryx. -/
def enforce (w : Wardryx) : Except Text Nat × Wardryx :=
  if c.blocked then block plan c.kind c.key c.members w else unblock plan c.kind c.key w

theorem enforce_ok_iff (w : Wardryx) :
    (∃ n, (c.enforce plan w).1 = .ok n) ↔ c.accepted plan w = true := by
  rw [enforce, accepted]
  cases c.blocked with
  | true => simp [block_ok_iff]
  | false =>
      rw [if_neg Bool.false_ne_true, if_neg Bool.false_ne_true, unblock]
      cases plan 0 with
      | some e => simp
      | none =>
          simpa using (removePolicies_eq plan (blockPrefix c.kind c.key) 1 0 w.keys w
            (fun id hid => hid) w.nodupKeys).2

/-- After a command an entity has a policy if it had one that was not touched, or if the
command blocked it. -/
theorem names_enforce (w : Wardryx) (entity : Text × Text) :
    names (c.enforce plan w).2 [] entity = true ↔
      names w (c.touchedIds plan w) entity = true ∨
        c.blocked = true ∧ c.touchedIds plan w ≠ [] ∧ c.key ≠ [] ∧
          entity = (c.kind, c.key) := by
  rw [enforce, touchedIds]
  cases c.blocked with
  | true =>
      rw [if_pos rfl, if_pos rfl, block_snd, names_writeAll c.kind_mem]
      simp
  | false =>
      rw [if_neg Bool.false_ne_true, if_neg Bool.false_ne_true, unblock]
      simp only [Bool.false_eq_true, false_and, or_false]
      cases plan 0 with
      | some e => rfl
      | none =>
          have hlookup := (removePolicies_eq plan (blockPrefix c.kind c.key) 1 0 w.keys w
            (fun id hid => hid) w.nodupKeys).1
          simp only [names_iff, hlookup, Option.isSome_none, Bool.false_eq_true, if_false,
            List.not_mem_nil, not_false_eq_true, true_and]
          refine exists₂_congr fun id policy => ?_
          by_cases hid : id ∈ deletedIds plan (blockPrefix c.kind c.key) 1 w.keys <;> simp [hid]

theorem run_wardryx : (c.run plan box).2.wardryx = (c.enforce plan box.wardryx).2 := by
  rw [run, applyBlock, enforce]
  split <;> next h => rw [h]

/-- The console's sets change only when the command was accepted, and then only for its
entity. -/
theorem mem_setOf_run {kind : Text} (hkind : kind ∈ rehydratedKinds) (key : Text) :
    key ∈ (c.run plan box).2.lifecycle.setOf kind ↔
      if c.accepted plan box.wardryx = true ∧ (kind, key) = (c.kind, c.key) then
        c.blocked = true
      else key ∈ box.lifecycle.setOf kind := by
  have hok := c.enforce_ok_iff plan box.wardryx
  rw [enforce] at hok
  rw [run, applyBlock]
  split
  · next e w h =>
      rw [h] at hok
      have hnot : ¬ c.accepted plan box.wardryx = true := fun hacc => by
        obtain ⟨n, hn⟩ := hok.mpr hacc
        cases hn
      rw [if_neg fun h => hnot h.1, setOf_cacheOwners]
  · next n w h =>
      rw [h] at hok
      have hacc := hok.mp ⟨n, rfl⟩
      rw [LifecycleStore.setOf_modifySet c.kind_mem hkind, setOf_cacheOwners, setOf_cacheOwners]
      by_cases hsame : kind = c.kind
      · subst hsame
        by_cases hkey : key = c.key
        · subst hkey
          cases c.blocked <;> simp [hacc]
        · cases c.blocked <;> simp [hacc, hkey]
      · simp [hsame]

end BlockCommand

theorem names_of_names {w : Wardryx} {ids : List Text} {entity : Text × Text}
    (h : names w ids entity = true) : names w [] entity = true := by
  obtain ⟨id, policy, hlookup, _, hentity⟩ := names_iff.mp h
  exact names_iff.mpr ⟨id, policy, hlookup, List.not_mem_nil, hentity⟩

/-- Where the others are kept, an entity with a policy has one that is not touched. -/
theorem Box.names_touchedIds_iff {box : Box} {c : BlockCommand} {plan : Plan}
    (h : box.othersKept (c, plan) = true) {entity : Text × Text}
    (hother : entity ≠ (c.kind, c.key)) :
    names box.wardryx (c.touchedIds plan box.wardryx) entity = true ↔
      names box.wardryx [] entity = true := by
  refine ⟨names_of_names, fun hnames => ?_⟩
  obtain ⟨id, policy, hlookup, _, hentity⟩ := names_iff.mp hnames
  have hrecord := List.all_eq_true.mp h _ (AList.mem_lookup_iff.mp hlookup)
  rw [hentity] at hrecord
  simpa [hother] using hrecord

/-- Where the own entity is kept, it has a policy after the command exactly when the console
says so. -/
theorem Box.own_iff {box : Box} {c : BlockCommand} {plan : Plan}
    (h : box.ownKept (c, plan) = true)
    (hbefore : c.key ∈ box.lifecycle.setOf c.kind ↔
      names box.wardryx [] (c.kind, c.key) = true) :
    (if c.accepted plan box.wardryx = true then c.blocked = true
      else c.key ∈ box.lifecycle.setOf c.kind) ↔
      names box.wardryx (c.touchedIds plan box.wardryx) (c.kind, c.key) = true ∨
        c.blocked = true ∧ c.touchedIds plan box.wardryx ≠ [] ∧ c.key ≠ [] := by
  have hmono : names box.wardryx (c.touchedIds plan box.wardryx) (c.kind, c.key) = true →
      names box.wardryx [] (c.kind, c.key) = true := names_of_names
  simp only [ownKept] at h
  cases hblocked : c.blocked with
  | true =>
      simp only [hblocked, if_true, Bool.or_eq_true, Bool.and_eq_true, List.isEmpty_iff,
        Bool.not_eq_true', List.isEmpty_eq_false_iff] at h
      have hwrites : c.accepted plan box.wardryx = true →
          c.touchedIds plan box.wardryx ≠ [] := by
        intro hacc
        simp only [BlockCommand.accepted, hblocked, if_true, Bool.and_eq_true,
          Bool.not_eq_true', List.isEmpty_eq_false_iff, decide_eq_true_eq] at hacc
        simp only [BlockCommand.touchedIds, hblocked, if_true, hacc.2, ne_eq,
          List.map_eq_nil_iff]
        exact hacc.1
      by_cases hacc : c.accepted plan box.wardryx = true
      · have hids := hwrites hacc
        have hkey := (h.resolve_left hids).1
        simp [hacc, hids, hkey]
      · rw [if_neg hacc, hbefore]
        by_cases hids : c.touchedIds plan box.wardryx = []
        · simp [hids]
        · obtain ⟨hkey, hnames⟩ := h.resolve_left hids
          simp [hids, hkey, hnames.resolve_left hacc]
  | false =>
      simp only [Bool.false_eq_true, false_and, or_false]
      by_cases hacc : c.accepted plan box.wardryx = true
      · simp only [hblocked, Bool.false_eq_true, if_false, hacc, if_true,
          Bool.not_eq_true'] at h
        simp [hacc, h]
      · simp only [hblocked, Bool.false_eq_true, if_false, hacc, Bool.or_eq_true,
          Bool.not_eq_true'] at h
        rw [if_neg hacc, hbefore]
        refine ⟨fun hnames => ?_, hmono⟩
        exact h.resolve_left fun hnone => by rw [hnames] at hnone; cases hnone

/-- A command that keeps the console and wardryx in step leaves them in step. -/
theorem inStep_step (box : Box) (call : BlockCommand × Plan) (box' : Box) (h : box.InStep)
    (hkeeps : box.keepsInStep call = true) (hstep : box.step call = some box') :
    box'.InStep := by
  obtain ⟨c, plan⟩ := call
  cases hstep
  obtain ⟨hothers, hown⟩ := (Bool.and_eq_true _ _).mp hkeeps
  rw [Box.inStep_iff] at h ⊢
  intro kind hkind key
  rw [c.mem_setOf_run plan box hkind, c.run_wardryx, c.names_enforce]
  by_cases hsame : (kind, key) = (c.kind, c.key)
  · obtain ⟨rfl, rfl⟩ := Prod.mk.inj hsame
    simpa using Box.own_iff hown (h c.kind hkind c.key)
  · rw [if_neg fun hacc => hsame hacc.2, h kind hkind key,
      Box.names_touchedIds_iff hothers hsame]
    simp [hsame]

theorem inStep_start (w : Wardryx) : (Box.start w).InStep := ⟨rfl, rfl, rfl⟩

/-- In every run from a start whose commands all keep the console and wardryx in step, the
console's sets are the ones a restart would rebuild. -/
theorem inStep_of_keepsInStep {w : Wardryx} {calls : List (BlockCommand × Plan)} {box : Box}
    (hkeeps : Transition.Along Box.step (fun box call => box.keepsInStep call = true)
      (Box.start w) calls)
    (hrun : Transition.run Box.step (Box.start w) calls = some box) : box.InStep :=
  Transition.run_invariant_along inStep_step hkeeps hrun (inStep_start w)

instance (box : Box) : Decidable box.InStep := by
  unfold Box.InStep
  infer_instance

section Sample

/-- Two agents of one unit. -/
def unitIdentities : List Identity :=
  [⟨"agent://acme/pay/a", "user://acme/d.hayes"⟩, ⟨"agent://acme/pay/b", "d.hayes"⟩]

/-- A wardryx that refuses the `n`-th request of a call. -/
def refusing (n : Nat) : Plan := fun i =>
  if i = n then some (.other "wardryx is down") else none

def stopUnit : BlockCommand := .unitBlock "pay" true (some unitIdentities) none

def startUnit : BlockCommand := .unitBlock "pay" false (some unitIdentities) none

end Sample

theorem inStep_stopped_and_started :
    ∃ box, Transition.run Box.step (Box.start ∅)
        [(stopUnit, accepting), (stopUnit, refusing 1), (startUnit, refusing 2),
          (startUnit, accepting)] = some box ∧ box.InStep := by
  obtain ⟨box, hrun⟩ : ∃ box, Transition.run Box.step (Box.start ∅)
      [(stopUnit, accepting), (stopUnit, refusing 1), (startUnit, refusing 2),
        (startUnit, accepting)] = some box := ⟨_, rfl⟩
  refine ⟨box, hrun, inStep_of_keepsInStep ?_ hrun⟩
  exact Transition.along_of_check (by decide)

/-- A unit block whose second write is refused leaves a deny policy that the console does not
show and a restart does. -/
theorem outOfStep_after_refused_write :
    ¬ ∀ box, Transition.run Box.step (Box.start ∅) [(stopUnit, refusing 1)] = some box →
      box.InStep := by
  intro h
  exact absurd (h _ rfl) (by decide)

end Genaryx.Lifecycle
