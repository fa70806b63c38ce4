import Genaryx.Base.Writes
import Genaryx.Lifecycle.Members
import Mathlib.Data.Char
import Mathlib.Data.Finset.Erase
import Mathlib.Data.Finset.Insert
import Mathlib.Data.List.Lex
import Mathlib.Data.List.Sort

/-!
# The block commands

The console keeps which agents it froze and which units and users it stopped. A block
command resolves its members, enforces in wardryx and then updates these sets, and a start
rebuilds them from the policies.

## Implementation notes

What idryx and the money plane answer is given to the command, `none` being an answer that
did not come. A console without a wardryx environment is one whose first request is refused.
-/

namespace Genaryx.Lifecycle

/-- An identity of idryx, as far as blocks read it. -/
structure Identity where
  id : Text
  owner : Text

structure LifecycleStore where
  frozenAgents : Finset Text := ∅
  stoppedUnits : Finset Text := ∅
  stoppedUsers : Finset Text := ∅
  agentOwners : AList (fun _ : Text => Text) := ∅

/-- The `<team>` segment of an `agent://org/team/name` id. -/
def teamOf (agentId : Text) : Option Text := do
  let rest ← Text.stripPrefix "agent://" agentId
  let afterOrg ← Text.splitOnce '/' rest
  let team ← Text.splitOnce '/' afterOrg.2
  return team.1

/-- The elements of a `BTreeSet`, in order. -/
def btreeSet (xs : List Text) : List Text := xs.dedup.insertionSort (· ≤ ·)

/-- Every agent that idryx knows for a unit, or that the money plane has seen runs for. -/
def agentsInUnit (identities : Option (List Identity)) (runs : Option (List Text))
    (team : Text) : List Text :=
  btreeSet (((identities.getD []).map Identity.id ++ runs.getD []).filter fun agent =>
    teamOf agent = some team)

/-- The text after the last slash. -/
def lastSegment (s : Text) : Text := (s.reverse.takeWhile (· ≠ '/')).reverse

/-- Two owners written as a bare handle or as a URI are compared by their last segment. -/
def ownerMatches (owner user : Text) : Bool :=
  owner = user || lastSegment owner = lastSegment user

/-- The identities that are agents with an owner. -/
def ownedAgents (identities : Option (List Identity)) : List Identity :=
  (identities.getD []).filter fun identity =>
    Text.startsWith identity.id "agent://" && !identity.owner.isEmpty

namespace LifecycleStore

/-- Remember who owns each agent. -/
def cacheOwners (identities : Option (List Identity)) (store : LifecycleStore) :
    LifecycleStore :=
  { store with
    agentOwners := (ownedAgents identities).foldl
      (fun owners identity => owners.insert identity.id identity.owner) store.agentOwners }

/-- The set that a kind's blocks are kept in. -/
def setOf (kind : Text) (store : LifecycleStore) : Finset Text :=
  if kind = "agent".toList then store.frozenAgents
  else if kind = "unit".toList then store.stoppedUnits
  else store.stoppedUsers

/-- Change the set that a kind's blocks are kept in. -/
def modifySet (kind : Text) (f : Finset Text → Finset Text) (store : LifecycleStore) :
    LifecycleStore :=
  if kind = "agent".toList then { store with frozenAgents := f store.frozenAgents }
  else if kind = "unit".toList then { store with stoppedUnits := f store.stoppedUnits }
  else { store with stoppedUsers := f store.stoppedUsers }

/-- The lifecycle badge of an agent, if it is blocked. -/
def stateFor (agentId : Text) (store : LifecycleStore) : Option Text :=
  if agentId ∈ store.frozenAgents then some "frozen".toList
  else if (teamOf agentId).any (· ∈ store.stoppedUnits) then some "stopped".toList
  else if (store.agentOwners.lookup agentId).any (· ∈ store.stoppedUsers) then
    some "stopped".toList
  else none

end LifecycleStore

/-- Every agent that idryx says a user owns. -/
def agentsOfUser (identities : Option (List Identity)) (user : Text) : List Text :=
  btreeSet (((ownedAgents identities).filter fun identity =>
    ownerMatches identity.owner user).map Identity.id)

/-- The kinds whose blocks are kept. -/
def rehydratedKinds : List Text := ["agent", "unit", "user"]

/-- The entity that a policy under an id blocks. -/
def entityOf (id : Text) (policy : Policy) : Option (Text × Text) :=
  if Text.startsWith id idPrefix then
    (parseBlockName policy.name).filter fun entity => entity.1 ∈ rehydratedKinds
  else none

/-- One listed policy of `rehydrate`. -/
def rehydrateRecord (store : LifecycleStore) (record : Sigma fun _ : Text => Policy) :
    LifecycleStore :=
  match entityOf record.1 record.2 with
  | none => store
  | some entity => store.modifySet entity.1 (insert entity.2)

/-- The sets that the listed policies stand for. -/
def rehydrated (w : Wardryx) : LifecycleStore := w.entries.foldl rehydrateRecord {}

/-- Rebuild the store from wardryx. -/
def rehydrate (refusal : Option WardryxError) (w : Wardryx) : Except Text LifecycleStore :=
  match refusal with
  | some e => .error ("wardryx would not list policies: " ++ e.display)
  | none => .ok (rehydrated w)

/-- A completed action as it is journaled on the console's bus. -/
structure ConsoleAction where
  action : Text
  target : Text
  policies : Nat
  members : List Text
  verifyResult : Text

def blockAction (kind : Text) (blocked : Bool) : Text :=
  if kind = "agent".toList then
    if blocked then "console.block_agent" else "console.unblock_agent"
  else if kind = "unit".toList then
    if blocked then "console.block_unit" else "console.unblock_unit"
  else if blocked then "console.block_user" else "console.unblock_user"

/-- What a completed block or unblock puts on the console's bus. -/
def journalBlock (kind key : Text) (blocked : Bool) (affected : Nat) (members : List Text) :
    ConsoleAction where
  action := blockAction kind blocked
  target := key
  policies := affected
  members := members
  verifyResult := "blocked:" ++ (if blocked then "true" else "false").toList

/-- The console's sets and the wardryx they are enforced in. -/
structure Box where
  lifecycle : LifecycleStore
  wardryx : Wardryx

/-- Enforce a block or unblock in wardryx, then record it; the action is what is journaled. -/
def applyBlock (plan : Plan) (kind key : Text) (blocked : Bool) (members : List Text)
    (box : Box) : Except Text ConsoleAction × Box :=
  let enforced := if blocked then block plan kind key members box.wardryx
    else unblock plan kind key box.wardryx
  match enforced with
  | (.error e, w) => (.error e, { box with wardryx := w })
  | (.ok affected, w) =>
      (.ok (journalBlock kind key blocked affected members),
        { lifecycle := box.lifecycle.modifySet kind fun set =>
            if blocked then insert key set else set.erase key
          wardryx := w })

/-- One of the console's three block commands, with what the other planes answer to it. -/
inductive BlockCommand
  | agentBlock (agentId : Text) (blocked : Bool)
  | unitBlock (team : Text) (blocked : Bool) (identities : Option (List Identity))
      (runs : Option (List Text))
  | userBlock (user : Text) (blocked : Bool) (identities : Option (List Identity))

namespace BlockCommand

def kind : BlockCommand → Text
  | agentBlock .. => "agent"
  | unitBlock .. => "unit"
  | userBlock .. => "user"

def key : BlockCommand → Text
  | agentBlock agentId _ => agentId
  | unitBlock team .. => team
  | userBlock user .. => user

def blocked : BlockCommand → Bool
  | agentBlock _ blocked => blocked
  | unitBlock _ blocked .. => blocked
  | userBlock _ blocked _ => blocked

/-- The agents that a command applies to. -/
def members : BlockCommand → List Text
  | agentBlock agentId _ => [agentId]
  | unitBlock team _ identities runs => agentsInUnit identities runs team
  | userBlock user _ identities => agentsOfUser identities user

/-- A user block also remembers the owners it was told. -/
def cacheOwners : BlockCommand → LifecycleStore → LifecycleStore
  | userBlock _ _ identities, store => store.cacheOwners identities
  | _, store => store

/-- Run a block command. -/
def run (c : BlockCommand) (plan : Plan) (box : Box) : Except Text ConsoleAction × Box :=
  applyBlock plan c.kind c.key c.blocked c.members
    { box with lifecycle := c.cacheOwners box.lifecycle }

end BlockCommand

end Genaryx.Lifecycle

/-!
## What a stopped user's agents read

A user block writes policies for the agents whose owner matches the user by its last
segment, and an agent reads stopped when the owner the console knows of it is a stopped user
to the letter.
-/

namespace Genaryx.Lifecycle

open Base

/-- The owner that the console knows of an agent once it has read the identities: the last
one they give, or the one it knew before. -/
def knownOwner (identities : Option (List Identity)) (store : LifecycleStore) (agent : Text) :
    Option Text :=
  (Writes.lastWrite ((ownedAgents identities).map fun i => (i.id, i.owner)) agent).or
    (store.agentOwners.lookup agent)

namespace LifecycleStore

variable (store : LifecycleStore)

/-- An agent is frozen itself, or its unit is stopped. -/
def BlocksItself (agent : Text) : Prop :=
  agent ∈ store.frozenAgents ∨ ∃ team, teamOf agent = some team ∧ team ∈ store.stoppedUnits

/-- An agent reads blocked when it or its unit is, or its known owner is a stopped user. -/
theorem isSome_stateFor_iff (agent : Text) :
    (store.stateFor agent).isSome = true ↔ store.BlocksItself agent ∨
      ∃ owner, store.agentOwners.lookup agent = some owner ∧ owner ∈ store.stoppedUsers := by
  have hany : ∀ (o : Option Text) (s : Finset Text),
      o.any (· ∈ s) = true ↔ ∃ x, o = some x ∧ x ∈ s := by
    intro o s
    cases o <;> simp
  rw [stateFor, BlocksItself, ← hany, ← hany]
  split
  · next h => simp [h]
  · next hfrozen =>
      split
      · next h => simp [h]
      · next hunit =>
          split
          · next h => simp [h]
          · next huser => simp [hfrozen, hunit, huser]

theorem lookup_cacheOwners (identities : Option (List Identity)) (agent : Text) :
    (store.cacheOwners identities).agentOwners.lookup agent =
      knownOwner identities store agent := by
  rw [knownOwner, ← Writes.lookup_writeAll, Writes.writeAll, List.foldl_map]
  rfl

end LifecycleStore

/-- What a successful stop of a user makes of the console's sets. -/
theorem lifecycle_userBlock {identities : Option (List Identity)} {user : Text} {plan : Plan}
    {box box' : Box} {action : ConsoleAction}
    (hrun : (BlockCommand.userBlock user true identities).run plan box = (.ok action, box')) :
    box'.lifecycle = { box.lifecycle.cacheOwners identities with
      stoppedUsers := insert user box.lifecycle.stoppedUsers } := by
  have hkind : "user".toList ≠ "agent".toList ∧ "user".toList ≠ "unit".toList := by decide
  rw [BlockCommand.run, applyBlock] at hrun
  split at hrun
  · cases hrun
  · cases hrun
    simp only [BlockCommand.kind, BlockCommand.blocked, BlockCommand.key,
      BlockCommand.cacheOwners, LifecycleStore.modifySet, hkind.1, hkind.2, if_true, if_false]
    rfl

/-- An agent got a deny policy of a stop of a user: wardryx holds one for it under the id of one
of the user's agents. -/
def GotPolicy (identities : Option (List Identity)) (user : Text) (w : Wardryx) (agent : Text) :
    Prop :=
  ∃ member ∈ agentsOfUser identities user, w.lookup (policyId "user" user member) =
    some (denyAllPolicy (blockName "user" user) agent)

/-- No later one of the user's agents has an id of the same policy as the agent. -/
def LastOfItsId (identities : Option (List Identity)) (user agent : Text) : Prop :=
  ∃ before after, agentsOfUser identities user = before ++ agent :: after ∧
    ∀ later ∈ after, policyId "user" user later ≠ policyId "user" user agent

/-- After a stop of a user that succeeds, an agent has a policy of it if it is one of the user's
agents and no later one of them has an id of the same policy. -/
theorem gotPolicy_iff {identities : Option (List Identity)} {user : Text} {plan : Plan}
    {box box' : Box} {action : ConsoleAction}
    (hrun : (BlockCommand.userBlock user true identities).run plan box = (.ok action, box'))
    (agent : Text) :
    GotPolicy identities user box'.wardryx agent ↔ LastOfItsId identities user agent := by
  have hwardryx : box'.wardryx = Writes.writeAll
      ((agentsOfUser identities user).map (memberPolicy "user" user)) box.wardryx := by
    rw [BlockCommand.run, applyBlock] at hrun
    split at hrun
    · cases hrun
    · next affected w hblock =>
        cases hrun
        have hblock : block plan "user" user (agentsOfUser identities user) box.wardryx =
            (.ok affected, w) := hblock
        have hall := ((block_ok_iff plan _ _ _ box.wardryx).mp ⟨affected, by rw [hblock]⟩).2
        have hsnd := block_snd plan "user" user (agentsOfUser identities user) box.wardryx
        rw [hblock, hall] at hsnd
        exact hsnd
  have hlast : ∀ id, Writes.lastWrite
      ((agentsOfUser identities user).map (memberPolicy "user" user)) id =
        some (denyAllPolicy (blockName "user" user) agent) ↔
      LastOfItsId identities user agent ∧ id = policyId "user" user agent := by
    intro id
    rw [Writes.lastWrite_eq_some_iff]
    constructor
    · rintro ⟨before, after, heq, hafter⟩
      obtain ⟨first, rest, hmembers, -, hrest⟩ := List.map_eq_append_iff.mp heq
      obtain ⟨member, last, rfl, hhere, rfl⟩ := List.map_eq_cons_iff.mp hrest
      obtain ⟨hid, hpolicy⟩ := Prod.mk.inj hhere
      obtain rfl : member = agent := congrArg Policy.target hpolicy
      refine ⟨⟨first, last, hmembers, fun later hlater => ?_⟩, hid.symm⟩
      rw [hid]
      exact hafter _ (List.mem_map_of_mem hlater)
    · rintro ⟨⟨before, after, heq, hafter⟩, rfl⟩
      refine ⟨_, _, by rw [heq, List.map_append, List.map_cons]; rfl, ?_⟩
      intro write hwrite
      obtain ⟨later, hlater, rfl⟩ := List.mem_map.mp hwrite
      exact hafter later hlater
  have hwritten : ∀ member ∈ agentsOfUser identities user,
      Writes.lastWrite ((agentsOfUser identities user).map (memberPolicy "user" user))
        (policyId "user" user member) ≠ none := by
    intro member hmember hnone
    refine Writes.lastWrite_eq_none_iff.mp hnone ?_
    rw [List.map_map]
    exact List.mem_map_of_mem hmember
  constructor
  · rintro ⟨member, hmember, hlookup⟩
    obtain ⟨policy, hpolicy⟩ := Option.ne_none_iff_exists'.mp (hwritten member hmember)
    rw [hwardryx, Writes.lookup_writeAll, hpolicy, Option.some_or, Option.some.injEq] at hlookup
    rw [hlookup] at hpolicy
    exact ((hlast _).mp hpolicy).1
  · intro h
    obtain ⟨before, after, heq, -⟩ := id h
    refine ⟨agent, by simp [heq], ?_⟩
    rw [hwardryx, Writes.lookup_writeAll, (hlast _).mpr ⟨h, rfl⟩, Option.some_or]

/-- A user block that stops the user: every agent that got a policy reads blocked
afterwards, and no other agent newly does. -/
def ReadsStopped (identities : Option (List Identity)) (user : Text) (box box' : Box) : Prop :=
  (∀ agent, GotPolicy identities user box'.wardryx agent →
      (box'.lifecycle.stateFor agent).isSome = true) ∧
    ∀ agent, ¬ GotPolicy identities user box'.wardryx agent →
      box.lifecycle.stateFor agent = none → box'.lifecycle.stateFor agent = none

/-- A stop of a user is read as it was enforced exactly when the owner that is known of each
agent with a policy is the user to the letter or another stopped user, unless the agent is
blocked anyway, and the owner that is known of no other agent that is not blocked is one of
these. -/
theorem readsStopped_iff {identities : Option (List Identity)} {user : Text} {plan : Plan}
    {box box' : Box} {action : ConsoleAction}
    (hrun : (BlockCommand.userBlock user true identities).run plan box = (.ok action, box')) :
    ReadsStopped identities user box box' ↔
      (∀ agent, LastOfItsId identities user agent → box.lifecycle.BlocksItself agent ∨
        ∃ owner, knownOwner identities box.lifecycle agent = some owner ∧
          (owner = user ∨ owner ∈ box.lifecycle.stoppedUsers)) ∧
      ∀ agent, ¬ LastOfItsId identities user agent → box.lifecycle.stateFor agent = none →
        ∀ owner, knownOwner identities box.lifecycle agent = some owner →
          owner ≠ user ∧ owner ∉ box.lifecycle.stoppedUsers := by
  have hself : ∀ agent, box'.lifecycle.BlocksItself agent ↔ box.lifecycle.BlocksItself agent := by
    intro agent
    rw [lifecycle_userBlock hrun]
    rfl
  have hshown : ∀ agent, (box'.lifecycle.stateFor agent).isSome = true ↔
      box.lifecycle.BlocksItself agent ∨
        ∃ owner, knownOwner identities box.lifecycle agent = some owner ∧
          (owner = user ∨ owner ∈ box.lifecycle.stoppedUsers) := by
    intro agent
    rw [LifecycleStore.isSome_stateFor_iff, hself, lifecycle_userBlock hrun]
    simp only [LifecycleStore.lookup_cacheOwners, Finset.mem_insert]
  have hnot : ∀ agent, box.lifecycle.stateFor agent = none →
      ¬ box.lifecycle.BlocksItself agent := by
    intro agent hnone hitself
    have hsome := (box.lifecycle.isSome_stateFor_iff agent).mpr (Or.inl hitself)
    rw [hnone] at hsome
    cases hsome
  simp only [ReadsStopped, gotPolicy_iff hrun]
  refine and_congr (forall₂_congr fun agent _ => hshown agent) ?_
  refine forall₃_congr fun agent _ hnone => ?_
  rw [← Option.not_isSome_iff_eq_none, hshown, or_iff_right (hnot agent hnone)]
  simp only [not_exists, not_and, not_or]

section Sample

/-- An identity list whose one agent has its owner in the given spelling. -/
def ownedBy (owner : Text) : Option (List Identity) := some [⟨"agent://acme/pay/bot", owner⟩]

def emptyBox : Box := ⟨{}, ∅⟩

end Sample

theorem readsStopped_bareHandle :
    ∃ action box', (BlockCommand.userBlock "d.hayes" true (ownedBy "d.hayes")).run accepting
        emptyBox = (.ok action, box') ∧
      ReadsStopped (ownedBy "d.hayes") "d.hayes" emptyBox box' := by
  obtain ⟨action, box', hrun⟩ : ∃ action box',
      (BlockCommand.userBlock "d.hayes" true (ownedBy "d.hayes")).run accepting emptyBox =
        (.ok action, box') := ⟨_, _, rfl⟩
  have hmembers : agentsOfUser (ownedBy "d.hayes") "d.hayes" = ["agent://acme/pay/bot".toList] := by
    decide
  have hlast : ∀ agent, LastOfItsId (ownedBy "d.hayes") "d.hayes" agent ↔
      agent = "agent://acme/pay/bot".toList := by
    intro agent
    constructor
    · rintro ⟨before, after, heq, -⟩
      have hmem : agent ∈ agentsOfUser (ownedBy "d.hayes") "d.hayes" :=
        heq ▸ List.mem_append_right _ List.mem_cons_self
      rwa [hmembers, List.mem_singleton] at hmem
    · rintro rfl
      exact ⟨[], [], hmembers, fun _ h => absurd h List.not_mem_nil⟩
  refine ⟨action, box', hrun,
    (readsStopped_iff hrun).mpr ⟨fun agent hagent => ?_, fun agent hagent _ owner howner => ?_⟩⟩
  · rw [(hlast agent).mp hagent]
    exact Or.inr ⟨"d.hayes", by decide, Or.inl rfl⟩
  · have howned : ownedAgents (ownedBy "d.hayes") =
        [⟨"agent://acme/pay/bot".toList, "d.hayes".toList⟩] := by rfl
    rw [hlast] at hagent
    rw [knownOwner, howned, emptyBox, AList.lookup_empty, Option.or_none] at howner
    have hmem := List.mem_singleton.mp (Writes.mem_of_lastWrite howner)
    exact absurd (congrArg Prod.fst hmem) hagent

/-- An agent whose owner idryx gives as a URI is denied by a stop of the bare handle, and does
not read stopped. -/
theorem stopped_by_handle_not_shown :
    ¬ ∀ action box', (BlockCommand.userBlock "d.hayes" true
        (ownedBy "user://acme/d.hayes")).run accepting emptyBox = (.ok action, box') →
      ReadsStopped (ownedBy "user://acme/d.hayes") "d.hayes" emptyBox box' := by
  intro h
  have hread := (h _ _ rfl).1 "agent://acme/pay/bot"
    ⟨"agent://acme/pay/bot", by decide, by decide +kernel⟩
  exact absurd hread (by decide)

end Genaryx.Lifecycle
