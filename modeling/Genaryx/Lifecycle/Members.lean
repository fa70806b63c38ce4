import Genaryx.Base.Writes
import Genaryx.Lifecycle.Block

/-!
# Which members a block covers

A block writes one policy for each member under an id made of the sanitized entity and
member. Every member is covered when no two of them share an id, and stays covered as long
as some id of it is not written for another agent.
-/

namespace Genaryx.Lifecycle

open Base

/-- The members whose policies wardryx accepts, the first of which is the `i`-th request:
those before the first refusal. -/
def acceptedMembers (plan : Plan) : Nat → List Text → List Text
  | _, [] => []
  | i, agent :: rest =>
      match plan i with
      | some _ => []
      | none => agent :: acceptedMembers plan (i + 1) rest

/-- The policy that a block writes for one member, with its id. -/
def memberPolicy (kind key agent : Text) : Text × Policy :=
  (policyId kind key agent, denyAllPolicy (blockName kind key) agent)

/-- A block writes the policies of the members before the first refusal, in order. -/
theorem writePolicies_snd (plan : Plan) (kind key : Text) (written : Nat) (agents : List Text)
    (w : Wardryx) : (writePolicies plan kind key written agents w).2 =
      Writes.writeAll ((acceptedMembers plan written agents).map (memberPolicy kind key)) w := by
  induction agents generalizing written w with
  | nil => rfl
  | cons agent rest ih =>
      rw [writePolicies, acceptedMembers]
      cases plan written with
      | some e => rfl
      | none => exact ih (written + 1) _

/-- A block succeeds exactly when no write of it is refused. -/
theorem writePolicies_ok_iff (plan : Plan) (kind key : Text) (written : Nat)
    (agents : List Text) (w : Wardryx) :
    (∃ n, (writePolicies plan kind key written agents w).1 = .ok n) ↔
      acceptedMembers plan written agents = agents := by
  induction agents generalizing written w with
  | nil => exact iff_of_true ⟨written, rfl⟩ rfl
  | cons agent rest ih =>
      rw [writePolicies, acceptedMembers]
      cases plan written with
      | some e => simp
      | none => simpa using ih (written + 1) _

theorem block_snd (plan : Plan) (kind key : Text) (agents : List Text) (w : Wardryx) :
    (block plan kind key agents w).2 =
      Writes.writeAll ((acceptedMembers plan 0 agents).map (memberPolicy kind key)) w := by
  cases agents with
  | nil => rfl
  | cons agent rest => exact writePolicies_snd plan kind key 0 (agent :: rest) w

theorem block_ok_iff (plan : Plan) (kind key : Text) (agents : List Text) (w : Wardryx) :
    (∃ n, (block plan kind key agents w).1 = .ok n) ↔
      agents ≠ [] ∧ acceptedMembers plan 0 agents = agents := by
  cases agents with
  | nil => simp [block]
  | cons agent rest =>
      rw [and_iff_right (List.cons_ne_nil agent rest)]
      exact writePolicies_ok_iff plan kind key 0 (agent :: rest) w

/-- Wardryx denies all work of an agent. -/
def DeniesAll (w : Wardryx) (agent : Text) : Prop :=
  ∃ id name, w.lookup id = some (denyAllPolicy name agent)

/-- Successful blocks one after another. -/
inductive LaterBlocks : Wardryx → List Entity → Wardryx → Prop
  | nil (w : Wardryx) : LaterBlocks w [] w
  | cons {w w' w'' : Wardryx} {e : Entity} {rest : List Entity} (plan : Plan) (n : Nat)
      (h : block plan e.kind e.key e.agents w = (.ok n, w')) (hrest : LaterBlocks w' rest w'') :
      LaterBlocks w (e :: rest) w''

/-- Whatever wardryx held before, a successful block of an entity leaves every member with a
deny-all policy, and so do later successful blocks of other entities. -/
def CoversMembers (e : Entity) (later : List Entity) : Prop :=
  ∀ plan w n w', block plan e.kind e.key e.agents w = (.ok n, w') →
    ∀ agent ∈ e.agents, DeniesAll w' agent ∧ ∀ w'', LaterBlocks w' later w'' → DeniesAll w'' agent

/-- The ids that a successful block writes, each with the member it is written for. -/
def Entity.writes (e : Entity) : List (Text × Text) :=
  e.agents.map fun agent => (policyId e.kind e.key agent, agent)

/-- The members of a block, each with its entity. -/
def Entity.members (e : Entity) : List (Entity × Text) := e.agents.map fun agent => (e, agent)

/-- One of the policies that the blocks write for an agent is not written over by a policy of a
later member: no later one has its id. -/
def KeepsPolicy (entities : List Entity) (agent : Text) : Prop :=
  ∃ before e after, entities.flatMap Entity.members = before ++ (e, agent) :: after ∧
    ∀ later ∈ after,
      policyId later.1.kind later.1.key later.2 ≠ policyId e.kind e.key agent

theorem writes_eq_members (entities : List Entity) : entities.flatMap Entity.writes =
    (entities.flatMap Entity.members).map fun m => (policyId m.1.kind m.1.key m.2, m.2) := by
  rw [List.map_flatMap]
  refine List.flatMap_congr fun e _ => ?_
  rw [Entity.writes, Entity.members, List.map_map]
  rfl

/-- An agent keeps a policy exactly when some id is last written for it. -/
theorem keepsPolicy_iff {entities : List Entity} {agent : Text} : KeepsPolicy entities agent ↔
    ∃ id, Writes.lastWrite (entities.flatMap Entity.writes) id = some agent := by
  simp only [Writes.lastWrite_eq_some_iff, writes_eq_members, KeepsPolicy]
  constructor
  · rintro ⟨before, e, after, heq, hafter⟩
    refine ⟨policyId e.kind e.key agent, _, _, by rw [heq, List.map_append, List.map_cons], ?_⟩
    exact List.forall_mem_map.mpr hafter
  · rintro ⟨id, before, after, heq, hafter⟩
    obtain ⟨first, rest, hmembers, -, hrest⟩ := List.map_eq_append_iff.mp heq
    obtain ⟨⟨e, member⟩, last, rfl, hhere, rfl⟩ := List.map_eq_cons_iff.mp hrest
    cases hhere
    exact ⟨first, e, last, hmembers, fun m hm => hafter _ (List.mem_map_of_mem hm)⟩

/-- The policies that the writes put under their ids. -/
def Entity.policies (e : Entity) : List (Text × Policy) :=
  e.agents.map (memberPolicy e.kind e.key)

theorem block_eq_writeAll {plan : Plan} {e : Entity} {n : Nat} {w w' : Wardryx}
    (h : block plan e.kind e.key e.agents w = (.ok n, w')) :
    w' = Writes.writeAll e.policies w := by
  have hok := ((block_ok_iff plan e.kind e.key e.agents w).mp ⟨n, by rw [h]⟩).2
  have hsnd := block_snd plan e.kind e.key e.agents w
  rw [h, hok] at hsnd
  exact hsnd

theorem LaterBlocks.eq_writeAll {w w' : Wardryx} {later : List Entity}
    (h : LaterBlocks w later w') :
    w' = Writes.writeAll (later.flatMap Entity.policies) w := by
  induction h with
  | nil w => rfl
  | cons plan n h _ ih =>
      rw [ih, block_eq_writeAll h, List.flatMap_cons, Writes.writeAll_append]

theorem laterBlocks_blockAll (w : Wardryx) (later : List Entity) :
    LaterBlocks w later (blockAll w later) := by
  induction later generalizing w with
  | nil => exact .nil w
  | cons e rest ih =>
      exact .cons accepting e.agents.length (Prod.ext (block_ok e w) rfl) (ih _)

theorem Entity.writes_eq (e : Entity) :
    e.writes = e.policies.map fun p => (p.1, p.2.target) := by
  simp only [writes, policies, List.map_map]
  rfl

theorem flatMap_writes_eq (entities : List Entity) :
    entities.flatMap Entity.writes =
      (entities.flatMap Entity.policies).map fun p => (p.1, p.2.target) := by
  rw [List.map_flatMap, List.flatMap_congr fun e _ => e.writes_eq]

/-- Every policy that blocks write denies all work of its target. -/
theorem denyAllPolicy_of_mem {entities : List Entity} {p : Text × Policy}
    (h : p ∈ entities.flatMap Entity.policies) :
    ∃ name, p.2 = denyAllPolicy name p.2.target := by
  obtain ⟨e, _, hp⟩ := List.mem_flatMap.mp h
  obtain ⟨agent, _, rfl⟩ := List.mem_map.mp hp
  exact ⟨blockName e.kind e.key, rfl⟩

/-- Whatever wardryx held before the blocks of the entities, it denies an agent after them
exactly when some id is last written for the agent. -/
theorem deniesAll_writeAll_iff (entities : List Entity) (agent : Text) :
    (∀ w, DeniesAll (Writes.writeAll (entities.flatMap Entity.policies) w) agent) ↔
      KeepsPolicy entities agent := by
  rw [keepsPolicy_iff, flatMap_writes_eq]
  simp only [Writes.lastWrite_map]
  constructor
  · intro h
    obtain ⟨id, name, hid⟩ := h ∅
    rw [Writes.lookup_writeAll, AList.lookup_empty, Option.or_none] at hid
    exact ⟨id, by rw [hid]; rfl⟩
  · rintro ⟨id, hid⟩ w
    obtain ⟨p, hp, rfl⟩ := Option.map_eq_some_iff.mp hid
    obtain ⟨name, hname⟩ := denyAllPolicy_of_mem (Writes.mem_of_lastWrite hp)
    refine ⟨id, name, ?_⟩
    rw [Writes.lookup_writeAll, hp, Option.some_or]
    exact congrArg some hname

/-- One block keeps a policy for every member exactly when no two members share an id. -/
theorem keepsPolicy_writes_iff (e : Entity) :
    (∀ agent ∈ e.agents, KeepsPolicy [e] agent) ↔
      ∀ a ∈ e.agents, ∀ b ∈ e.agents,
        policyId e.kind e.key a = policyId e.kind e.key b → a = b := by
  simp only [keepsPolicy_iff, List.flatMap_singleton]
  have hlast : ∀ {id a}, Writes.lastWrite e.writes id = some a →
      a ∈ e.agents ∧ id = policyId e.kind e.key a := by
    intro id a h
    obtain ⟨b, hb, heq⟩ := List.mem_map.mp (Writes.mem_of_lastWrite h)
    cases heq
    exact ⟨hb, rfl⟩
  constructor
  · intro h a ha b hb hid
    obtain ⟨ida, hida⟩ := h a ha
    obtain ⟨idb, hidb⟩ := h b hb
    rw [(hlast hida).2, hid] at hida
    rw [(hlast hidb).2] at hidb
    exact Option.some.inj (hida.symm.trans hidb)
  · intro h a ha
    have hmem : policyId e.kind e.key a ∈ e.writes.map Prod.fst :=
      List.mem_map.mpr ⟨_, List.mem_map.mpr ⟨a, ha, rfl⟩, rfl⟩
    obtain ⟨b, hb⟩ := Option.ne_none_iff_exists'.mp (mt Writes.lastWrite_eq_none_iff.mp
      (not_not_intro hmem))
    have hba := h b (hlast hb).1 a ha (hlast hb).2.symm
    exact ⟨_, hba ▸ hb⟩

/-- A block covers its members exactly when no two of them share a policy id and, for each of
them, one policy that is written for it is not written over in the later blocks. -/
theorem coversMembers_iff (e : Entity) (later : List Entity) :
    CoversMembers e later ↔
      (∀ a ∈ e.agents, ∀ b ∈ e.agents,
        policyId e.kind e.key a = policyId e.kind e.key b → a = b) ∧
      ∀ agent ∈ e.agents, KeepsPolicy (e :: later) agent := by
  have hone : [e].flatMap Entity.policies = e.policies := List.flatMap_singleton ..
  have hsplit : ∀ w, Writes.writeAll ((e :: later).flatMap Entity.policies) w =
      Writes.writeAll (later.flatMap Entity.policies) (Writes.writeAll e.policies w) := by
    intro w
    rw [List.flatMap_cons, Writes.writeAll_append]
  have hblock : ∀ w, block accepting e.kind e.key e.agents w =
      (.ok e.agents.length, Writes.writeAll e.policies w) := fun w =>
    Prod.ext (block_ok e w) (block_eq_writeAll (Prod.ext (block_ok e w) rfl))
  rw [← keepsPolicy_writes_iff]
  constructor
  · intro h
    refine ⟨fun agent ha => ?_, fun agent ha => ?_⟩
    · refine (deniesAll_writeAll_iff [e] agent).mp fun w => ?_
      rw [hone]
      exact (h accepting w _ _ (hblock w) agent ha).1
    · refine (deniesAll_writeAll_iff (e :: later) agent).mp fun w => ?_
      have hlater := laterBlocks_blockAll (Writes.writeAll e.policies w) later
      rw [hsplit, ← hlater.eq_writeAll]
      exact (h accepting w _ _ (hblock w) agent ha).2 _ hlater
  · rintro ⟨hself, hafter⟩ plan w n w' hrun agent ha
    refine ⟨?_, fun w'' hlater => ?_⟩
    · rw [block_eq_writeAll hrun, ← hone]
      exact (deniesAll_writeAll_iff [e] agent).mpr (hself agent ha) w
    · rw [hlater.eq_writeAll, block_eq_writeAll hrun, ← hsplit]
      exact (deniesAll_writeAll_iff (e :: later) agent).mpr (hafter agent ha) w

/-- Two members whose ids differ in one character that is not alphanumeric share a policy. -/
theorem member_overwritten :
    ¬ CoversMembers ⟨"unit", "payments",
      ["agent://acme/payments/bot.1", "agent://acme/payments/bot-1"], by decide⟩ [] := by
  intro h
  obtain ⟨⟨id, name, hid⟩, -⟩ := h accepting ∅ 2 _ rfl "agent://acme/payments/bot.1" (by decide)
  have hall : ∀ p ∈ (block accepting "unit" "payments"
      ["agent://acme/payments/bot.1", "agent://acme/payments/bot-1"] ∅).2.entries,
      p.2.target = "agent://acme/payments/bot-1".toList := by decide
  have hother : "agent://acme/payments/bot.1".toList ≠ "agent://acme/payments/bot-1".toList := by
    decide
  exact hother (hall _ (AList.mem_lookup_iff.mp hid))

end Genaryx.Lifecycle
