import Genaryx.Base.Digest
import Genaryx.Core.Graph

/-!
# What the delegation graph counts

The graph of a list of rows is the same for every order and repetition of them, each of its
nodes counts the natural keys filed under it, and each edge joins two distinct nodes. The
graph of a store is the one of its events.
-/

namespace Genaryx.Core

open Json

variable {F : Type}

namespace DelegationGraph

section Fields

variable (g : DelegationGraph) (id id' ts source target : Text)

@[simp] theorem ensureNode_edges : (g.ensureNode id).edges = g.edges := rfl

@[simp] theorem ensureNode_seen : (g.ensureNode id).seen = g.seen := rfl

@[simp] theorem countEvent_edges : (g.countEvent id ts).edges = g.edges := rfl

@[simp] theorem countEvent_seen : (g.countEvent id ts).seen = g.seen := rfl

@[simp] theorem linkFrom_nodes (prev : Option Text) :
    (g.linkFrom prev target).nodes = g.nodes := by
  unfold linkFrom addEdge
  split
  · split <;> rfl
  · rfl

@[simp] theorem linkFrom_seen (prev : Option Text) :
    (g.linkFrom prev target).seen = g.seen := by
  unfold linkFrom addEdge
  split
  · split <;> rfl
  · rfl

@[simp] theorem nodeAt_linkFrom (prev : Option Text) :
    (g.linkFrom prev target).nodeAt id = g.nodeAt id := by
  rw [nodeAt, nodeAt, linkFrom_nodes]

theorem mem_linkFrom_edges (prev : Option Text) (target' : Text) :
    (source, target') ∈ (g.linkFrom prev target).edges ↔ (source, target') ∈ g.edges ∨
      (source ≠ target' ∧ prev = some source ∧ target' = target) := by
  cases prev with
  | none => simp [linkFrom]
  | some p =>
      rw [linkFrom, addEdge]
      split
      · next hne =>
          rw [Finset.mem_insert, Prod.mk.injEq, Option.some.injEq, or_comm]
          apply or_congr_right
          constructor
          · rintro ⟨rfl, rfl⟩
            exact ⟨hne, rfl, rfl⟩
          · rintro ⟨-, rfl, rfl⟩
            exact ⟨rfl, rfl⟩
      · next heq =>
          rw [not_not] at heq
          refine ⟨Or.inl, fun h => h.elim (fun h => h) ?_⟩
          rintro ⟨hne, hp, htarget⟩
          exact absurd ((Option.some.inj hp).symm.trans (heq.trans htarget.symm)) hne

@[simp] theorem mem_ensureNode_nodes :
    id' ∈ (g.ensureNode id).nodes ↔ id' = id ∨ id' ∈ g.nodes :=
  Finmap.mem_insert

@[simp] theorem nodeAt_ensureNode : (g.ensureNode id).nodeAt id' = g.nodeAt id' := by
  by_cases h : id' = id
  · rw [h, nodeAt, ensureNode, Finmap.lookup_insert, Option.getD_some]
  · rw [nodeAt, ensureNode, Finmap.lookup_insert_of_ne _ h, nodeAt]

@[simp] theorem mem_countEvent_nodes :
    id' ∈ (g.countEvent id ts).nodes ↔ id' = id ∨ id' ∈ g.nodes :=
  Finmap.mem_insert

theorem nodeAt_countEvent : (g.countEvent id ts).nodeAt id' =
    if id' = id then (g.nodeAt id).counted ts else g.nodeAt id' := by
  by_cases h : id' = id
  · rw [if_pos h, h, nodeAt, countEvent, Finmap.lookup_insert, Option.getD_some]
  · rw [if_neg h, nodeAt, countEvent, Finmap.lookup_insert_of_ne _ h, nodeAt]

section NoteActor

variable (newly : Bool)

@[simp] theorem noteActor_edges : (g.noteActor newly id ts).edges = g.edges := by
  unfold noteActor
  split_ifs <;> rfl

@[simp] theorem noteActor_seen : (g.noteActor newly id ts).seen = g.seen := by
  unfold noteActor
  split_ifs <;> rfl

theorem mem_noteActor_nodes :
    id' ∈ (g.noteActor newly id ts).nodes ↔ id' ∈ g.nodes ∨ (id ≠ [] ∧ id' = id) := by
  unfold noteActor
  split_ifs with hid hnewly
  · simp [hid]
  · simp [hid, or_comm]
  · simp [hid, or_comm]

theorem nodeAt_noteActor : (g.noteActor newly id ts).nodeAt id' =
    if id ≠ [] ∧ newly = true ∧ id' = id then (g.nodeAt id).counted ts else g.nodeAt id' := by
  unfold noteActor
  split_ifs <;> simp_all [nodeAt_countEvent]

end NoteActor

end Fields

end DelegationGraph

/-- A pair of neighbours in a longer list is one of the list, or its last item and the new
one. -/
theorem pair_infix_concat {α : Type*} {a b c : α} {xs : List α} :
    [a, b] <:+: xs ++ [c] ↔ [a, b] <:+: xs ∨ (xs.getLast? = some a ∧ b = c) := by
  rw [List.infix_concat_iff, or_comm]
  apply or_congr_right
  constructor
  · rintro ⟨front, h⟩
    have hpair : (front ++ [a]) ++ [b] = xs ++ [c] := by
      rw [← h, List.append_assoc]
      rfl
    obtain ⟨hfront, hlast⟩ := List.append_inj' hpair rfl
    exact ⟨by rw [← hfront, List.getLast?_concat], List.singleton_inj.mp hlast⟩
  · rintro ⟨hlast, rfl⟩
    obtain ⟨front, rfl⟩ := List.getLast?_eq_some_iff.mp hlast
    exact ⟨front, by simp⟩

namespace DelegationGraph

/-- What the loop over a chain leaves alone, and what it adds, when it has met the principals
`done` before and these are still to come. -/
structure Walked (done coming : List Text) (g : DelegationGraph)
    (walked : Option Text × DelegationGraph) : Prop where
  last : walked.1 = (done ++ coming).getLast?
  nodeAt : ∀ id, walked.2.nodeAt id = g.nodeAt id
  seen : walked.2.seen = g.seen
  nodes : ∀ id, id ∈ walked.2.nodes ↔ id ∈ g.nodes ∨ id ∈ coming
  edges : ∀ source target, (source, target) ∈ walked.2.edges ↔
    (source, target) ∈ g.edges ∨ (source ≠ target ∧ [source, target] <:+: done ++ coming)

/-- The edges between the principals met so far are in the graph. -/
def Linked (done : List Text) (g : DelegationGraph) : Prop :=
  ∀ source target, source ≠ target → [source, target] <:+: done → (source, target) ∈ g.edges

theorem walkChain_spec {chain : List Text} {g : DelegationGraph} (done : List Text)
    (hdone : g.Linked done) :
    Walked done (chain.filter fun id => !id.isEmpty) g (walkChain done.getLast? chain g) := by
  induction chain generalizing done g with
  | nil =>
      refine ⟨by simp [walkChain], fun _ => rfl, rfl, fun id => by simp [walkChain],
        fun source target => ?_⟩
      rw [List.filter_nil, List.append_nil]
      exact ⟨Or.inl, fun h => h.elim (fun h => h) fun h => hdone source target h.1 h.2⟩
  | cons item rest ih =>
      rw [walkChain]
      by_cases hitem : item = []
      · rw [if_pos hitem, List.filter_cons_of_neg (by simp [hitem])]
        exact ih done hdone
      · rw [if_neg hitem, List.filter_cons_of_pos (by simpa using hitem)]
        have hlast : (done ++ [item]).getLast? = some item := List.getLast?_concat ..
        have hlinked : ((g.ensureNode item).linkFrom done.getLast? item).Linked
            (done ++ [item]) := by
          intro source target hne hpair
          rw [mem_linkFrom_edges]
          rcases pair_infix_concat.mp hpair with h | h
          · exact Or.inl (hdone source target hne h)
          · exact Or.inr ⟨hne, h⟩
        have hrest := ih (done ++ [item]) hlinked
        have hjoin : ∀ ids : List Text, done ++ [item] ++ ids = done ++ item :: ids := fun ids => by
          rw [List.append_assoc, List.singleton_append]
        rw [hlast] at hrest
        refine ⟨hrest.last.trans (by rw [hjoin]), fun id => ?_, ?_, fun id => ?_,
          fun source target => ?_⟩
        · rw [hrest.nodeAt, nodeAt_linkFrom, nodeAt_ensureNode]
        · rw [hrest.seen, linkFrom_seen, ensureNode_seen]
        · rw [hrest.nodes, linkFrom_nodes, mem_ensureNode_nodes, List.mem_cons]
          tauto
        · rw [hrest.edges, mem_linkFrom_edges, ensureNode_edges]
          constructor
          · rintro ((h | ⟨hne, h⟩) | h)
            · exact Or.inl h
            · refine Or.inr ⟨hne, ?_⟩
              rw [← hjoin]
              exact (pair_infix_concat.mpr (Or.inr h)).trans (List.prefix_append _ _).isInfix
            · exact Or.inr (hjoin _ ▸ h)
          · rintro (h | h)
            · exact Or.inl (Or.inl h)
            · exact Or.inr ((hjoin _).symm ▸ h)

end DelegationGraph

theorem DelegationRow.path_eq (row : DelegationRow) :
    row.path = (row.onBehalfOf.filter fun id => !id.isEmpty) ++
      if row.agentId = [] then [] else [row.agentId] := by
  rw [path, List.filter_append]
  congr 1
  split <;> simp_all

/-- The latest time after one more key. -/
theorem Latest.raise {seen : Finset EventKey} {key : EventKey} {id ts : Text}
    (h : Latest seen id ts) (hid : key.agentId = id) :
    Latest (insert key seen) id (if ts < key.ts then key.ts else ts) := by
  split
  · next hlt =>
      refine ⟨Or.inr ⟨key, Finset.mem_insert_self _ _, hid, rfl⟩, fun k hk hkid => ?_⟩
      rcases Finset.mem_insert.mp hk with rfl | hk
      · exact le_refl _
      · exact le_trans (h.2 k hk hkid) (le_of_lt hlt)
  · next hge =>
      refine ⟨h.1.imp_right fun ⟨k, hk, hrest⟩ => ⟨k, Finset.mem_insert_of_mem hk, hrest⟩,
        fun k hk hkid => ?_⟩
      rcases Finset.mem_insert.mp hk with rfl | hk
      · exact not_lt.mp hge
      · exact h.2 k hk hkid

theorem Latest.other {seen : Finset EventKey} {key : EventKey} {id ts : Text}
    (h : Latest seen id ts) (hid : key.agentId ≠ id) : Latest (insert key seen) id ts := by
  refine ⟨h.1.imp_right fun ⟨k, hk, hrest⟩ => ⟨k, Finset.mem_insert_of_mem hk, hrest⟩,
    fun k hk hkid => ?_⟩
  rcases Finset.mem_insert.mp hk with rfl | hk
  · exact absurd hkid hid
  · exact h.2 k hk hkid

/-- What one row changes. -/
structure Folded (g : DelegationGraph) (row : DelegationRow) (g' : DelegationGraph) : Prop where
  seen : g'.seen = insert row.key g.seen
  nodes : ∀ id, id ∈ g'.nodes ↔ id ∈ g.nodes ∨ id ∈ row.path
  edges : ∀ source target,
    (source, target) ∈ g'.edges ↔ (source, target) ∈ g.edges ∨ row.Delegates source target
  nodeAt : ∀ id, g'.nodeAt id =
    if row.agentId ≠ [] ∧ row.key ∉ g.seen ∧ id = row.agentId then
      (g.nodeAt row.agentId).counted row.ts
    else g.nodeAt id

theorem folded_ingestRow (g : DelegationGraph) (row : DelegationRow) :
    Folded g row (g.ingestRow row) := by
  obtain ⟨newly, hnewly⟩ : ∃ newly, newly = decide (row.key ∉ g.seen) := ⟨_, rfl⟩
  obtain ⟨acted, hacted⟩ : ∃ acted, acted =
    ({ g with seen := insert row.key g.seen } : DelegationGraph).noteActor newly row.agentId
      row.ts := ⟨_, rfl⟩
  obtain ⟨walked, hwalked⟩ : ∃ walked, walked =
    DelegationGraph.walkChain none row.onBehalfOf acted := ⟨_, rfl⟩
  have hstep : g.ingestRow row =
      if row.agentId = [] then walked.2 else walked.2.linkFrom walked.1 row.agentId := by
    rw [hwalked, hacted, hnewly]
    rfl
  have hspec : DelegationGraph.Walked [] (row.onBehalfOf.filter fun id => !id.isEmpty) acted
      walked := by
    rw [hwalked]
    exact DelegationGraph.walkChain_spec [] fun _ _ _ hpair => by simp at hpair
  have hlast := hspec.last
  have hedges := hspec.edges
  rw [List.nil_append] at hlast
  simp only [List.nil_append, hacted, DelegationGraph.noteActor_edges] at hedges
  -- the last step of the chain leads to the subject
  have hfinal : (g.ingestRow row).nodes = walked.2.nodes ∧
      (g.ingestRow row).seen = walked.2.seen ∧ ∀ source target,
        (source, target) ∈ (g.ingestRow row).edges ↔
          (source, target) ∈ g.edges ∨ row.Delegates source target := by
    rw [hstep]
    by_cases hid : row.agentId = []
    · rw [if_pos hid]
      refine ⟨rfl, rfl, fun source target => ?_⟩
      rw [hedges, DelegationRow.Delegates, row.path_eq, if_pos hid, List.append_nil]
    · rw [if_neg hid]
      refine ⟨DelegationGraph.linkFrom_nodes .., DelegationGraph.linkFrom_seen ..,
        fun source target => ?_⟩
      rw [DelegationGraph.mem_linkFrom_edges, hedges, DelegationRow.Delegates, row.path_eq,
        if_neg hid, pair_infix_concat, hlast, or_assoc]
      apply or_congr_right
      tauto
  have hnodeAt : ∀ id, (g.ingestRow row).nodeAt id = acted.nodeAt id := fun id => by
    rw [DelegationGraph.nodeAt, hfinal.1, ← hspec.nodeAt, DelegationGraph.nodeAt]
  refine ⟨?_, fun id => ?_, hfinal.2.2, fun id => ?_⟩
  · rw [hfinal.2.1, hspec.seen, hacted, DelegationGraph.noteActor_seen]
  · rw [hfinal.1, hspec.nodes, hacted, DelegationGraph.mem_noteActor_nodes, row.path_eq,
      List.mem_append]
    by_cases hid : row.agentId = []
    · simp [hid]
    · simp only [hid, if_false, List.mem_singleton, ne_eq, not_false_eq_true, true_and]
      tauto
  · rw [hnodeAt, hacted, DelegationGraph.nodeAt_noteActor]
    simp only [hnewly, decide_eq_true_eq]
    rfl

namespace Shows

variable {rows : List DelegationRow} {g : DelegationGraph}

theorem empty : Shows [] {} where
  nodes id := by simp [Finmap.notMem_empty]
  edges source target := by simp
  seen key := by simp
  id id := by rw [DelegationGraph.nodeAt, Finmap.lookup_empty]; rfl
  kind id := by rw [DelegationGraph.nodeAt, Finmap.lookup_empty]; rfl
  counts id _ := by rw [DelegationGraph.nodeAt, Finmap.lookup_empty]; rfl
  latest id _ := by
    rw [DelegationGraph.nodeAt, Finmap.lookup_empty]
    exact ⟨Or.inl rfl, fun key hkey => absurd hkey (Finset.notMem_empty key)⟩

/-- One more row. -/
theorem ingestRow (h : Shows rows g) (row : DelegationRow) :
    Shows (rows ++ [row]) (g.ingestRow row) := by
  have hfolded := folded_ingestRow g row
  have hmem : ∀ (p : DelegationRow → Prop), (∃ r ∈ rows ++ [row], p r) ↔
      (∃ r ∈ rows, p r) ∨ p row := by
    intro p
    simp [or_and_right, exists_or]
  refine ⟨fun id => ?_, fun source target => ?_, fun key => ?_, fun id => ?_, fun id => ?_,
    fun id hid => ?_, fun id hid => ?_⟩
  · rw [hfolded.nodes, h.nodes, hmem]
  · rw [hfolded.edges, h.edges, hmem]
  · rw [hfolded.seen, Finset.mem_insert, h.seen, hmem, or_comm, eq_comm]
  · rw [hfolded.nodeAt]
    split
    · next hcase => rw [hcase.2.2]; exact h.id _
    · exact h.id id
  · rw [hfolded.nodeAt]
    split
    · next hcase => rw [hcase.2.2]; exact h.kind _
    · exact h.kind id
  · rw [hfolded.nodeAt, hfolded.seen, Finset.filter_insert]
    by_cases hactor : row.key.agentId = id
    · rw [if_pos hactor]
      by_cases hnew : row.key ∉ g.seen
      · rw [if_pos ⟨fun hnil => hid (hactor.symm.trans hnil), hnew, hactor.symm⟩,
          Finset.card_insert_of_notMem fun hmem => hnew (Finset.mem_filter.mp hmem).1,
          ← h.counts id hid, ← hactor]
        rfl
      · rw [if_neg fun hcase => hnew hcase.2.1, Finset.insert_eq_of_mem
          (Finset.mem_filter.mpr ⟨not_not.mp hnew, hactor⟩), h.counts id hid]
    · rw [if_neg hactor, if_neg fun hcase => hactor hcase.2.2.symm, h.counts id hid]
  · rw [hfolded.nodeAt, hfolded.seen]
    by_cases hactor : row.key.agentId = id
    · by_cases hnew : row.key ∉ g.seen
      · rw [if_pos ⟨fun hnil => hid (hactor.symm.trans hnil), hnew, hactor.symm⟩]
        have hraised := (h.latest id hid).raise hactor
        rw [← hactor] at hraised ⊢
        exact hraised
      · rw [if_neg fun hcase => hnew hcase.2.1, Finset.insert_eq_of_mem (not_not.mp hnew)]
        exact h.latest id hid
    · rw [if_neg fun hcase => hactor hcase.2.2.symm]
      exact (h.latest id hid).other hactor

/-- The rows of a whole list. -/
theorem foldl (h : Shows rows g) (more : List DelegationRow) :
    Shows (rows ++ more) (more.foldl DelegationGraph.ingestRow g) := by
  induction more generalizing rows g with
  | nil => rwa [List.append_nil]
  | cons row more ih =>
      have hrest := ih (h.ingestRow row)
      rwa [List.append_assoc, List.singleton_append] at hrest

/-- Every edge joins two distinct nodes of the graph. -/
theorem ends (h : Shows rows g) {source target : Text} (hedge : (source, target) ∈ g.edges) :
    source ≠ target ∧ source ∈ g.nodes ∧ target ∈ g.nodes := by
  obtain ⟨row, hrow, hne, hpair⟩ := (h.edges source target).mp hedge
  refine ⟨hne, (h.nodes source).mpr ⟨row, hrow, ?_⟩, (h.nodes target).mpr ⟨row, hrow, ?_⟩⟩
  · exact hpair.subset (by simp)
  · exact hpair.subset (by simp)

end Shows

/-- An event as the console reads it: of an agent, and with data that a JSON text denotes. -/
structure AgentEvent.AsRead (event : AgentEvent F) : Prop where
  isAgent : Text.startsWith event.agentId "agent://" = true
  ordered : ∀ v, event.data = some v → v.Ordered
  depth_le : ∀ v, event.data = some v → v.depth ≤ recursionLimit

section Store

variable [DecidableEq F] (S : Sqlite F) (C : FullCodec F recursionLimit)

omit [DecidableEq F] in
/-- A chain is read back from its column. -/
theorem textsOf_toText (chain : List Text) :
    textsOf C (C.toText (.array (chain.map .string))) = some chain := by
  obtain ⟨hordered, hdepth, hmap⟩ := Value.strings_plain (F := F) chain
  have hread := C.fromStr_toText (v := .array (chain.map .string)) hordered
    (by rw [Value.depth, hdepth]; decide)
  rw [Value.mapNumbers, hmap] at hread
  rw [textsOf, hread]
  exact Value.mapM_asStr_strings chain

/-- A stored event is read back with its subject. -/
theorem delegationRowOf_eq {e : ConsoleEvent F} (h : e.event.AsRead) :
    delegationRowOf S C e = some e.event.delegationRow := by
  have hsubject := filedUnderSql_eq S C
    ⟨e.event.eventType, e.event.agentId, e.event.data, h.isAgent, h.ordered, h.depth_le⟩
  have hchain : chainOf C (onBehalfOfColumn C e.event.onBehalfOf) = some e.event.onBehalfOf := by
    rw [onBehalfOfColumn]
    cases e.event.onBehalfOf with
    | nil => rfl
    | cons text rest => exact textsOf_toText C (text :: rest)
  rw [delegationRowOf, hsubject, hchain]
  rfl

/-- The graph of a store is the one of its events. -/
theorem exists_fromStore (s : Store F) (h : ∀ e ∈ s.events, e.event.AsRead) :
    ∃ g, DelegationGraph.fromStore S C s = some g ∧
      Shows (s.events.map fun e => e.event.delegationRow) g := by
  have hrows : s.delegationEvents S C = some (s.events.map fun e => e.event.delegationRow) := by
    rw [Store.delegationEvents]
    generalize s.events = events at h
    induction events with
    | nil => rfl
    | cons e rest ih =>
        rw [List.mapM_cons, delegationRowOf_eq S C (h e List.mem_cons_self),
          ih fun e he => h e (List.mem_cons_of_mem _ he)]
        rfl
  refine ⟨_, by rw [DelegationGraph.fromStore, hrows]; rfl, ?_⟩
  have hfold := Shows.empty.foldl (s.events.map fun e => e.event.delegationRow)
  rwa [List.nil_append] at hfold

/-- The natural keys of the stored events. -/
def Store.eventKeys (s : Store F) : Finset EventKey :=
  (s.events.map fun e => e.event.delegationRow.key).toFinset

/-- The graph of a store counts at each node the different natural keys filed under it. Folding
its events in any order and with any of them repeated gives the same graph, and every edge
joins two distinct nodes. -/
theorem fromStore_counts (s : Store F) (h : ∀ e ∈ s.events, e.event.AsRead) :
    ∃ g, DelegationGraph.fromStore S C s = some g ∧
      (∀ id node, g.nodes.lookup id = some node →
        node.eventCount = (s.eventKeys.filter fun key => key.agentId = id).card) ∧
      (∀ events : List (AgentEvent F),
        (∀ event, event ∈ events ↔ event ∈ s.events.map ConsoleEvent.event) →
          events.foldl (fun g event => (g.addEvent event).2) {} = g) ∧
      ∀ source target, (source, target) ∈ g.edges →
        source ≠ target ∧ source ∈ g.nodes ∧ target ∈ g.nodes := by
  obtain ⟨g, hg, hshows⟩ := exists_fromStore S C s h
  refine ⟨g, hg, fun id node hnode => ?_, fun events hevents => ?_,
    fun source target hedge => hshows.ends hedge⟩
  · have hmem := Finmap.mem_of_lookup_eq_some hnode
    have hid : id ≠ [] := by
      obtain ⟨row, -, hpath⟩ := (hshows.nodes id).mp hmem
      simpa using (List.mem_filter.mp hpath).2
    have hseen : g.seen = s.eventKeys := by
      ext key
      rw [hshows.seen, Store.eventKeys, List.mem_toFinset]
      simp only [List.mem_map, exists_exists_and_eq_and]
    rw [g.lookup_nodes, if_pos hmem, Option.some.injEq] at hnode
    rw [← hnode, hshows.counts id hid, hseen]
  · have hfold : ∀ (events : List (AgentEvent F)) (g : DelegationGraph),
        events.foldl (fun g event => (g.addEvent event).2) g =
          (events.map AgentEvent.delegationRow).foldl DelegationGraph.ingestRow g := by
      intro events g
      rw [List.foldl_map]
      rfl
    have hlive := Shows.empty.foldl (events.map AgentEvent.delegationRow)
    rw [List.nil_append, ← hfold] at hlive
    refine hlive.unique hshows fun row => ?_
    simp only [List.mem_map, hevents]
    constructor
    · rintro ⟨event, ⟨e, he, rfl⟩, rfl⟩
      exact ⟨e, he, rfl⟩
    · rintro ⟨e, he, rfl⟩
      exact ⟨e.event, ⟨e, he, rfl⟩, rfl⟩

end Store

section Sample

/-- A denial, as the policy engine stamps it: to the second. -/
def denial : AgentEvent Empty where
  schema := SchemaVersion.v0_2.asStr
  ts := "2026-09-01T10:00:00Z"
  source := "wardryx"
  eventType := "policy_deny"
  agentId := "agent://acme/pay/bot"
  runId := some "run-1"
  onBehalfOf := ["user://acme/alice"]

/-- The denial as a line of the policy engine's file, at an offset. -/
def denialAt (offset : Nat) : ConsoleEvent Empty where
  event := denial
  provenance := ⟨"prod", "filetail:wardryx", some "/bus/wardryx.ndjson", some offset, none,
    "2026-09-01T10:00:01+00:00"⟩
  raw := "denied"
  schemaVersion := .v0_2

/-- A store that ingested two denials of one second. -/
def twoDenials : Store Empty where
  events := (Store.insertEvents plainDigest [] [denialAt 0, denialAt 7] 0).1

theorem asRead_twoDenials : ∀ e ∈ twoDenials.events, e.event.AsRead := by
  intro e he
  have hevent : e.event = denial := by
    rcases Store.mem_of_mem_insertEvents he with hold | hnew
    · cases hold
    · rcases List.mem_cons.mp hnew with rfl | hnew
      · rfl
      · rw [List.mem_singleton.mp hnew]
        rfl
  rw [hevent]
  exact ⟨by decide, fun v hv => (nomatch hv), fun v hv => (nomatch hv)⟩

theorem fromStore_counts_twoDenials :
    ∃ g, DelegationGraph.fromStore sqliteWithoutDoubles (FullCodec.ofEmpty recursionLimit)
        twoDenials = some g ∧
      ∀ id node, g.nodes.lookup id = some node →
        node.eventCount = (twoDenials.eventKeys.filter fun key => key.agentId = id).card := by
  obtain ⟨g, hg, hcounts, -⟩ := fromStore_counts sqliteWithoutDoubles
    (FullCodec.ofEmpty recursionLimit) twoDenials asRead_twoDenials
  exact ⟨g, hg, hcounts⟩

/-- Both denials are stored and filed under the agent, whose node counts one event. -/
theorem denials_of_one_second_counted_once :
    ¬ ∀ s : Store Empty, (∀ e ∈ s.events, e.event.AsRead) → ∀ g,
      DelegationGraph.fromStore sqliteWithoutDoubles (FullCodec.ofEmpty recursionLimit) s =
        some g →
      ∀ id node, g.nodes.lookup id = some node →
        node.eventCount = (s.events.filter fun e => e.event.delegationRow.agentId = id).length := by
  intro h
  obtain ⟨g, hg, hcheck⟩ := (Option.any_eq_true _ _).mp (by decide +kernel :
    (DelegationGraph.fromStore sqliteWithoutDoubles (FullCodec.ofEmpty recursionLimit)
      twoDenials).any (fun g => denial.agentId ∈ g.nodes ∧
        (g.nodeAt denial.agentId).eventCount = 1) = true)
  obtain ⟨hmem, hone⟩ := of_decide_eq_true hcheck
  have hcount := h twoDenials asRead_twoDenials g hg denial.agentId _
    (by rw [g.lookup_nodes, if_pos hmem])
  rw [hone] at hcount
  exact absurd hcount (by decide +kernel)

end Sample

end Genaryx.Core
