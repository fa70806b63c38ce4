import Genaryx.Core.GraphCounts
import Mathlib.Data.Finset.Sort
import Mathlib.Data.Prod.Lex

/-!
# An agent's place in the delegation graph

The card of an agent shows its node with the nodes of those who delegate to it and of those it
delegates to. The graph is read from the store for each card. What the cards and the whole
graph show is said here of the stored rows alone, and each list is the only one of which it is
true.
-/

namespace Genaryx.Core

open Json

variable {F : Type}

structure GraphEdge where
  source : Text
  target : Text
  deriving DecidableEq

/-- A snapshot of the graph. -/
structure GraphView where
  nodes : List GraphNode := []
  edges : List GraphEdge := []

/-- One agent's immediate neighbourhood. -/
structure AgentSlice where
  node : Option GraphNode := none
  parents : List GraphNode := []
  children : List GraphNode := []

namespace DelegationGraph

variable (g : DelegationGraph)

/-- The edges in the order of the program's set: by source, then by target. -/
def edgeList : List (Text × Text) := ((g.edges.map toLex.toEmbedding).sort (· ≤ ·)).map ofLex

/-- The names of the nodes in the order of the program's map. -/
def nodeIds : List Text := g.nodes.keys.sort (· ≤ ·)

def parents (id : Text) : List Text := (g.edgeList.filter fun edge => edge.2 = id).map Prod.fst

def children (id : Text) : List Text := (g.edgeList.filter fun edge => edge.1 = id).map Prod.snd

def roots : List Text := g.nodeIds.filter fun id => !g.edgeList.any fun edge => edge.2 = id

def agentSlice (id : Text) : AgentSlice where
  node := g.nodes.lookup id
  parents := (g.parents id).filterMap fun p => g.nodes.lookup p
  children := (g.children id).filterMap fun c => g.nodes.lookup c

def view : GraphView where
  nodes := g.nodeIds.filterMap fun id => g.nodes.lookup id
  edges := g.edgeList.map fun edge => ⟨edge.1, edge.2⟩

theorem mem_edgeList {edge : Text × Text} : edge ∈ g.edgeList ↔ edge ∈ g.edges := by
  rw [edgeList, List.mem_map]
  constructor
  · rintro ⟨e, he, rfl⟩
    obtain ⟨e', he', rfl⟩ := Finset.mem_map.mp ((Finset.mem_sort _).mp he)
    exact he'
  · intro hedge
    exact ⟨toLex edge, (Finset.mem_sort _).mpr (Finset.mem_map_of_mem _ hedge), rfl⟩

theorem pairwise_edgeList : g.edgeList.Pairwise fun e e' => toLex e < toLex e' := by
  rw [edgeList, List.pairwise_map]
  exact (Finset.sortedLT_sort _).pairwise

theorem mem_nodeIds {id : Text} : id ∈ g.nodeIds ↔ id ∈ g.nodes :=
  (Finset.mem_sort _).trans Finmap.mem_keys

theorem pairwise_nodeIds : g.nodeIds.Pairwise (· < ·) := (Finset.sortedLT_sort _).pairwise

theorem mem_parents {id p : Text} : p ∈ g.parents id ↔ (p, id) ∈ g.edges := by
  rw [← mem_edgeList, parents, List.mem_map]
  constructor
  · rintro ⟨⟨source, target⟩, hedge, rfl⟩
    obtain ⟨hedge, htarget⟩ := List.mem_filter.mp hedge
    rwa [← of_decide_eq_true htarget]
  · intro hedge
    exact ⟨(p, id), List.mem_filter.mpr ⟨hedge, decide_eq_true rfl⟩, rfl⟩

theorem mem_children {id c : Text} : c ∈ g.children id ↔ (id, c) ∈ g.edges := by
  rw [← mem_edgeList, children, List.mem_map]
  constructor
  · rintro ⟨⟨source, target⟩, hedge, rfl⟩
    obtain ⟨hedge, hsource⟩ := List.mem_filter.mp hedge
    rwa [← of_decide_eq_true hsource]
  · intro hedge
    exact ⟨(id, c), List.mem_filter.mpr ⟨hedge, decide_eq_true rfl⟩, rfl⟩

/-- Of the edges into one node the sources ascend. -/
theorem pairwise_parents (id : Text) : (g.parents id).Pairwise (· < ·) := by
  rw [parents, List.pairwise_map]
  apply (g.pairwise_edgeList.filter fun edge => edge.2 = id).imp_of_mem
  intro e e' he he' hlt
  have htarget := of_decide_eq_true (List.mem_filter.mp he).2
  have htarget' := of_decide_eq_true (List.mem_filter.mp he').2
  rcases Prod.Lex.toLex_lt_toLex.mp hlt with hsource | ⟨-, hlt⟩
  · exact hsource
  · exact absurd hlt (by rw [htarget, htarget']; exact lt_irrefl id)

/-- Of the edges out of one node the targets ascend. -/
theorem pairwise_children (id : Text) : (g.children id).Pairwise (· < ·) := by
  rw [children, List.pairwise_map]
  apply (g.pairwise_edgeList.filter fun edge => edge.1 = id).imp_of_mem
  intro e e' he he' hlt
  have hsource := of_decide_eq_true (List.mem_filter.mp he).2
  have hsource' := of_decide_eq_true (List.mem_filter.mp he').2
  rcases Prod.Lex.toLex_lt_toLex.mp hlt with hlt | ⟨-, htarget⟩
  · exact absurd hlt (by rw [hsource, hsource']; exact lt_irrefl id)
  · exact htarget

theorem mem_roots {id : Text} : id ∈ g.roots ↔ id ∈ g.nodes ∧ ∀ p, (p, id) ∉ g.edges := by
  rw [roots, List.mem_filter, mem_nodeIds, Bool.not_eq_true', List.any_eq_false]
  apply and_congr_right'
  constructor
  · intro h p hedge
    exact h (p, id) (g.mem_edgeList.mpr hedge) (decide_eq_true rfl)
  · rintro h ⟨p, target⟩ hedge heq
    obtain rfl : target = id := of_decide_eq_true heq
    exact h p (g.mem_edgeList.mp hedge)

end DelegationGraph

section Store

variable [DecidableEq F] (S : Sqlite F) (C : FullCodec F recursionLimit)

/-- The graph of the store, if one can be opened and read. -/
def openGraph (store : Option (Store F)) : Option DelegationGraph :=
  store.bind (DelegationGraph.fromStore S C)

def buildAgentSlice (store : Option (Store F)) (agentId : Text) : AgentSlice :=
  match openGraph S C store with
  | some g => g.agentSlice agentId
  | none => {}

end Store

/-- The natural keys of the rows. -/
def keysOf (rows : List DelegationRow) : Finset EventKey := (rows.map DelegationRow.key).toFinset

/-- The node is what the rows say of its principal: one that they mention, with the number of
different events filed under it and the latest time of one. -/
structure Described (rows : List DelegationRow) (node : GraphNode) : Prop where
  met : ∃ row ∈ rows, node.id ∈ row.path
  kind : node.kind = NodeKind.of node.id
  counts : node.eventCount = ((keysOf rows).filter fun key => key.agentId = node.id).card
  latest : Latest (keysOf rows) node.id node.lastTs

/-- The nodes of the principals with a property, each once and in the order of their names. -/
structure Lists (rows : List DelegationRow) (p : Text → Prop) (nodes : List GraphNode) :
    Prop where
  ascending : (nodes.map GraphNode.id).Pairwise (· < ·)
  mem : ∀ node, node ∈ nodes ↔ Described rows node ∧ p node.id

/-- Some row steps down its chain from one principal to another. -/
def Delegated (rows : List DelegationRow) (source target : Text) : Prop :=
  ∃ row ∈ rows, row.Delegates source target

theorem Described.unique {rows : List DelegationRow} {node node' : GraphNode}
    (h : Described rows node) (h' : Described rows node') (hid : node.id = node'.id) :
    node = node' := by
  apply GraphNode.ext
  · exact hid
  · rw [h.kind, h'.kind, hid]
  · rw [h.counts, h'.counts, hid]
  · exact h.latest.unique (hid ▸ h'.latest)

/-- A list of nodes is determined by what it lists. -/
theorem Lists.unique {rows : List DelegationRow} {p : Text → Prop} {nodes nodes' : List GraphNode}
    (h : Lists rows p nodes) (h' : Lists rows p nodes') : nodes = nodes' := by
  have hmem : ∀ node, node ∈ nodes ↔ node ∈ nodes' := by
    intro node
    rw [h.mem, h'.mem]
  have hlt := List.pairwise_map.mp h.ascending
  have hlt' := List.pairwise_map.mp h'.ascending
  have hnodup : ∀ {l : List GraphNode}, l.Pairwise (fun a b => a.id < b.id) → l.Nodup := by
    intro l hl
    apply hl.imp
    rintro a b hab rfl
    exact lt_irrefl _ hab
  apply List.Perm.eq_of_pairwise _ hlt hlt'
  · exact (List.perm_ext_iff_of_nodup (hnodup hlt) (hnodup hlt')).mpr hmem
  · intro a b _ _ hab hba
    exact absurd (hab.trans hba) (lt_irrefl _)

namespace Shows

variable {rows : List DelegationRow} {g : DelegationGraph}

theorem seen_eq (h : Shows rows g) : g.seen = keysOf rows := by
  ext key
  rw [h.seen, keysOf, List.mem_toFinset, List.mem_map]

/-- The nodes of the graph are what the rows say of their principals. -/
theorem lookup_iff (h : Shows rows g) {id : Text} {node : GraphNode} :
    g.nodes.lookup id = some node ↔ Described rows node ∧ node.id = id := by
  have hnode : ∀ {id}, id ∈ g.nodes → Described rows (g.nodeAt id) := by
    intro id hid
    obtain ⟨row, hrow, hpath⟩ := (h.nodes id).mp hid
    have hne : id ≠ [] := by simpa using (List.mem_filter.mp hpath).2
    have hname := h.id id
    constructor
    · exact ⟨row, hrow, hname.symm ▸ hpath⟩
    · rw [h.kind, hname]
    · rw [h.counts id hne, hname, h.seen_eq]
    · rw [hname, ← h.seen_eq]
      exact h.latest id hne
  rw [g.lookup_nodes]
  constructor
  · intro hlookup
    split at hlookup
    · next hid =>
        cases hlookup
        exact ⟨hnode hid, h.id id⟩
    · cases hlookup
  · rintro ⟨hdescribed, rfl⟩
    have hid := (h.nodes node.id).mpr hdescribed.met
    rw [if_pos hid, (hnode hid).unique hdescribed (h.id node.id)]

/-- The nodes of names that ascend and are all in the graph. -/
theorem lists (h : Shows rows g) {p : Text → Prop} {ids : List Text}
    (hascending : ids.Pairwise (· < ·)) (hin : ∀ id ∈ ids, id ∈ g.nodes)
    (hmem : ∀ id ∈ g.nodes, id ∈ ids ↔ p id) :
    Lists rows p (ids.filterMap fun id => g.nodes.lookup id) where
  ascending := by
    have hids : (ids.filterMap fun id => g.nodes.lookup id).map GraphNode.id = ids := by
      rw [List.map_filterMap]
      refine (List.filterMap_congr fun id hid => ?_).trans List.filterMap_some
      rw [g.lookup_nodes, if_pos (hin id hid), Option.map_some, h.id]
    rwa [hids]
  mem node := by
    rw [List.mem_filterMap]
    constructor
    · rintro ⟨id, hid, hlookup⟩
      obtain ⟨hdescribed, rfl⟩ := h.lookup_iff.mp hlookup
      exact ⟨hdescribed, (hmem _ (hin _ hid)).mp hid⟩
    · rintro ⟨hdescribed, hp⟩
      have hid := (h.nodes node.id).mpr hdescribed.met
      exact ⟨node.id, (hmem _ hid).mpr hp, h.lookup_iff.mpr ⟨hdescribed, rfl⟩⟩

end Shows

/-- The cards show the rows: an agent's own node, those who delegate to it and those it
delegates to. -/
structure CardsShow (rows : List DelegationRow) (card : Text → AgentSlice) : Prop where
  node : ∀ id node, (card id).node = some node ↔ Described rows node ∧ node.id = id
  parents : ∀ id, Lists rows (fun p => Delegated rows p id) (card id).parents
  children : ∀ id, Lists rows (fun c => Delegated rows id c) (card id).children

/-- The whole graph shows the rows: every principal, every step down a chain, and as roots the
principals to whom nobody delegates. -/
structure ViewShows (rows : List DelegationRow) (g : DelegationGraph) : Prop where
  nodes : Lists rows (fun _ => True) g.view.nodes
  edges : ∀ edge, edge ∈ g.view.edges ↔ Delegated rows edge.source edge.target
  edges_ascending : g.view.edges.Pairwise fun e e' =>
    toLex (e.source, e.target) < toLex (e'.source, e'.target)
  roots : ∀ id, id ∈ g.roots ↔
    (∃ row ∈ rows, id ∈ row.path) ∧ ∀ p, ¬Delegated rows p id

namespace Shows

variable {rows : List DelegationRow} {g : DelegationGraph}

theorem cardsShow (h : Shows rows g) : CardsShow rows g.agentSlice where
  node _ _ := h.lookup_iff
  parents id := by
    apply h.lists (g.pairwise_parents id)
    · intro p hp
      exact (h.ends (g.mem_parents.mp hp)).2.1
    · intro p _
      exact g.mem_parents.trans (h.edges p id)
  children id := by
    apply h.lists (g.pairwise_children id)
    · intro c hc
      exact (h.ends (g.mem_children.mp hc)).2.2
    · intro c _
      exact g.mem_children.trans (h.edges id c)

theorem viewShows (h : Shows rows g) : ViewShows rows g where
  nodes := by
    apply h.lists g.pairwise_nodeIds
    · intro id hid
      exact g.mem_nodeIds.mp hid
    · intro id hid
      exact iff_true_intro (g.mem_nodeIds.mpr hid)
  edges edge := by
    refine Iff.trans ?_ ((g.mem_edgeList).trans (h.edges _ _))
    rw [DelegationGraph.view, List.mem_map]
    constructor
    · rintro ⟨e, he, rfl⟩
      exact he
    · intro he
      exact ⟨_, he, rfl⟩
  edges_ascending := List.pairwise_map.mpr g.pairwise_edgeList
  roots id := by
    rw [g.mem_roots, h.nodes]
    simp only [h.edges, Delegated]

end Shows

section Store

variable [DecidableEq F] (S : Sqlite F) (C : FullCodec F recursionLimit)

/-- The cards and the graph that the console reads from a store show its events. An agent's card
is the same one where the events were folded as they arrived, in any order and with any of them
read again. -/
theorem cards_show_stored (s : Store F) (h : ∀ e ∈ s.events, e.event.AsRead) :
    CardsShow (s.events.map fun e => e.event.delegationRow) (buildAgentSlice S C (some s)) ∧
      (∃ g, openGraph S C (some s) = some g ∧
        ViewShows (s.events.map fun e => e.event.delegationRow) g) ∧
      ∀ live : List (AgentEvent F),
        (∀ row, row ∈ live.map AgentEvent.delegationRow ↔
          row ∈ s.events.map fun e => e.event.delegationRow) →
        ∀ id, (live.foldl (fun g event => (DelegationGraph.addEvent event g).2) {}).agentSlice id =
          buildAgentSlice S C (some s) id := by
  obtain ⟨g, hg, hshows⟩ := exists_fromStore S C s h
  have hopen : openGraph S C (some s) = some g := hg
  have hcard : buildAgentSlice S C (some s) = g.agentSlice := by
    ext1 id
    rw [buildAgentSlice, hopen]
  refine ⟨hcard ▸ hshows.cardsShow, ⟨g, hopen, hshows.viewShows⟩, ?_⟩
  intro live hlive id
  have hfold : ∀ (events : List (AgentEvent F)) (g : DelegationGraph),
      events.foldl (fun g event => (DelegationGraph.addEvent event g).2) g =
        (events.map AgentEvent.delegationRow).foldl DelegationGraph.ingestRow g := by
    intro events g
    rw [List.foldl_map]
    rfl
  have hshown := Shows.empty.foldl (live.map AgentEvent.delegationRow)
  rw [List.nil_append, ← hfold] at hshown
  rw [hshown.unique hshows hlive, hcard]

theorem cards_show_stored_twoDenials :
    CardsShow [denial.delegationRow, denial.delegationRow]
      (buildAgentSlice sqliteWithoutDoubles (FullCodec.ofEmpty recursionLimit) (some twoDenials)) :=
  (cards_show_stored sqliteWithoutDoubles (FullCodec.ofEmpty recursionLimit) twoDenials
    asRead_twoDenials).1

end Store

end Genaryx.Core
