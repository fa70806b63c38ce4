import Genaryx.Core.Attribution
import Genaryx.Core.Store
import Mathlib.Data.Finmap

/-!
# The delegation graph

Who acted on whose behalf, folded from the bus. Every event makes nodes of its subject and of
its chain and an edge of each step of the chain. An event counts for its subject unless one
with the same natural key was counted before.

## Implementation notes

The ordered maps and sets of the program are `Finmap` and `Finset` here: nothing below
depends on the order in which they are listed.
-/

namespace Genaryx.Core

open Json

variable {F : Type}

/-- What kind of principal a node is. -/
inductive NodeKind
  | user
  | agent
  | other
  deriving DecidableEq

def NodeKind.of (id : Text) : NodeKind :=
  match (Text.splitOnceAt "://" id).map Prod.fst with
  | some scheme =>
      if scheme = "user" then .user else if scheme = "agent" then .agent else .other
  | none => .other

@[ext]
structure GraphNode where
  id : Text
  kind : NodeKind
  eventCount : Nat
  lastTs : Text
  deriving DecidableEq

/-- The natural key that identifies one event. -/
structure EventKey where
  agentId : Text
  ts : Text
  source : Text
  eventType : Text
  runId : Text
  deriving DecidableEq

structure DelegationGraph where
  nodes : Finmap (fun _ : Text => GraphNode) := ∅
  edges : Finset (Text × Text) := ∅
  seen : Finset EventKey := ∅

/-- The columns of an event that the graph is built from. -/
structure DelegationRow where
  agentId : Text
  onBehalfOf : List Text
  ts : Text
  source : Text
  eventType : Text
  runId : Option Text
  deriving DecidableEq

def DelegationRow.key (row : DelegationRow) : EventKey where
  agentId := row.agentId
  ts := row.ts
  source := row.source
  eventType := row.eventType
  runId := row.runId.getD []

/-- A node that never acted. -/
def GraphNode.fresh (id : Text) : GraphNode := ⟨id, NodeKind.of id, 0, []⟩

/-- The node after one more event of it. -/
def GraphNode.counted (node : GraphNode) (ts : Text) : GraphNode :=
  { node with
    eventCount := node.eventCount + 1
    lastTs := if node.lastTs < ts then ts else node.lastTs }

namespace DelegationGraph

/-- The node of this name, or the one that would be made for it. -/
def nodeAt (g : DelegationGraph) (id : Text) : GraphNode :=
  (g.nodes.lookup id).getD (GraphNode.fresh id)

def ensureNode (id : Text) (g : DelegationGraph) : DelegationGraph :=
  { g with nodes := g.nodes.insert id (g.nodeAt id) }

def countEvent (id ts : Text) (g : DelegationGraph) : DelegationGraph :=
  { g with nodes := g.nodes.insert id ((g.nodeAt id).counted ts) }

def addEdge (source target : Text) (g : DelegationGraph) : DelegationGraph :=
  if source ≠ target then { g with edges := insert (source, target) g.edges } else g

/-- An edge from the principal before, if there was one. -/
def linkFrom (prev : Option Text) (target : Text) (g : DelegationGraph) : DelegationGraph :=
  match prev with
  | some p => g.addEdge p target
  | none => g

/-- The loop over the chain, with the last principal that it met. -/
def walkChain : Option Text → List Text → DelegationGraph → Option Text × DelegationGraph
  | prev, [], g => (prev, g)
  | prev, item :: rest, g =>
      if item = [] then walkChain prev rest g
      else walkChain (some item) rest ((g.ensureNode item).linkFrom prev item)

/-- The subject of an event is always a node, and counts on a first sighting. -/
def noteActor (newly : Bool) (agentId ts : Text) (g : DelegationGraph) : DelegationGraph :=
  if agentId = [] then g
  else if newly then (g.ensureNode agentId).countEvent agentId ts
  else g.ensureNode agentId

/-- Fold one event into the graph, and whether it was counted. -/
def ingest (agentId : Text) (chain : List Text) (key : EventKey) (ts : Text)
    (g : DelegationGraph) : Bool × DelegationGraph :=
  let newly := decide (key ∉ g.seen)
  let walked :=
    walkChain none chain ({ g with seen := insert key g.seen }.noteActor newly agentId ts)
  (newly, if agentId = [] then walked.2 else walked.2.linkFrom walked.1 agentId)

/-- Fold the columns of one stored event into the graph. -/
def ingestRow (g : DelegationGraph) (row : DelegationRow) : DelegationGraph :=
  (g.ingest row.agentId row.onBehalfOf row.key row.ts).2

end DelegationGraph

/-- The columns that the graph reads of an event, with the subject it is filed under. -/
def AgentEvent.delegationRow (event : AgentEvent F) : DelegationRow where
  agentId := filedUnder event.eventType event.agentId event.data
  onBehalfOf := event.onBehalfOf
  ts := event.ts
  source := event.source
  eventType := event.eventType
  runId := event.runId

/-- Fold one event of the bus into the graph, and whether it was counted. -/
def DelegationGraph.addEvent (event : AgentEvent F) (g : DelegationGraph) :
    Bool × DelegationGraph :=
  let actor := filedUnder event.eventType event.agentId event.data
  let key : EventKey :=
    ⟨actor, event.ts, event.source, event.eventType, event.runId.getD []⟩
  g.ingest actor event.onBehalfOf key event.ts

section Store

variable [DecidableEq F] (S : Sqlite F) (C : FullCodec F recursionLimit)

/-- The `on_behalf_of` column of a stored event: NULL for an empty chain. -/
def onBehalfOfColumn (chain : List Text) : Option Text :=
  if chain.isEmpty then none else some (C.toText (.array (chain.map .string)))

/-- `serde_json::from_str` for a list of strings. -/
def textsOf (text : Text) : Option (List Text) :=
  match C.reader.fromStr text with
  | some (.array items) => items.mapM Value.asStr
  | _ => none

/-- The chain that an `on_behalf_of` column holds. -/
def chainOf : Option Text → Option (List Text)
  | none => some []
  | some text => textsOf C text

/-- One row of `delegation_events`, if its columns can be read. -/
def delegationRowOf (e : ConsoleEvent F) : Option DelegationRow :=
  match filedUnderSql S e.event.eventType e.event.agentId (dataColumn C e.event.data),
    chainOf C (onBehalfOfColumn C e.event.onBehalfOf) with
  | .text agentId, some chain =>
      some ⟨agentId, chain, e.event.ts, e.event.source, e.event.eventType, e.event.runId⟩
  | _, _ => none

/-- The delegation columns of every stored event, oldest first. -/
def Store.delegationEvents (s : Store F) : Option (List DelegationRow) :=
  s.events.mapM (delegationRowOf S C)

/-- The graph of every stored event. -/
def DelegationGraph.fromStore (s : Store F) : Option DelegationGraph :=
  (s.delegationEvents S C).map fun rows => rows.foldl ingestRow {}

end Store

/-- The principals of a row in order: its chain, then its subject. -/
def DelegationRow.path (row : DelegationRow) : List Text :=
  (row.onBehalfOf ++ [row.agentId]).filter fun id => !id.isEmpty

/-- The row steps down its chain from one principal to another. -/
def DelegationRow.Delegates (row : DelegationRow) (source target : Text) : Prop :=
  source ≠ target ∧ [source, target] <:+: row.path

/-- The latest time at which a subject was seen acting, in the order of texts. -/
def Latest (seen : Finset EventKey) (id ts : Text) : Prop :=
  (ts = [] ∨ ∃ key ∈ seen, key.agentId = id ∧ key.ts = ts) ∧
    ∀ key ∈ seen, key.agentId = id → key.ts ≤ ts

/-- The graph is the one of these rows. -/
structure Shows (rows : List DelegationRow) (g : DelegationGraph) : Prop where
  nodes : ∀ id, id ∈ g.nodes ↔ ∃ row ∈ rows, id ∈ row.path
  edges : ∀ source target, (source, target) ∈ g.edges ↔ ∃ row ∈ rows, row.Delegates source target
  seen : ∀ key, key ∈ g.seen ↔ ∃ row ∈ rows, row.key = key
  id : ∀ id, (g.nodeAt id).id = id
  kind : ∀ id, (g.nodeAt id).kind = NodeKind.of id
  counts : ∀ id, id ≠ [] →
    (g.nodeAt id).eventCount = (g.seen.filter fun key => key.agentId = id).card
  latest : ∀ id, id ≠ [] → Latest g.seen id (g.nodeAt id).lastTs

theorem Latest.unique {seen : Finset EventKey} {id ts ts' : Text} (h : Latest seen id ts)
    (h' : Latest seen id ts') : ts = ts' := by
  have hle : ∀ {a b : Text}, Latest seen id a → Latest seen id b → a ≤ b := by
    intro a b ha hb
    rcases ha.1 with rfl | ⟨key, hkey, hid, rfl⟩
    · exact le_of_not_gt fun hlt => nomatch hlt
    · exact hb.2 key hkey hid
  exact le_antisymm (hle h h') (hle h' h)

namespace DelegationGraph

variable (g : DelegationGraph)

theorem lookup_nodes (id : Text) :
    g.nodes.lookup id = if id ∈ g.nodes then some (g.nodeAt id) else none := by
  split
  · next hmem =>
      obtain ⟨node, hnode⟩ := Finmap.mem_iff.mp hmem
      rw [nodeAt, hnode, Option.getD_some]
  · next hmem => exact Finmap.lookup_eq_none.mpr hmem

theorem ext {g g' : DelegationGraph} (hnodes : ∀ id, id ∈ g.nodes ↔ id ∈ g'.nodes)
    (hnode : ∀ id ∈ g.nodes, g.nodeAt id = g'.nodeAt id) (hedges : g.edges = g'.edges)
    (hseen : g.seen = g'.seen) : g = g' := by
  have hlookup : g.nodes = g'.nodes := by
    apply Finmap.ext_lookup
    intro id
    rw [lookup_nodes, lookup_nodes]
    by_cases hmem : id ∈ g.nodes
    · rw [if_pos hmem, if_pos ((hnodes id).mp hmem), hnode id hmem]
    · rw [if_neg hmem, if_neg fun h => hmem ((hnodes id).mpr h)]
  cases g
  cases g'
  simp_all

end DelegationGraph

/-- One list of rows has one graph, whatever their order and however often each of them
occurs. -/
theorem Shows.unique {rows rows' : List DelegationRow} {g g' : DelegationGraph}
    (h : Shows rows g) (h' : Shows rows' g') (hrows : ∀ row, row ∈ rows ↔ row ∈ rows') :
    g = g' := by
  have hseen : g.seen = g'.seen := by
    ext key
    simp only [h.seen, h'.seen, hrows]
  apply DelegationGraph.ext
  · intro id
    simp only [h.nodes, h'.nodes, hrows]
  · intro id hid
    have hne : id ≠ [] := by
      obtain ⟨row, -, hpath⟩ := (h.nodes id).mp hid
      simpa using (List.mem_filter.mp hpath).2
    have hcount : (g.nodeAt id).eventCount = (g'.nodeAt id).eventCount := by
      rw [h.counts id hne, h'.counts id hne, hseen]
    have hlatest : (g.nodeAt id).lastTs = (g'.nodeAt id).lastTs :=
      (h.latest id hne).unique (hseen ▸ h'.latest id hne)
    apply GraphNode.ext
    · rw [h.id, h'.id]
    · rw [h.kind, h'.kind]
    · exact hcount
    · exact hlatest
  · ext ⟨source, target⟩
    simp only [h.edges, h'.edges, hrows]
  · exact hseen

end Genaryx.Core
