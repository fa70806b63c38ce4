import Genaryx.Base.Text
import Mathlib.Data.List.AList
import Mathlib.Data.Rat.Defs

/-!
# Operator blocks as policies in wardryx

A block writes one deny-all policy per affected agent under the entity's id prefix, and
an unblock lists wardryx and deletes every policy under that prefix. Wardryx is the map
from policy id to policy that its `PUT`, `GET` and `DELETE` routes serve.

## Implementation notes

Every request to wardryx may be refused. A plan gives the refusal of the `i`-th request
of one call, and a plan without refusals is the map that accepts everything.
-/

namespace Genaryx.Lifecycle

/-- The policy body that `PUT /v1/policies/{id}` takes; the two amounts are dollars. -/
structure Policy where
  name : Text := []
  target : Text
  denyTool : List Text := []
  allowDomains : List Text := []
  requireHumanAboveUsd : ℚ := 0
  denyAboveUsd : ℚ := 0
  maxSteps : Int := 0
  denyIfUnattested : Bool := false
  deriving DecidableEq

/-- The stored policies, at most one under each id. -/
abbrev Wardryx := AList fun _ : Text => Policy

/-- What the wardryx client reports for a refused request. -/
inductive WardryxError
  | api (status : Nat) (body : Text)
  | other (message : Text)
  deriving DecidableEq

/-- The error as the client displays it. -/
def WardryxError.display : WardryxError → Text
  | .api status body =>
      "wardryx returned HTTP " ++ Text.decimal status ++ ": ".toList ++ body
  | .other message => message

/-- The refusal of the `i`-th request of one call, if any. -/
abbrev Plan := Nat → Option WardryxError

/-- The plan of a wardryx that accepts every request. -/
def accepting : Plan := fun _ => none

@[simp] theorem accepting_apply (i : Nat) : accepting i = none := rfl

def idPrefix : Text := "console-block-"

/-- Policy ids are URL path segments, so every other character becomes a hyphen. -/
def sanitize (key : Text) : Text :=
  key.map fun c => if Text.isAsciiAlphanumeric c then c else '-'

/-- The id prefix that every policy of one blocked entity shares. -/
def blockPrefix (kind key : Text) : Text := idPrefix ++ kind ++ '-' :: sanitize key

def namePrefix : Text := "console-block:"

/-- The policy name that carries the exact entity back. -/
def blockName (kind key : Text) : Text := namePrefix ++ kind ++ ':' :: key

def parseBlockName (name : Text) : Option (Text × Text) :=
  match Text.stripPrefix namePrefix name with
  | none => none
  | some rest =>
      match Text.splitOnce ':' rest with
      | none => none
      | some (kind, key) => if kind.isEmpty || key.isEmpty then none else some (kind, key)

/-- A domain that no request can carry. -/
def blockDomainSentinel : Text := "console.blocked.invalid"

/-- The deny-all-work policy of one agent. -/
def denyAllPolicy (name target : Text) : Policy where
  name := name
  target := target
  denyAboveUsd := 1 / 1000
  maxSteps := 1
  denyIfUnattested := true
  allowDomains := [blockDomainSentinel]

/-- The id one member's policy is written under: the bare prefix for an agent block, and
one id per member under the prefix for a unit or a user block. -/
def policyId (kind key agent : Text) : Text :=
  if kind = "agent" then blockPrefix kind key
  else blockPrefix kind key ++ '-' :: '-' :: sanitize agent

/-- The write loop of `block`, with how many policies are written so far. -/
def writePolicies (plan : Plan) (kind key : Text) :
    Nat → List Text → Wardryx → Except Text Nat × Wardryx
  | written, [], w => (.ok written, w)
  | written, agent :: rest, w =>
      match plan written with
      | some e =>
          (.error ("wardryx refused the block policy for " ++ agent ++ ": ".toList ++ e.display),
            w)
      | none =>
          writePolicies plan kind key (written + 1) rest
            (w.insert (policyId kind key agent) (denyAllPolicy (blockName kind key) agent))

/-- Write one deny-all policy per agent, all under the entity's id prefix. -/
def block (plan : Plan) (kind key : Text) (agents : List Text) (w : Wardryx) :
    Except Text Nat × Wardryx :=
  if agents.isEmpty then
    (.error ("nothing to block: no agents resolved for this " ++ kind), w)
  else writePolicies plan kind key 0 agents w

/-- `DELETE /v1/policies/{id}`: a 404 when nothing is stored under the id. -/
def deletePolicy (refusal : Option WardryxError) (id : Text) (w : Wardryx) :
    Except WardryxError Wardryx :=
  match refusal with
  | some e => .error e
  | none => if id ∈ w then .ok (w.erase id) else .error (.api 404 "policy not found")

/-- The delete loop of `unblock` over the listed ids, with how many delete requests were
sent and how many policies are removed so far. -/
def removePolicies (plan : Plan) (pre : Text) :
    Nat → Nat → List Text → Wardryx → Except Text Nat × Wardryx
  | _, removed, [], w => (.ok removed, w)
  | sent, removed, id :: rest, w =>
      if Text.startsWith id pre then
        match deletePolicy (plan sent) id w with
        | .ok w' => removePolicies plan pre (sent + 1) (removed + 1) rest w'
        | .error (.api 404 _) => removePolicies plan pre (sent + 1) removed rest w
        | .error e =>
            (.error ("wardryx refused to remove " ++ id ++ ": ".toList ++ e.display), w)
      else removePolicies plan pre sent removed rest w

/-- Delete every policy under the entity's id prefix. The listing is the call's first
request. -/
def unblock (plan : Plan) (kind key : Text) (w : Wardryx) : Except Text Nat × Wardryx :=
  match plan 0 with
  | some e => (.error ("wardryx would not list policies to unblock: " ++ e.display), w)
  | none => removePolicies plan (blockPrefix kind key) 1 0 w.keys w

@[simp] theorem sanitize_nil : sanitize [] = [] := rfl

/-- The exact entity survives in the policy name, unless its kind holds a colon. -/
theorem parseBlockName_blockName (kind key : Text) (hkind : kind ≠ []) (hkey : key ≠ [])
    (hcolon : ':' ∉ kind) : parseBlockName (blockName kind key) = some (kind, key) := by
  rw [parseBlockName, blockName, List.append_assoc, Text.stripPrefix_append]
  have hempty : (kind.isEmpty || key.isEmpty) = false := by simp [hkind, hkey]
  simp only [Text.splitOnce_append ':' kind key hcolon, hempty, Bool.false_eq_true, if_false]

/-- Every policy of an entity stands under the entity's prefix. -/
theorem blockPrefix_prefix_policyId (kind key agent : Text) :
    blockPrefix kind key <+: policyId kind key agent := by
  unfold policyId
  split
  · exact List.prefix_refl _
  · exact List.prefix_append _ _

/-!
## Which policies an unblock removes

An unblock removes exactly the policies whose id starts with the entity's prefix, so it
is exact for a set of blocked entities when no other entity's policy id starts there.
-/

/-- What one successful block is called with. -/
structure Entity where
  kind : Text
  key : Text
  agents : List Text
  nonempty : agents ≠ []

/-- The two entities are the same one, whatever members each block resolved. -/
def Entity.Names (e : Entity) (kind key : Text) : Prop := e.kind = kind ∧ e.key = key

instance (e : Entity) (kind key : Text) : Decidable (e.Names kind key) :=
  inferInstanceAs (Decidable (_ ∧ _))

/-- The ids `block` writes for an entity. -/
def Entity.policyIds (e : Entity) : List Text := e.agents.map (policyId e.kind e.key)

/-- Wardryx after blocking the entities in order. -/
def blockAll (w : Wardryx) : List Entity → Wardryx
  | [] => w
  | e :: rest => blockAll (block accepting e.kind e.key e.agents w).2 rest

/-- Unblocking `(kind, key)` removes all its policies and none of another entity's. -/
def UnblockExact (w : Wardryx) (blocked : List Entity) (kind key : Text) : Prop :=
  let before := blockAll w blocked
  let after := (unblock accepting kind key before).2
  (∀ e ∈ blocked, e.Names kind key → ∀ id ∈ e.policyIds, id ∉ after) ∧
  (∀ e ∈ blocked, ¬ e.Names kind key → ∀ id ∈ e.policyIds,
    id ∈ after ∧ after.lookup id = before.lookup id)

theorem mem_writePolicies (kind key id : Text) (agents : List Text) (written : Nat)
    (w : Wardryx) : id ∈ (writePolicies accepting kind key written agents w).2 ↔
      id ∈ w ∨ id ∈ agents.map (policyId kind key) := by
  induction agents generalizing written w with
  | nil => simp [writePolicies]
  | cons agent rest ih =>
      simp only [writePolicies, accepting_apply, List.map_cons, List.mem_cons]
      rw [ih, AList.mem_insert]
      tauto

/-- Every write of an accepting wardryx succeeds and is counted. -/
theorem writePolicies_ok (kind key : Text) (agents : List Text) (written : Nat)
    (w : Wardryx) : (writePolicies accepting kind key written agents w).1 =
      .ok (written + agents.length) := by
  induction agents generalizing written w with
  | nil => rfl
  | cons agent rest ih =>
      simp only [writePolicies, accepting_apply, List.length_cons]
      rw [ih]
      congr 1
      omega

/-- A block of a nonempty membership returns how many policies it wrote. -/
theorem block_ok (e : Entity) (w : Wardryx) :
    (block accepting e.kind e.key e.agents w).1 = .ok e.agents.length := by
  simp [block, e.nonempty, writePolicies_ok]

theorem mem_block (e : Entity) (w : Wardryx) (id : Text) :
    id ∈ (block accepting e.kind e.key e.agents w).2 ↔ id ∈ w ∨ id ∈ e.policyIds := by
  simp only [block, List.isEmpty_iff, e.nonempty, if_false]
  exact mem_writePolicies e.kind e.key id e.agents 0 w

/-- Blocking only adds ids: those of the blocked entities. -/
theorem mem_blockAll (blocked : List Entity) (w : Wardryx) (id : Text) :
    id ∈ blockAll w blocked ↔ id ∈ w ∨ ∃ e ∈ blocked, id ∈ e.policyIds := by
  induction blocked generalizing w with
  | nil => simp [blockAll]
  | cons e rest ih =>
      rw [blockAll, ih, mem_block]
      simp only [List.mem_cons, exists_eq_or_imp]
      tauto

/-- The delete loop empties exactly the listed ids under the prefix. -/
theorem lookup_removePolicies (pre id : Text) (ids : List Text) (sent removed : Nat)
    (w : Wardryx) : (removePolicies accepting pre sent removed ids w).2.lookup id =
      if id ∈ ids ∧ pre <+: id then none else w.lookup id := by
  induction ids generalizing sent removed w with
  | nil => simp [removePolicies]
  | cons listed rest ih =>
      simp only [removePolicies, deletePolicy, accepting_apply, Text.startsWith_iff]
      by_cases hpre : pre <+: listed
      · by_cases hmem : listed ∈ w
        · simp only [hpre, hmem, if_true, ih]
          by_cases hid : id = listed
          · subst hid
            simp [hpre]
          · simp [hid, AList.lookup_erase_ne hid]
        · simp only [hpre, hmem, if_true, if_false, ih]
          by_cases hid : id = listed
          · subst hid
            simp [hpre, AList.lookup_eq_none.mpr hmem]
          · simp [hid]
      · simp only [hpre, if_false, ih]
        by_cases hid : id = listed
        · subst hid
          simp [hpre]
        · simp [hid]

/-- After an unblock the ids under the prefix are gone and every other id is as it was. -/
theorem lookup_unblock (kind key id : Text) (w : Wardryx) :
    (unblock accepting kind key w).2.lookup id =
      if blockPrefix kind key <+: id then none else w.lookup id := by
  have h := lookup_removePolicies (blockPrefix kind key) id w.keys 1 0 w
  simp only [unblock, accepting_apply, h]
  by_cases hpre : blockPrefix kind key <+: id
  · by_cases hid : id ∈ w.keys
    · simp [hpre, hid]
    · simp [hid, AList.lookup_eq_none.mpr (mt AList.mem_keys.mp hid)]
  · simp [hpre]

theorem mem_unblock (kind key id : Text) (w : Wardryx) :
    id ∈ (unblock accepting kind key w).2 ↔ id ∈ w ∧ ¬ blockPrefix kind key <+: id := by
  rw [← AList.lookup_isSome, lookup_unblock, ← AList.lookup_isSome]
  by_cases hpre : blockPrefix kind key <+: id <;> simp [hpre]

theorem prefix_of_mem_policyIds {e : Entity} {kind key id : Text} (h : e.Names kind key)
    (hid : id ∈ e.policyIds) : blockPrefix kind key <+: id := by
  obtain ⟨rfl, rfl⟩ := h
  obtain ⟨agent, _, rfl⟩ := List.mem_map.mp hid
  exact blockPrefix_prefix_policyId e.kind e.key agent

/-- The kinds that the console's three block commands pass. -/
def consoleKinds : List Text := ["agent", "unit", "user"]

/-- Between the console's own kinds, one prefix starts an id only inside one kind, and
there exactly when the sanitized keys start one another. -/
theorem blockPrefix_prefix_iff {kind kind' : Text} (hkind : kind ∈ consoleKinds)
    (hkind' : kind' ∈ consoleKinds) (key key' tail : Text) :
    blockPrefix kind key <+: blockPrefix kind' key' ++ tail ↔
      kind = kind' ∧ sanitize key <+: sanitize key' ++ tail := by
  simp only [blockPrefix, List.append_assoc, List.prefix_append_right_inj]
  simp only [consoleKinds, List.mem_cons, List.not_mem_nil, or_false] at hkind hkind'
  rcases hkind with rfl | rfl | rfl <;> rcases hkind' with rfl | rfl | rfl <;> simp

/-- An unblock is exact exactly when no policy id of another blocked entity starts with
the unblocked entity's prefix. -/
theorem unblockExact_iff (w : Wardryx) (blocked : List Entity) (kind key : Text) :
    UnblockExact w blocked kind key ↔
      ∀ e ∈ blocked, ¬ e.Names kind key →
        ∀ id ∈ e.policyIds, ¬ blockPrefix kind key <+: id := by
  constructor
  · rintro ⟨_, hkept⟩ e he hother id hid
    exact ((mem_unblock kind key id _).mp (hkept e he hother id hid).1).2
  · intro hclear
    refine ⟨fun e _ hsame id hid hafter => ?_, fun e he hother id hid => ?_⟩
    · exact ((mem_unblock kind key id _).mp hafter).2 (prefix_of_mem_policyIds hsame hid)
    · have hpre := hclear e he hother id hid
      have hbefore : id ∈ blockAll w blocked :=
        (mem_blockAll blocked w id).mpr (Or.inr ⟨e, he, hid⟩)
      exact ⟨(mem_unblock kind key id _).mpr ⟨hbefore, hpre⟩, by
        rw [lookup_unblock, if_neg hpre]⟩

/-- Freezing `bot` and `bot2` and then unfreezing `bot` leaves `bot2` without its policy. -/
theorem unblock_removes_longer_key :
    ¬ UnblockExact ∅
      [⟨"agent", "agent://acme/pay/bot", ["agent://acme/pay/bot"], by decide⟩,
        ⟨"agent", "agent://acme/pay/bot2", ["agent://acme/pay/bot2"], by decide⟩]
      "agent" "agent://acme/pay/bot" := by
  unfold UnblockExact
  decide

end Genaryx.Lifecycle
