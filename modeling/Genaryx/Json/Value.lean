import Genaryx.Base.Text
import Mathlib.Data.Char
import Mathlib.Data.List.Lex
import Mathlib.Data.List.Nodup

/-!
# JSON values

A JSON value with three kinds of number, and objects as lists of members in key order. The
doubles are a parameter.
-/

namespace Genaryx.Json

variable {F : Type}

/-- A number: an integer that fits `u64`, a negative integer that fits `i64`, or any other
number as a double. -/
inductive Number (F : Type)
  | posInt (n : Nat) (fits : n < 2 ^ 64)
  | negInt (m : Nat) (fits : 0 < m ∧ m ≤ 2 ^ 63)
  | float (x : F)
  deriving DecidableEq

inductive Value (F : Type)
  | null
  | bool (b : Bool)
  | number (n : Number F)
  | string (s : Text)
  | array (items : List (Value F))
  | object (members : List (Text × Value F))

namespace Value

/-- `Value::get` with a string index. -/
def get (v : Value F) (key : Text) : Option (Value F) :=
  match v with
  | object members => members.lookup key
  | _ => none

/-- `Value::as_str`. -/
def asStr : Value F → Option Text
  | string s => some s
  | _ => none

/-- `Map::remove`: an object without the member of a name. -/
def remove (v : Value F) (key : Text) : Value F :=
  match v with
  | object members => object (members.filter fun m => m.1 ≠ key)
  | v => v

/-- An unsigned number as JSON. -/
def ofU64 (n : UInt64) : Value F := number (.posInt n.toNat n.toNat_lt)

/-- A signed number as JSON. -/
def ofI64 (n : Int64) : Value F :=
  if h : 0 ≤ n.toInt then number (.posInt n.toInt.toNat (by have := n.toInt_lt; omega))
  else number (.negInt (-n.toInt).toNat (by have := n.le_toInt; omega))

/-- `Value::as_i64`. -/
def asI64 : Value F → Option Int64
  | number (.posInt n _) => if n < 2 ^ 63 then some (Int64.ofNat n) else none
  | number (.negInt m _) => some (Int64.ofInt (-m))
  | _ => none

/-- A signed number is read back. -/
theorem asI64_ofI64 (n : Int64) : (ofI64 n : Value F).asI64 = some n := by
  have hlt := n.toInt_lt
  unfold ofI64
  split
  · next h =>
      have hnat : n.toInt.toNat < 2 ^ 63 := by omega
      rw [asI64, if_pos hnat, ← Int64.ofInt_eq_ofNat, Int.toNat_of_nonneg h, Int64.ofInt_toInt]
  · next h =>
      have hneg : -((-n.toInt).toNat : Int) = n.toInt := by omega
      rw [asI64, hneg, Int64.ofInt_toInt]

/-- `Value::as_array`. -/
def asArray : Value F → Option (List (Value F))
  | array items => some items
  | _ => none

mutual

/-- How deep arrays and objects nest. -/
def depth : Value F → Nat
  | array items => itemsDepth items + 1
  | object members => membersDepth members + 1
  | _ => 0

def itemsDepth : List (Value F) → Nat
  | [] => 0
  | v :: vs => max v.depth (itemsDepth vs)

def membersDepth : List (Text × Value F) → Nat
  | [] => 0
  | m :: ms => max m.2.depth (membersDepth ms)

end

mutual

/-- Every object has its members in strict key order, as a `BTreeMap` holds them. -/
def Ordered : Value F → Prop
  | array items => ItemsOrdered items
  | object members => (members.map Prod.fst).Pairwise (· < ·) ∧ MembersOrdered members
  | _ => True

def ItemsOrdered : List (Value F) → Prop
  | [] => True
  | v :: vs => v.Ordered ∧ ItemsOrdered vs

def MembersOrdered : List (Text × Value F) → Prop
  | [] => True
  | m :: ms => m.2.Ordered ∧ MembersOrdered ms

end

mutual

/-- The value with every number changed. -/
def mapNumbers (f : Number F → Number F) : Value F → Value F
  | number n => number (f n)
  | array items => array (mapItems f items)
  | object members => object (mapMembers f members)
  | null => null
  | bool b => bool b
  | string s => string s

def mapItems (f : Number F → Number F) : List (Value F) → List (Value F)
  | [] => []
  | v :: vs => v.mapNumbers f :: mapItems f vs

def mapMembers (f : Number F → Number F) : List (Text × Value F) → List (Text × Value F)
  | [] => []
  | m :: ms => (m.1, m.2.mapNumbers f) :: mapMembers f ms

end

mutual

/-- Every number of the value meets the condition. -/
def AllNumbers (p : Number F → Prop) : Value F → Prop
  | number n => p n
  | array items => AllItems p items
  | object members => AllMembers p members
  | _ => True

def AllItems (p : Number F → Prop) : List (Value F) → Prop
  | [] => True
  | v :: vs => v.AllNumbers p ∧ AllItems p vs

def AllMembers (p : Number F → Prop) : List (Text × Value F) → Prop
  | [] => True
  | m :: ms => m.2.AllNumbers p ∧ AllMembers p ms

end

/-- A list of strings is in order, flat and without numbers. -/
theorem strings_plain (texts : List Text) :
    ItemsOrdered (texts.map string : List (Value F)) ∧
      itemsDepth (texts.map string : List (Value F)) = 0 ∧
      ∀ f, mapItems f (texts.map string : List (Value F)) = texts.map string := by
  induction texts with
  | nil => exact ⟨trivial, rfl, fun _ => rfl⟩
  | cons text rest ih =>
      refine ⟨⟨trivial, ih.1⟩, ?_, fun f => ?_⟩
      · rw [List.map_cons, itemsDepth, ih.2.1]
        rfl
      · rw [List.map_cons, mapItems, ih.2.2]
        rfl

theorem mapM_asStr_strings (texts : List Text) :
    (texts.map string : List (Value F)).mapM asStr = some texts := by
  induction texts with
  | nil => rfl
  | cons text rest ih => simp [ih, asStr]

theorem membersOrdered_iff {members : List (Text × Value F)} :
    MembersOrdered members ↔ ∀ m ∈ members, m.2.Ordered := by
  induction members with
  | nil => exact iff_of_true trivial (by simp)
  | cons m ms ih => rw [MembersOrdered, ih, List.forall_mem_cons]

theorem itemsOrdered_iff {items : List (Value F)} :
    ItemsOrdered items ↔ ∀ v ∈ items, v.Ordered := by
  induction items with
  | nil => exact iff_of_true trivial (by simp)
  | cons v vs ih => rw [ItemsOrdered, ih, List.forall_mem_cons]

theorem itemsDepth_le_iff {items : List (Value F)} {n : Nat} :
    itemsDepth items ≤ n ↔ ∀ v ∈ items, v.depth ≤ n := by
  induction items with
  | nil => exact iff_of_true (Nat.zero_le n) (by simp)
  | cons v vs ih => rw [itemsDepth, Nat.max_le, ih, List.forall_mem_cons]

theorem allMembers_iff {p : Number F → Prop} {members : List (Text × Value F)} :
    AllMembers p members ↔ ∀ m ∈ members, m.2.AllNumbers p := by
  induction members with
  | nil => exact iff_of_true trivial (by simp)
  | cons m ms ih => rw [AllMembers, ih, List.forall_mem_cons]

theorem membersDepth_le_iff {members : List (Text × Value F)} {n : Nat} :
    membersDepth members ≤ n ↔ ∀ m ∈ members, m.2.depth ≤ n := by
  induction members with
  | nil => exact iff_of_true (Nat.zero_le n) (by simp)
  | cons m ms ih => rw [membersDepth, Nat.max_le, ih, List.forall_mem_cons]

section MapNumbers

variable (f : Number F → Number F)

mutual

theorem depth_mapNumbers (v : Value F) : (v.mapNumbers f).depth = v.depth := by
  cases v with
  | array items => rw [mapNumbers, depth, depth, itemsDepth_mapItems items]
  | object members => rw [mapNumbers, depth, depth, membersDepth_mapMembers members]
  | _ => rfl

theorem itemsDepth_mapItems (items : List (Value F)) :
    itemsDepth (mapItems f items) = itemsDepth items := by
  cases items with
  | nil => rfl
  | cons v vs =>
      rw [mapItems, itemsDepth, itemsDepth, depth_mapNumbers v, itemsDepth_mapItems vs]

theorem membersDepth_mapMembers (members : List (Text × Value F)) :
    membersDepth (mapMembers f members) = membersDepth members := by
  cases members with
  | nil => rfl
  | cons m ms =>
      rw [mapMembers, membersDepth, membersDepth, depth_mapNumbers m.2, membersDepth_mapMembers ms]

end

theorem map_fst_mapMembers (members : List (Text × Value F)) :
    (mapMembers f members).map Prod.fst = members.map Prod.fst := by
  induction members with
  | nil => rfl
  | cons m ms ih => rw [mapMembers, List.map_cons, List.map_cons, ih]

theorem lookup_mapMembers (key : Text) (members : List (Text × Value F)) :
    (mapMembers f members).lookup key = (members.lookup key).map (mapNumbers f) := by
  induction members with
  | nil => rfl
  | cons m ms ih =>
      rw [mapMembers, List.lookup_cons, List.lookup_cons, ih]
      cases key == m.1 <;> rfl

theorem get_mapNumbers (v : Value F) (key : Text) :
    (v.mapNumbers f).get key = (v.get key).map (mapNumbers f) := by
  cases v with
  | object members => exact lookup_mapMembers f key members
  | _ => rfl

theorem asStr_mapNumbers (v : Value F) : (v.mapNumbers f).asStr = v.asStr := by
  cases v <;> rfl

end MapNumbers

mutual

theorem mapNumbers_id (v : Value F) : v.mapNumbers id = v := by
  cases v with
  | array items => rw [mapNumbers, mapItems_id items]
  | object members => rw [mapNumbers, mapMembers_id members]
  | _ => rfl

theorem mapItems_id (items : List (Value F)) : mapItems id items = items := by
  cases items with
  | nil => rfl
  | cons v vs => rw [mapItems, mapNumbers_id v, mapItems_id vs]

theorem mapMembers_id (members : List (Text × Value F)) : mapMembers id members = members := by
  cases members with
  | nil => rfl
  | cons m ms => rw [mapMembers, mapNumbers_id m.2, mapMembers_id ms]

end

section Compose

variable (f g : Number F → Number F)

mutual

theorem mapNumbers_mapNumbers (v : Value F) :
    (v.mapNumbers g).mapNumbers f = v.mapNumbers (f ∘ g) := by
  cases v with
  | array items => rw [mapNumbers, mapNumbers, mapNumbers, mapItems_mapItems items]
  | object members => rw [mapNumbers, mapNumbers, mapNumbers, mapMembers_mapMembers members]
  | _ => rfl

theorem mapItems_mapItems (items : List (Value F)) :
    mapItems f (mapItems g items) = mapItems (f ∘ g) items := by
  cases items with
  | nil => rfl
  | cons v vs => rw [mapItems, mapItems, mapItems, mapNumbers_mapNumbers v, mapItems_mapItems vs]

theorem mapMembers_mapMembers (members : List (Text × Value F)) :
    mapMembers f (mapMembers g members) = mapMembers (f ∘ g) members := by
  cases members with
  | nil => rfl
  | cons m ms =>
      rw [mapMembers, mapMembers, mapMembers, mapNumbers_mapNumbers m.2, mapMembers_mapMembers ms]

end

end Compose

section AllNumbers

variable {p : Number F → Prop}

mutual

theorem allNumbers_of_forall (h : ∀ n, p n) (v : Value F) : v.AllNumbers p := by
  cases v with
  | number n => exact h n
  | array items => exact allItems_of_forall h items
  | object members => exact allMembers_of_forall h members
  | _ => trivial

theorem allItems_of_forall (h : ∀ n, p n) (items : List (Value F)) : AllItems p items := by
  cases items with
  | nil => trivial
  | cons v vs => exact ⟨allNumbers_of_forall h v, allItems_of_forall h vs⟩

theorem allMembers_of_forall (h : ∀ n, p n) (members : List (Text × Value F)) :
    AllMembers p members := by
  cases members with
  | nil => trivial
  | cons m ms => exact ⟨allNumbers_of_forall h m.2, allMembers_of_forall h ms⟩

end

end AllNumbers

end Value

/-- `BTreeMap::insert`: put a member at its place, over one with the same key. -/
def insertMember (key : Text) (value : Value F) :
    List (Text × Value F) → List (Text × Value F)
  | [] => [(key, value)]
  | m :: ms =>
      if key < m.1 then (key, value) :: m :: ms
      else if key = m.1 then (key, value) :: ms
      else m :: insertMember key value ms

/-- The members of an object read one after another. -/
def ofMembers (members : List (Text × Value F)) : List (Text × Value F) :=
  members.foldl (fun ms m => insertMember m.1 m.2 ms) []

theorem mem_of_mem_insertMember {key : Text} {value : Value F} {ms : List (Text × Value F)}
    {a : Text × Value F} (h : a ∈ insertMember key value ms) : a = (key, value) ∨ a ∈ ms := by
  induction ms with
  | nil => exact Or.inl (List.mem_singleton.mp h)
  | cons m ms ih =>
      rw [insertMember] at h
      split at h
      · exact List.mem_cons.mp h
      · split at h
        · exact (List.mem_cons.mp h).imp_right (List.mem_cons_of_mem m)
        · rcases List.mem_cons.mp h with rfl | h
          · exact Or.inr List.mem_cons_self
          · exact (ih h).imp_right (List.mem_cons_of_mem m)

theorem insertMember_pairwise {key : Text} {value : Value F} {ms : List (Text × Value F)}
    (h : ms.Pairwise fun a b => a.1 < b.1) :
    (insertMember key value ms).Pairwise fun a b => a.1 < b.1 := by
  induction ms with
  | nil => exact List.pairwise_singleton _ _
  | cons m ms ih =>
      obtain ⟨hm, hms⟩ := List.pairwise_cons.mp h
      rw [insertMember]
      split
      · next hlt =>
          refine List.pairwise_cons.mpr ⟨fun a ha => ?_, h⟩
          rcases List.mem_cons.mp ha with rfl | ha
          · exact hlt
          · exact lt_trans hlt (hm a ha)
      · next hge =>
          split
          · next heq =>
              exact List.pairwise_cons.mpr ⟨fun a ha => lt_of_eq_of_lt heq (hm a ha), hms⟩
          · next hne =>
              refine List.pairwise_cons.mpr ⟨fun a ha => ?_, ih hms⟩
              rcases mem_of_mem_insertMember ha with rfl | ha
              · exact lt_of_le_of_ne (not_lt.mp hge) (Ne.symm hne)
              · exact hm a ha

theorem lookup_cons_eq_ite (key : Text) (value : Value F) (ms : List (Text × Value F))
    (name : Text) :
    ((key, value) :: ms).lookup name = if name = key then some value else ms.lookup name := by
  rw [List.lookup_cons]
  by_cases h : name = key
  · rw [if_pos h, beq_iff_eq.mpr h]
  · rw [if_neg h, beq_eq_false_iff_ne.mpr h]

theorem lookup_insertMember (key : Text) (value : Value F) (ms : List (Text × Value F))
    (name : Text) :
    (insertMember key value ms).lookup name =
      if name = key then some value else ms.lookup name := by
  induction ms with
  | nil => exact lookup_cons_eq_ite key value [] name
  | cons m ms ih =>
      obtain ⟨k, v⟩ := m
      rw [insertMember]
      split
      · exact lookup_cons_eq_ite key value _ name
      · split
        · next heq =>
            have heq : key = k := heq
            rw [lookup_cons_eq_ite, lookup_cons_eq_ite, ← heq]
            by_cases h : name = key
            · rw [if_pos h, if_pos h]
            · rw [if_neg h, if_neg h, if_neg h]
        · next hne =>
            have hne : ¬ key = k := hne
            rw [lookup_cons_eq_ite, lookup_cons_eq_ite, ih]
            by_cases h : name = k
            · rw [if_pos h, if_pos h, if_neg fun hkey => hne (hkey.symm.trans h)]
            · rw [if_neg h, if_neg h]

theorem mem_of_mem_ofMembers {ms : List (Text × Value F)} {a : Text × Value F}
    (h : a ∈ ofMembers ms) : a ∈ ms := by
  have hread : ∀ (todo done : List (Text × Value F)),
      a ∈ todo.foldl (fun ms m => insertMember m.1 m.2 ms) done → a ∈ done ∨ a ∈ todo := by
    intro todo
    induction todo with
    | nil => exact fun done h => Or.inl h
    | cons m todo ih =>
        intro done h
        rcases ih _ h with h | h
        · rcases mem_of_mem_insertMember h with rfl | h
          · exact Or.inr List.mem_cons_self
          · exact Or.inl h
        · exact Or.inr (List.mem_cons_of_mem m h)
  exact (hread ms [] h).resolve_left List.not_mem_nil

theorem lookup_ofMembers_of_notMem {ms : List (Text × Value F)} {name : Text}
    (h : ∀ m ∈ ms, m.1 ≠ name) : (ofMembers ms).lookup name = none :=
  List.lookup_eq_none_iff.mpr fun m hm =>
    bne_iff_ne.mpr (h m (mem_of_mem_ofMembers hm)).symm

theorem ofMembers_pairwise (ms : List (Text × Value F)) :
    ((ofMembers ms).map Prod.fst).Pairwise (· < ·) := by
  have hread : ∀ (todo done : List (Text × Value F)), done.Pairwise (fun a b => a.1 < b.1) →
      (todo.foldl (fun ms m => insertMember m.1 m.2 ms) done).Pairwise fun a b => a.1 < b.1 := by
    intro todo
    induction todo with
    | nil => exact fun done h => h
    | cons m todo ih => exact fun done h => ih _ (insertMember_pairwise h)
  exact List.pairwise_map.mpr (hread ms [] List.Pairwise.nil)

/-- The last member of a name is the one that an object keeps. -/
theorem lookup_ofMembers_append (ms : List (Text × Value F)) (m : Text × Value F)
    (name : Text) :
    (ofMembers (ms ++ [m])).lookup name =
      if name = m.1 then some m.2 else (ofMembers ms).lookup name := by
  rw [ofMembers, List.foldl_append, List.foldl_cons, List.foldl_nil, lookup_insertMember]
  rfl

theorem lookup_ofMembers_concat (ms : List (Text × Value F)) (name : Text) (value : Value F) :
    (ofMembers (ms ++ [(name, value)])).lookup name = some value := by
  rw [lookup_ofMembers_append, if_pos rfl]

/-- A member that no later one has the name of is kept. -/
theorem lookup_ofMembers_append_cons (ms : List (Text × Value F)) (name : Text)
    (value : Value F) {rest : List (Text × Value F)} (h : ∀ m ∈ rest, m.1 ≠ name) :
    (ofMembers (ms ++ (name, value) :: rest)).lookup name = some value := by
  induction rest using List.reverseRecOn with
  | nil => exact lookup_ofMembers_concat ms name value
  | append_singleton rest m ih =>
      rw [List.forall_mem_append, List.forall_mem_singleton] at h
      rw [← List.cons_append, ← List.append_assoc, lookup_ofMembers_append,
        if_neg (Ne.symm h.2), ih h.1]

/-- Members of different names are all kept. -/
theorem lookup_ofMembers_of_nodup {ms : List (Text × Value F)} (h : (ms.map Prod.fst).Nodup)
    (name : Text) : (ofMembers ms).lookup name = ms.lookup name := by
  induction ms using List.reverseRecOn with
  | nil => rfl
  | append_singleton ms m ih =>
      rw [List.map_append, List.map_singleton, List.nodup_append] at h
      have hnew : ∀ m' ∈ ms, m'.1 ≠ m.1 := fun m' hm' =>
        h.2.2 m'.1 (List.mem_map_of_mem hm') m.1 (List.mem_singleton_self _)
      have hlast : [m].lookup name = if name = m.1 then some m.2 else none := by
        rw [lookup_cons_eq_ite]
        rfl
      rw [lookup_ofMembers_append, ih h.1, List.lookup_append, hlast]
      by_cases hname : name = m.1
      · have hnone : ms.lookup name = none := List.lookup_eq_none_iff.mpr fun m' hm' =>
          bne_iff_ne.mpr fun heq => hnew m' hm' (heq.symm.trans hname)
        rw [if_pos hname, hnone, Option.none_or]
        exact (if_pos hname).symm
      · rw [if_neg hname, if_neg hname, Option.or_none]

theorem insertMember_perm {key : Text} (value : Value F) {ms : List (Text × Value F)}
    (hkey : key ∉ ms.map Prod.fst) : (insertMember key value ms).Perm ((key, value) :: ms) := by
  induction ms with
  | nil => exact List.Perm.refl _
  | cons m ms ih =>
      simp only [List.map_cons, List.mem_cons, not_or] at hkey
      rw [insertMember]
      split
      · exact List.Perm.refl _
      · rw [if_neg hkey.1]
        exact ((ih hkey.2).cons m).trans (List.Perm.swap _ _ _)

/-- Members of different names are all kept, in another order. -/
theorem ofMembers_perm {ms : List (Text × Value F)} (h : (ms.map Prod.fst).Nodup) :
    (ofMembers ms).Perm ms := by
  -- what is read so far is a permutation of the members read
  have hread : ∀ (todo done : List (Text × Value F)), ((done ++ todo).map Prod.fst).Nodup →
      (todo.foldl (fun ms m => insertMember m.1 m.2 ms) done).Perm (done ++ todo) := by
    intro todo
    induction todo with
    | nil => exact fun done _ => by simp
    | cons m todo ih =>
        intro done hnodup
        have hkey : m.1 ∉ done.map Prod.fst := by
          rw [List.map_append, List.map_cons, List.nodup_middle] at hnodup
          exact fun hmem => (List.nodup_cons.mp hnodup).1 (List.mem_append_left _ hmem)
        have hinsert := insertMember_perm m.2 hkey
        have hmiddle : (insertMember m.1 m.2 done ++ todo).Perm (done ++ m :: todo) :=
          (hinsert.append_right todo).trans List.perm_middle.symm
        exact (ih (insertMember m.1 m.2 done)
          (((hmiddle.map Prod.fst).nodup_iff).mpr hnodup)).trans hmiddle
  exact hread ms [] h

/-- Members read in any order end up in key order. -/
theorem ofMembers_eq_of_perm {ms sorted : List (Text × Value F)} (hperm : ms.Perm sorted)
    (hsorted : (sorted.map Prod.fst).Pairwise (· < ·)) : ofMembers ms = sorted := by
  have hnodup : (ms.map Prod.fst).Nodup :=
    (hperm.map Prod.fst).nodup_iff.mpr (hsorted.imp fun h => ne_of_lt h)
  exact ((ofMembers_perm hnodup).trans hperm).eq_of_pairwise
    (fun a b _ _ hab hba => absurd hab (lt_asymm hba))
    (List.pairwise_map.mp (ofMembers_pairwise ms)) (List.pairwise_map.mp hsorted)

end Genaryx.Json
