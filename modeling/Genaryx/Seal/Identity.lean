import Genaryx.Json.Pretty
import Genaryx.Seal.Doubles
import Genaryx.Seal.Numbers

/-!
# One canonical text, one document

Two documents have one canonical text where they differ in the order of members and in how their
numbers are held, and nowhere else. In the text of an object its members stand in strict order.
-/

namespace Genaryx.Seal

open Base Json

variable {F : Type}

/-! ## The order of names -/

/-- The UTF-16 code units of a character. -/
theorem utf16_cons (c : Char) (t : Text) :
    utf16 (c :: t) =
      (if c.toNat < 0x10000 then [c.toNat]
        else [0xD800 + (c.toNat - 0x10000) / 1024, 0xDC00 + (c.toNat - 0x10000) % 1024]) ++ utf16 t :=
  List.flatMap_cons

/-- No two texts have the same code units. -/
theorem utf16_injective : Function.Injective utf16 := by
  intro a
  induction a with
  | nil =>
      intro b h
      cases b with
      | nil => rfl
      | cons d b =>
          rw [utf16_cons] at h
          split at h <;> cases h
  | cons c a ih =>
      intro b h
      cases b with
      | nil =>
          rw [utf16_cons] at h
          split at h <;> cases h
      | cons d b =>
          have hval : ∀ e : Char, e.toNat < 0xD800 ∨ 0xDFFF < e.toNat ∧ e.toNat < 0x110000 :=
            fun e => e.valid
          have hc := hval c
          have hd := hval d
          rw [utf16_cons, utf16_cons] at h
          split at h <;> split at h <;>
            simp only [List.cons_append, List.nil_append, List.cons.injEq] at h
          · rw [Char.toNat_inj.mp h.1, ih h.2]
          · omega
          · omega
          · have hcd : c.toNat = d.toNat := by omega
            rw [Char.toNat_inj.mp hcd, ih h.2.2]

/-- Members of different names are sorted strictly. -/
theorem pairwise_insertionSort {ps : List (Text × Text)} (h : (ps.map Prod.fst).Nodup) :
    (ps.insertionSort utf16Le).Pairwise fun a b => utf16 a.1 < utf16 b.1 := by
  have htotal : Std.Total utf16Le := ⟨fun a b => le_total (utf16 a.1) (utf16 b.1)⟩
  have htrans : IsTrans (Text × Text) utf16Le := ⟨fun a b c => le_trans⟩
  have hsorted := List.pairwise_insertionSort utf16Le ps
  have hnodup : (ps.insertionSort utf16Le).Pairwise fun a b => a.1 ≠ b.1 :=
    List.pairwise_map.mp (((List.perm_insertionSort utf16Le ps).map Prod.fst).nodup_iff.mpr h)
  exact hsorted.imp₂ (fun a b hle hne => lt_of_le_of_ne hle fun heq => hne (utf16_injective heq)) hnodup

/-- The order of members of different names does not depend on how they came. -/
theorem insertionSort_eq_of_perm {ps qs : List (Text × Text)} (hperm : ps.Perm qs)
    (h : (ps.map Prod.fst).Nodup) : ps.insertionSort utf16Le = qs.insertionSort utf16Le := by
  have hq : (qs.map Prod.fst).Nodup := (hperm.map Prod.fst).nodup_iff.mp h
  refine (((List.perm_insertionSort _ ps).trans hperm).trans
    (List.perm_insertionSort _ qs).symm).eq_of_pairwise ?_ (pairwise_insertionSort h)
      (pairwise_insertionSort hq)
  exact fun a b _ _ hab hba => absurd hab (lt_asymm hba)

/-! ## Documents -/

mutual

/-- No object has two members of one name. -/
def Distinct : Value F → Prop
  | .array items => ItemsDistinct items
  | .object members => (members.map Prod.fst).Nodup ∧ MembersDistinct members
  | _ => True

def ItemsDistinct : List (Value F) → Prop
  | [] => True
  | v :: vs => Distinct v ∧ ItemsDistinct vs

def MembersDistinct : List (Text × Value F) → Prop
  | [] => True
  | m :: ms => Distinct m.2 ∧ MembersDistinct ms

end

mutual

/-- Two values are one but for the order of members and how their numbers are held. -/
def Alike (D : Doubles F) : Value F → Value F → Prop
  | .null, .null => True
  | .bool a, .bool b => a = b
  | .number n, .number m => D.numeric n = D.numeric m
  | .string s, .string t => s = t
  | .array xs, .array ys => ItemsAlike D xs ys
  | .object ms, .object ns => ms.length = ns.length ∧ MembersAlike D ms ns
  | _, _ => False

def ItemsAlike (D : Doubles F) : List (Value F) → List (Value F) → Prop
  | [], [] => True
  | v :: vs, w :: ws => Alike D v w ∧ ItemsAlike D vs ws
  | _, _ => False

/-- Each of some members is one of others. -/
def MembersAlike (D : Doubles F) : List (Text × Value F) → List (Text × Value F) → Prop
  | [], _ => True
  | m :: ms, ns => (∃ w, (m.1, w) ∈ ns ∧ Alike D m.2 w) ∧ MembersAlike D ms ns

end

/-- A text of a value in which the members of every object are in strict order. -/
inductive Spells (D : Double F) : Text → Value F → Prop
  | null : Spells D "null" .null
  | true : Spells D "true" (.bool true)
  | false : Spells D "false" (.bool false)
  | number {t : Text} {n : Number F} (h : number D n = .ok t) : Spells D t (.number n)
  | string (s : Text) : Spells D (writeString s) (.string s)
  | array (items : List (Text × Value F)) (h : ∀ i ∈ items, Spells D i.1 i.2) :
      Spells D ('[' :: commaSep (items.map Prod.fst) ++ [']']) (.array (items.map Prod.snd))
  | object (members : List (Text × Text × Value F)) (h : ∀ m ∈ members, Spells D m.2.1 m.2.2)
      (hstrict : members.Pairwise fun a b => utf16 a.1 < utf16 b.1) {ms : List (Text × Value F)}
      (hperm : (members.map fun m => (m.1, m.2.2)).Perm ms) :
      Spells D ('{' :: commaSep (members.map fun m => writeString m.1 ++ ':' :: m.2.1) ++ ['}'])
        (.object ms)

/-- A document with its canonical text. -/
structure Written (D : Doubles F) where
  value : Value F
  distinct : Distinct value
  text : Text
  writes : canonical D.toDouble value = .ok text

/-! ## What was written -/

variable {D : Doubles F}

theorem map_fst_writeMembers {D : Double F} {members : List (Text × Value F)}
    {ps : List (Text × Text)} (h : writeMembers D members = .ok ps) :
    ps.map Prod.fst = members.map Prod.fst := by
  induction members generalizing ps with
  | nil => cases h; rfl
  | cons m ms ih =>
      obtain ⟨t, qs, -, hqs, rfl⟩ := writeMembers_cons_eq_ok.mp h
      rw [List.map_cons, List.map_cons, ih hqs]

/-- A member among others is written with its name. -/
theorem exists_mem_of_writeMembers {D : Double F} {members : List (Text × Value F)}
    {ps : List (Text × Text)} (h : writeMembers D members = .ok ps) {m : Text × Value F}
    (hm : m ∈ members) : ∃ t, writeValue D m.2 = .ok t ∧ (m.1, t) ∈ ps := by
  induction members generalizing ps with
  | nil => cases hm
  | cons n ms ih =>
      obtain ⟨t, qs, ht, hqs, rfl⟩ := writeMembers_cons_eq_ok.mp h
      rcases List.mem_cons.mp hm with rfl | hm
      · exact ⟨t, ht, List.mem_cons_self⟩
      · obtain ⟨u, hu, hmem⟩ := ih hqs hm
        exact ⟨u, hu, List.mem_cons_of_mem _ hmem⟩

theorem membersDistinct_iff {members : List (Text × Value F)} :
    MembersDistinct members ↔ ∀ m ∈ members, Distinct m.2 := by
  induction members with
  | nil => exact iff_of_true trivial nofun
  | cons m ms ih => rw [MembersDistinct, ih, List.forall_mem_cons]

/-! ## Documents that are alike -/

/-- Written members of which each is one of as many others are the same ones. -/
theorem perm_of_mem {ps qs : List (Text × Text)} (hnodup : (ps.map Prod.fst).Nodup)
    (hlength : ps.length = qs.length) (h : ∀ p ∈ ps, p ∈ qs) : ps.Perm qs :=
  (List.subperm_of_subset hnodup.of_map h).perm_of_length_le hlength.ge

theorem length_writeMembers {D : Double F} {members : List (Text × Value F)}
    {ps : List (Text × Text)} (h : writeMembers D members = .ok ps) : ps.length = members.length := by
  rw [← List.length_map, map_fst_writeMembers h, List.length_map]

mutual

/-- Documents that are alike are written alike. -/
theorem writeValue_eq_of_alike (v : Value F) {w : Value F} (hv : Distinct v) (hw : Distinct w)
    {s t : Text} (hs : writeValue D.toDouble v = .ok s) (ht : writeValue D.toDouble w = .ok t)
    (h : Alike D v w) : s = t := by
  cases v with
  | null =>
      cases w with
      | null => cases hs; cases ht; rfl
      | _ => exact h.elim
  | bool b =>
      cases w with
      | bool c =>
          cases (h : b = c)
          exact Except.ok.inj (hs.symm.trans ht)
      | _ => exact h.elim
  | number n =>
      cases w with
      | number m =>
          have heq := (Doubles.number_eq_iff ⟨s, hs⟩ ⟨t, ht⟩).mpr h
          exact Except.ok.inj (hs.symm.trans (heq.trans ht))
      | _ => exact h.elim
  | string a =>
      cases w with
      | string b =>
          cases (h : a = b)
          exact Except.ok.inj (hs.symm.trans ht)
      | _ => exact h.elim
  | array vs =>
      cases w with
      | array ws =>
          obtain ⟨ss, hss, rfl⟩ := writeValue_array_eq_ok.mp hs
          obtain ⟨ts, hts, rfl⟩ := writeValue_array_eq_ok.mp ht
          rw [writeItems_eq_of_alike vs hv hw hss hts h]
      | _ => exact h.elim
  | object ms =>
      cases w with
      | object ns =>
          obtain ⟨ps, hps, rfl⟩ := writeValue_object_eq_ok.mp hs
          obtain ⟨qs, hqs, rfl⟩ := writeValue_object_eq_ok.mp ht
          have hnodup : (ps.map Prod.fst).Nodup := by
            rw [map_fst_writeMembers hps]
            exact hv.1
          have hlength : ps.length = qs.length := by
            rw [length_writeMembers hps, length_writeMembers hqs, h.1]
          have hperm := perm_of_mem hnodup hlength (mem_writeMembers_of_alike ms hv.2 hw.2 hps hqs h.2)
          rw [objectText, objectText, insertionSort_eq_of_perm hperm hnodup]
      | _ => exact h.elim

theorem writeItems_eq_of_alike (vs : List (Value F)) {ws : List (Value F)} (hv : ItemsDistinct vs)
    (hw : ItemsDistinct ws) {ss ts : List Text} (hs : writeItems D.toDouble vs = .ok ss)
    (ht : writeItems D.toDouble ws = .ok ts) (h : ItemsAlike D vs ws) : ss = ts := by
  cases vs with
  | nil =>
      cases ws with
      | nil => cases hs; cases ht; rfl
      | cons w ws => exact h.elim
  | cons v vs =>
      cases ws with
      | nil => exact h.elim
      | cons w ws =>
          obtain ⟨s, ss, hhead, hrest, rfl⟩ := writeItems_cons_eq_ok.mp hs
          obtain ⟨t, ts, hhead', hrest', rfl⟩ := writeItems_cons_eq_ok.mp ht
          rw [writeValue_eq_of_alike v hv.1 hw.1 hhead hhead' h.1,
            writeItems_eq_of_alike vs hv.2 hw.2 hrest hrest' h.2]

theorem mem_writeMembers_of_alike (ms : List (Text × Value F)) {ns : List (Text × Value F)}
    (hm : MembersDistinct ms) (hn : MembersDistinct ns) {ps qs : List (Text × Text)}
    (hps : writeMembers D.toDouble ms = .ok ps) (hqs : writeMembers D.toDouble ns = .ok qs)
    (h : MembersAlike D ms ns) : ∀ p ∈ ps, p ∈ qs := by
  cases ms with
  | nil =>
      cases hps
      exact nofun
  | cons m ms =>
      obtain ⟨s, rest, hs, hrest, rfl⟩ := writeMembers_cons_eq_ok.mp hps
      obtain ⟨⟨w, hmem, hw⟩, halike⟩ := h
      obtain ⟨t, ht, htmem⟩ := exists_mem_of_writeMembers hqs hmem
      rw [← writeValue_eq_of_alike m.2 hm.1 (membersDistinct_iff.mp hn _ hmem) hs ht hw] at htmem
      exact List.forall_mem_cons.mpr
        ⟨htmem, mem_writeMembers_of_alike ms hm.2 hn hrest hqs halike⟩

end

/-! ## Documents that are written alike -/

/-- A document as it is read back. -/
def readBack (D : Doubles F) (v : Value F) : Value F := (reread D.toDouble v).keyed

/-- Members that were sorted denote the object that keeps them. -/
theorem denotes_sorted {ofDecimal : OfDecimal F} {ps : List (Text × Text)} {ms : List (Text × Value F)}
    (h : List.Forall₂ (fun p m => p.1 = m.1 ∧ Denotes ofDecimal p.2 m.2) ps ms)
    (hnodup : (ms.map Prod.fst).Nodup) :
    Denotes ofDecimal (objectText ps) (.object (ofMembers ms)) := by
  obtain ⟨sorted, hsorted, hperm⟩ := List.perm_comp_forall₂ (List.perm_insertionSort utf16Le ps) h
  have heq : ofMembers sorted = ofMembers ms :=
    ofMembers_eq_of_perm (hperm.trans (ofMembers_perm hnodup).symm) (ofMembers_pairwise ms)
  rw [← heq]
  exact denotes_members hsorted

mutual

theorem denotes_readBack (v : Value F) (hv : Distinct v) {t : Text}
    (h : writeValue D.toDouble v = .ok t) : Denotes D.ofDecimal t (readBack D v) := by
  cases v with
  | null => cases h; exact .null
  | bool b => cases b <;> cases h; exacts [.false, .true]
  | number n => exact denotes_number h
  | string s => cases h; exact .string (denotesText_flatMap_escapeChar s)
  | array items =>
      obtain ⟨ts, hts, rfl⟩ := writeValue_array_eq_ok.mp h
      exact denotes_array (forall₂_readBackItems items hv hts)
  | object members =>
      obtain ⟨ps, hps, rfl⟩ := writeValue_object_eq_ok.mp h
      refine denotes_sorted (forall₂_readBackMembers members hv.2 hps) ?_
      rw [Value.map_fst_keyedMembers, Value.map_fst_mapMembers]
      exact hv.1

theorem forall₂_readBackItems (items : List (Value F)) (hv : ItemsDistinct items) {ts : List Text}
    (h : writeItems D.toDouble items = .ok ts) :
    List.Forall₂ (Denotes D.ofDecimal) ts
      (Value.keyedItems (Value.mapItems (rereadNumber D.toDouble) items)) := by
  cases items with
  | nil => cases h; exact .nil
  | cons v vs =>
      obtain ⟨t, us, ht, hus, rfl⟩ := writeItems_cons_eq_ok.mp h
      exact .cons (denotes_readBack v hv.1 ht) (forall₂_readBackItems vs hv.2 hus)

theorem forall₂_readBackMembers (members : List (Text × Value F)) (hv : MembersDistinct members)
    {ps : List (Text × Text)} (h : writeMembers D.toDouble members = .ok ps) :
    List.Forall₂ (fun p m => p.1 = m.1 ∧ Denotes D.ofDecimal p.2 m.2) ps
      (Value.keyedMembers (Value.mapMembers (rereadNumber D.toDouble) members)) := by
  cases members with
  | nil => cases h; exact .nil
  | cons m ms =>
      obtain ⟨t, qs, ht, hqs, rfl⟩ := writeMembers_cons_eq_ok.mp h
      exact .cons ⟨rfl, denotes_readBack m.2 hv.1 ht⟩ (forall₂_readBackMembers ms hv.2 hqs)

end

theorem readBackMembers_eq_map (members : List (Text × Value F)) :
    Value.keyedMembers (Value.mapMembers (rereadNumber D.toDouble) members) =
      members.map fun m => (m.1, readBack D m.2) := by
  induction members with
  | nil => rfl
  | cons m ms ih => exact congrArg _ ih

/-- Members that are read back as one object are each among the others. -/
theorem mem_of_readBack_eq {ms ns : List (Text × Value F)} (hms : (ms.map Prod.fst).Nodup)
    (hns : (ns.map Prod.fst).Nodup) (h : readBack D (.object ms) = readBack D (.object ns)) :
    ms.length = ns.length ∧ ∀ m ∈ ms, ∃ n ∈ ns, n.1 = m.1 ∧ readBack D m.2 = readBack D n.2 := by
  have hkeys : ∀ ms : List (Text × Value F),
      (ms.map fun m => (m.1, readBack D m.2)).map Prod.fst = ms.map Prod.fst := fun ms => by
    rw [List.map_map]
    rfl
  have hobjects : ofMembers (ms.map fun m => (m.1, readBack D m.2)) =
      ofMembers (ns.map fun n => (n.1, readBack D n.2)) := by
    rw [← readBackMembers_eq_map, ← readBackMembers_eq_map]
    exact Value.object.inj h
  have hread : ((ms.map fun m => (m.1, readBack D m.2)).map Prod.fst).Nodup := by rwa [hkeys]
  have hperm := (ofMembers_perm hread).symm.trans
    ((List.Perm.of_eq hobjects).trans (ofMembers_perm (by rwa [hkeys])))
  refine ⟨by simpa only [List.length_map] using hperm.length_eq, fun m hm => ?_⟩
  obtain ⟨n, hn, heq⟩ := List.mem_map.mp (hperm.subset (List.mem_map_of_mem hm))
  exact ⟨n, hn, (Prod.mk.inj heq).1, (Prod.mk.inj heq).2.symm⟩

mutual

/-- Documents that are read back as one value are alike. -/
theorem alike_of_readBack (v : Value F) {w : Value F} (hv : Distinct v) (hw : Distinct w)
    {s t : Text} (hs : writeValue D.toDouble v = .ok s) (ht : writeValue D.toDouble w = .ok t)
    (h : readBack D v = readBack D w) : Alike D v w := by
  cases v with
  | null =>
      cases w with
      | null => trivial
      | _ => cases h
  | bool b =>
      cases w with
      | bool c => exact Value.bool.inj h
      | _ => cases h
  | number n =>
      cases w with
      | number m =>
          rw [Alike, ← Doubles.worth_rereadNumber ⟨s, hs⟩, ← Doubles.worth_rereadNumber ⟨t, ht⟩]
          exact congrArg D.worth (Value.number.inj h)
      | _ => cases h
  | string a =>
      cases w with
      | string b => exact Value.string.inj h
      | _ => cases h
  | array vs =>
      cases w with
      | array ws =>
          obtain ⟨ss, hss, rfl⟩ := writeValue_array_eq_ok.mp hs
          obtain ⟨ts, hts, rfl⟩ := writeValue_array_eq_ok.mp ht
          exact itemsAlike_of_readBack vs hv hw hss hts (Value.array.inj h)
      | _ => cases h
  | object ms =>
      cases w with
      | object ns =>
          obtain ⟨ps, hps, rfl⟩ := writeValue_object_eq_ok.mp hs
          obtain ⟨qs, hqs, rfl⟩ := writeValue_object_eq_ok.mp ht
          obtain ⟨hlength, hmem⟩ := mem_of_readBack_eq hv.1 hw.1 h
          exact ⟨hlength, membersAlike_of_readBack ms hv.2 hw.2 hps hqs hmem⟩
      | _ => cases h

theorem itemsAlike_of_readBack (vs : List (Value F)) {ws : List (Value F)} (hv : ItemsDistinct vs)
    (hw : ItemsDistinct ws) {ss ts : List Text} (hs : writeItems D.toDouble vs = .ok ss)
    (ht : writeItems D.toDouble ws = .ok ts)
    (h : Value.keyedItems (Value.mapItems (rereadNumber D.toDouble) vs) =
      Value.keyedItems (Value.mapItems (rereadNumber D.toDouble) ws)) : ItemsAlike D vs ws := by
  cases vs with
  | nil =>
      cases ws with
      | nil => trivial
      | cons w ws => cases h
  | cons v vs =>
      cases ws with
      | nil => cases h
      | cons w ws =>
          obtain ⟨s, ss, hhead, hrest, rfl⟩ := writeItems_cons_eq_ok.mp hs
          obtain ⟨t, ts, hhead', hrest', rfl⟩ := writeItems_cons_eq_ok.mp ht
          obtain ⟨heq, hitems⟩ := List.cons.inj h
          exact ⟨alike_of_readBack v hv.1 hw.1 hhead hhead' heq,
            itemsAlike_of_readBack vs hv.2 hw.2 hrest hrest' hitems⟩

theorem membersAlike_of_readBack (ms : List (Text × Value F)) {ns : List (Text × Value F)}
    (hm : MembersDistinct ms) (hn : MembersDistinct ns) {ps qs : List (Text × Text)}
    (hps : writeMembers D.toDouble ms = .ok ps) (hqs : writeMembers D.toDouble ns = .ok qs)
    (h : ∀ m ∈ ms, ∃ n ∈ ns, n.1 = m.1 ∧ readBack D m.2 = readBack D n.2) :
    MembersAlike D ms ns := by
  cases ms with
  | nil => trivial
  | cons m ms =>
      obtain ⟨s, rest, hs, hrest, rfl⟩ := writeMembers_cons_eq_ok.mp hps
      obtain ⟨⟨n, hmem, hkey, heq⟩, hothers⟩ := List.forall_mem_cons.mp h
      obtain ⟨t, ht, -⟩ := exists_mem_of_writeMembers hqs hmem
      refine ⟨⟨n.2, hkey ▸ hmem, ?_⟩, membersAlike_of_readBack ms hm.2 hn hrest hqs hothers⟩
      exact alike_of_readBack m.2 hm.1 (membersDistinct_iff.mp hn n hmem) hs ht heq

end

/-! ## Sorted texts -/

/-- Texts beside values, as one list of both. -/
theorem exists_members {R : Text → Value F → Prop} {ps : List (Text × Text)}
    {ms : List (Text × Value F)} (h : List.Forall₂ (fun p m => p.1 = m.1 ∧ R p.2 m.2) ps ms) :
    ∃ members : List (Text × Text × Value F), members.map (fun m => (m.1, m.2.1)) = ps ∧
      members.map (fun m => (m.1, m.2.2)) = ms ∧ ∀ m ∈ members, R m.2.1 m.2.2 := by
  induction h with
  | nil => exact ⟨[], rfl, rfl, nofun⟩
  | @cons p m ps ms hm _ ih =>
      obtain ⟨members, rfl, rfl, hall⟩ := ih
      exact ⟨(p.1, p.2, m.2) :: members, rfl, by rw [List.map_cons, hm.1],
        List.forall_mem_cons.mpr ⟨hm.2, hall⟩⟩

mutual

/-- What is written of a document has every object's members in strict order. -/
theorem spells_writeValue {D : Double F} (v : Value F) (hv : Distinct v) {t : Text}
    (h : writeValue D v = .ok t) : Spells D t v := by
  cases v with
  | null => cases h; exact .null
  | bool b => cases b <;> cases h; exacts [.false, .true]
  | number n => exact .number h
  | string s => cases h; exact .string s
  | array items =>
      obtain ⟨ts, hts, rfl⟩ := writeValue_array_eq_ok.mp h
      obtain ⟨pairs, rfl, rfl, hall⟩ := spells_writeItems items hv hts
      exact .array pairs hall
  | object ms =>
      obtain ⟨ps, hps, rfl⟩ := writeValue_object_eq_ok.mp h
      obtain ⟨sorted, hsorted, hperm⟩ := List.perm_comp_forall₂ (List.perm_insertionSort utf16Le ps)
        (spells_writeMembers ms hv.2 hps)
      obtain ⟨members, hfst, rfl, hall⟩ := exists_members hsorted
      have hnodup : (ps.map Prod.fst).Nodup := by
        rw [map_fst_writeMembers hps]
        exact hv.1
      have hstrict := pairwise_insertionSort hnodup
      rw [← hfst, List.pairwise_map] at hstrict
      rw [objectText, ← hfst, List.map_map]
      exact .object members hall hstrict hperm

theorem spells_writeItems {D : Double F} (items : List (Value F)) (hv : ItemsDistinct items)
    {ts : List Text} (h : writeItems D items = .ok ts) :
    ∃ pairs : List (Text × Value F), pairs.map Prod.fst = ts ∧ pairs.map Prod.snd = items ∧
      ∀ i ∈ pairs, Spells D i.1 i.2 := by
  cases items with
  | nil => cases h; exact ⟨[], rfl, rfl, nofun⟩
  | cons v vs =>
      obtain ⟨t, us, ht, hus, rfl⟩ := writeItems_cons_eq_ok.mp h
      obtain ⟨pairs, hfst, hsnd, hall⟩ := spells_writeItems vs hv.2 hus
      exact ⟨(t, v) :: pairs, by rw [List.map_cons, hfst], by rw [List.map_cons, hsnd],
        List.forall_mem_cons.mpr ⟨spells_writeValue v hv.1 ht, hall⟩⟩

theorem spells_writeMembers {D : Double F} (members : List (Text × Value F))
    (hv : MembersDistinct members) {ps : List (Text × Text)} (h : writeMembers D members = .ok ps) :
    List.Forall₂ (fun p m => p.1 = m.1 ∧ Spells D p.2 m.2) ps members := by
  cases members with
  | nil => cases h; exact .nil
  | cons m ms =>
      obtain ⟨t, qs, ht, hqs, rfl⟩ := writeMembers_cons_eq_ok.mp h
      exact .cons ⟨rfl, spells_writeValue m.2 hv.1 ht⟩ (spells_writeMembers ms hv.2 hqs)

end

/-- Two documents have one text just where they are alike, and in every text the members of each
object are in strict order. -/
theorem Written.identifies (D : Doubles F) :
    (∀ a b : Written D, a.text = b.text ↔ Alike D a.value b.value) ∧
      ∀ a : Written D, Spells D.toDouble a.text a.value := by
  refine ⟨fun a b => ⟨fun htext => ?_, ?_⟩, fun a => spells_writeValue a.value a.distinct a.writes⟩
  · have ha := denotes_readBack a.value a.distinct a.writes
    have hb := denotes_readBack b.value b.distinct b.writes
    exact alike_of_readBack a.value a.distinct b.distinct a.writes b.writes
      (ha.unique (htext ▸ hb))
  · exact writeValue_eq_of_alike a.value a.distinct b.distinct a.writes b.writes

end Genaryx.Seal
