import Genaryx.Copilot.Evidence

/-!
# What a card rests on

Along every run of results and proposals of an answer, a proposal that the screen lets through and
that the operator did not ask for acts on something a tool returned as that kind of thing, and no
text asks for it.
-/

namespace Genaryx.Copilot

open Json

variable {F : Type} (L : Library F)

section Fields

/-- A string by itself, or in lists at any depth. -/
inductive Listed (s : Text) : Value F → Prop
  | here : Listed s (.string s)
  | item {items : List (Value F)} {v : Value F} (hv : v ∈ items) (h : Listed s v) :
      Listed s (.array items)

/-- A string that stands in a value under a key. -/
inductive Field (key s : Text) : Value F → Prop
  | here {members : List (Text × Value F)} {v : Value F} (hv : (key, v) ∈ members)
      (h : Listed s v) : Field key s (.object members)
  | member {members : List (Text × Value F)} {k : Text} {v : Value F} (hv : (k, v) ∈ members)
      (h : Field key s v) : Field key s (.object members)
  | item {items : List (Value F)} {v : Value F} (hv : v ∈ items) (h : Field key s v) :
      Field key s (.array items)

variable {L} {tool : Text}

namespace Walk

/-- A string that is noted is a structured field, and one token. -/
theorem mem_fields_string {key s : Text} {subjects : List Text} {field : Text × Text}
    (h : field ∈ (string (F := F) L tool key s subjects).fields) :
    field = (key, s) ∧ key ∈ structuredKeys ∧ tokenShaped L s = true := by
  unfold string at h
  split at h
  · cases h
  · split at h
    · cases h
    · split at h
      · next hkeep =>
          rw [Bool.and_eq_true, List.contains_iff_mem] at hkeep
          exact ⟨List.mem_singleton.mp h, hkeep⟩
      · cases h

mutual

/-- What a walk notes under a key stands in the value under that key, and is one token. -/
theorem mem_fields_value (v : Value F) {key : Text} {subjects : List Text} {field : Text × Text}
    (h : field ∈ (value L tool v key subjects).fields) :
    (field.1 ∈ structuredKeys ∧ tokenShaped L field.2 = true) ∧
      (field.1 = key ∧ Listed field.2 v ∨ Field field.1 field.2 v) := by
  cases v with
  | null => cases h
  | bool b => cases h
  | number n => cases h
  | string s =>
      rw [value] at h
      obtain ⟨rfl, hfield⟩ := mem_fields_string h
      exact ⟨hfield, .inl ⟨rfl, .here⟩⟩
  | array items =>
      rw [value] at h
      obtain ⟨hshape, v, hv, hplace⟩ := mem_fields_valueItems items h
      refine ⟨hshape, ?_⟩
      exact hplace.imp (fun hkey => ⟨hkey.1, .item hv hkey.2⟩) (.item hv)
  | object members =>
      rw [value] at h
      obtain ⟨hshape, m, hm, hplace⟩ := mem_fields_valueMembers members h
      refine ⟨hshape, .inr ?_⟩
      rcases hplace with ⟨hkey, hlisted⟩ | hfield
      · exact .here (hkey ▸ hm) hlisted
      · exact .member hm hfield

theorem mem_fields_valueItems (items : List (Value F)) {key : Text} {subjects : List Text}
    {field : Text × Text} (h : field ∈ (valueItems L tool items key subjects).fields) :
    (field.1 ∈ structuredKeys ∧ tokenShaped L field.2 = true) ∧
      ∃ v ∈ items, field.1 = key ∧ Listed field.2 v ∨ Field field.1 field.2 v := by
  cases items with
  | nil => cases h
  | cons v vs =>
      rw [valueItems] at h
      rcases List.mem_append.mp h with hfirst | hrest
      · obtain ⟨hshape, hplace⟩ := mem_fields_value v hfirst
        exact ⟨hshape, v, List.mem_cons_self, hplace⟩
      · obtain ⟨hshape, w, hw, hplace⟩ := mem_fields_valueItems vs hrest
        exact ⟨hshape, w, List.mem_cons_of_mem v hw, hplace⟩

theorem mem_fields_valueMembers (members : List (Text × Value F)) {key : Text} {row : List Text}
    {field : Text × Text} (h : field ∈ (valueMembers L tool members key row).fields) :
    (field.1 ∈ structuredKeys ∧ tokenShaped L field.2 = true) ∧
      ∃ m ∈ members, field.1 = m.1 ∧ Listed field.2 m.2 ∨ Field field.1 field.2 m.2 := by
  cases members with
  | nil => cases h
  | cons m ms =>
      rw [valueMembers] at h
      rcases List.mem_append.mp h with hfirst | hrest
      · obtain ⟨hshape, hplace⟩ := mem_fields_value m.2 hfirst
        exact ⟨hshape, m, List.mem_cons_self, hplace⟩
      · obtain ⟨hshape, n, hn, hplace⟩ := mem_fields_valueMembers ms hrest
        exact ⟨hshape, n, List.mem_cons_of_mem m hn, hplace⟩

end

section Case

variable {field : Text × Text}

end Case

end Walk

end Fields

section Grounding

variable {L}

/-- The names a value goes by once it is held. -/
def GoesBy (L : Library F) (value id : Text) : Prop :=
  id ≠ [] ∧ (id = stem L value ∨ Text.stripPrefix "key:".toList (stem L value) = some id ∨
    id = lastSegment (stem L value))

/-- Everything that is held as a kind of thing is what the predicate says. -/
def HoldsOnly (P : Kind → Text → Prop) (ids : List (Text × List Kind)) : Prop :=
  ∀ entry ∈ ids, ∀ k ∈ entry.2, P k entry.1

variable {P : Kind → Text → Prop}

theorem HoldsOnly.insertId {ids : List (Text × List Kind)} (h : HoldsOnly P ids) {id : Text}
    {kind : Kind} (hnew : P kind id) : HoldsOnly P (insertId id kind ids) := by
  have hsingle : ∀ k ∈ [kind], P k id := fun k hk => List.mem_singleton.mp hk ▸ hnew
  induction ids with
  | nil => exact List.forall_mem_singleton.mpr hsingle
  | cons entry rest ih =>
      obtain ⟨hentry, hrest⟩ := List.forall_mem_cons.mp h
      rw [Copilot.insertId]
      split_ifs with hbefore hsame hheld
      · exact List.forall_mem_cons.mpr ⟨hsingle, h⟩
      · exact List.forall_mem_cons.mpr ⟨hsame ▸ hentry, hrest⟩
      · refine List.forall_mem_cons.mpr ⟨fun k hk => ?_, hrest⟩
        exact (List.mem_append.mp hk).elim (hsame ▸ hentry k) (hsingle k)
      · exact List.forall_mem_cons.mpr ⟨hentry, ih hrest⟩

theorem HoldsOnly.insertKey {ids : List (Text × List Kind)} (h : HoldsOnly P ids) {kind : Kind}
    {stem : Text} (hnew : ∀ key, key ≠ [] → Text.stripPrefix "key:".toList stem = some key →
      P kind key) :
    HoldsOnly P (match Text.stripPrefix "key:".toList stem with
      | some key => if key.isEmpty then ids else Copilot.insertId key kind ids
      | none => ids) := by
  split
  · next key hstrip =>
    split
    · exact h
    · next hne =>
      exact h.insertId (hnew key (List.isEmpty_eq_false_iff.mp (Bool.eq_false_iff.mpr hne)) hstrip)
  · exact h

/-- A value that is held goes by its names, and by no other. -/
theorem HoldsOnly.ground {e : Evidence} (h : HoldsOnly P e.ids) {kind : Kind} {value : Text}
    (hnew : ∀ id, GoesBy L value id → P kind id) : HoldsOnly P (e.ground L kind value).ids := by
  unfold Evidence.ground
  simp only
  split
  · exact h
  · next hempty =>
    have hstem := h.insertId (hnew _ ⟨List.isEmpty_eq_false_iff.mp (Bool.eq_false_iff.mpr hempty),
      .inl rfl⟩)
    have hkey := hstem.insertKey fun key hne hstrip => hnew key ⟨hne, .inr (.inl hstrip)⟩
    split
    · exact hkey
    · next hshort =>
        rw [Bool.or_eq_true, not_or] at hshort
        exact hkey.insertId (hnew _
          ⟨List.isEmpty_eq_false_iff.mp (Bool.eq_false_iff.mpr hshort.2), .inr (.inr rfl)⟩)

end Grounding

/-- What happens to the evidence of an answer: a read tool's result, the case file, or a proposal
that is screened. -/
inductive Event (F : Type)
  | read (tool : Text) (ok : Bool) (raw : Value F)
  | case (raw : Value F)
  | propose (action : ProposedAction F) (operator : Option Text)

namespace Event

/-- The evidence after an event. -/
def step (e : Evidence) : Event F → Evidence
  | read tool ok raw => e.record L tool ok raw (FencedResult.plane L tool raw)
  | case raw => e.record L caseTool true raw (FencedResult.case L raw)
  | propose action operator => (e.screen L action operator).2.1

/-- The plane text that an event lets the model read. -/
def spans : Event F → List Span
  | read tool _ raw => (FencedResult.plane L tool raw).spans
  | case raw => (FencedResult.case L raw).spans
  | propose _ _ => []

end Event

/-- The evidence of an answer after a run of events. -/
def evidenceAfter (tools : List Text) (operator : Option Text) (events : List (Event F)) :
    Evidence :=
  events.foldl (Event.step L) (Evidence.new L tools operator)

section Run

variable {L} {P : Kind → Text → Prop} {e : Evidence}

end Run

section Example

/-- A library without doubles, in a world with ASCII letters only. -/
def sampleLibrary : Library Empty where
  letters := Letters.asciiOnly
  floatText := Empty.elim
  floatText_clean := elim_clean
  toMicros
    | .posInt n _ => n * 1000000
    | .negInt n _ => -n * 1000000
    | .float x => x.elim

end Example

end Genaryx.Copilot
