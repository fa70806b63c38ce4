import Genaryx.Copilot.Fences

/-!
# What a walk lets through

Every string of a walked value is one fence, or stands plain as nothing, as the prose of the tool
itself or as one token of a structured field. Every name is one token or one fence. As long as the
names of each object stay apart, there is a fence for each span.

## Implementation notes

What the console writes in a case file is told from what it copied by position, so the conditions
on a case follow the positions, for the case as it is read and for the case as it is written.
-/

namespace Genaryx.Copilot

open Json

variable {F : Type} (L : Library F)

/-- How a string under a key stands in what the model reads. -/
def Stands (tool key s : Text) : Prop :=
  IsFence s ∨ NoMarkup s ∧
    (s = [] ∨ (tool, key) ∈ ownProse ∨ key ∈ structuredKeys ∧ tokenShaped L s = true)

/-- Names that are one token or one fence each. -/
def Named (names : List Text) : Prop := ∀ k ∈ names, tokenShaped L k = true ∨ IsFence k

/-- A value in which every string of a tool's result stands as it may. -/
def Guarded (tool : Text) : Text → Value F → Prop := Every (Stands L tool) (Named L)

/-- Names that differ, also where they are wrapped. -/
def Apart (names : List Text) : Prop :=
  names.Pairwise fun a b =>
    a ≠ b ∧ (tokenShaped L a = false → tokenShaped L b = false → escape a ≠ escape b)

/-- A tool's result whose own prose has no markup, and whose names stay apart. -/
def Readable (tool : Text) : Text → Value F → Prop :=
  Every (fun key s => (tool, key) ∈ ownProse → NoMarkup s) (Apart L)

section Tokens

variable {L} {tool key s : Text}

theorem isAlphanumeric_of_ascii (T : Letters) {c : Char} (h : c.toNat < 0x80) :
    T.isAlphanumeric c = (c.isAlpha || c.isDigit) := by
  obtain ⟨halpha, hnumeric, -⟩ := T.ascii c h
  rw [Letters.isAlphanumeric, halpha, hnumeric]

theorem tokenShaped_iff : tokenShaped L s = true ↔ s ≠ [] ∧ Utf8.len s ≤ maxTokenBytes ∧
    ∀ c ∈ s, L.letters.isAlphanumeric c = true ∨ c ∈ tokenMarks := by
  rw [tokenShaped, Bool.and_eq_true, Bool.and_eq_true, Bool.not_eq_true', List.isEmpty_eq_false_iff,
    decide_eq_true_eq, List.all_eq_true, and_assoc]
  simp only [Bool.or_eq_true, decide_eq_true_eq]

/-- A token has no markup. -/
theorem noMarkup_of_tokenShaped (h : tokenShaped L s = true) : NoMarkup s := by
  intro c hc
  have hchar := (tokenShaped_iff.mp h).2.2 c hc
  constructor
  · rintro rfl
    rw [isAlphanumeric_of_ascii L.letters (by decide)] at hchar
    exact absurd hchar (by decide)
  · rintro rfl
    rw [isAlphanumeric_of_ascii L.letters (by decide)] at hchar
    exact absurd hchar (by decide)

theorem tokenShaped_of_fieldName (hne : s ≠ []) (hlen : Utf8.len s ≤ maxTokenBytes)
    (h : ∀ c ∈ s, c.toNat < 0x80 ∧ (c.isAlpha = true ∨ c = '_')) : tokenShaped L s = true := by
  refine tokenShaped_iff.mpr ⟨hne, hlen, fun c hc => ?_⟩
  obtain ⟨hascii, halpha | rfl⟩ := h c hc
  · rw [isAlphanumeric_of_ascii L.letters hascii, halpha]
    exact .inl rfl
  · exact .inr (by decide)

/-- The keys of structured fields and of the tools' own prose are tokens. -/
theorem tokenShaped_of_mem_keys (h : key ∈ structuredKeys ∨ (tool, key) ∈ ownProse) :
    tokenShaped L key = true := by
  have hshape : ∀ k ∈ structuredKeys ++ ownProse.map Prod.snd, k ≠ [] ∧
      Utf8.len k ≤ maxTokenBytes ∧ ∀ c ∈ k, c.toNat < 0x80 ∧ (c.isAlpha = true ∨ c = '_') := by
    decide
  obtain ⟨hne, hlen, hchars⟩ := hshape key (List.mem_append.mpr (h.imp_right List.mem_map_of_mem))
  exact tokenShaped_of_fieldName hne hlen hchars

theorem Stands.marked (h : Stands L tool key s) : Marked s := h.symm.imp_left And.left

theorem isFence_ne_of_noMarkup {t : Text} (hs : IsFence s) (ht : NoMarkup t) : s ≠ t := by
  rintro rfl
  obtain ⟨field, body, rfl, -⟩ := hs
  exact (ht '<' List.mem_cons_self).1 rfl

end Tokens

section Values

variable {L} {tool : Text}

theorem Every.mono {P Q : Text → Text → Prop} {M N : List Text → Prop} {key : Text} {v : Value F}
    (h : Every P M key v) (hstring : ∀ key s, P key s → Q key s)
    (hnames : ∀ names, M names → N names) : Every Q N key v := by
  induction h with
  | null => exact .null
  | bool => exact .bool
  | number => exact .number
  | string h => exact .string (hstring _ _ h)
  | array _ ih => exact .array ih
  | object h _ ih => exact .object (hnames _ h) ih

theorem Every.rekey {P : Text → Prop} {N : List Text → Prop} {key : Text} {v : Value F}
    (h : Every (fun _ s => P s) N key v) (other : Text) : Every (fun _ s => P s) N other v := by
  induction h generalizing other with
  | null => exact .null
  | bool => exact .bool
  | number => exact .number
  | string h => exact .string h
  | array _ ih => exact .array fun v hv => ih v hv other
  | object hnames h _ => exact .object hnames h

theorem Guarded.marked {key : Text} {v : Value F} (h : Guarded L tool key v) :
    Every (fun _ s => Marked s) (fun names => ∀ k ∈ names, Marked k) key v :=
  h.mono (fun _ _ hs => hs.marked) fun _ hnames k hk =>
    (hnames k hk).imp_left noMarkup_of_tokenShaped

/-- What stands under a name that is no token may stand under every name. -/
theorem Guarded.rename {key : Text} {v : Value F} (h : Guarded L tool key v)
    (hkey : tokenShaped L key = false) (name : Text) : Guarded L tool name v := by
  have hnot (h : key ∈ structuredKeys ∨ (tool, key) ∈ ownProse) : False :=
    absurd (tokenShaped_of_mem_keys h) (Bool.eq_false_iff.mp hkey)
  induction h with
  | null => exact .null
  | bool => exact .bool
  | number => exact .number
  | string h =>
      refine .string (h.imp_right fun hplain => ⟨hplain.1, ?_⟩)
      rcases hplain.2 with hempty | hprose | hfield
      · exact .inl hempty
      · exact (hnot (.inr hprose)).elim
      · exact (hnot (.inl hfield.1)).elim
  | array _ ih => exact .array fun v hv => ih v hv hkey hnot
  | object hnames h _ => exact .object hnames h

end Values

namespace Walk

variable {L} {tool : Text}

/-- A walk has a fence for each span. -/
structure Counted (w : Walk (Value F)) : Prop where
  marked : ∀ key, Every (fun _ s => Marked s) (fun names => ∀ k ∈ names, Marked k) key w.out
  counted : fences w.out = w.spans.length

/-- What is written of a walk has a fence for each span. -/
theorem Counted.fences_result {w : Walk (Value F)} (h : Counted w) :
    Fences (result L w).spans.length (result L w).content := by
  rw [result, ← h.counted]
  exact fences_compact L (h.marked [])

/-- A string under a key is shaped as it may stand. -/
theorem guarded_string {key s : Text} {subjects : List Text}
    (h : (tool, key) ∈ ownProse → NoMarkup s) :
    Guarded L tool key (string (F := F) L tool key s subjects).out ∧
      fences (string (F := F) L tool key s subjects).out =
        (string (F := F) L tool key s subjects).spans.length := by
  unfold string
  split
  · next hempty =>
      cases List.isEmpty_iff.mp hempty
      exact ⟨.string (.inr ⟨by decide, .inl rfl⟩), rfl⟩
  · split
    · next hprose =>
        have hmem := List.contains_iff_mem.mp hprose
        exact ⟨.string (.inr ⟨h hmem, .inr (.inl hmem)⟩), mark_of_noMarkup (h hmem)⟩
    · split
      · next hkeep =>
          rw [Bool.and_eq_true, List.contains_iff_mem] at hkeep
          have hplain := noMarkup_of_tokenShaped hkeep.2
          exact ⟨.string (.inr ⟨hplain, .inr (.inr hkeep)⟩), mark_of_noMarkup hplain⟩
      · have hfence := isFence_fenceText key s
        exact ⟨.string (.inl hfence), mark_of_isFence hfence⟩

theorem name_cases (key k : Text) (row : List Text) :
    (tokenShaped L k = true ∧ name L tool key k row = { out := k }) ∨
      (tokenShaped L k = false ∧ name L tool key k row = fence tool key k row) := by
  rw [name]
  cases h : tokenShaped L k with
  | true => exact .inl ⟨rfl, if_pos rfl⟩
  | false => exact .inr ⟨rfl, if_neg Bool.false_ne_true⟩

/-- Names that stay apart are written apart. -/
theorem name_ne {key a b : Text} {row : List Text}
    (h : a ≠ b ∧ (tokenShaped L a = false → tokenShaped L b = false → escape a ≠ escape b)) :
    (name L tool key a row).out ≠ (name L tool key b row).out := by
  rcases @name_cases F L tool key a row with ⟨ha, hnameA⟩ | ⟨ha, hnameA⟩ <;>
    rcases @name_cases F L tool key b row with ⟨hb, hnameB⟩ | ⟨hb, hnameB⟩ <;>
    rw [hnameA, hnameB]
  · exact h.1
  · exact (isFence_ne_of_noMarkup (isFence_fenceText key b) (noMarkup_of_tokenShaped ha)).symm
  · exact isFence_ne_of_noMarkup (isFence_fenceText key a) (noMarkup_of_tokenShaped hb)
  · intro heq
    exact h.2 ha hb (List.append_cancel_left (List.append_cancel_right heq))

theorem names_valueMembers (members : List (Text × Value F)) (key : Text) (row : List Text) :
    (valueMembers L tool members key row).out.map Prod.fst =
      (members.map Prod.fst).map fun k => (name L tool key k row).out := by
  induction members with
  | nil => rfl
  | cons m ms ih => rw [valueMembers, List.map_cons, ih, List.map_cons, List.map_cons]

/-- The fences of an object whose names stay apart are those of its members. -/
theorem fences_ofMembers {members : List (Text × Value F)} (h : (members.map Prod.fst).Nodup) :
    fences (.object (ofMembers members)) = fencesMembers members := by
  rw [fences, fencesMembers_eq, fencesMembers_eq]
  exact ((ofMembers_perm h).map _).sum_nat

mutual

/-- Every string of a walked value stands as it may, and there is a fence for each span. -/
theorem guarded_value (v : Value F) (key : Text) (subjects : List Text)
    (h : Readable L tool key v) :
    Guarded L tool key (value L tool v key subjects).out ∧
      fences (value L tool v key subjects).out = (value L tool v key subjects).spans.length := by
  cases h with
  | null => exact ⟨.null, rfl⟩
  | bool => exact ⟨.bool, rfl⟩
  | number => exact ⟨.number, rfl⟩
  | string h =>
      rw [value]
      exact guarded_string h
  | @array _ items h =>
      obtain ⟨hguarded, hcounted⟩ := guarded_valueItems items key subjects h
      rw [value]
      exact ⟨.array hguarded, hcounted⟩
  | @object _ members hapart h =>
      rw [value]
      obtain ⟨hguarded, hcounted⟩ := guarded_valueMembers members key
        (subjects ++ rowSubjects L members) h
      have hnodup : ((valueMembers L tool members key
          (subjects ++ rowSubjects L members)).out.map Prod.fst).Nodup := by
        rw [names_valueMembers, List.Nodup, List.pairwise_map]
        exact hapart.imp name_ne
      refine ⟨.object (fun k hk => ?_) fun m hm => ?_, (fences_ofMembers hnodup).trans hcounted⟩
      · obtain ⟨m, hm, rfl⟩ := List.mem_map.mp hk
        exact (hguarded m (mem_of_mem_ofMembers hm)).1
      · exact (hguarded m (mem_of_mem_ofMembers hm)).2

theorem guarded_valueItems (items : List (Value F)) (key : Text) (subjects : List Text)
    (h : ∀ v ∈ items, Readable L tool key v) :
    (∀ v ∈ (valueItems L tool items key subjects).out, Guarded L tool key v) ∧
      fencesItems (valueItems L tool items key subjects).out =
        (valueItems L tool items key subjects).spans.length := by
  cases items with
  | nil => exact ⟨fun _ hv => absurd hv List.not_mem_nil, rfl⟩
  | cons v vs =>
      obtain ⟨hv, hvs⟩ := List.forall_mem_cons.mp h
      obtain ⟨hfirst, hcounted⟩ := guarded_value v key subjects hv
      obtain ⟨hrest, hcountedRest⟩ := guarded_valueItems vs key subjects hvs
      rw [valueItems]
      refine ⟨List.forall_mem_cons.mpr ⟨hfirst, hrest⟩, ?_⟩
      rw [fencesItems, hcounted, hcountedRest, List.length_append]

theorem guarded_valueMembers (members : List (Text × Value F)) (key : Text) (row : List Text)
    (h : ∀ m ∈ members, Readable L tool m.1 m.2) :
    (∀ m ∈ (valueMembers L tool members key row).out,
        (tokenShaped L m.1 = true ∨ IsFence m.1) ∧ Guarded L tool m.1 m.2) ∧
      fencesMembers (valueMembers L tool members key row).out =
        (valueMembers L tool members key row).spans.length := by
  cases members with
  | nil => exact ⟨fun _ hm => absurd hm List.not_mem_nil, rfl⟩
  | cons m ms =>
      obtain ⟨hm, hms⟩ := List.forall_mem_cons.mp h
      obtain ⟨hfirst, hcounted⟩ := guarded_value m.2 m.1 row hm
      obtain ⟨hrest, hcountedRest⟩ := guarded_valueMembers ms key row hms
      rw [valueMembers]
      simp only [List.forall_mem_cons, fencesMembers, List.length_append]
      rcases @name_cases F L tool key m.1 row with ⟨hshape, hname⟩ | ⟨hshape, hname⟩
      · rw [hname, mark_of_noMarkup (noMarkup_of_tokenShaped hshape)]
        refine ⟨⟨⟨.inl hshape, hfirst⟩, hrest⟩, ?_⟩
        simp only [List.length_nil]
        omega
      · have hfence := isFence_fenceText key m.1
        rw [hname, fence, mark_of_isFence hfence]
        refine ⟨⟨⟨.inr hfence, hfirst.rename hshape _⟩, hrest⟩, ?_⟩
        simp only [List.length_singleton]
        omega

end

theorem counted_value {v : Value F} {key : Text} {subjects : List Text}
    (h : Readable L tool key v) : Counted (value L tool v key subjects) :=
  have hwalked := guarded_value v key subjects h
  ⟨hwalked.1.marked.rekey, hwalked.2⟩

end Walk

section Case

/-- What holds of the members of an object, and of anything else as such. -/
def OnMembers (names : List Text → Prop) (member : Text → Value F → Prop)
    (other : Value F → Prop) : Value F → Prop
  | .object members => names (members.map Prod.fst) ∧ ∀ m ∈ members, member m.1 m.2
  | v => other v

/-- What holds of the items of an array, and of anything else as such. -/
def OnItems (item other : Value F → Prop) : Value F → Prop
  | .array items => ∀ v ∈ items, item v
  | v => other v

/-- What holds of a case: of the names of its objects, of the words of the console, of the ids it
took over, and of everything else. -/
structure Positions (F : Type) where
  names : List Text → Prop
  words : Value F → Prop
  id : Value F → Prop
  other : Text → Value F → Prop

namespace Positions

variable (P : Positions F)

def OnUpstream : Value F → Prop :=
  OnMembers P.names (fun key v => if key = "trust".toList then P.words v else P.other key v)
    (P.other "upstream".toList)

def OnLine : Value F → Prop :=
  OnMembers P.names
    (fun key v =>
      if ["section", "plane", "state", "facts", "reason"].map String.toList |>.contains key then
        P.words v
      else if key = "upstream".toList then P.OnUpstream v
      else P.other key v)
    (P.other "line".toList)

def OnFact : Value F → Prop :=
  OnMembers P.names
    (fun key v =>
      if ["section", "plane", "label", "trust", "digest"].map String.toList |>.contains key then
        P.words v
      else if key = "row_id".toList then P.id v
      else P.other key v)
    (P.other "fact".toList)

/-- What holds of a case file, by position. -/
def OnCase : Value F → Prop :=
  OnMembers P.names
    (fun key v =>
      if ["incident_id", "subject", "claimed_agent", "run_id"].map String.toList |>.contains key then
        P.id v
      else if key = "digest".toList then P.words v
      else if key = "lines".toList then OnItems P.OnLine (P.other key) v
      else if key = "facts".toList then OnItems P.OnFact (P.other key) v
      else P.other key v)
    (P.other "value".toList)

end Positions

/-- A value without markup. -/
def Plain : Value F → Prop :=
  Every (fun _ s => NoMarkup s) (fun names => ∀ k ∈ names, NoMarkup k) []

/-- A value that holds no other. -/
def Scalar : Value F → Prop
  | .array _ => False
  | .object _ => False
  | _ => True

/-- An id stands as nothing, as one token or in one fence. -/
def IdStands : Value F → Prop
  | .array _ => False
  | .object _ => False
  | .string s => IsFence s ∨ s = [] ∨ tokenShaped L s = true
  | _ => True

/-- A case in which the console's words have no markup, the ids are no objects, and names stay
apart. -/
def Positions.asked : Positions F where
  names := fun names => names.Nodup ∧ ∀ k ∈ names, NoMarkup k
  words := Plain
  id := Scalar
  other := Readable L caseTool

/-- A case in which everything stands as it may. -/
def Positions.shown : Positions F where
  names := fun names => ∀ k ∈ names, NoMarkup k
  words := Plain
  id := IdStands L
  other := Guarded L caseTool

namespace Walk

variable {L}

theorem fences_of_plain {key : Text} {v : Value F}
    (h : Every (fun _ s => NoMarkup s) (fun names => ∀ k ∈ names, NoMarkup k) key v) :
    fences v = 0 := by
  induction h with
  | null => rfl
  | bool => rfl
  | number => rfl
  | string h => exact mark_of_noMarkup h
  | array _ ih =>
      rw [fences, fencesItems_eq]
      exact List.sum_eq_zero (List.forall_mem_map.mpr ih)
  | object hnames _ ih =>
      rw [fences, fencesMembers_eq]
      refine List.sum_eq_zero (List.forall_mem_map.mpr fun m hm => ?_)
      rw [ih m hm, mark_of_noMarkup (hnames m.1 (List.mem_map_of_mem hm)), Nat.add_zero]

/-- Words of the console are written as they are. -/
theorem counted_words {v : Value F} (h : Plain v) : Counted ({ out := v } : Walk (Value F)) where
  marked := Every.rekey (h.mono (fun _ _ => .inl) fun _ hnames k hk => .inl (hnames k hk))
  counted := fences_of_plain h

theorem shown_idField {key : Text} {v : Value F} (h : Scalar v) :
    IdStands L (idField L key v []).out ∧ Counted (idField L key v []) := by
  cases v with
  | array items => exact h.elim
  | object members => exact h.elim
  | null => exact ⟨trivial, fun _ => .null, rfl⟩
  | bool b => exact ⟨trivial, fun _ => .bool, rfl⟩
  | number n => exact ⟨trivial, fun _ => .number, rfl⟩
  | string s =>
      simp only [idField]
      split
      · next hempty =>
          cases List.isEmpty_iff.mp hempty
          exact ⟨.inr (.inl rfl), fun _ => .string (.inl (by decide)), rfl⟩
      · split
        · next hshape =>
            have hplain := noMarkup_of_tokenShaped hshape
            exact ⟨.inr (.inr hshape), fun _ => .string (.inl hplain), mark_of_noMarkup hplain⟩
        · have hfence := isFence_fenceText key s
          exact ⟨.inl hfence, fun _ => .string (.inr hfence), mark_of_isFence hfence⟩

theorem shown_value {v : Value F} {key : Text} {subjects : List Text}
    (h : Readable L caseTool key v) :
    Guarded L caseTool key (value L caseTool v key subjects).out ∧
      Counted (value L caseTool v key subjects) :=
  ⟨(guarded_value v key subjects h).1, counted_value h⟩

theorem names_eachMember (f : Text → Value F → Walk (Value F)) (members : List (Text × Value F)) :
    (eachMember f members).out.map Prod.fst = members.map Prod.fst := by
  induction members with
  | nil => rfl
  | cons m ms ih => rw [eachMember, List.map_cons, ih, List.map_cons]

/-- Members whose walks are counted are counted together. -/
theorem shown_eachMember {f : Text → Value F → Walk (Value F)} {p q : Text → Value F → Prop}
    (hf : ∀ k v, p k v → q k (f k v).out ∧ Counted (f k v)) {members : List (Text × Value F)}
    (hnames : ∀ k ∈ members.map Prod.fst, NoMarkup k) (h : ∀ m ∈ members, p m.1 m.2) :
    (∀ m ∈ (eachMember f members).out, q m.1 m.2 ∧
        ∀ key, Every (fun _ s => Marked s) (fun names => ∀ k ∈ names, Marked k) key m.2) ∧
      fencesMembers (eachMember f members).out = (eachMember f members).spans.length := by
  induction members with
  | nil => exact ⟨fun _ hm => absurd hm List.not_mem_nil, rfl⟩
  | cons m ms ih =>
      obtain ⟨hm, hms⟩ := List.forall_mem_cons.mp h
      rw [List.map_cons, List.forall_mem_cons] at hnames
      obtain ⟨hfirst, hmarked, hcounted⟩ := hf m.1 m.2 hm
      obtain ⟨hrest, hcountedRest⟩ := ih hnames.2 hms
      rw [eachMember]
      refine ⟨List.forall_mem_cons.mpr ⟨⟨hfirst, hmarked⟩, hrest⟩, ?_⟩
      rw [fencesMembers, mark_of_noMarkup hnames.1, hcounted, hcountedRest, List.length_append,
        Nat.zero_add]

theorem shown_eachItem {f : Value F → Walk (Value F)} {p q : Value F → Prop}
    (hf : ∀ v, p v → q (f v).out ∧ Counted (f v)) {items : List (Value F)} (h : ∀ v ∈ items, p v) :
    (∀ v ∈ (eachItem f items).out, q v ∧
        ∀ key, Every (fun _ s => Marked s) (fun names => ∀ k ∈ names, Marked k) key v) ∧
      fencesItems (eachItem f items).out = (eachItem f items).spans.length := by
  induction items with
  | nil => exact ⟨fun _ hv => absurd hv List.not_mem_nil, rfl⟩
  | cons v vs ih =>
      obtain ⟨hv, hvs⟩ := List.forall_mem_cons.mp h
      obtain ⟨hfirst, hmarked, hcounted⟩ := hf v hv
      obtain ⟨hrest, hcountedRest⟩ := ih hvs
      rw [eachItem]
      refine ⟨List.forall_mem_cons.mpr ⟨⟨hfirst, hmarked⟩, hrest⟩, ?_⟩
      rw [fencesItems, hcounted, hcountedRest, List.length_append]

theorem string_out (tool key s : Text) (subjects : List Text) :
    ∃ t, (string (F := F) L tool key s subjects).out = .string t := by
  unfold string
  split
  · exact ⟨_, rfl⟩
  · split
    · exact ⟨_, rfl⟩
    · split <;> exact ⟨_, rfl⟩

/-- A walk by position shows an object by position, and anything else under its name. -/
theorem shown_byPosition {position : Text}
    {f : List (Text × Value F) → Text → Value F → Walk (Value F)} {p q : Text → Value F → Prop}
    (hf : ∀ members k v, p k v → q k (f members k v).out ∧ Counted (f members k v)) {v : Value F}
    (h : OnMembers (Positions.asked L).names p (Readable L caseTool position) v) :
    OnMembers (Positions.shown L).names q (Guarded L caseTool position)
        (byPosition L position f v).out ∧
      Counted (byPosition L position f v) := by
  cases v with
  | null => exact shown_value h
  | bool b => exact shown_value h
  | number n => exact shown_value h
  | array items => exact shown_value h
  | string s =>
      obtain ⟨hguarded, hcounted⟩ := @shown_value F L _ _ [] h
      refine ⟨?_, hcounted⟩
      obtain ⟨t, ht⟩ := string_out (L := L) (F := F) caseTool position s []
      change OnMembers _ _ _ (string L caseTool position s []).out
      change Guarded L caseTool position (string L caseTool position s []).out at hguarded
      rw [ht] at hguarded ⊢
      exact hguarded
  | object members =>
      obtain ⟨⟨hnodup, hnames⟩, hmembers⟩ := h
      obtain ⟨hshown, hcounted⟩ := shown_eachMember (hf members) hnames hmembers
      have hkeys := names_eachMember (f members) members
      have hin (m : Text × Value F) (hm : m ∈ ofMembers (eachMember (f members) members).out) :=
        hshown m (mem_of_mem_ofMembers hm)
      have hplain : ∀ k ∈ (ofMembers (eachMember (f members) members).out).map Prod.fst,
          NoMarkup k := by
        intro k hk
        obtain ⟨m, hm, rfl⟩ := List.mem_map.mp hk
        refine hnames m.1 ?_
        rw [← hkeys]
        exact List.mem_map_of_mem (mem_of_mem_ofMembers hm)
      refine ⟨⟨hplain, fun m hm => (hin m hm).1⟩, fun key => ?_, ?_⟩
      · exact .object (fun k hk => .inl (hplain k hk)) fun m hm => (hin m hm).2 m.1
      · exact (fences_ofMembers (hkeys ▸ hnodup)).trans hcounted

theorem shown_caseEach {key : Text} {one : Value F → Walk (Value F)} {p q : Value F → Prop}
    (hone : ∀ v, p v → q (one v).out ∧ Counted (one v)) {v : Value F}
    (h : OnItems p (Readable L caseTool key) v) :
    OnItems q (Guarded L caseTool key) (caseEach L key one v).out ∧ Counted (caseEach L key one v) := by
  cases v with
  | null => exact shown_value h
  | bool b => exact shown_value h
  | number n => exact shown_value h
  | object members => exact shown_value h
  | string s =>
      obtain ⟨hguarded, hcounted⟩ := @shown_value F L _ _ [] h
      refine ⟨?_, hcounted⟩
      obtain ⟨t, ht⟩ := string_out (L := L) (F := F) caseTool key s []
      change OnItems _ _ (string L caseTool key s []).out
      change Guarded L caseTool key (string L caseTool key s []).out at hguarded
      rw [ht] at hguarded ⊢
      exact hguarded
  | array items =>
      obtain ⟨hshown, hcounted⟩ := shown_eachItem hone h
      exact ⟨fun v hv => (hshown v hv).1, fun key => .array fun v hv => (hshown v hv).2 key, hcounted⟩

theorem shown_caseUpstream {v : Value F} (h : (Positions.asked L).OnUpstream v) :
    (Positions.shown L).OnUpstream (caseUpstream L v).out ∧ Counted (caseUpstream L v) := by
  refine shown_byPosition (fun members key v hv => ?_) h
  by_cases htrust : key = "trust".toList
  · simp only [if_pos htrust] at hv ⊢
    exact ⟨hv, counted_words hv⟩
  · simp only [if_neg htrust] at hv ⊢
    split
    · next c s =>
        split
        · have hfence := isFence_fenceText "upstream".toList (c :: s)
          exact ⟨.string (.inl hfence), fun _ => .string (.inr hfence), mark_of_isFence hfence⟩
        · exact shown_value hv
    · exact shown_value hv

theorem shown_caseLine {v : Value F} (h : (Positions.asked L).OnLine v) :
    (Positions.shown L).OnLine (caseLine L v).out ∧ Counted (caseLine L v) := by
  refine shown_byPosition (fun members key v hv => ?_) h
  split_ifs at hv ⊢
  · exact ⟨hv, counted_words hv⟩
  · exact shown_caseUpstream hv
  · exact shown_value hv

theorem shown_caseFact {v : Value F} (h : (Positions.asked L).OnFact v) :
    (Positions.shown L).OnFact (caseFact L v).out ∧ Counted (caseFact L v) := by
  refine shown_byPosition (fun members key v hv => ?_) h
  split_ifs at hv ⊢ with hwords hid hrow
  · exact ⟨hv, counted_words hv⟩
  · exact shown_idField hv
  · exact hrow ▸ shown_value (hrow ▸ hv)
  · exact shown_value hv

/-- A case file as the model reads it, by position. -/
theorem shown_caseFile {v : Value F} (h : (Positions.asked L).OnCase v) :
    (Positions.shown L).OnCase (caseFile L v).out ∧ Counted (caseFile L v) := by
  refine shown_byPosition (fun members key v hv => ?_) h
  split_ifs at hv ⊢
  · exact shown_idField hv
  · exact ⟨hv, counted_words hv⟩
  · exact shown_caseEach (fun _ => shown_caseLine) hv
  · exact shown_caseEach (fun _ => shown_caseFact) hv
  · exact shown_value hv

end Walk

end Case

end Genaryx.Copilot
