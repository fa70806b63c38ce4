import Genaryx.Base.Matches
import Genaryx.Copilot.Untrusted
import Mathlib.Algebra.BigOperators.Group.List.Basic

/-!
# Texts whose markup is fences

A text in which markup stands only as whole fences has as many closing tags as fences. The compact
text of a value is one, when each of its strings and names either has no markup or is a fence.
-/

namespace Genaryx.Copilot

open Json

variable {F : Type}

/-- A text without markup. -/
def NoMarkup (t : Text) : Prop := ∀ c ∈ t, c ≠ '<' ∧ c ≠ '>'

instance (t : Text) : Decidable (NoMarkup t) :=
  inferInstanceAs (Decidable (∀ c ∈ t, c ≠ '<' ∧ c ≠ '>'))

/-- One fence, whose content holds no markup. -/
def IsFence (s : Text) : Prop := ∃ field body, s = openTag field ++ body ++ closeTag ∧ NoMarkup body

/-- A text whose markup is so many fences, one after another. -/
inductive Fences : Nat → Text → Prop
  | nil : Fences 0 []
  | plain {n : Nat} {c : Char} {t : Text} (hc : c ≠ '<' ∧ c ≠ '>') (h : Fences n t) :
      Fences n (c :: t)
  | fence {n : Nat} {s t : Text} (hs : IsFence s) (h : Fences n t) : Fences (n + 1) (s ++ t)

section Texts

variable {m n : Nat} {s t : Text}

theorem NoMarkup.append (hs : NoMarkup s) (ht : NoMarkup t) : NoMarkup (s ++ t) :=
  List.forall_mem_append.mpr ⟨hs, ht⟩

theorem NoMarkup.fences (h : NoMarkup t) : Fences 0 t := by
  induction t with
  | nil => exact .nil
  | cons c t ih =>
      obtain ⟨hc, ht⟩ := List.forall_mem_cons.mp h
      exact .plain hc (ih ht)

theorem IsFence.fences (h : IsFence s) : Fences 1 s := by
  have hs := Fences.fence h .nil
  rwa [List.append_nil] at hs

theorem Fences.append (hs : Fences m s) (ht : Fences n t) : Fences (m + n) (s ++ t) := by
  induction hs with
  | nil => rwa [Nat.zero_add]
  | plain hc _ ih => exact .plain hc ih
  | fence hs _ ih =>
      rw [List.append_assoc, Nat.add_right_comm]
      exact .fence hs ih

/-- The label of a tag is letters, digits and underscores. -/
theorem mem_fieldLabel {field : Text} {c : Char} (h : c ∈ fieldLabel field) :
    Text.isAsciiAlphanumeric c = true ∨ c = '_' := by
  unfold fieldLabel at h
  simp only at h
  split at h
  · have hvalue : ∀ d ∈ "value".toList, Text.isAsciiAlphanumeric d = true := by decide
    exact .inl (hvalue c h)
  · obtain ⟨d, -, rfl⟩ := List.mem_map.mp h
    split
    · next hd =>
        rw [Bool.or_eq_true, decide_eq_true_eq] at hd
        exact hd
    · exact .inr rfl

theorem noMarkup_fieldLabel (field : Text) : NoMarkup (fieldLabel field) := by
  intro c hc
  rcases mem_fieldLabel hc with h | rfl
  · constructor
    · rintro rfl
      exact absurd h (by decide)
    · rintro rfl
      exact absurd h (by decide)
  · decide

/-- A tag opens with one `<`, and no closing tag begins in it or in the content behind it. -/
theorem clean_openTag_append {field body : Text} (hbody : NoMarkup body) :
    Text.Clean closeTag (openTag field ++ body) := by
  intro a b hab
  cases a with
  | nil =>
      have hsecond : 'u' = '/' := (List.cons.inj (List.cons.inj hab).2).1
      exact absurd hsecond (by decide)
  | cons c a =>
      have hrest : '<' ∉ "untrusted-data".toList ++ " field=".toList ++ fieldLabel field ++ ['>'] ++
          body := by
        intro hmem
        rcases List.mem_append.mp hmem with hmem | hmem
        · rcases List.mem_append.mp hmem with hmem | hmem
          · rcases List.mem_append.mp hmem with hmem | hmem
            · exact absurd hmem (by decide)
            · exact (noMarkup_fieldLabel field _ hmem).1 rfl
          · exact absurd hmem (by decide)
        · exact (hbody _ hmem).1 rfl
      exact Nat.succ_le_succ (Text.clean_of_notMem hrest a b (List.cons.inj hab).2)

/-- A text has as many closing tags as fences. -/
theorem Fences.length_occurrences (h : Fences n t) :
    (Text.occurrences closeTag t).length = n := by
  have hne : closeTag ≠ [] := List.cons_ne_nil _ _
  suffices hfrom : ∀ before, (Text.occurrencesFrom closeTag before 0 t).length = n from hfrom []
  induction h with
  | nil => exact fun _ => rfl
  | @plain n c t hc _ ih =>
      intro before
      have hnone : ¬ closeTag <+: c :: t := fun ⟨r, hr⟩ => hc.1 (List.cons.inj hr).1.symm
      rw [Text.occurrencesFrom, Text.stripPrefix_eq_none_iff.mpr hnone]
      exact ih _
  | fence hs _ ih =>
      intro before
      obtain ⟨field, body, rfl, hbody⟩ := hs
      rw [Text.occurrencesFrom_append hne (clean_openTag_append hbody), List.length_cons, ih]

theorem noMarkup_escapeMarkup (c : Char) : NoMarkup (escapeMarkup c) := by
  unfold escapeMarkup
  split
  · decide
  split
  · decide
  split
  · decide
  next hlt hgt =>
    rw [not_or] at hlt hgt
    split
    · exact List.forall_mem_singleton.mpr ⟨hlt.1, hgt.1⟩
    split
    · have hdigits : ∀ d ∈ Nat.toDigits 16 c.toNat, d ≠ '<' ∧ d ≠ '>' := by
        have hhex : ∀ d < 16, d.digitChar ≠ '<' ∧ d.digitChar ≠ '>' := by decide
        intro d hd
        obtain ⟨digit, hdigit, rfl⟩ := Text.exists_digitChar_of_mem_toDigits (by decide) hd
        exact hhex digit hdigit
      refine List.forall_mem_cons.mpr ⟨by decide, List.forall_mem_cons.mpr ⟨by decide,
        List.forall_mem_cons.mpr ⟨by decide, ?_⟩⟩⟩
      exact List.forall_mem_append.mpr ⟨hdigits, by decide⟩
    · exact List.forall_mem_singleton.mpr ⟨hlt.1, hgt.1⟩

theorem noMarkup_escape (text : Text) : NoMarkup (escape text) := by
  intro c hc
  obtain ⟨d, -, hd⟩ := List.mem_flatMap.mp hc
  exact noMarkup_escapeMarkup d c hd

/-- What is wrapped is one fence. -/
theorem isFence_fenceText (field text : Text) : IsFence (fenceText field text) :=
  ⟨field, escape text, rfl, noMarkup_escape text⟩

end Texts

section Json

/-- A string that has no markup or is one fence. -/
def Marked (s : Text) : Prop := NoMarkup s ∨ IsFence s

theorem noMarkup_escapeChar {c : Char} (h : c ≠ '<' ∧ c ≠ '>') : NoMarkup (escapeChar c) := by
  unfold escapeChar
  split
  · decide
  split
  · decide
  split
  · decide
  split
  · decide
  split
  · decide
  split
  · decide
  split
  · decide
  split
  · next hlow =>
      have hdigit : ∀ d < 16, d.digitChar ≠ '<' ∧ d.digitChar ≠ '>' := by decide
      rw [(hexChar_control ⟨c.toNat, hlow⟩).1]
      have hzeros : NoMarkup "\\u00".toList := by decide
      refine hzeros.append (List.forall_mem_cons.mpr ⟨hdigit _ ?_, List.forall_mem_singleton.mpr
        (hdigit _ (Nat.mod_lt _ (by decide)))⟩)
      exact Nat.div_lt_of_lt_mul (hlow.trans (by decide))
  · exact List.forall_mem_singleton.mpr h

theorem noMarkup_flatMap_escapeChar {s : Text} (h : NoMarkup s) :
    NoMarkup (s.flatMap escapeChar) := by
  intro c hc
  obtain ⟨d, hd, hc⟩ := List.mem_flatMap.mp hc
  exact noMarkup_escapeChar (h d hd) c hc

/-- A character that is written as it is. -/
theorem escapeChar_eq_self {c : Char} (hlow : 0x20 ≤ c.toNat) (hquote : c ≠ '"')
    (hslash : c ≠ '\\') : escapeChar c = [c] := by
  have hne : ∀ d : Char, d.toNat < 0x20 → c ≠ d := fun d hd h => absurd (h ▸ hd) (not_lt.mpr hlow)
  rw [escapeChar, if_neg hquote, if_neg hslash, if_neg (hne _ (by decide)),
    if_neg (hne _ (by decide)), if_neg (hne _ (by decide)), if_neg (hne _ (by decide)),
    if_neg (hne _ (by decide)), if_neg (not_lt.mpr hlow)]

theorem flatMap_escapeChar_eq_self {s : Text} (h : ∀ c ∈ s, escapeChar c = [c]) :
    s.flatMap escapeChar = s := by
  induction s with
  | nil => rfl
  | cons c s ih =>
      obtain ⟨hc, hs⟩ := List.forall_mem_cons.mp h
      rw [List.flatMap_cons, hc, ih hs]
      rfl

theorem escapeChar_of_mem_fieldLabel {field : Text} {c : Char} (h : c ∈ fieldLabel field) :
    escapeChar c = [c] := by
  rcases mem_fieldLabel h with h | rfl
  · refine escapeChar_eq_self ?_ ?_ ?_
    · simp only [Text.isAsciiAlphanumeric, Bool.or_eq_true, Bool.and_eq_true, decide_eq_true_eq,
        Char.le_def, UInt32.le_iff_toNat_le] at h
      have hzero : ('0' : Char).val.toNat = 0x30 := rfl
      have ha : ('a' : Char).val.toNat = 0x61 := rfl
      have hA : ('A' : Char).val.toNat = 0x41 := rfl
      have hc : c.toNat = c.val.toNat := rfl
      omega
    · rintro rfl
      exact absurd h (by decide)
    · rintro rfl
      exact absurd h (by decide)
  · decide

/-- The writer leaves the tags of a fence as they are. -/
theorem IsFence.flatMap_escapeChar {s : Text} (h : IsFence s) : IsFence (s.flatMap escapeChar) := by
  obtain ⟨field, body, rfl, hbody⟩ := h
  have hopen : (openTag field).flatMap escapeChar = openTag field := by
    refine flatMap_escapeChar_eq_self fun c hc => ?_
    rcases List.mem_append.mp hc with hc | hc
    · rcases List.mem_append.mp hc with hc | hc
      · have hname : ∀ d ∈ '<' :: fenceTag ++ " field=".toList, escapeChar d = [d] := by
          decide
        exact hname c hc
      · exact escapeChar_of_mem_fieldLabel hc
    · cases List.mem_singleton.mp hc
      decide
  have hclose : closeTag.flatMap escapeChar = closeTag := by decide
  refine ⟨field, body.flatMap escapeChar, ?_, noMarkup_flatMap_escapeChar hbody⟩
  rw [List.flatMap_append, List.flatMap_append, hopen, hclose]

/-- How many fences a string with markup is. -/
def mark (s : Text) : Nat := if '<' ∈ s then 1 else 0

theorem mark_of_noMarkup {s : Text} (h : NoMarkup s) : mark s = 0 :=
  if_neg fun hs => (h _ hs).1 rfl

theorem mark_of_isFence {s : Text} (h : IsFence s) : mark s = 1 := by
  obtain ⟨field, body, rfl, -⟩ := h
  exact if_pos List.mem_cons_self

/-- A quoted string has the fence that it is. -/
theorem fences_quote {s : Text} (h : Marked s) : Fences (mark s) (quote s) := by
  have hquote : NoMarkup ['"'] := by decide
  rcases h with h | h
  · rw [mark_of_noMarkup h]
    exact ((hquote.append (noMarkup_flatMap_escapeChar h)).append hquote).fences
  · rw [mark_of_isFence h]
    exact (hquote.fences.append h.flatMap_escapeChar.fences).append hquote.fences

theorem fences_commaSep {α : Type*} {items : List α} {count : α → Nat} {text : α → Text}
    (h : ∀ a ∈ items, Fences (count a) (text a)) :
    Fences (items.map count).sum (commaSep (items.map text)) := by
  induction items with
  | nil => exact .nil
  | cons a items ih =>
      obtain ⟨ha, hitems⟩ := List.forall_mem_cons.mp h
      cases items with
      | nil => exact ha
      | cons b items => exact ha.append (.plain (by decide) (ih hitems))

mutual

/-- The fences among the strings and the names of a value. -/
def fences : Value F → Nat
  | .object members => fencesMembers members
  | .array items => fencesItems items
  | .string s => mark s
  | _ => 0

def fencesItems : List (Value F) → Nat
  | [] => 0
  | v :: vs => fences v + fencesItems vs

def fencesMembers : List (Text × Value F) → Nat
  | [] => 0
  | m :: ms => mark m.1 + fences m.2 + fencesMembers ms

end

theorem fencesItems_eq (items : List (Value F)) : fencesItems items = (items.map fences).sum := by
  induction items with
  | nil => rfl
  | cons v vs ih => rw [fencesItems, ih, List.map_cons, List.sum_cons]

theorem fencesMembers_eq (members : List (Text × Value F)) :
    fencesMembers members = (members.map fun m => mark m.1 + fences m.2).sum := by
  induction members with
  | nil => rfl
  | cons m ms ih => rw [fencesMembers, ih, List.map_cons, List.sum_cons]

/-- What holds of every string under its key, and of the names of every object. -/
inductive Every (P : Text → Text → Prop) (N : List Text → Prop) : Text → Value F → Prop
  | null {key : Text} : Every P N key .null
  | bool {key : Text} {b : Bool} : Every P N key (.bool b)
  | number {key : Text} {n : Number F} : Every P N key (.number n)
  | string {key s : Text} (h : P key s) : Every P N key (.string s)
  | array {key : Text} {items : List (Value F)} (h : ∀ v ∈ items, Every P N key v) :
      Every P N key (.array items)
  | object {key : Text} {members : List (Text × Value F)} (hnames : N (members.map Prod.fst))
      (h : ∀ m ∈ members, Every P N m.1 m.2) : Every P N key (.object members)

theorem compactItems_eq (floatText : F → Text) (items : List (Value F)) :
    compactItems floatText items = items.map (compact floatText) := by
  induction items with
  | nil => rfl
  | cons v vs ih => rw [compactItems, ih, List.map_cons]

theorem compactMembers_eq (floatText : F → Text) (members : List (Text × Value F)) :
    compactMembers floatText members = members.map fun m => (m.1, compact floatText m.2) := by
  induction members with
  | nil => rfl
  | cons m ms ih => rw [compactMembers, ih, List.map_cons]

theorem noMarkup_decimal (n : Nat) : NoMarkup (Text.decimal n) := by
  intro c hc
  have hdigit := Text.isDigit_of_mem_decimal hc
  constructor
  · rintro rfl
    exact absurd hdigit (by decide)
  · rintro rfl
    exact absurd hdigit (by decide)

variable (L : Library F)

/-- A value whose strings are marked is written with the fences that they are. -/
theorem fences_compact {key : Text} {v : Value F}
    (h : Every (fun _ s => Marked s) (fun names => ∀ k ∈ names, Marked k) key v) :
    Fences (fences v) (compact L.floatText v) := by
  induction h with
  | null =>
      have hnull : NoMarkup "null".toList := by decide
      exact hnull.fences
  | @bool _ b =>
      have htrue : NoMarkup "true".toList := by decide
      have hfalse : NoMarkup "false".toList := by decide
      cases b with
      | false => exact hfalse.fences
      | true => exact htrue.fences
  | @number _ n =>
      cases n with
      | posInt n hn => exact (noMarkup_decimal n).fences
      | negInt m hm => exact .plain (by decide) (noMarkup_decimal m).fences
      | float x => exact NoMarkup.fences (L.floatText_clean x)
  | string h => exact fences_quote h
  | @array _ items _ ih =>
      rw [fences, fencesItems_eq, compact, compactItems_eq]
      exact .plain (by decide) ((fences_commaSep ih).append (NoMarkup.fences (by decide)))
  | @object _ members hnames _ ih =>
      rw [fences, fencesMembers_eq, compact, compactMembers_eq, List.map_map]
      refine .plain (by decide) (Fences.append ?_ (NoMarkup.fences (by decide)))
      refine fences_commaSep fun m hm => ?_
      refine (fences_quote (hnames m.1 (List.mem_map_of_mem hm))).append ?_
      exact .plain (by decide) (ih m hm)

end Json

end Genaryx.Copilot
