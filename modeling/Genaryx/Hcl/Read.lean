import Genaryx.Base.Items
import Genaryx.Base.Lines
import Genaryx.Hcl.Body
import Genaryx.Hcl.Template

/-!
# Reading and writing HCL

A reader of files that have one attribute or one end of a block on a line, with constants for
values, and lines as they are written. A written file is read as what its lines are meant to say
exactly where each text in it is plain and normal.

## Implementation notes

The values of strings are normalised. How is left open: `Normalizer` says that it changes no
text of ASCII and no sign that could begin an interpolation.
-/

namespace Genaryx.Hcl

open Base Base.Framing Settings
open Json (Double)

variable {F : Type}

/-- The normal form in which strings are held. -/
structure Normalizer where
  nfc : Text → Text
  nfc_ascii : ∀ t, (∀ c ∈ t, c.toNat < 128) → nfc t = t
  markers_nfc : ∀ t, markers (nfc t) = markers t

/-- No normalisation at all. -/
def Normalizer.none : Normalizer := ⟨id, fun _ _ => rfl, fun _ => rfl⟩

/-- A text that is read as itself between quotes. -/
structure Normalizer.Exact (n : Normalizer) (t : Text) : Prop where
  plain : Plain t
  normal : n.nfc t = t

def isSpace (c : Char) : Bool := c = ' ' || c = '\t'

def skipSpaces (t : Text) : Text := t.dropWhile isSpace

section Read

variable (n : Normalizer) (D : Double F)

/-- Read what an attribute is set to. -/
def readValue (t : Text) : Option (Value F) :=
  if t.head? = some '"' then
    match readQuoted .plain t.tail with
    | some (u, []) => some (.text (n.nfc u))
    | _ => none
  else readConstant D t

/-- Read the labels of a block up to its brace. -/
def readLabels : Nat → Text → Option (List Text)
  | 0, _ => none
  | fuel + 1, t =>
      if t = ['\x7b'] then some []
      else if t.head? = some '"' then
        (readQuoted .plain t.tail).bind fun p =>
          (readLabels fuel (skipSpaces p.2)).map fun labels => p.1 :: labels
      else none

def readLine (t : Text) : Option (Line F) :=
  let t := skipSpaces t
  if t = [] ∨ t.head? = some '#' then some .blank
  else if t = ['\x7d'] then some .closing
  else
    let name := t.takeWhile wordChar
    let rest := skipSpaces (t.dropWhile wordChar)
    if name.head?.any Char.isAlpha then
      if rest.head? = some '=' then (readValue n D (skipSpaces rest.tail)).map (.attr name ·)
      else (readLabels rest.length rest).map (.opening name ·)
    else none

/-- Read a file. -/
def read (t : Text) : Option (List (Item F)) :=
  ((t.splitOn '\n').mapM (readLine n D)).bind assemble

end Read

/-- A line as it is written, and what it is meant to say. -/
inductive Written (D : Double F)
  | blank
  | comment (t : Text) (h : '\n' ∉ t)
  | text (indent : Nat) (name : Word) (pad : Nat) (t : Text)
  | constant (indent : Nat) (name : Word) (pad : Nat) (value : Constant D)
  | opening (indent : Nat) (type : Word) (labels : List { t : Text // Plain t })
  | closing (indent : Nat)

variable {D : Double F}

namespace Written

def spaces (k : Nat) : Text := List.replicate k ' '

/-- The start of a line that sets an attribute. -/
def assign (indent : Nat) (name : Word) (pad : Nat) : Text :=
  spaces indent ++ (name.text ++ (spaces pad ++ ['=', ' ']))

/-- The labels of a block and its brace. -/
def header : List { t : Text // Plain t } → Text
  | [] => ['\x7b']
  | label :: labels => quote label ++ ' ' :: header labels

def toText : Written D → Text
  | blank => []
  | comment t _ => '#' :: t
  | text indent name pad t => assign indent name pad ++ quote t
  | constant indent name pad value => assign indent name pad ++ value.text
  | opening indent type labels => spaces indent ++ (type.text ++ ' ' :: header labels)
  | closing indent => spaces indent ++ ['\x7d']

def line : Written D → Line F
  | blank | comment _ _ => .blank
  | text _ name _ t => .attr name.text (.text t)
  | constant _ name _ value => .attr name.text value.value
  | opening _ type labels => .opening type.text (labels.map (·.1))
  | closing _ => .closing

/-- The text that a line sets an attribute to. -/
def entered : Written D → Option Text
  | text _ _ _ t => some t
  | _ => none

end Written

section Lines

variable {n : Normalizer}

theorem skipSpaces_spaces (k : Nat) {t : Text} (h : ∀ c ∈ t.head?, isSpace c = false) :
    skipSpaces (Written.spaces k ++ t) = t := by
  rw [skipSpaces, Written.spaces, List.dropWhile_append_of_pos fun c hc => by
    rw [List.eq_of_mem_replicate hc]; rfl]
  cases t with
  | nil => rfl
  | cons c t => exact List.dropWhile_cons_of_neg (by rw [h c rfl]; exact Bool.false_ne_true)

theorem not_isAlpha {c d : Char} (h : c.isAlpha = true) (hd : d.isAlpha = false) : c ≠ d := by
  rintro rfl
  exact Bool.false_ne_true (hd.symm.trans h)

/-- A line that begins with a word is read behind the word. -/
theorem readLine_word (indent : Nat) (name : Word) (rest : Text)
    (hrest : ∀ c ∈ rest.head?, wordChar c = false) :
    readLine n D (Written.spaces indent ++ (name.text ++ rest)) =
      if (skipSpaces rest).head? = some '=' then
        (readValue n D (skipSpaces (skipSpaces rest).tail)).map (.attr name.text ·)
      else (readLabels (skipSpaces rest).length (skipSpaces rest)).map (.opening name.text ·) := by
  obtain ⟨c, cs, hname, halpha⟩ := name.exists_cons
  have hspace : isSpace c = false := by
    rw [isSpace, Bool.or_eq_false_iff]
    exact ⟨decide_eq_false (not_isAlpha halpha rfl), decide_eq_false (not_isAlpha halpha rfl)⟩
  have hskip : skipSpaces (Written.spaces indent ++ (name.text ++ rest)) = name.text ++ rest := by
    refine skipSpaces_spaces indent fun d hd => ?_
    rw [hname] at hd
    cases hd
    exact hspace
  have htake : (name.text ++ rest).takeWhile wordChar = name.text := by
    rw [List.takeWhile_append_of_pos name.wordChar]
    cases rest with
    | nil => exact List.append_nil _
    | cons d rest => rw [List.takeWhile_cons_of_neg (by rw [hrest d rfl]; exact Bool.false_ne_true),
        List.append_nil]
  have hdrop : (name.text ++ rest).dropWhile wordChar = rest := by
    rw [List.dropWhile_append_of_pos name.wordChar]
    cases rest with
    | nil => rfl
    | cons d rest => exact List.dropWhile_cons_of_neg (by rw [hrest d rfl]; exact Bool.false_ne_true)
  rw [readLine]
  simp only [hskip, htake, hdrop, name.head_alpha, if_true]
  rw [if_neg, if_neg]
  · rw [hname, List.cons_append]
    exact fun h => not_isAlpha halpha (d := '\x7d') rfl (List.cons.inj h).1
  · rw [hname, List.cons_append]
    rintro (h | h)
    · exact absurd h (List.cons_ne_nil c _)
    · exact not_isAlpha halpha (d := '#') rfl (Option.some.inj h)

/-- A line that sets an attribute is read as its value is. -/
theorem readLine_assign (indent : Nat) (name : Word) (pad : Nat) {value : Text}
    (hvalue : ∀ c ∈ value.head?, isSpace c = false) :
    readLine n D (Written.assign indent name pad ++ value) =
      (readValue n D value).map (.attr name.text ·) := by
  have hshape : Written.assign indent name pad ++ value =
      Written.spaces indent ++ (name.text ++ (Written.spaces pad ++ '=' :: ' ' :: value)) := by
    simp [Written.assign]
  have hskip : skipSpaces (Written.spaces pad ++ '=' :: ' ' :: value) = '=' :: ' ' :: value :=
    skipSpaces_spaces pad fun c hc => by cases hc; rfl
  have hrest : ∀ c ∈ (Written.spaces pad ++ '=' :: ' ' :: value).head?, wordChar c = false := by
    intro c hc
    cases pad with
    | zero => cases hc; rfl
    | succ pad => cases hc; rfl
  have hbehind : skipSpaces (' ' :: value) = value := skipSpaces_spaces 1 hvalue
  rw [hshape, readLine_word indent name _ hrest, hskip]
  simp only [List.head?_cons, if_true, List.tail_cons, hbehind]

theorem readValue_quote (t : Text) : readValue n D (quote t) =
    match readQuoted .plain (backslashed t ++ ['"']) with
    | some (u, []) => some (.text (n.nfc u))
    | _ => none := rfl

theorem readValue_constant (c : Constant D) : readValue n D c.text = some c.value := by
  have hquote : c.text.head? ≠ some '"' := fun hhead => by
    rcases Constant.mem_text (List.mem_of_mem_head? hhead) with h | h
    · exact absurd h (by decide)
    · exact absurd h (by decide)
  rw [readValue, if_neg hquote, readConstant_text]

theorem constant_head_not_space (c : Constant D) : ∀ d ∈ c.text.head?, isSpace d = false := by
  intro d hd
  rcases Constant.mem_text (List.mem_of_mem_head? hd) with h | rfl
  · rw [isSpace, Bool.or_eq_false_iff]
    constructor <;> refine decide_eq_false ?_ <;> rintro rfl <;> exact absurd h (by decide)
  · rfl

/-- The labels of a block are read up to its brace. -/
theorem readLabels_header (labels : List { t : Text // Plain t }) {fuel : Nat}
    (hfuel : labels.length < fuel) :
    readLabels fuel (Written.header labels) = some (labels.map (·.1)) := by
  induction labels generalizing fuel with
  | nil =>
      obtain ⟨fuel, rfl⟩ : ∃ k, fuel = k + 1 := ⟨fuel - 1, by simp at hfuel; omega⟩
      rfl
  | cons label labels ih =>
      rw [List.length_cons] at hfuel
      obtain ⟨fuel, rfl⟩ : ∃ k, fuel = k + 1 := ⟨fuel - 1, by omega⟩
      have hheader : Written.header (label :: labels) =
          '"' :: (backslashed label.1 ++ '"' :: ' ' :: Written.header labels) := by
        simp [Written.header, quote]
      have hskip : skipSpaces (' ' :: Written.header labels) = Written.header labels := by
        cases labels <;> rfl
      have hopen : '"' :: (backslashed label.1 ++ '"' :: ' ' :: Written.header labels) ≠ ['\x7b'] :=
        fun h => absurd (List.cons.inj h).1 (by decide)
      rw [hheader, readLabels, if_neg hopen, if_pos List.head?_cons, List.tail_cons,
        readQuoted_backslashed label.2, Option.bind_some, hskip, ih (by omega)]
      rfl

theorem length_lt_header (labels : List { t : Text // Plain t }) :
    labels.length < (Written.header labels).length := by
  induction labels with
  | nil => decide
  | cons label labels ih =>
      simp only [Written.header, List.length_append, List.length_cons]
      omega

theorem readLine_opening (indent : Nat) (type : Word) (labels : List { t : Text // Plain t }) :
    readLine n D (Written.spaces indent ++ (type.text ++ ' ' :: Written.header labels)) =
      some (.opening type.text (labels.map (·.1))) := by
  have hskip : skipSpaces (' ' :: Written.header labels) = Written.header labels := by
    cases labels <;> rfl
  have hsign : (Written.header labels).head? ≠ some '=' := by
    cases labels with
    | nil => decide
    | cons label labels => exact fun h => absurd (Option.some.inj h) (by decide)
  rw [readLine_word indent type (' ' :: Written.header labels)
    (fun _ hc => by cases hc; rfl), hskip, if_neg hsign,
    readLabels_header labels (length_lt_header labels)]
  rfl

theorem readLine_closing (indent : Nat) :
    readLine n D (Written.spaces indent ++ ['\x7d']) = some .closing := by
  have hskip : skipSpaces (Written.spaces indent ++ ['\x7d']) = ['\x7d'] :=
    skipSpaces_spaces indent fun c hc => by cases hc; rfl
  rw [readLine, hskip]
  rfl

/-- A line that sets an attribute to an exact text is read as it is meant. -/
theorem readLine_text {t : Text} (h : n.Exact t) (indent : Nat) (name : Word) (pad : Nat) :
    readLine n D (Written.assign indent name pad ++ quote t) =
      some (.attr name.text (.text t)) := by
  rw [readLine_assign indent name pad fun c hc => by cases hc; rfl, readValue_quote,
    readQuoted_backslashed h.plain]
  simp only [h.normal, Option.map_some]

/-- A line that is read as setting an attribute to its text has an exact text. -/
theorem exact_of_readLine {t : Text} {indent : Nat} {name : Word} {pad : Nat} {l : Line F}
    (h : readLine n D (Written.assign indent name pad ++ quote t) = some l) :
    ∃ u, l = .attr name.text (.text u) ∧ (u = t → n.Exact t) := by
  rw [readLine_assign indent name pad fun c hc => by cases hc; rfl, readValue_quote,
    Option.map_eq_some_iff] at h
  obtain ⟨value, hvalue, rfl⟩ := h
  split at hvalue
  · next u hread =>
      cases hvalue
      refine ⟨n.nfc u, rfl, fun hsame => ?_⟩
      obtain ⟨-, -, hplain⟩ := markers_of_readQuoted hread
      have hexact : Plain t := hplain (by rw [← hsame, n.markers_nfc])
      rw [readQuoted_backslashed hexact] at hread
      cases hread
      exact ⟨hexact, hsame⟩
  · cases hvalue

theorem Written.readLine_line {w : Written D} (h : ∀ t ∈ w.entered, n.Exact t) :
    readLine n D w.toText = some w.line := by
  cases w with
  | blank => rfl
  | comment t _ => rfl
  | text indent name pad t => exact readLine_text (h t rfl) indent name pad
  | constant indent name pad value =>
      rw [toText, readLine_assign indent name pad (constant_head_not_space value), readValue_constant]
      rfl
  | opening indent type labels => exact readLine_opening indent type labels
  | closing indent => exact readLine_closing indent

/-- What a written line is read as is blank where it is meant to be, and it is what is meant only
with exact texts. -/
theorem Written.exact_of_readLine {w : Written D} {l : Line F}
    (h : readLine n D w.toText = some l) :
    l.isBlank = w.line.isBlank ∧ (l = w.line → ∀ t ∈ w.entered, n.Exact t) := by
  cases w with
  | text indent name pad t =>
      obtain ⟨u, rfl, hexact⟩ := Hcl.exact_of_readLine h
      refine ⟨rfl, fun hsame t' ht' => ?_⟩
      cases ht'
      rw [line, Line.attr.injEq, Value.text.injEq] at hsame
      exact hexact hsame.2
  | _ =>
      rw [readLine_line (by intro t ht; cases ht)] at h
      cases h
      exact ⟨rfl, fun _ t ht => nomatch ht⟩

end Lines

section Files

variable {n : Normalizer}

/-- A file of written lines. -/
def fileText (ws : List (Written D)) : Text := terminated '\n' (ws.map Written.toText)

theorem splitOn_append_newline (a b : Text) :
    (a ++ '\n' :: b).splitOn '\n' = a.splitOn '\n' ++ b.splitOn '\n' :=
  List.splitOnP_append_cons a b rfl

theorem splitOn_of_notMem {a : Text} (h : '\n' ∉ a) : a.splitOn '\n' = [a] :=
  List.splitOnP_eq_singleton fun _ hc => beq_eq_false_iff_ne.mpr fun heq => h (heq ▸ hc)

theorem terminated_cons (line : Text) (lines : List Text) (rest : Text) :
    terminated '\n' (line :: lines) ++ rest = line ++ '\n' :: (terminated '\n' lines ++ rest) := by
  simp [terminated]

/-- A file is split into its lines, with nothing after the last newline. -/
theorem splitOn_terminated {lines : List Text} (h : ∀ line ∈ lines, '\n' ∉ line) :
    (terminated '\n' lines).splitOn '\n' = lines ++ [[]] := by
  induction lines with
  | nil => rfl
  | cons line lines ih =>
      obtain ⟨hline, hlines⟩ := List.forall_mem_cons.mp h
      rw [← List.append_nil (terminated '\n' (line :: lines)), terminated_cons,
        splitOn_append_newline, List.append_nil, ih hlines, splitOn_of_notMem hline]
      rfl

/-- What is split behind some lines is found among the parts of the whole. -/
theorem mem_splitOn_terminated_append (lines : List Text) (rest : Text) {part : Text}
    (h : part ∈ rest.splitOn '\n') : part ∈ (terminated '\n' lines ++ rest).splitOn '\n' := by
  induction lines with
  | nil => exact h
  | cons line lines ih =>
      rw [terminated_cons, splitOn_append_newline]
      exact List.mem_append_right _ ih

theorem newline_notMem_spaces (k : Nat) : '\n' ∉ Written.spaces k := fun h =>
  absurd (List.eq_of_mem_replicate h) (by decide)

theorem newline_notMem_assign (indent : Nat) (name : Word) (pad : Nat) :
    '\n' ∉ Written.assign indent name pad := by
  simp only [Written.assign, List.mem_append, not_or]
  exact ⟨newline_notMem_spaces indent, name.notMem rfl, newline_notMem_spaces pad,
    by decide⟩

theorem newline_mem_backslashed {t : Text} : '\n' ∈ backslashed t ↔ '\n' ∈ t := by
  rw [backslashed, List.mem_flatMap]
  constructor
  · rintro ⟨c, hc, hmem⟩
    split at hmem
    · rcases List.mem_pair.mp hmem with h | rfl
      · exact absurd h (by decide)
      · exact hc
    · rwa [List.mem_singleton.mp hmem]
  · exact fun h => ⟨'\n', h, by decide⟩

theorem newline_notMem_quote {t : Text} (h : '\n' ∉ t) : '\n' ∉ quote t := by
  simp only [quote, List.mem_cons, List.mem_append, newline_mem_backslashed, not_or]
  exact ⟨by decide, h, by decide, List.not_mem_nil⟩

theorem Plain.newline_notMem {t : Text} (h : Plain t) : '\n' ∉ t := fun hmem =>
  absurd (h.line '\n' hmem) (by decide)

theorem newline_notMem_header (labels : List { t : Text // Plain t }) :
    '\n' ∉ Written.header labels := by
  induction labels with
  | nil => decide
  | cons label labels ih =>
      simp only [Written.header, List.mem_append, List.mem_cons, not_or]
      exact ⟨newline_notMem_quote label.2.newline_notMem, by decide, ih⟩

theorem newline_notMem_constant (c : Constant D) : '\n' ∉ c.text := fun h =>
  (Constant.mem_text h).elim (absurd · (by decide)) (absurd · (by decide))

/-- A written line is one line, but for the text in it. -/
theorem Written.newline_notMem {w : Written D} (h : ∀ t ∈ w.entered, '\n' ∉ t) :
    '\n' ∉ w.toText := by
  cases w with
  | blank => exact List.not_mem_nil
  | comment t ht =>
      simp only [toText, List.mem_cons, not_or]
      exact ⟨by decide, ht⟩
  | text indent name pad t =>
      simp only [toText, List.mem_append, not_or]
      exact ⟨newline_notMem_assign indent name pad, newline_notMem_quote (h t rfl)⟩
  | constant indent name pad value =>
      simp only [toText, List.mem_append, not_or]
      exact ⟨newline_notMem_assign indent name pad, newline_notMem_constant value⟩
  | opening indent type labels =>
      simp only [toText, List.mem_append, List.mem_cons, not_or]
      exact ⟨newline_notMem_spaces indent, type.notMem rfl, by decide,
        newline_notMem_header labels⟩
  | closing indent =>
      simp only [toText, List.mem_append, not_or]
      exact ⟨newline_notMem_spaces indent, by decide⟩

/-- A line that begins a quoted string and does not end it is not read. -/
theorem readLine_unclosed (indent : Nat) (name : Word) (pad : Nat) (t : Text) :
    readLine n D (Written.assign indent name pad ++ '"' :: backslashed t) = none := by
  rw [readLine_assign indent name pad fun c hc => by cases hc; rfl, readValue,
    if_pos List.head?_cons, List.tail_cons, readQuoted_unclosed]
  rfl

/-- A file that is read has no line end in its texts. -/
theorem newline_notMem_of_read {ws : List (Written D)} {lines : List (Line F)}
    (h : ((fileText ws).splitOn '\n').mapM (readLine n D) = some lines) {w : Written D}
    (hw : w ∈ ws) : ∀ t ∈ w.entered, '\n' ∉ t := by
  intro t ht hmem
  cases w with
  | text indent name pad t' =>
      cases ht
      obtain ⟨before, after, hsplit, hbefore⟩ := List.eq_append_cons_of_mem hmem
      obtain ⟨ws₁, ws₂, rfl⟩ := List.append_of_mem hw
      have hline : backslashed t = backslashed before ++ '\n' :: backslashed after := by
        rw [hsplit, backslashed_append, backslashed_cons (by decide)]
      have hfile : fileText (ws₁ ++ .text indent name pad t :: ws₂) =
          terminated '\n' (ws₁.map Written.toText) ++
            ((Written.assign indent name pad ++ '"' :: backslashed before) ++ '\n' ::
              (backslashed after ++ '"' :: '\n' :: terminated '\n' (ws₂.map Written.toText))) := by
        simp [fileText, terminated, Written.toText, quote, hline]
      have hpart : '\n' ∉ Written.assign indent name pad ++ '"' :: backslashed before := by
        simp only [List.mem_append, List.mem_cons, newline_mem_backslashed, not_or]
        exact ⟨newline_notMem_assign indent name pad, by decide, hbefore⟩
      have hmemPart := mem_splitOn_terminated_append (ws₁.map Written.toText)
        ((Written.assign indent name pad ++ '"' :: backslashed before) ++ '\n' ::
          (backslashed after ++ '"' :: '\n' :: terminated '\n' (ws₂.map Written.toText))) (by
        rw [splitOn_append_newline, splitOn_of_notMem hpart]
        exact List.mem_cons_self)
      rw [← hfile] at hmemPart
      have hsome := (mapM_eq_some_iff.mp h).1 _ hmemPart
      rw [readLine_unclosed] at hsome
      cases hsome
  | _ => cases ht

theorem mapM_readLine {ws : List (Written D)}
    (h : ∀ w ∈ ws, readLine n D w.toText = some w.line) :
    (ws.map Written.toText).mapM (readLine n D) = some (ws.map Written.line) := by
  rw [mapM_eq_some_iff, List.forall_mem_map, List.filterMap_map]
  refine ⟨fun w hw => by rw [h w hw]; rfl, ?_⟩
  induction ws with
  | nil => rfl
  | cons w ws ih =>
      obtain ⟨hw, hws⟩ := List.forall_mem_cons.mp h
      rw [List.map_cons, List.filterMap_cons_some (by exact hw), ih hws]

/-- Lines that are read as what is meant, but for blank ones, have exact texts. -/
theorem exact_of_mapM {ws : List (Written D)} {lines : List (Line F)}
    (h : (ws.map Written.toText).mapM (readLine n D) = some lines)
    (hsame : lines.filter (!·.isBlank) = (ws.map Written.line).filter (!·.isBlank)) :
    ∀ w ∈ ws, ∀ t ∈ w.entered, n.Exact t := by
  induction ws generalizing lines with
  | nil => exact fun w hw => absurd hw List.not_mem_nil
  | cons w ws ih =>
      rw [List.map_cons, List.mapM_cons] at h
      obtain ⟨l, hl, hrest⟩ := Option.bind_eq_some_iff.mp h
      obtain ⟨rest, hmapM, hcons⟩ := Option.bind_eq_some_iff.mp hrest
      cases hcons
      obtain ⟨hblank, hexact⟩ := Written.exact_of_readLine hl
      rw [List.map_cons, List.filter_cons, List.filter_cons, hblank] at hsame
      refine List.forall_mem_cons.mpr ?_
      split at hsame
      · rw [List.cons.injEq] at hsame
        exact ⟨hexact hsame.1, ih hmapM hsame.2⟩
      · next hmeant =>
          refine ⟨fun t ht => ?_, ih hmapM hsame⟩
          cases w with
          | text => exact absurd rfl hmeant
          | _ => cases ht

/-- A written file whose lines mean a body is read as that body exactly where its texts are
exact. -/
theorem read_fileText_iff {ws : List (Written D)} {body : List (Item F)}
    (hbody : assemble (ws.map Written.line) = some body) :
    read n D (fileText ws) = some body ↔ ∀ w ∈ ws, ∀ t ∈ w.entered, n.Exact t := by
  have hblank : readLine n D [] = some .blank := rfl
  constructor
  · intro hread
    obtain ⟨lines, hlines, hassemble⟩ := Option.bind_eq_some_iff.mp hread
    have hclean : ∀ line ∈ ws.map Written.toText, '\n' ∉ line := List.forall_mem_map.mpr fun w hw =>
      Written.newline_notMem (newline_notMem_of_read hlines hw)
    have hsame := (bodyLines_of_assemble hassemble).symm.trans (bodyLines_of_assemble hbody)
    rw [fileText, splitOn_terminated hclean, List.mapM_append] at hlines
    obtain ⟨first, hfirst, hrest⟩ := Option.bind_eq_some_iff.mp hlines
    have hshape : lines = first ++ [.blank] := by
      simpa [hblank] using hrest.symm
    rw [hshape, List.filter_append] at hsame
    exact exact_of_mapM hfirst (by simpa [Line.isBlank] using hsame)
  · intro hexact
    have hlines : ∀ w ∈ ws, readLine n D w.toText = some w.line := fun w hw =>
      Written.readLine_line (hexact w hw)
    have hclean : ∀ line ∈ ws.map Written.toText, '\n' ∉ line := List.forall_mem_map.mpr fun w hw =>
      Written.newline_notMem fun t ht => (hexact w hw t ht).plain.newline_notMem
    have hread : ((fileText ws).splitOn '\n').mapM (readLine n D) =
        some (ws.map Written.line ++ [.blank]) := by
      rw [fileText, splitOn_terminated hclean, List.mapM_append, mapM_readLine hlines]
      rfl
    rw [read, hread, Option.bind_some, ← assemble_filter_isBlank, List.filter_append,
      ← hbody, ← assemble_filter_isBlank (ws.map Written.line)]
    exact congrArg assemble (List.append_nil _)

end Files

section Says

variable {n : Normalizer} {ws vs : List (Written D)} {items more : List (Item F)}

/-- Written lines are those of some items, and blank ones between them. -/
def Says (ws : List (Written D)) (items : List (Item F)) : Prop :=
  (ws.map Written.line).filter (!·.isBlank) = bodyLines items

namespace Says

theorem nil : Says ([] : List (Written D)) [] := rfl

theorem append (h : Says ws items) (hmore : Says vs more) : Says (ws ++ vs) (items ++ more) := by
  rw [Says] at h hmore ⊢
  rw [List.map_append, List.filter_append, h, hmore, bodyLines_append]

/-- A line that sets nothing may stand anywhere. -/
theorem cons_blank {w : Written D} (hw : w.line.isBlank = true) (h : Says ws items) :
    Says (w :: ws) items := by
  rw [Says, List.map_cons, List.filter_cons_of_neg (by rw [hw]; decide)]
  exact h

theorem text (indent : Nat) (name : Word) (pad : Nat) (t : Text) :
    Says [(.text indent name pad t : Written D)] [.attr name.text (.text t)] := rfl

theorem constant (indent : Nat) (name : Word) (pad : Nat) (value : Constant D) :
    Says [.constant indent name pad value] [.attr name.text value.value] := rfl

/-- Lines between the two ends of a block are those of its body. -/
theorem block (indent : Nat) (type : Word) (labels : List { t : Text // Plain t }) (outdent : Nat)
    (h : Says ws items) :
    Says (.opening indent type labels :: (ws ++ [.closing outdent]))
      [.block type.text (labels.map (·.1)) items] := by
  have hend : [(Written.closing outdent : Written D)].map Written.line = [.closing] := rfl
  rw [Says] at h ⊢
  rw [List.map_cons, List.map_append, List.filter_cons_of_pos (by rfl), List.filter_append, h, hend,
    bodyLines, bodyLines, List.append_nil]
  rfl

theorem flatMap {α : Type} {f : α → List (Written D)} {g : α → Item F} (l : List α)
    (h : ∀ a, Says (f a) [g a]) : Says (l.flatMap f) (l.map g) := by
  induction l with
  | nil => rfl
  | cons a l ih => exact (h a).append ih

theorem option {α : Type} {f : α → Written D} {g : α → Item F} (o : Option α)
    (h : ∀ a, Says [f a] [g a]) : Says (o.map f).toList (o.map g).toList := by
  cases o with
  | none => rfl
  | some a => exact h a

/-- A file of the lines of a body is read as the body exactly where its texts are exact. -/
theorem read_iff {body : List (Item F)} (h : Says ws body) (hnames : (attributeNames body).Nodup)
    (hdistinct : AllDistinct body) :
    read n D (fileText ws) = some body ↔ ∀ w ∈ ws, ∀ t ∈ w.entered, n.Exact t := by
  refine read_fileText_iff ?_
  rw [← assemble_filter_isBlank, h, assemble_bodyLines hnames hdistinct]

end Says

end Says

end Genaryx.Hcl
