import Genaryx.Base.Items
import Genaryx.Base.Lines
import Genaryx.Base.Settings
import Genaryx.Base.Words

/-!
# Flat mappings of YAML

A reader of documents that are one mapping of names to constants, with comments on lines of
their own, and the lines of such a document as they are written. A written document is read as
what its lines are meant to say exactly where the comments hold nothing that ends a line or that
YAML does not allow.

## Implementation notes

The first version of YAML ends a line at three characters more than the second one, so the
version is a parameter. A byte order mark is refused where it does not begin the document.
-/

namespace Genaryx.Yaml

open Base Base.Framing Settings
open Json (Double)

inductive Version
  | v1_1
  | v1_2
  deriving DecidableEq

/-- A character that ends a line. -/
def isBreak (v : Version) (c : Char) : Bool :=
  c = '\n' || c = '\r' || (v = .v1_1 && (c = '\u0085' || c = '\u2028' || c = '\u2029'))

/-- A character that a document may hold. -/
def isPrintable (c : Char) : Bool :=
  let v := c.toNat
  v = 0x09 || v = 0x0A || v = 0x0D || (0x20 ≤ v && v ≤ 0x7E) || v = 0x85 ||
    (0xA0 ≤ v && v ≤ 0xD7FF) || (0xE000 ≤ v && v ≤ 0xFFFD && v ≠ 0xFEFF) || 0x10000 ≤ v

/-- A character that a line may hold. -/
def isInLine (v : Version) (c : Char) : Bool := isPrintable c && !isBreak v c

/-- A text that stands on one line. -/
def OneLine (v : Version) (t : Text) : Prop := ∀ c ∈ t, isInLine v c = true

instance (v : Version) (t : Text) : Decidable (OneLine v t) :=
  List.decidableBAll (fun c : Char => isInLine v c = true) t

/-- A comment, or a member of the mapping. -/
inductive Node (F : Type)
  | comment (t : Text)
  | entry (key : Text) (value : Value F)
  deriving DecidableEq

variable {F : Type}

def Node.key? : Node F → Option Text
  | comment _ => none
  | entry key _ => some key

/-- The escapes of one character after a backslash. -/
def escapes : List (Char × Char) :=
  [('"', '"'), ('\\', '\\'), ('/', '/'), ('n', '\n'), ('r', '\r'), ('t', '\t')]

/-- Read what stands behind the quote that opens a line's last value, after a backslash or not. -/
def readQuoted : Bool → Text → Option Text
  | _, [] => none
  | true, c :: rest => (escapes.lookup c).bind fun d => (readQuoted false rest).map (d :: ·)
  | false, c :: rest =>
      if c = '"' then if rest = [] then some [] else none
      else if c = '\\' then readQuoted true rest
      else (readQuoted false rest).map (c :: ·)

/-- The words that are no strings. -/
def reserved : List Text :=
  ["null", "Null", "NULL", "true", "True", "TRUE", "false", "False", "FALSE", "yes", "Yes", "YES",
    "no", "No", "NO", "on", "On", "ON", "off", "Off", "OFF", "y", "Y", "n", "N"]

/-- A character of a string that needs no quotes. -/
def bareChar (c : Char) : Bool := wordChar c || c = '.'

/-- A string that needs no quotes. -/
def IsBare (t : Text) : Prop :=
  t.head?.any Char.isAlpha = true ∧ (∀ c ∈ t, bareChar c = true) ∧ t ∉ reserved

instance (t : Text) : Decidable (IsBare t) :=
  @instDecidableAnd _ _ _ (@instDecidableAnd _ _
    (List.decidableBAll (fun c : Char => bareChar c = true) t) _)

section Read

variable (v : Version) (D : Double F)

def readScalar (t : Text) : Option (Value F) :=
  if t.head? = some '"' then (readQuoted false t.tail).map .text
  else if IsBare t then some (.text t)
  else readConstant D t

/-- Read one line, which may be blank. -/
def readLine (t : Text) : Option (Option (Node F)) :=
  let inner := t.dropWhile (· = ' ')
  if inner = [] then some none
  else if inner.head? = some '#' then some (some (.comment inner.tail))
  else
    (Text.splitOnce ':' t).bind fun p =>
      if p.1.head?.any Char.isAlpha ∧ p.1.all wordChar ∧ p.2.head? = some ' ' then
        (readScalar D p.2.tail).map fun value => some (.entry p.1 value)
      else none

/-- Read a document whose mapping names no key twice. -/
def read (t : Text) : Option (List (Node F)) :=
  if t.all isPrintable then
    (((t.splitOnP (isBreak v)).mapM (readLine D)).map fun nodes => nodes.filterMap id).bind
      fun nodes => if (nodes.filterMap Node.key?).Nodup then some nodes else none
  else none

end Read

variable (D : Double F)

/-- A line as it is written, and what it is meant to say. -/
inductive Written
  | comment (t : Text)
  | quoted (key : Word) (t : Text) (h : ∀ v, OneLine v t)
  | bare (key : Word) (t : Text) (h : IsBare t)
  | constant (key : Word) (value : Constant D)

variable {D}

namespace Written

def toText : Written D → Text
  | comment t => '#' :: t
  | quoted key t _ => key.text ++ ':' :: ' ' :: quote t
  | bare key t _ => key.text ++ ':' :: ' ' :: t
  | constant key value => key.text ++ ':' :: ' ' :: value.text

def node : Written D → Node F
  | comment t => .comment t
  | quoted key t _ => .entry key.text (.text t)
  | bare key t _ => .entry key.text (.text t)
  | constant key value => .entry key.text value.value

/-- The text of a comment. -/
def comment? : Written D → Option Text
  | comment t => some t
  | _ => none

end Written

/-- A document of written lines. -/
def fileText (ws : List (Written D)) : Text := terminated '\n' (ws.map Written.toText)

section Characters

variable {v : Version} {c : Char}

theorem isInLine_of_ascii (v : Version) (h : 0x20 ≤ c.toNat ∧ c.toNat ≤ 0x7E) :
    isInLine v c = true := by
  have hne : ∀ d : Char, d.toNat < 0x20 ∨ 0x7E < d.toNat → decide (c = d) = false := fun d hd =>
    decide_eq_false fun heq => by
      rw [heq] at h
      omega
  have hbreak : isBreak v c = false := by
    rw [isBreak, hne '\n' (by decide), hne '\r' (by decide), hne '\u0085' (by decide),
      hne '\u2028' (by decide), hne '\u2029' (by decide)]
    exact Bool.and_false _
  have hprintable : isPrintable c = true := by
    simp only [isPrintable, Bool.or_eq_true, Bool.and_eq_true, decide_eq_true_eq]
    omega
  rw [isInLine, hprintable, hbreak]
  rfl

theorem ascii_of_isAlphanum (h : c.isAlphanum = true) : 0x20 ≤ c.toNat ∧ c.toNat ≤ 0x7E := by
  have hbetween : ∀ lo hi : Char, 0x20 ≤ lo.toNat → hi.toNat ≤ 0x7E →
      lo.val ≤ c.val ∧ c.val ≤ hi.val → 0x20 ≤ c.toNat ∧ c.toNat ≤ 0x7E :=
    fun _ _ hlo hhi h => ⟨hlo.trans (UInt32.le_iff_toNat_le.mp h.1),
      (UInt32.le_iff_toNat_le.mp h.2).trans hhi⟩
  rcases Bool.or_eq_true_iff.mp h with halpha | hdigit
  · rcases Bool.or_eq_true_iff.mp halpha with hupper | hlower
    · exact hbetween 'A' 'Z' (by decide) (by decide) (of_decide_eq_true hupper)
    · exact hbetween 'a' 'z' (by decide) (by decide)
        ((Bool.and_eq_true_iff.mp hlower).imp of_decide_eq_true of_decide_eq_true)
  · exact hbetween '0' '9' (by decide) (by decide)
      ((Bool.and_eq_true_iff.mp hdigit).imp of_decide_eq_true of_decide_eq_true)

theorem isInLine_of_wordChar (v : Version) (h : wordChar c = true) : isInLine v c = true := by
  simp only [wordChar, Bool.or_eq_true, decide_eq_true_eq] at h
  rcases h with (h | rfl) | rfl
  · exact isInLine_of_ascii v (ascii_of_isAlphanum h)
  · exact isInLine_of_ascii v (by decide)
  · exact isInLine_of_ascii v (by decide)

theorem isInLine_of_bareChar (v : Version) (h : bareChar c = true) : isInLine v c = true := by
  simp only [bareChar, Bool.or_eq_true, decide_eq_true_eq] at h
  rcases h with h | rfl
  · exact isInLine_of_wordChar v h
  · exact isInLine_of_ascii v (by decide)

end Characters

section Lines

variable {v : Version}

theorem OneLine.cons {c : Char} {t : Text} (hc : isInLine v c = true) (h : OneLine v t) :
    OneLine v (c :: t) :=
  List.forall_mem_cons.mpr ⟨hc, h⟩

theorem OneLine.append {s t : Text} (hs : OneLine v s) (ht : OneLine v t) : OneLine v (s ++ t) :=
  fun c hc => (List.mem_append.mp hc).elim (hs c) (ht c)

theorem oneLine_nil : OneLine v [] := fun _ hc => absurd hc List.not_mem_nil

theorem oneLine_quote {t : Text} (h : OneLine v t) : OneLine v (quote t) := by
  have hquote : isInLine v '"' = true := isInLine_of_ascii v (by decide)
  have hslash : isInLine v '\\' = true := isInLine_of_ascii v (by decide)
  refine .cons hquote (.append (fun c hc => ?_) (.cons hquote oneLine_nil))
  obtain ⟨d, hd, hmem⟩ := List.mem_flatMap.mp hc
  split at hmem
  · rcases List.mem_pair.mp hmem with rfl | rfl
    · exact hslash
    · exact h c hd
  · rw [List.mem_singleton.mp hmem]
    exact h d hd

/-- A written line is one line, but for the comment in it. -/
theorem Written.oneLine {w : Written D} (h : ∀ t ∈ w.comment?, OneLine v t) :
    OneLine v w.toText := by
  have hcolon : isInLine v ':' = true := isInLine_of_ascii v (by decide)
  have hspace : isInLine v ' ' = true := isInLine_of_ascii v (by decide)
  have hkey : ∀ (key : Word) (t : Text), OneLine v t → OneLine v (key.text ++ ':' :: ' ' :: t) :=
    fun key t ht => .append (fun c hc => isInLine_of_wordChar v (key.wordChar c hc))
      (.cons hcolon (.cons hspace ht))
  cases w with
  | comment t => exact .cons (isInLine_of_ascii v (by decide)) (h t rfl)
  | quoted key t ht => exact hkey key _ (oneLine_quote (ht v))
  | bare key t ht => exact hkey key _ fun c hc => isInLine_of_bareChar v (ht.2.1 c hc)
  | constant key value =>
      refine hkey key _ fun c hc => ?_
      rcases Constant.mem_text hc with h | rfl
      · exact isInLine_of_ascii v (ascii_of_isAlphanum h)
      · exact isInLine_of_ascii v (by decide)

/-- An escaped text is read back. -/
theorem readQuoted_backslashed (t : Text) : readQuoted false (backslashed t ++ ['"']) = some t := by
  induction t with
  | nil => rfl
  | cons c t ih =>
      by_cases hc : c = '\\' ∨ c = '"'
      · have hescape : escapes.lookup c = some c := by rcases hc with rfl | rfl <;> rfl
        calc readQuoted false (backslashed (c :: t) ++ ['"'])
            = readQuoted true (c :: (backslashed t ++ ['"'])) := by rw [backslashed_cons_special hc]; rfl
          _ = some (c :: t) := by rw [readQuoted, hescape, ih]; rfl
      · obtain ⟨hslash, hquote⟩ := not_or.mp hc
        rw [backslashed_cons hc, List.cons_append, readQuoted, if_neg hquote, if_neg hslash, ih]
        rfl

/-- A line that begins with a name is read as what it is set to. -/
theorem readLine_entry (key : Word) {t : Text} {value : Value F}
    (h : readScalar D t = some value) :
    readLine D (key.text ++ ':' :: ' ' :: t) = some (some (.entry key.text value)) := by
  obtain ⟨c, cs, hkey, halpha⟩ := key.exists_cons
  have hne : ∀ d : Char, d.isAlpha = false → c ≠ d := fun d hd heq =>
    Bool.false_ne_true (hd.symm.trans (heq ▸ halpha))
  have hinner : (key.text ++ ':' :: ' ' :: t).dropWhile (· = ' ') = key.text ++ ':' :: ' ' :: t := by
    rw [hkey, List.cons_append]
    exact List.dropWhile_cons_of_neg (by simpa using hne ' ' rfl)
  have hnil : key.text ++ ':' :: ' ' :: t ≠ [] := List.append_ne_nil_of_right_ne_nil _ (by simp)
  have hhash : (key.text ++ ':' :: ' ' :: t).head? ≠ some '#' := by
    rw [hkey]
    exact fun h => hne '#' rfl (Option.some.inj h)
  have hsplit := Text.splitOnce_append ':' key.text (' ' :: t) (key.notMem rfl)
  have hword : key.text.all wordChar = true := List.all_eq_true.mpr key.wordChar
  rw [readLine]
  simp only [hinner, if_neg hnil, if_neg hhash, hsplit, Option.bind_some, key.head_alpha, hword,
    List.head?_cons, and_self, if_true, List.tail_cons, h, Option.map_some]

/-- A written line is read as what it is meant to say. -/
theorem Written.readLine_node (w : Written D) : readLine D w.toText = some (some w.node) := by
  cases w with
  | comment t => rfl
  | quoted key t _ =>
      refine readLine_entry key ?_
      rw [readScalar, quote, if_pos List.head?_cons, List.tail_cons, readQuoted_backslashed]
      rfl
  | bare key t ht =>
      have hquote : t.head? ≠ some '"' := fun hhead => by
        have halpha := ht.1
        rw [hhead] at halpha
        exact absurd halpha (by decide)
      refine readLine_entry key ?_
      rw [readScalar, if_neg hquote, if_pos ht]
  | constant key value =>
      have hquote : value.text.head? ≠ some '"' := fun hhead => by
        rcases Constant.mem_text (List.mem_of_mem_head? hhead) with h | h
        · exact absurd h (by decide)
        · exact absurd h (by decide)
      have hbare : ¬ IsBare value.text := fun hbare => by
        cases value with
        | bool b =>
            have hfalse : "false".toList ∈ reserved := by decide
            have htrue : "true".toList ∈ reserved := by decide
            cases b
            · exact hbare.2.2 hfalse
            · exact hbare.2.2 htrue
        | number p x _ _ =>
            obtain ⟨whole, fraction, hwhole, _⟩ := p
            obtain ⟨d, ds, rfl⟩ := List.exists_cons_of_ne_nil hwhole.1
            have hd := not_isAlpha_of_isDigit (hwhole.2 d List.mem_cons_self)
            have hhead := hbare.1
            cases fraction <;> exact Bool.false_ne_true (hd.symm.trans hhead)
      refine readLine_entry key ?_
      rw [readScalar, if_neg hquote, if_neg hbare, readConstant_text]

end Lines

section Files

variable {v : Version}

/-- A document is split into its lines, with nothing after the last line end. -/
theorem splitOnP_terminated {lines : List Text} (h : ∀ line ∈ lines, OneLine v line) :
    (terminated '\n' lines).splitOnP (isBreak v) = lines ++ [[]] := by
  induction lines with
  | nil => rfl
  | cons line lines ih =>
      obtain ⟨hline, hlines⟩ := List.forall_mem_cons.mp h
      have hclean : ∀ c ∈ line, isBreak v c = false := fun c hc => by
        have hc := hline c hc
        rw [isInLine, Bool.and_eq_true] at hc
        exact Bool.not_eq_true' _ ▸ hc.2
      have htext : terminated '\n' (line :: lines) = line ++ '\n' :: terminated '\n' lines := by
        simp [terminated]
      have hbreak : isBreak v '\n' = true := rfl
      rw [htext, List.splitOnP_append_cons line _ hbreak, ih hlines, List.splitOnP_eq_singleton hclean]
      rfl

theorem mapM_readLine (ws : List (Written D)) :
    (ws.map Written.toText).mapM (readLine D) = some (ws.map fun w => some w.node) := by
  induction ws with
  | nil => rfl
  | cons w ws ih =>
      rw [List.map_cons, List.mapM_cons, Written.readLine_node, ih]
      rfl

/-- A comment that is read stands on one line. -/
theorem oneLine_of_comment {text : Text} {nodes : List (Node F)} (h : read v D text = some nodes)
    {t : Text} (ht : .comment t ∈ nodes) : OneLine v t := by
  rw [read] at h
  split at h
  · next hprintable =>
      obtain ⟨nodes', hmap, hkeys⟩ := Option.bind_eq_some_iff.mp h
      obtain ⟨found, hmapM, rfl⟩ := Option.map_eq_some_iff.mp hmap
      split at hkeys
      · cases hkeys
        obtain ⟨-, hfound⟩ := mapM_eq_some_iff.mp hmapM
        obtain ⟨node, hnode, hid⟩ := List.mem_filterMap.mp ht
        rw [hfound] at hnode
        obtain ⟨part, hpart, hread⟩ := List.mem_filterMap.mp hnode
        have hsub : ∀ c ∈ t, c ∈ part := by
          rw [show node = some (.comment t) from hid] at hread
          rw [readLine] at hread
          split at hread
          · cases hread
          · split at hread
            · cases hread
              exact fun c hc => (List.dropWhile_suffix _).subset (List.mem_of_mem_tail hc)
            · obtain ⟨p, -, hp⟩ := Option.bind_eq_some_iff.mp hread
              split at hp
              · obtain ⟨value, -, hentry⟩ := Option.map_eq_some_iff.mp hp
                cases hentry
              · cases hp
        intro c hc
        obtain ⟨hbreak, hmem⟩ := Text.mem_splitOnP hpart c (hsub c hc)
        rw [isInLine, List.all_eq_true.mp hprintable c hmem, hbreak]
        rfl
      · cases hkeys
  · cases h

/-- A written document that names no key twice is read as what its lines are meant to say exactly
where each comment stands on one line. -/
theorem read_fileText_iff {ws : List (Written D)}
    (hkeys : ((ws.map Written.node).filterMap Node.key?).Nodup) :
    read v D (fileText ws) = some (ws.map Written.node) ↔
      ∀ w ∈ ws, ∀ t ∈ w.comment?, OneLine v t := by
  constructor
  · intro hread w hw t ht
    cases w with
    | comment t' =>
        cases ht
        exact oneLine_of_comment hread (List.mem_map_of_mem hw)
    | _ => cases ht
  · intro hcomments
    have hlines : ∀ line ∈ ws.map Written.toText, OneLine v line := List.forall_mem_map.mpr
      fun w hw => Written.oneLine (hcomments w hw)
    have hprintable : (fileText ws).all isPrintable = true := by
      refine List.all_eq_true.mpr fun c hc => ?_
      obtain ⟨line, hline, hmem⟩ := List.mem_flatMap.mp hc
      rcases List.mem_append.mp hmem with hmem | hmem
      · have hc := hlines line hline c hmem
        rw [isInLine, Bool.and_eq_true] at hc
        exact hc.1
      · rw [List.mem_singleton.mp hmem]
        rfl
    have hmapM : ((fileText ws).splitOnP (isBreak v)).mapM (readLine D) =
        some (ws.map (fun w => some w.node) ++ [none]) := by
      rw [fileText, splitOnP_terminated hlines, List.mapM_append, mapM_readLine]
      rfl
    have hnodes : (ws.map (fun w : Written D => some w.node) ++ [none]).filterMap id =
        ws.map Written.node := by
      rw [List.filterMap_append, List.filterMap_map]
      simp
    rw [read, if_pos hprintable, hmapM, Option.map_some, Option.bind_some, hnodes, if_pos hkeys]

end Files

end Genaryx.Yaml
