import Genaryx.Json.Write

/-!
# Pretty JSON texts

The indented writer of `serde_json`. The blanks it puts between the parts of a value mean
nothing: without them the text is the compact one, which denotes the value with the members of
its objects in key order.
-/

namespace Genaryx.Json

variable {F : Type}

/-- The start of a line at a depth of nesting. -/
def newline (depth : Nat) : Text := '\n' :: List.replicate (2 * depth) ' '

mutual

/-- `to_string_pretty`, with the members of objects as they are listed. -/
def pretty (floatText : F → Text) (depth : Nat) : Value F → Text
  | .array items =>
      '[' :: commaSep (prettyItems floatText (depth + 1) items) ++
        (if items.isEmpty then [] else newline depth) ++ [']']
  | .object members =>
      '{' :: commaSep (prettyMembers floatText (depth + 1) members) ++
        (if members.isEmpty then [] else newline depth) ++ ['}']
  | .null => compact floatText .null
  | .bool b => compact floatText (.bool b)
  | .number n => compact floatText (.number n)
  | .string s => compact floatText (.string s)

def prettyItems (floatText : F → Text) (depth : Nat) : List (Value F) → List Text
  | [] => []
  | v :: vs => (newline depth ++ pretty floatText depth v) :: prettyItems floatText depth vs

def prettyMembers (floatText : F → Text) (depth : Nat) : List (Text × Value F) → List Text
  | [] => []
  | m :: ms =>
      (newline depth ++ quote m.1 ++ ':' :: ' ' :: pretty floatText depth m.2) ::
        prettyMembers floatText depth ms

end

/-- Where a character of a JSON text stands. -/
inductive Place
  | between
  | inText
  | escaped
  deriving DecidableEq

/-- The blanks that JSON allows between the parts of a value. -/
def isBlank (c : Char) : Bool := c = ' ' || c = '\n' || c = '\t' || c = '\r'

/-- A text without the blanks outside its strings. -/
def squeezeFrom : Place → Text → Text
  | _, [] => []
  | .between, c :: rest =>
      if isBlank c then squeezeFrom .between rest
      else c :: squeezeFrom (if c = '"' then .inText else .between) rest
  | .inText, c :: rest =>
      c :: squeezeFrom (if c = '"' then .between else if c = '\\' then .escaped else .inText) rest
  | .escaped, c :: rest => c :: squeezeFrom .inText rest

def squeeze (t : Text) : Text := squeezeFrom .between t

section Squeeze

/-- What is no blank and no quote stands as it is between strings. -/
theorem squeeze_append_plain {t : Text} (h : ∀ c ∈ t, isBlank c = false ∧ c ≠ '"') (rest : Text) :
    squeeze (t ++ rest) = t ++ squeeze rest := by
  induction t with
  | nil => rfl
  | cons c t ih =>
      obtain ⟨⟨hblank, hquote⟩, ht⟩ := List.forall_mem_cons.mp h
      rw [List.cons_append, squeeze, squeezeFrom, if_neg (by rw [hblank]; exact Bool.false_ne_true),
        if_neg hquote]
      exact congrArg (c :: ·) (ih ht)

theorem squeeze_newline (depth : Nat) (rest : Text) :
    squeeze (newline depth ++ rest) = squeeze rest := by
  have hspaces : ∀ n, squeeze (List.replicate n ' ' ++ rest) = squeeze rest := fun n => by
    induction n with
    | zero => rfl
    | succ n ih => exact ih
  exact hspaces (2 * depth)

theorem hexValue_not_special {c : Char} {n : Nat} (h : hexValue c = some n) :
    c ≠ '"' ∧ c ≠ '\\' := by
  have hquote : hexValue '"' = none := by decide
  have hslash : hexValue '\\' = none := by decide
  constructor
  · rintro rfl
    exact nomatch hquote.symm.trans h
  · rintro rfl
    exact nomatch hslash.symm.trans h

/-- One character of a written string is passed within the string. -/
theorem squeezeFrom_inText_char {raw : Text} {c : Char} (h : DenotesChar raw c) (rest : Text) :
    squeezeFrom .inText (raw ++ rest) = raw ++ squeezeFrom .inText rest := by
  have hplain : ∀ (d : Char) (t : Text), d ≠ '"' ∧ d ≠ '\\' →
      squeezeFrom .inText (d :: t) = d :: squeezeFrom .inText t := fun d t hd => by
    rw [squeezeFrom, if_neg hd.1, if_neg hd.2]
  cases h with
  | plain c _ hquote hslash => exact hplain c rest ⟨hquote, hslash⟩
  | short e c _ => rfl
  | unicode a b c d ch h =>
      simp only [hexChar, Option.bind_eq_bind, Option.bind_eq_some_iff] at h
      obtain ⟨na, ha, nb, hb, nc, hc, nd, hd, -⟩ := h
      calc squeezeFrom .inText ('\\' :: 'u' :: a :: b :: c :: d :: rest)
          = '\\' :: 'u' :: squeezeFrom .inText (a :: b :: c :: d :: rest) := rfl
        _ = '\\' :: 'u' :: a :: b :: c :: d :: squeezeFrom .inText rest := by
            rw [hplain a _ (hexValue_not_special ha), hplain b _ (hexValue_not_special hb),
              hplain c _ (hexValue_not_special hc), hplain d _ (hexValue_not_special hd)]

theorem squeezeFrom_inText {raw s : Text} (h : DenotesText raw s) (rest : Text) :
    squeezeFrom .inText (raw ++ rest) = raw ++ squeezeFrom .inText rest := by
  induction h with
  | nil => rfl
  | cons hc _ ih => rw [List.append_assoc, squeezeFrom_inText_char hc, ih, List.append_assoc]

/-- A written string stands as it is. -/
theorem squeeze_quote (s rest : Text) : squeeze (quote s ++ rest) = quote s ++ squeeze rest := by
  have htext : quote s ++ rest = '"' :: (s.flatMap escapeChar ++ '"' :: rest) := by simp [quote]
  have hinner := squeezeFrom_inText (denotesText_flatMap_escapeChar s) ('"' :: rest)
  calc squeeze (quote s ++ rest)
      = '"' :: squeezeFrom .inText (s.flatMap escapeChar ++ '"' :: rest) := by rw [htext]; rfl
    _ = '"' :: (s.flatMap escapeChar ++ '"' :: squeeze rest) := by rw [hinner]; rfl
    _ = quote s ++ squeeze rest := by simp [quote]

theorem plain_decimal (n : Nat) : ∀ c ∈ Text.decimal n, isBlank c = false ∧ c ≠ '"' := by
  intro c hc
  have hdigit := Text.isDigit_of_mem_decimal hc
  refine ⟨?_, ?_⟩
  · simp only [isBlank, Bool.or_eq_false_iff, decide_eq_false_iff_not]
    refine ⟨⟨⟨?_, ?_⟩, ?_⟩, ?_⟩ <;> rintro rfl <;> exact absurd hdigit (by decide)
  · rintro rfl
    exact absurd hdigit (by decide)

end Squeeze

section Pretty

variable (floatText : F → Text)

mutual

/-- Without its blanks a pretty text is the compact one. -/
theorem squeeze_pretty (v : Value F) (h : v.AllNumbers Number.IsInteger) (depth : Nat)
    (rest : Text) :
    squeeze (pretty floatText depth v ++ rest) = compact floatText v ++ squeeze rest := by
  cases v with
  | null =>
      have hplain : ∀ c ∈ "null".toList, isBlank c = false ∧ c ≠ '"' := by decide
      exact squeeze_append_plain hplain rest
  | bool b =>
      have htrue : ∀ c ∈ "true".toList, isBlank c = false ∧ c ≠ '"' := by decide
      have hfalse : ∀ c ∈ "false".toList, isBlank c = false ∧ c ≠ '"' := by decide
      cases b
      · exact squeeze_append_plain hfalse rest
      · exact squeeze_append_plain htrue rest
  | number n =>
      cases n with
      | posInt n _ => exact squeeze_append_plain (plain_decimal n) rest
      | negInt m _ =>
          exact squeeze_append_plain
            (List.forall_mem_cons.mpr ⟨⟨by decide, by decide⟩, plain_decimal m⟩) rest
      | float x => exact h.elim
  | string s => exact squeeze_quote s rest
  | array items =>
      have hclose : squeeze ((if items.isEmpty then [] else newline depth) ++ ']' :: rest) =
          ']' :: squeeze rest := by
        split
        · rfl
        · rw [squeeze_newline]
          rfl
      calc squeeze (pretty floatText depth (.array items) ++ rest)
          = '[' :: squeeze (commaSep (prettyItems floatText (depth + 1) items) ++
              ((if items.isEmpty then [] else newline depth) ++ ']' :: rest)) := by
            rw [pretty]
            simp only [List.cons_append, List.append_assoc, List.nil_append]
            rfl
        _ = '[' :: (commaSep (compactItems floatText items) ++ ']' :: squeeze rest) := by
            rw [squeeze_prettyItems items h, hclose]
        _ = compact floatText (.array items) ++ squeeze rest := by simp [compact]
  | object members =>
      have hclose : squeeze ((if members.isEmpty then [] else newline depth) ++ '}' :: rest) =
          '}' :: squeeze rest := by
        split
        · rfl
        · rw [squeeze_newline]
          rfl
      calc squeeze (pretty floatText depth (.object members) ++ rest)
          = '{' :: squeeze (commaSep (prettyMembers floatText (depth + 1) members) ++
              ((if members.isEmpty then [] else newline depth) ++ '}' :: rest)) := by
            rw [pretty]
            simp only [List.cons_append, List.append_assoc, List.nil_append]
            rfl
        _ = '{' :: (commaSep ((compactMembers floatText members).map fun m =>
              quote m.1 ++ ':' :: m.2) ++ '}' :: squeeze rest) := by
            rw [squeeze_prettyMembers members h, hclose]
        _ = compact floatText (.object members) ++ squeeze rest := by simp [compact]

theorem squeeze_prettyItems (items : List (Value F))
    (h : Value.AllItems Number.IsInteger items) (depth : Nat) (rest : Text) :
    squeeze (commaSep (prettyItems floatText depth items) ++ rest) =
      commaSep (compactItems floatText items) ++ squeeze rest := by
  match items with
  | [] => rfl
  | [v] =>
      rw [prettyItems, prettyItems, commaSep, List.append_assoc, squeeze_newline,
        squeeze_pretty v h.1]
      rfl
  | v :: w :: vs =>
      calc squeeze (commaSep (prettyItems floatText depth (v :: w :: vs)) ++ rest)
          = squeeze (newline depth ++ (pretty floatText depth v ++
              ',' :: (commaSep (prettyItems floatText depth (w :: vs)) ++ rest))) := by
            simp only [prettyItems, commaSep, List.append_assoc, List.cons_append]
        _ = compact floatText v ++
              ',' :: squeeze (commaSep (prettyItems floatText depth (w :: vs)) ++ rest) := by
            rw [squeeze_newline, squeeze_pretty v h.1]
            rfl
        _ = commaSep (compactItems floatText (v :: w :: vs)) ++ squeeze rest := by
            rw [squeeze_prettyItems (w :: vs) h.2]
            simp only [compactItems, commaSep, List.append_assoc, List.cons_append]

theorem squeeze_prettyMembers (members : List (Text × Value F))
    (h : Value.AllMembers Number.IsInteger members) (depth : Nat) (rest : Text) :
    squeeze (commaSep (prettyMembers floatText depth members) ++ rest) =
      commaSep ((compactMembers floatText members).map fun m => quote m.1 ++ ':' :: m.2) ++
        squeeze rest := by
  have hmember : ∀ (m : Text × Value F) (tail : Text), (∀ tail, squeeze (pretty floatText depth m.2
      ++ tail) = compact floatText m.2 ++ squeeze tail) →
      squeeze (newline depth ++ (quote m.1 ++ ':' :: ' ' :: (pretty floatText depth m.2 ++ tail))) =
        quote m.1 ++ ':' :: (compact floatText m.2 ++ squeeze tail) := fun m tail hm => by
    rw [squeeze_newline, squeeze_quote]
    exact congrArg (quote m.1 ++ ':' :: ·) (hm tail)
  match members with
  | [] => rfl
  | [m] =>
      rw [prettyMembers, prettyMembers, commaSep]
      simp only [List.append_assoc, List.cons_append, hmember m _ (squeeze_pretty m.2 h.1 depth), compactMembers, List.map_cons,
        List.map_nil, commaSep]
  | m :: n :: ms =>
      calc squeeze (commaSep (prettyMembers floatText depth (m :: n :: ms)) ++ rest)
          = squeeze (newline depth ++ (quote m.1 ++ ':' :: ' ' :: (pretty floatText depth m.2 ++
              ',' :: (commaSep (prettyMembers floatText depth (n :: ms)) ++ rest)))) := by
            simp only [prettyMembers, commaSep, List.append_assoc, List.cons_append]
        _ = quote m.1 ++ ':' :: (compact floatText m.2 ++
              ',' :: squeeze (commaSep (prettyMembers floatText depth (n :: ms)) ++ rest)) := by
            rw [hmember m _ (squeeze_pretty m.2 h.1 depth)]
            rfl
        _ = commaSep ((compactMembers floatText (m :: n :: ms)).map fun m =>
              quote m.1 ++ ':' :: m.2) ++ squeeze rest := by
            rw [squeeze_prettyMembers (n :: ms) h.2]
            simp only [compactMembers, List.map_cons, commaSep, List.append_assoc, List.cons_append]

end

end Pretty

namespace Value

mutual

/-- The value as a reader that keeps members in key order has it. -/
def keyed : Value F → Value F
  | array items => array (keyedItems items)
  | object members => object (ofMembers (keyedMembers members))
  | null => null
  | bool b => bool b
  | number n => number n
  | string s => string s

def keyedItems : List (Value F) → List (Value F)
  | [] => []
  | v :: vs => v.keyed :: keyedItems vs

def keyedMembers : List (Text × Value F) → List (Text × Value F)
  | [] => []
  | m :: ms => (m.1, m.2.keyed) :: keyedMembers ms

end

theorem keyedItems_eq_map (items : List (Value F)) : keyedItems items = items.map keyed := by
  induction items with
  | nil => rfl
  | cons v vs ih => rw [keyedItems, ih, List.map_cons]

theorem lookup_keyedMembers (members : List (Text × Value F)) (name : Text) :
    (keyedMembers members).lookup name = (members.lookup name).map keyed := by
  induction members with
  | nil => rfl
  | cons m ms ih =>
      rw [keyedMembers, List.lookup_cons, List.lookup_cons, ih]
      cases name == m.1 <;> rfl

theorem map_fst_keyedMembers (members : List (Text × Value F)) :
    (keyedMembers members).map Prod.fst = members.map Prod.fst := by
  induction members with
  | nil => rfl
  | cons m ms ih => rw [keyedMembers, List.map_cons, List.map_cons, ih]

/-- The members of an object that names each of them once are found in it. -/
theorem get_keyed {members : List (Text × Value F)} (h : (members.map Prod.fst).Nodup)
    (name : Text) : (object members).keyed.get name = (members.lookup name).map keyed := by
  rw [keyed, get, lookup_ofMembers_of_nodup (by rwa [map_fst_keyedMembers]), lookup_keyedMembers]

mutual

theorem depth_keyed_le (v : Value F) : v.keyed.depth ≤ v.depth := by
  cases v with
  | array items => exact Nat.succ_le_succ (itemsDepth_keyedItems_le items)
  | object members =>
      refine Nat.succ_le_succ (membersDepth_le_iff.mpr fun m hm => ?_)
      exact membersDepth_keyedMembers_le members m (mem_of_mem_ofMembers hm)
  | _ => exact le_rfl

theorem itemsDepth_keyedItems_le (items : List (Value F)) :
    itemsDepth (keyedItems items) ≤ itemsDepth items := by
  cases items with
  | nil => exact le_rfl
  | cons v vs => exact max_le_max (depth_keyed_le v) (itemsDepth_keyedItems_le vs)

theorem membersDepth_keyedMembers_le (members : List (Text × Value F)) :
    ∀ m ∈ keyedMembers members, m.2.depth ≤ membersDepth members := by
  cases members with
  | nil => exact fun m hm => absurd hm List.not_mem_nil
  | cons m ms =>
      refine List.forall_mem_cons.mpr ⟨le_max_of_le_left (depth_keyed_le m.2), fun n hn => ?_⟩
      exact le_max_of_le_right (membersDepth_keyedMembers_le ms n hn)

end

end Value

section Keyed

variable {ofDecimal : OfDecimal F} (floatText : F → Text)

mutual

/-- The compact text of a value without doubles denotes it, with its members in key order. -/
theorem denotes_compact_keyed (v : Value F) (h : v.AllNumbers Number.IsInteger) :
    Denotes ofDecimal (compact floatText v) v.keyed := by
  cases v with
  | array items => exact denotes_array (forall₂_compactItems_keyed items h)
  | object members => exact denotes_members (forall₂_compactMembers_keyed members h)
  | null => exact denotes_compact floatText .null trivial h
  | bool b => exact denotes_compact floatText (.bool b) trivial h
  | number n => exact denotes_compact floatText (.number n) trivial h
  | string s => exact denotes_compact floatText (.string s) trivial h

theorem forall₂_compactItems_keyed (items : List (Value F))
    (h : Value.AllItems Number.IsInteger items) :
    List.Forall₂ (Denotes ofDecimal) (compactItems floatText items) (Value.keyedItems items) := by
  cases items with
  | nil => exact .nil
  | cons v vs => exact .cons (denotes_compact_keyed v h.1) (forall₂_compactItems_keyed vs h.2)

theorem forall₂_compactMembers_keyed (members : List (Text × Value F))
    (h : Value.AllMembers Number.IsInteger members) :
    List.Forall₂ (fun p m => p.1 = m.1 ∧ Denotes ofDecimal p.2 m.2)
      (compactMembers floatText members) (Value.keyedMembers members) := by
  cases members with
  | nil => exact .nil
  | cons m ms =>
      exact .cons ⟨rfl, denotes_compact_keyed m.2 h.1⟩ (forall₂_compactMembers_keyed ms h.2)

end

end Keyed

/-- A reader of JSON texts with a message for what it refuses. It reads a pretty text with the
line end that a file ends with. -/
structure PrettyReader (F : Type) (limit : Nat) where
  floatText : F → Text
  fromStr : Text → Except Text (Value F)
  fromStr_pretty : ∀ v : Value F, v.AllNumbers Number.IsInteger → v.depth ≤ limit →
    fromStr (pretty floatText 0 v ++ ['\n']) = .ok v.keyed

/-- The reader of compact texts, behind a pass that takes the blanks out. -/
def PrettyReader.ofRead (ofDecimal : OfDecimal F) (floatText : F → Text) (limit : Nat) :
    PrettyReader F limit where
  floatText := floatText
  fromStr t :=
    match (Reader.ofRead ofDecimal limit).fromStr (squeeze t) with
    | some v => .ok v
    | none => .error "expected value"
  fromStr_pretty v hinteger hdepth := by
    have htext : squeeze (pretty floatText 0 v ++ ['\n']) = compact floatText v := by
      rw [squeeze_pretty floatText v hinteger]
      exact List.append_nil _
    rw [htext, (Reader.ofRead ofDecimal limit).fromStr_of_denotes
      (denotes_compact_keyed floatText v hinteger), if_pos (v.depth_keyed_le.trans hdepth)]

end Genaryx.Json
