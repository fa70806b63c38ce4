import Genaryx.Base.Words
import Genaryx.Core.Store

/-!
# What the dedupe key tells apart

The hashed text is an environment, a file, an offset and a line with a NUL between each two. Where
none of them has a NUL, it is read back in one way. An environment or a line that has some is read
in another way as well where what stands before one of them could be an offset, and a file that is
absent is written as one without a name.

## Implementation notes

The pieces of a text are what stands between its NULs. Files are taken both as any texts and as the
names of paths, which have no NUL.
-/

namespace Genaryx.Core

/-- What a stored line is known by. -/
structure LineKey where
  env : Text
  file : Option Text
  offset : Option UInt64
  raw : Text
  deriving DecidableEq

/-- The input to the hash. -/
def LineKey.input (k : LineKey) : Bytes :=
  Utf8.encode (dedupeText k.env k.file (k.offset.map UInt64.toNat) k.raw)

theorem LineKey.dedupeKey_eq (sha256Hex : Bytes → Text) (k : LineKey) :
    dedupeKey sha256Hex k.env k.file (k.offset.map UInt64.toNat) k.raw = sha256Hex k.input := rfl

/-- A line of a file that has the name of a path. -/
structure PathKey extends LineKey where
  clean : ∀ name ∈ file, '\x00' ∉ name

/-- No other key has this key's input. -/
def Separated {α : Type} (input : α → Bytes) (k : α) : Prop := ∀ l, input l = input k → l = k

/-- The pieces of a text between its NULs. -/
def pieces (t : Text) : List Text := t.splitOn '\x00'

/-- How an offset is written. -/
def offsetText (offset : Option UInt64) : Text :=
  ((offset.map UInt64.toNat).map Text.decimal).getD []

/-- A text that is written for some offset, or for none. -/
def IsOffset (t : Text) : Prop := ∃ offset, t = offsetText offset

namespace LineKey

/-- The name that is written for the file. -/
def name (k : LineKey) : Text := k.file.getD []

/-- What stands before the offset. -/
def before (k : LineKey) : Text := k.env ++ '\x00' :: k.name

/-- A key of a file with a name, with no NUL before its line and with nothing like an offset before
a NUL of its line. -/
structure Unmistakable (k : LineKey) : Prop where
  named : k.name ≠ []
  env_clean : '\x00' ∉ k.env
  name_clean : '\x00' ∉ k.name
  raw : ∀ t ∈ (pieces k.raw).dropLast, ¬ IsOffset t

/-- A key of a file with a name, with nothing like an offset after the second NUL of what stands
before its offset and before a NUL of its line. -/
structure UnmistakablePath (k : LineKey) : Prop where
  named : k.name ≠ []
  before : ∀ t ∈ (pieces k.before).drop 2, ¬ IsOffset t
  raw : ∀ t ∈ (pieces k.raw).dropLast, ¬ IsOffset t

end LineKey

section Pieces

theorem pieces_append_cons (a b : Text) : pieces (a ++ '\x00' :: b) = pieces a ++ pieces b :=
  List.splitOnP_append_cons a b rfl

theorem pieces_ne_nil (t : Text) : pieces t ≠ [] := List.splitOn_ne_nil _ t

theorem pieces_of_clean {t : Text} (h : '\x00' ∉ t) : pieces t = [t] :=
  List.splitOnP_eq_singleton fun _ hc => beq_eq_false_iff_ne.mpr fun heq => h (heq ▸ hc)

theorem pieces_injective : Function.Injective pieces := by
  intro a b h
  have hjoin := congrArg (List.intercalate ['\x00']) h
  rwa [pieces, pieces, List.intercalate_splitOn, List.intercalate_splitOn] at hjoin

theorem offsetText_clean (offset : Option UInt64) : '\x00' ∉ offsetText offset := by
  cases offset with
  | none => exact List.not_mem_nil
  | some n => exact fun h => absurd (Text.isDigit_of_mem_decimal h) (by decide)

theorem offsetText_injective : Function.Injective offsetText := by
  intro m n h
  cases m with
  | none =>
      cases n with
      | none => rfl
      | some n => exact absurd h.symm (Text.decimal_ne_nil n.toNat)
  | some m =>
      cases n with
      | none => exact absurd h (Text.decimal_ne_nil m.toNat)
      | some n => exact congrArg some (UInt64.toNat_inj.mp (Text.decimal_injective h))

/-- Where a list is cut at another element, this stands after the second of those before the cut or
before the last of those after it. -/
theorem cut_cases {α : Type} {front front' rest rest' : List α} {o o' : α}
    (hfront : 2 ≤ front'.length) (hrest : rest' ≠ [])
    (h : front' ++ o' :: rest' = front ++ o :: rest) :
    (front' = front ∧ o' = o ∧ rest' = rest) ∨ o' ∈ front.drop 2 ∨ o' ∈ rest.dropLast := by
  rcases List.append_eq_append_iff.mp h with ⟨l, hl, hcut⟩ | ⟨l, hl, hcut⟩
  · cases l with
    | nil =>
        rw [List.nil_append, List.cons.injEq] at hcut
        exact Or.inl ⟨by rw [hl, List.append_nil], hcut⟩
    | cons a l =>
        rw [List.cons_append, List.cons.injEq] at hcut
        refine Or.inr (Or.inl ?_)
        rw [hl, List.drop_append_of_le_length hfront, hcut.1]
        exact List.mem_append_right _ List.mem_cons_self
  · cases l with
    | nil =>
        rw [List.nil_append, List.cons.injEq] at hcut
        exact Or.inl ⟨by rw [hl, List.append_nil], hcut.1.symm, hcut.2.symm⟩
    | cons a l =>
        rw [List.cons_append, List.cons.injEq] at hcut
        refine Or.inr (Or.inr ?_)
        rw [hcut.2, List.dropLast_append_of_ne_nil (List.cons_ne_nil _ _),
          List.dropLast_cons_of_ne_nil hrest]
        exact List.mem_append_right _ List.mem_cons_self

end Pieces

namespace LineKey

variable {k l : LineKey}

theorem pieces_input (k : LineKey) :
    pieces (dedupeText k.env k.file (k.offset.map UInt64.toNat) k.raw) =
      pieces k.before ++ offsetText k.offset :: pieces k.raw := by
  have hoffset := pieces_of_clean (offsetText_clean k.offset)
  rw [offsetText] at hoffset
  rw [dedupeText, pieces_append_cons, pieces_append_cons, pieces_append_cons, hoffset, before,
    pieces_append_cons, name, offsetText, List.append_assoc, List.singleton_append]

/-- Two keys have one input where the pieces of their texts are the same, one after another. -/
theorem input_eq_iff : l.input = k.input ↔
    pieces l.before ++ offsetText l.offset :: pieces l.raw =
      pieces k.before ++ offsetText k.offset :: pieces k.raw := by
  rw [← pieces_input, ← pieces_input, pieces_injective.eq_iff]
  exact Utf8.encode_injective.eq_iff

theorem two_le_length_before (k : LineKey) : 2 ≤ (pieces k.before).length := by
  rw [before, pieces_append_cons, List.length_append]
  have henv := List.length_pos_of_ne_nil (pieces_ne_nil k.env)
  have hname := List.length_pos_of_ne_nil (pieces_ne_nil k.name)
  omega

/-- A key with the same parts is the same, if its file has a name. -/
theorem eq_of_parts (hnamed : k.name ≠ []) (henv : l.env = k.env) (hname : l.name = k.name)
    (hoffset : l.offset = k.offset) (hraw : l.raw = k.raw) : l = k := by
  obtain ⟨env, file, offset, raw⟩ := k
  obtain ⟨env', file', offset', raw'⟩ := l
  dsimp only at henv hoffset hraw
  subst henv hoffset hraw
  cases file with
  | none => exact absurd rfl hnamed
  | some file =>
      cases file' with
      | none => exact absurd hname.symm hnamed
      | some file' => rw [show file' = file from hname]

/-- Keys with one input are cut at one offset, where nothing else could be one. -/
theorem parts_of_input_eq (hbefore : ∀ t ∈ (pieces k.before).drop 2, ¬ IsOffset t)
    (hraw : ∀ t ∈ (pieces k.raw).dropLast, ¬ IsOffset t) (h : l.input = k.input) :
    l.before = k.before ∧ l.offset = k.offset ∧ l.raw = k.raw := by
  rcases cut_cases l.two_le_length_before (pieces_ne_nil l.raw) (input_eq_iff.mp h) with
    ⟨hfront, hoffset, hrest⟩ | hmem | hmem
  · exact ⟨pieces_injective hfront, offsetText_injective hoffset, pieces_injective hrest⟩
  · exact absurd ⟨l.offset, rfl⟩ (hbefore _ hmem)
  · exact absurd ⟨l.offset, rfl⟩ (hraw _ hmem)

theorem Unmistakable.separated (h : k.Unmistakable) : Separated input k := by
  intro l hinput
  have hpieces : pieces k.before = [k.env, k.name] := by
    rw [before, pieces_append_cons, pieces_of_clean h.env_clean, pieces_of_clean h.name_clean]
    rfl
  have hbefore : ∀ t ∈ (pieces k.before).drop 2, ¬ IsOffset t := by
    rw [hpieces]
    exact nofun
  obtain ⟨hfront, hoffset, hraw⟩ := parts_of_input_eq hbefore h.raw hinput
  rw [← hfront, before, pieces_append_cons] at hpieces
  have hlength := congrArg List.length hpieces
  rw [List.length_append] at hlength
  have henv := List.length_pos_of_ne_nil (pieces_ne_nil l.env)
  have hname := List.length_pos_of_ne_nil (pieces_ne_nil l.name)
  have hone : (pieces l.env).length = [k.env].length := by
    simp only [List.length_cons, List.length_nil] at hlength ⊢
    omega
  obtain ⟨henv, hname⟩ := List.append_inj hpieces hone
  rw [← pieces_of_clean h.env_clean] at henv
  rw [← pieces_of_clean h.name_clean] at hname
  exact eq_of_parts h.named (pieces_injective henv) (pieces_injective hname) hoffset hraw

end LineKey

namespace PathKey

variable {k l : PathKey}

theorem ext_lineKey (h : l.toLineKey = k.toLineKey) : l = k := by
  obtain ⟨l, _⟩ := l
  obtain ⟨k, _⟩ := k
  dsimp only at h
  subst h
  rfl

theorem name_clean (k : PathKey) : '\x00' ∉ k.name := by
  obtain ⟨⟨env, file, offset, raw⟩, hclean⟩ := k
  cases file with
  | none => exact List.not_mem_nil
  | some file => exact hclean file rfl

/-- The name of a path is the last piece before the offset. -/
theorem pieces_before (k : PathKey) : pieces k.before = pieces k.env ++ [k.name] := by
  rw [LineKey.before, pieces_append_cons, pieces_of_clean k.name_clean]

theorem separated (h : k.UnmistakablePath) : Separated (fun k : PathKey => k.input) k := by
  intro l hinput
  obtain ⟨hbefore, hoffset, hraw⟩ := LineKey.parts_of_input_eq h.before h.raw hinput
  have hpieces := congrArg pieces hbefore
  rw [pieces_before, pieces_before] at hpieces
  obtain ⟨henv, hname⟩ := List.append_inj' hpieces rfl
  exact ext_lineKey (LineKey.eq_of_parts h.named (pieces_injective henv)
    (List.singleton_inj.mp hname) hoffset hraw)

end PathKey

section Mistaken

variable {k : LineKey}

/-- A file that is absent is written as one without a name. -/
theorem exists_other_of_unnamed (h : k.name = []) :
    ∃ l : PathKey, l.toLineKey ≠ k ∧ l.input = k.input := by
  obtain ⟨env, file, offset, raw⟩ := k
  cases file with
  | none => exact ⟨⟨⟨env, some [], offset, raw⟩, by simp⟩, by simp, rfl⟩
  | some file =>
      rw [LineKey.name, Option.getD_some] at h
      subst h
      exact ⟨⟨⟨env, none, offset, raw⟩, by simp⟩, by simp, rfl⟩

theorem clean_of_mem_pieces {t piece : Text} (h : piece ∈ pieces t) : '\x00' ∉ piece :=
  fun hmem => absurd (Text.mem_splitOnP h '\x00' hmem).1 (by decide)

/-- What can be read with its offset at another place is the input of another key. -/
theorem exists_other_of_cut (front rest : List Text) {t : Text} (hfront : 2 ≤ front.length)
    (hrest : rest ≠ []) (ht : IsOffset t)
    (h : front ++ t :: rest = pieces k.before ++ offsetText k.offset :: pieces k.raw)
    (hlength : rest.length ≠ (pieces k.raw).length) :
    ∃ l : PathKey, l.toLineKey ≠ k ∧ l.input = k.input := by
  obtain ⟨env, file, rfl⟩ : ∃ env file, front = env ++ [file] := by
    rcases List.eq_nil_or_concat front with rfl | ⟨env, file, hconcat⟩
    · cases hfront
    · exact ⟨env, file, hconcat.trans (List.concat_eq_append ..)⟩
  have henv : env ≠ [] := by
    rintro rfl
    cases hfront with
    | step h => cases h
  have hclean : ∀ piece ∈ env ++ [file] ++ t :: rest, '\x00' ∉ piece := by
    rw [h, ← LineKey.pieces_input]
    exact fun piece => clean_of_mem_pieces
  simp only [List.mem_append, List.mem_cons, List.not_mem_nil, or_false] at hclean
  have hpiecesEnv : pieces (['\x00'].intercalate env) = env :=
    List.splitOn_intercalate _ (fun piece hmem => hclean piece (.inl (.inl hmem))) henv
  have hpiecesRest : pieces (['\x00'].intercalate rest) = rest :=
    List.splitOn_intercalate _ (fun piece hmem => hclean piece (.inr (.inr hmem))) hrest
  have hfile := hclean file (.inl (.inr rfl))
  obtain ⟨offset, rfl⟩ := ht
  refine ⟨⟨⟨['\x00'].intercalate env, some file, offset, ['\x00'].intercalate rest⟩,
    by simpa using hfile⟩, fun heq => ?_, LineKey.input_eq_iff.mpr ?_⟩
  · rw [← heq] at hlength
    exact hlength (congrArg List.length hpiecesRest.symm)
  · rw [← h, PathKey.pieces_before]
    exact congrArg₂ (fun env rest => env ++ [file] ++ offsetText offset :: rest) hpiecesEnv
      hpiecesRest

/-- What could be an offset and stands between two others before or after the key's own is where
another key has its own. -/
theorem exists_other_of_mem_before {t : Text} (ht : IsOffset t)
    (hmem : t ∈ (pieces k.before).drop 2) :
    ∃ l : PathKey, l.toLineKey ≠ k ∧ l.input = k.input := by
  obtain ⟨front, rest, hdrop⟩ := List.append_of_mem hmem
  refine exists_other_of_cut ((pieces k.before).take 2 ++ front)
    (rest ++ offsetText k.offset :: pieces k.raw) ?_ (by simp) ht ?_ ?_
  · rw [List.length_append, List.length_take, min_eq_left k.two_le_length_before]
    exact Nat.le_add_right _ _
  · rw [← List.cons_append, ← List.append_assoc, List.append_assoc (List.take _ _), ← hdrop,
      List.take_append_drop]
  · rw [List.length_append, List.length_cons]
    omega

theorem exists_other_of_mem_raw {t : Text} (ht : IsOffset t)
    (hmem : t ∈ (pieces k.raw).dropLast) :
    ∃ l : PathKey, l.toLineKey ≠ k ∧ l.input = k.input := by
  obtain ⟨front, rest, hdrop⟩ := List.append_of_mem hmem
  have hraw := List.dropLast_append_getLast (pieces_ne_nil k.raw)
  rw [hdrop, List.append_assoc, List.cons_append] at hraw
  refine exists_other_of_cut (pieces k.before ++ offsetText k.offset :: front)
    (rest ++ [(pieces k.raw).getLast (pieces_ne_nil k.raw)]) ?_ (by simp) ht ?_ ?_
  · rw [List.length_append]
    exact k.two_le_length_before.trans (Nat.le_add_right _ _)
  · rw [List.append_assoc, List.cons_append, hraw]
  · have hlength := congrArg List.length hraw
    rw [List.length_append, List.length_cons] at hlength
    omega

/-- A NUL in the environment or in the name of the file can be read as the one between the two. -/
theorem exists_other_of_mem (h : '\x00' ∈ k.env ∨ '\x00' ∈ k.name) :
    ∃ l : LineKey, l ≠ k ∧ l.input = k.input := by
  have hinput : ∀ l : LineKey, l.before = k.before → l.offset = k.offset → l.raw = k.raw →
      l.input = k.input := fun l hbefore hoffset hraw => by
    rw [LineKey.input_eq_iff, hbefore, hoffset, hraw]
  have hlonger : ∀ a b : Text, a ≠ a ++ '\x00' :: b := fun a b heq => by simp at heq
  rcases h with h | h
  · obtain ⟨a, b, henv⟩ := List.append_of_mem h
    refine ⟨⟨a, some (b ++ '\x00' :: k.name), k.offset, k.raw⟩, fun heq => ?_, hinput _ ?_ rfl rfl⟩
    · exact hlonger a b ((congrArg LineKey.env heq).trans henv)
    · rw [LineKey.before, LineKey.before, henv, List.append_assoc]
      rfl
  · obtain ⟨a, b, hname⟩ := List.append_of_mem h
    refine ⟨⟨k.env ++ '\x00' :: a, some b, k.offset, k.raw⟩, fun heq => ?_, hinput _ ?_ rfl rfl⟩
    · exact hlonger k.env a (congrArg LineKey.env heq).symm
    · rw [LineKey.before, LineKey.before, hname, List.append_assoc]
      rfl

end Mistaken

/-- The keys that share their input with no other key, and those of paths that share it with no
other key of a path. -/
theorem separated_iff (k : LineKey) (path : PathKey) :
    (Separated LineKey.input k ↔ k.Unmistakable) ∧
      (Separated (fun path : PathKey => path.input) path ↔ path.UnmistakablePath) := by
  constructor
  · refine ⟨fun h => ?_, LineKey.Unmistakable.separated⟩
    have hother : ¬ ∃ l : LineKey, l ≠ k ∧ l.input = k.input := fun ⟨l, hne, hl⟩ => hne (h l hl)
    have hpath : ¬ ∃ l : PathKey, l.toLineKey ≠ k ∧ l.input = k.input := fun ⟨l, hl⟩ =>
      hother ⟨l.toLineKey, hl⟩
    exact
      { named := fun hname => hpath (exists_other_of_unnamed hname)
        env_clean := fun hmem => hother (exists_other_of_mem (.inl hmem))
        name_clean := fun hmem => hother (exists_other_of_mem (.inr hmem))
        raw := fun t hmem ht => hpath (exists_other_of_mem_raw ht hmem) }
  · refine ⟨fun h => ?_, PathKey.separated⟩
    have hother : ¬ ∃ l : PathKey, l.toLineKey ≠ path.toLineKey ∧ l.input = path.input :=
      fun ⟨l, hne, hl⟩ => hne (congrArg PathKey.toLineKey (h l hl))
    exact
      { named := fun hname => hother (exists_other_of_unnamed hname)
        before := fun t hmem ht => hother (exists_other_of_mem_before ht hmem)
        raw := fun t hmem ht => hother (exists_other_of_mem_raw ht hmem) }

section Sample

/-- A line of an environment that has a NUL in its name. -/
def nulInEnv : PathKey where
  env := ['a', 'c', 'm', 'e', '\x00', 'e', 'u']
  file := some "7"
  offset := some 12
  raw := "\x7b\x7d"
  clean := by decide

/-- A line that has a NUL, of an environment of the first part of that name. -/
def nulInLine : PathKey where
  env := "acme"
  file := some "eu"
  offset := some 7
  raw := ['1', '2', '\x00', '\x7b', '\x7d']
  clean := by decide

/-- Two lines of different files have one key. -/
theorem nulInEnv_not_separated : ¬ ∀ k : PathKey, Separated (fun k : PathKey => k.input) k := by
  intro h
  have hinput : nulInLine.input = nulInEnv.input := by decide
  have hkey := congrArg (fun k : PathKey => k.file) (h nulInEnv nulInLine hinput)
  exact absurd hkey (by decide)

end Sample

end Genaryx.Core
