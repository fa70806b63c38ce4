import Genaryx.Base.Utf8
import Genaryx.Json.Grammar

/-!
# Paths of URLs

The grammar of a path segment, percent-decoding, and what the URL Standard makes of the path of
an `http` URL: dot segments are removed, backslashes separate, and characters that a path may not
hold are encoded.
-/

namespace Genaryx.UrlPath

open Json Text

/-! ## Segments -/

def isUnreserved (c : Char) : Bool := isAsciiAlphanumeric c || ['-', '.', '_', '~'].contains c

def isSubDelim (c : Char) : Bool :=
  ['!', '$', '&', '\x27', '(', ')', '*', '+', ',', ';', '='].contains c

/-- A character that stands in a segment for itself. -/
def isLiteral (c : Char) : Bool := isUnreserved c || isSubDelim c || c == ':' || c == '@'

def isUpperHex (c : Char) : Bool := ('0' ≤ c && c ≤ '9') || ('A' ≤ c && c ≤ 'F')

/-- Characters of a segment, and percent-encoded bytes in uppercase. -/
inductive IsSegment : Text → Prop
  | nil : IsSegment []
  | literal {c : Char} {t : Text} (hc : isLiteral c = true) (ht : IsSegment t) :
      IsSegment (c :: t)
  | triplet {a b : Char} {t : Text} (ha : isUpperHex a = true) (hb : isUpperHex b = true)
      (ht : IsSegment t) : IsSegment ('%' :: a :: b :: t)

/-- What percent-encoded bytes stand for. -/
def percentDecode : Bytes → Bytes
  | 0x25 :: a :: b :: rest =>
      match hexValue (Char.ofNat a.toNat), hexValue (Char.ofNat b.toNat) with
      | some x, some y => UInt8.ofNat (16 * x + y) :: percentDecode rest
      | _, _ => 0x25 :: percentDecode (a :: b :: rest)
  | byte :: rest => byte :: percentDecode rest
  | [] => []

/-! ## The path state -/

/-- A character that the parser encodes in a path. -/
def isEncodedInPath (c : Char) : Bool :=
  decide (c.toNat < 0x21) || decide (0x7E < c.toNat) ||
    ['"', '#', '<', '>', '?', '^', '\x60', '\x7b', '\x7d'].contains c

/-- One byte, percent-encoded. -/
def encodeByte (b : UInt8) : Text :=
  ['%', (Nat.digitChar (b.toNat / 16)).toUpper, (Nat.digitChar (b.toNat % 16)).toUpper]

def encodeInPath (c : Char) : Text :=
  if isEncodedInPath c then (Utf8.encodeChar c).flatMap encodeByte else [c]

/-- A single-dot segment, in any of its spellings. -/
def isSingleDot (t : Text) : Bool := [".".toList, "%2e".toList, "%2E".toList].contains t

/-- A double-dot segment, in any of its spellings. -/
def isDoubleDot (t : Text) : Bool :=
  ["..".toList, ".%2e".toList, ".%2E".toList, "%2e.".toList, "%2E.".toList, "%2e%2e".toList,
    "%2e%2E".toList, "%2E%2e".toList, "%2E%2E".toList].contains t

/-- What a path becomes when a segment ends, before a separator or at the end. -/
def endSegment (path : List Text) (buffer : Text) (separated : Bool) : List Text :=
  if isDoubleDot buffer then
    if separated then path.dropLast else path.dropLast ++ [[]]
  else if isSingleDot buffer then
    if separated then path else path ++ [[]]
  else path ++ [buffer]

def isSeparator (c : Char) : Bool := c == '/' || c == '\\'

/-- The path state: the segments so far and what was read of the next one. -/
def parseFrom (path : List Text) (buffer : Text) : Text → List Text
  | [] => endSegment path buffer false
  | c :: rest =>
      if isSeparator c then parseFrom (endSegment path buffer true) [] rest
      else if c == '?' || c == '#' then endSegment path buffer false
      else parseFrom path (buffer ++ encodeInPath c) rest

/-- What the parser takes off the end of its input and out of it. -/
def cleaned (input : Text) : Text :=
  (input.reverse.dropWhile fun c => decide (c.toNat < 0x21)).reverse.filter fun c =>
    !(c == '\t' || c == '\n' || c == '\r')

/-- The segments of the path that stands behind an authority. -/
def parsePath (input : Text) : List Text :=
  match cleaned input with
  | [] => parseFrom [] [] []
  | c :: rest => if isSeparator c then parseFrom [] [] rest else parseFrom [] [] (c :: rest)

/-- A path of segments. -/
def pathOf (segments : List Text) : Text := segments.flatMap ('/' :: ·)

/-! ## Decoding -/

theorem percentDecode_of_ne {b : UInt8} (h : b ≠ 0x25) (rest : Bytes) :
    percentDecode (b :: rest) = b :: percentDecode rest := by
  rw [percentDecode]
  rintro _ _ _ rfl
  exact absurd rfl h

theorem percentDecode_triplet {a b : UInt8} {x y : Nat}
    (ha : hexValue (Char.ofNat a.toNat) = some x) (hb : hexValue (Char.ofNat b.toNat) = some y)
    (rest : Bytes) :
    percentDecode (0x25 :: a :: b :: rest) = UInt8.ofNat (16 * x + y) :: percentDecode rest := by
  rw [percentDecode, ha, hb]

/-- What is spelled as a single dot decodes to one. -/
theorem percentDecode_of_isSingleDot {t : Text} (h : isSingleDot t = true) :
    percentDecode (Utf8.encode t) = Utf8.encode ".".toList := by
  rw [isSingleDot, List.contains_iff_mem] at h
  exact (by decide : ∀ t ∈ [".".toList, "%2e".toList, "%2E".toList],
    percentDecode (Utf8.encode t) = Utf8.encode ".".toList) t h

/-- What is spelled as a double dot decodes to two. -/
theorem percentDecode_of_isDoubleDot {t : Text} (h : isDoubleDot t = true) :
    percentDecode (Utf8.encode t) = Utf8.encode "..".toList := by
  rw [isDoubleDot, List.contains_iff_mem] at h
  exact (by decide : ∀ t ∈ ["..".toList, ".%2e".toList, ".%2E".toList, "%2e.".toList,
    "%2E.".toList, "%2e%2e".toList, "%2e%2E".toList, "%2E%2e".toList, "%2E%2E".toList],
    percentDecode (Utf8.encode t) = Utf8.encode "..".toList) t h

/-! ## What the parser leaves alone -/

/-- A character of a segment that the parser leaves alone. -/
def isPlain (c : Char) : Bool := !isEncodedInPath c && !isSeparator c

/-- A segment that the parser leaves alone. -/
structure Inert (t : Text) : Prop where
  plain : ∀ c ∈ t, isPlain c = true
  single : isSingleDot t = false
  double : isDoubleDot t = false

theorem isPlain_iff {c : Char} :
    isPlain c = true ↔ isEncodedInPath c = false ∧ isSeparator c = false := by
  rw [isPlain, Bool.and_eq_true, Bool.not_eq_true', Bool.not_eq_true']

theorem le_of_isPlain {c : Char} (h : isPlain c = true) : 0x21 ≤ c.toNat := by
  have hencoded := (isPlain_iff.mp h).1
  simp only [isEncodedInPath, Bool.or_eq_false_iff, decide_eq_false_iff_not] at hencoded
  omega

theorem lt_of_isLiteral {c : Char} (h : isLiteral c = true) : c.toNat < 0x80 := by
  rw [isLiteral, isUnreserved, isSubDelim, isAsciiAlphanumeric] at h
  simp only [Bool.or_eq_true, Bool.and_eq_true, decide_eq_true_eq, List.contains_iff_mem,
    beq_iff_eq] at h
  obtain (((((⟨-, hc⟩ | ⟨-, hc⟩) | ⟨-, hc⟩) | hc) | hc) | rfl) | rfl := h
  · exact lt_of_le_of_lt hc (by decide)
  · exact lt_of_le_of_lt hc (by decide)
  · exact lt_of_le_of_lt hc (by decide)
  · exact (by decide : ∀ c ∈ ['-', '.', '_', '~'], c.toNat < 0x80) c hc
  · exact (by decide : ∀ c ∈ ['!', '$', '&', '\x27', '(', ')', '*', '+', ',', ';', '='],
      c.toNat < 0x80) c hc
  · decide
  · decide

theorem lt_of_isUpperHex {c : Char} (h : isUpperHex c = true) : c.toNat < 0x80 := by
  simp only [isUpperHex, Bool.or_eq_true, Bool.and_eq_true, decide_eq_true_eq] at h
  obtain ⟨-, hc⟩ | ⟨-, hc⟩ := h
  · exact lt_of_le_of_lt hc (by decide)
  · exact lt_of_le_of_lt hc (by decide)

/-- What holds of the code points of ASCII holds of its characters. -/
theorem of_ascii {p : Char → Prop} (h : ∀ n < 0x80, p (Char.ofNat n)) {c : Char}
    (hc : c.toNat < 0x80) : p c := by
  rw [← Char.ofNat_toNat c]
  exact h _ hc

/-- The characters of a segment are left alone. -/
theorem IsSegment.plain {t : Text} (h : IsSegment t) : ∀ c ∈ t, isPlain c = true := by
  have hliteral : ∀ c, isLiteral c = true → isPlain c = true := fun c hc =>
    of_ascii (p := fun c => isLiteral c = true → isPlain c = true) (by decide)
      (lt_of_isLiteral hc) hc
  have hhex : ∀ c, isUpperHex c = true → isPlain c = true := fun c hc =>
    of_ascii (p := fun c => isUpperHex c = true → isPlain c = true) (by decide)
      (lt_of_isUpperHex hc) hc
  induction h with
  | nil => exact fun c hc => absurd hc List.not_mem_nil
  | literal hc _ ih => exact List.forall_mem_cons.mpr ⟨hliteral _ hc, ih⟩
  | triplet ha hb _ ih =>
      exact List.forall_mem_cons.mpr ⟨by decide, List.forall_mem_cons.mpr ⟨hhex _ ha,
        List.forall_mem_cons.mpr ⟨hhex _ hb, ih⟩⟩⟩

theorem endSegment_of_inert {t : Text} (h : Inert t) (path : List Text) (separated : Bool) :
    endSegment path t separated = path ++ [t] := by
  rw [endSegment, h.double, h.single]
  rfl

/-- Plain characters are read into the segment. -/
theorem parseFrom_plain {t : Text} (h : ∀ c ∈ t, isPlain c = true) (path : List Text)
    (buffer rest : Text) : parseFrom path buffer (t ++ rest) = parseFrom path (buffer ++ t) rest := by
  induction t generalizing buffer with
  | nil => rw [List.nil_append, List.append_nil]
  | cons c t ih =>
      obtain ⟨hc, ht⟩ := List.forall_mem_cons.mp h
      obtain ⟨hencoded, hseparator⟩ := isPlain_iff.mp hc
      have hquery : (c == '?' || c == '#') = false := by
        rw [Bool.or_eq_false_iff, beq_eq_false_iff_ne, beq_eq_false_iff_ne]
        constructor
        · rintro rfl
          exact absurd hencoded (by decide)
        · rintro rfl
          exact absurd hencoded (by decide)
      have hsame : encodeInPath c = [c] := by
        rw [encodeInPath, hencoded]
        rfl
      rw [List.cons_append, parseFrom, hseparator, hquery, hsame]
      simp only [Bool.false_eq_true, if_false]
      rw [ih ht, List.append_assoc, List.singleton_append]

/-- Inert segments are read one by one. -/
theorem parseFrom_pathOf {t : Text} {ts : List Text} (ht : Inert t) (hts : ∀ t ∈ ts, Inert t)
    (path : List Text) : parseFrom path [] (t ++ pathOf ts) = path ++ t :: ts := by
  induction ts generalizing t path with
  | nil =>
      rw [parseFrom_plain ht.plain]
      exact endSegment_of_inert ht path false
  | cons t' ts ih =>
      obtain ⟨ht', hrest⟩ := List.forall_mem_cons.mp hts
      have hpath : pathOf (t' :: ts) = '/' :: (t' ++ pathOf ts) := rfl
      have hslash : isSeparator '/' = true := by decide
      rw [parseFrom_plain ht.plain, hpath, parseFrom, if_pos hslash, List.nil_append,
        endSegment_of_inert ht, ih ht' hrest, List.append_assoc, List.singleton_append]

/-- Nothing is taken off or out of characters that are above the blanks. -/
theorem cleaned_of_visible {t : Text} (h : ∀ c ∈ t, 0x21 ≤ c.toNat) : cleaned t = t := by
  have hdrop : t.reverse.dropWhile (fun c => decide (c.toNat < 0x21)) = t.reverse := by
    cases hcons : t.reverse with
    | nil => rfl
    | cons c rest =>
        refine List.dropWhile_cons_of_neg ?_
        have hc := h c (List.mem_reverse.mp (hcons ▸ List.mem_cons_self))
        simpa using hc
  have hfilter : ∀ c ∈ t, (!(c == '\t' || c == '\n' || c == '\r')) = true := by
    intro c hc
    have hcode := h c hc
    rw [Bool.not_eq_true', Bool.or_eq_false_iff, Bool.or_eq_false_iff, beq_eq_false_iff_ne,
      beq_eq_false_iff_ne, beq_eq_false_iff_ne]
    refine ⟨⟨?_, ?_⟩, ?_⟩
    all_goals
      rintro rfl
      exact absurd hcode (by decide)
  rw [cleaned, hdrop, List.reverse_reverse, List.filter_eq_self.mpr hfilter]

/-- **A path of inert segments is left as it is.** -/
theorem parsePath_pathOf {ts : List Text} (hne : ts ≠ []) (h : ∀ s ∈ ts, Inert s) :
    parsePath (pathOf ts) = ts := by
  obtain ⟨t, ts, rfl⟩ := List.exists_cons_of_ne_nil hne
  have hvisible : ∀ c ∈ pathOf (t :: ts), 0x21 ≤ c.toNat := by
    intro c hc
    obtain ⟨s, hs, hmem⟩ := List.mem_flatMap.mp hc
    obtain rfl | hmem := List.mem_cons.mp hmem
    · decide
    · exact le_of_isPlain ((h s hs).plain c hmem)
  obtain ⟨ht, hts⟩ := List.forall_mem_cons.mp h
  have hpath : pathOf (t :: ts) = '/' :: (t ++ pathOf ts) := rfl
  rw [parsePath, cleaned_of_visible hvisible, hpath]
  exact parseFrom_pathOf ht hts []

end Genaryx.UrlPath
