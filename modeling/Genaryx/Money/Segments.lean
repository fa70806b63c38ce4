import Genaryx.Base.UrlPath
import Genaryx.Money.Cloud

/-!
# The path that is signed is the path that is sent

An id becomes one segment of a path, and the address that is built from the path is parsed before
it is sent. The segment holds no character that parsing changes, is no dot segment, and decodes
to the id's bytes, so what is sent is what was signed and names that id.

## Implementation notes

Everything about one byte is decided over all bytes.
-/

namespace Genaryx.Money

open UrlPath CloudClient

/-! ## One byte of a segment -/

/-- What one byte of an id becomes. -/
def segmentByte (b : UInt8) : Text :=
  if isLiteralPchar b then [Char.ofNat b.toNat] else percentEncode b

/-- The first digit of an encoded byte. -/
def highDigit (b : UInt8) : Char := (Nat.digitChar (b.toNat / 16)).toUpper

/-- The second digit of an encoded byte. -/
def lowDigit (b : UInt8) : Char := (Nat.digitChar (b.toNat % 16)).toUpper

/-- A literal byte stands for itself, and any other is two digits that are read back. -/
theorem segmentByte_cases : ∀ b,
    (isLiteralPchar b = true →
      isLiteral (Char.ofNat b.toNat) = true ∧ Utf8.encodeChar (Char.ofNat b.toNat) = [b] ∧
        b ≠ 0x25) ∧
      (isUpperHex (highDigit b) = true ∧ isUpperHex (lowDigit b) = true) ∧
        Utf8.encode (percentEncode b) =
          [0x25, UInt8.ofNat (highDigit b).toNat, UInt8.ofNat (lowDigit b).toNat] ∧
        Json.hexValue (Char.ofNat (UInt8.ofNat (highDigit b).toNat).toNat) =
          some (b.toNat / 16) ∧
        Json.hexValue (Char.ofNat (UInt8.ofNat (lowDigit b).toNat).toNat) = some (b.toNat % 16) :=
  Utf8.of_bytes (by decide +kernel)

theorem segmentByte_literal : ∀ b, isLiteralPchar b = true →
    isLiteral (Char.ofNat b.toNat) = true ∧ Utf8.encodeChar (Char.ofNat b.toNat) = [b] ∧
      b ≠ 0x25 :=
  fun b => (segmentByte_cases b).1

theorem percentEncode_digits : ∀ b : UInt8,
    isUpperHex (highDigit b) = true ∧ isUpperHex (lowDigit b) = true :=
  fun b => (segmentByte_cases b).2.1

theorem encode_percentEncode : ∀ b : UInt8, ∃ high low,
    Utf8.encode (percentEncode b) = [0x25, high, low] ∧
      Json.hexValue (Char.ofNat high.toNat) = some (b.toNat / 16) ∧
      Json.hexValue (Char.ofNat low.toNat) = some (b.toNat % 16) :=
  fun b => ⟨_, _, (segmentByte_cases b).2.2⟩

/-- One byte is read back before any rest. -/
theorem percentDecode_segmentByte (b : UInt8) (rest : Bytes) :
    percentDecode (Utf8.encode (segmentByte b) ++ rest) = b :: percentDecode rest := by
  rw [segmentByte]
  split_ifs with hb
  · obtain ⟨-, hencode, hne⟩ := segmentByte_literal b hb
    have hbytes : Utf8.encode [Char.ofNat b.toNat] = [b] := by
      rw [Utf8.encode, List.flatMap_cons, List.flatMap_nil, List.append_nil, hencode]
    rw [hbytes]
    exact percentDecode_of_ne hne rest
  · obtain ⟨high, low, hencode, hhigh, hlow⟩ := encode_percentEncode b
    have hvalue : UInt8.ofNat (16 * (b.toNat / 16) + b.toNat % 16) = b := by
      rw [Nat.div_add_mod, UInt8.ofNat_toNat]
    rw [hencode]
    exact (percentDecode_triplet hhigh hlow rest).trans (by rw [hvalue])

/-- One byte keeps the grammar of a segment. -/
theorem isSegment_segmentByte (b : UInt8) {t : Text} (h : IsSegment t) :
    IsSegment (segmentByte b ++ t) := by
  rw [segmentByte]
  split_ifs with hb
  · exact .literal (segmentByte_literal b hb).1 h
  · exact .triplet (percentEncode_digits b).1 (percentEncode_digits b).2 h

/-! ## The whole segment -/

/-- The segment of an id, whether or not it is accepted. -/
def segmentOf (bytes : Bytes) : Text := bytes.flatMap segmentByte

theorem isSegment_segmentOf (bytes : Bytes) : IsSegment (segmentOf bytes) := by
  induction bytes with
  | nil => exact .nil
  | cons b bytes ih => exact isSegment_segmentByte b ih

theorem percentDecode_segmentOf (bytes : Bytes) :
    percentDecode (Utf8.encode (segmentOf bytes)) = bytes := by
  induction bytes with
  | nil => rfl
  | cons b bytes ih =>
      rw [segmentOf, List.flatMap_cons, Utf8.encode_append, percentDecode_segmentByte]
      exact congrArg _ ih

/-- Exactly three ids are refused. -/
theorem pathSegment_eq_ok {id segment : Text} : pathSegment id = .ok segment ↔
    (id ≠ [] ∧ id ≠ "." ∧ id ≠ "..") ∧ segment = segmentOf (Utf8.encode id) := by
  rw [pathSegment]
  split_ifs with hempty hdot
  · exact ⟨(nomatch ·), fun h => absurd hempty h.1.1⟩
  · refine ⟨(nomatch ·), ?_⟩
    rintro ⟨⟨-, hne, hne'⟩, -⟩
    exact absurd hdot (not_or.mpr ⟨hne, hne'⟩)
  · rw [Except.ok.injEq, eq_comm]
    exact ⟨fun h => ⟨⟨hempty, not_or.mp hdot⟩, h⟩, fun h => h.2⟩

/-- An accepted id's segment is left alone by the parser. -/
theorem inert_of_pathSegment {id segment : Text} (h : pathSegment id = .ok segment) :
    Inert segment := by
  obtain ⟨⟨-, hdot, hdots⟩, rfl⟩ := pathSegment_eq_ok.mp h
  refine ⟨(isSegment_segmentOf _).plain, ?_, ?_⟩
  · refine Bool.eq_false_iff.mpr fun hsingle => hdot (Utf8.encode_injective ?_)
    rw [← percentDecode_segmentOf (Utf8.encode id), percentDecode_of_isSingleDot hsingle]
  · refine Bool.eq_false_iff.mpr fun hdouble => hdots (Utf8.encode_injective ?_)
    rw [← percentDecode_segmentOf (Utf8.encode id), percentDecode_of_isDoubleDot hdouble]

theorem pathOf_four (a b c d : Text) {slash : Text} (h : slash = ['/']) :
    pathOf ([a, b] ++ c :: [d]) =
      slash ++ a ++ slash ++ b ++ slash ++ c ++ slash ++ d := by
  subst h
  simp only [pathOf, List.cons_append, List.nil_append, List.flatMap_cons, List.flatMap_nil,
    List.append_nil, List.append_assoc]

/-- The path of a mutation, by its segments. -/
theorem mutationPath_eq (collection segment verb : Text) :
    mutationPath collection segment verb =
      pathOf (["v1".toList, collection] ++ segment :: [verb]) := by
  have hslash : "/".toList = ['/'] := rfl
  exact (pathOf_four "v1".toList collection segment verb hslash).symm

/-! ## What a segment names -/

/-- A segment holds what a segment may hold, decodes to the id, is sent as it was signed wherever
it stands in a path, and is the segment of no other id. -/
structure NamesOneId (id segment : Text) : Prop where
  grammar : IsSegment segment
  decoded : percentDecode (Utf8.encode segment) = Utf8.encode id
  unchanged : ∀ before after : List Text, (∀ t ∈ before, Inert t) → (∀ t ∈ after, Inert t) →
    parsePath (pathOf (before ++ segment :: after)) = before ++ segment :: after
  signed : ∀ collection verb, Inert collection → Inert verb →
    pathOf (parsePath (mutationPath collection segment verb)) = mutationPath collection segment verb
  only : ∀ other, pathSegment other = .ok segment → other = id

/-- A path keeps its segments when one of them is an accepted id's. -/
theorem parsePath_of_pathSegment {id segment : Text} (h : pathSegment id = .ok segment)
    {before after : List Text} (hbefore : ∀ t ∈ before, Inert t) (hafter : ∀ t ∈ after, Inert t) :
    parsePath (pathOf (before ++ segment :: after)) = before ++ segment :: after := by
  have hall : ∀ t ∈ before ++ segment :: after, Inert t := by
    intro t ht
    rcases List.mem_append.mp ht with ht | ht
    · exact hbefore t ht
    · rcases List.mem_cons.mp ht with rfl | ht
      · exact inert_of_pathSegment h
      · exact hafter t ht
  exact parsePath_pathOf (List.append_ne_nil_of_right_ne_nil _ (List.cons_ne_nil _ _)) hall

/-- Every id but the empty one and the two dot segments is accepted, and its segment names it and
no other. -/
theorem segment_names_one_id (id : Text) :
    ((∃ segment, pathSegment id = .ok segment) ↔ id ≠ [] ∧ id ≠ "." ∧ id ≠ "..") ∧
      ∀ segment, pathSegment id = .ok segment → NamesOneId id segment := by
  refine ⟨⟨fun ⟨segment, h⟩ => (pathSegment_eq_ok.mp h).1,
    fun h => ⟨_, pathSegment_eq_ok.mpr ⟨h, rfl⟩⟩⟩, fun segment h => ?_⟩
  have hsegment := (pathSegment_eq_ok.mp h).2
  have hdecoded : percentDecode (Utf8.encode segment) = Utf8.encode id := by
    rw [hsegment, percentDecode_segmentOf]
  have hunchanged : ∀ before after : List Text, (∀ t ∈ before, Inert t) →
      (∀ t ∈ after, Inert t) →
      parsePath (pathOf (before ++ segment :: after)) = before ++ segment :: after :=
    fun before after hbefore hafter => parsePath_of_pathSegment h hbefore hafter
  refine ⟨hsegment ▸ isSegment_segmentOf _, hdecoded, hunchanged,
    fun collection verb hcollection hverb => ?_, fun other hother => ?_⟩
  · have hversion : Inert "v1".toList := ⟨by decide, by decide, by decide⟩
    rw [mutationPath_eq, hunchanged]
    · exact List.forall_mem_cons.mpr ⟨hversion, List.forall_mem_singleton.mpr hcollection⟩
    · exact List.forall_mem_singleton.mpr hverb
  · have hsame := (pathSegment_eq_ok.mp hother).2
    refine Utf8.encode_injective ?_
    rw [← percentDecode_segmentOf (Utf8.encode other), ← hsame, hdecoded]

example : pathSegment "..\\%2e".toList = .ok "..%5C%252e".toList := by decide

/-! ## What a mutation is sent to -/

/-- The path of a mutation of one resource, which decodes to the id. -/
def Addresses (collection verb id path : Text) : Prop :=
  ∃ segment, path = "/v1/".toList ++ collection ++ "/".toList ++ segment ++ "/".toList ++ verb ∧
    IsSegment segment ∧ percentDecode (Utf8.encode segment) = Utf8.encode id

/-- A mutation of an id goes out: the id can be a segment, and a paired device signs. -/
structure CloudClient.Goes (client : CloudClient) (id : Text) (x : Exchange) : Prop where
  named : id ≠ [] ∧ id ≠ "." ∧ id ≠ ".."
  paired : client.hasDevice = true
  signed : x.signing = none

/-- What an operator reads of a mutation that never went out. -/
inductive CloudClient.WithheldAs (client : CloudClient) (x : Exchange) : Text → Text → Prop
  | empty : client.WithheldAs x []
      "invalid id for a URL path segment: an empty id cannot address a resource".toList
  | dots {id : Text} (h : id = "." ∨ id = "..") : client.WithheldAs x id
      ("invalid id for a URL path segment: `".toList ++ id ++
        "` is a relative path segment, not an id".toList)
  | unpaired {id : Text} (h : client.hasDevice = false) : client.WithheldAs x id
      "mutation requires a paired device signer; call attach_device (or pair) first".toList
  | unsigned {id e : Text} (h : x.signing = some e) : client.WithheldAs x id
      ("signing failed: ".toList ++ e)

section Mutations

variable {F α : Type} {W : CloudWire F} {client : CloudClient} {id : Text} {x : Exchange}
  {decode : Bytes → Except Text α}

variable (decode) in
/-- A mutation that goes out is one request to its id, and is what its answer reads as. -/
theorem mutation_of_goes (h : client.Goes id x) (collection verb : Text) (body : Bytes) :
    ∃ segment path, pathSegment id = .ok segment ∧ Addresses collection verb id path ∧
      client.signedPost W (mutationPath collection segment verb) body decode x =
        (parseResponse W decode x.reply, [.post path body]) := by
  have hsegment := pathSegment_eq_ok.mpr ⟨h.named, rfl⟩
  refine ⟨_, _, hsegment, ⟨_, rfl, isSegment_segmentOf _, percentDecode_segmentOf _⟩, ?_⟩
  rw [signedPost, if_pos h.paired, h.signed]
  rfl

variable (decode) in
/-- A mutation that does not go out fails, with no status and the reason. -/
theorem mutation_of_not_goes (h : ¬ client.Goes id x) (path : Text → Text) (body : Bytes) :
    ∃ e, (match pathSegment id with
        | .error e => (.error (.invalidPathSegment e), [])
        | .ok segment => client.signedPost W (path segment) body decode x) = (.error e, []) ∧
      client.WithheldAs x id e.display ∧ e.statusOf = 0 := by
  unfold pathSegment
  split_ifs with hempty hdots
  · subst hempty
    exact ⟨_, rfl, .empty, rfl⟩
  · refine ⟨_, rfl, ?_, rfl⟩
    have htext : (ConnectorError.invalidPathSegment (.dotSegment id)).display =
        "invalid id for a URL path segment: `".toList ++ id ++
          "` is a relative path segment, not an id".toList := rfl
    rw [htext]
    exact .dots hdots
  · dsimp only
    unfold signedPost
    split_ifs with hdevice
    · cases hsigning : x.signing with
      | none => exact absurd ⟨⟨hempty, not_or.mp hdots⟩, hdevice, hsigning⟩ h
      | some e => exact ⟨_, rfl, .unsigned hsigning, rfl⟩
    · exact ⟨_, rfl, .unpaired (Bool.eq_false_iff.mpr hdevice), rfl⟩

end Mutations

end Genaryx.Money
