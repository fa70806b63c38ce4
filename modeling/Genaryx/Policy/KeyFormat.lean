import Genaryx.Base.Der
import Genaryx.Policy.Statement

/-!
# The approver's key

The key is a scalar in a PKCS#8 structure, with its public half beside it or without. The reader
takes the structure apart element by element, and the writer puts it together.

## Implementation notes

Every refusal of the reader is the same error, so its body gives an `Option`.
-/

namespace Genaryx.Policy

/-- `ecPublicKey`. -/
def oidEcPublicKey : Bytes := [0x2A, 0x86, 0x48, 0xCE, 0x3D, 0x02, 0x01]

/-- `prime256v1`. -/
def oidPrime256v1 : Bytes := [0x2A, 0x86, 0x48, 0xCE, 0x3D, 0x03, 0x01, 0x07]

/-! ## Reading -/

/-- The length at the start of the octets behind a tag, and what follows it. -/
def derLength : Bytes → Option (Nat × Bytes)
  | [] => none
  | first :: rest =>
      if first < 0x80 then some (first.toNat, rest)
      else
        let n := (first &&& 0x7F).toNat
        if n = 0 ∨ 4 < n ∨ rest.length < n then none
        else some ((rest.take n).foldl (fun acc b => (acc <<< 8) ||| b.toNat) 0, rest.drop n)

/-- One element: its tag, its value, and what follows it. -/
def derRead : Bytes → Option (UInt8 × Bytes × Bytes)
  | [] => none
  | tag :: rest =>
      match derLength rest with
      | none => none
      | some (len, rest) => if rest.length < len then none else some (tag, rest.take len, rest.drop len)

/-- One element that has to have a tag. -/
def tagged (tag : UInt8) (input : Bytes) : Option (Bytes × Bytes) :=
  match derRead input with
  | some (found, value, tail) => if found = tag then some (value, tail) else none
  | none => none

/-- What is left behind the optional parameters. -/
def afterParameters (ec : Bytes) : Bytes :=
  match tagged 0xA0 ec with
  | some (_, after) => after
  | none => ec

/-- The optional public half, and what is left behind it. -/
def publicHalf (ec : Bytes) : Option (Option Bytes × Bytes) :=
  match tagged 0xA1 ec with
  | some (wrapped, after) =>
      match tagged 0x03 wrapped with
      | some (unused :: point, _) =>
          if unused = 0 ∧ point.length = 65 ∧ point.head? = some 4 then some (some point, after)
          else none
      | _ => none
  | none => some (none, ec)

/-- The scalar and the optional public half, unless something is off. -/
def p256Parts (der : Bytes) : Option (Bytes × Option Bytes) := do
  let (info, rest) ← tagged 0x30 der
  guard (rest = [])
  let (version, info) ← tagged 0x02 info
  guard (version = [0])
  let (algorithm, info) ← tagged 0x30 info
  let (oid, algorithm) ← tagged 0x06 algorithm
  guard (oid = oidEcPublicKey)
  let (curve, algorithm) ← tagged 0x06 algorithm
  guard (curve = oidPrime256v1 ∧ algorithm = [])
  let (key, info) ← tagged 0x04 info
  guard (info = [])
  let (ec, keyRest) ← tagged 0x30 key
  guard (keyRest = [])
  let (version, ec) ← tagged 0x02 ec
  guard (version = [1])
  let (scalar, ec) ← tagged 0x04 ec
  guard (scalar.length = 32)
  let (point, ec) ← publicHalf (afterParameters ec)
  guard (ec = [])
  some (scalar, point)

/-- The scalar and the optional public half of a P-256 PKCS#8 key. -/
def parseP256Pkcs8 (der : Bytes) : Except StatementError (Bytes × Option Bytes) :=
  match p256Parts der with
  | some key => .ok key
  | none => .error (.malformed "the approver key is not a P-256 PKCS#8 structure".toList)

/-! ## Writing -/

/-- One element, with its length in the short or long form. -/
def derTlv (tag : UInt8) (body : Bytes) : Bytes :=
  let n := body.length
  let octets :=
    if n < 0x80 then [UInt8.ofNat n]
    else if n < 0x100 then [0x81, UInt8.ofNat n]
    else [0x82, UInt8.ofNat (n >>> 8), UInt8.ofNat n]
  tag :: (octets ++ body)

/-- A key as PKCS#8, with the public half when one is given. -/
def pkcs8Der (scalar : Bytes) (point : Option Bytes) : Bytes :=
  let publicKey := point.elim [] fun p => derTlv 0xA1 (derTlv 0x03 (0 :: p))
  let ecPrivate := derTlv 0x02 [1] ++ derTlv 0x04 scalar ++ publicKey
  let algorithm := derTlv 0x06 oidEcPublicKey ++ derTlv 0x06 oidPrime256v1
  derTlv 0x30 (derTlv 0x02 [0] ++ derTlv 0x30 algorithm ++ derTlv 0x04 (derTlv 0x30 ecPrivate))

end Genaryx.Policy

/-!
## Which keys are accepted

Accepted bytes are elements one inside the other, each with its length in some spelling. The
reader takes any spelling of up to four digits, passes over what the parameters hold, and does not
look behind the public half's bit string. Bytes that do none of this are exactly a PKCS#8 key.

### Implementation notes

A `Layout` is how bytes may be taken apart: the spelling of each length and the parts that vary.
-/

namespace Genaryx.Policy

open Der

/-! ## One element -/

/-- A spelling that the reader takes. -/
structure Readable (octets : Bytes) (n : Nat) : Prop where
  spells : Spells octets n
  short : octets.length ≤ 5

theorem length_of_long {k : Nat} (hk : 0 < k) (hlen : k ≤ 4) :
    ¬ UInt8.ofNat (0x80 + k) < 0x80 ∧ (UInt8.ofNat (0x80 + k) &&& 0x7F).toNat = k := by
  obtain rfl | rfl | rfl | rfl : k = 1 ∨ k = 2 ∨ k = 3 ∨ k = 4 := by omega
  all_goals decide

theorem ofNat_long : ∀ first : UInt8, ¬ first < 0x80 →
    UInt8.ofNat (0x80 + (first &&& 0x7F).toNat) = first :=
  Utf8.of_bytes (by decide +kernel)

/-- What a spelling spells is read. -/
theorem derLength_append {octets : Bytes} {n : Nat} (h : Readable octets n) (rest : Bytes) :
    derLength (octets ++ rest) = some (n, rest) := by
  obtain ⟨hspells, hshort⟩ := h
  cases hspells with
  | short hn =>
      have hbyte : UInt8.ofNat n < 0x80 := by
        rw [UInt8.lt_iff_toNat_lt, Utf8.toNat_byte (by omega)]
        exact hn
      rw [List.singleton_append, derLength, if_pos hbyte, Utf8.toNat_byte (by omega)]
  | @long digits hpos hlen =>
      have hcount : 0 < digits.length := List.length_pos_of_ne_nil hpos
      have hfour : digits.length ≤ 4 := Nat.le_of_succ_le_succ hshort
      obtain ⟨hlong, hn⟩ := length_of_long hcount hfour
      have hfits : ¬ (digits.length = 0 ∨ 4 < digits.length ∨
          (digits ++ rest).length < digits.length) := by
        rw [List.length_append]
        omega
      rw [List.cons_append, derLength, if_neg hlong]
      simp only [hn]
      rw [if_neg hfits, List.take_left, List.drop_left, foldl_eq_bigEndian]

/-- What is read was spelled. -/
theorem spelled_of_derLength {input rest : Bytes} {n : Nat} (h : derLength input = some (n, rest)) :
    ∃ octets, Readable octets n ∧ input = octets ++ rest := by
  cases input with
  | nil => cases h
  | cons first tail =>
      rw [derLength] at h
      split_ifs at h with hshort
      · cases h
        have hn : first.toNat < 0x80 := UInt8.lt_iff_toNat_lt.mp hshort
        refine ⟨[first], ⟨?_, Nat.one_le_ofNat⟩, rfl⟩
        have hspells := Spells.short hn
        rwa [UInt8.ofNat_toNat] at hspells
      · dsimp only at h
        split_ifs at h with hrefused
        obtain ⟨rfl, rfl⟩ := Prod.mk.inj (Option.some.inj h)
        have hlength : (tail.take (first &&& 0x7F).toNat).length = (first &&& 0x7F).toNat := by
          rw [List.length_take]
          omega
        have hfirst := ofNat_long first hshort
        have hspells : Spells (UInt8.ofNat (0x80 + (tail.take (first &&& 0x7F).toNat).length) ::
            tail.take (first &&& 0x7F).toNat) (bigEndian (tail.take (first &&& 0x7F).toNat)) := by
          refine .long ?_ ?_
          · exact List.ne_nil_of_length_pos (by omega)
          · omega
        rw [hlength, hfirst] at hspells
        refine ⟨_, ⟨foldl_eq_bigEndian _ ▸ hspells, ?_⟩, ?_⟩
        · rw [List.length_cons]
          omega
        · rw [List.cons_append, List.take_append_drop]

/-- **What is read is an element and what follows it.** -/
theorem derRead_eq_some {input value rest : Bytes} {tag : UInt8} :
    derRead input = some (tag, value, rest) ↔
      ∃ octets, Readable octets value.length ∧ input = written tag octets value ++ rest := by
  constructor
  · intro h
    cases input with
    | nil => cases h
    | cons first tail =>
        rw [derRead] at h
        cases hlength : derLength tail with
        | none =>
            rw [hlength] at h
            cases h
        | some p =>
            obtain ⟨n, body⟩ := p
            obtain ⟨octets, hreadable, rfl⟩ := spelled_of_derLength hlength
            rw [hlength] at h
            dsimp only at h
            split_ifs at h with hfits
            obtain ⟨rfl, rfl, rfl⟩ : first = tag ∧ body.take n = value ∧ body.drop n = rest := by
              simpa only [Option.some.injEq, Prod.mk.injEq] using h
            refine ⟨octets, ?_, ?_⟩
            · rwa [List.length_take, Nat.min_eq_left (Nat.le_of_not_lt hfits)]
            · rw [written, List.cons_append, List.append_assoc, List.take_append_drop]
  · rintro ⟨octets, hreadable, rfl⟩
    have hfits : ¬ (value ++ rest).length < value.length := by
      rw [List.length_append]
      omega
    rw [written, List.cons_append, List.append_assoc, derRead, derLength_append hreadable]
    dsimp only
    rw [if_neg hfits, List.take_left, List.drop_left]

theorem tagged_eq_some {input value rest : Bytes} {tag : UInt8} :
    tagged tag input = some (value, rest) ↔
      ∃ octets, Readable octets value.length ∧ input = written tag octets value ++ rest := by
  rw [← derRead_eq_some, tagged]
  cases derRead input with
  | none => exact ⟨(nomatch ·), (nomatch ·)⟩
  | some p =>
      obtain ⟨found, v, r⟩ := p
      dsimp only
      split_ifs with htag
      · simp only [Option.some.injEq, Prod.mk.injEq, htag, true_and]
      · simp only [Option.some.injEq, Prod.mk.injEq, htag, false_and]

/-! ## How bytes are taken apart -/

/-- `0x04 || X || Y`. -/
structure IsUncompressed (point : Bytes) : Prop where
  length : point.length = 65
  head : point.head? = some 4

/-- The public half as it is written. -/
structure PublicPart where
  outer : Bytes
  inner : Bytes
  point : Bytes
  behind : Bytes

namespace PublicPart

def wrapped (p : PublicPart) : Bytes := written 0x03 p.inner (0 :: p.point) ++ p.behind

def bytes (p : PublicPart) : Bytes := written 0xA1 p.outer p.wrapped

end PublicPart

/-- The optional parameters, as the spelling of their length and what they hold. -/
def parametersBytes : Option (Bytes × Bytes) → Bytes
  | some (octets, content) => written 0xA0 octets content
  | none => []

def publicBytes : Option PublicPart → Bytes
  | some p => p.bytes
  | none => []

/-- The reader takes the lengths of a public half, and its point is of its size. -/
structure PublicPart.Valid (p : PublicPart) : Prop where
  outer : Readable p.outer p.wrapped.length
  inner : Readable p.inner (0 :: p.point).length
  point : IsUncompressed p.point

/-- A key as it is written: the spelling of every length, and the parts that vary. -/
structure Layout where
  info : Bytes
  version : Bytes
  algorithm : Bytes
  oid : Bytes
  curve : Bytes
  key : Bytes
  ec : Bytes
  ecVersion : Bytes
  scalarLength : Bytes
  scalar : Bytes
  parameters : Option (Bytes × Bytes)
  publicPart : Option PublicPart

namespace Layout

variable (l : Layout)

def ecValue : Bytes :=
  written 0x02 l.ecVersion [1] ++ (written 0x04 l.scalarLength l.scalar ++
    (parametersBytes l.parameters ++ publicBytes l.publicPart))

def keyValue : Bytes := written 0x30 l.ec l.ecValue

def algorithmValue : Bytes := written 0x06 l.oid oidEcPublicKey ++ written 0x06 l.curve oidPrime256v1

def infoValue : Bytes :=
  written 0x02 l.version [0] ++ (written 0x30 l.algorithm l.algorithmValue ++
    written 0x04 l.key l.keyValue)

def bytes : Bytes := written 0x30 l.info l.infoValue

/-- The lengths that are always there, with the value that each is the length of. -/
def lengths : List (Bytes × Bytes) :=
  [(l.info, l.infoValue), (l.version, [0]), (l.algorithm, l.algorithmValue),
    (l.oid, oidEcPublicKey), (l.curve, oidPrime256v1), (l.key, l.keyValue), (l.ec, l.ecValue),
    (l.ecVersion, [1]), (l.scalarLength, l.scalar)]

/-- The scalar and the public half. -/
def parts : Bytes × Option Bytes := (l.scalar, l.publicPart.map PublicPart.point)

/-- The reader takes every length, and the scalar and the point are of their sizes. -/
structure Valid : Prop where
  lengths : ∀ e ∈ l.lengths, Readable e.1 e.2.length
  scalar : l.scalar.length = 32
  parameters : ∀ e ∈ l.parameters, Readable e.1 e.2.length
  publicPart : ∀ p ∈ l.publicPart, p.Valid

/-- Every length is spelled as shortly as it can be, the parameters are absent or name the curve,
and nothing is behind the bit string. -/
structure Strict : Prop where
  lengths : ∀ e ∈ l.lengths, IsShortest e.1 e.2.length
  parameters : ∀ e ∈ l.parameters, IsShortest e.1 e.2.length ∧ e.2 = element 0x06 oidPrime256v1
  publicPart : ∀ p ∈ l.publicPart, IsShortest p.outer p.wrapped.length ∧
    IsShortest p.inner (0 :: p.point).length ∧ p.behind = []

end Layout

/-- A guard that is passed. -/
theorem guard_eq_some {p : Prop} [Decidable p] {u : Unit} : guard p = some u ↔ p := by
  by_cases h : p
  · rw [guard, if_pos h]
    exact ⟨fun _ => h, fun _ => rfl⟩
  · rw [guard, if_neg h]
    exact ⟨(nomatch ·), fun hp => absurd hp h⟩

/-! ## The reader takes exactly what is laid out -/

theorem tagged_written {octets value : Bytes} (h : Readable octets value.length) (tag : UInt8)
    (rest : Bytes) : tagged tag (written tag octets value ++ rest) = some (value, rest) :=
  tagged_eq_some.mpr ⟨octets, h, rfl⟩

theorem tagged_written_all {octets value : Bytes} (h : Readable octets value.length) (tag : UInt8) :
    tagged tag (written tag octets value) = some (value, []) := by
  have hread := tagged_written h tag []
  rwa [List.append_nil] at hread

/-- A tag that does not stand in front is not read. -/
theorem tagged_eq_none {tag : UInt8} {input : Bytes} (h : input.head? ≠ some tag) :
    tagged tag input = none := by
  cases hread : tagged tag input with
  | none => rfl
  | some p =>
      obtain ⟨octets, -, rfl⟩ := tagged_eq_some.mp hread
      exact absurd rfl h

theorem head?_publicBytes (part : Option PublicPart) : (publicBytes part).head? ≠ some 0xA0 := by
  cases part with
  | none => exact (nomatch ·)
  | some p =>
      intro h
      exact absurd (Option.some.inj h) (by decide)

/-- Parameters are passed over, and a public half is none. -/
theorem afterParameters_append {parameters : Option (Bytes × Bytes)}
    (h : ∀ e ∈ parameters, Readable e.1 e.2.length) (part : Option PublicPart) :
    afterParameters (parametersBytes parameters ++ publicBytes part) = publicBytes part := by
  cases parameters with
  | some e => rw [parametersBytes, afterParameters, tagged_written (h e rfl)]
  | none =>
      rw [parametersBytes, List.nil_append, afterParameters,
        tagged_eq_none (head?_publicBytes part)]

theorem publicHalf_publicBytes {part : Option PublicPart} (hpart : ∀ p ∈ part, p.Valid) :
    publicHalf (publicBytes part) = some (part.map PublicPart.point, []) := by
  cases part with
  | none => rfl
  | some p =>
      obtain ⟨houter, hinner, hpoint⟩ := hpart p rfl
      rw [publicBytes, PublicPart.bytes, publicHalf, tagged_written_all houter]
      dsimp only
      rw [PublicPart.wrapped, tagged_written hinner]
      exact if_pos ⟨rfl, hpoint.length, hpoint.head⟩

/-- What is laid out is read. -/
theorem p256Parts_bytes {l : Layout} (h : l.Valid) : p256Parts l.bytes = some l.parts := by
  obtain ⟨hlengths, hscalar, hparameters, hpart⟩ := h
  simp only [Layout.lengths, List.forall_mem_cons, List.not_mem_nil, false_imp_iff,
    implies_true, and_true] at hlengths
  obtain ⟨hinfo, hversion, halgorithm, hoid, hcurve, hkey, hec, hecVersion, hscalarLength⟩ := hlengths
  simp only [p256Parts, Layout.bytes, Layout.infoValue, Layout.algorithmValue, Layout.keyValue,
    Layout.ecValue, Layout.parts] at *
  simp only [tagged_written_all hinfo, tagged_written hversion, tagged_written halgorithm,
    tagged_written hoid, tagged_written_all hcurve, tagged_written_all hkey,
    tagged_written_all hec, tagged_written hecVersion, tagged_written hscalarLength,
    afterParameters_append hparameters, publicHalf_publicBytes hpart, hscalar,
    Option.bind_eq_bind, Option.bind_some, guard_true, and_self, Option.pure_def]

/-- What is left behind the parameters. -/
theorem parameters_of_afterParameters (ec : Bytes) :
    ∃ parameters, (∀ e ∈ parameters, Readable e.1 e.2.length) ∧
      ec = parametersBytes parameters ++ afterParameters ec := by
  cases hread : tagged 0xA0 ec with
  | none =>
      refine ⟨none, fun _ => (nomatch ·), ?_⟩
      rw [parametersBytes, List.nil_append, afterParameters, hread]
  | some p =>
      obtain ⟨content, after⟩ := p
      obtain ⟨octets, hreadable, hec⟩ := tagged_eq_some.mp hread
      refine ⟨some (octets, content), fun e he => ?_, ?_⟩
      · obtain rfl := Option.some.inj he
        exact hreadable
      · rw [parametersBytes, afterParameters, hread]
        exact hec

/-- A public half that is read with nothing behind it. -/
theorem part_of_publicHalf {ec : Bytes} {point : Option Bytes}
    (h : publicHalf ec = some (point, [])) :
    ∃ part, (∀ p ∈ part, p.Valid) ∧ ec = publicBytes part ∧ point = part.map PublicPart.point := by
  rw [publicHalf] at h
  cases hread : tagged 0xA1 ec with
  | none =>
      rw [hread] at h
      obtain ⟨rfl, rfl⟩ := Prod.mk.inj (Option.some.inj h)
      exact ⟨none, fun _ => (nomatch ·), rfl, rfl⟩
  | some p =>
      obtain ⟨wrapped, after⟩ := p
      obtain ⟨outer, houter, hec⟩ := tagged_eq_some.mp hread
      rw [hread] at h
      dsimp only at h
      split at h
      · next unused point' behind hbits =>
          obtain ⟨inner, hinner, rfl⟩ := tagged_eq_some.mp hbits
          split_ifs at h with hpoint
          obtain ⟨rfl, rfl⟩ := Prod.mk.inj (Option.some.inj h)
          obtain ⟨rfl, hlength, hhead⟩ := hpoint
          refine ⟨some ⟨outer, inner, point', behind⟩, fun p hp => ?_, ?_, rfl⟩
          · obtain rfl := Option.some.inj hp
            exact ⟨houter, hinner, hlength, hhead⟩
          · rw [hec, List.append_nil]
            rfl
      · cases h

/-- What is read was laid out. -/
theorem layout_of_p256Parts {der : Bytes} {key : Bytes × Option Bytes}
    (h : p256Parts der = some key) : ∃ l : Layout, l.Valid ∧ l.bytes = der ∧ l.parts = key := by
  simp only [p256Parts, Option.bind_eq_bind, Option.bind_eq_some_iff, guard_eq_some, Prod.exists,
    exists_const] at h
  obtain ⟨infoValue, _, hinfo, rfl, _, afterVersion, hversion, rfl, algorithmValue, afterAlgorithm,
    halgorithm, _, afterOid, hoid, rfl, _, _, hcurve, ⟨rfl, rfl⟩, keyValue, _, hkey, rfl, ecValue, _,
    hec, rfl, _, afterEcVersion, hecVersion, rfl, scalar, afterScalar, hscalar, hlength, point, _,
    hpoint, rfl, hkeyParts⟩ := h
  obtain ⟨info, hinfo', rfl⟩ := tagged_eq_some.mp hinfo
  obtain ⟨version, hversion', rfl⟩ := tagged_eq_some.mp hversion
  obtain ⟨algorithm, halgorithm', rfl⟩ := tagged_eq_some.mp halgorithm
  obtain ⟨oid, hoid', rfl⟩ := tagged_eq_some.mp hoid
  obtain ⟨curve, hcurve', rfl⟩ := tagged_eq_some.mp hcurve
  obtain ⟨keyOctets, hkey', rfl⟩ := tagged_eq_some.mp hkey
  obtain ⟨ec, hec', rfl⟩ := tagged_eq_some.mp hec
  obtain ⟨ecVersion, hecVersion', rfl⟩ := tagged_eq_some.mp hecVersion
  obtain ⟨scalarLength, hscalar', rfl⟩ := tagged_eq_some.mp hscalar
  obtain ⟨parameters, hparameters, hafter⟩ := parameters_of_afterParameters afterScalar
  obtain ⟨part, hpart, hpublic, rfl⟩ := part_of_publicHalf hpoint
  rw [hpublic] at hafter
  subst hafter
  simp only [List.append_nil] at *
  refine ⟨⟨info, version, algorithm, oid, curve, keyOctets, ec, ecVersion, scalarLength, scalar,
    parameters, part⟩, ⟨?_, hlength, hparameters, hpart⟩, rfl, Option.some.inj hkeyParts⟩
  simp only [Layout.lengths, List.forall_mem_cons, List.not_mem_nil, false_imp_iff, implies_true,
    and_true]
  exact ⟨hinfo', hversion', halgorithm', hoid', hcurve', hkey', hec', hecVersion', hscalar'⟩

end Genaryx.Policy
