import Genaryx.Policy.KeyFormat

/-!
# What an accepted key is

What is written is read back. What is read is a PKCS#8 structure of a P-256 key exactly when its
lengths are spelled as shortly as they can be, its parameters name the curve, and nothing stands
behind the bit string.

## Implementation notes

The reader asks for none of the three, so the last result is an equivalence for every input.
-/

namespace Genaryx.Policy

open Der

/-! ## One layout for the bytes -/

/-- The optional parts tell each other apart. -/
theorem optional_inj {parameters parameters' : Option (Bytes × Bytes)}
    {part part' : Option PublicPart} (h : ∀ e ∈ parameters, Readable e.1 e.2.length)
    (h' : ∀ e ∈ parameters', Readable e.1 e.2.length) (hpart : ∀ p ∈ part, p.Valid)
    (hpart' : ∀ p ∈ part', p.Valid)
    (heq : parametersBytes parameters ++ publicBytes part =
      parametersBytes parameters' ++ publicBytes part') :
    parameters = parameters' ∧ part = part' := by
  have hrest : publicBytes part = publicBytes part' := by
    rw [← afterParameters_append h part, ← afterParameters_append h' part', heq]
  have hfront : parametersBytes parameters = parametersBytes parameters' :=
    List.append_cancel_right (hrest ▸ heq)
  constructor
  · cases parameters with
    | none =>
        cases parameters' with
        | none => rfl
        | some _ => exact absurd hfront.symm (List.cons_ne_nil _ _)
    | some e =>
        cases parameters' with
        | none => exact absurd hfront (List.cons_ne_nil _ _)
        | some e' =>
            obtain ⟨-, hoctets, hcontent⟩ := written_inj (h e rfl).spells (h' e' rfl).spells hfront
            exact congrArg some (Prod.ext hoctets hcontent)
  · cases part with
    | none =>
        cases part' with
        | none => rfl
        | some _ => exact absurd hrest.symm (List.cons_ne_nil _ _)
    | some p =>
        cases part' with
        | none => exact absurd hrest (List.cons_ne_nil _ _)
        | some p' =>
            have hp := hpart p rfl
            have hp' := hpart' p' rfl
            obtain ⟨-, houter, hwrapped⟩ := written_inj hp.outer.spells hp'.outer.spells hrest
            obtain ⟨-, hinner, hbits, hbehind⟩ :=
              written_append_inj hp.inner.spells hp'.inner.spells hwrapped
            obtain ⟨outer, inner, point, behind⟩ := p
            obtain ⟨outer', inner', point', behind'⟩ := p'
            obtain rfl : point = point' := (List.cons.inj hbits).2
            exact congrArg some (by rw [show outer = outer' from houter,
              show inner = inner' from hinner, show behind = behind' from hbehind])

/-- **Bytes can be taken apart in one way.** -/
theorem Layout.bytes_inj {l l' : Layout} (h : l.Valid) (h' : l'.Valid) (heq : l.bytes = l'.bytes) :
    l = l' := by
  obtain ⟨hlengths, -, hparameters, hpart⟩ := h
  obtain ⟨hlengths', -, hparameters', hpart'⟩ := h'
  simp only [Layout.lengths, List.forall_mem_cons, List.not_mem_nil, false_imp_iff,
    implies_true, and_true] at hlengths hlengths'
  obtain ⟨i1, i2, i3, i4, i5, i6, i7, i8, i9⟩ := hlengths
  obtain ⟨j1, j2, j3, j4, j5, j6, j7, j8, j9⟩ := hlengths'
  obtain ⟨-, hinfo, heq⟩ := written_inj i1.spells j1.spells heq
  obtain ⟨-, hversion, -, heq⟩ := written_append_inj i2.spells j2.spells heq
  obtain ⟨-, halgorithm, halg, heq⟩ := written_append_inj i3.spells j3.spells heq
  obtain ⟨-, hoid, -, halg⟩ := written_append_inj i4.spells j4.spells halg
  obtain ⟨-, hcurve, -⟩ := written_inj i5.spells j5.spells halg
  obtain ⟨-, hkey, heq⟩ := written_inj i6.spells j6.spells heq
  obtain ⟨-, hec, heq⟩ := written_inj i7.spells j7.spells heq
  obtain ⟨-, hecVersion, -, heq⟩ := written_append_inj i8.spells j8.spells heq
  obtain ⟨-, hscalarLength, hscalar, heq⟩ := written_append_inj i9.spells j9.spells heq
  obtain ⟨hparameters, hpart⟩ := optional_inj hparameters hparameters' hpart hpart' heq
  obtain ⟨⟩ := l
  obtain ⟨⟩ := l'
  simp only at *
  subst hinfo hversion halgorithm hoid hcurve hkey hec hecVersion hscalarLength hscalar hparameters
    hpart
  rfl

/-! ## The structure, as it should be -/

/-- A PKCS#8 structure of a P-256 key, with the curve named again beside the scalar or not, and
with the public half or without. -/
def privateKeyInfo (scalar : Bytes) (named : Bool) (point : Option Bytes) : Bytes :=
  let parameters := if named then element 0xA0 (element 0x06 oidPrime256v1) else []
  let publicKey := point.elim [] fun p => element 0xA1 (element 0x03 (0 :: p))
  let ecPrivateKey := element 0x30
    (element 0x02 [1] ++ (element 0x04 scalar ++ (parameters ++ publicKey)))
  element 0x30 (element 0x02 [0] ++
    (element 0x30 (element 0x06 oidEcPublicKey ++ element 0x06 oidPrime256v1) ++
      element 0x04 ecPrivateKey))

/-- The bytes are such a structure, of this scalar and this public half. -/
def IsPkcs8 (der : Bytes) (key : Bytes × Option Bytes) : Prop :=
  ∃ named : Bool, der = privateKeyInfo key.1 named key.2

/-! ## The structure as a layout -/

def PublicPart.of (point : Bytes) : PublicPart where
  outer := lengthOctets (element 0x03 (0 :: point)).length
  inner := lengthOctets (0 :: point).length
  point := point
  behind := []

/-- The parameters that name the curve. -/
def namedCurve : Bytes × Bytes :=
  (lengthOctets (element 0x06 oidPrime256v1).length, element 0x06 oidPrime256v1)

/-- The structure, taken apart. -/
def Layout.of (scalar : Bytes) (named : Bool) (point : Option Bytes) : Layout :=
  let parameters := if named then some namedCurve else none
  let publicPart := point.map PublicPart.of
  let ecValue := element 0x02 [1] ++ (element 0x04 scalar ++
    (parametersBytes parameters ++ publicBytes publicPart))
  let keyValue := element 0x30 ecValue
  let algorithmValue := element 0x06 oidEcPublicKey ++ element 0x06 oidPrime256v1
  let infoValue := element 0x02 [0] ++ (element 0x30 algorithmValue ++ element 0x04 keyValue)
  { info := lengthOctets infoValue.length
    version := lengthOctets [0].length
    algorithm := lengthOctets algorithmValue.length
    oid := lengthOctets oidEcPublicKey.length
    curve := lengthOctets oidPrime256v1.length
    key := lengthOctets keyValue.length
    ec := lengthOctets ecValue.length
    ecVersion := lengthOctets [1].length
    scalarLength := lengthOctets scalar.length
    scalar := scalar
    parameters := parameters
    publicPart := publicPart }

theorem PublicPart.wrapped_of (point : Bytes) :
    (PublicPart.of point).wrapped = element 0x03 (0 :: point) := List.append_nil _

theorem PublicPart.bytes_of (point : Bytes) :
    (PublicPart.of point).bytes = element 0xA1 (element 0x03 (0 :: point)) := by
  rw [bytes, wrapped_of]
  rfl

section Values

variable (scalar : Bytes) (named : Bool) (point : Option Bytes)

theorem Layout.algorithmValue_of : (Layout.of scalar named point).algorithmValue =
    element 0x06 oidEcPublicKey ++ element 0x06 oidPrime256v1 := rfl

theorem Layout.ecValue_of : (Layout.of scalar named point).ecValue =
    element 0x02 [1] ++ (element 0x04 scalar ++
      (parametersBytes (if named then some namedCurve else none) ++
        publicBytes (point.map PublicPart.of))) := rfl

theorem Layout.keyValue_of : (Layout.of scalar named point).keyValue =
    element 0x30 (Layout.of scalar named point).ecValue := rfl

theorem Layout.infoValue_of : (Layout.of scalar named point).infoValue =
    element 0x02 [0] ++ (element 0x30 (Layout.of scalar named point).algorithmValue ++
      element 0x04 (Layout.of scalar named point).keyValue) := by
  rw [Layout.keyValue_of, Layout.ecValue_of, Layout.algorithmValue_of]
  rfl

/-- Every length is spelled by its digits. -/
theorem Layout.octets_of :
    ∀ e ∈ (Layout.of scalar named point).lengths, e.1 = lengthOctets e.2.length := by
  simp only [Layout.lengths, List.forall_mem_cons, List.not_mem_nil, false_imp_iff,
    implies_true, and_true, Layout.infoValue_of, Layout.keyValue_of, Layout.ecValue_of,
    Layout.algorithmValue_of]
  exact ⟨rfl, rfl, rfl, rfl, rfl, rfl, rfl, rfl, rfl⟩

theorem Layout.bytes_eq_element : (Layout.of scalar named point).bytes =
    element 0x30 (Layout.of scalar named point).infoValue := by
  rw [Layout.bytes, element, ← Layout.octets_of _ _ _ _ List.mem_cons_self]

theorem Layout.bytes_of :
    (Layout.of scalar named point).bytes = privateKeyInfo scalar named point := by
  have hparameters : parametersBytes (if named then some namedCurve else none) =
      if named then element 0xA0 (element 0x06 oidPrime256v1) else [] := by
    cases named
    · rfl
    · rfl
  have hpublic : publicBytes (point.map PublicPart.of) =
      point.elim [] fun p => element 0xA1 (element 0x03 (0 :: p)) := by
    cases point with
    | none => rfl
    | some p => exact PublicPart.bytes_of p
  rw [Layout.bytes_eq_element, Layout.infoValue_of, Layout.keyValue_of, Layout.ecValue_of, Layout.algorithmValue_of,
    hparameters, hpublic]
  rfl

theorem Layout.parts_of : (Layout.of scalar named point).parts = (scalar, point) := by
  cases point with
  | none => rfl
  | some p => rfl

end Values

/-! ## The sizes of its elements -/

theorem length_element_le (tag : UInt8) {value : Bytes} (h : value.length < 256) :
    (element tag value).length ≤ value.length + 3 := by
  have hoctets := length_lengthOctets_le (k := 1) h
  rw [element, written, List.length_cons, List.length_append]
  omega

theorem readable_lengthOctets {n : Nat} (h : n < 256) : Readable (lengthOctets n) n :=
  ⟨spells_lengthOctets (k := 1) (by decide) h,
    (length_lengthOctets_le (k := 1) h).trans (by decide)⟩

theorem isShortest_lengthOctets {n : Nat} (h : n < 256) : IsShortest (lengthOctets n) n :=
  (readable_lengthOctets h).spells.isShortest_iff.mpr rfl

/-- The public half is short. -/
theorem length_publicHalf {point : Bytes} (h : IsUncompressed point) :
    (0 :: point).length = 66 ∧ (element 0x03 (0 :: point)).length ≤ 69 ∧
      (element 0xA1 (element 0x03 (0 :: point))).length ≤ 72 := by
  have hbits : (0 :: point).length = 66 := congrArg (· + 1) h.length
  have hinner : (element 0x03 (0 :: point)).length ≤ (0 :: point).length + 3 :=
    length_element_le 0x03 (by omega)
  have houter := length_element_le 0xA1 (lt_of_le_of_lt hinner (by omega))
  omega

section Sizes

variable {scalar : Bytes} {point : Option Bytes}

theorem length_publicBytes_of (h : ∀ p ∈ point, IsUncompressed p) :
    (publicBytes (point.map PublicPart.of)).length ≤ 72 := by
  cases point with
  | none => exact Nat.zero_le _
  | some p =>
      rw [Option.map_some, publicBytes, PublicPart.bytes_of]
      exact (length_publicHalf (h p rfl)).2.2

theorem length_parametersBytes_named (named : Bool) :
    (parametersBytes (if named then some namedCurve else none)).length ≤ 14 := by
  have hcurve : (element 0x06 oidPrime256v1).length ≤ 11 := length_element_le 0x06 (by decide)
  cases named with
  | false => exact Nat.zero_le _
  | true => exact (length_element_le 0xA0 (by omega)).trans (Nat.add_le_add_right hcurve 3)

/-- Every value is short. -/
theorem Layout.length_of (hscalar : scalar.length = 32) (named : Bool)
    (hpoint : ∀ p ∈ point, IsUncompressed p) :
    ∀ e ∈ (Layout.of scalar named point).lengths, e.2.length < 256 := by
  have hec : (Layout.of scalar named point).ecValue.length ≤ 125 := by
    have hversion : (element 0x02 [1]).length ≤ 4 := length_element_le 0x02 (by decide)
    have hsecret : (element 0x04 scalar).length ≤ scalar.length + 3 :=
      length_element_le 0x04 (by omega)
    have hparameters := length_parametersBytes_named named
    have hpublic := length_publicBytes_of hpoint
    rw [Layout.ecValue_of, List.length_append, List.length_append, List.length_append]
    omega
  have hkey : (Layout.of scalar named point).keyValue.length ≤ 128 := by
    rw [Layout.keyValue_of]
    exact (length_element_le 0x30 (by omega)).trans (by omega)
  have halgorithm : (Layout.of scalar named point).algorithmValue.length ≤ 21 := by
    have hoid : (element 0x06 oidEcPublicKey).length ≤ 10 := length_element_le 0x06 (by decide)
    have hcurve : (element 0x06 oidPrime256v1).length ≤ 11 := length_element_le 0x06 (by decide)
    rw [Layout.algorithmValue_of, List.length_append]
    omega
  have hinfo : (Layout.of scalar named point).infoValue.length ≤ 159 := by
    have hversion : (element 0x02 [0]).length ≤ 4 := length_element_le 0x02 (by decide)
    have helement := length_element_le 0x30
      (show (Layout.of scalar named point).algorithmValue.length < 256 by omega)
    have hoctets := length_element_le 0x04
      (show (Layout.of scalar named point).keyValue.length < 256 by omega)
    rw [Layout.infoValue_of, List.length_append, List.length_append]
    omega
  simp only [Layout.lengths, List.forall_mem_cons, List.not_mem_nil, false_imp_iff, implies_true,
    and_true]
  have hscalar' : (Layout.of scalar named point).scalar.length = 32 := hscalar
  exact ⟨by omega, by decide, by omega, by decide, by decide, by omega, by omega, by decide, by omega⟩

theorem PublicPart.valid_of {p : Bytes} (h : IsUncompressed p) : (PublicPart.of p).Valid := by
  obtain ⟨hbits, hinner, -⟩ := length_publicHalf h
  refine ⟨?_, readable_lengthOctets (by omega), h⟩
  rw [PublicPart.wrapped_of]
  exact readable_lengthOctets (by omega)

theorem PublicPart.isShortest_of {p : Bytes} (h : IsUncompressed p) :
    IsShortest (PublicPart.of p).outer (PublicPart.of p).wrapped.length ∧
      IsShortest (PublicPart.of p).inner (0 :: p).length := by
  obtain ⟨hbits, hinner, -⟩ := length_publicHalf h
  refine ⟨?_, isShortest_lengthOctets (by omega)⟩
  rw [PublicPart.wrapped_of]
  exact isShortest_lengthOctets (by omega)

theorem eq_namedCurve {named : Bool} {e : Bytes × Bytes}
    (h : e ∈ if named then some namedCurve else none) : e = namedCurve := by
  cases named with
  | false => exact nomatch h
  | true => exact (Option.some.inj h).symm

theorem length_namedCurve : (element 0x06 oidPrime256v1).length < 256 :=
  lt_of_le_of_lt (length_element_le 0x06 (by decide)) (by decide)

/-- The reader takes the structure. -/
theorem Layout.valid_of (hscalar : scalar.length = 32) (named : Bool)
    (hpoint : ∀ p ∈ point, IsUncompressed p) : (Layout.of scalar named point).Valid := by
  refine ⟨fun e he => ?_, hscalar, fun e he => ?_, fun p hp => ?_⟩
  · rw [Layout.octets_of _ _ _ e he]
    exact readable_lengthOctets (Layout.length_of hscalar named hpoint e he)
  · rw [eq_namedCurve he]
    exact readable_lengthOctets length_namedCurve
  · obtain ⟨q, hq, rfl⟩ := Option.map_eq_some_iff.mp hp
    exact PublicPart.valid_of (hpoint q hq)

theorem Layout.strict_of (hscalar : scalar.length = 32) (named : Bool)
    (hpoint : ∀ p ∈ point, IsUncompressed p) : (Layout.of scalar named point).Strict := by
  refine ⟨fun e he => ?_, fun e he => ?_, fun p hp => ?_⟩
  · rw [Layout.octets_of _ _ _ e he]
    exact isShortest_lengthOctets (Layout.length_of hscalar named hpoint e he)
  · rw [eq_namedCurve he]
    exact ⟨isShortest_lengthOctets length_namedCurve, rfl⟩
  · obtain ⟨q, hq, rfl⟩ := Option.map_eq_some_iff.mp hp
    obtain ⟨houter, hinner⟩ := PublicPart.isShortest_of (hpoint q hq)
    exact ⟨houter, hinner, rfl⟩

end Sizes

/-! ## Strict layouts -/

theorem written_eq_element {octets value : Bytes} (h : Readable octets value.length)
    (hshortest : IsShortest octets value.length) (tag : UInt8) :
    written tag octets value = element tag value := by
  rw [element, ← h.spells.isShortest_iff.mp hshortest]

theorem parametersBytes_of_strict {parameters : Option (Bytes × Bytes)}
    (h : ∀ e ∈ parameters, Readable e.1 e.2.length)
    (hstrict : ∀ e ∈ parameters, IsShortest e.1 e.2.length ∧ e.2 = element 0x06 oidPrime256v1) :
    parametersBytes parameters =
      if parameters.isSome then element 0xA0 (element 0x06 oidPrime256v1) else [] := by
  cases parameters with
  | none => rfl
  | some e =>
      obtain ⟨hshortest, hnamed⟩ := hstrict e rfl
      rw [parametersBytes, written_eq_element (h e rfl) hshortest, hnamed]
      rfl

theorem publicBytes_of_strict {part : Option PublicPart} (h : ∀ p ∈ part, p.Valid)
    (hstrict : ∀ p ∈ part, IsShortest p.outer p.wrapped.length ∧
      IsShortest p.inner (0 :: p.point).length ∧ p.behind = []) :
    publicBytes part =
      (part.map PublicPart.point).elim [] fun p => element 0xA1 (element 0x03 (0 :: p)) := by
  cases part with
  | none => rfl
  | some p =>
      obtain ⟨houter, hinner, hbehind⟩ := hstrict p rfl
      rw [publicBytes, PublicPart.bytes, written_eq_element (h p rfl).outer houter,
        PublicPart.wrapped, hbehind, List.append_nil, written_eq_element (h p rfl).inner hinner]
      rfl

/-- A strict layout is the structure of its scalar and its public half. -/
theorem Layout.bytes_of_strict {l : Layout} (h : l.Valid) (hstrict : l.Strict) :
    l.bytes = privateKeyInfo l.scalar l.parameters.isSome (l.publicPart.map PublicPart.point) := by
  obtain ⟨hlengths, -, hparameters, hpart⟩ := h
  obtain ⟨hshortest, hnamed, hclosed⟩ := hstrict
  have hwritten : ∀ e ∈ l.lengths, ∀ tag, written tag e.1 e.2 = element tag e.2 := fun e he tag =>
    written_eq_element (hlengths e he) (hshortest e he) tag
  simp only [Layout.lengths, List.forall_mem_cons, List.not_mem_nil, false_imp_iff,
    implies_true, and_true] at hwritten
  obtain ⟨hinfo, hversion, halgorithm, hoid, hcurve, hkey, hec, hecVersion, hscalar⟩ := hwritten
  rw [Layout.bytes, hinfo, Layout.infoValue, hversion, halgorithm, hkey, Layout.algorithmValue,
    hoid, hcurve, Layout.keyValue, hec, Layout.ecValue, hecVersion, hscalar,
    parametersBytes_of_strict hparameters hnamed, publicBytes_of_strict hpart hclosed]
  rfl

/-! ## What is written -/

theorem derTlv_eq_element (tag : UInt8) {body : Bytes} (h : body.length < 0x10000) :
    derTlv tag body = element tag body := by
  have hoctets : (if body.length < 0x80 then [UInt8.ofNat body.length]
      else if body.length < 0x100 then [0x81, UInt8.ofNat body.length]
      else [0x82, UInt8.ofNat (body.length >>> 8), UInt8.ofNat body.length]) =
        lengthOctets body.length := by
    rw [lengthOctets]
    split_ifs with hshort hbyte
    · rfl
    · rw [digitsOf_of_lt (by omega) hbyte]
      rfl
    · rw [digitsOf_eq (by omega), digitsOf_of_lt (Nat.div_pos (by omega) (by decide))
        (Nat.div_lt_of_lt_mul (by omega)), Nat.shiftRight_eq_div_pow]
      rfl
  rw [derTlv, element, written]
  exact congrArg (fun octets => tag :: (octets ++ body)) hoctets

/-- What is written is the structure that names the curve once. -/
theorem pkcs8Der_eq {scalar : Bytes} {point : Option Bytes} (hscalar : scalar.length = 32)
    (hpoint : ∀ p ∈ point, IsUncompressed p) :
    pkcs8Der scalar point = privateKeyInfo scalar false point := by
  have hlengths := Layout.length_of hscalar false hpoint
  simp only [Layout.lengths, List.forall_mem_cons, List.not_mem_nil, false_imp_iff,
    implies_true, and_true] at hlengths
  obtain ⟨hinfo, -, halgorithm, -, -, hkey, hec, -, -⟩ := hlengths
  have hpublic : (point.elim [] fun p => derTlv 0xA1 (derTlv 0x03 (0 :: p))) =
      publicBytes (point.map PublicPart.of) := by
    cases point with
    | none => rfl
    | some p =>
        obtain ⟨hbits, hinner, -⟩ := length_publicHalf (hpoint p rfl)
        rw [Option.map_some, publicBytes, PublicPart.bytes_of, Option.elim_some,
          derTlv_eq_element 0x03 (by omega), derTlv_eq_element 0xA1 (by omega)]
  have hecValue : derTlv 0x02 [1] ++ derTlv 0x04 scalar ++ publicBytes (point.map PublicPart.of) =
      (Layout.of scalar false point).ecValue := by
    rw [Layout.ecValue_of, derTlv_eq_element 0x02 (by decide), derTlv_eq_element 0x04 (by omega),
      List.append_assoc]
    rfl
  have hkeyValue : derTlv 0x30 (Layout.of scalar false point).ecValue =
      (Layout.of scalar false point).keyValue := derTlv_eq_element 0x30 (by omega)
  have halgorithmValue : derTlv 0x06 oidEcPublicKey ++ derTlv 0x06 oidPrime256v1 =
      (Layout.of scalar false point).algorithmValue := by
    rw [Layout.algorithmValue_of, derTlv_eq_element 0x06 (by decide),
      derTlv_eq_element 0x06 (by decide)]
  have hinfoValue : derTlv 0x02 [0] ++ derTlv 0x30 (Layout.of scalar false point).algorithmValue ++
      derTlv 0x04 (Layout.of scalar false point).keyValue =
        (Layout.of scalar false point).infoValue := by
    rw [Layout.infoValue_of, derTlv_eq_element 0x02 (by decide), derTlv_eq_element 0x30 (by omega),
      derTlv_eq_element 0x04 (by omega), List.append_assoc]
  rw [pkcs8Der, hpublic, hecValue, hkeyValue, halgorithmValue, hinfoValue,
    derTlv_eq_element 0x30 (by omega), ← Layout.bytes_eq_element, Layout.bytes_of]

/-! ## The format -/

/-- What is written is read back, as the scalar and the public half it was written of. -/
def ReadsBack : Prop :=
  ∀ scalar point, scalar.length = 32 → (∀ p ∈ point, IsUncompressed p) →
    parseP256Pkcs8 (pkcs8Der scalar point) = .ok (scalar, point)

/-- Accepted bytes are the structure of what was read from them. -/
def ExactAt (der : Bytes) : Prop := ∀ key, parseP256Pkcs8 der = .ok key → IsPkcs8 der key

theorem parseP256Pkcs8_eq_ok {der : Bytes} {key : Bytes × Option Bytes} :
    parseP256Pkcs8 der = .ok key ↔ p256Parts der = some key := by
  rw [parseP256Pkcs8]
  cases p256Parts der with
  | none => exact ⟨(nomatch ·), (nomatch ·)⟩
  | some k => rw [Except.ok.injEq, Option.some.injEq]

/-- A layout's bytes are accepted, and they are the structure exactly when the layout is strict. -/
theorem isPkcs8_bytes {l : Layout} (h : l.Valid) : IsPkcs8 l.bytes l.parts ↔ l.Strict := by
  constructor
  · rintro ⟨named, hbytes⟩
    have hpoint : ∀ p ∈ l.parts.2, IsUncompressed p := by
      intro p hp
      obtain ⟨q, hq, rfl⟩ := Option.map_eq_some_iff.mp hp
      exact (h.publicPart q hq).point
    have hvalid := Layout.valid_of h.scalar named hpoint
    have heq : l = Layout.of l.scalar named l.parts.2 :=
      Layout.bytes_inj h hvalid (hbytes.trans (Layout.bytes_of _ _ _).symm)
    rw [heq]
    exact Layout.strict_of h.scalar named hpoint
  · exact fun hstrict => ⟨_, Layout.bytes_of_strict h hstrict⟩

/-- What is written is read back; and accepted bytes are a PKCS#8 structure exactly when, as they
are taken apart, every length is spelled as shortly as it can be, the parameters are absent or name
the curve, and nothing is behind the bit string. -/
theorem key_format_exact_when (der : Bytes) :
    ReadsBack ∧ (ExactAt der ↔ ∀ l : Layout, l.Valid → l.bytes = der → l.Strict) := by
  refine ⟨fun scalar point hscalar hpoint => ?_, fun h l hvalid hbytes => ?_, ?_⟩
  · rw [pkcs8Der_eq hscalar hpoint, ← Layout.bytes_of, parseP256Pkcs8_eq_ok,
      p256Parts_bytes (Layout.valid_of hscalar false hpoint), Layout.parts_of]
  · have hread := p256Parts_bytes hvalid
    rw [hbytes] at hread
    have hexact := h l.parts (parseP256Pkcs8_eq_ok.mpr hread)
    exact (isPkcs8_bytes hvalid).mp (hbytes ▸ hexact)
  · intro h key hkey
    obtain ⟨l, hvalid, hbytes, rfl⟩ := layout_of_p256Parts (parseP256Pkcs8_eq_ok.mp hkey)
    exact hbytes ▸ (isPkcs8_bytes hvalid).mpr (h l hvalid hbytes)

section Example

/-- A scalar of thirty-two sevens. -/
def sevens : Bytes := List.replicate 32 7

/-- The key with its outermost length in the long form, where the short one would do. -/
def longForm : Bytes := 0x30 :: 0x81 :: (pkcs8Der sevens none).drop 1

/-- The key with this behind its scalar. -/
def withOptional (optional : Bytes) : Bytes :=
  derTlv 0x30 (derTlv 0x02 [0] ++
    derTlv 0x30 (derTlv 0x06 oidEcPublicKey ++ derTlv 0x06 oidPrime256v1) ++
    derTlv 0x04 (derTlv 0x30 (derTlv 0x02 [1] ++ derTlv 0x04 sevens ++ optional)))

/-- The key with parameters that hold nothing. -/
def emptyParameters : Bytes := withOptional (derTlv 0xA0 [])

/-- A point, as far as the reader looks. -/
def samplePoint : Bytes := 4 :: List.replicate 64 9

/-- The key with a byte behind the bit string of its public half. -/
def byteBehind : Bytes :=
  withOptional (derTlv 0xA1 (derTlv 0x03 (0 :: samplePoint) ++ [0xFF]))

/-- Bytes that are accepted, and that are no structure of what was read from them. -/
theorem loose_keys_accepted :
    (parseP256Pkcs8 longForm = .ok (sevens, none) ∧ ¬ IsPkcs8 longForm (sevens, none)) ∧
    (parseP256Pkcs8 emptyParameters = .ok (sevens, none) ∧
      ¬ IsPkcs8 emptyParameters (sevens, none)) ∧
      parseP256Pkcs8 byteBehind = .ok (sevens, some samplePoint) ∧
        ¬ IsPkcs8 byteBehind (sevens, some samplePoint) := by
  simp only [parseP256Pkcs8_eq_ok, IsPkcs8, Bool.exists_bool]
  refine ⟨⟨?_, ?_⟩, ⟨?_, ?_⟩, ?_, ?_⟩
  · decide
  · decide +kernel
  · decide
  · decide +kernel
  · decide +kernel
  · decide +kernel

end Example

end Genaryx.Policy
