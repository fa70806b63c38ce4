import Genaryx.Base.Items
import Genaryx.Base.Utf8
import Genaryx.Json.Value
import Genaryx.Json.Write

/-!
# A fetched set of signing keys

What a fetched body must be to replace the keys a token is verified with, and which of its
keys are then used.

## Implementation notes

`KeyReader` holds what other crates read: the JSON of a body, the typed key of one JSON value
and the key id of a typed key.
-/

namespace Genaryx.Web

open Base Json

variable {F Jwk : Type}

/-- How JSON and single keys are read. -/
structure KeyReader (F Jwk : Type) where
  fromSlice : Bytes → Option (Value F)
  jwk : Value F → Option Jwk
  keyId : Jwk → Option Text

/-- Members that only a private key has. -/
def forbiddenPrivateMembers : List Text := ["d", "p", "q", "dp", "dq", "qi", "k"].map String.toList

/-- Why a fetched body is refused. -/
inductive RefusedSet where
  | invalidJson
  | notAnObject
  | keysMissingOrNotArray
  | emptyKeys
  | keyNotAnObject
  | unsupportedKeyType (kty : Text)
  | privateKeyMember (kid : Option Text) (member : Text)
  deriving DecidableEq

/-- A text member of a key. -/
def textMember (members : List (Text × Value F)) (name : Text) : Option Text :=
  (members.lookup name).bind Value.asStr

/-- The type of a key. -/
def keyType (members : List (Text × Value F)) : Text := (textMember members "kty".toList).getD []

/-- The first private member a key carries. -/
def privateMember (members : List (Text × Value F)) : Option Text :=
  forbiddenPrivateMembers.find? fun member => (members.lookup member).isSome

/-- The keys of a type that is verified with, if no key refuses the set. -/
def keep : List (Value F) → Except RefusedSet (List (Value F))
  | [] => .ok []
  | .object members :: rest =>
      match privateMember members with
      | some member => .error (.privateKeyMember (textMember members "kid".toList) member)
      | none =>
          if keyType members = "RSA".toList ∨ keyType members = "EC".toList then
            (keep rest).map (.object members :: ·)
          else if keyType members = "oct".toList then
            .error (.unsupportedKeyType (keyType members))
          else keep rest
  | _ :: _ => .error .keyNotAnObject

variable (reader : KeyReader F Jwk)

/-- The keys of a body, or the rule that refused it. -/
def validateJwksBytes (body : Bytes) : Except RefusedSet (List Jwk) :=
  match reader.fromSlice body with
  | none => .error .invalidJson
  | some (.object members) =>
      match members.lookup "keys".toList with
      | some (.array originalKeys) =>
          if originalKeys = [] then .error .emptyKeys
          else
            match keep originalKeys with
            | .error refused => .error refused
            | .ok [] => .error .emptyKeys
            | .ok kept =>
                -- Only what was kept is read as typed keys.
                match kept.mapM reader.jwk with
                | none => .error .invalidJson
                | some keys => .ok keys
      | _ => .error .keysMissingOrNotArray
  | some _ => .error .notAnObject

/-- The first key with an id. -/
def findKey (keys : List Jwk) (kid : Text) : Option Jwk :=
  keys.find? fun key => reader.keyId key == some kid

/-- A key of a type that tokens are verified with. -/
def Verifiable : Value F → Bool
  | .object members => keyType members = "RSA".toList ∨ keyType members = "EC".toList
  | _ => false

/-- A key that may stand in a published set: it is an object that shows no private member and
is no symmetric key. -/
def Publishable : Value F → Prop
  | .object members => privateMember members = none ∧ keyType members ≠ "oct".toList
  | _ => False

/-- The entries of the key array of a body. -/
def keyEntries (body : Bytes) : List (Value F) :=
  (((reader.fromSlice body).bind fun raw => raw.get "keys".toList).bind Value.asArray).getD []

/-- The keys of a body that tokens are verified with. -/
def usableKeys (body : Bytes) : List Jwk :=
  ((keyEntries reader body).filter Verifiable).filterMap reader.jwk

/-- A body that may replace the keys: every entry may be published, some entry can be verified
with, and each that can is read as a typed key. -/
structure Accepted (body : Bytes) : Prop where
  publishable : ∀ entry ∈ keyEntries reader body, Publishable entry
  some_verifiable : ∃ entry ∈ keyEntries reader body, Verifiable entry = true
  typed : ∀ entry ∈ keyEntries reader body, Verifiable entry = true →
    (reader.jwk entry).isSome = true

variable {reader}

theorem keep_eq_ok_iff {entries kept : List (Value F)} :
    keep entries = .ok kept ↔
      (∀ entry ∈ entries, Publishable entry) ∧ kept = entries.filter Verifiable := by
  induction entries generalizing kept with
  | nil =>
      simp only [keep, Except.ok.injEq, List.not_mem_nil, false_imp_iff, implies_true, true_and,
        List.filter_nil]
      exact eq_comm
  | cons entry rest ih =>
      rw [List.forall_mem_cons]
      cases entry with
      | object members =>
          rw [keep]
          cases hprivate : privateMember members with
          | some member => simp [Publishable, hprivate]
          | none =>
              by_cases hverified :
                  keyType members = "RSA".toList ∨ keyType members = "EC".toList
              · have hoct : keyType members ≠ "oct".toList := by
                  obtain h | h := hverified <;> rw [h] <;> decide
                have hhead : Publishable (Value.object members) := ⟨hprivate, hoct⟩
                have hkeeps : Verifiable (Value.object members) = true := decide_eq_true hverified
                simp only [if_pos hverified]
                rw [List.filter_cons_of_pos hkeeps]
                constructor
                · intro h
                  cases hrest : keep rest with
                  | error refused => rw [hrest] at h; cases h
                  | ok tail =>
                      rw [hrest] at h
                      obtain ⟨hall, htail⟩ := ih.mp hrest
                      cases h
                      exact ⟨⟨hhead, hall⟩, by rw [htail]⟩
                · rintro ⟨⟨-, hall⟩, rfl⟩
                  rw [ih.mpr ⟨hall, rfl⟩]
                  rfl
              · simp only [if_neg hverified]
                have hdrops : ¬ Verifiable (Value.object members) = true := fun h =>
                  hverified (of_decide_eq_true h)
                rw [List.filter_cons_of_neg hdrops]
                by_cases hoct : keyType members = "oct".toList
                · simp [Publishable, hoct]
                · have hhead : Publishable (Value.object members) := ⟨hprivate, hoct⟩
                  rw [if_neg hoct, ih]
                  simp only [hhead, true_and]
      | _ => simp [keep, Publishable]

/-- A body is accepted just when it may replace the keys, and then its usable keys do. -/
theorem validateJwksBytes_eq_ok_iff {body : Bytes} {keys : List Jwk} :
    validateJwksBytes reader body = .ok keys ↔
      Accepted reader body ∧ keys = usableKeys reader body := by
  have hnone : keyEntries reader body = [] →
      ¬ (Accepted reader body ∧ keys = usableKeys reader body) := by
    rintro hentries ⟨haccepted, -⟩
    obtain ⟨entry, hmem, -⟩ := haccepted.some_verifiable
    rw [hentries] at hmem
    cases hmem
  unfold validateJwksBytes
  split
  · next h => simpa using hnone (by rw [keyEntries, h]; rfl)
  · next members h =>
      split
      · next originalKeys hkeys =>
          have hentries : keyEntries reader body = originalKeys := by
            rw [keyEntries, h]
            simp only [Option.bind_some, Value.get, hkeys]
            rfl
          by_cases hempty : originalKeys = []
          · rw [if_pos hempty]
            simpa using hnone (hentries.trans hempty)
          · rw [if_neg hempty]
            split
            · next refused hkeep =>
                have hrefused : ¬ ∀ entry ∈ originalKeys, Publishable entry := fun hall => by
                  rw [keep_eq_ok_iff.mpr ⟨hall, rfl⟩] at hkeep
                  cases hkeep
                simp only [reduceCtorEq, false_iff, not_and]
                intro haccepted
                exact absurd (hentries ▸ haccepted.publishable) hrefused
            · next hkeep =>
                simp only [reduceCtorEq, false_iff, not_and]
                intro haccepted
                obtain ⟨entry, hmem, hverified⟩ := haccepted.some_verifiable
                have hkept : entry ∈ originalKeys.filter Verifiable :=
                  List.mem_filter.mpr ⟨hentries ▸ hmem, hverified⟩
                rw [← (keep_eq_ok_iff.mp hkeep).2] at hkept
                cases hkept
            · next kept hne hkeep =>
                obtain ⟨hall, hkept⟩ := keep_eq_ok_iff.mp hkeep
                have hsome : ∃ entry ∈ originalKeys, Verifiable entry = true := by
                  obtain ⟨entry, hmem⟩ := List.exists_mem_of_ne_nil kept hne
                  rw [hkept] at hmem
                  exact ⟨entry, List.mem_filter.mp hmem⟩
                have hmapM := @mapM_eq_some_iff _ _ reader.jwk kept
                rw [hkept] at hmapM ⊢
                have htyped : (∀ entry ∈ originalKeys.filter Verifiable,
                    (reader.jwk entry).isSome = true) ↔ Accepted reader body := by
                  constructor
                  · intro h
                    refine ⟨hentries ▸ hall, hentries ▸ hsome, fun entry hmem hverified => ?_⟩
                    exact h entry (List.mem_filter.mpr ⟨hentries ▸ hmem, hverified⟩)
                  · intro haccepted entry hmem
                    obtain ⟨hmem, hverified⟩ := List.mem_filter.mp hmem
                    exact haccepted.typed entry (hentries ▸ hmem) hverified
                rw [usableKeys, hentries, ← htyped, ← hmapM]
                split
                · next hread => simp [hread]
                · next keys' hread => rw [hread]; simp
      · next hkeys =>
          refine iff_of_false (by rintro ⟨⟩) (hnone ?_)
          rw [keyEntries, h, Option.bind_some, Value.get]
          cases hlookup : members.lookup "keys".toList with
          | none => rfl
          | some v =>
              cases v with
              | array originalKeys => exact absurd hlookup (hkeys originalKeys)
              | _ => rfl
  · next raw hraw h =>
      refine iff_of_false (by rintro ⟨⟩) (hnone ?_)
      rw [keyEntries, h, Option.bind_some]
      cases raw with
      | object members => exact absurd rfl (hraw members)
      | _ => rfl

/-- A refused body is one that may not replace the keys. -/
theorem validateJwksBytes_eq_error {body : Bytes} (h : ¬ Accepted reader body) :
    ∃ refused, validateJwksBytes reader body = .error refused := by
  cases hv : validateJwksBytes reader body with
  | error refused => exact ⟨refused, rfl⟩
  | ok keys => exact absurd (validateJwksBytes_eq_ok_iff.mp hv).1 h

end Genaryx.Web

/-!
## What one bad key costs

A fetched body serves if each of its entries may be published and one of them is a key that is
verified with. What is accepted is just that, where every entry of a type that is verified with is
one that the library reads. One that it does not read refuses the whole set.
-/

namespace Genaryx.Web

open Json

variable {F Jwk : Type} (reader : KeyReader F Jwk) (body : Bytes)

/-- A key that this console verifies with: of a type that it knows, with parameters that the library
reads. -/
def Usable (entry : Value F) : Prop :=
  Verifiable entry = true ∧ (reader.jwk entry).isSome = true

/-- A body that has the sign-in keys: every entry may be published, and one of them is usable. -/
structure Serves : Prop where
  publishable : ∀ entry ∈ keyEntries reader body, Publishable entry
  some_usable : ∃ entry ∈ keyEntries reader body, Usable reader entry

/-- A body is accepted just where it serves, and with its usable keys. -/
def AcceptsServing : Prop :=
  ∀ keys, validateJwksBytes reader body = .ok keys ↔
    Serves reader body ∧ keys = usableKeys reader body

/-- Every entry of a type that is verified with is read. -/
def AllRead : Prop :=
  ∀ entry ∈ keyEntries reader body, Verifiable entry = true → (reader.jwk entry).isSome = true

variable {reader body}

theorem accepted_iff : Accepted reader body ↔ Serves reader body ∧ AllRead reader body := by
  constructor
  · intro h
    obtain ⟨entry, hmem, hverified⟩ := h.some_verifiable
    exact ⟨⟨h.publishable, entry, hmem, hverified, h.typed entry hmem hverified⟩, h.typed⟩
  · rintro ⟨hserves, hread⟩
    obtain ⟨entry, hmem, hverified, -⟩ := hserves.some_usable
    exact ⟨hserves.publishable, ⟨entry, hmem, hverified⟩, hread⟩

/-- The accepted keys are those that serve, unless a body that serves has a key that is not read. -/
theorem acceptsServing_iff (reader : KeyReader F Jwk) (body : Bytes) :
    AcceptsServing reader body ↔ (Serves reader body → AllRead reader body) := by
  constructor
  · intro haccepts hserves
    have hok := (haccepts (usableKeys reader body)).mpr ⟨hserves, rfl⟩
    exact (accepted_iff.mp (validateJwksBytes_eq_ok_iff.mp hok).1).2
  · intro hread keys
    rw [validateJwksBytes_eq_ok_iff, accepted_iff]
    exact ⟨fun ⟨⟨hserves, _⟩, hkeys⟩ => ⟨hserves, hkeys⟩,
      fun ⟨hserves, hkeys⟩ => ⟨⟨hserves, hread hserves⟩, hkeys⟩⟩

section Sample

instance (entry : Value F) : Decidable (Publishable entry) :=
  match entry with
  | .object _ => inferInstanceAs (Decidable (_ ∧ _))
  | .null | .bool _ | .number _ | .string _ | .array _ => .isFalse id

instance (entry : Value F) : Decidable (Usable reader entry) := inferInstanceAs (Decidable (_ ∧ _))

/-- The members of a key that the library reads: an RSA key's number and exponent, or the point of an
EC key on a curve that it knows. -/
def readsKey (members : List (Text × Value Empty)) : Bool :=
  let has (name : Text) := (textMember members name).isSome
  if keyType members = "RSA".toList then has "n".toList && has "e".toList
  else
    has "x".toList && has "y".toList &&
      ["P-256".toList, "P-384".toList, "P-521".toList].contains
        ((textMember members "crv".toList).getD [])

/-- A reader of bodies in ASCII. -/
def asciiReader : KeyReader Empty (Value Empty) where
  fromSlice body :=
    (FullCodec.ofEmpty recursionLimit).reader.fromStr (body.map fun b => Char.ofNat b.toNat)
  jwk
    | .object members => if readsKey members then some (.object members) else none
    | _ => none
  keyId v := (v.get "kid".toList).bind Value.asStr

/-- A set of an RSA key and an EC key on a curve that is not read. -/
def mixedBody : Bytes :=
  ("\x7b\"keys\":[\x7b\"crv\":\"secp256k1\",\"kty\":\"EC\",\"x\":\"AA\",\"y\":\"AA\"\x7d," ++
    "\x7b\"e\":\"AQAB\",\"kty\":\"RSA\",\"n\":\"AQAB\"\x7d]\x7d").toList.map fun c =>
      UInt8.ofNat c.toNat

/-- The EC key costs the RSA key. -/
theorem mixed_refused : ¬ AcceptsServing asciiReader mixedBody := by
  intro haccepts
  have hserves : Serves asciiReader mixedBody := by
    have hall : (keyEntries asciiReader mixedBody).all fun entry => decide (Publishable entry) := by
      decide +kernel
    have hany : (keyEntries asciiReader mixedBody).any fun entry =>
        decide (Usable asciiReader entry) := by
      decide +kernel
    refine ⟨fun entry hmem => of_decide_eq_true (List.all_eq_true.mp hall entry hmem), ?_⟩
    obtain ⟨entry, hmem, husable⟩ := List.any_eq_true.mp hany
    exact ⟨entry, hmem, of_decide_eq_true husable⟩
  have hrefused : (validateJwksBytes asciiReader mixedBody).toOption.isNone = true := by
    decide +kernel
  rw [(haccepts _).mpr ⟨hserves, rfl⟩] at hrefused
  cases hrefused

end Sample

end Genaryx.Web
