import Genaryx.Base.Digest
import Genaryx.Base.Utf8
import Genaryx.Base.Words
import Genaryx.Json.Grammar

/-!
# WireGuard keys

A key is 32 bytes. The daemon and the interface state write it in hexadecimal, a client
configuration and an operator in base64.

## Implementation notes

`Libraries` holds what other crates do: base64, the QR encoder and Rust's debug format. A
string slice that does not end between two characters panics, so the checks on a key say
`panicked` there.
-/

namespace Genaryx.Wg

open Json

/-- How a call ends that gives no value. -/
inductive Stop (ε : Type)
  | failed (e : ε)
  | panicked
  deriving DecidableEq

/-- What the module calls in other crates. -/
structure Libraries where
  base64 : Bytes → Text
  base64Decode : Text → Option Bytes
  debug : Text → Text
  qrDocument : Bytes → Except Text Text

/-- Base64 is read back as it was written, and it has no white space. -/
structure Libraries.Lawful (L : Libraries) : Prop where
  decode_encode : ∀ bytes, L.base64Decode (L.base64 bytes) = some bytes
  clean : ∀ bytes, ∀ c ∈ L.base64 bytes, Text.isWhitespace c = false

/-- What can go wrong between the console and the daemon of an interface. -/
inductive WgUapiError
  | noSocket (endpoint : Text)
  | io (endpoint source : Text)
  | errno (n : Int)
  | malformed (what : Text)
  | transport (endpoint message : Text)
  | badKey (what : Text)
  deriving DecidableEq

namespace WgUapiError

def display : WgUapiError → Text
  | noSocket endpoint => "no wireguard UAPI at ".toList ++ endpoint ++
      ": the interface is not up".toList
  | io endpoint source => "wireguard UAPI at ".toList ++ endpoint ++ ": ".toList ++ source
  | errno n => "wireguard UAPI refused the operation: errno=".toList ++ Text.displayInt n
  | malformed what => "wireguard UAPI response malformed: ".toList ++ what
  | transport endpoint message => "wireguard UAPI at ".toList ++ endpoint ++ ": ".toList ++ message
  | badKey what => "not a valid wireguard key: ".toList ++ what

end WgUapiError

/-- The first bytes of a text, if a character ends there. -/
def prefixBytes : Text → Nat → Option Text
  | _, 0 => some []
  | [], _ + 1 => none
  | c :: cs, n + 1 =>
      let width := (Utf8.encodeChar c).length
      if width ≤ n + 1 then (prefixBytes cs (n + 1 - width)).map (c :: ·) else none

/-- Two hexadecimal digits a byte. -/
def decodePairs : Text → Bytes
  | a :: b :: rest =>
      UInt8.ofNat ((hexValue a).getD 0 * 16 + (hexValue b).getD 0) :: decodePairs rest
  | _ => []

variable (L : Libraries)

/-- The 32 bytes of a key in hexadecimal. -/
def decodeHex32 (hex : Text) : Except (Stop WgUapiError) Bytes :=
  let hex := hex.trim
  if Utf8.len hex ≠ 64 || !hex.all (fun c => (hexValue c).isSome) then
    match prefixBytes hex (min (Utf8.len hex) 16) with
    | none => .error .panicked
    | some start =>
        .error (.failed (.badKey ("expected 64 hex characters, got ".toList ++ L.debug start)))
  else .ok (decodePairs hex)

/-- Base64 from hexadecimal. -/
def hexToB64 (hex : Text) : Except (Stop WgUapiError) Text :=
  (decodeHex32 L hex).map L.base64

/-- Hexadecimal from base64. -/
def b64ToHex (b64 : Text) : Except WgUapiError Text :=
  match L.base64Decode b64.trim with
  | none => .error (.badKey ("not base64: ".toList ++ b64))
  | some bytes =>
      if bytes.length ≠ 32 then
        .error (.badKey ("a wireguard key is 32 bytes, got ".toList ++ Text.decimal bytes.length))
      else .ok (hexLower bytes)

/-- A key pair of an operator's device. -/
structure WgKeypair where
  privateKey : Bytes
  publicKey : Bytes
  private_length : privateKey.length = 32
  public_length : publicKey.length = 32

namespace WgKeypair

def privateHex (k : WgKeypair) : Text := hexLower k.privateKey

def publicHex (k : WgKeypair) : Text := hexLower k.publicKey

end WgKeypair

section Lemmas

theorem hexValue_digitChar {n : Nat} (h : n < 16) : hexValue (Nat.digitChar n) = some n := by
  have hall : ∀ k : Fin 16, hexValue (Nat.digitChar k) = some k.val := by decide
  exact hall ⟨n, h⟩

theorem decodePairs_hexLower (bytes : Bytes) : decodePairs (hexLower bytes) = bytes := by
  induction bytes with
  | nil => rfl
  | cons b bytes ih =>
      have hb := b.toNat_lt
      simp only [hexLower, List.flatMap_cons, List.cons_append, List.nil_append] at ih ⊢
      rw [decodePairs, ih, hexValue_digitChar (by omega), hexValue_digitChar (by omega)]
      simp only [Option.getD_some]
      congr 1
      rw [Nat.div_add_mod' b.toNat 16]
      exact UInt8.ofNat_toNat

theorem len_of_ascii {t : Text} (h : ∀ c ∈ t, c.toNat < 0x80) : Utf8.len t = t.length := by
  induction t with
  | nil => rfl
  | cons c t ih =>
      have hc := h c (List.mem_cons_self ..)
      have ht := ih fun d hd => h d (List.mem_cons_of_mem _ hd)
      simp only [Utf8.len, Utf8.encode] at ht
      simp [Utf8.len, Utf8.encode, Utf8.encodeChar, hc, ht]

/-- The bytes of a key that was written in hexadecimal. -/
theorem decodeHex32_hexLower {bytes : Bytes} (h : bytes.length = 32) :
    decodeHex32 L (hexLower bytes) = .ok bytes := by
  have htrim : (hexLower bytes).trim = hexLower bytes :=
    Text.trim_of_clean (forall_mem_hexLower (by decide) bytes)
  have hlen : Utf8.len (hexLower bytes) = 64 := by
    rw [len_of_ascii (forall_mem_hexLower (by decide) bytes), length_hexLower, h]
  have hdigits : (hexLower bytes).all (fun c => (hexValue c).isSome) = true :=
    List.all_eq_true.mpr (forall_mem_hexLower (by decide) bytes)
  rw [decodeHex32, htrim, hlen, hdigits, decodePairs_hexLower]
  rfl

theorem hexToB64_hexLower {bytes : Bytes} (h : bytes.length = 32) :
    hexToB64 L (hexLower bytes) = .ok (L.base64 bytes) := by
  rw [hexToB64, decodeHex32_hexLower L h]
  rfl

variable {L}

/-- The hexadecimal of a key that was written in base64. -/
theorem b64ToHex_base64 (hL : L.Lawful) {bytes : Bytes} (h : bytes.length = 32) :
    b64ToHex L (L.base64 bytes) = .ok (hexLower bytes) := by
  rw [b64ToHex, Text.trim_of_clean (hL.clean bytes), hL.decode_encode]
  simp only [h, ne_eq, not_true_eq_false, if_false]

theorem exists_of_b64ToHex {b64 hex : Text} (h : b64ToHex L b64 = .ok hex) :
    ∃ bytes : Bytes, bytes.length = 32 ∧ hex = hexLower bytes := by
  unfold b64ToHex at h
  split at h
  · cases h
  · next bytes _ =>
      split at h
      · cases h
      · next hlen =>
          cases h
          exact ⟨bytes, not_not.mp hlen, rfl⟩

end Lemmas

end Genaryx.Wg
