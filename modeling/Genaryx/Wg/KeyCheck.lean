import Genaryx.Base.Items
import Genaryx.Wg.Journaled
import Genaryx.Wg.Uapi

/-!
# When the check on a key panics

A text that is no key is cut after sixteen bytes for the message. The cut panics inside a
character, and with it every request and every reading that checks the text.
-/

namespace Genaryx.Wg

open Base Json Text

variable (L : Libraries) (publicOf : Bytes → Bytes)

/-- A text may be cut after so many bytes. -/
def IsCharBoundary (t : Text) (n : Nat) : Prop := ∃ a b, t = a ++ b ∧ Utf8.len a = n

/-- The message about a text can be made: where sixteen bytes end, or before, a character ends. -/
def Quotable (hex : Text) : Prop := IsCharBoundary hex.trim (min (Utf8.len hex.trim) 16)

/-- A text that is 64 hexadecimal digits. -/
def IsKeyText (t : Text) : Prop := Utf8.len t = 64 ∧ ∀ c ∈ t, (hexValue c).isSome = true

section Check

variable {t hex : Text}

theorem len_cons (c : Char) (t : Text) :
    Utf8.len (c :: t) = (Utf8.encodeChar c).length + Utf8.len t := by
  rw [Utf8.len, Utf8.encode, List.flatMap_cons, List.length_append]
  rfl

theorem prefixBytes_isSome_iff (t : Text) (n : Nat) :
    (prefixBytes t n).isSome = true ↔ IsCharBoundary t n := by
  fun_induction prefixBytes t n with
  | case1 t => exact ⟨fun _ => ⟨[], t, rfl, rfl⟩, fun _ => rfl⟩
  | case2 n =>
      constructor
      · intro h
        cases h
      · rintro ⟨a, b, hab, hlen⟩
        rw [(List.append_eq_nil_iff.mp hab.symm).1] at hlen
        cases hlen
  | case3 c cs n width hle ih =>
      rw [Option.isSome_map, ih]
      constructor
      · rintro ⟨a, b, rfl, hlen⟩
        refine ⟨c :: a, b, rfl, ?_⟩
        rw [len_cons, hlen]
        omega
      · rintro ⟨a, b, hab, hlen⟩
        cases a with
        | nil => cases hlen
        | cons d a =>
            obtain ⟨rfl, rfl⟩ := List.cons.inj hab
            rw [len_cons] at hlen
            exact ⟨a, b, rfl, by omega⟩
  | case4 c cs n width hlt =>
      constructor
      · intro h
        cases h
      · rintro ⟨a, b, hab, hlen⟩
        cases a with
        | nil => cases hlen
        | cons d a =>
            obtain ⟨rfl, rfl⟩ := List.cons.inj hab
            rw [len_cons] at hlen
            exact absurd (by omega) hlt

theorem ascii_of_hexValue {c : Char} (h : (hexValue c).isSome = true) : c.toNat < 0x80 := by
  by_contra hlarge
  have hcode : ∀ d : Char, d.toNat < 0x80 → ¬ c ≤ d := fun d hd hle =>
    hlarge ((Char.le_def.mp hle).trans_lt hd)
  rw [hexValue, if_neg fun hc => hcode '9' (by decide) hc.2,
    if_neg fun hc => hcode 'f' (by decide) hc.2,
    if_neg fun hc => hcode 'F' (by decide) hc.2] at h
  cases h

theorem IsKeyText.length (h : IsKeyText t) : t.length = 64 :=
  (len_of_ascii fun c hc => ascii_of_hexValue (h.2 c hc)).symm.trans h.1

theorem length_decodePairs (n : Nat) {t : Text} (h : t.length = 2 * n) :
    (decodePairs t).length = n := by
  induction n generalizing t with
  | zero =>
      rw [List.length_eq_zero_iff.mp h]
      rfl
  | succ n ih =>
      match t, h with
      | a :: b :: t, h =>
          rw [decodePairs, List.length_cons, ih (by simp only [List.length_cons] at h; omega)]

/-- A key is its 32 bytes. -/
theorem decodeHex32_of_isKeyText (h : IsKeyText hex.trim) :
    ∃ bytes, bytes.length = 32 ∧ decodeHex32 L hex = .ok bytes := by
  refine ⟨decodePairs hex.trim, length_decodePairs 32 h.length, ?_⟩
  have hall : hex.trim.all (fun c => (hexValue c).isSome) = true := List.all_eq_true.mpr h.2
  rw [decodeHex32]
  simp only [h.1, ne_eq, not_true_eq_false, decide_false, hall, Bool.not_true, Bool.or_self,
    Bool.false_eq_true, if_false]

/-- Any other text is refused with a message, or the message panics. -/
theorem decodeHex32_of_not_isKeyText (h : ¬ IsKeyText hex.trim) :
    (Quotable hex ∧ ∃ what, decodeHex32 L hex = .error (.failed (.badKey what))) ∨
      (¬ Quotable hex ∧ decodeHex32 L hex = .error .panicked) := by
  have hcheck : (Utf8.len hex.trim ≠ 64 ∨
      (!hex.trim.all fun c => (hexValue c).isSome) = true) := by
    by_contra hnot
    rw [not_or, not_not, Bool.not_eq_true, Bool.not_eq_false', List.all_eq_true] at hnot
    exact h hnot
  have hif : (decide (Utf8.len hex.trim ≠ 64) ||
      !hex.trim.all fun c => (hexValue c).isSome) = true := by
    rwa [Bool.or_eq_true, decide_eq_true_eq]
  rw [Quotable, ← prefixBytes_isSome_iff, decodeHex32]
  simp only [hif, if_true]
  cases prefixBytes hex.trim (min (Utf8.len hex.trim) 16) with
  | none => exact .inr ⟨Bool.false_ne_true, rfl⟩
  | some start => exact .inl ⟨rfl, _, rfl⟩

/-- A key may be cut anywhere. -/
theorem IsKeyText.quotable (h : IsKeyText hex.trim) : Quotable hex := by
  refine ⟨hex.trim.take 16, hex.trim.drop 16, (List.take_append_drop 16 _).symm, ?_⟩
  rw [h.1, len_of_ascii fun c hc => ascii_of_hexValue (h.2 c (List.mem_of_mem_take hc)),
    List.length_take, h.length]
  rfl

/-- The check gives the bytes of a key or says that there is none. -/
def Checked {α : Type} (r : Except (Stop WgUapiError) α) : Prop :=
  (∃ a, r = .ok a) ∨ ∃ what, r = .error (.failed (.badKey what))

/-- The check does not panic exactly where the message can be made. -/
theorem checked_decodeHex32_iff (hex : Text) : Checked (decodeHex32 L hex) ↔ Quotable hex := by
  by_cases hkey : IsKeyText hex.trim
  · obtain ⟨bytes, -, hok⟩ := decodeHex32_of_isKeyText L hkey
    exact ⟨fun _ => hkey.quotable, fun _ => .inl ⟨bytes, hok⟩⟩
  · obtain ⟨hquote, what, hbad⟩ | ⟨hquote, hpanic⟩ := decodeHex32_of_not_isKeyText L hkey
    · exact ⟨fun _ => hquote, fun _ => .inr ⟨what, hbad⟩⟩
    · constructor
      · rintro (⟨bytes, hok⟩ | ⟨what, hbad⟩)
        · rw [hpanic] at hok
          cases hok
        · rw [hpanic] at hbad
          cases hbad
      · exact fun h => absurd h hquote

/-- What goes on only with a key fares as the check on it. -/
theorem checked_bind_iff {α : Type} (hex : Text) (f : Bytes → α) :
    Checked ((decodeHex32 L hex).bind fun bytes => .ok (f bytes)) ↔ Quotable hex := by
  rw [← checked_decodeHex32_iff L hex]
  cases decodeHex32 L hex with
  | ok bytes => exact ⟨fun _ => .inl ⟨bytes, rfl⟩, fun _ => .inl ⟨f bytes, rfl⟩⟩
  | error e =>
      constructor
      · rintro (⟨a, ha⟩ | ⟨what, hbad⟩)
        · cases ha
        · cases hbad
          exact .inr ⟨what, rfl⟩
      · rintro (⟨a, ha⟩ | ⟨what, hbad⟩)
        · cases ha
        · cases hbad
          exact .inr ⟨what, rfl⟩

end Check

section Answers

variable {r : Reading} {line value response : Text}

/-- A line has a value that is checked as a key. -/
def ChecksKey (r : Reading) (line value : Text) : Prop :=
  ∃ key, splitOnce '=' line.trim = some (key, value) ∧
    (UapiKey.ofText key = some .interfacePublicKey ∨
      (UapiKey.ofText key = some .privateKey ∧ r.state.publicKeyHex = none))

theorem decodeHex32_panicked_iff (hex : Text) :
    decodeHex32 L hex = .error .panicked ↔ ¬ Quotable hex := by
  by_cases hkey : IsKeyText hex.trim
  · obtain ⟨bytes, -, hok⟩ := decodeHex32_of_isKeyText L hkey
    rw [hok]
    exact ⟨(nomatch ·), fun h => absurd hkey.quotable h⟩
  · obtain ⟨hquote, what, hbad⟩ | ⟨hquote, hpanic⟩ := decodeHex32_of_not_isKeyText L hkey
    · rw [hbad]
      exact ⟨(nomatch ·), fun h => absurd hquote h⟩
    · exact ⟨fun _ => hquote, fun _ => hpanic⟩

theorem readValue_panicked_iff {key : UapiKey} :
    readValue L publicOf r key value = .error .panicked ↔
      (key = .interfacePublicKey ∨ (key = .privateKey ∧ r.state.publicKeyHex = none)) ∧
        ¬ Quotable value := by
  rw [← decodeHex32_panicked_iff L]
  cases key with
  | errno =>
      rw [readValue]
      cases parseI64 value with
      | none => simp
      | some n => by_cases hn : n = 0 <;> simp [hn]
  | privateKey =>
      rw [readValue]
      cases hknown : r.state.publicKeyHex with
      | some hex => simp
      | none =>
          cases hcheck : decodeHex32 L value with
          | ok bytes => simp
          | error e => cases e <;> simp
  | interfacePublicKey =>
      rw [readValue]
      cases hcheck : decodeHex32 L value with
      | ok bytes => simp
      | error e => cases e <;> simp
  | _ => simp [readValue]

theorem readLine_panicked_iff : readLine L publicOf r line = .error .panicked ↔
    ∃ value, ChecksKey r line value ∧ ¬ Quotable value := by
  rw [readLine]
  cases hsplit : splitOnce '=' line.trim with
  | none =>
      constructor
      · intro h
        simp only at h
        split at h <;> cases h
      · rintro ⟨value, ⟨key, hkey, -⟩, -⟩
        rw [hsplit] at hkey
        cases hkey
  | some p =>
      obtain ⟨key, value⟩ := p
      have hne : line.trim.isEmpty = false := by
        rw [List.isEmpty_eq_false_iff]
        intro hnil
        rw [hnil] at hsplit
        cases hsplit
      simp only [hne, Bool.false_eq_true, if_false]
      constructor
      · intro h
        cases hkey : UapiKey.ofText key with
        | none =>
            rw [hkey] at h
            cases h
        | some k =>
            rw [hkey] at h
            obtain ⟨hkeys, hquote⟩ := (readValue_panicked_iff L publicOf).mp h
            refine ⟨value, ⟨key, hsplit, ?_⟩, hquote⟩
            rw [hkey, Option.some.injEq, Option.some.injEq]
            exact hkeys
      · rintro ⟨value', ⟨key', hpair, hkeys⟩, hquote⟩
        obtain ⟨rfl, rfl⟩ := Prod.mk.inj (Option.some.inj (hsplit.symm.trans hpair))
        obtain hkey | ⟨hkey, hknown⟩ := hkeys
        · rw [hkey]
          exact (readValue_panicked_iff L publicOf).mpr ⟨.inl rfl, hquote⟩
        · rw [hkey]
          exact (readValue_panicked_iff L publicOf).mpr ⟨.inr ⟨rfl, hknown⟩, hquote⟩

/-- A reading panics at the first line whose value is checked and cannot be quoted. -/
theorem parseGet_panicked_iff : parseGet L publicOf response = .error .panicked ↔
    ∃ before line after r value, Text.lines response = before ++ line :: after ∧
      before.foldlM (readLine L publicOf) .start = .ok r ∧ ChecksKey r line value ∧
      ¬ Quotable value := by
  have hfold : parseGet L publicOf response = .error .panicked ↔
      (Text.lines response).foldlM (readLine L publicOf) .start = .error .panicked := by
    rw [parseGet]
    cases (Text.lines response).foldlM (readLine L publicOf) .start with
    | error e => simp only [bind, Except.bind, Except.error.injEq]
    | ok r =>
        simp only [bind, Except.bind]
        split <;> simp
  rw [hfold, foldlM_eq_error_iff]
  constructor
  · rintro ⟨before, line, after, r, hlines, hread, hpanic⟩
    obtain ⟨value, hchecks, hquote⟩ := (readLine_panicked_iff L publicOf).mp hpanic
    exact ⟨before, line, after, r, value, hlines, hread, hchecks, hquote⟩
  · rintro ⟨before, line, after, r, value, hlines, hread, hchecks, hquote⟩
    exact ⟨before, line, after, r, hlines, hread,
      (readLine_panicked_iff L publicOf).mpr ⟨value, hchecks, hquote⟩⟩

end Answers

/-- The check on a key, and what goes on only with one, gives a result exactly where the text
can be cut for the message. A reading panics where it checks a text that cannot. -/
structure CheckedWhen : Prop where
  decode : ∀ hex, Checked (decodeHex32 L hex) ↔ Quotable hex
  bytes : ∀ hex bytes, decodeHex32 L hex = .ok bytes → bytes.length = 32
  base64 : ∀ hex, Checked (hexToB64 L hex) ↔ Quotable hex
  add : ∀ hex allowedIps, Checked (renderAddPeer L hex allowedIps) ↔ Quotable hex
  remove : ∀ hex, Checked (renderRemovePeer L hex) ↔ Quotable hex
  get : ∀ response, parseGet L publicOf response = .error .panicked ↔
    ∃ before line after r value, Text.lines response = before ++ line :: after ∧
      before.foldlM (readLine L publicOf) .start = .ok r ∧ ChecksKey r line value ∧
      ¬ Quotable value

/-- **Key checking does not panic** exactly where the refused text can be cut. -/
theorem checked_when : CheckedWhen L publicOf where
  decode := checked_decodeHex32_iff L
  bytes := by
    intro hex bytes hok
    by_cases hkey : IsKeyText hex.trim
    · obtain ⟨bytes', hlength, hok'⟩ := decodeHex32_of_isKeyText L hkey
      rw [hok] at hok'
      cases hok'
      exact hlength
    · obtain ⟨-, what, hbad⟩ | ⟨-, hpanic⟩ := decodeHex32_of_not_isKeyText L hkey
      · rw [hok] at hbad
        cases hbad
      · rw [hok] at hpanic
        cases hpanic
  base64 := fun hex => checked_bind_iff L hex L.base64
  add := fun hex _ => checked_bind_iff L hex fun _ => _
  remove := fun hex => checked_bind_iff L hex fun _ => _
  get := fun _ => parseGet_panicked_iff L publicOf

section Example

/-- Fifteen letters and one of two bytes. -/
def cutLetters : Text := "aaaaaaaaaaaaaaaé".toList

theorem cut_letters_panic : decodeHex32 plainLibraries cutLetters = .error .panicked ∧
    parseGet plainLibraries id
      ("interface_public_key=".toList ++ cutLetters ++ "\nerrno=0\n".toList) =
        .error .panicked := by
  decide +kernel

end Example

end Genaryx.Wg
