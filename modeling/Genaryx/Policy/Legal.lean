import Genaryx.Policy.Verify

/-!
# A made statement is accepted, an accepted one is legal

What the console makes verifies under its key while it lasts, and what verifies lasts between one
second and five minutes. Both fail, or stop, only where a time does not fit: where the lifetime
is not the difference of the two times, and in the last thirty seconds that an `i64` can tell.

## Implementation notes

A `ConsoleKey` holds what is taken from ES256: what the key signs verifies under its public half.
A debug build stops at an operation that does not fit, so that none overflows is that it does not.
-/

namespace Genaryx.Policy

open Base Json Command Wg

variable {F ε : Type}

/-! ## Arithmetic that fits -/

/-- The exact result fits an `i64`. -/
def Fits (n : Int) : Prop := -2 ^ 63 ≤ n ∧ n < 2 ^ 63

theorem i64_of_fits (build : Build) {n : Int} (h : Fits n) :
    (build.i64 n : Except (Stop ε) Int) = .ok n := by
  obtain ⟨hlow, hhigh⟩ := h
  cases build with
  | debug => rw [Build.i64, checkedI64_of_fits hlow hhigh]
  | release => rw [Build.i64, Int.bmod_eq_of_le_mul_two (by omega) (by omega)]

theorem i64_debug_of_not_fits {n : Int} (h : ¬ Fits n) :
    (Build.debug.i64 n : Except (Stop ε) Int) = .error .panicked := by
  have hunfit : ¬ (-2 ^ 63 ≤ n ∧ n < 2 ^ 63) := h
  rw [Build.i64, checkedI64, if_neg hunfit]

/-- What an operation gives is its exact result up to a multiple of the range. -/
theorem exists_of_i64 {build : Build} {n m : Int} (h : (build.i64 n : Except (Stop ε) Int) = .ok m) :
    (∃ k : Int, m = n - 2 ^ 64 * k) ∧ Fits m := by
  cases build with
  | debug =>
      by_cases hfits : Fits n
      · rw [i64_of_fits _ hfits] at h
        cases h
        exact ⟨⟨0, by omega⟩, hfits⟩
      · rw [i64_debug_of_not_fits hfits] at h
        cases h
  | release =>
      cases h
      refine ⟨⟨n.bdiv (2 ^ 64), Int.bmod_eq_self_sub_mul_bdiv n _⟩, ?_, ?_⟩
      · have hlow := Int.le_bmod (x := n) (m := 2 ^ 64) (by decide)
        omega
      · have hhigh := Int.bmod_lt (x := n) (m := 2 ^ 64) (by decide)
        omega

/-! ## What is checked of the claims -/

/-- The exact lifetime of a statement. -/
def lifetime (c : Claims) : Int := c.exp.toInt - c.iat.toInt

/-- Between one second and five minutes. -/
def LegalLifetime (c : Claims) : Prop := 1 ≤ lifetime c ∧ lifetime c ≤ maxLifetimeSecs

theorem fits_of_legal {c : Claims} (h : LegalLifetime c) : Fits (lifetime c) := by
  obtain ⟨hlow, hhigh⟩ := h
  rw [maxLifetimeSecs] at hhigh
  constructor <;> omega

theorem checkClaimsIn_eq_ok {build : Build} {c : Claims} : checkClaimsIn build c = .ok () ↔
    checkOthers c = .ok () ∧ ∃ l, (build.i64 (lifetime c) : Except (Stop StatementError) Int) = .ok l ∧
      1 ≤ l ∧ l ≤ maxLifetimeSecs := by
  constructor
  · intro h
    obtain ⟨_, hothers, h⟩ := bind_eq_ok h
    obtain ⟨l, hl, h⟩ := bind_eq_ok h
    split_ifs at h with hlegal
    obtain ⟨hlow, hhigh⟩ := not_or.mp hlegal
    exact ⟨mapError_eq_ok hothers, l, hl, by omega, by omega⟩
  · rintro ⟨hothers, l, hl, hlow, hhigh⟩
    rw [lifetime] at hl
    rw [checkClaimsIn, hothers]
    simp only [Except.mapError, bind, Except.bind, hl]
    exact if_neg (by omega)

theorem checkClaimsIn_of_legal (build : Build) {c : Claims} (hothers : checkOthers c = .ok ())
    (hlegal : LegalLifetime c) : checkClaimsIn build c = .ok () :=
  checkClaimsIn_eq_ok.mpr ⟨hothers, _, i64_of_fits build (fits_of_legal hlegal), hlegal⟩

theorem checkWindow_eq_ok {build : Build} {c : Claims} {now : Int64} :
    checkWindow build c now = .ok () ↔
      (∃ latest, (build.i64 (now.toInt + maxFutureSkewSecs) : Except (Stop StatementError) Int) =
        .ok latest ∧ c.iat.toInt ≤ latest) ∧ now < c.exp := by
  constructor
  · intro h
    obtain ⟨latest, hlatest, h⟩ := bind_eq_ok h
    split_ifs at h with hfuture hexpired
    exact ⟨⟨latest, hlatest, by omega⟩, Int64.not_le.mp hexpired⟩
  · rintro ⟨⟨latest, hlatest, hiat⟩, hexp⟩
    rw [checkWindow]
    simp only [bind, Except.bind, hlatest]
    rw [if_neg (by omega), if_neg (Int64.not_le.mpr hexp)]

section Verify

variable {build : Build} {C : Codec F recursionLimit} {L : SigningLibraries}
  {verifyEs256 : VerifyEs256} {x963 : Bytes} {statement : Text} {now : Int64} {c : Claims}

theorem verify_eq_ok : verify build C L verifyEs256 x963 statement now = .ok c ↔
    signedClaims C L verifyEs256 x963 statement = .ok c ∧ checkClaimsIn build c = .ok () ∧
      checkWindow build c now = .ok () := by
  constructor
  · intro h
    obtain ⟨claims, hclaims, h⟩ := bind_eq_ok h
    obtain ⟨_, hchecked, h⟩ := bind_eq_ok h
    obtain ⟨_, hwindow, h⟩ := bind_eq_ok h
    cases h
    exact ⟨mapError_eq_ok hclaims, hchecked, hwindow⟩
  · rintro ⟨hclaims, hchecked, hwindow⟩
    simp only [verify, hclaims, hchecked, hwindow, Except.mapError, bind, Except.bind]

/-- **What verifies has a legal lifetime, without wrap-around, in either build.** -/
theorem legal_of_verify (h : verify build C L verifyEs256 x963 statement now = .ok c) :
    LegalLifetime c := by
  obtain ⟨-, hchecked, hwindow⟩ := verify_eq_ok.mp h
  obtain ⟨-, l, hl, hlow, hhigh⟩ := checkClaimsIn_eq_ok.mp hchecked
  obtain ⟨⟨latest, hlatest, hiat⟩, hexp⟩ := checkWindow_eq_ok.mp hwindow
  obtain ⟨⟨k, hk⟩, -⟩ := exists_of_i64 hl
  obtain ⟨⟨j, hj⟩, hfits⟩ := exists_of_i64 hlatest
  have hexp' : now.toInt < c.exp.toInt := Int64.lt_iff_toInt_lt.mp hexp
  have hbounds := And.intro c.exp.toInt_lt (And.intro c.exp.le_toInt
    (And.intro c.iat.toInt_lt (And.intro c.iat.le_toInt (And.intro now.toInt_lt now.le_toInt))))
  simp only [LegalLifetime, lifetime, maxLifetimeSecs, maxFutureSkewSecs, Fits] at *
  omega

end Verify

/-! ## What is made verifies -/

/-- A key whose signatures verify under its public half. -/
structure ConsoleKey extends Es256Signer where
  verifyEs256 : VerifyEs256
  verifies : ∀ {x963 message raw}, publicKeyX963 = .ok x963 → signRaw message = .ok raw →
    verifyEs256 x963 message raw = .ok ()

section Made

variable {C : Codec F recursionLimit} {L : SigningLibraries} {x963 : Bytes} {kid : Text}

theorem decode_encodedPart (members : List (Text × Value F)) (why : Text) :
    decode (encodedPart C members) why =
      .ok (Utf8.encode (C.toText (.object (ofMembers members)))) := by
  rw [decode, encodedPart, Base64.decodeUrl_encodeUrl]

theorem decode_encodeUrl (bytes : Bytes) (why : Text) :
    decode (Base64.encodeUrl bytes) why = .ok bytes := by
  rw [decode, Base64.decodeUrl_encodeUrl]

theorem fromSlice_toText {v : Value F} (h : Plain 1 v) (why : Text) :
    fromSlice C (Utf8.encode (C.toText v)) why = .ok v := by
  rw [fromSlice, Utf8.fromUtf8_encode, Option.bind_some,
    C.fromStr_toText h.ordered h.integer (h.mono (by decide)).depth_le]

theorem plain_header (kid : Text) : Plain 1 (.object (ofMembers (headerMembers kid)) : Value F) := by
  refine plain_object ?_
  simp only [headerMembers, List.forall_mem_cons, List.not_mem_nil, false_imp_iff, implies_true,
    and_true]
  exact ⟨plain_string _, plain_string _, plain_string _⟩

/-- The header of a statement names the algorithm, the type and the key, and carries none. -/
theorem checkHeader_header (hkid : thumbprint L x963 = .ok kid) :
    checkHeader L x963 (.object (ofMembers (headerMembers kid)) : Value F) = .ok () := by
  have hnodup : ((headerMembers kid : List (Text × Value F)).map Prod.fst).Nodup := by
    simp only [headerMembers, List.map_cons, List.map_nil]
    decide
  have hget : ∀ name, (Value.object (ofMembers (headerMembers kid)) : Value F).get name =
      (headerMembers kid).lookup name := lookup_ofMembers_of_nodup hnodup
  simp only [checkHeader, hget, hkid]
  simp [headerMembers, lookup_cons_eq_ite, Value.asStr, bind, Except.bind]

theorem readClaims_payload (c : Claims) :
    readClaims (.object (ofMembers (payloadMembers c)) : Value F) = .ok c := by
  have hnodup : ((payloadMembers c : List (Text × Value F)).map Prod.fst).Nodup := by
    simp only [payloadMembers, List.map_cons, List.map_nil]
    decide
  have hget : ∀ name, (Value.object (ofMembers (payloadMembers c)) : Value F).get name =
      (payloadMembers c).lookup name := lookup_ofMembers_of_nodup hnodup
  simp only [readClaims, textClaim, numberClaim, hget]
  simp [payloadMembers, lookup_cons_eq_ite, Value.asI64_ofI64, Value.asStr, bind, Except.bind]

/-- A statement that stands under the key carries the claims that it was made of. -/
theorem signedClaims_made {verifyEs256 : VerifyEs256} {c : Claims} {raw : Bytes}
    (hkid : thumbprint L x963 = .ok kid)
    (hverified : verifyEs256 x963 (Utf8.encode (signingInput C kid c)) raw = .ok ()) :
    signedClaims C L verifyEs256 x963 (signingInput C kid c ++ '.' :: Base64.encodeUrl raw) =
      .ok c := by
  have hparts : (signingInput C kid c ++ '.' :: Base64.encodeUrl raw).splitOnP (· = '.') =
      [encodedPart C (headerMembers kid), encodedPart C (payloadMembers c), Base64.encodeUrl raw] :=
    splitOnP_three (Base64.dot_notMem_encodeUrl _) (Base64.dot_notMem_encodeUrl _)
      (Base64.dot_notMem_encodeUrl _)
  rw [signingInput] at hverified
  rw [signedClaims, hparts]
  simp only [decode_encodedPart, decode_encodeUrl, fromSlice_toText (plain_header kid),
    fromSlice_toText (plain_payload c), checkHeader_header hkid, hverified, readClaims_payload,
    Except.mapError, bind, Except.bind]

end Made

section RoundTrip

variable {build : Build} {C : Codec F recursionLimit} {L : SigningLibraries} {key : ConsoleKey}
  {c : Claims} {x963 : Bytes} {made : Text} {now : Int64}

theorem signIn_eq_ok (h : signIn build C L key.toEs256Signer c = .ok made) :
    checkClaimsIn build c = .ok () ∧ sign C L key.toEs256Signer c = .ok made := by
  obtain ⟨_, hchecked, h⟩ := bind_eq_ok h
  exact ⟨hchecked, mapError_eq_ok h⟩

/-- While a statement lasts, its lifetime is the difference of its times. -/
theorem legal_of_window (hchecked : checkClaimsIn build c = .ok ()) (hiat : c.iat ≤ now)
    (hexp : now < c.exp) : LegalLifetime c := by
  obtain ⟨-, l, hl, hlow, hhigh⟩ := checkClaimsIn_eq_ok.mp hchecked
  obtain ⟨⟨k, hk⟩, -⟩ := exists_of_i64 hl
  have hwindow : c.iat.toInt < c.exp.toInt :=
    lt_of_le_of_lt (Int64.le_iff_toInt_le.mp hiat) (Int64.lt_iff_toInt_lt.mp hexp)
  have hbound := And.intro c.exp.toInt_lt c.iat.le_toInt
  simp only [LegalLifetime, lifetime, maxLifetimeSecs] at *
  omega

/-- **While it lasts, a made statement verifies and gives its claims exactly when the time that is
thirty seconds on fits.** -/
theorem verify_made (h : signIn build C L key.toEs256Signer c = .ok made)
    (hkey : key.publicKeyX963 = .ok x963) (hiat : c.iat ≤ now) (hexp : now < c.exp) :
    verify build C L key.verifyEs256 x963 made now = .ok c ↔
      Fits (now.toInt + maxFutureSkewSecs) := by
  obtain ⟨hchecked, hsign⟩ := signIn_eq_ok h
  obtain ⟨x963', kid, raw, -, hkey', hkid, hraw, rfl⟩ := sign_eq_ok hsign
  obtain rfl : x963 = x963' := Except.ok.inj (hkey.symm.trans hkey')
  have hlegal := legal_of_window hchecked hiat hexp
  have hclaims := signedClaims_made (C := C) hkid (key.verifies hkey hraw)
  have hiat' : c.iat.toInt ≤ now.toInt := Int64.le_iff_toInt_le.mp hiat
  have hexp' : now.toInt < c.exp.toInt := Int64.lt_iff_toInt_lt.mp hexp
  rw [verify_eq_ok, checkWindow_eq_ok]
  constructor
  · rintro ⟨-, -, ⟨latest, hlatest, hle⟩, -⟩
    obtain ⟨⟨k, hk⟩, hfits⟩ := exists_of_i64 hlatest
    have hbound := And.intro now.le_toInt now.toInt_lt
    simp only [LegalLifetime, lifetime, maxLifetimeSecs, maxFutureSkewSecs, Fits] at *
    omega
  · intro hfits
    refine ⟨hclaims, hchecked, ⟨_, i64_of_fits build hfits, ?_⟩, hexp⟩
    rw [maxFutureSkewSecs]
    omega

end RoundTrip

/-! ## What overflows -/

section Overflow

variable {C : Codec F recursionLimit} {L : SigningLibraries} {signer : Es256Signer} {c : Claims}
  {verifyEs256 : VerifyEs256} {x963 : Bytes} {statement : Text} {now : Int64}

theorem mapError_failed_ne {α : Type} (r : Except StatementError α) :
    r.mapError Stop.failed ≠ .error .panicked := by
  cases r with
  | error e => exact fun h => nomatch Except.error.inj h
  | ok a => exact (nomatch ·)

theorem checkClaimsIn_panicked : checkClaimsIn .debug c = .error .panicked ↔
    checkOthers c = .ok () ∧ ¬ Fits (lifetime c) := by
  rw [checkClaimsIn, ← lifetime]
  cases hothers : checkOthers c with
  | error e =>
      refine ⟨fun h => ?_, fun h => by cases h.1⟩
      cases Except.error.inj h
  | ok u =>
      by_cases hfits : Fits (lifetime c)
      · simp only [Except.mapError, bind, Except.bind, i64_of_fits _ hfits]
        refine ⟨fun h => ?_, fun h => absurd hfits h.2⟩
        split_ifs at h
        cases Except.error.inj h
      · simp only [Except.mapError, bind, Except.bind, i64_debug_of_not_fits hfits]
        exact ⟨fun _ => ⟨trivial, hfits⟩, fun _ => trivial⟩

theorem signIn_panicked : signIn .debug C L signer c = .error .panicked ↔
    checkOthers c = .ok () ∧ ¬ Fits (lifetime c) := by
  rw [← checkClaimsIn_panicked, signIn]
  cases checkClaimsIn .debug c with
  | error e =>
      exact ⟨fun h => congrArg Except.error (Except.error.inj h),
        fun h => congrArg Except.error (Except.error.inj h)⟩
  | ok u => exact ⟨fun h => absurd h (mapError_failed_ne _), fun h => by cases h⟩

theorem checkWindow_panicked : checkWindow .debug c now = .error .panicked ↔
    ¬ Fits (now.toInt + maxFutureSkewSecs) := by
  rw [checkWindow]
  by_cases hfits : Fits (now.toInt + maxFutureSkewSecs)
  · simp only [bind, Except.bind, i64_of_fits _ hfits]
    refine ⟨fun h => ?_, fun h => absurd hfits h⟩
    split_ifs at h
    · exact nomatch Except.error.inj h
    · exact nomatch Except.error.inj h
  · simp only [bind, Except.bind, i64_debug_of_not_fits hfits]
    exact ⟨fun _ => hfits, fun _ => trivial⟩

/-- A statement's times stay in range as they are checked. -/
structure TimesFit (c : Claims) (now : Int64) : Prop where
  lifetime : Fits (lifetime c)
  skew : LegalLifetime c → Fits (now.toInt + maxFutureSkewSecs)

/-- In a debug build the lifetime that is checked is the exact one. -/
theorem checkClaimsIn_debug_eq_ok : checkClaimsIn .debug c = .ok () ↔
    checkOthers c = .ok () ∧ LegalLifetime c := by
  constructor
  · intro h
    obtain ⟨hothers, l, hl, hlegal⟩ := checkClaimsIn_eq_ok.mp h
    by_cases hfits : Fits (lifetime c)
    · rw [i64_of_fits _ hfits] at hl
      obtain rfl := Except.ok.inj hl
      exact ⟨hothers, hlegal⟩
    · rw [i64_debug_of_not_fits hfits] at hl
      cases hl
  · exact fun ⟨hothers, hlegal⟩ => checkClaimsIn_of_legal _ hothers hlegal

/-- What comes after the claims are read stops where a time does not fit. -/
theorem checked_panicked : ((do
      checkClaimsIn .debug c
      checkWindow .debug c now
      .ok c : Except (Stop StatementError) Claims) = .error .panicked) ↔
    checkOthers c = .ok () ∧ ¬ TimesFit c now := by
  cases hchecked : checkClaimsIn .debug c with
  | error e =>
      have hillegal : ¬ (checkOthers c = .ok () ∧ LegalLifetime c) := fun h => by
        rw [checkClaimsIn_debug_eq_ok.mpr h] at hchecked
        cases hchecked
      constructor
      · intro h
        obtain rfl : e = .panicked := Except.error.inj h
        obtain ⟨hothers, hfits⟩ := checkClaimsIn_panicked.mp hchecked
        exact ⟨hothers, fun h => hfits h.lifetime⟩
      · rintro ⟨hothers, htimes⟩
        have hfits : ¬ Fits (lifetime c) := fun hfits =>
          htimes ⟨hfits, fun hlegal => absurd ⟨hothers, hlegal⟩ hillegal⟩
        have hpanicked := hchecked.symm.trans (checkClaimsIn_panicked.mpr ⟨hothers, hfits⟩)
        exact congrArg Except.error (Except.error.inj hpanicked)
  | ok u =>
      obtain ⟨hothers, hlegal⟩ := checkClaimsIn_debug_eq_ok.mp hchecked
      have htimes : TimesFit c now ↔ Fits (now.toInt + maxFutureSkewSecs) :=
        ⟨fun h => h.skew hlegal, fun h => ⟨fits_of_legal hlegal, fun _ => h⟩⟩
      rw [htimes, ← checkWindow_panicked]
      cases hwindow : checkWindow .debug c now with
      | error e =>
          exact ⟨fun h => ⟨hothers, congrArg Except.error (Except.error.inj h)⟩,
            fun h => congrArg Except.error (Except.error.inj h.2)⟩
      | ok u => exact ⟨(nomatch ·), fun h => nomatch h.2⟩

theorem verify_panicked : verify .debug C L verifyEs256 x963 statement now = .error .panicked ↔
    ∃ c, signedClaims C L verifyEs256 x963 statement = .ok c ∧ checkOthers c = .ok () ∧
      ¬ TimesFit c now := by
  rw [verify]
  cases hclaims : signedClaims C L verifyEs256 x963 statement with
  | error e => exact ⟨fun h => (nomatch Except.error.inj h), fun ⟨_, h, _⟩ => (nomatch h)⟩
  | ok c =>
      constructor
      · exact fun h => ⟨c, rfl, checked_panicked.mp h⟩
      · rintro ⟨c', hc', h⟩
        obtain rfl := Except.ok.inj hc'
        exact checked_panicked.mpr h

end Overflow

/-! ## Statements -/

section Statements

variable (build : Build) (C : Codec F recursionLimit) (L : SigningLibraries) (key : ConsoleKey)

/-- At these inputs, what the console makes verifies while it lasts, what verifies has a legal
lifetime, and nothing overflows. -/
structure Sound (c : Claims) (x963 : Bytes) (statement : Text) (now : Int64) : Prop where
  accepted : ∀ made, signIn build C L key.toEs256Signer c = .ok made →
    key.publicKeyX963 = .ok x963 → c.iat ≤ now → now < c.exp →
    verify build C L key.verifyEs256 x963 made now = .ok c
  legal : ∀ claims, verify build C L key.verifyEs256 x963 statement now = .ok claims →
    LegalLifetime claims
  signing : signIn .debug C L key.toEs256Signer c ≠ .error .panicked
  verifying : verify .debug C L key.verifyEs256 x963 statement now ≠ .error .panicked

/-- The key signs these claims, under this public half. -/
def Signs (c : Claims) (x963 : Bytes) : Prop :=
  key.publicKeyX963 = .ok x963 ∧ ∃ kid raw, thumbprint L x963 = .ok kid ∧
    key.signRaw (Utf8.encode (signingInput C kid c)) = .ok raw

/-- The times stay in range: those of the claims that are signed, the clock while they last, and
those of the claims that are verified. -/
structure InRange (c : Claims) (x963 : Bytes) (statement : Text) (now : Int64) : Prop where
  made : checkOthers c = .ok () → Fits (lifetime c)
  clock : checkOthers c = .ok () → LegalLifetime c → Signs C L key c x963 → c.iat ≤ now →
    now < c.exp → Fits (now.toInt + maxFutureSkewSecs)
  carried : ∀ claims, signedClaims C L key.verifyEs256 x963 statement = .ok claims →
    checkOthers claims = .ok () → TimesFit claims now

variable {build C L key}

theorem signIn_of_signs {c : Claims} {x963 : Bytes} (hothers : checkOthers c = .ok ())
    (hlegal : LegalLifetime c) (h : Signs C L key c x963) :
    ∃ made, signIn build C L key.toEs256Signer c = .ok made := by
  obtain ⟨hkey, kid, raw, hkid, hraw⟩ := h
  have hchecked : checkClaims c = .ok () :=
    mapError_eq_ok ((checkClaimsIn_release c).symm.trans (checkClaimsIn_of_legal _ hothers hlegal))
  simp only [signingInput, encodedPart, headerMembers] at hraw
  simp only [signIn, checkClaimsIn_of_legal build hothers hlegal, sign, hchecked, hkey, hkid, hraw,
    Except.mapError, bind, Except.bind, Except.ok.injEq, exists_eq']

theorem signs_of_signIn {c : Claims} {x963 : Bytes} {made : Text}
    (h : signIn build C L key.toEs256Signer c = .ok made) (hkey : key.publicKeyX963 = .ok x963) :
    Signs C L key c x963 := by
  obtain ⟨x963', kid, raw, -, hkey', hkid, hraw, -⟩ := sign_eq_ok (signIn_eq_ok h).2
  obtain rfl : x963 = x963' := Except.ok.inj (hkey.symm.trans hkey')
  exact ⟨hkey, kid, raw, hkid, hraw⟩

/-- **A made statement is accepted, an accepted one is legal, and nothing overflows, exactly when
the times stay in range.** -/
theorem sound_when (build : Build) (C : Codec F recursionLimit) (L : SigningLibraries)
    (key : ConsoleKey) (c : Claims) (x963 : Bytes) (statement : Text) (now : Int64) :
    Sound build C L key c x963 statement now ↔ InRange C L key c x963 statement now := by
  constructor
  · intro h
    refine ⟨fun hothers => ?_, fun hothers hlegal hsigns hiat hexp => ?_,
      fun claims hclaims hothers => ?_⟩
    · exact not_not.mp fun hfits => h.signing (signIn_panicked.mpr ⟨hothers, hfits⟩)
    · obtain ⟨made, hmade⟩ : ∃ made, signIn build C L key.toEs256Signer c = .ok made :=
        signIn_of_signs hothers hlegal hsigns
      exact (verify_made hmade hsigns.1 hiat hexp).mp (h.accepted made hmade hsigns.1 hiat hexp)
    · exact not_not.mp fun htimes =>
        h.verifying (verify_panicked.mpr ⟨claims, hclaims, hothers, htimes⟩)
  · intro h
    refine ⟨fun made hmade hkey hiat hexp => ?_, fun claims hclaims => legal_of_verify hclaims,
      fun hpanicked => ?_, fun hpanicked => ?_⟩
    · have hchecked := (signIn_eq_ok hmade).1
      exact (verify_made hmade hkey hiat hexp).mpr (h.clock (checkClaimsIn_eq_ok.mp hchecked).1
        (legal_of_window hchecked hiat hexp) (signs_of_signIn hmade hkey) hiat hexp)
    · obtain ⟨hothers, hfits⟩ := signIn_panicked.mp hpanicked
      exact hfits (h.made hothers)
    · obtain ⟨claims, hclaims, hothers, htimes⟩ := verify_panicked.mp hpanicked
      exact htimes (h.carried claims hclaims hothers)

end Statements

section Example

/-- A codec for values without doubles. -/
def integerCodec : Codec Empty recursionLimit := .ofCompact (fun _ _ _ => none) Empty.elim _

def identityLibraries : SigningLibraries := ⟨id, fun _ => true⟩

/-- A key whose signature of a message is the message. -/
def echoKey : ConsoleKey where
  publicKeyX963 := .ok (4 :: List.replicate 64 0)
  signRaw := .ok
  verifyEs256 := fun _ message raw => if raw = message then .ok () else .error .verificationFailed
  verifies := fun _ hraw => if_pos (Except.ok.inj hraw).symm

/-- A grant between two times. -/
def grantBetween (iat exp : Int64) : Claims :=
  ⟨"person".toList, "cred".toList, "ap_1".toList, "grant".toList, iat, exp, "jti".toList⟩

/-- A grant that ends with the last second that an `i64` can tell. -/
def lastGrant : Claims := grantBetween 9223372036854775700 9223372036854775807

/-- In the last seconds that an `i64` can tell a made statement is not accepted though it lasts,
and claims whose times are too far apart overflow. -/
theorem late_statement_refused :
    (∃ made, signIn .release integerCodec identityLibraries echoKey.toEs256Signer lastGrant =
        .ok made ∧
      verify .release integerCodec identityLibraries echoKey.verifyEs256 (4 :: List.replicate 64 0)
        made 9223372036854775800 ≠ .ok lastGrant) ∧
    signIn .debug integerCodec identityLibraries echoKey.toEs256Signer
      (grantBetween (-9223372036854775808) 9223372036854775807) = .error .panicked := by
  constructor
  · have hlegal : LegalLifetime lastGrant := ⟨by decide, by decide⟩
    have hsigns : Signs integerCodec identityLibraries echoKey lastGrant
        (4 :: List.replicate 64 0) := ⟨rfl, _, _, rfl, rfl⟩
    obtain ⟨made, hmade⟩ : ∃ made, signIn .release integerCodec identityLibraries
      echoKey.toEs256Signer lastGrant = .ok made := signIn_of_signs rfl hlegal hsigns
    refine ⟨made, hmade, fun hverified => ?_⟩
    have hfits := (verify_made hmade rfl (by decide) (by decide)).mp hverified
    exact absurd hfits.2 (by decide)
  · exact signIn_panicked.mpr ⟨rfl, fun hfits => absurd hfits.2 (by decide)⟩

end Example

end Genaryx.Policy
