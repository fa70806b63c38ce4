import Genaryx.Web.SignIn

/-!
# Guessing past the limit

A sign-in with a wrong password that nothing holds back counts one failure against its name
and one against its address. Enough of them, each for another name and from another address,
fill the table of accounts, and the next one evicts the oldest live window.
-/

namespace Genaryx.Web

open Base Base.Transition

section Guess

variable {passwordMatches : Text → Text → Bool} {w : World} {r : Request} {rest : List Request}

/-- The step of the last request. -/
theorem step_last {next : World} {r' : Request} {pick : Text} (hw : w.requests = rest ++ [r])
    (hstep : handle passwordMatches w r pick = some (next, r')) :
    step passwordMatches w (.advance rest.length pick) =
      some ({ next with requests := rest ++ [r'] } : World).observe := by
  have hget : w.requests[rest.length]? = some r := by rw [hw]; exact List.getElem?_concat_length
  rw [step, act, hget]
  simp only [hstep, Option.map_some]
  rw [hw, List.set_append_right _ _ (Nat.le_refl _), Nat.sub_self, List.set_cons_zero]

theorem check_of_lookup_none {t : LoginThrottle} {key : Text} {now : Nat}
    (h : t.windows.lookup key = none) : t.check key now = .ok () := by
  rw [LoginThrottle.check, h]

/-- A wrong password that nothing holds back counts against its name and its address. -/
theorem run_guess (operator : Operator) (username password peer pick : Text)
    (haccount : w.accounts.windows.lookup (loginKey "user".toList username) = none)
    (haddress : w.addresses.windows.lookup (loginKey "addr".toList peer) = none)
    (hwrong : verify passwordMatches operator username password = false) :
    ∃ v, run (step passwordMatches) w
        (guess w.requests.length operator username password peer pick) = some v ∧
      v.accounts = w.accounts.recordFailure pick (loginKey "user".toList username) w.clock ∧
      v.addresses = w.addresses.recordFailure pick (loginKey "addr".toList peer) w.clock ∧
      v.clock = w.clock ∧ v.requests.length = w.requests.length + 1 := by
  let r : Request :=
    { operator, username, password, peer := some peer, now := w.clock }
  let w₁ : World := ({ w with requests := w.requests ++ [r] } : World).observe
  let r₁ : Request := { r with stage := .checkAddress none }
  have hchecked : handle passwordMatches w₁ r pick = some (w₁, r₁) := by
    have hok : w₁.accounts.check r.account r.now = .ok () := check_of_lookup_none haccount
    simp only [handle, r, hok]
    rfl
  let w₂ : World := ({ w₁ with requests := w.requests ++ [r₁] } : World).observe
  let r₂ : Request := { r with stage := .verify }
  have haddressed : handle passwordMatches w₂ r₁ pick = some (w₂, r₂) := by
    have hok : w₂.addresses.check r₁.address r₁.now = .ok () := check_of_lookup_none haddress
    simp only [handle, r₁, hok]
    rfl
  let w₃ : World := ({ w₂ with requests := w.requests ++ [r₂] } : World).observe
  let r₃ : Request := { r with stage := .failAccount }
  have hverified : handle passwordMatches w₃ r₂ pick = some (w₃, r₃) := by
    simp only [handle, r₂, r, hwrong]
    rfl
  let w₄ : World := ({ w₃ with requests := w.requests ++ [r₃] } : World).observe
  rw [guess, run_cons_of_step (t := w₁) rfl]
  simp only [List.replicate]
  rw [run_cons_of_step (step_last rfl hchecked), run_cons_of_step (step_last rfl haddressed),
    run_cons_of_step (step_last rfl hverified), run_cons_of_step (step_last rfl rfl),
    run_cons_of_step (step_last rfl rfl)]
  exact ⟨_, rfl, rfl, rfl, rfl, List.length_append⟩

/-- A name that has used up its failures, and `n` windows of other names after it. The names
and addresses from the `n`-th on have no window. -/
structure Flooded (held : Text) (names peers : Nat → Text) (n : Nat) (w : World) : Prop where
  size : w.accounts.windows.entries.length = n + 1
  room : w.accounts.maxKeys = maxKeys
  window : w.accounts.window = throttleWindow
  held : w.accounts.windows.lookup held = some ⟨0, accountLimit⟩
  names : ∀ k, n ≤ k → k < maxKeys →
    w.accounts.windows.lookup (loginKey "user".toList (names k)) = none
  peers : ∀ k, n ≤ k → k < maxKeys →
    w.addresses.windows.lookup (loginKey "addr".toList (peers k)) = none
  clock : w.clock = 1

/-- Keys of the flood that differ from one another and from the held one. -/
structure Distinct (held : Text) (names peers : Nat → Text) : Prop where
  held : ∀ k, held ≠ loginKey "user".toList (names k)
  names : ∀ j k, j < k → k < maxKeys →
    loginKey "user".toList (names k) ≠ loginKey "user".toList (names j)
  peers : ∀ j k, j < k → k < maxKeys →
    loginKey "addr".toList (peers k) ≠ loginKey "addr".toList (peers j)

theorem lookup_recordFailure_none {t : LoginThrottle} {pick key other : Text} {now : Nat}
    (hother : other ≠ key) (h : t.windows.lookup other = none) :
    (t.recordFailure pick key now).windows.lookup other = none := by
  rw [Option.eq_none_iff_forall_ne_some]
  intro e he
  rw [LoginThrottle.lookup_of_recordFailure hother he] at h
  cases h

variable {held : Text} {names peers : Nat → Text} {n : Nat}

/-- One more wrong password of the flood fills one more place. -/
theorem Flooded.next (hd : Distinct held names peers) (h : Flooded held names peers n w)
    (hn : n + 1 < maxKeys) (operator : Operator) (password : Text)
    (hwrong : verify passwordMatches operator (names n) password = false) :
    ∃ actions v, run (step passwordMatches) w actions = some v ∧
      Flooded held names peers (n + 1) v := by
  obtain ⟨v, hrun, haccounts, haddresses, hclock, -⟩ := run_guess operator (names n) password
    (peers n) held (h.names n (Nat.le_refl n) (by omega)) (h.peers n (Nat.le_refl n) (by omega))
    hwrong
  have hfresh := h.names n (Nat.le_refl n) (by omega)
  have hroom : w.accounts.windows.entries.length < w.accounts.maxKeys := by
    rw [h.size, h.room]
    exact hn
  have hinsert := @LoginThrottle.windows_recordFailure _ held _ w.clock hfresh hroom
  refine ⟨_, v, hrun, ?_, ?_, ?_, ?_, fun k hk hlt => ?_, fun k hk hlt => ?_, ?_⟩
  · rw [haccounts, hinsert, AList.entries_insert_of_notMem (AList.lookup_eq_none.mp hfresh),
      List.length_cons, h.size]
  · rw [haccounts, LoginThrottle.recordFailure_maxKeys, h.room]
  · rw [haccounts, LoginThrottle.recordFailure_window, h.window]
  · rw [haccounts, hinsert, AList.lookup_insert_ne (hd.held n), h.held]
  · rw [haccounts]
    exact lookup_recordFailure_none (hd.names n k hk hlt) (h.names k (by omega) hlt)
  · rw [haddresses]
    exact lookup_recordFailure_none (hd.peers n k hk hlt) (h.peers k (by omega) hlt)
  · rw [hclock, h.clock]

/-- The flood fills the table. -/
theorem Flooded.fill (hd : Distinct held names peers) (h : Flooded held names peers 0 w)
    (operator : Operator) (password : Text)
    (hwrong : ∀ k, verify passwordMatches operator (names k) password = false)
    (hn : n < maxKeys) :
    ∃ actions v, run (step passwordMatches) w actions = some v ∧ Flooded held names peers n v := by
  induction n with
  | zero => exact ⟨[], w, rfl, h⟩
  | succ n ih =>
      obtain ⟨first, u, hfirst, hu⟩ := ih (by omega)
      obtain ⟨second, v, hsecond, hv⟩ := hu.next hd hn operator password (hwrong n)
      exact ⟨first ++ second, v, by rw [run_append, hfirst]; exact hsecond, hv⟩

/-- Once the table is full, the next wrong password of another name evicts the held one. -/
theorem Flooded.evict (hd : Distinct held names peers)
    (h : Flooded held names peers (maxKeys - 1) w) (operator : Operator) (password : Text)
    (hwrong : verify passwordMatches operator (names (maxKeys - 1)) password = false) :
    ∃ actions v, run (step passwordMatches) w actions = some v ∧
      v.accounts.windows.lookup held = none ∧ v.clock = w.clock := by
  obtain ⟨v, hrun, haccounts, -, hclock, -⟩ := run_guess operator (names (maxKeys - 1)) password
    (peers (maxKeys - 1)) held (h.names _ (Nat.le_refl _) (by decide))
    (h.peers _ (Nat.le_refl _) (by decide)) hwrong
  refine ⟨_, v, hrun, ?_, hclock⟩
  rw [haccounts]
  refine LoginThrottle.lookup_recordFailure_of_full (hd.held _)
    (h.names _ (Nat.le_refl _) (by decide)) ?_ (fun entry _ => ?_) h.held
    fun entry _ => Nat.zero_le _
  · rw [h.size, h.room]
    decide
  · rw [LoginThrottle.isLive, h.window, h.clock, decide_eq_true_eq]
    exact lt_of_le_of_lt (Nat.sub_le _ _) (by decide)

end Guess

def hexDigit (n : Nat) : Char := "0123456789abcdef".toList.getD (n % 16) '0'

/-- The last three digits of a number in base 16. -/
def hexTag (n : Nat) : Text := [hexDigit (n / 256), hexDigit (n / 16), hexDigit n]

def floodName (n : Nat) : Text := 'u' :: hexTag n

def floodPeer (n : Nat) : Text := "fd00::1".toList ++ hexTag n

theorem hexDigit_inj {a b : Nat} (h : hexDigit a = hexDigit b) : a % 16 = b % 16 := by
  have hall : ∀ x < 16, ∀ y < 16,
      "0123456789abcdef".toList.getD x '0' = "0123456789abcdef".toList.getD y '0' → x = y := by
    decide
  exact hall _ (Nat.mod_lt a (by decide)) _ (Nat.mod_lt b (by decide)) h

theorem hexTag_ne {j k : Nat} (hlt : j < k) (hk : k < maxKeys) : hexTag k ≠ hexTag j := by
  intro h
  simp only [hexTag, List.cons.injEq, and_true] at h
  have hhigh := hexDigit_inj h.1
  have hmiddle := hexDigit_inj h.2.1
  have hlow := hexDigit_inj h.2.2
  simp only [maxKeys] at hk
  omega

theorem flood_distinct :
    Distinct (loginKey "user".toList "owner".toList) floodName floodPeer where
  held := fun k h => by
    have hlength := congrArg List.length h
    cases hlength
  names := fun j k hlt hk h => by
    refine hexTag_ne hlt hk ?_
    have htail := congrArg (List.drop 6) h
    exact htail
  peers := fun j k hlt hk h => by
    refine hexTag_ne hlt hk ?_
    have htail := congrArg (List.drop 12) h
    exact htail

/-- Two requests that overlap after nine failures. -/
def overlap : List Action :=
  ownerGuesses 9 ++
    [.request (some ownerRecord) "owner".toList "guess".toList none,
      .request (some ownerRecord) "owner".toList "guess".toList none,
      .advance 9 [], .advance 10 [], .advance 9 [], .advance 9 [], .advance 10 [],
      .advance 10 []]

/-- Overlapping requests verify more wrong passwords than the limit in one window, and a flood
of other names releases a held name before its window ends. -/
theorem limit_passed_by_overlap_and_flood :
    (¬ ∀ passwordMatches actions w, run (step passwordMatches) {} actions = some w →
      ∀ name e, w.accounts.windows.lookup (loginKey "user".toList name) = some e →
        w.guesses (loginKey "user".toList name) e ≤ accountLimit) ∧
    ¬ ∀ passwordMatches actions w, run (step passwordMatches) {} actions = some w →
      ∀ name later u started, run (step passwordMatches) w later = some u →
        w.UsedUp (loginKey "user".toList name) started → u.clock < started + throttleWindow →
        ∀ now ≤ u.clock, u.accounts.check (loginKey "user".toList name) now ≠ .ok () := by
  constructor
  · intro hlimit
    obtain ⟨w, hrun, hw⟩ := (Option.any_eq_true _ _).mp (by decide :
      (run (step fun _ _ => false) {} overlap).any (fun w =>
        w.accounts.windows.lookup (loginKey "user".toList "owner".toList) = some ⟨0, 9⟩ ∧
          w.guesses (loginKey "user".toList "owner".toList) ⟨0, 9⟩ = 11) = true)
    obtain ⟨hlookup, heleven⟩ := of_decide_eq_true hw
    have hle := hlimit _ _ w hrun "owner".toList _ hlookup
    rw [heleven] at hle
    exact absurd hle (by decide)
  · intro hheld
    obtain ⟨w, hrun, hw⟩ := (Option.any_eq_true _ _).mp (by decide :
      (run (step fun _ _ => false) {} (ownerGuesses 10 ++ [.tick 1])).any (fun w =>
        w.accounts.windows.entries = [⟨loginKey "user".toList "owner".toList, ⟨0, 10⟩⟩] ∧
          w.addresses.windows.entries = [⟨loginKey "addr".toList "192.0.2.7".toList, ⟨0, 10⟩⟩] ∧
          w.accounts.maxKeys = maxKeys ∧ w.accounts.window = throttleWindow ∧ w.clock = 1) =
        true)
    obtain ⟨haccounts, haddresses, hroom, hwindow, hclock⟩ := of_decide_eq_true hw
    have hlookup : w.accounts.windows.lookup (loginKey "user".toList "owner".toList) =
        some ⟨0, 10⟩ := by
      rw [AList.lookup, haccounts]
      exact List.dlookup_cons_eq _ _ _
    have hflooded : Flooded (loginKey "user".toList "owner".toList) floodName floodPeer 0 w := by
      refine ⟨by rw [haccounts]; rfl, hroom, hwindow, hlookup, fun k _ _ => ?_, fun k _ _ => ?_,
        hclock⟩
      · rw [AList.lookup, haccounts, List.dlookup_cons_ne]
        · rfl
        · exact fun h => flood_distinct.held k h.symm
      · rw [AList.lookup, haddresses, List.dlookup_cons_ne]
        · rfl
        · intro h
          have hhead := congrArg (fun key : Text => key.getD 5 ' ') h
          cases hhead
    have hwrong : ∀ k, verify (fun _ _ => false) ownerRecord (floodName k) "guess".toList = false :=
      fun _ => rfl
    obtain ⟨first, u, hfirst, hu⟩ := hflooded.fill flood_distinct ownerRecord "guess".toList
      hwrong (by decide : maxKeys - 1 < maxKeys)
    obtain ⟨second, v, hsecond, hgone, hlater⟩ := hu.evict flood_distinct ownerRecord
      "guess".toList (hwrong _)
    refine hheld _ _ w hrun "owner".toList (first ++ second) v 0 ?_ ⟨10, hlookup, by decide⟩ ?_
      v.clock (Nat.le_refl _) (check_of_lookup_none hgone)
    · rw [run_append, hfirst]
      exact hsecond
    · rw [hlater, hu.clock]
      decide

end Genaryx.Web
