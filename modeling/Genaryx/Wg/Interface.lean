import Genaryx.Wg.Keys
import Mathlib.Data.List.Dedup
import Mathlib.Data.List.Sort

/-!
# The interface

An interface maps the keys of its peers to their allowed addresses. A peer is given its
address by a `set` that names no other peer, and WireGuard routes an address to one peer, so
it is taken from whoever had it.

## Implementation notes

`Interface` carries that no key has two entries. Its peers come in one order, which nothing
depends on.
-/

namespace Genaryx.Wg

/-- One peer as the daemon reports it. -/
structure PeerState where
  publicKeyHex : Text
  allowedIps : List Text
  lastHandshakeUnix : Option Nat := none
  endpoint : Option Text := none
  rxBytes : Nat := 0
  txBytes : Nat := 0
  deriving DecidableEq

/-- The interface as the daemon reports it. -/
structure InterfaceState where
  publicKeyHex : Option Text
  listenPort : Option UInt16
  peers : List PeerState
  deriving DecidableEq

namespace InterfaceState

variable (s : InterfaceState)

/-- The server's public key in base64, unless it is no key. -/
def publicKeyB64 {ε : Type} (L : Libraries) : Except (Stop ε) (Option Text) :=
  match s.publicKeyHex with
  | none => .ok none
  | some hex =>
      match hexToB64 L hex with
      | .ok b64 => .ok (some b64)
      | .error (.failed _) => .ok none
      | .error .panicked => .error .panicked

def hasPeer (publicKeyHex : Text) : Bool :=
  s.peers.any fun p => p.publicKeyHex = publicKeyHex.trim

end InterfaceState

/-! ## Free addresses -/

/-- `str::parse::<u8>`. -/
def parseU8 (t : Text) : Option Nat := (Text.parseU64 t).filter (· < 256)

/-- The last octet of an address that is routed inside `10.9.0.0/24`. -/
def hostOctet (cidr : Text) : Option Nat :=
  match (cidr.takeWhile (· ≠ '/')).splitOn '.' with
  | [a, b, c, d] =>
      if (a, b, c) = ("10".toList, "9".toList, "0".toList) then parseU8 d else none
  | _ => none

/-- The octets that are taken. -/
def takenHostOctets (s : InterfaceState) : List Nat :=
  (((s.peers.flatMap (·.allowedIps)).filterMap hostOctet).insertionSort (· ≤ ·)).dedup

/-- The client address with a last octet. -/
def clientIp (n : Nat) : Text := "10.9.0.".toList ++ Text.decimal n

/-- The lowest free client address. -/
def nextFreeClientIp (s : InterfaceState) : Option Text :=
  ((List.range' 2 253).find? fun n => !(takenHostOctets s).contains n).map clientIp

/-- What routes one address to one peer. -/
def single (ip : Text) : Text := ip ++ "/32".toList

theorem takeWhile_single (n : Nat) : (single (clientIp n)).takeWhile (· ≠ '/') = clientIp n := by
  have hplain : ∀ c ∈ clientIp n, decide (c ≠ '/') = true := by
    intro c hc
    rcases List.mem_append.mp hc with h | h
    · exact Text.forall_mem_literal (p := fun c => decide (c ≠ '/') = true) (by decide) c h
    · have hdigit := Text.isDigit_of_mem_decimal h
      refine decide_eq_true fun hslash => ?_
      rw [hslash] at hdigit
      exact absurd hdigit (by decide)
  rw [single, List.takeWhile_append_of_pos hplain]
  exact List.append_nil _

theorem splitOn_clientIp (n : Nat) :
    (clientIp n).splitOn '.' = ["10".toList, "9".toList, "0".toList, Text.decimal n] := by
  have hdots : ∀ l ∈ ["10".toList, "9".toList, "0".toList, Text.decimal n], '.' ∉ l := by
    intro l hl
    simp only [List.mem_cons, List.not_mem_nil, or_false] at hl
    rcases hl with rfl | rfl | rfl | rfl
    · decide
    · decide
    · decide
    · exact fun hdot => absurd (Text.isDigit_of_mem_decimal hdot) (by decide)
  have hjoin : clientIp n =
      ['.'].intercalate ["10".toList, "9".toList, "0".toList, Text.decimal n] := by
    change ['1', '0', '.', '9', '.', '0', '.'] ++ _ =
      ['.'].intercalate [['1', '0'], ['9'], ['0'], Text.decimal n]
    simp only [List.intercalate, List.intersperse, List.flatten_cons, List.flatten_nil,
      List.cons_append, List.nil_append, List.append_nil]
  rw [hjoin]
  exact List.splitOn_intercalate '.' hdots (List.cons_ne_nil _ _)

/-- The octet of an address that was handed out. -/
theorem hostOctet_single {n : Nat} (h : n < 256) : hostOctet (single (clientIp n)) = some n := by
  have hsize : n < Text.u64Size := h.trans (by decide)
  rw [hostOctet, takeWhile_single, splitOn_clientIp]
  simp only [if_true, parseU8, Text.parseU64_decimal, if_pos hsize, Option.filter_some, h,
    decide_true]

theorem mem_takenHostOctets {s : InterfaceState} {p : PeerState} (hp : p ∈ s.peers) {n : Nat}
    (hn : n < 256) (h : single (clientIp n) ∈ p.allowedIps) : n ∈ takenHostOctets s := by
  rw [takenHostOctets, List.mem_dedup, List.mem_insertionSort, List.mem_filterMap]
  exact ⟨_, List.mem_flatMap.mpr ⟨p, hp, h⟩, hostOctet_single hn⟩

/-- No peer has the address that is free. -/
theorem notMem_of_nextFreeClientIp {s : InterfaceState} {ip : Text}
    (h : nextFreeClientIp s = some ip) : ∀ p ∈ s.peers, single ip ∉ p.allowedIps := by
  obtain ⟨n, hfind, rfl⟩ := Option.map_eq_some_iff.mp h
  have hfree := List.find?_some hfind
  have hrange := List.mem_range'_1.mp (List.mem_of_find?_eq_some hfind)
  intro p hp hip
  have htaken := mem_takenHostOctets hp (by omega) hip
  rw [List.contains_iff_mem.mpr htaken] at hfree
  exact absurd hfree (by decide)

/-! ## Peers -/

/-- Whether a peer has a key. -/
def PeerState.has (key : Text) (p : PeerState) : Bool := p.publicKeyHex = key

/-- A peer that loses an address. -/
def PeerState.without (cidr : Text) (p : PeerState) : PeerState :=
  { p with allowedIps := p.allowedIps.filter (· ≠ cidr) }

/-- A peer has one address, and nobody else has it. -/
def assign (key cidr : Text) (peers : List PeerState) : List PeerState :=
  if peers.any (·.has key) then
    peers.map fun p => if p.has key then { p with allowedIps := [cidr] } else p.without cidr
  else peers.map (·.without cidr) ++ [{ publicKeyHex := key, allowedIps := [cidr] }]

/-- The allowed addresses of a key. -/
def allowedIps (peers : List PeerState) (key : Text) : Option (List Text) :=
  (peers.find? (·.has key)).map (·.allowedIps)

/-- The keys of some peers. -/
def keys (peers : List PeerState) : List Text := peers.map (·.publicKeyHex)

/-- No two peers have one address. -/
def Apart (peers : List PeerState) : Prop :=
  peers.Pairwise fun p q => ∀ cidr ∈ p.allowedIps, cidr ∉ q.allowedIps

section Peers

variable {peers : List PeerState} {key other cidr : Text}

theorem keys_assign :
    keys (assign key cidr peers) = if key ∈ keys peers then keys peers else keys peers ++ [key] := by
  have hany : peers.any (·.has key) = true ↔ key ∈ keys peers := by
    simp [keys, PeerState.has]
  unfold assign
  by_cases h : key ∈ keys peers
  · rw [if_pos (hany.mpr h), if_pos h, keys, keys, List.map_map]
    refine List.map_congr_left fun p _ => ?_
    dsimp only [Function.comp_apply]
    split <;> rfl
  · rw [if_neg (mt hany.mp h), if_neg h, keys, keys, List.map_append, List.map_map]
    rfl

theorem nodup_keys_assign (h : (keys peers).Nodup) : (keys (assign key cidr peers)).Nodup := by
  rw [keys_assign]
  split
  · exact h
  · next hkey => exact List.nodup_append_comm.mp (List.nodup_cons.mpr ⟨hkey, h⟩)

theorem keys_filter_sublist :
    List.Sublist (keys (peers.filter fun p => !p.has key)) (keys peers) :=
  List.filter_sublist.map _

theorem has_iff {p : PeerState} : p.has key = true ↔ p.publicKeyHex = key := decide_eq_true_iff

theorem allowedIps_cons (p : PeerState) :
    allowedIps (p :: peers) key =
      if p.has key then some p.allowedIps else allowedIps peers key := by
  rw [allowedIps, List.find?_cons]
  cases p.has key <;> rfl

/-- A change that leaves all keys alone changes the entry of each key. -/
theorem find?_map_has {f : PeerState → PeerState}
    (hsame : ∀ p, (f p).publicKeyHex = p.publicKeyHex) :
    (peers.map f).find? (·.has key) = (peers.find? (·.has key)).map f := by
  have hcomp : (fun p => PeerState.has key p) ∘ f = fun p => PeerState.has key p := by
    funext p
    rw [Function.comp_apply, PeerState.has, hsame, PeerState.has]
  rw [List.find?_map, hcomp]

/-- The peer that was given an address has it and no other. -/
theorem allowedIps_assign : allowedIps (assign key cidr peers) key = some [cidr] := by
  unfold assign allowedIps
  split
  · next hany =>
      rw [find?_map_has fun p => by split <;> rfl]
      cases hfind : peers.find? (·.has key) with
      | none =>
          obtain ⟨p, hp, hkey⟩ := List.any_eq_true.mp hany
          exact absurd hkey (List.find?_eq_none.mp hfind p hp)
      | some p =>
          have hkey := List.find?_some hfind
          rw [Option.map_some, Option.map_some, if_pos hkey]
  · next hany =>
      have hnone : peers.find? (·.has key) = none := List.find?_eq_none.mpr fun p hp hkey =>
        hany (List.any_eq_true.mpr ⟨p, hp, hkey⟩)
      have hnew : PeerState.has key { publicKeyHex := key, allowedIps := [cidr] } = true :=
        has_iff.mpr rfl
      rw [List.find?_append, find?_map_has (f := PeerState.without cidr) fun _ => rfl, hnone,
        Option.map_none, Option.none_or, List.find?_cons_of_pos hnew]
      rfl

/-- Another peer loses the address that was given. -/
theorem allowedIps_assign_of_ne (hne : other ≠ key) :
    allowedIps (assign key cidr peers) other =
      (allowedIps peers other).map (·.filter (· ≠ cidr)) := by
  unfold assign allowedIps
  split
  · rw [find?_map_has fun p => by split <;> rfl]
    cases hfind : peers.find? (·.has other) with
    | none => rfl
    | some p =>
        have hother := has_iff.mp (List.find?_some hfind)
        have hkey : ¬ p.has key = true := fun hkey => hne (hother.symm.trans (has_iff.mp hkey))
        rw [Option.map_some, Option.map_some, if_neg hkey]
        rfl
  · rw [List.find?_append, find?_map_has (f := PeerState.without cidr) fun _ => rfl,
      List.find?_cons_of_neg fun h => hne (has_iff.mp h).symm, List.find?_nil, Option.or_none]
    cases peers.find? (·.has other) <;> rfl

/-- A peer that was not removed keeps its addresses. -/
theorem allowedIps_filter_of_ne (hne : other ≠ key) :
    allowedIps (peers.filter fun p => !p.has key) other = allowedIps peers other := by
  induction peers with
  | nil => rfl
  | cons p peers ih =>
      by_cases hp : p.has key
      · have hother : ¬ p.has other = true := fun h =>
          hne ((has_iff.mp h).symm.trans (has_iff.mp hp))
        rw [List.filter_cons_of_neg (by simp [hp]), allowedIps_cons, if_neg hother, ih]
      · rw [List.filter_cons_of_pos (by simp [hp]), allowedIps_cons, allowedIps_cons, ih]

/-- Giving an address to one peer leaves all peers apart. -/
theorem Apart.assign (h : Apart peers) (hnodup : (keys peers).Nodup) :
    Apart (assign key cidr peers) := by
  have hwithout : ∀ p : PeerState, cidr ∉ (p.without cidr).allowedIps := fun p hmem =>
    absurd rfl (of_decide_eq_true (List.mem_filter.mp hmem).2)
  have hkeeps : ∀ (p q : PeerState), (∀ c ∈ p.allowedIps, c ∉ q.allowedIps) →
      ∀ c ∈ (p.without cidr).allowedIps, c ∉ (q.without cidr).allowedIps := fun p q hpq c hc hq =>
    hpq c (List.mem_filter.mp hc).1 (List.mem_filter.mp hq).1
  have hkeys : peers.Pairwise fun p q => p.publicKeyHex ≠ q.publicKeyHex :=
    List.pairwise_map.mp hnodup
  unfold Wg.assign
  split
  · refine List.pairwise_map.mpr (List.Pairwise.imp ?_ (List.Pairwise.and h hkeys))
    rintro p q ⟨hpq, hne⟩
    by_cases hp : p.has key
    · have hq : ¬ q.has key = true := fun hq =>
        hne ((has_iff.mp hp).trans (has_iff.mp hq).symm)
      rw [if_pos hp, if_neg hq]
      intro c hc
      rw [List.mem_singleton.mp hc]
      exact hwithout q
    · rw [if_neg hp]
      by_cases hq : q.has key
      · rw [if_pos hq]
        intro c hc hmem
        rw [List.mem_singleton.mp hmem] at hc
        exact hwithout p hc
      · rw [if_neg hq]
        exact hkeeps p q hpq
  · refine List.pairwise_append.mpr ⟨List.pairwise_map.mpr (List.Pairwise.imp ?_ h),
      List.pairwise_singleton _ _, ?_⟩
    · exact fun hpq => hkeeps _ _ hpq
    · intro p hp q hq c hc hmem
      obtain ⟨p', _, rfl⟩ := List.mem_map.mp hp
      rw [List.mem_singleton.mp hq] at hmem
      rw [List.mem_singleton.mp hmem] at hc
      exact hwithout p' hc

end Peers

/-- The interface: a map from keys to what is known of their peers. -/
structure Interface where
  publicKeyHex : Option Text
  listenPort : Option UInt16
  peers : List PeerState
  nodup : (keys peers).Nodup

namespace Interface

variable (w : Interface)

/-- What the interface is read as, by either backend. -/
def state : InterfaceState := ⟨w.publicKeyHex, w.listenPort, w.peers⟩

/-- `set=1` of one peer with one address. -/
def addPeer (key cidr : Text) : Interface :=
  { w with peers := assign key cidr w.peers, nodup := nodup_keys_assign w.nodup }

/-- `set=1` with `remove=true`. -/
def removePeer (key : Text) : Interface :=
  { w with
    peers := w.peers.filter fun p => !p.has key
    nodup := keys_filter_sublist.nodup w.nodup }

end Interface

end Genaryx.Wg

/-!
## Addresses that are routed to somebody

The allowed addresses of a peer are ranges. The search for a free client address reads only the
last octet of those that begin with `10.9.0.`, as if each were one address.
-/

namespace Genaryx.Wg

open Text

/-! ## Ranges -/

/-- A number below a bound, in its one decimal spelling. -/
def spelledBelow (bound : Nat) (t : Text) : Option Nat :=
  (parseU64 t).filter fun n => decide (n < bound) && decide (decimal n = t)

/-- The number of an address in four octets. -/
def addressOf (t : Text) : Option Nat :=
  match t.splitOn '.' with
  | [a, b, c, d] => do
      let a ← spelledBelow 256 a
      let b ← spelledBelow 256 b
      let c ← spelledBelow 256 c
      let d ← spelledBelow 256 d
      some (((a * 256 + b) * 256 + c) * 256 + d)
  | _ => none

/-- The address and the prefix length of a range. An address alone is the range of itself. -/
def rangeOf (cidr : Text) : Option (Nat × Nat) :=
  match splitOnce '/' cidr with
  | none => (addressOf cidr).map (·, 32)
  | some (address, length) => do
      let address ← addressOf address
      let length ← spelledBelow 33 length
      some (address, length)

/-- A range covers the addresses that have its prefix. -/
def covers (cidr : Text) (address : Nat) : Bool :=
  match rangeOf cidr with
  | none => false
  | some (base, length) => base / 2 ^ (32 - length) = address / 2 ^ (32 - length)

/-- The address `10.9.0.n`. -/
def clientAddress (n : Nat) : Nat := ((10 * 256 + 9) * 256 + 0) * 256 + n

/-- An allowed range of some peer covers a client address. -/
def Covered (s : InterfaceState) (n : Nat) : Prop :=
  ∃ p ∈ s.peers, ∃ cidr ∈ p.allowedIps, covers cidr (clientAddress n) = true

/-- An allowed range of some peer is read as a client address. -/
def Named (s : InterfaceState) (n : Nat) : Prop :=
  ∃ p ∈ s.peers, ∃ cidr ∈ p.allowedIps, hostOctet cidr = some n

/-! ## The search -/

variable {s : InterfaceState} {n : Nat}

theorem mem_takenHostOctets_iff : n ∈ takenHostOctets s ↔ Named s n := by
  rw [takenHostOctets, List.mem_dedup, List.mem_insertionSort, List.mem_filterMap]
  constructor
  · rintro ⟨cidr, hcidr, hoctet⟩
    obtain ⟨p, hp, hmem⟩ := List.mem_flatMap.mp hcidr
    exact ⟨p, hp, cidr, hmem, hoctet⟩
  · rintro ⟨p, hp, cidr, hmem, hoctet⟩
    exact ⟨cidr, List.mem_flatMap.mpr ⟨p, hp, hmem⟩, hoctet⟩

/-- The address that is issued is the lowest that is not named. -/
theorem nextFreeClientIp_eq_some_iff {ip : Text} : nextFreeClientIp s = some ip ↔
    ∃ n, 2 ≤ n ∧ n ≤ 254 ∧ ip = clientIp n ∧ ¬ Named s n ∧ ∀ m, 2 ≤ m → m < n → Named s m := by
  have htaken : ∀ n, (!(takenHostOctets s).contains n) = true ↔ ¬ Named s n := by
    intro n
    rw [Bool.not_eq_true', ← Bool.not_eq_true, List.contains_iff_mem, mem_takenHostOctets_iff]
  rw [nextFreeClientIp, Option.map_eq_some_iff]
  constructor
  · rintro ⟨n, hfind, rfl⟩
    obtain ⟨hfree, hrange, hbelow⟩ := List.find?_range'_eq_some.mp hfind
    have hbounds := List.mem_range'_1.mp hrange
    refine ⟨n, hbounds.1, by omega, rfl, (htaken n).mp hfree, fun m hm hlt => ?_⟩
    have hnot := hbelow m hm hlt
    by_contra hfreeBelow
    rw [(htaken m).mpr hfreeBelow] at hnot
    cases hnot
  · rintro ⟨n, hlow, hhigh, rfl, hfree, hbelow⟩
    refine ⟨n, List.find?_range'_eq_some.mpr ⟨(htaken n).mpr hfree,
      List.mem_range'_1.mpr ⟨hlow, by omega⟩, fun m hm hlt => ?_⟩, rfl⟩
    rw [Bool.not_eq_true', ← Bool.not_eq_true, htaken, not_not]
    exact hbelow m hm hlt

theorem nextFreeClientIp_eq_none_iff : nextFreeClientIp s = none ↔
    ∀ n, 2 ≤ n → n ≤ 254 → Named s n := by
  rw [nextFreeClientIp, Option.map_eq_none_iff, List.find?_eq_none]
  constructor
  · intro h n hlow hhigh
    have hnot := h n (List.mem_range'_1.mpr ⟨hlow, by omega⟩)
    rw [Bool.not_eq_true, Bool.not_eq_false', List.contains_iff_mem] at hnot
    exact mem_takenHostOctets_iff.mp hnot
  · intro h n hmem
    have hbounds := List.mem_range'_1.mp hmem
    rw [Bool.not_eq_true, Bool.not_eq_false', List.contains_iff_mem]
    exact mem_takenHostOctets_iff.mpr (h n hbounds.1 (by omega))

/-- The address that is issued is covered by nobody's range, and none is issued only when every
client address is covered. -/
structure BelongsToNobody (s : InterfaceState) : Prop where
  issued : ∀ ip, nextFreeClientIp s = some ip →
    ∃ n, 2 ≤ n ∧ n ≤ 254 ∧ ip = clientIp n ∧ ¬ Covered s n
  full : nextFreeClientIp s = none → ∀ n, 2 ≤ n → n ≤ 254 → Covered s n

/-- A covered address is named where all lower ones are, and all are covered if all are named. -/
structure NamedAsCovered (s : InterfaceState) : Prop where
  lowest : ∀ n, 2 ≤ n → n ≤ 254 → (∀ m, 2 ≤ m → m < n → Named s m) → Covered s n → Named s n
  all : (∀ n, 2 ≤ n → n ≤ 254 → Named s n) → ∀ n, 2 ≤ n → n ≤ 254 → Covered s n

theorem clientIp_injective : Function.Injective clientIp := fun _ _ h =>
  decimal_injective (List.append_cancel_left h)

theorem belongsToNobody_iff : BelongsToNobody s ↔ NamedAsCovered s := by
  constructor
  · rintro ⟨hissued, hfull⟩
    constructor
    · intro n hlow hhigh hbelow hcovered
      by_contra hfree
      obtain ⟨n', -, -, hip, hnot⟩ := hissued (clientIp n)
        (nextFreeClientIp_eq_some_iff.mpr ⟨n, hlow, hhigh, rfl, hfree, hbelow⟩)
      rw [clientIp_injective hip] at hcovered
      exact hnot hcovered
    · exact fun hall => hfull (nextFreeClientIp_eq_none_iff.mpr hall)
  · rintro ⟨hlowest, hall⟩
    constructor
    · intro ip hip
      obtain ⟨n, hlow, hhigh, rfl, hfree, hbelow⟩ := nextFreeClientIp_eq_some_iff.mp hip
      exact ⟨n, hlow, hhigh, rfl, fun hcovered => hfree (hlowest n hlow hhigh hbelow hcovered)⟩
    · exact fun hnone => hall (nextFreeClientIp_eq_none_iff.mp hnone)

/-! ## Addresses that the console hands out -/

theorem spelledBelow_decimal {bound : Nat} (hn : n < bound) (hbound : bound ≤ u64Size) :
    spelledBelow bound (decimal n) = some n := by
  rw [spelledBelow, parseU64_decimal, if_pos (hn.trans_le hbound), Option.filter_some]
  simp [hn]

theorem slash_notMem_clientIp (n : Nat) : '/' ∉ clientIp n := by
  refine List.not_mem_append (notMem_literal (by decide)) fun hmem => ?_
  exact absurd (isDigit_of_mem_decimal hmem) (by decide)

/-- What routes one client address to a peer covers just this one. -/
theorem covers_single (hn : n < 256) (m : Nat) :
    covers (single (clientIp n)) (clientAddress m) = true ↔ m = n := by
  have hsplit : splitOnce '/' (single (clientIp n)) = some (clientIp n, "32".toList) :=
    splitOnce_append '/' (clientIp n) "32".toList (slash_notMem_clientIp n)
  have hclosed : spelledBelow 256 "10".toList = some 10 ∧ spelledBelow 256 "9".toList = some 9 ∧
      spelledBelow 256 "0".toList = some 0 ∧ spelledBelow 33 "32".toList = some 32 := by
    decide
  obtain ⟨hten, hnine, hzero, hlength⟩ := hclosed
  have haddress : addressOf (clientIp n) = some (clientAddress n) := by
    rw [addressOf, splitOn_clientIp]
    simp only [hten, hnine, hzero, spelledBelow_decimal hn (by decide), Option.bind_eq_bind,
      Option.bind_some]
    rfl
  have hrange : rangeOf (single (clientIp n)) = some (clientAddress n, 32) := by
    rw [rangeOf, hsplit]
    simp only [haddress, hlength, Option.bind_eq_bind, Option.bind_some]
  rw [covers, hrange]
  simp only [Nat.sub_self, Nat.pow_zero, Nat.div_one, decide_eq_true_eq, clientAddress]
  omega

/-- Where every peer has single client addresses, what is covered is what is named. -/
theorem namedAsCovered_of_single (h : ∀ p ∈ s.peers, ∀ cidr ∈ p.allowedIps,
    ∃ n < 256, cidr = single (clientIp n)) : NamedAsCovered s := by
  have hsame : ∀ n, n < 256 → (Covered s n ↔ Named s n) := by
    intro n hn
    constructor
    · rintro ⟨p, hp, cidr, hcidr, hcovers⟩
      obtain ⟨m, hm, rfl⟩ := h p hp cidr hcidr
      rw [(covers_single hm n).mp hcovers]
      exact ⟨p, hp, _, hcidr, hostOctet_single hm⟩
    · rintro ⟨p, hp, cidr, hcidr, hoctet⟩
      obtain ⟨m, hm, rfl⟩ := h p hp cidr hcidr
      rw [hostOctet_single hm] at hoctet
      exact ⟨p, hp, _, hcidr, (covers_single hm n).mpr (Option.some.inj hoctet).symm⟩
  constructor
  · exact fun n _ hhigh _ hcovered => (hsame n (by omega)).mp hcovered
  · exact fun hall n hlow hhigh => (hsame n (by omega)).mpr (hall n hlow hhigh)

/-- The address that is issued is a client address, and belongs to nobody exactly where what is
covered is named as far as the search goes: where all peers have single client addresses, for
one. -/
structure IssuedFreeWhen (s : InterfaceState) : Prop where
  client : ∀ ip, nextFreeClientIp s = some ip → ∃ n, 2 ≤ n ∧ n ≤ 254 ∧ ip = clientIp n
  nobody_iff : BelongsToNobody s ↔ NamedAsCovered s
  single_addresses : (∀ p ∈ s.peers, ∀ cidr ∈ p.allowedIps, ∃ n < 256, cidr = single (clientIp n)) →
    BelongsToNobody s

/-- **An issued address belongs to nobody** exactly where what is covered is named. -/
theorem issued_free_when (s : InterfaceState) : IssuedFreeWhen s where
  client := by
    intro ip hip
    obtain ⟨n, hlow, hhigh, hn, -⟩ := nextFreeClientIp_eq_some_iff.mp hip
    exact ⟨n, hlow, hhigh, hn⟩
  nobody_iff := belongsToNobody_iff
  single_addresses := fun h => belongsToNobody_iff.mpr (namedAsCovered_of_single h)

section Example

/-- An interface whose peer is routed a whole network. -/
def networkPeer : InterfaceState where
  publicKeyHex := none
  listenPort := none
  peers := [{ publicKeyHex := "aa".toList, allowedIps := ["10.9.0.0/24".toList] }]

/-- An address of the network is issued. -/
theorem network_address_issued : nextFreeClientIp networkPeer = some (clientIp 2) ∧
    Covered networkPeer 2 ∧ ¬ BelongsToNobody networkPeer := by
  have hissued : nextFreeClientIp networkPeer = some (clientIp 2) := by decide
  have hcovered : Covered networkPeer 2 :=
    ⟨_, List.mem_singleton.mpr rfl, _, List.mem_singleton.mpr rfl, by decide⟩
  refine ⟨hissued, hcovered, fun hnobody => ?_⟩
  obtain ⟨n, -, -, hip, hfree⟩ := hnobody.issued _ hissued
  rw [← clientIp_injective hip] at hfree
  exact hfree hcovered

end Example

end Genaryx.Wg
