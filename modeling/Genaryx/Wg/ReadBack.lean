import Genaryx.Base.Items
import Genaryx.Wg.Journaled
import Genaryx.Wg.Uapi

/-!
# What is read back from an answer

An answer is written from an interface and its peers: the keys of the interface first, then for
each peer its public key and what is known of it, in any order and with other keys between, and
`errno=0` last. It is read back as it was written, if no value ends in white space.

## Implementation notes

The lines of an answer are trimmed, so white space at the end of a value is lost.
-/

namespace Genaryx.Wg

open Base Json Text

/-! ## What is written -/

/-- What an answer says of the interface. -/
inductive InterfaceField
  | privateKey (bytes : { bytes : Bytes // bytes.length = 32 })
  | listenPort (port : UInt16)
  | other (key value : Text)

/-- What an answer says of a peer behind its public key. -/
inductive PeerField
  | allowedIp (cidr : Text)
  | endpoint (address : Text)
  | lastHandshake (seconds : UInt64)
  | rxBytes (n : UInt64)
  | txBytes (n : UInt64)
  | other (key value : Text)

/-- A line of an answer. -/
def keyValue (key value : Text) : Text := key ++ '=' :: value

def InterfaceField.line : InterfaceField → Text
  | privateKey bytes => keyValue UapiKey.privateKey.text (hexLower bytes)
  | listenPort port => keyValue UapiKey.listenPort.text (decimal port.toNat)
  | other key value => keyValue key value

def PeerField.line : PeerField → Text
  | allowedIp cidr => keyValue UapiKey.allowedIp.text cidr
  | endpoint address => keyValue UapiKey.endpoint.text address
  | lastHandshake seconds => keyValue UapiKey.lastHandshakeTimeSec.text (decimal seconds.toNat)
  | rxBytes n => keyValue UapiKey.rxBytes.text (decimal n.toNat)
  | txBytes n => keyValue UapiKey.txBytes.text (decimal n.toNat)
  | other key value => keyValue key value

/-- A value without a line break, and without white space at its end. -/
structure PlainValue (value : Text) : Prop where
  line : '\n' ∉ value
  last : ∀ c, value.getLast? = some c → isWhitespace c = false

/-- A key as an answer writes it. -/
structure PlainKey (key : Text) : Prop where
  line : '\n' ∉ key
  equals : '=' ∉ key
  head : ∀ c, key.head? = some c → isWhitespace c = false

/-- The keys that say nothing before the first peer. -/
def UapiKey.ofPeer : UapiKey → Bool
  | allowedIp | endpoint | lastHandshakeTimeSec | rxBytes | txBytes => true
  | _ => false

/-- The other keys of the interface say nothing to a reader. -/
def InterfaceField.Plain : InterfaceField → Prop
  | other key value => PlainKey key ∧ PlainValue value ∧
      ∀ k, UapiKey.ofText key = some k → k.ofPeer = true
  | _ => True

/-- The other keys of a peer say nothing to a reader. -/
def PeerField.Plain : PeerField → Prop
  | allowedIp value | endpoint value => PlainValue value
  | other key value => PlainKey key ∧ PlainValue value ∧ UapiKey.ofText key = none
  | _ => True

def InterfaceField.privateKey? : InterfaceField → Option Bytes
  | privateKey bytes => some bytes
  | _ => none

def InterfaceField.listenPort? : InterfaceField → Option UInt16
  | listenPort port => some port
  | _ => none

def PeerField.allowedIp? : PeerField → Option Text
  | allowedIp cidr => some cidr
  | _ => none

def PeerField.endpoint? : PeerField → Option Text
  | endpoint address => some address
  | _ => none

def PeerField.lastHandshake? : PeerField → Option UInt64
  | lastHandshake seconds => some seconds
  | _ => none

def PeerField.rxBytes? : PeerField → Option UInt64
  | rxBytes n => some n
  | _ => none

def PeerField.txBytes? : PeerField → Option UInt64
  | txBytes n => some n
  | _ => none

/-- Fields that write a peer: each of its allowed addresses, its endpoint if it has one, and its
counters and the time of its handshake once, where zero is never. -/
structure WritesPeer (fields : List PeerField) (p : PeerState) : Prop where
  plain : ∀ f ∈ fields, f.Plain
  publicKey : PlainValue p.publicKeyHex
  allowedIps : fields.filterMap PeerField.allowedIp? = p.allowedIps
  endpoint : fields.filterMap PeerField.endpoint? = p.endpoint.toList
  lastHandshake : ∃ seconds, fields.filterMap PeerField.lastHandshake? = [seconds] ∧
    p.lastHandshakeUnix = if seconds.toNat = 0 then none else some seconds.toNat
  rxBytes : ∃ n, fields.filterMap PeerField.rxBytes? = [n] ∧ p.rxBytes = n.toNat
  txBytes : ∃ n, fields.filterMap PeerField.txBytes? = [n] ∧ p.txBytes = n.toNat

/-- Fields that write an interface: its private key and its port, if it has them. -/
structure WritesInterface (fields : List InterfaceField) (privateKey : Option Bytes)
    (listenPort : Option UInt16) : Prop where
  plain : ∀ f ∈ fields, f.Plain
  privateKey : fields.filterMap InterfaceField.privateKey? = privateKey.toList
  listenPort : fields.filterMap InterfaceField.listenPort? = listenPort.toList

/-- The lines of a peer. -/
def peerLines (p : PeerState) (fields : List PeerField) : List Text :=
  keyValue UapiKey.publicKey.text p.publicKeyHex :: fields.map PeerField.line

/-- The answer, with empty lines at its end. -/
def answerText (fields : List InterfaceField) (peers : List (PeerState × List PeerField))
    (blanks : Nat) : Text :=
  Framing.terminated '\n' (fields.map InterfaceField.line ++
    peers.flatMap (fun p => peerLines p.1 p.2) ++
    keyValue UapiKey.errno.text ['0'] :: List.replicate blanks [])

/-! ## What is read of it -/

section Lines

variable (L : Libraries) (publicOf : Bytes → Bytes)

variable {r : Reading} {key value : Text}

/-- A line is read by its key and its value. -/
theorem readLine_keyValue (hkey : PlainKey key) (hvalue : PlainValue value) :
    readLine L publicOf r (keyValue key value) =
      match UapiKey.ofText key with
      | some k => readValue L publicOf r k value
      | none => .ok r := by
  have htrim : trim (keyValue key value) = keyValue key value := by
    refine trim_of_ends (fun c hc => ?_) fun c hc => ?_
    · cases hcons : key with
      | nil =>
          rw [keyValue, hcons] at hc
          cases hc
          rfl
      | cons d rest =>
          rw [keyValue, hcons] at hc
          refine hkey.head c ?_
          rw [hcons]
          exact hc
    · rw [keyValue, List.getLast?_append_of_ne_nil _ (List.cons_ne_nil '=' value)] at hc
      cases hcons : value with
      | nil =>
          rw [hcons] at hc
          cases hc
          rfl
      | cons d rest =>
          rw [hcons, List.getLast?_cons_cons, ← hcons] at hc
          exact hvalue.last c hc
  have hne : (keyValue key value).isEmpty = false :=
    List.isEmpty_eq_false_iff.mpr (List.append_ne_nil_of_right_ne_nil key (List.cons_ne_nil '=' _))
  have hsplit : splitOnce '=' (keyValue key value) = some (key, value) :=
    splitOnce_append '=' key value hkey.equals
  cases hof : UapiKey.ofText key with
  | none => simp only [readLine, htrim, hne, Bool.false_eq_true, if_false, hsplit, hof]
  | some k => simp only [readLine, htrim, hne, Bool.false_eq_true, if_false, hsplit, hof]

theorem plainKey_of (hline : '\n' ∉ key) (hequals : '=' ∉ key)
    (hhead : key.head?.all (!isWhitespace ·) = true) : PlainKey key := by
  refine ⟨hline, hequals, fun c hc => ?_⟩
  rw [hc] at hhead
  simpa using hhead

theorem plainKey_text (k : UapiKey) : PlainKey k.text := by
  have hclean : '\n' ∉ k.text ∧ '=' ∉ k.text ∧ k.text.head?.all (!isWhitespace ·) = true := by
    cases k <;> decide
  exact plainKey_of hclean.1 hclean.2.1 hclean.2.2

theorem ofText_text (k : UapiKey) : UapiKey.ofText k.text = some k := by
  cases k <;> decide

/-- A line of a key that is read. -/
theorem readLine_text (k : UapiKey) (hvalue : PlainValue value) :
    readLine L publicOf r (keyValue k.text value) = readValue L publicOf r k value := by
  rw [readLine_keyValue L publicOf (plainKey_text k) hvalue, ofText_text]

theorem plainValue_of_clean (hclean : ∀ c ∈ value, isWhitespace c = false) : PlainValue value where
  line := fun h => absurd (hclean '\n' h) (by decide)
  last := fun c hc => hclean c (List.mem_of_getLast? hc)

theorem plainValue_decimal (n : Nat) : PlainValue (decimal n) :=
  plainValue_of_clean fun _ hc => not_isWhitespace_of_mem_decimal hc

/-- What a field makes known of a peer. -/
def PeerField.apply (p : PeerState) : PeerField → PeerState
  | allowedIp cidr => { p with allowedIps := p.allowedIps ++ [cidr] }
  | endpoint address => { p with endpoint := some address }
  | lastHandshake seconds =>
      { p with lastHandshakeUnix := if seconds.toNat = 0 then none else some seconds.toNat }
  | rxBytes n => { p with rxBytes := n.toNat }
  | txBytes n => { p with txBytes := n.toNat }
  | other _ _ => p

/-- What a field makes known of an interface before its first peer. -/
def InterfaceField.apply (s : InterfaceState) : InterfaceField → InterfaceState
  | privateKey bytes =>
      if s.publicKeyHex.isSome then s
      else { s with publicKeyHex := some (hexLower (publicOf bytes)) }
  | listenPort port => { s with listenPort := some port }
  | other _ _ => s

theorem parseU64_toNat (n : UInt64) : parseU64 (decimal n.toNat) = some n.toNat := by
  rw [parseU64_decimal, if_pos]
  exact n.toNat_lt

theorem parseU16_toNat (n : UInt16) : parseU16 (decimal n.toNat) = some n := by
  have hlt := n.toNat_lt
  have hsize : n.toNat < u64Size := hlt.trans (by decide)
  have hfits : n.toNat < 65536 := hlt
  rw [parseU16, parseU64_decimal, if_pos hsize, Option.filter_some, if_pos (by simpa using hfits),
    Option.map_some, UInt16.ofNat_toNat]

/-- The line of a field changes the current peer. -/
theorem readLine_peerField {f : PeerField} (hf : f.Plain) :
    readLine L publicOf r f.line = .ok (r.onPeer fun p => f.apply p) := by
  cases f with
  | allowedIp cidr => exact readLine_text L publicOf .allowedIp hf
  | endpoint address => exact readLine_text L publicOf .endpoint hf
  | lastHandshake seconds =>
      have hread := readLine_text L publicOf (r := r) .lastHandshakeTimeSec
        (plainValue_decimal seconds.toNat)
      have hnever : (some seconds.toNat).filter (fun n => decide (n ≠ 0)) =
          if seconds.toNat = 0 then none else some seconds.toNat := by
        rw [Option.filter_some]
        split_ifs <;> simp_all
      rw [PeerField.line, hread, readValue, parseU64_toNat, hnever]
      rfl
  | rxBytes n =>
      have hread := readLine_text L publicOf (r := r) .rxBytes (plainValue_decimal n.toNat)
      rw [PeerField.line, hread, readValue, parseU64_toNat]
      rfl
  | txBytes n =>
      have hread := readLine_text L publicOf (r := r) .txBytes (plainValue_decimal n.toNat)
      rw [PeerField.line, hread, readValue, parseU64_toNat]
      rfl
  | other key value =>
      obtain ⟨hkey, hvalue, hnone⟩ := hf
      have hread := readLine_keyValue L publicOf (r := r) hkey hvalue
      rw [PeerField.line, hread, hnone]
      have hsame : r.onPeer (fun p => p) = r := by
        rw [Reading.onPeer, Option.map_id']
      exact congrArg Except.ok hsame.symm

/-- The line of a field before the first peer changes the interface. -/
theorem readLine_interfaceField {f : InterfaceField} (hf : f.Plain) (hnone : r.current = none) :
    readLine L publicOf r f.line = .ok { r with state := f.apply publicOf r.state } := by
  cases f with
  | privateKey bytes =>
      have hclean : PlainValue (hexLower bytes) :=
        plainValue_of_clean (forall_mem_hexLower (by decide) bytes)
      have hread := readLine_text L publicOf (r := r) .privateKey hclean
      rw [InterfaceField.line, hread, readValue, decodeHex32_hexLower L bytes.2]
      simp only [InterfaceField.apply]
      split <;> rfl
  | listenPort port =>
      have hread := readLine_text L publicOf (r := r) .listenPort (plainValue_decimal port.toNat)
      rw [InterfaceField.line, hread, readValue, parseU16_toNat]
      rfl
  | other key value =>
      obtain ⟨hkey, hvalue, hpeer⟩ := hf
      have hread := readLine_keyValue L publicOf (r := r) hkey hvalue
      have hsame : ∀ g, r.onPeer g = r := fun g => by
        rw [Reading.onPeer, hnone, Option.map_none, ← hnone]
      rw [InterfaceField.line, hread]
      cases hkey : UapiKey.ofText key with
      | none => rfl
      | some k =>
          have hofPeer := hpeer k hkey
          cases k with
          | errno | privateKey | interfacePublicKey | publicKey | listenPort => cases hofPeer
          | allowedIp | endpoint | lastHandshakeTimeSec | rxBytes | txBytes =>
              exact congrArg Except.ok (hsame _)

end Lines

section Runs

variable (L : Libraries) (publicOf : Bytes → Bytes)

variable {r : Reading}

theorem read_interfaceFields {fields : List InterfaceField} (hplain : ∀ f ∈ fields, f.Plain)
    (hnone : r.current = none) :
    (fields.map InterfaceField.line).foldlM (readLine L publicOf) r =
      .ok { r with state := fields.foldl (InterfaceField.apply publicOf) r.state } := by
  induction fields generalizing r with
  | nil => rfl
  | cons f fields ih =>
      obtain ⟨hf, hrest⟩ := List.forall_mem_cons.mp hplain
      rw [List.map_cons, List.foldlM_cons, readLine_interfaceField L publicOf hf hnone]
      exact ih hrest hnone

theorem read_peerFields {fields : List PeerField} (hplain : ∀ f ∈ fields, f.Plain) :
    (fields.map PeerField.line).foldlM (readLine L publicOf) r =
      .ok (r.onPeer fun p => fields.foldl PeerField.apply p) := by
  induction fields generalizing r with
  | nil => exact congrArg Except.ok (by rw [Reading.onPeer]; simp)
  | cons f fields ih =>
      obtain ⟨hf, hrest⟩ := List.forall_mem_cons.mp hplain
      rw [List.map_cons, List.foldlM_cons, readLine_peerField L publicOf hf]
      refine (ih hrest).trans (congrArg Except.ok ?_)
      rw [Reading.onPeer, Reading.onPeer, Reading.onPeer, Option.map_map]
      rfl

/-- What some fields make known of a peer, field by field. -/
theorem foldl_apply (fields : List PeerField) (p : PeerState) :
    fields.foldl PeerField.apply p =
      { publicKeyHex := p.publicKeyHex
        allowedIps := p.allowedIps ++ fields.filterMap PeerField.allowedIp?
        lastHandshakeUnix :=
          match (fields.filterMap PeerField.lastHandshake?).getLast? with
          | some seconds => if seconds.toNat = 0 then none else some seconds.toNat
          | none => p.lastHandshakeUnix
        endpoint := (fields.filterMap PeerField.endpoint?).getLast?.or p.endpoint
        rxBytes := ((fields.filterMap PeerField.rxBytes?).getLast?.map UInt64.toNat).getD p.rxBytes
        txBytes :=
          ((fields.filterMap PeerField.txBytes?).getLast?.map UInt64.toNat).getD p.txBytes } := by
  induction fields using List.reverseRecOn with
  | nil => simp
  | append_singleton fields f ih =>
      rw [List.foldl_append, List.foldl_cons, List.foldl_nil, ih]
      cases f <;>
        simp [PeerField.apply, PeerField.allowedIp?, PeerField.endpoint?,
          PeerField.lastHandshake?, PeerField.rxBytes?, PeerField.txBytes?]

theorem WritesPeer.foldl_apply {fields : List PeerField} {p : PeerState}
    (h : WritesPeer fields p) :
    fields.foldl PeerField.apply { publicKeyHex := p.publicKeyHex, allowedIps := [] } = p := by
  obtain ⟨seconds, hseconds, hhandshake⟩ := h.lastHandshake
  obtain ⟨rx, hrx, hrxBytes⟩ := h.rxBytes
  obtain ⟨tx, htx, htxBytes⟩ := h.txBytes
  have hendpoint : p.endpoint.toList.getLast?.or none = p.endpoint := by
    cases p.endpoint <;> rfl
  rw [Wg.foldl_apply, h.allowedIps, h.endpoint, hseconds, hrx, htx, hendpoint]
  simp only [List.nil_append, List.getLast?_singleton, Option.map_some, Option.getD_some,
    ← hhandshake, ← hrxBytes, ← htxBytes]

/-- What some fields make known of an interface. -/
theorem WritesInterface.foldl_apply {fields : List InterfaceField} {privateKey : Option Bytes}
    {listenPort : Option UInt16} (h : WritesInterface fields privateKey listenPort) :
    fields.foldl (InterfaceField.apply publicOf) ⟨none, none, []⟩ =
      ⟨privateKey.map fun bytes => hexLower (publicOf bytes), listenPort, []⟩ := by
  have hall : ∀ fields : List InterfaceField,
      fields.foldl (InterfaceField.apply publicOf) ⟨none, none, []⟩ =
        ⟨(fields.filterMap InterfaceField.privateKey?).head?.map fun bytes =>
            hexLower (publicOf bytes),
          (fields.filterMap InterfaceField.listenPort?).getLast?, []⟩ := by
    intro fields
    induction fields using List.reverseRecOn with
    | nil => rfl
    | append_singleton fields f ih =>
        rw [List.foldl_append, List.foldl_cons, List.foldl_nil, ih]
        cases f with
        | privateKey bytes =>
            cases hkeys : fields.filterMap InterfaceField.privateKey? with
            | nil => simp [InterfaceField.apply, InterfaceField.privateKey?,
                InterfaceField.listenPort?, hkeys]
            | cons key keys => simp [InterfaceField.apply, InterfaceField.privateKey?,
                InterfaceField.listenPort?, hkeys]
        | listenPort port =>
            simp [InterfaceField.apply, InterfaceField.privateKey?, InterfaceField.listenPort?]
        | other key value =>
            simp [InterfaceField.apply, InterfaceField.privateKey?, InterfaceField.listenPort?]
  rw [hall, h.privateKey, h.listenPort]
  cases privateKey <;> cases listenPort <;> rfl

/-- A peer that is read ends the one before it. -/
theorem read_peer {fields : List PeerField} {p : PeerState} (h : WritesPeer fields p) :
    (peerLines p fields).foldlM (readLine L publicOf) r =
      .ok { r with state := r.closed, current := some p } := by
  have hread := readLine_text L publicOf (r := r) .publicKey h.publicKey
  rw [peerLines, List.foldlM_cons, hread]
  refine (read_peerFields L publicOf h.plain).trans (congrArg Except.ok ?_)
  rw [Reading.onPeer]
  simp only [Option.map_some, h.foldl_apply]

/-- The peers that are read are appended, and nothing else changes. -/
theorem read_peers {peers : List (PeerState × List PeerField)}
    (h : ∀ p ∈ peers, WritesPeer p.2 p.1) :
    ∃ r', (peers.flatMap fun p => peerLines p.1 p.2).foldlM (readLine L publicOf) r = .ok r' ∧
      r'.closed = { r.closed with peers := r.closed.peers ++ peers.map Prod.fst } ∧
      r'.sawErrno = r.sawErrno := by
  induction peers generalizing r with
  | nil => exact ⟨r, rfl, by simp, rfl⟩
  | cons p peers ih =>
      obtain ⟨hp, hrest⟩ := List.forall_mem_cons.mp h
      obtain ⟨r', hread, hclosed, herrno⟩ :=
        ih (r := { r with state := r.closed, current := some p.1 }) hrest
      refine ⟨r', ?_, ?_, herrno⟩
      · rw [List.flatMap_cons, List.foldlM_append, read_peer L publicOf hp]
        exact hread
      · rw [hclosed]
        simp [Reading.closed]

/-- A line of a plain key and a plain value is a line of its text. -/
theorem line_keyValue {key value : Text} (hkey : PlainKey key) (hvalue : PlainValue value) :
    '\n' ∉ keyValue key value ∧ stripCarriageReturn (keyValue key value) = keyValue key value := by
  constructor
  · exact List.not_mem_append hkey.line (List.not_mem_cons_of_ne_of_not_mem (by decide) hvalue.line)
  · refine if_neg fun hlast => ?_
    rw [keyValue, List.getLast?_append_of_ne_nil _ (List.cons_ne_nil '=' value)] at hlast
    cases hcons : value with
    | nil =>
        rw [hcons] at hlast
        cases hlast
    | cons c rest =>
        rw [hcons, List.getLast?_cons_cons, ← hcons] at hlast
        exact absurd (hvalue.last '\r' hlast) (by decide)

theorem line_interfaceField {f : InterfaceField} (hf : f.Plain) :
    '\n' ∉ f.line ∧ stripCarriageReturn f.line = f.line := by
  cases f with
  | privateKey bytes =>
      exact line_keyValue (plainKey_text _)
        (plainValue_of_clean (forall_mem_hexLower (by decide) bytes))
  | listenPort port => exact line_keyValue (plainKey_text _) (plainValue_decimal _)
  | other key value => exact line_keyValue hf.1 hf.2.1

theorem line_peerField {f : PeerField} (hf : f.Plain) :
    '\n' ∉ f.line ∧ stripCarriageReturn f.line = f.line := by
  cases f with
  | allowedIp cidr => exact line_keyValue (plainKey_text _) hf
  | endpoint address => exact line_keyValue (plainKey_text _) hf
  | lastHandshake _ | rxBytes _ | txBytes _ =>
      exact line_keyValue (plainKey_text _) (plainValue_decimal _)
  | other key value => exact line_keyValue hf.1 hf.2.1

/-- The lines of an answer are those it was written with. -/
theorem lines_answerText {fields : List InterfaceField} {peers : List (PeerState × List PeerField)}
    (hfields : ∀ f ∈ fields, f.Plain) (hpeers : ∀ p ∈ peers, WritesPeer p.2 p.1) (blanks : Nat) :
    Text.lines (answerText fields peers blanks) =
      fields.map InterfaceField.line ++ (peers.flatMap (fun p => peerLines p.1 p.2) ++
        keyValue UapiKey.errno.text ['0'] :: List.replicate blanks []) := by
  have hline : ∀ t ∈ fields.map InterfaceField.line ++
      peers.flatMap (fun p => peerLines p.1 p.2) ++
      keyValue UapiKey.errno.text ['0'] :: List.replicate blanks [],
      '\n' ∉ t ∧ stripCarriageReturn t = t := by
    intro t ht
    simp only [List.mem_append, List.mem_map, List.mem_flatMap, List.mem_cons] at ht
    obtain (⟨f, hf, rfl⟩ | ⟨p, hp, ht⟩) | rfl | ht := ht
    · exact line_interfaceField (hfields f hf)
    · have hwrites := hpeers p hp
      obtain rfl | ht := List.mem_cons.mp ht
      · exact line_keyValue (plainKey_text _) hwrites.publicKey
      · obtain ⟨f, hf, rfl⟩ := List.mem_map.mp ht
        exact line_peerField (hwrites.plain f hf)
    · exact line_keyValue (plainKey_text _) (plainValue_decimal 0)
    · rw [List.eq_of_mem_replicate ht]
      exact ⟨List.not_mem_nil, rfl⟩
  have hlines := lines_terminated_append (fun t ht => (hline t ht).1) []
  rw [List.append_nil, lines_nil, List.append_nil] at hlines
  rw [answerText, hlines, List.map_congr_left fun t ht => (hline t ht).2, List.map_id',
    List.append_assoc]

theorem read_blanks (blanks : Nat) :
    (List.replicate blanks []).foldlM (readLine L publicOf) r = .ok r := by
  induction blanks with
  | zero => rfl
  | succ blanks ih =>
      rw [List.replicate_succ, List.foldlM_cons]
      exact ih

/-- An answer is read back as it was written. -/
theorem parseGet_answerText {fields : List InterfaceField} {privateKey : Option Bytes}
    {listenPort : Option UInt16} {peers : List (PeerState × List PeerField)}
    (hfields : WritesInterface fields privateKey listenPort)
    (hpeers : ∀ p ∈ peers, WritesPeer p.2 p.1) (blanks : Nat) :
    parseGet L publicOf (answerText fields peers blanks) =
      .ok ⟨privateKey.map fun bytes => hexLower (publicOf bytes), listenPort,
        peers.map Prod.fst⟩ := by
  obtain ⟨r', hread, hclosed, -⟩ := read_peers L publicOf
    (r := { Reading.start with
            state := fields.foldl (InterfaceField.apply publicOf) Reading.start.state }) hpeers
  have herrno : readLine L publicOf r' (keyValue UapiKey.errno.text ['0']) =
      .ok { r' with sawErrno := true } :=
    (readLine_text L publicOf .errno (plainValue_decimal 0)).trans rfl
  have hfold : (Text.lines (answerText fields peers blanks)).foldlM (readLine L publicOf) .start =
      .ok { r' with sawErrno := true } := by
    rw [lines_answerText hfields.plain hpeers,
      foldlM_append_ok (read_interfaceFields L publicOf hfields.plain rfl),
      foldlM_append_ok hread, List.foldlM_cons, herrno]
    exact read_blanks L publicOf blanks
  have hstate : ({ r' with sawErrno := true } : Reading).closed = r'.closed := rfl
  rw [parseGet, hfold]
  refine congrArg Except.ok ?_
  rw [hstate, hclosed]
  simp only [Reading.closed, Reading.start, hfields.foldl_apply publicOf, Option.toList_none,
    List.append_nil, List.nil_append]

/-- An answer without an `errno` is not accepted. -/
theorem parseGet_of_no_errno {response : Text}
    (h : ∀ line ∈ Text.lines response, ∀ value,
      splitOnce '=' line.trim ≠ some (UapiKey.errno.text, value)) (s : InterfaceState) :
    parseGet L publicOf response ≠ .ok s := by
  have hkey : ∀ key, UapiKey.ofText key = some .errno → key = UapiKey.errno.text := by
    intro key hkey
    rw [UapiKey.ofText] at hkey
    have hfound := List.find?_some hkey
    exact (of_decide_eq_true hfound).symm
  have hline : ∀ r r' line, (∀ value, splitOnce '=' line.trim ≠ some (UapiKey.errno.text, value)) →
      readLine L publicOf r line = .ok r' → r'.sawErrno = r.sawErrno := by
    intro r r' line hno hread
    rw [readLine] at hread
    split at hread
    · cases hread
      rfl
    · split at hread
      · cases hread
      · next key value hsplit =>
          split at hread
          · next k hk =>
              cases k with
              | errno => exact absurd (hkey key hk ▸ hsplit) (hno value)
              | privateKey =>
                  rw [readValue] at hread
                  split at hread
                  · cases hread
                    rfl
                  · split at hread <;> cases hread <;> rfl
              | interfacePublicKey =>
                  rw [readValue] at hread
                  split at hread <;> cases hread <;> rfl
              | _ => cases hread; rfl
          · cases hread
            rfl
  have hrun : ∀ (lines : List Text) (r r' : Reading), (∀ line ∈ lines, ∀ value,
      splitOnce '=' line.trim ≠ some (UapiKey.errno.text, value)) →
      lines.foldlM (readLine L publicOf) r = .ok r' → r'.sawErrno = r.sawErrno := by
    intro lines
    induction lines with
    | nil =>
        intro r r' _ hread
        cases hread
        rfl
    | cons line lines ih =>
        intro r r' hno hread
        obtain ⟨hfirst, hrest⟩ := List.forall_mem_cons.mp hno
        rw [List.foldlM_cons] at hread
        cases hnext : readLine L publicOf r line with
        | error e =>
            rw [hnext] at hread
            cases hread
        | ok next =>
            rw [hnext] at hread
            exact (ih next r' hrest hread).trans (hline r next line hfirst hnext)
  intro hok
  rw [parseGet] at hok
  cases hread : (Text.lines response).foldlM (readLine L publicOf) .start with
  | error e =>
      rw [hread] at hok
      cases hok
  | ok r =>
      rw [hread] at hok
      simp only [bind, Except.bind, hrun _ _ r h hread, Reading.start, Bool.false_eq_true,
        if_false] at hok
      cases hok

end Runs

/-- The fields of a peer in one order. -/
def fieldsOf (p : PeerState) : List PeerField :=
  p.allowedIps.map .allowedIp ++ (p.endpoint.toList.map .endpoint ++
    [.lastHandshake (UInt64.ofNat (p.lastHandshakeUnix.getD 0)), .rxBytes (UInt64.ofNat p.rxBytes),
      .txBytes (UInt64.ofNat p.txBytes)])

/-- A peer that the daemon can report: its texts are plain values, its numbers are counters and
its handshake, if there was one, is not at the epoch. -/
structure Reportable (p : PeerState) : Prop where
  publicKey : PlainValue p.publicKeyHex
  allowedIps : ∀ cidr ∈ p.allowedIps, PlainValue cidr
  endpoint : ∀ address, p.endpoint = some address → PlainValue address
  lastHandshake : ∀ seconds, p.lastHandshakeUnix = some seconds → 0 < seconds ∧ seconds < u64Size
  rxBytes : p.rxBytes < u64Size
  txBytes : p.txBytes < u64Size

section Fields

variable (xs : List Text) (f : Text → PeerField)

theorem filterMap_map_none {α : Type} (g : PeerField → Option α) (hg : ∀ x, g (f x) = none) :
    (xs.map f).filterMap g = [] := by
  rw [List.filterMap_map, List.filterMap_eq_nil_iff]
  exact fun x _ => hg x

theorem filterMap_map_some (g : PeerField → Option Text) (hg : ∀ x, g (f x) = some x) :
    (xs.map f).filterMap g = xs := by
  rw [List.filterMap_map, show g ∘ f = some from funext hg, List.filterMap_some]

end Fields

/-- Every reportable peer is written by its fields. -/
theorem writesPeer_fieldsOf {p : PeerState} (h : Reportable p) : WritesPeer (fieldsOf p) p := by
  have hcounter : ∀ n, n < u64Size → n = (UInt64.ofNat n).toNat := fun n hn =>
    (UInt64.toNat_ofNat_of_lt' hn).symm
  refine ⟨?_, h.publicKey, ?_, ?_, ⟨UInt64.ofNat (p.lastHandshakeUnix.getD 0), ?_, ?_⟩,
    ⟨UInt64.ofNat p.rxBytes, ?_, hcounter _ h.rxBytes⟩,
    ⟨UInt64.ofNat p.txBytes, ?_, hcounter _ h.txBytes⟩⟩
  · intro f hf
    simp only [fieldsOf, List.mem_append, List.mem_map, Option.mem_toList, List.mem_cons,
      List.not_mem_nil, or_false] at hf
    obtain ⟨cidr, hcidr, rfl⟩ | ⟨address, haddress, rfl⟩ | rfl | rfl | rfl := hf
    · exact h.allowedIps cidr hcidr
    · exact h.endpoint address haddress
    all_goals trivial
  · rw [fieldsOf, List.filterMap_append, List.filterMap_append, filterMap_map_some _ _ _ fun _ => rfl,
      filterMap_map_none _ _ _ fun _ => rfl]
    simp [PeerField.allowedIp?]
  · rw [fieldsOf, List.filterMap_append, List.filterMap_append, filterMap_map_none _ _ _ fun _ => rfl,
      filterMap_map_some _ _ _ fun _ => rfl]
    simp [PeerField.endpoint?]
  · rw [fieldsOf, List.filterMap_append, List.filterMap_append, filterMap_map_none _ _ _ fun _ => rfl,
      filterMap_map_none _ _ _ fun _ => rfl]
    rfl
  · cases hseconds : p.lastHandshakeUnix with
    | none => rfl
    | some seconds =>
        obtain ⟨hpos, hlt⟩ := h.lastHandshake seconds hseconds
        rw [Option.getD_some, ← hcounter seconds hlt, if_neg (by omega)]
  · rw [fieldsOf, List.filterMap_append, List.filterMap_append, filterMap_map_none _ _ _ fun _ => rfl,
      filterMap_map_none _ _ _ fun _ => rfl]
    rfl
  · rw [fieldsOf, List.filterMap_append, List.filterMap_append, filterMap_map_none _ _ _ fun _ => rfl,
      filterMap_map_none _ _ _ fun _ => rfl]
    rfl

/-- What the daemon writes of an interface and its peers is read as they are, with the identity
derived from the private key. Every reportable peer can be written, and an answer without an
`errno` is not accepted. -/
structure ReadsBack (L : Libraries) (publicOf : Bytes → Bytes) : Prop where
  read : ∀ fields privateKey listenPort peers blanks,
    WritesInterface fields privateKey listenPort → (∀ p ∈ peers, WritesPeer p.2 p.1) →
    parseGet L publicOf (answerText fields peers blanks) =
      .ok ⟨privateKey.map fun bytes => hexLower (publicOf bytes), listenPort, peers.map Prod.fst⟩
  written : ∀ p, Reportable p → WritesPeer (fieldsOf p) p
  errno : ∀ response, (∀ line ∈ Text.lines response, ∀ value,
      splitOnce '=' line.trim ≠ some (UapiKey.errno.text, value)) →
    ∀ s, parseGet L publicOf response ≠ .ok s

/-- **The answer is read back per peer.** -/
theorem reads_back (L : Libraries) (publicOf : Bytes → Bytes) : ReadsBack L publicOf where
  read := fun _ _ _ _ blanks hfields hpeers => parseGet_answerText L publicOf hfields hpeers blanks
  written := fun _ => writesPeer_fieldsOf
  errno := fun _ h => parseGet_of_no_errno L publicOf h

section Example

/-- A peer whose endpoint ends in a blank. -/
def blankEndpoint : PeerState where
  publicKeyHex := "aa".toList
  allowedIps := []
  endpoint := some "198.51.100.7:51820 ".toList

/-- The blank at the end of a value is not read back. -/
theorem blank_not_read_back : (∀ line ∈ peerLines blankEndpoint (fieldsOf blankEndpoint),
      '\n' ∉ line) ∧
    parseGet plainLibraries id (answerText [] [(blankEndpoint, fieldsOf blankEndpoint)] 1) ≠
      .ok ⟨none, none, [blankEndpoint]⟩ := by
  have hread : (parseGet plainLibraries id
      (answerText [] [(blankEndpoint, fieldsOf blankEndpoint)] 1)).toOption.map (·.peers) ≠
        some [blankEndpoint] := by
    decide +kernel
  refine ⟨by decide, fun h => hread ?_⟩
  rw [h]
  rfl

end Example

end Genaryx.Wg
