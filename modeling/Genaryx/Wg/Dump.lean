import Genaryx.Base.Base64
import Genaryx.Wg.ReadBack

/-!
# The other backend

Where the console cannot reach the daemon's socket it reads what `wg show dump` prints: a line of
the interface and a line for each peer, in columns. What it reads is what the answer of the
daemon is read as, but for a port that is not there: the dump prints zero for it, and the
daemon leaves its line out.

## Implementation notes

The dump is printed as `wireguard-tools` prints it, and the answer as `wireguard-go` does. Both
give addresses the same text.
-/

namespace Genaryx.Wg

open Base Json Text

/-! ## Reading a dump -/

/-- What is printed for what is not there. -/
def noneMark : Text := "(none)"

/-- A column that gives something. -/
def given (f : List Text) (i : Nat) : Option Text :=
  f[i]?.filter fun s => !s.isEmpty && s ≠ noneMark

variable (L : Libraries)

/-- The peer of a line, if its first column is a key. -/
def dumpPeer (f : List Text) : Option PeerState := do
  let b64 ← f[0]?.filter fun s => !s.isEmpty
  let publicKeyHex ← (b64ToHex L b64).toOption
  return {
    publicKeyHex := publicKeyHex
    allowedIps := ((given f 3).map fun s => (s.splitOn ',').map Text.trim).getD []
    lastHandshakeUnix := (f[4]?.bind parseU64).filter (· ≠ 0)
    endpoint := given f 2
    rxBytes := (f[5]?.bind parseU64).getD 0
    txBytes := (f[6]?.bind parseU64).getD 0 }

/-- Parse `wg show <iface> dump`. -/
def parseWgDump (dump : Text) : InterfaceState :=
  match ((lines dump).filter fun line => !(trim line).isEmpty).map (·.splitOn '\t') with
  | [] => ⟨none, none, []⟩
  | f :: peers =>
      { publicKeyHex := (given f 1).bind fun b64 => (b64ToHex L b64).toOption
        listenPort := f[2]?.bind parseU16
        peers := peers.filterMap (dumpPeer L) }

/-! ## Printing an interface -/

/-- A key of 32 bytes. -/
abbrev Key := { bytes : Bytes // bytes.length = 32 }

/-- An address in print. -/
structure Shown (t : Text) : Prop where
  ne_nil : t ≠ []
  ne_none : t ≠ noneMark
  clean : ∀ c ∈ t, isWhitespace c = false

/-- A peer of an interface. -/
structure DevicePeer where
  publicKey : Key
  presharedKey : Option Key
  endpoint : Option Text
  allowedIps : List Text
  lastHandshakeSec : UInt64
  lastHandshakeNsec : UInt32
  rxBytes : UInt64
  txBytes : UInt64
  persistentKeepalive : UInt16
  endpoint_shown : ∀ address, endpoint = some address → Shown address
  allowedIps_shown : ∀ cidr ∈ allowedIps, Shown cidr ∧ ',' ∉ cidr

/-- An interface. -/
structure Device where
  privateKey : Option Key
  listenPort : Option UInt16
  fwmark : UInt32
  peers : List DevicePeer
  listenPort_ne : listenPort ≠ some 0
  distinct : (peers.map DevicePeer.publicKey).Nodup

/-- The keys as both tools handle them: base64 has 44 characters for a key, and a private key has
a public one. -/
structure KeyTools where
  libraries : Libraries
  publicOf : Bytes → Bytes
  lawful : libraries.Lawful
  length_base64 : ∀ bytes, bytes.length = 32 → (libraries.base64 bytes).length = 44
  length_publicOf : ∀ bytes, bytes.length = 32 → (publicOf bytes).length = 32

/-- A number, or `off` for zero. -/
def orOff (n : Nat) : Text := if n = 0 then "off".toList else decimal n

namespace DevicePeer

variable (K : KeyTools) (p : DevicePeer)

def allowedColumn : Text :=
  if p.allowedIps.isEmpty then noneMark else [','].intercalate p.allowedIps

/-- The columns of a peer. -/
def columns : List Text :=
  [K.libraries.base64 p.publicKey,
    p.presharedKey.elim noneMark fun key : Key => K.libraries.base64 key,
    p.endpoint.getD noneMark, p.allowedColumn, decimal p.lastHandshakeSec.toNat,
    decimal p.rxBytes.toNat, decimal p.txBytes.toNat, orOff p.persistentKeepalive.toNat]

/-- What an answer says of a peer. -/
def fields : List PeerField :=
  [.other "preshared_key".toList (hexLower (p.presharedKey.elim (List.replicate 32 0) (·.val))),
    .other "protocol_version".toList ['1']] ++
  p.endpoint.toList.map .endpoint ++
  [.lastHandshake p.lastHandshakeSec,
    .other "last_handshake_time_nsec".toList (decimal p.lastHandshakeNsec.toNat),
    .txBytes p.txBytes, .rxBytes p.rxBytes,
    .other "persistent_keepalive_interval".toList (decimal p.persistentKeepalive.toNat)] ++
  p.allowedIps.map .allowedIp

/-- A peer as it is reported. -/
def state : PeerState where
  publicKeyHex := hexLower p.publicKey
  allowedIps := p.allowedIps
  lastHandshakeUnix := if p.lastHandshakeSec.toNat = 0 then none else some p.lastHandshakeSec.toNat
  endpoint := p.endpoint
  rxBytes := p.rxBytes.toNat
  txBytes := p.txBytes.toNat

end DevicePeer

namespace Device

variable (K : KeyTools) (d : Device)

/-- The columns of the interface. -/
def columns : List Text :=
  [d.privateKey.elim noneMark fun key : Key => K.libraries.base64 key,
    d.privateKey.elim noneMark fun key : Key => K.libraries.base64 (K.publicOf key),
    decimal (d.listenPort.elim 0 UInt16.toNat),
    if d.fwmark = 0 then "off".toList else "0x".toList ++ Nat.toDigits 16 d.fwmark.toNat]

/-- What `wg show <iface> dump` prints. -/
def dumpText : Text :=
  Framing.terminated '\n'
    ((d.columns K :: d.peers.map (DevicePeer.columns K)).map fun f => ['\t'].intercalate f)

/-- What an answer says of the interface. -/
def fields : List InterfaceField :=
  d.privateKey.toList.map .privateKey ++ d.listenPort.toList.map .listenPort ++
    if d.fwmark = 0 then [] else [.other "fwmark".toList (decimal d.fwmark.toNat)]

/-- What the daemon answers to `get=1`. -/
def getText : Text := answerText d.fields (d.peers.map fun p => (p.state, p.fields)) 1

/-- The identity that is reported. -/
def identity : Option Text := d.privateKey.map fun key : Key => hexLower (K.publicOf key)

end Device

/-! ## What is read -/

/-- A text without white space. -/
def Clean (t : Text) : Prop := ∀ c ∈ t, isWhitespace c = false

section Columns

theorem clean_noneMark : Clean noneMark := by
  intro c hc
  exact List.all_eq_true.mp (by decide : noneMark.all (fun c => isWhitespace c == false) = true) c hc
    |> eq_of_beq

theorem clean_decimal (n : Nat) : Clean (decimal n) := fun _ => not_isWhitespace_of_mem_decimal

theorem clean_orOff (n : Nat) : Clean (orOff n) := by
  rw [orOff]
  split
  · exact (by decide : ∀ c ∈ "off".toList, isWhitespace c = false)
  · exact clean_decimal n

/-- What is in a joined text is in a part or separates two. -/
theorem mem_intercalate {sep c : Char} {parts : List Text} (hsep : ∀ part ∈ parts, sep ∉ part)
    (hne : parts ≠ []) (h : c ∈ [sep].intercalate parts) : c = sep ∨ ∃ part ∈ parts, c ∈ part := by
  have hsplit := List.splitOn_intercalate sep hsep hne
  have hmem := eq_or_mem_of_mem_splitOn sep h
  rwa [hsplit] at hmem

variable {f : List Text}

theorem tab_notMem (hclean : ∀ t ∈ f, Clean t) : ∀ t ∈ f, '\t' ∉ t := fun t ht hmem =>
  absurd (hclean t ht _ hmem) (by decide)

/-- A line is split into its columns. -/
theorem splitOn_line (hclean : ∀ t ∈ f, Clean t) (hne : f ≠ []) :
    (['\t'].intercalate f).splitOn '\t' = f :=
  List.splitOn_intercalate '\t' (tab_notMem hclean) hne

/-- A line has no line break. -/
theorem notMem_line (hclean : ∀ t ∈ f, Clean t) (hne : f ≠ []) {c : Char}
    (hc : isWhitespace c = true) (htab : c ≠ '\t') : c ∉ ['\t'].intercalate f := by
  intro hmem
  rcases mem_intercalate (tab_notMem hclean) hne hmem with heq | ⟨part, hpart, hmem⟩
  · exact htab heq
  · rw [hclean part hpart c hmem] at hc
    cases hc

/-- A line whose first column is not empty is not blank. -/
theorem nonblank_line {t : Text} {rest : List Text} (hclean : Clean t) (hne : t ≠ []) :
    trim (['\t'].intercalate (t :: rest)) ≠ [] := by
  obtain ⟨c, cs, rfl⟩ := List.exists_cons_of_ne_nil hne
  refine trim_ne_nil (c := c) ?_ (hclean c List.mem_cons_self)
  cases rest with
  | nil => exact List.mem_append_left _ List.mem_cons_self
  | cons next rest =>
      rw [List.intercalate_cons_cons]
      exact List.mem_append_left _ (List.mem_append_left _ List.mem_cons_self)

theorem given_of_eq {i : Nat} {t : Text} (h : f[i]? = some t) (hne : t ≠ []) (hnone : t ≠ noneMark) :
    given f i = some t := by
  rw [given, h, Option.filter_some, if_pos]
  simp [hne, hnone]

theorem given_of_none {i : Nat} (h : f[i]? = some noneMark) : given f i = none := by
  rw [given, h, Option.filter_some, if_neg]
  simp

end Columns

namespace KeyTools

variable (K : KeyTools)

theorem base64_ne (key : Key) :
    K.libraries.base64 key ≠ [] ∧ K.libraries.base64 key ≠ noneMark := by
  have hlength := K.length_base64 key key.2
  constructor
  · intro h
    rw [h] at hlength
    cases hlength
  · intro h
    rw [h] at hlength
    exact absurd hlength (by decide)

/-- A key in print is read. -/
theorem b64ToHex_base64 (key : Key) : b64ToHex K.libraries (K.libraries.base64 key) =
    .ok (hexLower key) :=
  Wg.b64ToHex_base64 K.lawful key.2

end KeyTools

namespace DevicePeer

variable (K : KeyTools) (p : DevicePeer)

theorem splitOn_allowed (h : p.allowedIps ≠ []) :
    ([','].intercalate p.allowedIps).splitOn ',' = p.allowedIps :=
  List.splitOn_intercalate ',' (fun cidr hcidr => (p.allowedIps_shown cidr hcidr).2) h

theorem clean_allowedColumn : Clean p.allowedColumn := by
  intro c hc
  rw [allowedColumn] at hc
  split at hc
  · exact clean_noneMark c hc
  · next hne =>
      have hne : p.allowedIps ≠ [] := fun hnil => hne (by rw [hnil]; rfl)
      rcases mem_intercalate (fun cidr hcidr => (p.allowedIps_shown cidr hcidr).2) hne hc with
        rfl | ⟨cidr, hcidr, hmem⟩
      · rfl
      · exact (p.allowedIps_shown cidr hcidr).1.clean c hmem

theorem clean_columns : ∀ t ∈ p.columns K, Clean t := by
  simp only [columns, List.forall_mem_cons]
  refine ⟨K.lawful.clean _, ?_, ?_, p.clean_allowedColumn, clean_decimal _, clean_decimal _,
    clean_decimal _, clean_orOff _, List.forall_mem_nil _⟩
  · cases p.presharedKey with
    | none => exact clean_noneMark
    | some key => exact K.lawful.clean _
  · cases hendpoint : p.endpoint with
    | none => exact clean_noneMark
    | some address => exact (p.endpoint_shown address hendpoint).clean

/-- The allowed addresses are read from their column. -/
theorem given_allowedColumn :
    ((given (p.columns K) 3).map fun s => (s.splitOn ',').map trim).getD [] = p.allowedIps := by
  have hcolumn : (p.columns K)[3]? = some p.allowedColumn := rfl
  rcases eq_or_ne p.allowedIps [] with hnil | hne
  · have hmark : p.allowedColumn = noneMark := if_pos (by rw [hnil]; rfl)
    rw [hmark] at hcolumn
    rw [given_of_none hcolumn, hnil]
    rfl
  · have hjoined : p.allowedColumn = [','].intercalate p.allowedIps :=
      if_neg (by simpa using hne)
    have hsplit := p.splitOn_allowed hne
    rw [← hjoined] at hsplit
    have hempty : p.allowedColumn ≠ [] := by
      intro hnil
      rw [hnil, List.splitOn_nil] at hsplit
      exact (p.allowedIps_shown [] (hsplit ▸ List.mem_cons_self)).1.ne_nil rfl
    have hmark : p.allowedColumn ≠ noneMark := by
      intro hmark
      rw [hmark] at hsplit
      have hone : noneMark.splitOn ',' = [noneMark] := by decide
      exact (p.allowedIps_shown noneMark (hsplit ▸ hone ▸ List.mem_cons_self)).1.ne_none rfl
    rw [given_of_eq hcolumn hempty hmark, Option.map_some, Option.getD_some, hsplit]
    refine (List.map_congr_left fun cidr hcidr => ?_).trans (List.map_id p.allowedIps)
    exact trim_of_clean (p.allowedIps_shown cidr hcidr).1.clean

theorem given_endpoint : given (p.columns K) 2 = p.endpoint := by
  have hcolumn : (p.columns K)[2]? = some (p.endpoint.getD noneMark) := rfl
  cases hendpoint : p.endpoint with
  | none =>
      rw [hendpoint, Option.getD_none] at hcolumn
      exact given_of_none hcolumn
  | some address =>
      rw [hendpoint, Option.getD_some] at hcolumn
      have hshown := p.endpoint_shown address hendpoint
      exact given_of_eq hcolumn hshown.ne_nil hshown.ne_none

/-- A peer is read from its line. -/
theorem dumpPeer_columns : dumpPeer K.libraries (p.columns K) = some p.state := by
  have hkey : (p.columns K)[0]?.filter (fun s => !s.isEmpty) =
      some (K.libraries.base64 p.publicKey) := by
    have hcolumn : (p.columns K)[0]? = some (K.libraries.base64 p.publicKey) := rfl
    rw [hcolumn, Option.filter_some, if_pos]
    simp [(K.base64_ne p.publicKey).1]
  have hnumber : ∀ (i : Nat) (n : UInt64), (p.columns K)[i]? = some (decimal n.toNat) →
      (p.columns K)[i]?.bind parseU64 = some n.toNat := fun i n h => by
    rw [h, Option.bind_some, parseU64_toNat]
  rw [dumpPeer, hkey, given_allowedColumn, given_endpoint, hnumber 4 _ rfl, hnumber 5 _ rfl,
    hnumber 6 _ rfl]
  simp only [Option.bind_eq_bind, Option.bind_some, K.b64ToHex_base64, Except.toOption,
    Option.getD_some, Option.pure_def, Option.filter_some]
  rw [state]
  by_cases hzero : p.lastHandshakeSec.toNat = 0
  · simp [hzero]
  · simp [hzero]

theorem plain_other {key value : Text} (hline : '\n' ∉ key) (hequals : '=' ∉ key)
    (hhead : key.head?.all (!isWhitespace ·) = true) (hunread : UapiKey.ofText key = none)
    (hvalue : Clean value) : (PeerField.other key value).Plain :=
  ⟨plainKey_of hline hequals hhead, plainValue_of_clean hvalue, hunread⟩

theorem plain_fields : ∀ f ∈ p.fields, f.Plain := by
  have hpreshared : Clean (hexLower (p.presharedKey.elim (List.replicate 32 0) (·.val))) :=
    forall_mem_hexLower (by decide) _
  have haddress : ∀ f ∈ p.endpoint.toList.map PeerField.endpoint, f.Plain := by
    intro f hf
    obtain ⟨address, haddress, rfl⟩ := List.mem_map.mp hf
    exact plainValue_of_clean (p.endpoint_shown address (Option.mem_toList.mp haddress)).clean
  have hallowed : ∀ f ∈ p.allowedIps.map PeerField.allowedIp, f.Plain := by
    intro f hf
    obtain ⟨cidr, hcidr, rfl⟩ := List.mem_map.mp hf
    exact plainValue_of_clean (p.allowedIps_shown cidr hcidr).1.clean
  simp only [fields, List.forall_mem_append, List.forall_mem_cons]
  refine ⟨⟨⟨⟨?_, ?_, List.forall_mem_nil _⟩, haddress⟩, trivial, ?_, trivial, trivial, ?_,
    List.forall_mem_nil _⟩, hallowed⟩
  · exact plain_other (by decide) (by decide) (by decide) (by decide) hpreshared
  · exact plain_other (by decide) (by decide) (by decide) (by decide) (clean_decimal 1)
  · exact plain_other (by decide) (by decide) (by decide) (by decide) (clean_decimal _)
  · exact plain_other (by decide) (by decide) (by decide) (by decide) (clean_decimal _)

/-- The fields of a peer write it. -/
theorem writesPeer_fields : WritesPeer p.fields p.state := by
  refine ⟨p.plain_fields, ?_, ?_, ?_, ⟨p.lastHandshakeSec, ?_, rfl⟩, ⟨p.rxBytes, ?_, rfl⟩,
    ⟨p.txBytes, ?_, rfl⟩⟩
  · exact plainValue_of_clean (forall_mem_hexLower (by decide) _)
  · simp only [fields, List.filterMap_append,
      filterMap_map_some p.allowedIps PeerField.allowedIp PeerField.allowedIp? fun _ => rfl,
      filterMap_map_none _ PeerField.endpoint PeerField.allowedIp? fun _ => rfl]
    rfl
  · simp only [fields, List.filterMap_append,
      filterMap_map_some p.endpoint.toList PeerField.endpoint PeerField.endpoint? fun _ => rfl,
      filterMap_map_none _ PeerField.allowedIp PeerField.endpoint? fun _ => rfl]
    simp only [List.filterMap_cons, PeerField.endpoint?, List.filterMap_nil, List.nil_append,
      List.append_nil, state]
  · simp only [fields, List.filterMap_append,
      filterMap_map_none _ PeerField.endpoint PeerField.lastHandshake? fun _ => rfl,
      filterMap_map_none _ PeerField.allowedIp PeerField.lastHandshake? fun _ => rfl]
    rfl
  · simp only [fields, List.filterMap_append,
      filterMap_map_none _ PeerField.endpoint PeerField.rxBytes? fun _ => rfl,
      filterMap_map_none _ PeerField.allowedIp PeerField.rxBytes? fun _ => rfl]
    rfl
  · simp only [fields, List.filterMap_append,
      filterMap_map_none _ PeerField.endpoint PeerField.txBytes? fun _ => rfl,
      filterMap_map_none _ PeerField.allowedIp PeerField.txBytes? fun _ => rfl]
    rfl

end DevicePeer

namespace Device

variable (K : KeyTools) (d : Device)

theorem clean_toDigits (n : Nat) : Clean (Nat.toDigits 16 n) := by
  intro c hc
  obtain ⟨digit, hdigit, rfl⟩ := exists_digitChar_of_mem_toDigits (by decide) hc
  have hall : ∀ k : Fin 16, isWhitespace (Nat.digitChar k) = false := by decide
  exact hall ⟨digit, hdigit⟩

theorem clean_columns : ∀ t ∈ d.columns K, Clean t := by
  simp only [columns, List.forall_mem_cons]
  refine ⟨?_, ?_, clean_decimal _, ?_, List.forall_mem_nil _⟩
  · cases d.privateKey with
    | none => exact clean_noneMark
    | some key => exact K.lawful.clean _
  · cases d.privateKey with
    | none => exact clean_noneMark
    | some key => exact K.lawful.clean _
  · split
    · exact (by decide : ∀ c ∈ "off".toList, isWhitespace c = false)
    · intro c hc
      rcases List.mem_append.mp hc with h | h
      · exact (by decide : ∀ c ∈ "0x".toList, isWhitespace c = false) c h
      · exact clean_toDigits _ c h

/-- The lines of a dump, by their columns. -/
theorem rows_dumpText : ((lines (d.dumpText K)).filter fun line => !(trim line).isEmpty).map
    (·.splitOn '\t') = d.columns K :: d.peers.map (DevicePeer.columns K) := by
  have hrows : ∀ f ∈ d.columns K :: d.peers.map (DevicePeer.columns K),
      (∀ t ∈ f, Clean t) ∧ ∃ t rest, f = t :: rest ∧ t ≠ [] := by
    intro f hf
    rcases List.mem_cons.mp hf with rfl | hf
    · refine ⟨d.clean_columns K, _, _, rfl, ?_⟩
      cases d.privateKey with
      | none => exact List.cons_ne_nil _ _
      | some key => exact (K.base64_ne key).1
    · obtain ⟨p, -, rfl⟩ := List.mem_map.mp hf
      exact ⟨p.clean_columns K, _, _, rfl, (K.base64_ne p.publicKey).1⟩
  generalize hrest : d.columns K :: d.peers.map (DevicePeer.columns K) = rows at hrows
  have hline : ∀ f ∈ rows, '\n' ∉ ['\t'].intercalate f ∧ '\r' ∉ ['\t'].intercalate f := by
    intro f hf
    obtain ⟨hclean, t, rest, rfl, -⟩ := hrows f hf
    exact ⟨notMem_line hclean (List.cons_ne_nil _ _) (by decide) (by decide),
      notMem_line hclean (List.cons_ne_nil _ _) (by decide) (by decide)⟩
  have hlines : lines (d.dumpText K) = rows.map fun f => ['\t'].intercalate f := by
    have hclean : ∀ t ∈ rows.map fun f => ['\t'].intercalate f, '\n' ∉ t := by
      intro t ht
      obtain ⟨f, hf, rfl⟩ := List.mem_map.mp ht
      exact (hline f hf).1
    have hall := lines_terminated_append hclean []
    rw [List.append_nil, lines_nil, List.append_nil] at hall
    rw [dumpText, hrest, hall, List.map_map]
    exact List.map_congr_left fun f hf => stripCarriageReturn_of_notMem (hline f hf).2
  have hfilter : (lines (d.dumpText K)).filter (fun line => !(trim line).isEmpty) =
      lines (d.dumpText K) := by
    refine List.filter_eq_self.mpr fun line hmem => ?_
    rw [hlines] at hmem
    obtain ⟨f, hf, rfl⟩ := List.mem_map.mp hmem
    obtain ⟨hclean, t, rest, rfl, hne⟩ := hrows f hf
    simpa using nonblank_line (hclean t List.mem_cons_self) hne
  rw [hfilter, hlines, List.map_map]
  refine (List.map_congr_left fun f hf => ?_).trans (List.map_id rows)
  obtain ⟨hclean, t, rest, rfl, -⟩ := hrows f hf
  exact splitOn_line hclean (List.cons_ne_nil _ _)

/-- What a dump is read as. -/
theorem parseWgDump_dumpText : parseWgDump K.libraries (d.dumpText K) =
    ⟨d.identity K, some (d.listenPort.getD 0), d.peers.map DevicePeer.state⟩ := by
  have hidentity : (given (d.columns K) 1).bind (fun b64 => (b64ToHex K.libraries b64).toOption) =
      d.identity K := by
    have hcolumn : (d.columns K)[1]? =
        some (d.privateKey.elim noneMark fun key : Key => K.libraries.base64 (K.publicOf key)) := rfl
    rw [identity]
    cases hkey : d.privateKey with
    | none =>
        rw [hkey] at hcolumn
        rw [given_of_none hcolumn]
        rfl
    | some key =>
        rw [hkey] at hcolumn
        have hlength := K.length_publicOf key key.2
        obtain ⟨hnil, hnone⟩ := K.base64_ne ⟨K.publicOf key, hlength⟩
        rw [given_of_eq hcolumn hnil hnone]
        exact congrArg Except.toOption (K.b64ToHex_base64 ⟨K.publicOf key, hlength⟩)
  have hport : (d.columns K)[2]?.bind parseU16 = some (d.listenPort.getD 0) := by
    have hcolumn : (d.columns K)[2]? = some (decimal (d.listenPort.getD 0).toNat) := by
      rw [columns]
      cases d.listenPort <;> rfl
    rw [hcolumn, Option.bind_some, parseU16_toNat]
  have hpeers : (d.peers.map (DevicePeer.columns K)).filterMap (dumpPeer K.libraries) =
      d.peers.map DevicePeer.state := by
    rw [List.filterMap_map, ← List.filterMap_eq_map]
    exact List.filterMap_congr fun p _ => p.dumpPeer_columns K
  rw [parseWgDump, rows_dumpText]
  dsimp only
  rw [hidentity, hport, hpeers]

theorem writesInterface_fields :
    WritesInterface d.fields (d.privateKey.map (·.val)) d.listenPort := by
  rw [fields]
  refine ⟨?_, ?_, ?_⟩
  · simp only [List.forall_mem_append, List.forall_mem_map]
    refine ⟨⟨fun _ _ => trivial, fun _ _ => trivial⟩, ?_⟩
    split
    · exact List.forall_mem_nil _
    · refine List.forall_mem_singleton.mpr ⟨plainKey_of (by decide) (by decide) (by decide),
        plainValue_of_clean (clean_decimal _), ?_⟩
      have hunread : UapiKey.ofText "fwmark".toList = none := by decide
      intro k hk
      rw [hunread] at hk
      cases hk
  · cases d.privateKey <;> cases d.listenPort <;> split <;> rfl
  · cases d.privateKey <;> cases d.listenPort <;> split <;> rfl

/-- What an answer is read as. -/
theorem parseGet_getText : parseGet K.libraries K.publicOf d.getText =
    .ok ⟨d.identity K, d.listenPort, d.peers.map DevicePeer.state⟩ := by
  have hpeers : ∀ p ∈ d.peers.map fun p => (p.state, p.fields), WritesPeer p.2 p.1 := by
    intro x hx
    obtain ⟨p, -, rfl⟩ := List.mem_map.mp hx
    exact p.writesPeer_fields
  rw [getText, parseGet_answerText K.libraries K.publicOf d.writesInterface_fields hpeers 1,
    List.map_map, Option.map_map]
  rfl

/-- The free address and the peers are the same on either backend. -/
theorem answers_alike : ∃ s, parseGet K.libraries K.publicOf d.getText = .ok s ∧
    nextFreeClientIp (parseWgDump K.libraries (d.dumpText K)) = nextFreeClientIp s ∧
      ∀ key, (parseWgDump K.libraries (d.dumpText K)).hasPeer key = s.hasPeer key := by
  refine ⟨_, d.parseGet_getText K, ?_, fun key => ?_⟩
  · rw [parseWgDump_dumpText]
    rfl
  · rw [parseWgDump_dumpText]
    rfl

/-- Both backends read one state. -/
def ReadAlike : Prop :=
  ∃ s, parseGet K.libraries K.publicOf d.getText = .ok s ∧
    parseWgDump K.libraries (d.dumpText K) = s

/-- **Both backends read the same interface just where it has a port.** -/
theorem readAlike_iff : d.ReadAlike K ↔ d.listenPort.isSome = true := by
  rw [ReadAlike, parseGet_getText, parseWgDump_dumpText]
  constructor
  · rintro ⟨s, hget, rfl⟩
    have hport := congrArg InterfaceState.listenPort (Except.ok.inj hget)
    dsimp only at hport
    rw [hport]
    rfl
  · intro h
    obtain ⟨port, hport⟩ := Option.isSome_iff_exists.mp h
    refine ⟨_, rfl, ?_⟩
    rw [hport]
    rfl

end Device

section Example

/-- Keys in base64, each its own public one. -/
def plainTools : KeyTools where
  libraries := plainLibraries
  publicOf := id
  lawful := plainLibraries_lawful
  length_base64 bytes h := by
    have hlength := Base64.length_encode bytes
    rw [h] at hlength
    exact hlength
  length_publicOf _ h := h

/-- An interface that is not up: it has a key and no port. -/
def portless : Device where
  privateKey := some ⟨deviceKey, rfl⟩
  listenPort := none
  fwmark := 0
  peers := []
  listenPort_ne h := nomatch h
  distinct := List.nodup_nil

/-- A missing port is read from the dump as port zero, and from the daemon as none. -/
theorem portless_read_apart : ¬ ∀ (K : KeyTools) (d : Device), d.ReadAlike K := by
  intro h
  obtain ⟨s, hget, hdump⟩ := h plainTools portless
  rw [Device.parseGet_getText] at hget
  rw [Device.parseWgDump_dumpText] at hdump
  obtain rfl := Except.ok.inj hget
  have hport : some (0 : UInt16) = none := congrArg InterfaceState.listenPort hdump
  cases hport

end Example

end Genaryx.Wg
