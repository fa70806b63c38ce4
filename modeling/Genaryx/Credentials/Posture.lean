import Genaryx.Base.Binary64
import Genaryx.Base.Items
import Genaryx.Base.Letters
import Genaryx.Json.Write

/-!
# The gateway's posture

Three reads of a gateway make one view: its switches, its client keys and its price book. A read
that fails costs its own section only. Switches are reported as JSON that the console does not know
in advance, and a value under a name that suggests a secret is never shown.

## Implementation notes

A read is what the client gives: an error, no such route, or the parsed answer. Rates are doubles.
Of a key there is whether it is configured, and of the panel's state what this view reads.
-/

namespace Genaryx.Credentials

open Base Json Text

variable {F : Type}

/-- The switches that are named, in order, with their labels. -/
def knownSettings : List (Text × Text) :=
  [ ("firewall", "Firewall (taint)"),
    ("dlp_pii", "PII detection"),
    ("dlp", "Data-loss prevention"),
    ("max_run_budget_usd", "Run budget ceiling (USD)"),
    ("wire", "Wire (provider shape)"),
    ("identity_strict", "Identity check"),
    ("client_keys", "Client keys"),
    ("require_run_id", "Run id required"),
    ("wardryx_mode", "Policy hook (wardryx)"),
    ("failmode", "Policy fail mode"),
    ("mode", "Gateway mode"),
    ("cache", "Response cache"),
    ("router", "FinOps router"),
    ("closure_enabled", "Retained-reservation closure") ]

/-- The most other settings that are shown. -/
def maxExtraSettings : Nat := 32

/-- The longest value that is shown. -/
def maxValueChars : Nat := 120

/-- What stands in for a value withheld because of its name. -/
def withheld : Text := "withheld: the console never shows a value under this name".toList

/-- One switch. A value that the gateway does not report is not there. -/
structure PostureSetting where
  key : Text
  label : Text
  value : Option Text
  deriving DecidableEq

structure SettingsSection where
  reported : Bool
  items : List PostureSetting
  deriving DecidableEq

def secretWords : List Text :=
  [ "secret", "token", "password", "passwd", "credential", "api_key", "apikey", "private" ]

/-- `str::to_ascii_lowercase`. -/
def asciiLower (t : Text) : Text := t.map Char.toLower

def endsWith (t suffix : Text) : Bool := suffix.isSuffixOf t

/-- Whether a name suggests a credential, whatever its value. -/
def secretShaped (key : Text) : Bool :=
  let k := asciiLower key
  (secretWords.any fun word => contains k word) ||
    ((endsWith k "_key" || endsWith k "key") && k ≠ "client_keys".toList)

variable (floatText : F → Text)

/-- A reported value as text. Arrays and objects are summarised, never printed whole. -/
def wholeText : Value F → Text
  | .null => "not set"
  | .bool true => "on"
  | .bool false => "off"
  | .number n => compact floatText (.number n)
  | .string s => s
  | .array items => decimal items.length ++ " item(s)".toList
  | .object members => decimal members.length ++ " field(s)".toList

/-- A reported value as text, bounded. -/
def valueText (v : Value F) : Text :=
  let text := wholeText floatText v
  if maxValueChars < text.length then text.take (maxValueChars - 1) ++ ['…'] else text

/-- What is shown of a value under a name. -/
def shown (key : Text) (v : Value F) : Text :=
  if secretShaped key then withheld else valueText floatText v

/-- The members of a reported body. One that is no object has none. -/
def membersOf : Value F → List (Text × Value F)
  | .object members => members
  | _ => []

def settingsSection (body : Value F) : SettingsSection :=
  let map := membersOf body
  let items := knownSettings.map fun (key, label) =>
    { key, label, value := (map.lookup key).map (shown floatText key) : PostureSetting }
  let extras := ((map.filter fun m => !knownSettings.any fun known => known.1 = m.1).take
    maxExtraSettings).map fun m =>
      { key := m.1.take 64, label := m.1.take 64, value := some (shown floatText m.1 m.2) :
        PostureSetting }
  { reported := true, items := items ++ extras }

/-! ## The keys and the price book -/

structure GatewayKeyEntry where
  configured : Bool

/-- The report of a gateway's keys. -/
structure GatewayKeysReport where
  strictMode : Text
  identityMapConfigured : Bool
  attempts : UInt64
  keys : List GatewayKeyEntry

structure KeysSection where
  identityStrict : Text
  identityMapConfigured : Bool
  configuredKeys : Nat
  keysListed : Nat
  unauthorizedAttempts : UInt64
  deriving DecidableEq

def keysSection (report : GatewayKeysReport) : KeysSection where
  identityStrict := report.strictMode
  identityMapConfigured := report.identityMapConfigured
  configuredKeys := report.keys.countP GatewayKeyEntry.configured
  keysListed := report.keys.length
  unauthorizedAttempts := report.attempts

/-- Rates in micro-dollars for a million tokens. -/
structure GatewayRates where
  inputPerMtokMicrousd : Int64
  outputPerMtokMicrousd : Int64

/-- The rates of a model above a length of prompt. -/
structure GatewayLongContextRow extends GatewayRates where
  model : Text
  abovePromptTokens : UInt64

structure GatewayPriceBook where
  rows : UInt64
  builtInRows : UInt64
  operatorFile : Bool
  overriddenModels : List Text
  addedModels : List Text
  fallback : Option GatewayRates
  longContext : Option (List GatewayLongContextRow)
  longContextDroppedModels : List Text
  fallbackModelsSeen : List Text
  fallbackModelsSeenTotal : UInt64

structure TierRow where
  model : Text
  abovePromptTokens : UInt64
  inputPerMtokUsd : ℚ
  outputPerMtokUsd : ℚ
  deriving DecidableEq

structure PriceBookSection where
  rows : UInt64
  builtInRows : UInt64
  operatorFile : Bool
  overriddenModels : List Text
  addedModels : List Text
  fallbackInputPerMtokUsd : Option ℚ
  fallbackOutputPerMtokUsd : Option ℚ
  tiers : Option (List TierRow)
  tiersDroppedModels : List Text
  fallbackModelsSeen : List Text
  fallbackModelsSeenTotal : UInt64
  deriving DecidableEq

/-- Micro-dollars as dollars, in doubles. -/
def perMtokUsd (microusd : Int64) : ℚ := toDouble (toDouble microusd.toInt / 1000000)

def tierRow (r : GatewayLongContextRow) : TierRow where
  model := r.model
  abovePromptTokens := r.abovePromptTokens
  inputPerMtokUsd := perMtokUsd r.inputPerMtokMicrousd
  outputPerMtokUsd := perMtokUsd r.outputPerMtokMicrousd

def priceBookSection (book : GatewayPriceBook) : PriceBookSection where
  rows := book.rows
  builtInRows := book.builtInRows
  operatorFile := book.operatorFile
  overriddenModels := book.overriddenModels
  addedModels := book.addedModels
  fallbackInputPerMtokUsd := book.fallback.map fun f => perMtokUsd f.inputPerMtokMicrousd
  fallbackOutputPerMtokUsd := book.fallback.map fun f => perMtokUsd f.outputPerMtokMicrousd
  tiers := book.longContext.map fun rows => rows.map tierRow
  tiersDroppedModels := book.longContextDroppedModels
  fallbackModelsSeen := book.fallbackModelsSeen
  fallbackModelsSeenTotal := book.fallbackModelsSeenTotal

/-! ## The whole view -/

/-- Why a read of the gateway gave nothing. -/
inductive GatewayError
  | transport (e : Text)
  | json (e : Text)
  | unauthorized
  | adminKeysRequired
  | api (status : UInt16) (body : Text)
  | responseTooLarge (limit : Nat)
  deriving DecidableEq

def GatewayError.display : GatewayError → Text
  | transport e => "http transport: ".toList ++ e
  | json e => "json: ".toList ++ e
  | unauthorized => "the gateway refused the presented key (401 unauthorized)".toList
  | adminKeysRequired =>
      "the gateway requires TOKENFUSE_ADMIN_KEYS and refuses every request (403)".toList
  | api status body =>
      "gateway returned HTTP ".toList ++ decimal status.toNat ++ ": ".toList ++ body
  | responseTooLarge limit =>
      "the gateway's response exceeded ".toList ++ decimal limit ++
        " bytes; refused to read further".toList

inductive CredentialsError
  | bootstrapping
  | noEnvironment
  | unreachable (reason : Text)
  | gateway (status : Option UInt16) (message : Text)
  deriving DecidableEq

def CredentialsError.ofGateway : GatewayError → CredentialsError
  | .transport e => .gateway none ("could not reach the gateway: ".toList ++ e)
  | .json e => .gateway none ("unexpected response shape from the gateway: ".toList ++ e)
  | .unauthorized =>
      .gateway (some 401) ("the gateway refused the console's key: check " ++
        "TOKENFUSE_GATEWAY_ADMIN_KEY against the gateway's TOKENFUSE_ADMIN_KEYS").toList
  | .adminKeysRequired =>
      .gateway (some 403) ("the gateway requires TOKENFUSE_ADMIN_KEYS on a non-loopback bind and " ++
        "the console holds no key (TOKENFUSE_GATEWAY_ADMIN_KEY is unset)").toList
  | .api status body => .gateway (some status) body
  | .responseTooLarge limit =>
      .gateway none ("the gateway's response exceeded ".toList ++ decimal limit ++ " bytes".toList)

/-- The state of the panel. -/
inductive CredentialsInner
  | bootstrapping
  | noEnvironment
  | unreachable (reason : Text)
  | ready (gatewayUrl : Text)

structure GatewayPostureDto where
  gatewayUrl : Text
  settings : Option SettingsSection
  keys : Option KeysSection
  priceBook : Option PriceBookSection
  notes : List Text
  deriving DecidableEq

def readyClient : CredentialsInner → Except CredentialsError Text
  | .ready gatewayUrl => .ok gatewayUrl
  | .bootstrapping => .error .bootstrapping
  | .noEnvironment => .error .noEnvironment
  | .unreachable reason => .error (.unreachable reason)

/-- What the three reads gave. -/
structure Reads (F : Type) where
  settings : Except GatewayError (Option (Value F))
  keys : Except GatewayError GatewayKeysReport
  book : Except GatewayError (Option GatewayPriceBook)

def noPriceBook : Text :=
  ("This gateway has no GET /v1/price-book (older than TokenFuse v1.8.0), so the book it prices " ++
    "with is not reported.").toList

/-- A section, the notes beside it, and the failure if there is no answer. -/
structure Part (S : Type) where
  content : Option S
  notes : List Text
  failure : Option GatewayError

/-- The part of a read that failed. -/
def Part.failed {S : Type} (path : Text) (e : GatewayError) : Part S where
  content := none
  notes := ["GET ".toList ++ path ++ " did not answer: ".toList ++ e.display]
  failure := some e

def settingsPart : Except GatewayError (Option (Value F)) → Part SettingsSection
  | .ok (some body) => ⟨some (settingsSection floatText body), [], none⟩
  | .ok none => ⟨some { reported := false, items := [] }, [], none⟩
  | .error e => .failed "/v1/settings" e

def keysPart : Except GatewayError GatewayKeysReport → Part KeysSection
  | .ok report => ⟨some (keysSection report), [], none⟩
  | .error e => .failed "/v1/keys" e

def bookPart : Except GatewayError (Option GatewayPriceBook) → Part PriceBookSection
  | .ok (some book) => ⟨some (priceBookSection book), [], none⟩
  | .ok none => ⟨none, [noPriceBook], none⟩
  | .error e => .failed "/v1/price-book" e

/-- The reads that failed, in order. -/
def failures (reads : Reads F) : List GatewayError :=
  (settingsPart floatText reads.settings).failure.toList ++
    ((keysPart reads.keys).failure.toList ++ (bookPart reads.book).failure.toList)

def credentialsPosture (state : CredentialsInner) (reads : Reads F) :
    Except CredentialsError GatewayPostureDto := do
  let gatewayUrl ← readyClient state
  let settings := settingsPart floatText reads.settings
  let keys := keysPart reads.keys
  let book := bookPart reads.book
  match failures floatText reads with
  | [first, _, _] => .error (.ofGateway first)
  | _ =>
      .ok {
        gatewayUrl
        settings := settings.content
        keys := keys.content
        priceBook := book.content
        notes := settings.notes ++ keys.notes ++ book.notes }

end Genaryx.Credentials

/-!
## What the posture never shows

The whole view is the same whatever stands under a name that suggests a secret, and whatever is in an
array or an object. Of everything else that a gateway reports, what is shown and what is left out is
stated.

### Implementation notes

A section depends on a body only through what is shown of each of its members, so bodies that are
shown alike member by member have one section.
-/

namespace Genaryx.Credentials

open Base Json Text

variable {F : Type} (floatText : F → Text)

/-! ## Names -/

section Names

variable {key word : Text}

/-- No name that ends in `key` is the one that is let through: the exception never applies. -/
theorem ne_clientKeys_of_endsWith (h : endsWith key "key" = true) : key ≠ "client_keys".toList := by
  rintro rfl
  revert h
  decide

theorem endsWith_key_of_underscore (h : endsWith key "_key" = true) : endsWith key "key" = true := by
  have hsuffix : "key".toList <:+ "_key".toList := ⟨['_'], by decide⟩
  exact List.isSuffixOf_iff_suffix.mpr (hsuffix.trans (List.isSuffixOf_iff_suffix.mp h))

/-- A name suggests a secret if it has one of the words in it or ends in `key`, in any case. -/
theorem secretShaped_iff : secretShaped key = true ↔
    (∃ word ∈ secretWords, word <:+: asciiLower key) ∨ "key".toList <:+ asciiLower key := by
  have hends : ((endsWith (asciiLower key) "_key" || endsWith (asciiLower key) "key") &&
      asciiLower key ≠ "client_keys".toList) = true ↔ "key".toList <:+ asciiLower key := by
    rw [Bool.and_eq_true, Bool.or_eq_true, decide_eq_true_eq]
    constructor
    · rintro ⟨h, -⟩
      exact List.isSuffixOf_iff_suffix.mp (h.elim endsWith_key_of_underscore id)
    · intro h
      have hkey : endsWith (asciiLower key) "key" = true := List.isSuffixOf_iff_suffix.mpr h
      exact ⟨.inr hkey, ne_clientKeys_of_endsWith hkey⟩
  rw [secretShaped, Bool.or_eq_true, hends, List.any_eq_true]
  simp only [contains_iff]

/-- No switch that the console names suggests a secret. -/
theorem secretShaped_knownSettings :
    ∀ known ∈ knownSettings, secretShaped known.1 = false := by
  decide +kernel

end Names

/-! ## Values -/

/-- Two arrays, or two objects, with as many items. -/
def SameSize : Value F → Value F → Prop
  | .array items, .array items' => items.length = items'.length
  | .object members, .object members' => members.length = members'.length
  | _, _ => False

/-- Members of one name, with the same value, values of one size, or any values under a name that
suggests a secret. -/
def AlikeMember (m m' : Text × Value F) : Prop :=
  m.1 = m'.1 ∧ (secretShaped m.1 = true ∨ SameSize m.2 m'.2 ∨ m.2 = m'.2)

/-- Two bodies whose members are alike, one by one. -/
def Alike (body body' : Value F) : Prop :=
  List.Forall₂ AlikeMember (membersOf body) (membersOf body')

theorem wholeText_of_sameSize {v v' : Value F} (h : SameSize v v') :
    wholeText floatText v = wholeText floatText v' := by
  cases v with
  | array items =>
      cases v' with
      | array items' => exact congrArg (fun n => decimal n ++ " item(s)".toList) h
      | _ => exact h.elim
  | object members =>
      cases v' with
      | object members' => exact congrArg (fun n => decimal n ++ " field(s)".toList) h
      | _ => exact h.elim
  | _ => exact h.elim

theorem shown_of_alikeMember {m m' : Text × Value F} (h : AlikeMember m m') :
    shown floatText m.1 m.2 = shown floatText m'.1 m'.2 := by
  obtain ⟨hname, hsecret | hvalue⟩ := h
  · rw [shown, shown, ← hname, if_pos hsecret, if_pos hsecret]
  · have htext : valueText floatText m.2 = valueText floatText m'.2 := by
      rcases hvalue with hsize | heq
      · rw [valueText, valueText, wholeText_of_sameSize floatText hsize]
      · rw [heq]
    rw [shown, shown, hname, htext]

theorem length_withheld : withheld.length ≤ maxValueChars := by decide

theorem length_valueText (v : Value F) : (valueText floatText v).length ≤ maxValueChars := by
  rw [valueText]
  split
  · rw [List.length_append, List.length_take, List.length_singleton, maxValueChars]
    omega
  · next h => exact Nat.le_of_not_lt h

theorem length_shown (key : Text) (v : Value F) :
    (shown floatText key v).length ≤ maxValueChars := by
  rw [shown]
  split
  · exact length_withheld
  · exact length_valueText floatText v

/-! ## The section -/

/-- What is shown of each member. -/
def shownMembers (body : Value F) : List (Text × Text) :=
  (membersOf body).map fun m => (m.1, shown floatText m.1 m.2)

/-- The switches that are named, from what is shown. -/
def knownItems (shown : List (Text × Text)) : List PostureSetting :=
  knownSettings.map fun known => ⟨known.1, known.2, shown.lookup known.1⟩

/-- The other members, from what is shown. -/
def extraItems (shown : List (Text × Text)) : List PostureSetting :=
  ((shown.filter fun m => !knownSettings.any fun known => known.1 = m.1).take maxExtraSettings).map
    fun m => ⟨m.1.take 64, m.1.take 64, some m.2⟩

theorem lookup_map_shown (members : List (Text × Value F)) (key : Text) :
    (members.map fun m => (m.1, shown floatText m.1 m.2)).lookup key =
      (members.lookup key).map (shown floatText key) := by
  induction members with
  | nil => rfl
  | cons m members ih =>
      rw [List.map_cons, List.lookup_cons, List.lookup_cons]
      cases hkey : key == m.1 with
      | true =>
          rw [eq_of_beq hkey]
          rfl
      | false => exact ih

/-- A section is a function of what is shown of each member. -/
theorem settingsSection_eq (body : Value F) :
    settingsSection floatText body =
      ⟨true, knownItems (shownMembers floatText body) ++
        extraItems (shownMembers floatText body)⟩ := by
  have hknown : (knownSettings.map fun (key, label) => (⟨key, label,
        ((membersOf body).lookup key).map (shown floatText key)⟩ : PostureSetting)) =
      knownItems (shownMembers floatText body) := by
    apply List.map_congr_left
    intro known _
    rw [shownMembers, lookup_map_shown]
  have hextra : extraItems (shownMembers floatText body) =
      (((membersOf body).filter fun m => !knownSettings.any fun known => known.1 = m.1).take
        maxExtraSettings).map fun m =>
          ⟨m.1.take 64, m.1.take 64, some (shown floatText m.1 m.2)⟩ := by
    rw [extraItems, shownMembers, List.filter_map, ← List.map_take, List.map_map]
    rfl
  rw [settingsSection, hextra, ← hknown]

theorem shownMembers_of_alike {body body' : Value F} (h : Alike body body') :
    shownMembers floatText body = shownMembers floatText body' := by
  have hmap : ∀ {members members' : List (Text × Value F)},
      List.Forall₂ AlikeMember members members' →
        members.map (fun m => (m.1, shown floatText m.1 m.2)) =
          members'.map fun m => (m.1, shown floatText m.1 m.2) := by
    intro members members' h
    induction h with
    | nil => rfl
    | cons hm _ ih =>
        rw [List.map_cons, List.map_cons, ih, shown_of_alikeMember floatText hm, hm.1]
  exact hmap h

theorem settingsSection_of_alike {body body' : Value F} (h : Alike body body') :
    settingsSection floatText body = settingsSection floatText body' := by
  rw [settingsSection_eq, settingsSection_eq, shownMembers_of_alike floatText h]

/-- What is shown of a body: each named switch in order, with its value if it is reported, and the
first of the other members. -/
structure Faithful (body : Value F) (items : List PostureSetting) : Prop where
  known : (items.take knownSettings.length).map (fun item => (item.key, item.label)) = knownSettings
  reported : ∀ item ∈ items.take knownSettings.length, item.value =
    ((membersOf body).lookup item.key).map (valueText floatText)
  others : items.drop knownSettings.length = extraItems (shownMembers floatText body)
  bounded : ∀ item ∈ items, ∀ text, item.value = some text → text.length ≤ maxValueChars

theorem faithful_settingsSection (body : Value F) :
    Faithful floatText body (settingsSection floatText body).items := by
  have hlength : (knownItems (shownMembers floatText body)).length = knownSettings.length :=
    List.length_map _
  have htake : (settingsSection floatText body).items.take knownSettings.length =
      knownItems (shownMembers floatText body) := by
    rw [settingsSection_eq, ← hlength]
    exact List.take_left
  have hdrop : (settingsSection floatText body).items.drop knownSettings.length =
      extraItems (shownMembers floatText body) := by
    rw [settingsSection_eq, ← hlength]
    exact List.drop_left
  constructor
  · rw [htake, knownItems, List.map_map]
    exact List.map_id _
  · rw [htake]
    intro item hitem
    obtain ⟨known, hknown, rfl⟩ := List.mem_map.mp hitem
    have hplain := secretShaped_knownSettings known hknown
    dsimp only
    rw [shownMembers, lookup_map_shown]
    congr 1
    funext v
    rw [shown, hplain]
    rfl
  · exact hdrop
  · rw [settingsSection_eq]
    have hall : ∀ shown ∈ shownMembers floatText body, shown.2.length ≤ maxValueChars := by
      intro s hs
      obtain ⟨m, -, rfl⟩ := List.mem_map.mp hs
      exact length_shown floatText m.1 m.2
    intro item hitem text htext
    rcases List.mem_append.mp hitem with hknown | hextra
    · obtain ⟨known, -, rfl⟩ := List.mem_map.mp hknown
      obtain ⟨before, after, hmembers, -⟩ := List.lookup_eq_some_iff.mp htext
      exact hall (known.1, text) (hmembers ▸ List.mem_append_right before List.mem_cons_self)
    · obtain ⟨m, hm, rfl⟩ := List.mem_map.mp hextra
      cases htext
      exact hall m (List.mem_filter.mp (List.mem_of_mem_take hm)).1

/-! ## The whole view -/

/-- Reads of the switches that differ in what is never shown, if at all. -/
inductive AlikeRead : Except GatewayError (Option (Value F)) →
    Except GatewayError (Option (Value F)) → Prop
  | bodies {body body' : Value F} (h : Alike body body') :
      AlikeRead (.ok (some body)) (.ok (some body'))
  | same (read : Except GatewayError (Option (Value F))) : AlikeRead read read

/-- What a view of the posture is. -/
structure PostureKept (F : Type) (floatText : F → Text) : Prop where
  /-- The view does not depend on what is never shown. -/
  withheld : ∀ (state : CredentialsInner) (reads : Reads F)
    (settings : Except GatewayError (Option (Value F))), AlikeRead reads.settings settings →
      credentialsPosture floatText state { reads with settings := settings } =
        credentialsPosture floatText state reads
  names : ∀ key : Text, secretShaped key = true ↔
    (∃ word ∈ secretWords, word <:+: asciiLower key) ∨ "key".toList <:+ asciiLower key
  shown : ∀ body : Value F, Faithful floatText body (settingsSection floatText body).items
  /-- There is a view unless the gateway is not ready or no read was answered. -/
  viewed : ∀ (state : CredentialsInner) (reads : Reads F),
    (∃ view, credentialsPosture floatText state reads = .ok view) ↔
      (∃ url, state = .ready url) ∧
        (reads.settings.toOption ≠ none ∨ reads.keys.toOption ≠ none ∨
          reads.book.toOption ≠ none)
  /-- Each section is that of its own read, whatever the others gave. -/
  sections : ∀ (state : CredentialsInner) (reads : Reads F) (view : GatewayPostureDto),
    credentialsPosture floatText state reads = .ok view →
      state = .ready view.gatewayUrl ∧ view.settings = (settingsPart floatText reads.settings).content ∧
        view.keys = (keysPart reads.keys).content ∧ view.priceBook = (bookPart reads.book).content

theorem failure_settingsPart (read : Except GatewayError (Option (Value F))) :
    (settingsPart floatText read).failure = none ↔ read.toOption ≠ none := by
  rcases read with e | _ | body
  · exact iff_of_false (Option.some_ne_none e) fun h => h rfl
  · exact iff_of_true rfl (Option.some_ne_none _)
  · exact iff_of_true rfl (Option.some_ne_none _)

theorem failure_keysPart (read : Except GatewayError GatewayKeysReport) :
    (keysPart read).failure = none ↔ read.toOption ≠ none := by
  cases read with
  | error e => exact iff_of_false (Option.some_ne_none e) fun h => h rfl
  | ok report => exact iff_of_true rfl (Option.some_ne_none _)

theorem failure_bookPart (read : Except GatewayError (Option GatewayPriceBook)) :
    (bookPart read).failure = none ↔ read.toOption ≠ none := by
  rcases read with e | _ | book
  · exact iff_of_false (Option.some_ne_none e) fun h => h rfl
  · exact iff_of_true rfl (Option.some_ne_none _)
  · exact iff_of_true rfl (Option.some_ne_none _)

/-- A panel that is not ready has no client. -/
theorem readyClient_eq_ok {state : CredentialsInner} {url : Text} (h : readyClient state = .ok url) :
    state = .ready url := by
  cases state <;> cases h
  rfl

/-- Three failures are an error, and fewer are not. -/
theorem exists_view_iff (url : Text) (reads : Reads F) :
    (∃ view, credentialsPosture floatText (.ready url) reads = .ok view) ↔
      (failures floatText reads).length ≠ 3 := by
  constructor
  · rintro ⟨view, h⟩ hthree
    obtain ⟨first, second, third, hfailures⟩ := List.length_eq_three.mp hthree
    obtain ⟨_, -, h⟩ := bind_eq_ok h
    rw [hfailures] at h
    cases h
  · intro hthree
    have hready : readyClient (.ready url) = .ok url := rfl
    rw [credentialsPosture, hready]
    change ∃ view, (match failures floatText reads with
      | [first, _, _] => _
      | _ => _) = Except.ok view
    split
    next first second third hfailures =>
        rw [hfailures] at hthree
        exact absurd rfl hthree
    next => exact ⟨_, rfl⟩

theorem length_failures (reads : Reads F) : (failures floatText reads).length ≠ 3 ↔
    (settingsPart floatText reads.settings).failure = none ∨
      (keysPart reads.keys).failure = none ∨ (bookPart reads.book).failure = none := by
  rw [failures, List.length_append, List.length_append]
  cases (settingsPart floatText reads.settings).failure <;>
    cases (keysPart reads.keys).failure <;> cases (bookPart reads.book).failure <;> simp

theorem settingsPart_of_alikeRead {read read' : Except GatewayError (Option (Value F))}
    (h : AlikeRead read read') : settingsPart floatText read' = settingsPart floatText read := by
  cases h with
  | bodies halike => rw [settingsPart, settingsPart, settingsSection_of_alike floatText halike]
  | same => rfl

/-- **The view of a gateway's posture never depends on a secret, and loses only what was not read.** -/
theorem posture_kept : PostureKept F floatText where
  withheld := by
    intro state reads settings h
    rw [credentialsPosture, credentialsPosture, failures, failures,
      settingsPart_of_alikeRead floatText h]
  names := fun _ => secretShaped_iff
  shown := faithful_settingsSection floatText
  viewed := by
    intro state reads
    have hanswered := fun url => exists_view_iff floatText url reads
    simp only [length_failures, failure_settingsPart, failure_keysPart, failure_bookPart]
      at hanswered
    constructor
    · rintro ⟨view, h⟩
      obtain ⟨url, hready, -⟩ := bind_eq_ok h
      cases readyClient_eq_ok hready
      exact ⟨⟨url, rfl⟩, (hanswered url).mp ⟨view, h⟩⟩
    · rintro ⟨⟨url, rfl⟩, hone⟩
      exact (hanswered url).mpr hone
  sections := by
    intro state reads view h
    obtain ⟨url, hready, h⟩ := bind_eq_ok h
    split at h <;> cases h
    exact ⟨readyClient_eq_ok hready, rfl, rfl, rfl⟩

end Genaryx.Credentials
