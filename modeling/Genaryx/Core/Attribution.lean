import Genaryx.Json.Write

/-!
# SQLite's JSON functions

The SQL values and the functions over JSON texts that the store's queries use, as SQLite
documents them.

## Implementation notes

How SQLite reads a JSON text is a parameter: a well formed text that nests no deeper than
SQLite goes is read as what it denotes, up to its numbers.
-/

namespace Genaryx.Core

open Json

variable {F : Type}

/-- A SQL value. -/
inductive SqlValue (F : Type)
  | null
  | integer (n : Int)
  | real (x : F)
  | text (t : Text)
  deriving DecidableEq

namespace SqlValue

/-- Whether a value is true where SQL asks for a condition on it. -/
def isTrue : SqlValue F → Bool
  | integer n => n ≠ 0
  | _ => false

/-- `CASE WHEN condition THEN value ELSE other END`. -/
def caseWhen (condition value other : SqlValue F) : SqlValue F :=
  if condition.isTrue then value else other

/-- `COALESCE(a, b)`. -/
def coalesce : SqlValue F → SqlValue F → SqlValue F
  | null, b => b
  | a, _ => a

variable [DecidableEq F]

/-- `a = b`, with NULL for a comparison with NULL. -/
def equal : SqlValue F → SqlValue F → SqlValue F
  | null, _ => null
  | _, null => null
  | a, b => if a = b then integer 1 else integer 0

theorem isTrue_equal_text (a b : Text) :
    (equal (text a) (text b) : SqlValue F).isTrue = decide (a = b) := by
  by_cases h : a = b
  · subst h
    simp [equal, isTrue]
  · simp [equal, isTrue, h]

/-- `NULLIF(a, b)`. -/
def nullif (a b : SqlValue F) : SqlValue F := if (equal a b).isTrue then null else a

/-- `a || b`, with what SQLite makes a text of a number. -/
def concat (textOf : SqlValue F → Text) : SqlValue F → SqlValue F → SqlValue F
  | null, _ => null
  | _, null => null
  | a, b => text (textOf a ++ textOf b)

end SqlValue

/-- How deep SQLite reads arrays and objects nested in each other. -/
def sqliteMaxDepth : Nat := 1000

/-- How SQLite reads JSON texts and writes values as texts. -/
structure Sqlite (F : Type) where
  read : Text → Option (Value F)
  read_of_denotes : ∀ {ofDecimal : OfDecimal F} {t v}, Denotes ofDecimal t v →
    v.depth ≤ sqliteMaxDepth → ∃ renumber, read t = some (v.mapNumbers renumber)
  write : Value F → Text
  numberText : SqlValue F → Text

namespace Sqlite

variable (S : Sqlite F)

/-- The text of a value, where a text is itself. -/
def textOf : SqlValue F → Text
  | .text t => t
  | v => S.numberText v

/-- `json_valid(x)`. -/
def jsonValid : SqlValue F → SqlValue F
  | .null => .null
  | .text t => if (S.read t).isSome then .integer 1 else .integer 0
  | v => if (S.read (S.numberText v)).isSome then .integer 1 else .integer 0

/-- The value that `$.key` selects in a JSON text. -/
def select (x : SqlValue F) (key : Text) : Option (Value F) :=
  match x with
  | .text t => (S.read t).bind fun v => v.get key
  | _ => none

/-- `json_type(x, '$.key')`. -/
def jsonType (x : SqlValue F) (key : Text) : SqlValue F :=
  match S.select x key with
  | none => .null
  | some .null => .text "null"
  | some (.bool true) => .text "true"
  | some (.bool false) => .text "false"
  | some (.number (.float _)) => .text "real"
  | some (.number _) => .text "integer"
  | some (.string _) => .text "text"
  | some (.array _) => .text "array"
  | some (.object _) => .text "object"

/-- `json_extract(x, '$.key')`. -/
def jsonExtract (x : SqlValue F) (key : Text) : SqlValue F :=
  match S.select x key with
  | none => .null
  | some .null => .null
  | some (.bool true) => .integer 1
  | some (.bool false) => .integer 0
  | some (.number (.posInt n _)) => .integer n
  | some (.number (.negInt m _)) => .integer (-m)
  | some (.number (.float x)) => .real x
  | some (.string s) => .text s
  | some (.array items) => .text (S.write (.array items))
  | some (.object members) => .text (S.write (.object members))

end Sqlite

/-!
## Who an event is filed under

An event is filed under the agent its envelope names, except for an identity refusal, which
is filed under the key that made the call. The rule has a spelling in the program and one in
SQL, and both give the same subject.
-/

/-- The event type whose envelope names the agent that its caller claimed to be. -/
def identityMismatch : Text := "identity_mismatch"

/-- The prefix of a subject that is a credential. -/
def keyPrefix : Text := "key:"

/-- The subject of an identity refusal that carried no key. -/
def noKey : Text := "key:(none)"

/-- The key in an event's data: a string that is not empty. -/
def keyOf (data : Option (Value F)) : Option Text :=
  ((data.bind fun d => d.get "key_id").bind Value.asStr).filter fun key => !key.isEmpty

/-- Who an event is filed under. -/
def filedUnder (eventType agentId : Text) (data : Option (Value F)) : Text :=
  if eventType ≠ identityMismatch then agentId
  else
    match keyOf data with
    | some key => keyPrefix ++ key
    | none => noKey

/-- The key that an identity refusal names. -/
def refusedKey (eventType : Text) (data : Option (Value F)) : Option Text :=
  if eventType ≠ identityMismatch then none else keyOf data

section Sql

variable [DecidableEq F] (S : Sqlite F)

/-- `FILED_UNDER_SQL` over the columns of a row. -/
def filedUnderSql (eventType agentId : Text) (data : SqlValue F) : SqlValue F :=
  .caseWhen (.equal (.text eventType) (.text identityMismatch))
    (.concat S.textOf (.text keyPrefix)
      (.coalesce
        (.nullif
          (.caseWhen (S.jsonValid data)
            (.caseWhen (.equal (S.jsonType data "key_id") (.text "text"))
              (S.jsonExtract data "key_id") .null)
            .null)
          (.text []))
        (.text "(none)")))
    (.text agentId)

/-- The condition of `subject_is` over the columns of a row. -/
def subjectIs (eventType agentId : Text) (data : SqlValue F) (subject : Text) : Bool :=
  (agentId = subject && eventType ≠ identityMismatch) ||
    (eventType = identityMismatch &&
      (SqlValue.equal (filedUnderSql S eventType agentId data) (.text subject)).isTrue)

end Sql

/-- The `data` column of a stored event. -/
def dataColumn (C : FullCodec F recursionLimit) : Option (Value F) → SqlValue F
  | none => .null
  | some v => .text (C.toText v)

/-- What the attribution of an event depends on, of an event of an agent as it was read. -/
structure FiledEvent (F : Type) where
  eventType : Text
  agentId : Text
  data : Option (Value F)
  isAgent : Text.startsWith agentId "agent://" = true
  ordered : ∀ v, data = some v → v.Ordered
  depth_le : ∀ v, data = some v → v.depth ≤ recursionLimit

namespace FiledEvent

variable (e : FiledEvent F)

def subject : Text := Core.filedUnder e.eventType e.agentId e.data

def key : Option Text := Core.refusedKey e.eventType e.data

def IsRefusal : Prop := e.eventType = identityMismatch

instance : Decidable e.IsRefusal := inferInstanceAs (Decidable (_ = _))

end FiledEvent

/-- Two events are about the same subject: ordinary events of one agent, identity refusals
that name one key, or identity refusals that name none. -/
def SameSubject (a b : FiledEvent F) : Prop :=
  (¬ a.IsRefusal ∧ ¬ b.IsRefusal ∧ a.agentId = b.agentId) ∨
    (a.IsRefusal ∧ b.IsRefusal ∧ a.key = b.key)

/-- Both spellings file two events under the same subjects, and under one subject only if they
are about the same one. -/
def SeparatesSubjects [DecidableEq F] (S : Sqlite F) (C : FullCodec F recursionLimit)
    (a b : FiledEvent F) : Prop :=
  filedUnderSql S a.eventType a.agentId (dataColumn C a.data) = .text a.subject ∧
    filedUnderSql S b.eventType b.agentId (dataColumn C b.data) = .text b.subject ∧
      (a.subject = b.subject → SameSubject a b)

/-- An identity refusal that names the key with the name of no key, and one that names none. -/
def NamesNone (a b : FiledEvent F) : Prop :=
  a.IsRefusal ∧ b.IsRefusal ∧ a.key = some "(none)" ∧ b.key = none

theorem keyOf_mapNumbers (renumber : Number F → Number F) (data : Option (Value F)) :
    keyOf (data.map (Value.mapNumbers renumber)) = keyOf data := by
  cases data with
  | none => rfl
  | some d =>
      simp only [keyOf, Option.map_some, Option.bind_some, Value.get_mapNumbers]
      cases d.get "key_id" with
      | none => rfl
      | some v => simp only [Option.map_some, Option.bind_some, Value.asStr_mapNumbers]

section Sql

variable [DecidableEq F] (S : Sqlite F) (C : FullCodec F recursionLimit)

omit [DecidableEq F] in
/-- SQLite reads back what the program wrote, up to its numbers. -/
theorem read_toText {v : Value F} (hordered : v.Ordered) (hdepth : v.depth ≤ recursionLimit) :
    ∃ renumber, S.read (C.toText v) = some (v.mapNumbers renumber) := by
  have hdeep : (v.mapNumbers C.reread).depth ≤ sqliteMaxDepth := by
    rw [Value.depth_mapNumbers]
    exact le_trans hdepth (by decide)
  obtain ⟨renumber, hread⟩ := S.read_of_denotes (C.denotes_full v hordered) hdeep
  exact ⟨renumber ∘ C.reread, by rw [hread, Value.mapNumbers_mapNumbers]⟩

/-- The key that the SQL expression finds in a JSON text is the one in its value. -/
theorem key_sql {t : Text} {v : Value F} (hread : S.read t = some v) :
    SqlValue.nullif
      (.caseWhen (S.jsonValid (.text t))
        (.caseWhen (.equal (S.jsonType (.text t) "key_id") (.text "text"))
          (S.jsonExtract (.text t) "key_id") .null)
        .null)
      (.text []) = ((keyOf (some v)).map SqlValue.text).getD .null := by
  have hvalid : S.jsonValid (.text t) = .integer 1 := by
    simp only [Sqlite.jsonValid, hread, Option.isSome_some, if_true]
  have hselect : S.select (.text t) "key_id" = v.get "key_id" := by
    simp only [Sqlite.select, hread, Option.bind_some]
  have hone : (SqlValue.integer 1 : SqlValue F).isTrue = true := rfl
  have hnull : SqlValue.nullif (SqlValue.null : SqlValue F) (.text []) = .null := rfl
  rw [hvalid, SqlValue.caseWhen, if_pos hone]
  -- Only a string has the type of a text.
  have htype : (SqlValue.equal (S.jsonType (.text t) "key_id") (.text "text")).isTrue =
      ((v.get "key_id").bind Value.asStr).isSome := by
    rw [Sqlite.jsonType, hselect]
    split <;> next h => rw [h]; rfl
  rw [SqlValue.caseWhen, htype, Sqlite.jsonExtract, hselect, keyOf, Option.bind_some]
  cases hget : v.get "key_id" with
  | none => simp only [Option.bind_none, Option.isSome_none, Bool.false_eq_true, if_false,
      hnull, Option.filter_none, Option.map_none, Option.getD_none]
  | some value =>
      cases value with
      | string key =>
          rw [Option.bind_some, Value.asStr, Option.isSome_some, if_pos rfl, SqlValue.nullif,
            SqlValue.isTrue_equal_text]
          by_cases hkey : key = []
          · subst hkey
            rfl
          · rw [if_neg (by simpa using hkey), Option.filter_some, if_pos (by simpa using hkey)]
            rfl
      | _ =>
          simp only [Option.bind_some, Value.asStr, Option.isSome_none, Bool.false_eq_true,
            if_false, hnull, Option.filter_none, Option.map_none, Option.getD_none]

/-- Both spellings of the rule give the same subject, whatever the agent is called. -/
theorem filedUnderSql_dataColumn (eventType agentId : Text) {data : Option (Value F)}
    (hordered : ∀ v, data = some v → v.Ordered)
    (hdepth : ∀ v, data = some v → v.depth ≤ recursionLimit) :
    filedUnderSql S eventType agentId (dataColumn C data) =
      .text (filedUnder eventType agentId data) := by
  rw [filedUnderSql, SqlValue.caseWhen, SqlValue.isTrue_equal_text, filedUnder]
  by_cases htype : eventType = identityMismatch
  · rw [if_pos (decide_eq_true htype), if_neg (not_not_intro htype)]
    cases data with
    | none => rfl
    | some v =>
        obtain ⟨renumber, hread⟩ := read_toText S C (hordered v rfl) (hdepth v rfl)
        have hkey : keyOf (some (v.mapNumbers renumber)) = keyOf (some v) :=
          keyOf_mapNumbers renumber (some v)
        rw [dataColumn, key_sql S hread, hkey]
        cases keyOf (some v) <;> rfl
  · rw [if_neg (by simpa using htype), if_pos htype]

/-- Both spellings of the rule give the same subject. -/
theorem filedUnderSql_eq (e : FiledEvent F) :
    filedUnderSql S e.eventType e.agentId (dataColumn C e.data) = .text e.subject :=
  filedUnderSql_dataColumn S C e.eventType e.agentId e.ordered e.depth_le

/-- The store finds an event by its subject. -/
theorem subjectIs_iff (e : FiledEvent F) (subject : Text) :
    subjectIs S e.eventType e.agentId (dataColumn C e.data) subject = true ↔
      e.subject = subject := by
  rw [subjectIs, filedUnderSql_eq, SqlValue.isTrue_equal_text]
  by_cases htype : e.eventType = identityMismatch
  · simp [htype]
  · simp [htype, FiledEvent.subject, filedUnder]

end Sql

namespace FiledEvent

variable {e : FiledEvent F}

theorem subject_of_not_isRefusal (h : ¬ e.IsRefusal) : e.subject = e.agentId := if_pos h

theorem subject_of_isRefusal (h : e.IsRefusal) :
    e.subject = keyPrefix ++ e.key.getD "(none)" := by
  have htype : e.eventType = identityMismatch := h
  rw [subject, filedUnder, if_neg (not_not_intro htype), key, refusedKey,
    if_neg (not_not_intro htype)]
  cases keyOf e.data <;> rfl

/-- No agent id is a credential. -/
theorem keyPrefix_append_ne_agentId (key : Text) : keyPrefix ++ key ≠ e.agentId := by
  intro h
  obtain ⟨rest, hrest⟩ := (Text.startsWith_iff _ _).mp e.isAgent
  rw [← hrest] at h
  exact absurd (List.cons.inj h).1 (by decide)

end FiledEvent

/-- Both spellings agree, and two events are filed under one subject only if they are about
the same one, exactly when they are not a refusal of the key called `(none)` and one that
names no key. -/
theorem separatesSubjects_iff [DecidableEq F] (S : Sqlite F) (C : FullCodec F recursionLimit)
    (a b : FiledEvent F) : SeparatesSubjects S C a b ↔ ¬ NamesNone a b ∧ ¬ NamesNone b a := by
  rw [SeparatesSubjects, and_iff_right (filedUnderSql_eq S C a),
    and_iff_right (filedUnderSql_eq S C b)]
  have hagent : ∀ {e f : FiledEvent F}, e.IsRefusal → ¬ f.IsRefusal →
      e.subject ≠ f.subject := by
    intro e f he hf
    rw [e.subject_of_isRefusal he, f.subject_of_not_isRefusal hf]
    exact f.keyPrefix_append_ne_agentId _
  by_cases ha : a.IsRefusal <;> by_cases hb : b.IsRefusal
  · rw [a.subject_of_isRefusal ha, b.subject_of_isRefusal hb, List.append_cancel_left_eq]
    simp only [SameSubject, NamesNone, ha, hb, not_true_eq_false, true_and, false_and, false_or]
    cases hka : a.key with
    | none => cases hkb : b.key with
      | none => simp
      | some kb => simp [eq_comm]
    | some ka => cases hkb : b.key with
      | none => simp
      | some kb => simp
  · simp only [hagent ha hb, false_imp_iff, NamesNone, hb, false_and, and_false, not_false_eq_true,
      and_self]
  · simp only [(hagent hb ha).symm, false_imp_iff, NamesNone, ha, false_and, and_false,
      not_false_eq_true, and_self]
  · simp only [a.subject_of_not_isRefusal ha, b.subject_of_not_isRefusal hb, SameSubject,
      NamesNone, ha, hb, not_false_eq_true, true_and, false_and, or_false, imp_self, and_self]

section Sample

/-- SQLite on texts without doubles. -/
def sqliteWithoutDoubles : Sqlite Empty where
  read := (Reader.ofRead (fun _ _ _ => none) sqliteMaxDepth).fromStr
  read_of_denotes {ofDecimal t v} h hdepth := by
    have hnone : ofDecimal = fun _ _ _ => none := by
      funext negative digits exponent
      cases ofDecimal negative digits exponent with
      | none => rfl
      | some x => exact x.elim
    subst hnone
    refine ⟨id, ?_⟩
    rw [Reader.fromStr_of_denotes _ h, if_pos hdepth, Value.mapNumbers_id]
  write := compact Empty.elim
  numberText _ := []

/-- An identity refusal that names the key `(none)`. -/
def refusalOfKeyNone : FiledEvent Empty where
  eventType := identityMismatch
  agentId := "agent://acme/pay/bot"
  data := some (.object [("key_id", .string "(none)")])
  isAgent := by decide
  ordered v hv := by
    obtain rfl := Option.some.inj hv
    exact ⟨List.pairwise_singleton _ _, trivial, trivial⟩
  depth_le v hv := by
    obtain rfl := Option.some.inj hv
    decide

/-- An identity refusal that names no key. -/
def refusalOfNoKey : FiledEvent Empty where
  eventType := identityMismatch
  agentId := "agent://acme/pay/bot"
  data := none
  isAgent := by decide
  ordered _ hv := nomatch hv
  depth_le _ hv := nomatch hv

/-- The calls refused with the key `(none)` and those refused without a key are filed
together. -/
theorem key_called_none :
    ¬ ∀ a b : FiledEvent Empty, SeparatesSubjects sqliteWithoutDoubles
      (FullCodec.ofEmpty recursionLimit) a b := by
  intro h
  have hsame := (h refusalOfKeyNone refusalOfNoKey).2.2 (by decide)
  rcases hsame with ⟨hordinary, _⟩ | ⟨_, _, hkey⟩
  · exact hordinary rfl
  · exact absurd hkey (by decide)

end Sample

end Genaryx.Core
