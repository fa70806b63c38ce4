import Genaryx.Base.Ddl

/-!
# The migrations of the store

Opening a store sets its pragmas, runs the migrations that its `user_version` has not seen and
writes the new version at the end. No transaction spans two of these statements.

## Implementation notes

A store that stopped between two statements has run a first part of the script. The rows have
values of any type `V`.
-/

namespace Genaryx.Core

open Base Base.Ddl

/-- The version written to `PRAGMA user_version`. -/
def schemaVersion : Int := 7

def column (name decl : String) : Column := ⟨name.toList, decl.toList⟩

def index (name table : String) (columns : List String) : Statement :=
  .createIndex { name := name.toList, table := table.toList, columns := columns.map (·.toList) }

def eventsTable : Table where
  name := "events".toList
  columns := [column "id" "INTEGER PRIMARY KEY", column "env" "TEXT NOT NULL",
    column "ts" "TEXT NOT NULL", column "source" "TEXT NOT NULL", column "type" "TEXT NOT NULL",
    column "agent_id" "TEXT NOT NULL", column "run_id" "TEXT", column "severity" "TEXT",
    column "schema" "TEXT NOT NULL", column "on_behalf_of" "TEXT", column "data" "TEXT",
    column "prev_hash" "TEXT", column "raw" "TEXT NOT NULL", column "file" "TEXT",
    column "off" "INTEGER"]

def sourceOffsetsTable : Table where
  name := "source_offsets".toList
  columns := [column "file" "TEXT PRIMARY KEY", column "offset" "INTEGER NOT NULL",
    column "inode" "INTEGER"]

def eventQuarantineTable : Table where
  name := "event_quarantine".toList
  columns := [column "id" "INTEGER PRIMARY KEY", column "env" "TEXT", column "file" "TEXT",
    column "off" "INTEGER", column "raw" "TEXT NOT NULL", column "reason" "TEXT NOT NULL",
    column "ts" "TEXT NOT NULL"]

def rollupName : Text := "rollup_spend_1m".toList

def rollupTable : Table where
  name := rollupName
  columns := [column "env" "TEXT", column "minute" "TEXT", column "agent_id" "TEXT",
    column "cost_microusd" "INTEGER", column "calls" "INTEGER", column "blocked" "INTEGER",
    column "saved_microusd" "INTEGER"]
  primaryKey := ["env".toList, "minute".toList, "agent_id".toList]

def migrationV1 : List Statement :=
  [.createTable eventsTable,
    index "idx_events_env_ts" "events" ["env", "ts"],
    index "idx_events_agent_ts" "events" ["agent_id", "ts"],
    index "idx_events_run_id" "events" ["run_id"],
    index "idx_events_type_ts" "events" ["type", "ts"],
    .createTable sourceOffsetsTable, .createTable eventQuarantineTable,
    .createTable rollupTable]

def commandsJournalTable : Table where
  name := "commands_journal".toList
  columns := [column "id" "INTEGER PRIMARY KEY", column "ts" "TEXT NOT NULL",
    column "operator" "TEXT NOT NULL", column "env" "TEXT NOT NULL",
    column "action" "TEXT NOT NULL", column "target" "TEXT NOT NULL",
    column "params" "TEXT NOT NULL", column "decision" "TEXT NOT NULL",
    column "sig_alg" "TEXT NOT NULL", column "sig_fpr" "TEXT NOT NULL",
    column "http_status" "INTEGER NOT NULL", column "verify_result" "TEXT NOT NULL"]

def migrationV2 : List Statement :=
  [.createTable commandsJournalTable,
    index "idx_commands_journal_env_ts" "commands_journal" ["env", "ts"],
    index "idx_commands_journal_target" "commands_journal" ["target"]]

def dedupeIndex : Index where
  name := "idx_events_dedupe".toList
  table := "events".toList
  columns := ["dedupe".toList]
  unique := true

/-- `ALTER TABLE ... ADD COLUMN` has no form that may run twice. -/
def migrationV3 : List Statement :=
  [.addColumn "events".toList (column "dedupe" "TEXT"),
    .addColumn "events".toList (column "ts_ms" "INTEGER"),
    .createIndex dedupeIndex,
    index "idx_events_ts_ms" "events" ["ts_ms"]]

def migrationV4 : List Statement :=
  [.addColumn "source_offsets".toList (column "head_sha" "TEXT")]

def migrationV5 : List Statement :=
  [index "idx_events_agent_ts_ms" "events" ["agent_id", "ts_ms"]]

def migrationV6 : List Statement :=
  [index "idx_events_agent_type_ts_ms" "events" ["agent_id", "type", "ts_ms"]]

def migrationV7 : List Statement := [.dropTable rollupName]

def setPragmas : List Statement :=
  [.setting "journal_mode".toList "WAL".toList, .setting "foreign_keys".toList "ON".toList,
    .setting "busy_timeout".toList "5000".toList, .setting "synchronous".toList "NORMAL".toList]

/-- The migrations that a store at a version runs, and the version it writes. -/
def migrate (current : Int) : List Statement :=
  (if current < 1 then migrationV1 else []) ++
    (if current < 2 then migrationV2 else []) ++
    (if current < 3 then migrationV3 else []) ++
    (if current < 4 then migrationV4 else []) ++
    (if current < 5 then migrationV5 else []) ++
    (if current < 6 then migrationV6 else []) ++
    (if current < 7 then migrationV7 else []) ++
    [.setUserVersion schemaVersion]

/-- The statements of opening a store at a version. -/
def opening (current : Int) : List Statement := setPragmas ++ migrate current

/-- The schema that the migrations up to a version build. -/
def versionSchema (v : Nat) : Except SqlError Schema :=
  ({} : Schema).applyAll
    (([migrationV1, migrationV2, migrationV3, migrationV4, migrationV5, migrationV6,
      migrationV7].take v).flatten ++ [.setUserVersion v])

def addsColumn : Statement → Bool
  | .addColumn _ _ => true
  | _ => false

/-- An opening at a version may stop here: it has added no column yet, or it is done. -/
def mayStop (v : Int) (k : Nat) : Bool :=
  ((opening v).take k).all (!addsColumn ·) || (opening v).length ≤ k

/-- What opening a version's schema again does after an opening that stopped. -/
def reopened (v k : Nat) : Except SqlError Schema := do
  let schema ← versionSchema v
  let stopped ← schema.applyAll ((opening v).take k)
  stopped.applyAll (opening stopped.userVersion)

theorem reopened_eq : ∀ v < 8, ∀ k < 25,
    reopened v k = if mayStop v k then versionSchema 7 else .error .duplicateColumn := by
  decide +kernel

theorem length_opening_le (v : Nat) (hv : v < 8) : (opening v).length < 25 :=
  (by decide +kernel : ∀ v < 8, (opening (v : Nat)).length < 25) v hv

variable {V : Type} {db : Db V} {v k : Nat}

/-- A store that the migrations up to a version built. Nothing ever wrote a row of the rollup
table. -/
structure AtVersion (db : Db V) (v : Nat) : Prop where
  le : v ≤ 7
  schema : versionSchema v = .ok db.schema
  noRollup : db.records rollupName = []

theorem userVersion_of_versionSchema {schema : Schema} (hv : v < 8)
    (h : versionSchema v = .ok schema) : schema.userVersion = v := by
  have hall : ∀ v < 8, (versionSchema v).map Schema.userVersion = .ok (v : Int) := by
    decide +kernel
  have hhere := hall v hv
  rw [h] at hhere
  exact Except.ok.inj hhere

/-- The index that a statement makes unique. -/
def uniqueIndex : Statement → Option Index
  | .createIndex i => if i.unique then some i else none
  | _ => none

def droppedTable : Statement → Option Text
  | .dropTable name => some name
  | _ => none

/-- An opening drops only the rollup table, and makes only the dedupe key unique, which no
column holds before. -/
theorem opening_touches : ∀ v < 8, ∀ s ∈ opening (v : Nat),
    (droppedTable s).all (· == rollupName) = true ∧
      (uniqueIndex s).all (fun i => i == dedupeIndex &&
        (versionSchema v).toOption.all fun schema =>
          !schema.hasColumn dedupeIndex.table "dedupe".toList) = true := by
  decide +kernel

theorem dropped_eq {name : Text} (hv : v < 8) (h : .dropTable name ∈ opening v) :
    name = rollupName := by
  have hall := (opening_touches v hv _ h).1
  exact beq_iff_eq.mp hall

/-- No row has a dedupe key while an opening still has to make it unique. -/
theorem no_keys (h : AtVersion db v) (i : Index) (hi : .createIndex i ∈ opening v)
    (hunique : i.unique = true) : (db.records i.table).filterMap i.key = [] := by
  have hall := (opening_touches v (Nat.lt_succ_of_le h.le) _ hi).2
  rw [uniqueIndex, if_pos hunique, h.schema] at hall
  simp only [Option.all_some, Except.toOption, Bool.and_eq_true, beq_iff_eq,
    Bool.not_eq_true'] at hall
  obtain ⟨hindex, hcolumn⟩ := hall
  rw [hindex]
  refine List.filterMap_eq_nil_iff.mpr fun r hr => ?_
  have hnull : r.lookup "dedupe".toList = none := by
    rw [AList.lookup_eq_none]
    intro hmem
    have hthere := db.fits _ r hr _ hmem
    exact Bool.false_ne_true (hcolumn.symm.trans hthere)
  rw [Index.key, show dedupeIndex.columns = ["dedupe".toList] from rfl, List.mapM_cons, hnull]
  rfl

/-- The version of a schema whose opening stopped is the old one or the last. -/
theorem stopped_version : ∀ v < 8, ∀ k < 25,
    ((versionSchema v).bind (·.applyAll ((opening v).take k))).toOption.all (fun stopped =>
      stopped.userVersion == (v : Int) || stopped.userVersion == 7) = true := by
  decide +kernel

theorem opening_last_subset : ∀ v < 8, ∀ s ∈ opening 7, s ∈ opening (v : Nat) := by
  decide +kernel

/-- After a stop, the second opening runs statements of the first. -/
theorem opening_stopped_subset {stopped : Schema} (h : AtVersion db v) (hk : k < 25)
    (hstop : db.schema.applyAll ((opening v).take k) = .ok stopped) :
    ∀ s ∈ opening stopped.userVersion, s ∈ opening v := by
  have hversion := stopped_version v (Nat.lt_succ_of_le h.le) k hk
  rw [h.schema, Except.bind, hstop] at hversion
  simp only [Except.toOption, Option.all_some, Bool.or_eq_true, beq_iff_eq] at hversion
  intro s hs
  obtain hsame | hlast := hversion
  · rwa [hsame] at hs
  · rw [hlast] at hs
    exact opening_last_subset v (Nat.lt_succ_of_le h.le) s hs

variable [DecidableEq V]

/-- Open the store. -/
def openStore (db : Db V) : Except SqlError (Db V) := db.execAll (opening db.schema.userVersion)

/-- Opening the store stops after some statements. -/
def stopOpening (db : Db V) (k : Nat) : Except SqlError (Db V) :=
  db.execAll ((opening db.schema.userVersion).take k)

/-- Opening the store again after a stop reaches the last schema with every row. -/
def CrashSafe (db : Db V) (k : Nat) : Prop :=
  ∃ stopped final, stopOpening db k = .ok stopped ∧ openStore stopped = .ok final ∧
    versionSchema 7 = .ok final.schema ∧ final.records = db.records

def NeverLowers (db : Db V) : Prop :=
  ∀ final, openStore db = .ok final → db.schema.userVersion ≤ final.schema.userVersion

/-- What migration promises about a store and a point where opening it stops. -/
def MigrationSafe (db : Db V) (k : Nat) : Prop :=
  (∀ v, AtVersion db v → CrashSafe db k) ∧ NeverLowers db

/-- What the openings of a version's schema do, they do to every store that has it. -/
theorem execAll_opening {db stored : Db V} {schema : Schema} {script : List Statement}
    (h : AtVersion stored v) (hrecords : db.records = stored.records)
    (hscript : ∀ s ∈ script, s ∈ opening v) (happly : db.schema.applyAll script = .ok schema) :
    ∃ final, db.execAll script = .ok final ∧ final.schema = schema ∧
      final.records = stored.records := by
  obtain ⟨final, hexec, hschema, hkept⟩ := Db.execAll_of_applyAll happly
    (fun i hi hunique => by rw [hrecords]; exact no_keys h i (hscript _ hi) hunique)
    fun name hname => by
      rw [hrecords, dropped_eq (Nat.lt_succ_of_le h.le) (hscript _ hname)]
      exact h.noRollup
  exact ⟨final, hexec, hschema, hkept.trans hrecords⟩

/-- An opening that stops after its last statement stopped after the last. -/
theorem take_min (v : Nat) (hv : v < 8) (k : Nat) :
    (opening v).take k = (opening v).take (min k 24) := by
  have hlength := length_opening_le v hv
  obtain hk | hk := Nat.le_total k 24
  · rw [Nat.min_eq_left hk]
  · rw [Nat.min_eq_right hk, List.take_of_length_le (by omega),
      List.take_of_length_le (by omega)]

theorem mayStop_min (v : Nat) (hv : v < 8) (k : Nat) : mayStop v k = mayStop v (min k 24) := by
  have hlength := length_opening_le v hv
  have hdone : (opening v).length ≤ k ↔ (opening v).length ≤ min k 24 := by omega
  rw [mayStop, mayStop, ← take_min v hv k, decide_eq_decide.mpr hdone]

/-- A store at a version reopens after a stop where the opening may stop, and only there. -/
theorem crashSafe_iff (h : AtVersion db v) : CrashSafe db k ↔ mayStop v k = true := by
  have hv : v < 8 := Nat.lt_succ_of_le h.le
  have hversion := userVersion_of_versionSchema hv h.schema
  have hreopened := reopened_eq v hv (min k 24) (by omega)
  rw [← mayStop_min v hv k, reopened, ← take_min v hv k, h.schema] at hreopened
  rw [CrashSafe, stopOpening, hversion]
  constructor
  · rintro ⟨stopped, final, hstop, hopen, -, -⟩
    by_contra hno
    rw [if_neg hno] at hreopened
    change (db.schema.applyAll _).bind (fun stopped => _) = _ at hreopened
    rw [Db.applyAll_of_execAll hstop] at hreopened
    change stopped.schema.applyAll _ = _ at hreopened
    rw [Db.applyAll_of_execAll hopen] at hreopened
    cases hreopened
  · intro hmay
    rw [if_pos hmay] at hreopened
    change (db.schema.applyAll _).bind (fun stopped => _) = _ at hreopened
    obtain ⟨last, hlast⟩ : ∃ last, versionSchema 7 = .ok last := ⟨_, rfl⟩
    cases hstop : db.schema.applyAll ((opening v).take k) with
    | error e =>
        rw [hstop, hlast] at hreopened
        cases hreopened
    | ok schema =>
        rw [hstop] at hreopened
        change schema.applyAll (opening schema.userVersion) = _ at hreopened
        rw [hlast] at hreopened
        obtain ⟨stopped, hfirst, rfl, hrows⟩ := execAll_opening h rfl
          (fun s hs => List.mem_of_mem_take hs) hstop
        obtain ⟨final, hsecond, hfinal, hkept⟩ := execAll_opening h hrows
          (opening_stopped_subset h (k := min k 24) (by omega) (by rw [← take_min v hv]; exact hstop))
          hreopened
        exact ⟨stopped, final, hfirst, hsecond, by rw [hfinal, hlast], hkept⟩

/-- A store that opened is at the last version. -/
theorem userVersion_of_openStore {final : Db V} (h : openStore db = .ok final) :
    final.schema.userVersion = schemaVersion := by
  have happly := Db.applyAll_of_execAll h
  rw [opening, migrate, ← List.append_assoc, Schema.applyAll, List.foldlM_append] at happly
  cases hfirst : (setPragmas ++ _).foldlM Schema.apply db.schema with
  | error e =>
      rw [hfirst] at happly
      cases happly
  | ok schema =>
      rw [hfirst] at happly
      exact congrArg Schema.userVersion (Except.ok.inj happly).symm

theorem migrate_of_lt {current : Int} (h : schemaVersion < current) :
    migrate current = [.setUserVersion schemaVersion] := by
  rw [schemaVersion] at h
  have hseen : ∀ n : Int, n ≤ 7 → ¬ current < n := fun n hn => by omega
  rw [migrate, if_neg (hseen 1 (by decide)), if_neg (hseen 2 (by decide)),
    if_neg (hseen 3 (by decide)), if_neg (hseen 4 (by decide)), if_neg (hseen 5 (by decide)),
    if_neg (hseen 6 (by decide)), if_neg (hseen 7 (by decide))]
  rfl

/-- Opening a store sets its version to the last one, also from a later one. -/
theorem neverLowers_iff (db : Db V) : NeverLowers db ↔ db.schema.userVersion ≤ schemaVersion := by
  constructor
  · intro hnever
    by_contra hlater
    have hopening : opening db.schema.userVersion =
        setPragmas ++ [.setUserVersion schemaVersion] := by
      rw [opening, migrate_of_lt (Int.not_le.mp hlater)]
    have happly : db.schema.applyAll (opening db.schema.userVersion) =
        .ok { db.schema with userVersion := schemaVersion } := by
      rw [hopening]
      rfl
    obtain ⟨final, hopen, -, -⟩ := Db.execAll_of_applyAll happly
      (fun i hi => by rw [hopening] at hi; simp [setPragmas] at hi)
      fun name hname => by rw [hopening] at hname; simp [setPragmas] at hname
    exact hlater ((userVersion_of_openStore hopen) ▸ hnever final hopen)
  · intro hle final hopen
    rwa [userVersion_of_openStore hopen]

/-- Migration keeps its promise exactly where no column was added before the stop, and the
store is not of a later version. -/
theorem migrationSafe_iff (db : Db V) (k : Nat) :
    MigrationSafe db k ↔
      (∀ v, AtVersion db v → mayStop v k = true) ∧ db.schema.userVersion ≤ schemaVersion :=
  and_congr (forall₂_congr fun _ h => crashSafe_iff h) (neverLowers_iff db)

/-- One stored event, with the columns that are NOT NULL. -/
def storedRow : Record Text :=
  [⟨"id".toList, "1".toList⟩, ⟨"env".toList, "local".toList⟩,
    ⟨"ts".toList, "2026-07-01T00:00:00Z".toList⟩, ⟨"source".toList, "wardryx".toList⟩,
    ⟨"type".toList, "agent_halted".toList⟩, ⟨"agent_id".toList, "agent://a/pay/x".toList⟩,
    ⟨"schema".toList, "1".toList⟩, ⟨"raw".toList, "\x7b\x7d".toList⟩].toAList

/-- A store of the second version that holds one event. -/
def versionTwoStore : Db Text where
  schema := (versionSchema 2).toOption.getD {}
  records name := if name = eventsTable.name then [storedRow] else []
  noTable name hname := by
    refine if_neg fun h => ?_
    rw [h] at hname
    exact absurd hname (by decide)
  fits name r hr column hc := by
    split at hr
    · next hevents =>
        rw [hevents]
        rw [List.mem_singleton.mp hr] at hc
        have hall : ∀ c ∈ storedRow.keys, ((versionSchema 2).toOption.getD {}).hasColumn
            eventsTable.name c = true := by
          decide
        exact hall column (AList.mem_keys.mp hc)
    · cases hr

/-- A store of the second version whose opening stopped after `ADD COLUMN dedupe` never opens
again. -/
theorem column_added_twice :
    AtVersion versionTwoStore 2 ∧ ¬ MigrationSafe versionTwoStore 5 := by
  have hat : AtVersion versionTwoStore 2 := ⟨by decide, by decide, by decide⟩
  refine ⟨hat, fun hsafe => ?_⟩
  have hmay := (crashSafe_iff hat).mp (hsafe.1 2 hat)
  exact absurd hmay (by decide)

end Genaryx.Core
