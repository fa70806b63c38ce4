import Genaryx.Base.Text
import Mathlib.Data.List.AList

/-!
# Data definition statements

What SQLite's schema statements do to a schema and to the rows stored under it. A statement
succeeds or fails by the schema alone, except that a unique index also needs the rows to
differ.

## Implementation notes

`CREATE` and `DROP` stand for their `IF NOT EXISTS` and `IF EXISTS` forms. A row lists its
fields that are not NULL, so an added column, which is NULL in every row, leaves the rows as
they are.
-/

namespace Genaryx.Base.Ddl

structure Column where
  name : Text
  decl : Text
  deriving DecidableEq

structure Table where
  name : Text
  columns : List Column
  primaryKey : List Text := []
  deriving DecidableEq

structure Index where
  name : Text
  table : Text
  columns : List Text
  unique : Bool := false
  deriving DecidableEq

structure Schema where
  userVersion : Int := 0
  tables : List Table := []
  indexes : List Index := []
  deriving DecidableEq

inductive Statement where
  | createTable (t : Table)
  | createIndex (i : Index)
  | addColumn (table : Text) (c : Column)
  | dropTable (name : Text)
  | setUserVersion (n : Int)
  | setting (name value : Text)
  deriving DecidableEq

inductive SqlError where
  | noSuchTable
  | noSuchColumn
  | duplicateColumn
  | constraint
  deriving DecidableEq

def Table.hasColumn (t : Table) (name : Text) : Bool := t.columns.any (·.name == name)

namespace Schema

variable (s : Schema)

def findTable (name : Text) : Option Table := s.tables.find? (·.name == name)

def hasTable (name : Text) : Bool := (s.findTable name).isSome

def hasColumn (table name : Text) : Bool := (s.findTable table).any (·.hasColumn name)

def hasIndex (name : Text) : Bool := s.indexes.any (·.name == name)

/-- Append a column to the table of a name. -/
def extend (table : Text) (c : Column) : Schema :=
  { s with
    tables := s.tables.map fun t =>
      if t.name == table then { t with columns := t.columns ++ [c] } else t }

/-- What one statement makes of a schema. -/
def apply : Statement → Except SqlError Schema
  | .createTable t =>
      if s.hasTable t.name then .ok s else .ok { s with tables := s.tables ++ [t] }
  | .createIndex i =>
      if s.hasIndex i.name then .ok s
      else
        match s.findTable i.table with
        | none => .error .noSuchTable
        | some t =>
            if i.columns.all t.hasColumn then .ok { s with indexes := s.indexes ++ [i] }
            else .error .noSuchColumn
  | .addColumn table c =>
      match s.findTable table with
      | none => .error .noSuchTable
      | some t =>
          if t.hasColumn c.name then .error .duplicateColumn else .ok (s.extend table c)
  | .dropTable name =>
      if s.hasTable name then
        .ok { s with
          tables := s.tables.filter (·.name != name)
          indexes := s.indexes.filter (·.table != name) }
      else .ok s
  | .setUserVersion n => .ok { s with userVersion := n }
  | .setting _ _ => .ok s

/-- What a script makes of a schema. -/
def applyAll (script : List Statement) : Except SqlError Schema := script.foldlM apply s

variable {s} {u : Schema} {statement : Statement} {name column : Text}

theorem findTable_createTable {t : Table} (h : s.findTable name = some t) (new : Table) :
    ({ s with tables := s.tables ++ [new] } : Schema).findTable name = some t := by
  rw [findTable] at h
  rw [findTable, List.find?_append, h]
  rfl

theorem findTable_extend {table : Text} (c : Column) (s : Schema) (name : Text) :
    (s.extend table c).findTable name = (s.findTable name).map fun t =>
      if t.name == table then { t with columns := t.columns ++ [c] } else t := by
  rw [findTable, extend, List.find?_map, findTable]
  congr 2
  funext t
  simp only [Function.comp_apply]
  split <;> rfl

theorem findTable_dropTable {gone : Text} (h : name ≠ gone) (tables : List Table) :
    (tables.filter (·.name != gone)).find? (·.name == name) =
      tables.find? (·.name == name) := by
  rw [List.find?_filter]
  congr 1
  funext t
  by_cases hname : t.name = name
  · simp [hname, h]
  · simp [hname]

/-- A statement keeps a table that it does not drop, with every column. -/
theorem findTable_apply {t : Table} (h : s.apply statement = .ok u)
    (ht : s.findTable name = some t) :
    (statement = .dropTable name ∧ u.findTable name = none) ∨
      ∃ t', u.findTable name = some t' ∧ ∀ c, t.hasColumn c = true → t'.hasColumn c = true := by
  have hsame : ∀ v : Schema, v.tables = s.tables →
      ∃ t', v.findTable name = some t' ∧ ∀ c, t.hasColumn c = true → t'.hasColumn c = true :=
    fun v hv => ⟨t, by rw [findTable, hv]; exact ht, fun _ hc => hc⟩
  cases statement with
  | createTable new =>
      rw [apply] at h
      split at h
      · cases h
        exact .inr (hsame s rfl)
      · cases h
        exact .inr ⟨t, findTable_createTable ht new, fun _ hc => hc⟩
  | createIndex i =>
      rw [apply] at h
      split at h
      · cases h
        exact .inr (hsame s rfl)
      · split at h
        · cases h
        · split at h
          · cases h
            exact .inr (hsame _ rfl)
          · cases h
  | addColumn table c =>
      rw [apply] at h
      split at h
      · cases h
      · split at h
        · cases h
        · cases h
          refine .inr ⟨_, by rw [findTable_extend, ht]; rfl, fun c' hc => ?_⟩
          dsimp only
          split
          · rw [Table.hasColumn, List.any_append]
            exact Bool.or_eq_true_iff.mpr (.inl hc)
          · exact hc
  | dropTable gone =>
      rw [apply] at h
      split at h
      · cases h
        by_cases hname : name = gone
        · subst hname
          refine .inl ⟨rfl, List.find?_eq_none.mpr fun x hx => ?_⟩
          simpa using (List.mem_filter.mp hx).2
        · exact .inr ⟨t, (findTable_dropTable hname s.tables).trans ht, fun _ hc => hc⟩
      · cases h
        exact .inr (hsame s rfl)
  | setUserVersion n =>
      cases h
      exact .inr (hsame _ rfl)
  | setting key value =>
      cases h
      exact .inr (hsame s rfl)

/-- Only a drop removes a table. -/
theorem hasTable_apply (h : s.apply statement = .ok u) (hdrop : statement ≠ .dropTable name)
    (hs : s.hasTable name = true) : u.hasTable name = true := by
  obtain ⟨t, ht⟩ := Option.isSome_iff_exists.mp hs
  obtain ⟨hgone, -⟩ | ⟨t', ht', -⟩ := findTable_apply h ht
  · exact absurd hgone hdrop
  · rw [hasTable, ht']
    rfl

/-- A column stays while its table does. -/
theorem hasColumn_apply (h : s.apply statement = .ok u) (hs : s.hasColumn name column = true)
    (hu : u.hasTable name = true) : u.hasColumn name column = true := by
  obtain ⟨t, ht, hcolumn⟩ := (Option.any_eq_true _ _).mp hs
  obtain ⟨-, hnone⟩ | ⟨t', ht', hkeep⟩ := findTable_apply h ht
  · rw [hasTable, hnone] at hu
    cases hu
  · rw [hasColumn, ht']
    exact hkeep column hcolumn

end Schema

/-- The fields of a row that are not NULL. -/
abbrev Record (V : Type) := AList fun _ : Text => V

/-- A database: rows stand in tables, and their fields in columns, that the schema has. -/
structure Db (V : Type) where
  schema : Schema
  records : Text → List (Record V)
  noTable : ∀ name, schema.hasTable name = false → records name = []
  fits : ∀ name, ∀ r ∈ records name, ∀ column ∈ r, schema.hasColumn name column = true

/-- What a row holds in the columns of an index, if none of it is NULL. -/
def Index.key {V : Type} (i : Index) (r : Record V) : Option (List V) := i.columns.mapM r.lookup

namespace Db

variable {V : Type}

/-- The rows of the tables that a statement leaves. -/
def keep (db : Db V) {statement : Statement} {schema : Schema}
    (h : db.schema.apply statement = .ok schema) : Db V where
  schema := schema
  records name := if schema.hasTable name then db.records name else []
  noTable name hname := by rw [hname]; rfl
  fits name r hr column hc := by
    split at hr
    · next htable => exact Schema.hasColumn_apply h (db.fits name r hr column hc) htable
    · cases hr

variable [DecidableEq V]

/-- Two rows agree on every column of a new unique index. -/
def clashes (db : Db V) : Statement → Bool
  | .createIndex i =>
      i.unique && !db.schema.hasIndex i.name && !((db.records i.table).filterMap i.key).Nodup
  | _ => false

/-- Run one statement. -/
def exec (db : Db V) (statement : Statement) : Except SqlError (Db V) :=
  match h : db.schema.apply statement with
  | .error e => .error e
  | .ok _ => if db.clashes statement then .error .constraint else .ok (db.keep h)

/-- Run the statements of a script in order, each in a transaction of its own. -/
def execAll (db : Db V) (script : List Statement) : Except SqlError (Db V) := script.foldlM exec db

variable {db final : Db V} {statement : Statement} {schema : Schema} {script : List Statement}

/-- A statement that runs does to the schema what it does to a schema alone. -/
theorem apply_of_exec (h : db.exec statement = .ok final) :
    db.schema.apply statement = .ok final.schema := by
  unfold exec at h
  split at h
  · cases h
  · next schema happly =>
      split at h
      · cases h
      · cases h
        exact happly

theorem applyAll_of_execAll (h : db.execAll script = .ok final) :
    db.schema.applyAll script = .ok final.schema := by
  induction script generalizing db with
  | nil =>
      cases h
      rfl
  | cons statement rest ih =>
      rw [execAll, List.foldlM_cons] at h
      rw [Schema.applyAll, List.foldlM_cons]
      cases hexec : db.exec statement with
      | error e =>
          rw [hexec] at h
          cases h
      | ok next =>
          rw [hexec] at h
          rw [apply_of_exec hexec]
          exact ih h

/-- A statement that makes no unique index clash and drops no row runs if the schema lets it,
and keeps the rows. -/
theorem exec_of_apply (h : db.schema.apply statement = .ok schema)
    (hclash : db.clashes statement = false)
    (hdrop : ∀ name, statement = .dropTable name → db.records name = []) :
    ∃ next, db.exec statement = .ok next ∧ next.schema = schema ∧
      next.records = db.records := by
  refine ⟨db.keep h, ?_, rfl, funext fun name => ?_⟩
  · unfold exec
    split
    · next e happly =>
        rw [happly] at h
        cases h
    · next schema' happly =>
        obtain rfl : schema' = schema := by
          rw [happly] at h
          exact Except.ok.inj h
        rw [hclash]
        rfl
  · change (if schema.hasTable name then db.records name else []) = db.records name
    split
    · rfl
    · next hgone =>
        refine Eq.symm ?_
        by_cases hhere : db.schema.hasTable name = true
        · refine hdrop name ?_
          by_contra hkeep
          exact hgone (Schema.hasTable_apply h hkeep hhere)
        · exact db.noTable name (Bool.eq_false_iff.mpr hhere)

/-- A script that indexes only NULL fields uniquely and drops only empty tables runs if the
schema lets it, and keeps the rows. -/
theorem execAll_of_applyAll (h : db.schema.applyAll script = .ok schema)
    (hclash : ∀ i, .createIndex i ∈ script → i.unique = true →
      (db.records i.table).filterMap i.key = [])
    (hdrop : ∀ name, .dropTable name ∈ script → db.records name = []) :
    ∃ final, db.execAll script = .ok final ∧ final.schema = schema ∧
      final.records = db.records := by
  induction script generalizing db with
  | nil =>
      cases h
      exact ⟨db, rfl, rfl, rfl⟩
  | cons statement rest ih =>
      rw [Schema.applyAll, List.foldlM_cons] at h
      cases happly : db.schema.apply statement with
      | error e =>
          rw [happly] at h
          cases h
      | ok first =>
          rw [happly] at h
          have hfree : db.clashes statement = false := by
            cases statement with
            | createIndex i =>
                rw [clashes]
                cases hunique : i.unique with
                | false => rfl
                | true =>
                    rw [hclash i List.mem_cons_self hunique]
                    simp
            | _ => rfl
          obtain ⟨next, hexec, hschema, hrecords⟩ := exec_of_apply happly hfree fun name hname =>
            hdrop name (hname ▸ List.mem_cons_self)
          rw [← hschema] at h
          obtain ⟨final, hrest, hfinal, hkept⟩ := ih h
            (fun i hi hunique => hrecords ▸ hclash i (List.mem_cons_of_mem _ hi) hunique)
            fun name hname => hrecords ▸ hdrop name (List.mem_cons_of_mem _ hname)
          refine ⟨final, ?_, hfinal, hkept.trans hrecords⟩
          rw [execAll, List.foldlM_cons, hexec]
          exact hrest

end Db

end Genaryx.Base.Ddl
