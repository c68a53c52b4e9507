/-
  The catalog of a DuckLake, and the statements of `ensure_table` on it.

  The catalog is a history of committed changes; a transaction has a snapshot of it
  and fails with a conflict if an object that it creates was created since.  The
  conflict may come with the statement or with the commit.
-/
import ContinuoRuntime.Python.Exc
import ContinuoRuntime.Lib.Clients
import ContinuoRuntime.Lib.Snapshots

namespace ContinuoRuntime

open Snapshots

/-! ## Definitions of tables -/

/-- `QualifiedTable`. -/
structure QualifiedTable where
  schema : Str
  table : Str

/-- `ColumnDefinition`. -/
structure ColumnDefinition where
  name : Str
  type : Str
  nullable : Bool

/-- `PartitionKey`. -/
structure PartitionKey where
  column : Str
  transform : Str
  buckets : Option ℕ

/-- `SortKey`; `nullsFirst` is `none` for the default of the engine. -/
structure SortKey where
  column : Str
  descending : Bool
  nullsFirst : Option Bool

/-- `TableLayout`. -/
structure TableLayout where
  partitionKeys : List PartitionKey
  sortKeys : List SortKey

/-- `is_empty`. -/
def TableLayout.isEmpty (layout : TableLayout) : Bool :=
  layout.partitionKeys.isEmpty && layout.sortKeys.isEmpty

/-- The key of a table: DuckDB tells names apart up to ASCII case
    (`same_identifier`). -/
def QualifiedTable.key (t : QualifiedTable) : Str × Str := (asciiLower t.schema, asciiLower t.table)

/-! ## The catalog -/

/-- A table of the catalog. -/
structure LakeTable where
  columns : List ColumnDefinition
  layout : TableLayout

/-- The schemas and tables of a catalog, by their keys. -/
structure LakeCatalog where
  schemas : Str → Bool
  tables : Str × Str → Option LakeTable

/-- A change of the catalog. -/
inductive LakeChange where
  | createSchema (schema : Str)
  | dropSchema (schema : Str)
  | createTable (table : QualifiedTable) (columns : List ColumnDefinition)
  | dropTable (table : QualifiedTable)
  | setPartitionedBy (table : QualifiedTable) (keys : List PartitionKey)
  | setSortedBy (table : QualifiedTable) (keys : List SortKey)

namespace LakeCatalog

def hasSchema (c : LakeCatalog) (schema : Str) : Prop := c.schemas (asciiLower schema) = true

def get? (c : LakeCatalog) (t : QualifiedTable) : Option LakeTable := c.tables t.key

def hasTable (c : LakeCatalog) (t : QualifiedTable) : Prop := (c.get? t).isSome

/-- `ALTER TABLE`: another layout. -/
def alter (c : LakeCatalog) (t : QualifiedTable) (f : TableLayout → TableLayout) : LakeCatalog :=
  let altered := (c.get? t).map fun table => ⟨table.columns, f table.layout⟩
  { c with tables := Function.update c.tables t.key altered }

/-- What a change does; dropping a schema drops its tables. -/
def apply (c : LakeCatalog) : LakeChange → LakeCatalog
  | .createSchema schema => { c with schemas := Function.update c.schemas (asciiLower schema) true }
  | .dropSchema schema => {
      schemas := Function.update c.schemas (asciiLower schema) false
      tables := fun key => if key.1 = asciiLower schema then none else c.tables key }
  | .createTable t columns =>
      { c with tables := Function.update c.tables t.key (some ⟨columns, ⟨[], []⟩⟩) }
  | .dropTable t => { c with tables := Function.update c.tables t.key none }
  | .setPartitionedBy t keys => c.alter t fun layout => { layout with partitionKeys := keys }
  | .setSortedBy t keys => c.alter t fun layout => { layout with sortKeys := keys }

/-- The statement of the change succeeds. -/
def Admits (c : LakeCatalog) : LakeChange → Prop
  | .createSchema schema => ¬ c.hasSchema schema
  | .dropSchema _ | .dropTable _ => True
  | .createTable t _ => c.hasSchema t.schema ∧ ¬ c.hasTable t
  | .setPartitionedBy t _ | .setSortedBy t _ => c.hasTable t

end LakeCatalog

/-- A schema or a table, by its key. -/
inductive LakeObject where
  | schema (key : Str)
  | table (key : Str × Str)
  deriving DecidableEq

/-- The object that a change creates. -/
def LakeChange.creates : LakeChange → Option LakeObject
  | .createSchema schema => some (.schema (asciiLower schema))
  | .createTable t _ => some (.table t.key)
  | _ => none

/-- The change may take away or alter the table, or create it. -/
def LakeChange.Touches (t : QualifiedTable) : LakeChange → Prop
  | .createSchema _ => False
  | .dropSchema schema => asciiLower schema = asciiLower t.schema
  | .createTable t' _ | .dropTable t' | .setPartitionedBy t' _ | .setSortedBy t' _ => t'.key = t.key

/-- The committed catalog. -/
abbrev Lake := History LakeCatalog LakeChange

abbrev LakeTransaction := Transaction LakeChange

/-- The catalog as it is committed now. -/
def catalog (s : Lake) : LakeCatalog := s.now LakeCatalog.apply

/-! ## Statements -/

/-- The statements of `ensure_table`. -/
inductive LakeStatement where
  | begin | commit | rollback
  | createSchemaIfNotExists (schema : Str)
  /-- `TABLE_EXISTS_QUERY` -/
  | tableExists (table : QualifiedTable)
  | createTable (table : QualifiedTable) (columns : List ColumnDefinition)
  | setPartitionedBy (table : QualifiedTable) (keys : List PartitionKey)
  | setSortedBy (table : QualifiedTable) (keys : List SortKey)

/-- What a statement of a transaction changes. -/
def LakeStatement.change : LakeStatement → Option LakeChange
  | .createTable t columns => some (.createTable t columns)
  | .setPartitionedBy t keys => some (.setPartitionedBy t keys)
  | .setSortedBy t keys => some (.setSortedBy t keys)
  | _ => none

/-- What the gateway raises: `LakeConflictError`, or another exception. -/
inductive LakeError where
  | conflict
  | other (exc : Exc)

/-- The rows of a statement, names of a schema and a table. -/
abbrev LakeResult := Except LakeError (List (Str × Str))

/-- What a connection is doing. -/
inductive LakeSession where
  | idle
  /-- a statement outside a transaction, which is one of its own -/
  | single (tx : LakeTransaction)
  | opened (tx : LakeTransaction)

/-- **One step of the server** on a statement. -/
inductive LakeServe : LakeStatement → Lake → LakeSession → Lake → LakeSession → Option LakeResult → Prop
  | schemaFound {s schema} (h : (catalog s).hasSchema schema) :
      LakeServe (.createSchemaIfNotExists schema) s .idle s .idle (some (.ok []))
  | schemaNotFound {s schema} (h : ¬ (catalog s).hasSchema schema) :
      LakeServe (.createSchemaIfNotExists schema) s .idle s
        (.single ((Transaction.begin s).add (.createSchema schema))) none
  | schemaCommitted {s schema} {tx : LakeTransaction} (h : ¬ tx.Clashes LakeChange.creates s) :
      LakeServe (.createSchemaIfNotExists schema) s (.single tx) (s.push tx.changes) .idle (some (.ok []))
  | schemaLost {s schema} {tx : LakeTransaction} (h : tx.Clashes LakeChange.creates s) :
      LakeServe (.createSchemaIfNotExists schema) s (.single tx) s .idle (some (.error .conflict))
  | begun {s} : LakeServe .begin s .idle s (.opened (Transaction.begin s)) (some (.ok []))
  /-- the rows are tables of the snapshot, that of the name among them -/
  | listed {s t} {tx : LakeTransaction} {rows : List (Str × Str)}
      (hsound : ∀ row ∈ rows, (tx.view LakeCatalog.apply s).hasTable ⟨row.1, row.2⟩)
      (hcomplete : (tx.view LakeCatalog.apply s).hasTable t →
        ∃ row ∈ rows, (QualifiedTable.mk row.1 row.2).key = t.key) :
      LakeServe (.tableExists t) s (.opened tx) s (.opened tx) (some (.ok rows))
  | changed {r s} {tx : LakeTransaction} {change : LakeChange} (hr : r.change = some change)
      (h : (tx.view LakeCatalog.apply s).Admits change) :
      LakeServe r s (.opened tx) s (.opened (tx.add change)) (some (.ok []))
  | refused {r s} {tx : LakeTransaction} {change : LakeChange} (hr : r.change = some change)
      (h : ¬ (tx.view LakeCatalog.apply s).Admits change) (exc : Exc) :
      LakeServe r s (.opened tx) s (.opened tx) (some (.error (.other exc)))
  /-- the conflict is noticed with the statement -/
  | clashed {r s} {tx : LakeTransaction} {change : LakeChange} (hr : r.change = some change)
      (h : (tx.add change).Clashes LakeChange.creates s) :
      LakeServe r s (.opened tx) s (.opened tx) (some (.error .conflict))
  | committed {s} {tx : LakeTransaction} (h : ¬ tx.Clashes LakeChange.creates s) :
      LakeServe .commit s (.opened tx) (s.push tx.changes) .idle (some (.ok []))
  /-- a commit that fails has ended the transaction -/
  | lost {s} {tx : LakeTransaction} (h : tx.Clashes LakeChange.creates s) :
      LakeServe .commit s (.opened tx) s .idle (some (.error .conflict))
  | rolledBack {s} {tx : LakeTransaction} : LakeServe .rollback s (.opened tx) s .idle (some (.ok []))

/-! ## What changes do to one table -/

section
variable {c : LakeCatalog} {t : QualifiedTable}

theorem get?_created {columns : List ColumnDefinition} :
    (c.apply (.createTable t columns)).get? t = some ⟨columns, ⟨[], []⟩⟩ :=
  Function.update_self ..

theorem get?_alter {f : TableLayout → TableLayout} :
    (c.alter t f).get? t = (c.get? t).map fun table => ⟨table.columns, f table.layout⟩ :=
  Function.update_self ..

theorem get?_setPartitionedBy {keys : List PartitionKey} : (c.apply (.setPartitionedBy t keys)).get? t =
    (c.get? t).map fun table => ⟨table.columns, { table.layout with partitionKeys := keys }⟩ := by
  rw [LakeCatalog.apply, get?_alter]

theorem get?_setSortedBy {keys : List SortKey} : (c.apply (.setSortedBy t keys)).get? t =
    (c.get? t).map fun table => ⟨table.columns, { table.layout with sortKeys := keys }⟩ := by
  rw [LakeCatalog.apply, get?_alter]

/-- A change that does not touch a table leaves it as it is. -/
theorem get?_apply_of_not_touches {change : LakeChange} (h : ¬ change.Touches t) :
    (c.apply change).get? t = c.get? t := by
  cases change with
  | createSchema schema => rfl
  | dropSchema schema => exact if_neg fun hkey => h hkey.symm
  | createTable t' columns => exact Function.update_of_ne (fun hkey => h hkey.symm) ..
  | dropTable t' => exact Function.update_of_ne (fun hkey => h hkey.symm) ..
  | setPartitionedBy t' keys => exact Function.update_of_ne (fun hkey => h hkey.symm) ..
  | setSortedBy t' keys => exact Function.update_of_ne (fun hkey => h hkey.symm) ..

theorem hasSchema_apply_of_not_touches {change : LakeChange} (h : ¬ change.Touches t)
    (hc : c.hasSchema t.schema) : (c.apply change).hasSchema t.schema := by
  cases change with
  | createSchema schema =>
    by_cases hname : asciiLower t.schema = asciiLower schema
    · unfold LakeCatalog.hasSchema LakeCatalog.apply
      rw [hname]
      exact Function.update_self ..
    · exact (Function.update_of_ne hname ..).trans hc
  | dropSchema schema => exact (Function.update_of_ne (fun hname => h hname.symm) ..).trans hc
  | _ => exact hc

theorem hasSchema_createSchema {schema : Str} : (c.apply (.createSchema schema)).hasSchema schema :=
  Function.update_self ..

end

end ContinuoRuntime
