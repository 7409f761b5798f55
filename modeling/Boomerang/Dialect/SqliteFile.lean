import Boomerang.Dialect.SqliteDdl
import Boomerang.Foundation.Catalog
import Boomerang.Foundation.Transition

/-!
# The tables of a SQLite file

What SQLite documents of the statements. Names that differ only in the case of ASCII
letters are one name, `IF NOT EXISTS` leaves what is there, and a dropped table takes
its indexes and triggers with it. A statement may be refused for more reasons than are
given here. Views are left out.
-/

namespace Boomerang

open Foundation

/-- A column with its cells. -/
structure LiveColumn (Cells : Type) extends ColumnDef where
  cells : Cells
deriving DecidableEq

/-- The name of a column as SQLite compares it. -/
def LiveColumn.key {Cells : Type} (column : LiveColumn Cells) : String := asciiLower column.name

/-- A table. Two columns have two names. -/
structure LiveTable (Cells : Type) where
  name : String
  columns : Catalog (@LiveColumn.key Cells)
  keys : List KeyDef
  checks : List String
deriving DecidableEq

/-- The name of a table as SQLite compares it. -/
def LiveTable.key {Cells : Type} (table : LiveTable Cells) : String := asciiLower table.name

/-- A unique index on one column. -/
structure UniqueIndex where
  name : String
  table : String
  column : String
deriving DecidableEq, Repr

def UniqueIndex.key (index : UniqueIndex) : String := asciiLower index.name

/-- A trigger with its table. -/
structure LiveTrigger where
  name : String
  table : String
deriving DecidableEq, Repr

/-- A SQLite file. `schemaHash` is what `__meta__` holds under that key. -/
structure SqliteFile (Cells : Type) where
  tables : Catalog (@LiveTable.key Cells)
  indexes : Catalog UniqueIndex.key
  triggers : List LiveTrigger
  schemaHash : Option (List UInt8)
deriving DecidableEq

section Tables

variable {Cells : Type}

/-- A table that has just been created. -/
def LiveTable.create (definition : TableDef) (cells : Cells) : Option (LiveTable Cells) :=
  (Catalog.ofList? (definition.columns.map fun column => ⟨column, cells⟩)).map fun columns =>
    ⟨definition.name, columns, definition.keys, definition.checks⟩

/-- A table with another column. -/
def LiveTable.addColumn (column : ColumnDef) (cells : Cells) (table : LiveTable Cells) :
    LiveTable Cells :=
  { table with columns := table.columns.add ⟨column, cells⟩ }

/-- A table without a column. -/
def LiveTable.dropColumn (column : String) (table : LiveTable Cells) : LiveTable Cells :=
  { table with columns := table.columns.erase (asciiLower column) }

theorem LiveTable.key_addColumn (column : ColumnDef) (cells : Cells) (table : LiveTable Cells) :
    (table.addColumn column cells).key = table.key := rfl

theorem LiveTable.key_dropColumn (column : String) (table : LiveTable Cells) :
    (table.dropColumn column).key = table.key := rfl

end Tables

namespace SqliteFile

variable {Cells : Type}

/-- A file without tables. -/
def empty : SqliteFile Cells := ⟨.empty, .empty, [], none⟩

/-- The table of a name. -/
def table? (file : SqliteFile Cells) (name : String) : Option (LiveTable Cells) :=
  file.tables.find? (asciiLower name)

/-- A file without a table and what belongs to it. -/
def dropTable (file : SqliteFile Cells) (name : String) : SqliteFile Cells where
  tables := file.tables.erase (asciiLower name)
  indexes := file.indexes.filter fun index => asciiLower index.table ≠ asciiLower name
  triggers := file.triggers.filter fun trigger => asciiLower trigger.table ≠ asciiLower name
  schemaHash := if asciiLower name = "__meta__" then none else file.schemaHash

/-- The file after a statement that SQLite accepts. The cells are those of the columns
that are new. -/
def after (file : SqliteFile Cells) (cells : Cells) : SqliteStatement → Option (SqliteFile Cells)
  | .createTable definition =>
      match file.table? definition.name with
      | some _ => some file
      | none =>
          if definition.columns = [] then none
          else (LiveTable.create definition cells).map fun table =>
            { file with tables := file.tables.add table }
  | .dropTable name => some (file.dropTable name)
  | .addColumn name column =>
      match file.table? name with
      | none => none
      | some table =>
          match table.columns.find? (asciiLower column.name) with
          | some _ => none
          | none => some { file with
              tables := file.tables.modify (asciiLower name) (.addColumn column cells)
                (LiveTable.key_addColumn column cells) }
  | .dropColumn name column =>
      match file.table? name with
      | none => none
      | some table =>
          match table.columns.find? (asciiLower column) with
          | none => none
          | some _ => some { file with
              tables := file.tables.modify (asciiLower name) (.dropColumn column)
                (LiveTable.key_dropColumn column) }
  | .createUniqueIndex name table column =>
      match file.indexes.find? (asciiLower name) with
      | some _ => some file
      | none =>
          match (file.table? table).bind fun found => found.columns.find? (asciiLower column) with
          | none => none
          | some _ => some { file with indexes := file.indexes.add ⟨name, table, column⟩ }
  | .upsertHash hash =>
      match file.table? "__meta__" with
      | none => none
      | some _ => some { file with schemaHash := some hash.1 }
  | .dropTrigger name =>
      some { file with
        triggers := file.triggers.filter fun trigger => asciiLower trigger.name ≠ asciiLower name }

/-- A statement that SQLite accepts. -/
def Step (file : SqliteFile Cells) (statement : SqliteStatement) (next : SqliteFile Cells) : Prop :=
  ∃ cells, file.after cells statement = some next

end SqliteFile

end Boomerang
