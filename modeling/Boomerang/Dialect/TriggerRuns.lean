import Boomerang.Dialect.Writers
import Boomerang.Foundation.Transition
import Boomerang.Schema.Built

/-!
# The log that the triggers write

One table with its triggers installed, and the rows inserted, updated and deleted one
after the other. The log stands for the rows as long as no update moves a row to
another key: the trigger then logs the new key and says nothing of the old one.
-/

namespace Boomerang

open Foundation

/-- The rows of a table whose primary key is one column. -/
structure KeyedTable (Value : Type) (primaryCol : String) where
  records : List (Record Value)
  distinct : (records.map fun record => record primaryCol).Nodup

namespace KeyedTable

variable {Value : Type} {primaryCol : String}

/-- A table without rows. -/
def empty : KeyedTable Value primaryCol := ⟨[], List.nodup_nil⟩

/-- There is a row of the key. -/
def Present (table : KeyedTable Value primaryCol) (key : Value) : Prop :=
  ∃ record ∈ table.records, record primaryCol = key

/-- What an event does to the rows. That the keys of the table after it are distinct is
the primary key constraint. -/
inductive Change (table after : KeyedTable Value primaryCol) : RowEvent Value → Prop where
  | insert {new} (changed : after.records = new :: table.records) : Change table after (.insert new)
  | update {old new front back} (here : table.records = front ++ old :: back)
      (changed : after.records = front ++ new :: back) : Change table after (.update old new)
  | delete {old front back} (here : table.records = front ++ old :: back)
      (changed : after.records = front ++ back) : Change table after (.delete old)

variable {table after : KeyedTable Value primaryCol} {event : RowEvent Value}

end KeyedTable

/-- A table and the log. -/
structure LoggedTable (Value : Type) (primaryCol : String) where
  table : KeyedTable Value primaryCol
  log : SyncLog

namespace LoggedTable

variable {Value : Type} {primaryCol tableName : String} {text : Value → String}

/-- An empty table and an empty log. -/
def empty : LoggedTable Value primaryCol := ⟨.empty, ∅⟩

/-- An event at a time changes the rows, and the triggers change the log. -/
structure Step (text : Value → String) (triggers : Triggers)
    (state : LoggedTable Value primaryCol) (label : RowEvent Value × Int)
    (next : LoggedTable Value primaryCol) : Prop where
  change : KeyedTable.Change state.table next.table label.1
  fired : triggers.fire text label.2 label.1 state.log = some next.log

/-- A row is there exactly when the log has an entry for it that is not a deletion. -/
def Faithful (text : Value → String) (tableName : String)
    (state : LoggedTable Value primaryCol) : Prop :=
  ∀ key, state.table.Present key ↔ state.log.Live (publicName tableName, text key)

end LoggedTable

section Runs

variable {Interner Value : Type} [InternerOps Interner] {table : TableRef Interner}
variable {tableName primaryCol : String} {dialect : Dialect} {triggers : Triggers}
variable {text : Value → String}

end Runs

/-- A table of one row. -/
def KeyedTable.single {Value : Type} {primaryCol : String} (record : Record Value) :
    KeyedTable Value primaryCol :=
  ⟨[record], List.nodup_singleton _⟩

section Users

variable {Interner : Type} [InternerOps Interner] {table : TableRef Interner}
variable {dialect : Dialect} {triggers : Triggers}

end Users

end Boomerang
