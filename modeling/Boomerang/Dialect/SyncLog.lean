import Mathlib.Data.List.AList

/-!
# The sync log and the events of a row

The log of either database has one entry for a table and a record. The two statements
that write it are an insert that leaves an entry as it is, and an insert that replaces
it and counts its version. A trigger sees an event with the row before and after it.
-/

namespace Boomerang

/-- The columns of a log row that are not its key. -/
structure LogEntry where
  opType : String
  version : Int
  updatedAt : Int
deriving DecidableEq, Repr

/-- The log, by the table name and the record id of its primary key. -/
abbrev SyncLog := AList fun _ : String × String => LogEntry

namespace SyncLog

/-- `INSERT ... ON CONFLICT (table_name, record_id) DO NOTHING`. -/
def insertNew (log : SyncLog) (key : String × String) (entry : LogEntry) : SyncLog :=
  match log.lookup key with
  | some _ => log
  | none => log.insert key entry

/-- `INSERT ... ON CONFLICT (table_name, record_id) DO UPDATE`. -/
def upsert (log : SyncLog) (key : String × String) (excluded : LogEntry) : SyncLog :=
  match log.lookup key with
  | some entry => log.insert key ⟨excluded.opType, entry.version + 1, excluded.updatedAt⟩
  | none => log.insert key excluded

/-- The log holds an entry that is not a deletion. -/
def Live (log : SyncLog) (key : String × String) : Prop :=
  ∃ entry, log.lookup key = some entry ∧ entry.opType ≠ "D"

variable {log : SyncLog} {key other : String × String} {entry : LogEntry}

@[simp] theorem mem_insertNew : other ∈ log.insertNew key entry ↔ other = key ∨ other ∈ log := by
  unfold insertNew
  cases found : log.lookup key with
  | none => exact AList.mem_insert log
  | some stored =>
      refine ⟨Or.inr, ?_⟩
      rintro (rfl | member)
      · exact AList.lookup_isSome.mp (by rw [found]; rfl)
      · exact member

@[simp] theorem mem_upsert : other ∈ log.upsert key entry ↔ other = key ∨ other ∈ log := by
  unfold upsert
  cases log.lookup key <;> exact AList.mem_insert log

end SyncLog

/-- A row of a table, by the names of its columns. -/
abbrev Record (Value : Type) := String → Value

/-- What happens to a row, for a trigger that runs after it. -/
inductive RowEvent (Value : Type) where
  | insert (new : Record Value)
  | update (old new : Record Value)
  | delete (old : Record Value)

namespace RowEvent

variable {Value : Type}

/-- `TG_OP`, the operation that fired a trigger. -/
def tgOp : RowEvent Value → String
  | insert _ => "INSERT"
  | update _ _ => "UPDATE"
  | delete _ => "DELETE"

/-- `OLD`. -/
def old : RowEvent Value → Option (Record Value)
  | insert _ => none
  | update old _ => some old
  | delete old => some old

/-- `NEW`. -/
def new : RowEvent Value → Option (Record Value)
  | insert new => some new
  | update _ new => some new
  | delete _ => none

/-- The row whose record the event is logged for. -/
def subject : RowEvent Value → Record Value
  | insert new => new
  | update _ new => new
  | delete old => old

end RowEvent

/-- `left(text, count)` of Postgres. -/
def Sql.left (text : String) (count : Nat) : String := String.ofList (text.toList.take count)

end Boomerang
