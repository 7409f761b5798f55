import Boomerang.Foundation.Utf8
import Boomerang.Schema.DatabaseSchema
import Mathlib.Data.List.Lex
import Mathlib.Order.Compare

/-!
# The merge of the two sync logs

Both logs are streams of rows, and a row is decoded when it becomes the lookahead of
its side. `next_entry` takes the side with the smaller key, or both, until it finds a
record on which the logs differ. A stream may fail at any row; errors are terminal.
-/

namespace Boomerang

open Foundation

/-- `LogOpType`. -/
inductive LogOpType where
  | insert
  | update
  | delete
deriving DecidableEq, Repr

/-- `InvalidOpType`. -/
structure InvalidOpType where
  op : String
deriving DecidableEq, Repr

/-- `LogOpType::try_from`. -/
def LogOpType.tryFrom (text : String) : Except InvalidOpType LogOpType :=
  match text with
  | "I" => .ok .insert
  | "U" => .ok .update
  | "D" => .ok .delete
  | other => .error ⟨other⟩

/-- The letter of an op type. -/
def LogOpType.letter : LogOpType → String
  | .insert => "I"
  | .update => "U"
  | .delete => "D"

theorem LogOpType.tryFrom_letter (op : LogOpType) : tryFrom op.letter = .ok op := by
  cases op <;> rfl

/-- `sqlx::Error`: what a driver reports, and the one error made here. -/
inductive SqlxError (Driver : Type) where
  | driver (error : Driver)
  | columnDecode (index : String) (source : InvalidOpType)

/-- `TruthTableError`. -/
inductive TruthTableError (Driver : Type) where
  | postgres (error : SqlxError Driver)
  | sqlite (error : SqlxError Driver)
  | unknownTable (name : String)

/-- What the accessors of a `LogRow` return. -/
structure LogRow (Driver : Type) where
  table : Except (SqlxError Driver) String
  recordId : Except (SqlxError Driver) String
  op : Except (SqlxError Driver) String
  version : Except (SqlxError Driver) Int
  updatedAt : Except (SqlxError Driver) Int

/-- Why `next_entry` does not return an entry or the end. -/
inductive Stop (Driver : Type) where
  | panic (fault : Fault)
  | failed (error : TruthTableError Driver)

/-- `Head`, the lookahead of one stream. -/
structure Head (Driver : Type) where
  row : LogRow Driver
  table : Symbol
  op : LogOpType
  version : Int
  updatedAt : Int

/-- `SyncLogEntry`. -/
structure SyncLogEntry where
  tableName : Symbol
  recordId : String
  opType : LogOpType
  version : Int
  updatedAt : Int
deriving DecidableEq, Repr

/-- `RowAction`. -/
inductive RowAction where
  | applyFromPostgres
  | applyFromSQLite
  | conflict
deriving DecidableEq, Repr

/-- `SyncTruthEntry`. -/
structure SyncTruthEntry where
  postgres : Option SyncLogEntry
  sqlite : Option SyncLogEntry
  action : RowAction
deriving DecidableEq, Repr

/-- `SyncTruthEntry::winning_entry`. -/
def SyncTruthEntry.winningEntry (entry : SyncTruthEntry) : Option SyncLogEntry :=
  match entry.action with
  | .conflict => none
  | .applyFromPostgres => entry.postgres
  | .applyFromSQLite => entry.sqlite

/-- `TableCache`. -/
structure TableCache where
  name : String
  symbol : Option Symbol

/-- `TableCache::default`. -/
def TableCache.default : TableCache := ⟨"", none⟩

/-- The bytes of a string as numbers, in whose lexicographic order `str::cmp` compares. -/
def byteKey (text : String) : List Nat := (bytes text).map UInt8.toNat

/-- `Ord::cmp` of a total order. -/
def ordCmp {Key : Type} [LinearOrder Key] (left right : Key) : Ordering := cmp left right

variable {Driver Interner : Type} [InternerOps Interner]

/-- `TableCache::symbol_for`. -/
def TableCache.symbolFor (cache : TableCache) (schema : DatabaseSchema Interner) (table : String) :
    Except (TruthTableError Driver) (Symbol × TableCache) :=
  match cache.symbol, decide (cache.name = table) with
  | some symbol, true => .ok (symbol, cache)
  | _, _ =>
      match schema.getSymbol table with
      | none => .error (.unknownTable table)
      | some symbol => .ok (symbol, ⟨table, some symbol⟩)

namespace Head

/-- `Head::new`. -/
def new (row : LogRow Driver) (schema : DatabaseSchema Interner) (cache : TableCache)
    (dbErr : SqlxError Driver → TruthTableError Driver) :
    Except (TruthTableError Driver) (Head Driver × TableCache) := do
  let (table, cache) ← cache.symbolFor schema (← row.table.mapError dbErr)
  let op ← (LogOpType.tryFrom (← row.op.mapError dbErr)).mapError fun invalid =>
    dbErr (.columnDecode "op_type" invalid)
  let version ← row.version.mapError dbErr
  let updatedAt ← row.updatedAt.mapError dbErr
  let _ ← row.recordId.mapError dbErr
  return (⟨row, table, op, version, updatedAt⟩, cache)

/-- `Head::record_id`. -/
def recordId (head : Head Driver) : Except Fault String :=
  head.row.recordId.mapError fun _ => .expectation "validated in Head::new"

/-- `Head::into_entry`. -/
def intoEntry (head : Head Driver) : Except Fault SyncLogEntry := do
  return ⟨head.table, ← head.recordId, head.op, head.version, head.updatedAt⟩

end Head

/-- `cmp_heads`. -/
def cmpHeads (a b : Head Driver) (schema : DatabaseSchema Interner) : Except Fault Ordering := do
  if a.table = b.table then
    return ordCmp (byteKey (← a.recordId)) (byteKey (← b.recordId))
  else
    let name := fun symbol => resolveExpected schema.interner symbol "symbol not from this schema"
    return ordCmp (byteKey (← name a.table)) (byteKey (← name b.table))

/-- The stream, the table memo and the lookahead of one side of the merge. -/
structure Side (Driver : Type) where
  stream : List (Except (SqlxError Driver) (LogRow Driver))
  cache : TableCache
  head : Option (Head Driver)

/-- `pull`: the next head, with the stream and the memo moved on. -/
def pull (side : Side Driver) (schema : DatabaseSchema Interner)
    (dbErr : SqlxError Driver → TruthTableError Driver) :
    Except (TruthTableError Driver) (Option (Head Driver) × Side Driver) :=
  match side.stream with
  | [] => .ok (none, side)
  | .error error :: _ => .error (dbErr error)
  | .ok row :: rest => do
      let (head, cache) ← Head.new row schema side.cache dbErr
      return (some head, { side with stream := rest, cache := cache })

/-- `advance`: install the next head and return the previous one. -/
def advance (profile : Profile) (side : Side Driver) (next : Option (Head Driver))
    (schema : DatabaseSchema Interner) : Except Fault (Option (Head Driver) × Side Driver) := do
  if profile = .debug then
    if let (some old, some new) := (side.head, next) then
      if (← cmpHeads new old schema) ≠ .gt then
        throw (.assertion "stream not strictly ascending")
  return (side.head, { side with head := next })

/-- `TruthTable`. -/
structure TruthTable (Driver : Type) where
  pg : Side Driver
  sq : Side Driver

namespace TruthTable

/-- `TruthTable::new`, on streams that have just been opened. -/
def new (schema : DatabaseSchema Interner)
    (pgStream sqStream : List (Except (SqlxError Driver) (LogRow Driver))) :
    Except (TruthTableError Driver) (TruthTable Driver) := do
  let (pgHead, pg) ← pull ⟨pgStream, .default, none⟩ schema .postgres
  let (sqHead, sq) ← pull ⟨sqStream, .default, none⟩ schema .sqlite
  return ⟨{ pg with head := pgHead }, { sq with head := sqHead }⟩

/-- Which side `next_entry` takes, if there is one to take. -/
def order (table : TruthTable Driver) (schema : DatabaseSchema Interner) :
    Except Fault (Option Ordering) :=
  match table.pg.head, table.sq.head with
  | none, none => .ok none
  | some _, none => .ok (some .lt)
  | none, some _ => .ok (some .gt)
  | some p, some s => (cmpHeads p s schema).map some

/-- `TruthTable::resolve`. -/
def resolve (pg sq : Option (Head Driver)) : Except Fault (Option SyncTruthEntry) := do
  let action ← match pg, sq with
    | some _, none => pure (some RowAction.applyFromPostgres)
    | none, some _ => pure (some RowAction.applyFromSQLite)
    | some p, some s =>
        match (ordCmp p.version s.version).then (ordCmp p.updatedAt s.updatedAt) with
        | .gt => pure (some RowAction.applyFromPostgres)
        | .lt => pure (some RowAction.applyFromSQLite)
        | .eq => pure (if p.op = s.op then none else some RowAction.conflict)
    | none, none => throw .unreachable
  match action with
  | none => return none
  | some action => return some ⟨← pg.mapM Head.intoEntry, ← sq.mapM Head.intoEntry, action⟩

/-- Pull and advance a side when it is taken. -/
def pullIf (taken : Bool) (side : Side Driver) (schema : DatabaseSchema Interner)
    (dbErr : SqlxError Driver → TruthTableError Driver) :
    Except (TruthTableError Driver) (Option (Option (Head Driver)) × Side Driver) :=
  if taken then do
    let (next, side) ← pull side schema dbErr
    return (some next, side)
  else .ok (none, side)

/-- The head a taken side gives up. -/
def advanceIf (profile : Profile) (side : Side Driver) (next : Option (Option (Head Driver)))
    (schema : DatabaseSchema Interner) : Except Fault (Option (Head Driver) × Side Driver) :=
  match next with
  | none => .ok (none, side)
  | some next => advance profile side next schema

/-- One turn of the loop of `next_entry` on a side to take: the entry found, if any.
Of two failing pulls the Postgres one is reported. -/
def turn (profile : Profile) (schema : DatabaseSchema Interner) (table : TruthTable Driver)
    (ord : Ordering) : Except (Stop Driver) (Option SyncTruthEntry × TruthTable Driver) := do
  let (nextPg, pg) ← (pullIf (ord ≠ .gt) table.pg schema .postgres).mapError .failed
  let (nextSq, sq) ← (pullIf (ord ≠ .lt) table.sq schema .sqlite).mapError .failed
  let (pgHead, pg) ← (advanceIf profile pg nextPg schema).mapError .panic
  let (sqHead, sq) ← (advanceIf profile sq nextSq schema).mapError .panic
  return (← (resolve pgHead sqHead).mapError .panic, ⟨pg, sq⟩)

/-- The loop of `next_entry`. The fuel bounds its turns. -/
def nextEntryLoop (profile : Profile) (schema : DatabaseSchema Interner) :
    Nat → TruthTable Driver → Except (Stop Driver) (Option SyncTruthEntry × TruthTable Driver)
  | 0, _ => .error (.panic .divergence)
  | fuel + 1, table =>
      match table.order schema with
      | .error fault => .error (.panic fault)
      | .ok none => .ok (none, table)
      | .ok (some ord) =>
          match turn profile schema table ord with
          | .error stop => .error stop
          | .ok (some entry, next) => .ok (some entry, next)
          | .ok (none, next) => nextEntryLoop profile schema fuel next

/-- The rows a side has not given up. -/
def remaining (side : Side Driver) : Nat := side.stream.length + if side.head.isSome then 1 else 0

/-- `TruthTable::next_entry`. Every turn gives up a row. -/
def nextEntry (profile : Profile) (schema : DatabaseSchema Interner) (table : TruthTable Driver) :
    Except (Stop Driver) (Option SyncTruthEntry × TruthTable Driver) :=
  nextEntryLoop profile schema (remaining table.pg + remaining table.sq + 1) table

/-- Call `next_entry` until it returns no entry: the entries, and how it ended. The
fuel bounds the calls. -/
def collect (profile : Profile) (schema : DatabaseSchema Interner) :
    Nat → TruthTable Driver → List SyncTruthEntry × Except (Stop Driver) Unit
  | 0, _ => ([], .error (.panic .divergence))
  | fuel + 1, table =>
      match nextEntry profile schema table with
      | .error stop => ([], .error stop)
      | .ok (none, _) => ([], .ok ())
      | .ok (some entry, next) =>
          let (entries, ending) := collect profile schema fuel next
          (entry :: entries, ending)

/-- Open both logs and call `next_entry` to the end. -/
def merge (profile : Profile) (schema : DatabaseSchema Interner)
    (pgStream sqStream : List (Except (SqlxError Driver) (LogRow Driver))) :
    List SyncTruthEntry × Except (Stop Driver) Unit :=
  match new schema pgStream sqStream with
  | .error error => ([], .error (.failed error))
  | .ok table => collect profile schema (pgStream.length + sqStream.length + 1) table

end TruthTable

end Boomerang
