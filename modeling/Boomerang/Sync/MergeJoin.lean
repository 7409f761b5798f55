import Boomerang.Foundation.OuterJoin
import Boomerang.Sync.TruthTable
import Mathlib.Data.Prod.Lex

/-!
# The merge is an outer join

The two logs are lists of records that ascend by table name and record id, in byte
order. The merge walks them as the outer join does and drops the records on which the
logs agree. A stream that fails part-way cuts the result short and changes nothing
before that.
-/

namespace Boomerang

open Foundation

/-- What a row of a log says. -/
structure LogRecord where
  table : String
  recordId : String
  op : LogOpType
  version : Int
  updatedAt : Int
deriving DecidableEq, Repr

namespace LogRecord

/-- The merge key, in the byte order of the `ORDER BY` clauses. -/
def key (record : LogRecord) : Lex (List Nat × List Nat) :=
  toLex (byteKey record.table, byteKey record.recordId)

/-- The row a driver delivers for a record. -/
def row {Driver : Type} (record : LogRecord) : LogRow Driver where
  table := .ok record.table
  recordId := .ok record.recordId
  op := .ok record.op.letter
  version := .ok record.version
  updatedAt := .ok record.updatedAt

/-- The version, the time and the operation, on which two logs may differ. -/
def state (record : LogRecord) : Int × Int × LogOpType :=
  (record.version, record.updatedAt, record.op)

/-- The lexicographic comparison of version and time. -/
def newer (left right : LogRecord) : Ordering :=
  (ordCmp left.version right.version).then (ordCmp left.updatedAt right.updatedAt)

end LogRecord

theorem byteKey_injective : Function.Injective byteKey := by
  intro left right same
  have numbers : Function.Injective UInt8.toNat := fun _ _ equal => UInt8.toNat_inj.mp equal
  exact bytes_injective (numbers.list_map same)

section Comparison

variable {Key First Second : Type} [LinearOrder Key] [LinearOrder First] [LinearOrder Second]

theorem ordCmp_eq_lt {left right : Key} : ordCmp left right = .lt ↔ left < right :=
  cmp_eq_lt_iff left right

theorem ordCmp_eq_eq {left right : Key} : ordCmp left right = .eq ↔ left = right :=
  cmp_eq_eq_iff left right

theorem ordCmp_eq_gt {left right : Key} : ordCmp left right = .gt ↔ right < left :=
  cmp_eq_gt_iff left right

/-- Pairs are compared by their first parts, then by their second. -/
theorem ordCmp_toLex (left right : First × Second) :
    ordCmp (toLex left) (toLex right) =
      (ordCmp left.1 right.1).then (ordCmp left.2 right.2) := by
  rcases lt_trichotomy left.1 right.1 with less | same | more
  · rw [ordCmp_eq_lt.mpr less]
    exact ordCmp_eq_lt.mpr (Prod.Lex.toLex_lt_toLex.mpr (Or.inl less))
  · rw [ordCmp_eq_eq.mpr same, Ordering.eq_then]
    rcases lt_trichotomy left.2 right.2 with less | equal | more
    · rw [ordCmp_eq_lt.mpr less]
      exact ordCmp_eq_lt.mpr (Prod.Lex.toLex_lt_toLex.mpr (Or.inr ⟨same, less⟩))
    · rw [ordCmp_eq_eq.mpr equal]
      exact ordCmp_eq_eq.mpr (congrArg toLex (Prod.ext same equal))
    · rw [ordCmp_eq_gt.mpr more]
      exact ordCmp_eq_gt.mpr (Prod.Lex.toLex_lt_toLex.mpr (Or.inr ⟨same.symm, more⟩))
  · rw [ordCmp_eq_gt.mpr more]
    exact ordCmp_eq_gt.mpr (Prod.Lex.toLex_lt_toLex.mpr (Or.inl more))

end Comparison

/-- The entry that reports a record. -/
def LogRecord.entry (symbols : String → Symbol) (record : LogRecord) : SyncLogEntry :=
  ⟨symbols record.table, record.recordId, record.op, record.version, record.updatedAt⟩

/-- The head of a record. -/
def LogRecord.head {Driver : Type} (symbols : String → Symbol) (record : LogRecord) : Head Driver :=
  ⟨record.row, symbols record.table, record.op, record.version, record.updatedAt⟩

/-- What is reported for an element of the join, if anything. -/
def verdict (symbols : String → Symbol) :
    Option LogRecord × Option LogRecord → Option SyncTruthEntry
  | (some p, none) => some ⟨some (p.entry symbols), none, .applyFromPostgres⟩
  | (none, some s) => some ⟨none, some (s.entry symbols), .applyFromSQLite⟩
  | (some p, some s) =>
      match p.newer s with
      | .gt => some ⟨some (p.entry symbols), some (s.entry symbols), .applyFromPostgres⟩
      | .lt => some ⟨some (p.entry symbols), some (s.entry symbols), .applyFromSQLite⟩
      | .eq =>
          if p.op = s.op then none
          else some ⟨some (p.entry symbols), some (s.entry symbols), .conflict⟩
  | (none, none) => none

/-- The entries of the complete merge. -/
def divergent (symbols : String → Symbol) (pgLog sqLog : List LogRecord) : List SyncTruthEntry :=
  (outerJoin LogRecord.key LogRecord.key pgLog sqLog).filterMap (verdict symbols)

/-- The side that is applied for a record of both logs. -/
def LogRecord.action (p s : LogRecord) : RowAction :=
  match p.newer s with
  | .gt => .applyFromPostgres
  | .lt => .applyFromSQLite
  | .eq => .conflict

/-- The merge has to report an entry for a key: the record of the side that has the
key, or both records when they differ. -/
inductive Reports (symbols : String → Symbol) (pgLog sqLog : List LogRecord) :
    Lex (List Nat × List Nat) → SyncTruthEntry → Prop where
  | postgresOnly {p} (here : p ∈ pgLog) (absent : ∀ s ∈ sqLog, s.key ≠ p.key) :
      Reports symbols pgLog sqLog p.key ⟨some (p.entry symbols), none, .applyFromPostgres⟩
  | sqliteOnly {s} (here : s ∈ sqLog) (absent : ∀ p ∈ pgLog, p.key ≠ s.key) :
      Reports symbols pgLog sqLog s.key ⟨none, some (s.entry symbols), .applyFromSQLite⟩
  | both {p s} (here : p ∈ pgLog) (there : s ∈ sqLog) (same : p.key = s.key)
      (differ : p.state ≠ s.state) :
      Reports symbols pgLog sqLog p.key ⟨some (p.entry symbols), some (s.entry symbols), p.action s⟩

theorem LogRecord.newer_eq_eq {p s : LogRecord} :
    p.newer s = .eq ↔ p.version = s.version ∧ p.updatedAt = s.updatedAt := by
  rw [newer, Ordering.then_eq_eq, ordCmp_eq_eq, ordCmp_eq_eq]

/-- Two records of one key are reported exactly when they differ. -/
theorem verdict_both (symbols : String → Symbol) (p s : LogRecord) :
    verdict symbols (some p, some s) = if p.state = s.state then none
      else some ⟨some (p.entry symbols), some (s.entry symbols), p.action s⟩ := by
  have agree : p.state = s.state ↔ p.newer s = .eq ∧ p.op = s.op := by
    rw [LogRecord.newer_eq_eq, LogRecord.state, LogRecord.state, Prod.mk.injEq, Prod.mk.injEq,
      and_assoc]
  cases order : p.newer s with
  | lt | gt =>
      rw [if_neg (by rw [agree, order]; simp)]
      simp only [verdict, LogRecord.action, order]
  | eq =>
      simp only [verdict, LogRecord.action, order]
      by_cases same : p.op = s.op
      · rw [if_pos same, if_pos (agree.mpr ⟨order, same⟩)]
      · rw [if_neg same, if_neg fun equal => same (agree.mp equal).2]

/-- The reported entries with their keys. -/
def keyedVerdict (symbols : String → Symbol) (pair : Option LogRecord × Option LogRecord) :
    Option (Lex (List Nat × List Nat) × SyncTruthEntry) :=
  (joinKey LogRecord.key LogRecord.key pair).bind fun key =>
    (verdict symbols pair).map fun entry => (key, entry)

/-- An element of the join is reported as the merge has to. -/
theorem reports_iff {symbols : String → Symbol} {pgLog sqLog : List LogRecord}
    {key : Lex (List Nat × List Nat)} {entry : SyncTruthEntry} :
    Reports symbols pgLog sqLog key entry ↔
      ∃ pair, Joined LogRecord.key LogRecord.key pgLog sqLog pair ∧
        keyedVerdict symbols pair = some (key, entry) := by
  constructor
  · rintro (⟨here, absent⟩ | ⟨here, absent⟩ | @⟨p, s, here, there, same, differ⟩)
    · exact ⟨(some _, none), ⟨here, absent⟩, rfl⟩
    · exact ⟨(none, some _), ⟨here, absent⟩, rfl⟩
    · refine ⟨(some p, some s), ⟨here, there, same⟩, ?_⟩
      rw [keyedVerdict, verdict_both, if_neg differ]
      rfl
  · rintro ⟨⟨_ | p, _ | s⟩, joined, reported⟩
    · exact joined.elim
    · cases reported
      exact .sqliteOnly joined.1 joined.2
    · cases reported
      exact .postgresOnly joined.1 joined.2
    · rw [keyedVerdict, verdict_both] at reported
      by_cases same : p.state = s.state
      · rw [if_pos same] at reported
        cases reported
      · rw [if_neg same] at reported
        cases reported
        exact .both joined.1 joined.2.1 joined.2.2 same

/-- The divergent records are what the merge has to report, in ascending order. -/
theorem divergent_spec (symbols : String → Symbol) {pgLog sqLog : List LogRecord}
    (pgAscending : Ascending LogRecord.key pgLog) (sqAscending : Ascending LogRecord.key sqLog) :
    ∃ keyed : List (Lex (List Nat × List Nat) × SyncTruthEntry),
      divergent symbols pgLog sqLog = keyed.map Prod.snd ∧
        (keyed.Pairwise fun first second => first.1 < second.1) ∧
        ∀ key entry, (key, entry) ∈ keyed ↔ Reports symbols pgLog sqLog key entry := by
  refine ⟨(outerJoin LogRecord.key LogRecord.key pgLog sqLog).filterMap (keyedVerdict symbols),
    ?_, ?_, ?_⟩
  · rw [List.map_filterMap, divergent]
    refine List.filterMap_congr fun pair _ => ?_
    obtain ⟨_ | p, _ | s⟩ := pair <;> simp [keyedVerdict, joinKey, verdict, Function.comp_def]
  · refine List.Pairwise.filterMap _ ?_ (outerJoin_ascending pgAscending sqAscending)
    intro first second order low lowEq high highEq
    have keyOf : ∀ {pair keyedEntry}, keyedVerdict symbols pair = some keyedEntry →
        joinKey LogRecord.key LogRecord.key pair = some keyedEntry.1 := by
      intro pair keyedEntry reported
      obtain ⟨key, keyEq, rest⟩ := Option.bind_eq_some_iff.mp reported
      obtain ⟨entry, _, rfl⟩ := Option.map_eq_some_iff.mp rest
      exact keyEq
    exact order _ _ (keyOf lowEq) (keyOf highEq)
  · intro key entry
    rw [List.mem_filterMap, reports_iff]
    simp only [mem_outerJoin pgAscending sqAscending]

variable {Driver Interner : Type} [InternerOps Interner]

/-- The memo of a stream is right. -/
def TableCache.Faithful (schema : DatabaseSchema Interner) (cache : TableCache) : Prop :=
  ∀ symbol, cache.symbol = some symbol → Names schema.interner symbol cache.name

/-- A stream delivers a log, unless it fails part-way: at a failed read or at a row that
does not decode. -/
inductive Delivers (schema : DatabaseSchema Interner) (mayFail : Prop) :
    List (Except (SqlxError Driver) (LogRow Driver)) → List LogRecord → Prop where
  | done : Delivers schema mayFail [] []
  | row {rest record log} (more : Delivers schema mayFail rest log) :
      Delivers schema mayFail (.ok record.row :: rest) (record :: log)
  | readFails {error rest log} (allowed : mayFail) :
      Delivers schema mayFail (.error error :: rest) log
  | rowFails {row rest log} (allowed : mayFail)
      (bad : ∀ cache, TableCache.Faithful schema cache → ∀ dbErr, ∃ error,
        Head.new row schema cache dbErr = .error error) :
      Delivers schema mayFail (.ok row :: rest) log

/-- The symbols of the tables of a log. -/
def KnownBy (schema : DatabaseSchema Interner) (symbols : String → Symbol)
    (log : List LogRecord) : Prop :=
  ∀ record ∈ log, Names schema.interner (symbols record.table) record.table

/-- A side whose lookahead is the first record of a log, or none at its end. What was
asked of the whole stream holds at the end, and where nothing fails on the way there. -/
structure Waits (schema : DatabaseSchema Interner) (symbols : String → Symbol)
    (mayFail whole : Prop) (side : Side Driver) (log : List LogRecord) : Prop where
  faithful : side.cache.Faithful schema
  lookahead : side.head = none ∧ log = [] ∧ whole ∨ ∃ record rest, log = record :: rest ∧
    side.head = some (record.head symbols) ∧ Delivers schema mayFail side.stream rest ∧
      (Delivers schema False side.stream rest → whole)

variable [LawfulInterner Interner] {schema : DatabaseSchema Interner}
variable {symbols : String → Symbol} {mayFail whole : Prop}

/-- A faithful memo and the lookup agree on the symbol of a known table. -/
theorem TableCache.symbolFor_ok (valid : LawfulInterner.Valid schema.interner)
    {cache : TableCache} (faithful : cache.Faithful schema) {symbol : Symbol} {table : String}
    (known : Names schema.interner symbol table) :
    ∃ next, (cache.symbolFor schema table : Except (TruthTableError Driver) _) =
      .ok (symbol, next) ∧ next.Faithful schema := by
  have found : schema.getSymbol table = some symbol :=
    (LawfulInterner.get_eq_some valid).mpr known
  have looked : Faithful schema ⟨table, some symbol⟩ := by
    rintro other ⟨⟩
    exact known
  unfold TableCache.symbolFor
  split
  · rename_i memo memoEq same
    have named := faithful memo memoEq
    rw [of_decide_eq_true same] at named
    exact ⟨cache, by rw [named.injective valid known], faithful⟩
  · exact ⟨_, by rw [found], looked⟩

/-- The row of a known record decodes. -/
theorem Head.new_row (valid : LawfulInterner.Valid schema.interner) {cache : TableCache}
    (faithful : cache.Faithful schema) (record : LogRecord)
    (known : Names schema.interner (symbols record.table) record.table)
    (dbErr : SqlxError Driver → TruthTableError Driver) :
    ∃ next, Head.new record.row schema cache dbErr = .ok (record.head symbols, next) ∧
      next.Faithful schema := by
  obtain ⟨next, looked, nextFaithful⟩ : ∃ next,
      (cache.symbolFor schema record.table : Except (TruthTableError Driver) _) =
        .ok (symbols record.table, next) ∧ next.Faithful schema :=
    TableCache.symbolFor_ok valid faithful known
  refine ⟨next, ?_, nextFaithful⟩
  simp only [Head.new, LogRecord.row, Except.mapError, bind, Except.bind, looked,
    LogOpType.tryFrom_letter, pure, Except.pure]
  rfl

/-- Heads of known records are compared by their keys. -/
theorem cmpHeads_eq (valid : LawfulInterner.Valid schema.interner) {left right : LogRecord}
    (leftKnown : Names schema.interner (symbols left.table) left.table)
    (rightKnown : Names schema.interner (symbols right.table) right.table) :
    cmpHeads (left.head symbols : Head Driver) (right.head symbols) schema =
      .ok (ordCmp left.key right.key) := by
  have sameTable := leftKnown.symbol_eq_iff valid rightKnown
  unfold cmpHeads
  rw [LogRecord.key, LogRecord.key, ordCmp_toLex]
  by_cases same : left.table = right.table
  · rw [if_pos (show (left.head symbols : Head Driver).table = (right.head symbols).table from
      sameTable.mpr same), ordCmp_eq_eq.mpr (congrArg byteKey same)]
    rfl
  · have apart : ordCmp (byteKey left.table) (byteKey right.table) ≠ .eq := fun equal =>
      same (byteKey_injective (ordCmp_eq_eq.mp equal))
    have name : ∀ {symbol text}, Names schema.interner symbol text →
        resolveExpected schema.interner symbol "symbol not from this schema" = .ok text :=
      fun named => resolveExpected_eq_ok.mpr named
    rw [if_neg (show ¬ (left.head symbols : Head Driver).table = (right.head symbols).table from
      fun equal => same (sameTable.mp equal))]
    simp only [LogRecord.head, name leftKnown, name rightKnown, bind, Except.bind, pure,
      Except.pure]
    cases ordered : ordCmp (byteKey left.table) (byteKey right.table) with
    | eq => exact absurd ordered apart
    | lt | gt => rfl

/-- A pull of a delivered log waits for it, or fails where the stream does. -/
theorem pull_ok (valid : LawfulInterner.Valid schema.interner) {side : Side Driver}
    {log : List LogRecord} (faithful : side.cache.Faithful schema)
    (delivers : Delivers schema mayFail side.stream log)
    (entire : Delivers schema False side.stream log → whole)
    (known : KnownBy schema symbols log) (dbErr : SqlxError Driver → TruthTableError Driver) :
    (mayFail ∧ ∃ error, pull side schema dbErr = .error error) ∨
      ∃ head next, pull side schema dbErr = .ok (head, next) ∧
        Waits schema symbols mayFail whole { next with head := head } log := by
  obtain ⟨stream, cache, head⟩ := side
  cases delivers with
  | done => exact Or.inr ⟨none, _, rfl, faithful, Or.inl ⟨rfl, rfl, entire .done⟩⟩
  | @row rest record log more =>
      obtain ⟨next, decoded, nextFaithful⟩ :=
        Head.new_row valid faithful record (known record List.mem_cons_self) dbErr
      refine Or.inr ⟨some (record.head symbols), ⟨rest, next, head⟩, ?_, nextFaithful,
        Or.inr ⟨record, log, rfl, rfl, more, fun rest => entire (.row rest)⟩⟩
      simp only [pull, decoded, bind, Except.bind, pure, Except.pure]
  | readFails allowed => exact Or.inl ⟨allowed, _, rfl⟩
  | rowFails allowed bad =>
      obtain ⟨error, failed⟩ := bad cache faithful dbErr
      refine Or.inl ⟨allowed, error, ?_⟩
      simp only [pull, failed, bind, Except.bind]

omit [LawfulInterner Interner] in
/-- A pull moves one row from the stream to the head it returns. -/
theorem pull_remaining {side next : Side Driver} {head : Option (Head Driver)}
    {dbErr : SqlxError Driver → TruthTableError Driver}
    (pulled : pull side schema dbErr = .ok (head, next)) :
    next.head = side.head ∧
      next.stream.length + (if head.isSome then 1 else 0) = side.stream.length := by
  obtain ⟨stream, cache, current⟩ := side
  match stream with
  | [] =>
      cases pulled
      exact ⟨rfl, rfl⟩
  | .error error :: rest => cases pulled
  | .ok row :: rest =>
      cases decoded : Head.new row schema cache dbErr with
      | error error =>
          simp only [pull, decoded, bind, Except.bind] at pulled
          cases pulled
      | ok found =>
          simp only [pull, decoded, bind, Except.bind, pure, Except.pure] at pulled
          cases pulled
          exact ⟨rfl, rfl⟩

/-- A waiting side gives up its record and waits for the next. -/
theorem advance_ok (valid : LawfulInterner.Valid schema.interner) (profile : Profile)
    {side : Side Driver} {next : Option (Head Driver)} {record : LogRecord}
    {rest : List LogRecord} (here : side.head = some (record.head symbols))
    (waits : Waits schema symbols mayFail whole { side with head := next } rest)
    (ascending : Ascending LogRecord.key (record :: rest))
    (known : KnownBy schema symbols (record :: rest)) :
    advance profile side next schema =
      .ok (some (record.head symbols), { side with head := next }) := by
  unfold advance
  cases profile with
  | release => simp only [here]; rfl
  | debug =>
      rcases waits.lookahead with ⟨ended, _⟩ | ⟨later, _, rfl, there, _⟩
      · dsimp only at ended
        simp only [here, ended]
        rfl
      · dsimp only at there
        have greater : ordCmp later.key record.key = .gt :=
          ordCmp_eq_gt.mpr
            ((List.pairwise_cons.mp ascending).1 later List.mem_cons_self)
        have compared : cmpHeads (later.head symbols : Head Driver) (record.head symbols) schema =
            .ok (ordCmp later.key record.key) :=
          cmpHeads_eq valid (known later (List.mem_cons_of_mem _ List.mem_cons_self))
            (known record List.mem_cons_self)
        simp only [here, there, compared, greater]
        rfl

/-- Records of known tables resolve to their verdict. -/
theorem TruthTable.resolve_eq (pg sq : Option LogRecord) (taken : pg ≠ none ∨ sq ≠ none) :
    resolve (pg.map (LogRecord.head symbols) : Option (Head Driver))
      (sq.map (LogRecord.head symbols)) = .ok (verdict symbols (pg, sq)) := by
  match pg, sq with
  | none, none => simp at taken
  | some p, none => rfl
  | none, some s => rfl
  | some p, some s =>
      unfold resolve verdict LogRecord.newer
      simp only [Option.map_some, LogRecord.head]
      cases (ordCmp p.version s.version).then (ordCmp p.updatedAt s.updatedAt) with
      | lt => rfl
      | gt => rfl
      | eq =>
          by_cases same : p.op = s.op
          · simp only [same]; rfl
          · simp only [same]; rfl

omit [LawfulInterner Interner] in
/-- A log delivered without failure. -/
theorem delivers_map (log : List LogRecord) :
    Delivers schema mayFail (log.map fun record => (.ok record.row : Except (SqlxError Driver) _))
      log := by
  induction log with
  | nil => exact .done
  | cons record log ih => exact .row ih

omit [LawfulInterner Interner] in
/-- Without failure a stream is the rows of its log. -/
theorem Delivers.eq_map {stream : List (Except (SqlxError Driver) (LogRow Driver))}
    {log : List LogRecord} (delivers : Delivers schema False stream log) :
    stream = log.map fun record => .ok record.row := by
  induction delivers with
  | done => rfl
  | row _ ih => rw [List.map_cons, ih]
  | readFails allowed => exact allowed.elim
  | rowFails allowed _ => exact allowed.elim

namespace TruthTable

variable {pgWhole sqWhole : Prop}

/-- The merge with some records of each log still to come. -/
structure Merging (schema : DatabaseSchema Interner) (symbols : String → Symbol)
    (mayFail pgWhole sqWhole : Prop) (table : TruthTable Driver) (pgLog sqLog : List LogRecord) :
    Prop where
  pg : Waits schema symbols mayFail pgWhole table.pg pgLog
  sq : Waits schema symbols mayFail sqWhole table.sq sqLog
  pgAscending : Ascending LogRecord.key pgLog
  sqAscending : Ascending LogRecord.key sqLog
  pgKnown : KnownBy schema symbols pgLog
  sqKnown : KnownBy schema symbols sqLog

/-- What taking a side does, or leaving it alone: it fails with its stream, or gives up
a record and waits for the next. -/
def SideTaken (schema : DatabaseSchema Interner) (symbols : String → Symbol)
    (mayFail whole : Prop) (profile : Profile) (side : Side Driver)
    (dbErr : SqlxError Driver → TruthTableError Driver) (taken : Bool)
    (given : Option LogRecord) (rest : List LogRecord) : Prop :=
  (mayFail ∧ ∃ error, pullIf taken side schema dbErr = .error error) ∨
    ∃ next pulled after, pullIf taken side schema dbErr = .ok (next, pulled) ∧
      advanceIf profile pulled next schema = .ok (given.map (LogRecord.head symbols), after) ∧
      Waits schema symbols mayFail whole after rest ∧
      remaining after + (if taken then 1 else 0) = remaining side

omit [LawfulInterner Interner] in
/-- A side that is left alone. -/
theorem SideTaken.left {profile : Profile} {side : Side Driver} {log : List LogRecord}
    (waits : Waits schema symbols mayFail whole side log)
    (dbErr : SqlxError Driver → TruthTableError Driver) :
    SideTaken schema symbols mayFail whole profile side dbErr false none log :=
  Or.inr ⟨none, side, side, rfl, rfl, waits, rfl⟩

/-- A side that is taken gives up its first record. -/
theorem SideTaken.taken (valid : LawfulInterner.Valid schema.interner) {profile : Profile}
    {side : Side Driver} {record : LogRecord} {rest : List LogRecord}
    (waits : Waits schema symbols mayFail whole side (record :: rest))
    (ascending : Ascending LogRecord.key (record :: rest))
    (known : KnownBy schema symbols (record :: rest))
    (dbErr : SqlxError Driver → TruthTableError Driver) :
    SideTaken schema symbols mayFail whole profile side dbErr true (some record) rest := by
  rcases waits.lookahead with ⟨_, impossible, _⟩ | ⟨_, _, ⟨⟩, here, delivers, entire⟩
  · cases impossible
  · have restKnown : KnownBy schema symbols rest :=
      fun later member => known later (List.mem_cons_of_mem _ member)
    rcases pull_ok valid waits.faithful delivers entire restKnown dbErr with
      ⟨allowed, error, failed⟩ | ⟨head, next, pulled, after⟩
    · exact Or.inl ⟨allowed, error, by simp only [pullIf, failed, if_true, bind, Except.bind]⟩
    · obtain ⟨sameHead, counted⟩ := pull_remaining pulled
      have nextHere : next.head = some (record.head symbols) := sameHead.trans here
      refine Or.inr ⟨some head, next, { next with head := head }, ?_, ?_, after, ?_⟩
      · simp only [pullIf, pulled, if_true, bind, Except.bind, pure, Except.pure]
      · exact advance_ok valid profile nextHere after ascending known
      · simp only [remaining, here, Option.isSome_some, if_true]
        omega

omit [LawfulInterner Interner] in
/-- A turn resolves what the two sides give up. -/
theorem turn_of_taken {profile : Profile} {table : TruthTable Driver} (ord : Ordering)
    (pg sq : Option LogRecord) {pgRest sqRest : List LogRecord}
    (pgTaken : SideTaken schema symbols mayFail pgWhole profile table.pg .postgres (ord ≠ .gt)
      pg pgRest)
    (sqTaken : SideTaken schema symbols mayFail sqWhole profile table.sq .sqlite (ord ≠ .lt)
      sq sqRest)
    (some' : pg ≠ none ∨ sq ≠ none) :
    (mayFail ∧ ∃ error, turn profile schema table ord = .error (.failed error)) ∨
      ∃ next, turn profile schema table ord = .ok (verdict symbols (pg, sq), next) ∧
        Waits schema symbols mayFail pgWhole next.pg pgRest ∧
        Waits schema symbols mayFail sqWhole next.sq sqRest ∧
        remaining next.pg + remaining next.sq < remaining table.pg + remaining table.sq := by
  unfold turn
  rcases pgTaken with ⟨allowed, error, failed⟩ | ⟨pgNext, pgPulled, pgAfter, pgPull, pgAdvance,
    pgWaits, pgCount⟩
  · exact Or.inl ⟨allowed, error, by simp only [failed, Except.mapError, bind, Except.bind]⟩
  · rcases sqTaken with ⟨allowed, error, failed⟩ | ⟨sqNext, sqPulled, sqAfter, sqPull, sqAdvance,
      sqWaits, sqCount⟩
    · exact Or.inl ⟨allowed, error,
        by simp only [pgPull, failed, Except.mapError, bind, Except.bind]⟩
    · refine Or.inr ⟨⟨pgAfter, sqAfter⟩, ?_, pgWaits, sqWaits, ?_⟩
      · simp only [pgPull, sqPull, pgAdvance, sqAdvance, resolve_eq pg sq some', Except.mapError,
          bind, Except.bind, pure, Except.pure]
      · cases ord <;> simp at pgCount sqCount <;> dsimp only <;> omega

/-- One turn takes the first element of the join. -/
theorem Merging.turn_ok (valid : LawfulInterner.Valid schema.interner) (profile : Profile)
    {table : TruthTable Driver} {pgLog sqLog : List LogRecord}
    (merging : Merging schema symbols mayFail pgWhole sqWhole table pgLog sqLog) :
    (pgLog = [] ∧ sqLog = [] ∧ table.order schema = .ok none ∧ pgWhole ∧ sqWhole) ∨
      ∃ ord pair pgRest sqRest, table.order schema = .ok (some ord) ∧
        outerJoin LogRecord.key LogRecord.key pgLog sqLog =
          pair :: outerJoin LogRecord.key LogRecord.key pgRest sqRest ∧
        ((mayFail ∧ ∃ error, turn profile schema table ord = .error (.failed error)) ∨
          ∃ next, turn profile schema table ord = .ok (verdict symbols pair, next) ∧
            Merging schema symbols mayFail pgWhole sqWhole next pgRest sqRest ∧
            remaining next.pg + remaining next.sq < remaining table.pg + remaining table.sq) := by
  obtain ⟨pgWaits, sqWaits, pgAscending, sqAscending, pgKnown, sqKnown⟩ := merging
  have tail : ∀ {record rest}, KnownBy schema symbols (record :: rest) →
      KnownBy schema symbols rest :=
    fun known later member => known later (List.mem_cons_of_mem _ member)
  rcases pgWaits.lookahead with ⟨pgEnd, rfl, pgAll⟩ | ⟨p, pgRest, rfl, pgHere, _⟩
  · rcases sqWaits.lookahead with ⟨sqEnd, rfl, sqAll⟩ | ⟨s, sqRest, rfl, sqHere, _⟩
    · exact Or.inl ⟨rfl, rfl, by simp only [order, pgEnd, sqEnd], pgAll, sqAll⟩
    · refine Or.inr ⟨.gt, (none, some s), [], sqRest, by simp only [order, pgEnd, sqHere],
        by simp, ?_⟩
      rcases turn_of_taken .gt none (some s) (.left pgWaits _)
        (.taken valid sqWaits sqAscending sqKnown _) (Or.inr (Option.some_ne_none s)) with
        failed | ⟨next, turned, pgNext, sqNext, fewer⟩
      · exact Or.inl failed
      · exact Or.inr ⟨next, turned, ⟨pgNext, sqNext, pgAscending,
          List.Pairwise.of_cons sqAscending, pgKnown, tail sqKnown⟩, fewer⟩
  · rcases sqWaits.lookahead with ⟨sqEnd, rfl, _⟩ | ⟨s, sqRest, rfl, sqHere, _⟩
    · refine Or.inr ⟨.lt, (some p, none), pgRest, [], by simp only [order, pgHere, sqEnd],
        by simp, ?_⟩
      rcases turn_of_taken .lt (some p) none (.taken valid pgWaits pgAscending pgKnown _)
        (.left sqWaits _) (Or.inl (Option.some_ne_none p)) with
        failed | ⟨next, turned, pgNext, sqNext, fewer⟩
      · exact Or.inl failed
      · exact Or.inr ⟨next, turned, ⟨pgNext, sqNext, List.Pairwise.of_cons pgAscending,
          sqAscending, tail pgKnown, sqKnown⟩, fewer⟩
    · have compared : table.order schema = .ok (some (ordCmp p.key s.key)) := by
        simp only [order, pgHere, sqHere]
        rw [cmpHeads_eq valid (pgKnown p List.mem_cons_self) (sqKnown s List.mem_cons_self)]
        rfl
      rcases ordered : ordCmp p.key s.key with _ | _ | _
      · refine Or.inr ⟨.lt, (some p, none), pgRest, s :: sqRest, ordered ▸ compared,
          outerJoin_of_lt (ordCmp_eq_lt.mp ordered), ?_⟩
        rcases turn_of_taken .lt (some p) none (.taken valid pgWaits pgAscending pgKnown _)
          (.left sqWaits _) (Or.inl (Option.some_ne_none p)) with
          failed | ⟨next, turned, pgNext, sqNext, fewer⟩
        · exact Or.inl failed
        · exact Or.inr ⟨next, turned, ⟨pgNext, sqNext, List.Pairwise.of_cons pgAscending,
            sqAscending, tail pgKnown, sqKnown⟩, fewer⟩
      · refine Or.inr ⟨.eq, (some p, some s), pgRest, sqRest, ordered ▸ compared,
          outerJoin_of_eq (ordCmp_eq_eq.mp ordered), ?_⟩
        rcases turn_of_taken .eq (some p) (some s) (.taken valid pgWaits pgAscending pgKnown _)
          (.taken valid sqWaits sqAscending sqKnown _) (Or.inl (Option.some_ne_none p)) with
          failed | ⟨next, turned, pgNext, sqNext, fewer⟩
        · exact Or.inl failed
        · exact Or.inr ⟨next, turned, ⟨pgNext, sqNext, List.Pairwise.of_cons pgAscending,
            List.Pairwise.of_cons sqAscending, tail pgKnown, tail sqKnown⟩, fewer⟩
      · refine Or.inr ⟨.gt, (none, some s), p :: pgRest, sqRest, ordered ▸ compared,
          outerJoin_of_gt (ordCmp_eq_gt.mp ordered), ?_⟩
        rcases turn_of_taken .gt none (some s) (.left pgWaits _)
          (.taken valid sqWaits sqAscending sqKnown _) (Or.inr (Option.some_ne_none s)) with
          failed | ⟨next, turned, pgNext, sqNext, fewer⟩
        · exact Or.inl failed
        · exact Or.inr ⟨next, turned, ⟨pgNext, sqNext, pgAscending,
            List.Pairwise.of_cons sqAscending, pgKnown, tail sqKnown⟩, fewer⟩

/-- The loop reports the next divergent record, or the end, or the failure of a stream. -/
theorem Merging.nextEntryLoop_ok (valid : LawfulInterner.Valid schema.interner)
    (profile : Profile) {table : TruthTable Driver} {pgLog sqLog : List LogRecord}
    (merging : Merging schema symbols mayFail pgWhole sqWhole table pgLog sqLog) {fuel : Nat}
    (enough : remaining table.pg + remaining table.sq < fuel) :
    (mayFail ∧ ∃ error, nextEntryLoop profile schema fuel table = .error (.failed error)) ∨
      (∃ next, nextEntryLoop profile schema fuel table = .ok (none, next) ∧
        divergent symbols pgLog sqLog = [] ∧ pgWhole ∧ sqWhole) ∨
      ∃ entry next pgRest sqRest, nextEntryLoop profile schema fuel table = .ok (some entry, next) ∧
        divergent symbols pgLog sqLog = entry :: divergent symbols pgRest sqRest ∧
        Merging schema symbols mayFail pgWhole sqWhole next pgRest sqRest ∧
        remaining next.pg + remaining next.sq < remaining table.pg + remaining table.sq := by
  induction fuel generalizing table pgLog sqLog with
  | zero => omega
  | succ fuel ih =>
      rcases merging.turn_ok valid profile with
        ⟨rfl, rfl, ended, all⟩ | ⟨ord, pair, pgRest, sqRest, ordered, joined, turned⟩
      · exact Or.inr (Or.inl ⟨table, by simp only [nextEntryLoop, ended], by simp [divergent], all⟩)
      · rcases turned with ⟨allowed, error, failed⟩ | ⟨next, resolved, after, fewer⟩
        · exact Or.inl ⟨allowed, error, by simp only [nextEntryLoop, ordered, failed]⟩
        · have split : divergent symbols pgLog sqLog =
              (verdict symbols pair).toList ++ divergent symbols pgRest sqRest := by
            rw [divergent, joined, List.filterMap_cons]
            cases verdict symbols pair <;> rfl
          cases found : verdict symbols pair with
          | some entry =>
              rw [found] at resolved split
              exact Or.inr (Or.inr ⟨entry, next, pgRest, sqRest,
                by simp only [nextEntryLoop, ordered, resolved], split, after, fewer⟩)
          | none =>
              -- The logs agree on this record: the loop goes on.
              rw [found] at resolved split
              have again : nextEntryLoop profile schema (fuel + 1) table =
                  nextEntryLoop profile schema fuel next := by
                simp only [nextEntryLoop, ordered, resolved]
              rw [again, split, Option.toList_none, List.nil_append]
              rcases ih after (by omega) with failed | ended | ⟨entry, last, rest, more, found,
                joined, merging, less⟩
              · exact Or.inl failed
              · exact Or.inr (Or.inl ended)
              · exact Or.inr (Or.inr ⟨entry, last, rest, more, found, joined, merging,
                  Nat.lt_trans less fewer⟩)

/-- The calls return the divergent records in order. They come to the end only with the
streams, so a stream that fails is what ends them. -/
theorem Merging.collect_ok (valid : LawfulInterner.Valid schema.interner)
    (profile : Profile) {table : TruthTable Driver} {pgLog sqLog : List LogRecord}
    (merging : Merging schema symbols mayFail pgWhole sqWhole table pgLog sqLog) {fuel : Nat}
    (enough : remaining table.pg + remaining table.sq < fuel) :
    (collect profile schema fuel table = (divergent symbols pgLog sqLog, .ok ()) ∧
        pgWhole ∧ sqWhole) ∨
      (mayFail ∧ ∃ entries error,
        collect profile schema fuel table = (entries, .error (.failed error)) ∧
          entries <+: divergent symbols pgLog sqLog) := by
  induction fuel generalizing table pgLog sqLog with
  | zero => omega
  | succ fuel ih =>
      rcases merging.nextEntryLoop_ok valid profile (Nat.lt_succ_self _) with
        ⟨allowed, error, failed⟩ | ⟨next, ended, empty, streams⟩ |
        ⟨entry, next, pgRest, sqRest, found, split, after, fewer⟩
      · exact Or.inr ⟨allowed, [], error, by simp only [collect, nextEntry, failed],
          List.nil_prefix⟩
      · exact Or.inl ⟨by simp only [collect, nextEntry, ended, empty], streams⟩
      · rcases ih after (by omega) with ⟨all, streams⟩ | ⟨allowed, entries, error, cut, start⟩
        · exact Or.inl ⟨by simp only [collect, nextEntry, found, all, split], streams⟩
        · refine Or.inr ⟨allowed, entry :: entries, error,
            by simp only [collect, nextEntry, found, cut], ?_⟩
          rw [split]
          exact (List.prefix_cons_inj entry).mpr start

/-- Opening the logs and calling to the end, which comes only when no stream fails. -/
theorem merge_ok (valid : LawfulInterner.Valid schema.interner) (profile : Profile)
    {pgLog sqLog : List LogRecord} {pgStream sqStream : List (Except (SqlxError Driver) _)}
    (pgDelivers : Delivers schema mayFail pgStream pgLog)
    (sqDelivers : Delivers schema mayFail sqStream sqLog)
    (pgAscending : Ascending LogRecord.key pgLog) (sqAscending : Ascending LogRecord.key sqLog)
    (pgKnown : KnownBy schema symbols pgLog) (sqKnown : KnownBy schema symbols sqLog) :
    (merge profile schema pgStream sqStream = (divergent symbols pgLog sqLog, .ok ()) ∧
        Delivers schema False pgStream pgLog ∧ Delivers schema False sqStream sqLog) ∨
      (mayFail ∧ ∃ entries error,
        merge profile schema pgStream sqStream = (entries, .error (.failed error)) ∧
          entries <+: divergent symbols pgLog sqLog) := by
  have opened : ∀ stream : List (Except (SqlxError Driver) (LogRow Driver)),
      (Side.mk stream .default none).cache.Faithful schema := fun _ _ impossible =>
    nomatch impossible
  unfold merge TruthTable.new
  rcases pull_ok valid (opened pgStream) pgDelivers id pgKnown .postgres with
    ⟨allowed, error, failed⟩ | ⟨pgHead, pg, pgPulled, pgWaits⟩
  · exact Or.inr ⟨allowed, [], error, by simp only [failed, bind, Except.bind], List.nil_prefix⟩
  · rcases pull_ok valid (opened sqStream) sqDelivers id sqKnown .sqlite with
      ⟨allowed, error, failed⟩ | ⟨sqHead, sq, sqPulled, sqWaits⟩
    · exact Or.inr ⟨allowed, [], error,
        by simp only [pgPulled, failed, bind, Except.bind], List.nil_prefix⟩
    · have pgCount := (pull_remaining pgPulled).2
      have sqCount := (pull_remaining sqPulled).2
      simp only [pgPulled, sqPulled, bind, Except.bind, pure, Except.pure]
      refine Merging.collect_ok valid profile
        ⟨pgWaits, sqWaits, pgAscending, sqAscending, pgKnown, sqKnown⟩ ?_
      simp only [remaining]
      dsimp only at pgCount sqCount
      omega

/-- On logs that ascend by key and name tables of the schema, the calls of `next_entry`
report exactly what the merge has to, in ascending order of keys, and end. An entry
has no winner exactly in a conflict. Where a stream fails part-way, the calls end in its
error, and the entries reported before are the first ones of the same sequence. -/
theorem merge_reports (valid : LawfulInterner.Valid schema.interner) (profile : Profile)
    {pgLog sqLog : List LogRecord} (pgAscending : Ascending LogRecord.key pgLog)
    (sqAscending : Ascending LogRecord.key sqLog) (pgKnown : KnownBy schema symbols pgLog)
    (sqKnown : KnownBy schema symbols sqLog) :
    ∃ keyed : List (Lex (List Nat × List Nat) × SyncTruthEntry),
      merge profile schema (pgLog.map fun record => (.ok record.row : Except (SqlxError Driver) _))
          (sqLog.map fun record => .ok record.row) = (keyed.map Prod.snd, .ok ()) ∧
        (keyed.Pairwise fun first second => first.1 < second.1) ∧
        (∀ key entry, (key, entry) ∈ keyed ↔ Reports symbols pgLog sqLog key entry) ∧
        (∀ key entry, (key, entry) ∈ keyed →
          (entry.winningEntry = none ↔ entry.action = .conflict)) ∧
        ∀ pgStream sqStream : List (Except (SqlxError Driver) (LogRow Driver)),
          Delivers schema True pgStream pgLog → Delivers schema True sqStream sqLog →
            (merge profile schema pgStream sqStream = (keyed.map Prod.snd, .ok ()) ∧
              Delivers schema False pgStream pgLog ∧ Delivers schema False sqStream sqLog) ∨
            ∃ entries error,
              merge profile schema pgStream sqStream = (entries, .error (.failed error)) ∧
                entries <+: keyed.map Prod.snd := by
  obtain ⟨keyed, all, ascending, members⟩ := divergent_spec symbols pgAscending sqAscending
  refine ⟨keyed, ?_, ascending, members, ?_, ?_⟩
  · have delivered : ∀ log : List LogRecord, Delivers schema False
        (log.map fun record => (.ok record.row : Except (SqlxError Driver) _)) log := delivers_map
    rw [← all]
    rcases merge_ok valid profile (delivered pgLog) (delivered sqLog) pgAscending sqAscending
      pgKnown sqKnown with ⟨merged, _⟩ | ⟨impossible, _⟩
    · exact merged
    · exact impossible.elim
  · intro key entry member
    cases (members key entry).mp member with
    | postgresOnly | sqliteOnly => simp [SyncTruthEntry.winningEntry]
    | @both p s =>
        simp only [SyncTruthEntry.winningEntry]
        cases p.action s <;> simp
  · intro pgStream sqStream pgDelivers sqDelivers
    rw [← all]
    exact (merge_ok valid profile pgDelivers sqDelivers pgAscending sqAscending pgKnown
      sqKnown).imp_right And.right

/-- A schema that knows the tables of one letter. -/
theorem exists_letterTables :
    ∃ (schema : DatabaseSchema (StringInterner ⟨.debug, fun _ => 0⟩)) (symbols : String → Symbol),
      LawfulInterner.Valid schema.interner ∧ ∀ log : List LogRecord,
        (∀ record ∈ log, (staticSymbol? record.table).isSome = true) →
          KnownBy schema symbols log := by
  obtain ⟨interner, _, created⟩ :=
    StringInterner.withCapacityAndShards_ok ⟨.debug, fun _ => 0⟩ (fun _ => 0) 1 4
  have valid : LawfulInterner.Valid interner := ⟨_, created.holds⟩
  obtain ⟨other, _⟩ : ∃ symbol, staticSymbol? "t" = some symbol :=
    Option.isSome_iff_exists.mp (by decide)
  refine ⟨⟨[], [], [], [], [], [], ⟨List.replicate 32 0, rfl⟩, interner⟩,
    fun table => (staticSymbol? table).getD other, valid, ?_⟩
  intro log letters record member
  obtain ⟨symbol, letter⟩ := Option.isSome_iff_exists.mp (letters record member)
  refine (LawfulInterner.get_eq_some valid).mp ?_
  show interner.get record.table = some ((staticSymbol? record.table).getD other)
  rw [StringInterner.get, letter, Option.getD_some]

/-- A record of both logs that differs, one of Postgres alone and one of SQLite alone. The
same merge when the stream of Postgres fails behind its first row. -/
theorem merge_reports_three :
    ∃ (schema : DatabaseSchema (StringInterner ⟨.debug, fun _ => 0⟩)) (p q s t : LogRecord)
      (symbols : String → Symbol) (entries : List SyncTruthEntry),
      merge .debug schema [.ok p.row, .ok q.row] [.ok s.row, .ok t.row] =
          (entries, (.ok () : Except (Stop Unit) Unit)) ∧
        ⟨some (p.entry symbols), some (s.entry symbols), .applyFromSQLite⟩ ∈ entries ∧
        ⟨some (q.entry symbols), none, .applyFromPostgres⟩ ∈ entries ∧
        ⟨none, some (t.entry symbols), .applyFromSQLite⟩ ∈ entries ∧
        ∃ before error,
          merge .debug schema [.ok p.row, .error (.driver ())] [.ok s.row, .ok t.row] =
            (before, .error (.failed error)) ∧ before <+: entries := by
  obtain ⟨schema, symbols, valid, known⟩ := exists_letterTables
  let p : LogRecord := ⟨"s", "1", .insert, 1, 0⟩
  let q : LogRecord := ⟨"s", "2", .insert, 1, 0⟩
  let s : LogRecord := ⟨"s", "1", .update, 2, 0⟩
  let t : LogRecord := ⟨"t", "1", .insert, 1, 0⟩
  have pgAscending : Ascending LogRecord.key [p, q] := by unfold Ascending; decide
  have sqAscending : Ascending LogRecord.key [s, t] := by unfold Ascending; decide
  obtain ⟨keyed, merged, _, members, _, streams⟩ := @merge_reports Unit _ _ _ schema symbols valid
    .debug [p, q] [s, t] pgAscending sqAscending (known _ (by decide)) (known _ (by decide))
  have reported : ∀ {key entry}, Reports symbols [p, q] [s, t] key entry →
      entry ∈ keyed.map Prod.snd :=
    fun reports => List.mem_map_of_mem ((members _ _).mpr reports)
  refine ⟨schema, p, q, s, t, symbols, _, merged, ?_, ?_, ?_, ?_⟩
  · exact reported (.both List.mem_cons_self List.mem_cons_self (by decide) (by decide))
  · exact reported (.postgresOnly (by simp) (by decide))
  · exact reported (.sqliteOnly (by simp) (by decide))
  · rcases streams [.ok p.row, .error (.driver ())] [.ok s.row, .ok t.row]
      (.row (.readFails trivial)) (.row (.row .done)) with ⟨_, whole, _⟩ | cut
    · cases whole.eq_map
    · exact cut

end TruthTable

end Boomerang
