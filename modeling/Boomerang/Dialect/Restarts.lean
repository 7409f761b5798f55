import Boomerang.Dialect.PostgresDatabase
import Boomerang.Foundation.Transition

/-!
# Histories with restarts

A database is opened several times; tables are created and rows inserted in between.
The backfill looks at the whole log, so a table that is created after the log has its
first entry is never filled in: its rows are logged from its first trigger on.
-/

namespace Boomerang

open Foundation

/-- What happens to a database. -/
inductive PgEvent (Interner Value : Type) where
  /-- `new` returns, with this schema. -/
  | opened (schema : DatabaseSchema Interner)
  /-- `new` fails. -/
  | refused
  | createTable (table : PgTable Value)
  | insert (name : String) (record : Record Value)

section Runs

variable {Interner Value : Type} [InternerOps Interner] (text : Value → String)

/-- The log after a row is inserted, by the trigger that is installed, if there is one. -/
def PgTable.logInsert (table : PgTable Value) (now : Int) (record : Record Value) (log : SyncLog) :
    Option SyncLog :=
  match table.trigger with
  | none => some log
  | some trigger => trigger.fire text none now (.insert record) log

/-- A step of a history. -/
inductive PgStep [LawfulInterner Interner] :
    PgDatabase Value → PgEvent Interner Value → PgDatabase Value → Prop where
  | opened {db next schema now} (loads : Loads db.tables schema)
      (success : PostgresDatabase.new text schema now db = .ok next) :
      PgStep db (.opened schema) next
  | refused {db} : PgStep db .refused db
  | createTable {db table} (fresh : ∀ other ∈ db.tables, other.name ≠ table.name)
      (noRecords : table.records = []) (noTrigger : table.trigger = none) :
      PgStep db (.createTable table) { db with tables := table :: db.tables }
  | insert {db front table back record now log} (here : db.tables = front ++ table :: back)
      (logged : table.logInsert text now record db.log = some log) :
      PgStep db (.insert table.name record)
        ⟨front ++ { table with records := record :: table.records } :: back, log⟩

/-- Every row of every table of the schema is logged under its record id. -/
def PgDatabase.Complete (schema : DatabaseSchema Interner) (db : PgDatabase Value) : Prop :=
  ∀ table ∈ schema.tableRefs, ∀ tableName primaryCol, Keyed table tableName primaryCol →
    ∀ stored ∈ db.tables, stored.name = tableName → ∀ record ∈ stored.records,
      (publicName tableName, text (record primaryCol)) ∈ db.log

/-- The log is empty, or no table of the schema that has no trigger yet has rows. -/
def PgDatabase.NothingMissed (schema : DatabaseSchema Interner) (db : PgDatabase Value) : Prop :=
  db.log = ∅ ∨ ∀ table ∈ schema.tableRefs, ∀ stored ∈ db.tables,
    table.name = .ok stored.name → stored.trigger = none → stored.records = []

/-- What the triggers and the log have in common. -/
structure PgDatabase.Sound (db : PgDatabase Value) : Prop where
  distinct : (db.tables.map PgTable.name).Nodup
  /-- Only tables with a trigger have entries. -/
  owned : ∀ key ∈ db.log, ∃ stored ∈ db.tables, stored.trigger ≠ none ∧
    key.1 = publicName stored.name
  /-- A trigger is the one generated for its table. -/
  keyed : ∀ stored ∈ db.tables, ∀ trigger, stored.trigger = some trigger →
    ∃ primaryCol, stored.primaryCol = some primaryCol ∧ trigger = .of stored.name primaryCol
  /-- The rows of a table with a trigger are logged. -/
  logged : ∀ stored ∈ db.tables, ∀ trigger, stored.trigger = some trigger →
    ∀ record ∈ stored.records, (publicName stored.name, text (record trigger.pk)) ∈ db.log

variable {text} {db next : PgDatabase Value} {schema : DatabaseSchema Interner} {now : Int}

theorem PgDatabase.empty_sound : (empty : PgDatabase Value).Sound text := by
  refine ⟨List.nodup_nil, ?_, ?_, ?_⟩
  · rintro _ ⟨⟩
  · rintro _ ⟨⟩
  · rintro _ ⟨⟩

theorem PgDatabase.Sound.eq_of_name (sound : db.Sound text) {left right : PgTable Value}
    (leftIn : left ∈ db.tables) (rightIn : right ∈ db.tables) (same : left.name = right.name) :
    left = right :=
  List.inj_on_of_nodup_map sound.distinct leftIn rightIn same

theorem SyncLog.eq_empty_of_length {log : SyncLog} (noEntries : ¬ 0 < log.entries.length) :
    log = ∅ :=
  AList.ext (List.eq_nil_of_length_eq_zero (Nat.eq_zero_of_not_pos noEntries))

variable [LawfulInterner Interner]

/-- What `new` has done to the log and to each table, with the trigger it has now. -/
structure Opened (text : Value → String) (schema : DatabaseSchema Interner)
    (triggerOf : PgTable Value → Option PgTrigger) (db next : PgDatabase Value) : Prop where
  tables : next.tables = db.tables.map fun stored => { stored with trigger := triggerOf stored }
  source : ∀ stored ∈ db.tables, triggerOf stored = stored.trigger ∨ ∃ table ∈ schema.tableRefs,
    ∃ primaryCol, Keyed table stored.name primaryCol ∧
      triggerOf stored = some (.of stored.name primaryCol)
  installed : ∀ stored ∈ db.tables, ∀ table ∈ schema.tableRefs, table.name = .ok stored.name →
    triggerOf stored ≠ none
  keyed : ∀ table ∈ schema.tableRefs, ∃ tableName primaryCol, Keyed table tableName primaryCol
  kept : db.log ≠ ∅ → next.log = db.log
  filled : db.log = ∅ → ∀ key, key ∈ next.log ↔ ∃ table ∈ schema.tableRefs,
    ∃ tableName primaryCol, Keyed table tableName primaryCol ∧ ∃ stored ∈ db.tables,
      stored.name = tableName ∧ ∃ record ∈ stored.records,
        key = (publicName tableName, text (record primaryCol))

omit [LawfulInterner Interner] in
theorem PostgresDatabase.new_ok (success : new text schema now db = .ok next) :
    ∃ triggerOf, Opened text schema triggerOf db next := by
  obtain ⟨log, triggers, created, source, rfl⟩ := new_eq_ok.mp success
  have madeFor : ∀ trigger, trigger ∈ triggers ↔ ∃ table ∈ schema.tableRefs,
      ∃ tableName primaryCol, Keyed table tableName primaryCol ∧
        .of tableName primaryCol = trigger := by
    intro trigger
    rw [mem_mapM_ok created]
    simp only [tableTrigger_eq_ok]
  rw [PgDatabase.foldl_createTrigger]
  choose triggerOf folded origin absent using @PgTable.foldl_createTrigger Value triggers
  refine ⟨triggerOf, List.map_congr_left fun stored _ => folded stored, ?_, ?_, ?_, ?_, ?_⟩
  · intro stored _
    rcases origin stored with same | ⟨trigger, listed, named, same⟩
    · exact Or.inl same
    · obtain ⟨table, tableIn, tableName, primaryCol, keyed, rfl⟩ := (madeFor trigger).mp listed
      cases named
      exact Or.inr ⟨table, tableIn, primaryCol, keyed, same⟩
  · intro stored _ table tableIn name missing
    obtain ⟨trigger, listed, made⟩ := exists_of_mapM_ok created tableIn
    obtain ⟨tableName, primaryCol, keyed, rfl⟩ := tableTrigger_eq_ok.mp made
    exact absent stored missing _ listed (Except.ok.inj (keyed.name.symm.trans name))
  · intro table tableIn
    obtain ⟨trigger, _, made⟩ := exists_of_mapM_ok created tableIn
    obtain ⟨tableName, primaryCol, keyed, _⟩ := tableTrigger_eq_ok.mp made
    exact ⟨tableName, primaryCol, keyed⟩
  · intro full
    by_cases entries : 0 < db.log.entries.length
    · rwa [if_pos entries] at source
    · exact absurd (SyncLog.eq_empty_of_length entries) full
  · intro noEntries key
    rw [if_neg (by simp [noEntries])] at source
    obtain ⟨statements, written, rfl⟩ := source
    rw [PgDatabase.mem_foldl_runBackfill, noEntries]
    have noKey : key ∉ (∅ : SyncLog) := AList.notMem_empty key
    simp only [noKey, false_or, mem_mapM_ok written, backfillStatement_eq_ok]
    constructor
    · rintro ⟨_, ⟨table, tableIn, tableName, primaryCol, keyed, rfl⟩, stored, storedIn, named,
        record, member, same⟩
      exact ⟨table, tableIn, tableName, primaryCol, keyed, stored, storedIn, named, record, member,
        same⟩
    · rintro ⟨table, tableIn, tableName, primaryCol, keyed, stored, storedIn, named, record, member,
        same⟩
      exact ⟨_, ⟨table, tableIn, tableName, primaryCol, keyed, rfl⟩, stored, storedIn, named,
        record, member, same⟩

/-- A loaded schema reads the primary column of a table. -/
theorem Loads.primaryCol_eq (loads : Loads db.tables schema) (sound : db.Sound text)
    {table : TableRef Interner} (tableIn : table ∈ schema.tableRefs) {stored : PgTable Value}
    (storedIn : stored ∈ db.tables) {primaryCol : String}
    (keyed : Keyed table stored.name primaryCol) : stored.primaryCol = some primaryCol := by
  obtain ⟨other, otherIn, name, reads⟩ := loads.table sound.distinct tableIn
  have same := sound.eq_of_name storedIn otherIn (Except.ok.inj (keyed.name.symm.trans name))
  exact same ▸ reads _ _ keyed

namespace Opened

variable {triggerOf : PgTable Value → Option PgTrigger}

/-- The trigger a table has now is the one generated for it. -/
theorem trigger_eq (opened : Opened text schema triggerOf db next) (sound : db.Sound text)
    (loads : Loads db.tables schema) {stored : PgTable Value} (storedIn : stored ∈ db.tables)
    {trigger : PgTrigger} (has : triggerOf stored = some trigger) :
    ∃ primaryCol, stored.primaryCol = some primaryCol ∧ trigger = .of stored.name primaryCol := by
  rcases opened.source stored storedIn with same | ⟨table, tableIn, primaryCol, keyed, made⟩
  · exact sound.keyed stored storedIn trigger (same ▸ has)
  · exact ⟨primaryCol, loads.primaryCol_eq sound tableIn storedIn keyed,
      Option.some.inj (has.symm.trans made)⟩

/-- A row of a table with a trigger is logged afterwards, if nothing was missed. -/
theorem logged (opened : Opened text schema triggerOf db next) (sound : db.Sound text)
    (loads : Loads db.tables schema) (nothingMissed : db.NothingMissed schema)
    {stored : PgTable Value} (storedIn : stored ∈ db.tables) {trigger : PgTrigger}
    (has : triggerOf stored = some trigger) {record : Record Value}
    (recordIn : record ∈ stored.records) :
    (publicName stored.name, text (record trigger.pk)) ∈ next.log := by
  obtain ⟨primaryCol, primaryColEq, rfl⟩ := opened.trigger_eq sound loads storedIn has
  cases before : stored.trigger with
  | some trigger =>
      -- the trigger was there, so the row is in the log, which is kept
      obtain ⟨other, otherEq, rfl⟩ := sound.keyed stored storedIn trigger before
      cases primaryColEq.symm.trans otherEq
      have entry := sound.logged stored storedIn _ before record recordIn
      rw [opened.kept (by rintro noEntries; rw [noEntries] at entry; cases entry)]
      exact entry
  | none =>
      rcases opened.source stored storedIn with same | ⟨table, tableIn, column, keyed, made⟩
      · rw [has, before] at same
        cases same
      cases primaryColEq.symm.trans (loads.primaryCol_eq sound tableIn storedIn keyed)
      rcases nothingMissed with noEntries | noRecords
      · exact (opened.filled noEntries _).mpr ⟨table, tableIn, _, _, keyed, stored, storedIn, rfl,
          record, recordIn, rfl⟩
      · rw [noRecords table tableIn stored storedIn keyed.name before] at recordIn
        cases recordIn

theorem sound (opened : Opened text schema triggerOf db next) (before : db.Sound text)
    (loads : Loads db.tables schema) (nothingMissed : db.NothingMissed schema) :
    next.Sound text := by
  have names : next.tables.map PgTable.name = db.tables.map PgTable.name := by
    rw [opened.tables, List.map_map]
    rfl
  refine ⟨names ▸ before.distinct, ?_, ?_, ?_⟩ <;> rw [opened.tables]
  · intro key member
    by_cases noEntries : db.log = ∅
    · obtain ⟨table, tableIn, _, _, keyed, stored, storedIn, rfl, _, _, rfl⟩ :=
        (opened.filled noEntries key).mp member
      exact ⟨_, List.mem_map_of_mem storedIn,
        opened.installed stored storedIn table tableIn keyed.name, rfl⟩
    · rw [opened.kept noEntries] at member
      obtain ⟨stored, storedIn, has, same⟩ := before.owned key member
      refine ⟨_, List.mem_map_of_mem storedIn, ?_, same⟩
      rcases opened.source stored storedIn with kept | ⟨_, _, _, _, made⟩
      · exact fun missing => has (kept.symm.trans missing)
      · exact fun missing => by cases made.symm.trans missing
  · intro _ member trigger has
    obtain ⟨stored, storedIn, rfl⟩ := List.mem_map.mp member
    exact opened.trigger_eq before loads storedIn has
  · intro _ member trigger has record recordIn
    obtain ⟨stored, storedIn, rfl⟩ := List.mem_map.mp member
    exact opened.logged before loads nothingMissed storedIn has recordIn

/-- `new` leaves every row logged exactly when nothing was missed. -/
theorem complete_iff (opened : Opened text schema triggerOf db next) (sound : db.Sound text)
    (loads : Loads db.tables schema) : next.Complete text schema ↔ db.NothingMissed schema := by
  constructor
  · intro complete
    by_cases noEntries : db.log = ∅
    · exact Or.inl noEntries
    refine Or.inr fun table tableIn stored storedIn name noTrigger => ?_
    refine List.eq_nil_iff_forall_not_mem.mpr fun record recordIn => ?_
    obtain ⟨tableName, primaryCol, keyed⟩ := opened.keyed table tableIn
    cases keyed.name.symm.trans name
    have storedNow : { stored with trigger := triggerOf stored } ∈ next.tables := by
      rw [opened.tables]
      exact List.mem_map_of_mem storedIn
    have entry := complete table tableIn _ _ keyed _ storedNow rfl record recordIn
    rw [opened.kept noEntries] at entry
    -- a table without a trigger has no entries
    obtain ⟨other, otherIn, has, same⟩ := sound.owned _ entry
    have equal := sound.eq_of_name storedIn otherIn (publicName_injective same)
    exact has (equal ▸ noTrigger)
  · intro nothingMissed table tableIn tableName primaryCol keyed _ member named record recordIn
    rw [opened.tables] at member
    obtain ⟨stored, storedIn, rfl⟩ := List.mem_map.mp member
    cases named
    cases has : triggerOf stored with
    | none => exact absurd has (opened.installed stored storedIn table tableIn keyed.name)
    | some trigger =>
        obtain ⟨column, columnEq, rfl⟩ := opened.trigger_eq sound loads storedIn has
        cases columnEq.symm.trans (loads.primaryCol_eq sound tableIn storedIn keyed)
        exact opened.logged sound loads nothingMissed storedIn has recordIn

end Opened

omit [LawfulInterner Interner] in
/-- The log after a row is inserted: the entry of the row, if the table has a trigger. -/
theorem PgDatabase.Sound.mem_logInsert (sound : db.Sound text) {stored : PgTable Value}
    (storedIn : stored ∈ db.tables) {record : Record Value} {log : SyncLog}
    (success : stored.logInsert text now record db.log = some log) {key : String × String} :
    key ∈ log ↔ key ∈ db.log ∨ ∃ trigger, stored.trigger = some trigger ∧
      key = (publicName stored.name, text (record trigger.pk)) := by
  unfold PgTable.logInsert at success
  cases has : stored.trigger with
  | none =>
      rw [has] at success
      cases success
      simp
  | some trigger =>
      obtain ⟨primaryCol, _, rfl⟩ := sound.keyed stored storedIn trigger has
      rw [has] at success
      have logged := @PgTrigger.fire_of _ text none (by simp) stored.name primaryCol now
        (.insert record) db.log
      cases logged.symm.trans success
      rw [RowEvent.logged, SyncLog.mem_upsert, or_comm]
      simp [RowEvent.subject]

omit [InternerOps Interner] [LawfulInterner Interner] in
/-- No trigger refuses a row. -/
theorem PgDatabase.Sound.exists_logInsert (sound : db.Sound text) {stored : PgTable Value}
    (storedIn : stored ∈ db.tables) (record : Record Value) :
    ∃ log, stored.logInsert text now record db.log = some log := by
  unfold PgTable.logInsert
  cases has : stored.trigger with
  | none => exact ⟨_, rfl⟩
  | some trigger =>
      obtain ⟨primaryCol, _, rfl⟩ := sound.keyed stored storedIn trigger has
      exact ⟨_, PgTrigger.fire_of text (by simp) stored.name primaryCol now _ db.log⟩

omit [InternerOps Interner] [LawfulInterner Interner] in
/-- A new table has no rows, no trigger and no entries. -/
theorem PgDatabase.Sound.createTable (sound : db.Sound text) {table : PgTable Value}
    (fresh : ∀ other ∈ db.tables, other.name ≠ table.name) (noTrigger : table.trigger = none) :
    PgDatabase.Sound text { db with tables := table :: db.tables } := by
  refine ⟨List.nodup_cons.mpr ⟨?_, sound.distinct⟩, ?_, ?_, ?_⟩
  · intro member
    obtain ⟨other, otherIn, same⟩ := List.mem_map.mp member
    exact fresh other otherIn same
  · intro key member
    obtain ⟨stored, storedIn, has, same⟩ := sound.owned key member
    exact ⟨stored, List.mem_cons_of_mem _ storedIn, has, same⟩
  · intro stored storedIn trigger has
    rcases List.mem_cons.mp storedIn with rfl | storedIn
    · cases noTrigger.symm.trans has
    · exact sound.keyed stored storedIn trigger has
  · intro stored storedIn trigger has
    rcases List.mem_cons.mp storedIn with rfl | storedIn
    · cases noTrigger.symm.trans has
    · exact sound.logged stored storedIn trigger has

section Inserted

omit [InternerOps Interner] [LawfulInterner Interner]

variable {front back : List (PgTable Value)} {table stored : PgTable Value}

/-- A table after a row is inserted is one from before or that of the row. -/
theorem PgDatabase.mem_of_inserted {changed : PgTable Value}
    (here : db.tables = front ++ table :: back) (storedIn : stored ∈ front ++ changed :: back) :
    stored ∈ db.tables ∨ stored = changed := by
  rw [here]
  rcases List.mem_append.mp storedIn with early | late
  · exact Or.inl (List.mem_append_left _ early)
  · rcases List.mem_cons.mp late with same | late
    · exact Or.inr same
    · exact Or.inl (List.mem_append_right _ (List.mem_cons_of_mem _ late))

/-- A table from before is there after a row is inserted, with its trigger. -/
theorem PgDatabase.exists_inserted (here : db.tables = front ++ table :: back)
    (record : Record Value) (storedIn : stored ∈ db.tables) :
    ∃ other ∈ front ++ { table with records := record :: table.records } :: back,
      other.name = stored.name ∧ other.trigger = stored.trigger := by
  rw [here] at storedIn
  rcases List.mem_append.mp storedIn with early | late
  · exact ⟨stored, List.mem_append_left _ early, rfl, rfl⟩
  · rcases List.mem_cons.mp late with rfl | late
    · exact ⟨_, List.mem_append_right _ List.mem_cons_self, rfl, rfl⟩
    · exact ⟨stored, List.mem_append_right _ (List.mem_cons_of_mem _ late), rfl, rfl⟩

end Inserted

/-- A row that is inserted is logged if its table has a trigger. -/
theorem PgDatabase.Sound.insert (sound : db.Sound text) {front back : List (PgTable Value)}
    {table : PgTable Value} {record : Record Value} {log : SyncLog}
    (here : db.tables = front ++ table :: back)
    (success : table.logInsert text now record db.log = some log) :
    PgDatabase.Sound text
      ⟨front ++ { table with records := record :: table.records } :: back, log⟩ := by
  have tableIn : table ∈ db.tables := here ▸ List.mem_append_right _ List.mem_cons_self
  have grown : ∀ key, key ∈ log ↔ key ∈ db.log ∨ ∃ trigger, table.trigger = some trigger ∧
      key = (publicName table.name, text (record trigger.pk)) :=
    fun _ => sound.mem_logInsert tableIn success
  -- the tables are as before, but for the rows of the one
  have source : ∀ stored ∈ front ++ { table with records := record :: table.records } :: back,
      ∃ before ∈ db.tables, stored.name = before.name ∧ stored.trigger = before.trigger ∧
        stored.primaryCol = before.primaryCol ∧ ∀ other ∈ stored.records,
          other ∈ before.records ∨ (before = table ∧ other = record) := by
    intro stored storedIn
    rcases PgDatabase.mem_of_inserted here storedIn with old | rfl
    · exact ⟨stored, old, rfl, rfl, rfl, fun _ => Or.inl⟩
    · refine ⟨table, tableIn, rfl, rfl, rfl, ?_⟩
      intro other member
      rcases List.mem_cons.mp member with rfl | old
      · exact Or.inr ⟨rfl, rfl⟩
      · exact Or.inl old
  refine ⟨?_, ?_, ?_, ?_⟩
  · have distinct := sound.distinct
    rw [here] at distinct
    simpa using distinct
  · intro key member
    rcases (grown key).mp member with old | ⟨trigger, has, rfl⟩
    · obtain ⟨before, beforeIn, has, same⟩ := sound.owned key old
      obtain ⟨stored, storedIn, name, trigger⟩ :=
        PgDatabase.exists_inserted here record beforeIn
      exact ⟨stored, storedIn, trigger ▸ has, name ▸ same⟩
    · obtain ⟨stored, storedIn, name, triggerEq⟩ :=
        PgDatabase.exists_inserted here record tableIn
      exact ⟨stored, storedIn, by rw [triggerEq, has]; simp, name ▸ rfl⟩
  · intro stored storedIn trigger has
    obtain ⟨before, beforeIn, name, triggerEq, primaryCol, _⟩ := source stored storedIn
    rw [name, primaryCol]
    exact sound.keyed before beforeIn trigger (triggerEq ▸ has)
  · intro stored storedIn trigger has other member
    obtain ⟨before, beforeIn, name, triggerEq, _, records⟩ := source stored storedIn
    rw [name]
    rcases records other member with old | ⟨rfl, rfl⟩
    · exact (grown _).mpr
        (Or.inl (sound.logged before beforeIn trigger (triggerEq ▸ has) other old))
    · exact (grown _).mpr (Or.inr ⟨trigger, triggerEq ▸ has, rfl⟩)

/-- There is a table of this name, with a trigger. -/
structure PgDatabase.Watches (db : PgDatabase Value) (name : String) : Prop where
  stored : ∃ stored ∈ db.tables, stored.name = name
  triggered : ∀ stored ∈ db.tables, stored.name = name → stored.trigger ≠ none

/-- Tables are not dropped. -/
theorem PgStep.named {label : PgEvent Interner Value} (step : PgStep text db label next)
    {name : String} (there : ∃ stored ∈ db.tables, stored.name = name) :
    ∃ stored ∈ next.tables, stored.name = name := by
  obtain ⟨stored, storedIn, rfl⟩ := there
  cases step with
  | opened loads success =>
      obtain ⟨triggerOf, opened⟩ := PostgresDatabase.new_ok success
      rw [opened.tables]
      exact ⟨_, List.mem_map_of_mem storedIn, rfl⟩
  | refused => exact ⟨stored, storedIn, rfl⟩
  | createTable => exact ⟨stored, List.mem_cons_of_mem _ storedIn, rfl⟩
  | @insert front table back record now log here =>
      obtain ⟨other, otherIn, named, _⟩ := PgDatabase.exists_inserted here record storedIn
      exact ⟨other, otherIn, named⟩

/-- A table keeps its trigger. -/
theorem PgStep.watches {label : PgEvent Interner Value} (step : PgStep text db label next)
    {name : String} (watches : db.Watches name) : next.Watches name := by
  obtain ⟨there, triggered⟩ := watches
  refine ⟨step.named there, ?_⟩
  intro stored storedIn named
  cases step with
  | opened loads success =>
      obtain ⟨triggerOf, opened⟩ := PostgresDatabase.new_ok success
      rw [opened.tables] at storedIn
      obtain ⟨before, beforeIn, rfl⟩ := List.mem_map.mp storedIn
      rcases opened.source before beforeIn with kept | ⟨_, _, _, _, made⟩
      · exact fun missing => triggered before beforeIn named (kept.symm.trans missing)
      · exact fun missing => by cases made.symm.trans missing
  | refused => exact triggered stored storedIn named
  | createTable fresh =>
      rcases List.mem_cons.mp storedIn with rfl | old
      · obtain ⟨other, otherIn, same⟩ := there
        exact absurd (same.trans named.symm) (fresh other otherIn)
      · exact triggered stored old named
  | @insert front table back record now log here =>
      rcases PgDatabase.mem_of_inserted here storedIn with old | rfl
      · exact triggered stored old named
      · exact triggered table (here ▸ List.mem_append_right _ List.mem_cons_self) named

/-- In a history, a table was created, and then a `new` returned whose schema has it. -/
def Tracked (labels : List (PgEvent Interner Value)) (name : String) : Prop :=
  ∃ front schema back, labels = front ++ .opened schema :: back ∧
    (∃ table, .createTable table ∈ front ∧ table.name = name) ∧
    ∃ table ∈ schema.tableRefs, table.name = .ok name

/-- Such a table has a trigger. -/
theorem watches_of_tracked {labels : List (PgEvent Interner Value)}
    (run : Steps (PgStep text) .empty labels db) {name : String} (tracked : Tracked labels name) :
    db.Watches name := by
  obtain ⟨front, schema, back, rfl, ⟨table, created, rfl⟩, ref, refIn, refName⟩ := tracked
  obtain ⟨before, early, late⟩ := run.split
  obtain ⟨middle, opening, rest⟩ := late.uncons
  refine rest.invariant ?_ fun _ _ _ watches step => step.watches watches
  have there : ∃ stored ∈ before.tables, stored.name = table.name := by
    obtain ⟨first, last, rfl⟩ := List.append_of_mem created
    obtain ⟨start, _, creating⟩ := early.split
    obtain ⟨grown, step, more⟩ := creating.uncons
    refine more.invariant ?_ fun _ _ _ there step => step.named there
    cases step with
    | createTable => exact ⟨table, List.mem_cons_self, rfl⟩
  refine ⟨opening.named there, ?_⟩
  cases opening with
  | opened loads success =>
      obtain ⟨triggerOf, opened⟩ := PostgresDatabase.new_ok success
      rw [opened.tables]
      intro _ member named
      obtain ⟨stored, storedIn, rfl⟩ := List.mem_map.mp member
      exact opened.installed stored storedIn ref refIn (refName.trans (congrArg _ named.symm))

/-- Every row is inserted into a table that is tracked by then. -/
def InsertsTracked (labels : List (PgEvent Interner Value)) : Prop :=
  ∀ before name record after, labels = before ++ .insert name record :: after →
    Tracked before name

omit [LawfulInterner Interner] in
theorem InsertsTracked.initial {before after : List (PgEvent Interner Value)}
    (tracked : InsertsTracked (before ++ after)) : InsertsTracked before := by
  rintro front name record back rfl
  exact tracked front name record (back ++ after) (by simp)

/-- In such a history no table without a trigger has rows. -/
theorem records_eq_nil_of_tracked {labels : List (PgEvent Interner Value)}
    (run : Steps (PgStep text) .empty labels db) (tracked : InsertsTracked labels) :
    ∀ stored ∈ db.tables, stored.trigger = none → stored.records = [] := by
  induction run with
  | refl =>
      rintro _ ⟨⟩
  | @step labels before label after prior step ih =>
      have earlier := ih tracked.initial
      intro stored storedIn noTrigger
      cases step with
      | opened loads success =>
          obtain ⟨triggerOf, opened⟩ := PostgresDatabase.new_ok success
          rw [opened.tables] at storedIn
          obtain ⟨old, oldIn, rfl⟩ := List.mem_map.mp storedIn
          rcases opened.source old oldIn with kept | ⟨_, _, _, _, made⟩
          · exact earlier old oldIn (kept.symm.trans noTrigger)
          · cases made.symm.trans noTrigger
      | refused => exact earlier stored storedIn noTrigger
      | createTable _ noRecords =>
          rcases List.mem_cons.mp storedIn with rfl | old
          · exact noRecords
          · exact earlier stored old noTrigger
      | @insert front table back record now log here logged =>
          have triggered := (watches_of_tracked prior (tracked _ _ _ [] rfl)).triggered
          rcases PgDatabase.mem_of_inserted here storedIn with old | rfl
          · exact earlier stored old noTrigger
          · exact absurd noTrigger
              (triggered table (here ▸ List.mem_append_right _ List.mem_cons_self) rfl)

/-- Then no `new` misses rows. -/
theorem nothingMissed_along_of_tracked {labels : List (PgEvent Interner Value)}
    (last : PgDatabase Value) (tracked : InsertsTracked labels) :
    Along (PgStep text) .empty labels last
      fun db label _ => ∀ schema, label = .opened schema → db.NothingMissed schema := by
  rintro before label after db next rfl prior _ _ schema rfl
  exact Or.inr fun _ _ stored storedIn _ noTrigger =>
    records_eq_nil_of_tracked prior tracked.initial stored storedIn noTrigger

/-- A step keeps the triggers and the log together, unless `new` misses rows. -/
theorem PgStep.sound {label : PgEvent Interner Value} (step : PgStep text db label next)
    (before : db.Sound text)
    (nothingMissed : ∀ schema, label = .opened schema → db.NothingMissed schema) :
    next.Sound text := by
  cases step with
  | opened loads success =>
      obtain ⟨triggerOf, opened⟩ := PostgresDatabase.new_ok success
      exact opened.sound before loads (nothingMissed _ rfl)
  | refused => exact before
  | createTable fresh noRecords noTrigger => exact before.createTable fresh noTrigger
  | insert here logged => exact before.insert here logged

/-- In a history from an empty database on, every `new` that returns leaves every row of
its tables logged exactly when each of them finds the log empty or the tables of its
schema that have no trigger yet without rows. -/
theorem PgDatabase.complete_along_iff (text : Value → String)
    (labels : List (PgEvent Interner Value)) (last : PgDatabase Value) :
    Along (PgStep text) empty labels last
        (fun _ label next => ∀ schema, label = .opened schema → next.Complete text schema) ↔
      Along (PgStep text) empty labels last
        (fun db label _ => ∀ schema, label = .opened schema → db.NothingMissed schema) := by
  have agree : ∀ (db : PgDatabase Value) (label : PgEvent Interner Value) (next : PgDatabase Value),
      db.Sound text → PgStep text db label next →
        ((∀ schema, label = .opened schema → next.Complete text schema) ↔
          ∀ schema, label = .opened schema → db.NothingMissed schema) := by
    intro db label next sound step
    cases step with
    | opened loads success =>
        obtain ⟨triggerOf, opened⟩ := PostgresDatabase.new_ok success
        simpa using opened.complete_iff sound loads
    | refused => simp
    | createTable => simp
    | insert => simp
  refine Along.iff_of_agree empty_sound agree ?_
  intro db label next sound step complete
  exact step.sound sound ((agree db label next sound step).mp complete)

end Runs

/-- A table with an integer key, without rows and without a trigger. -/
def keyTable (name : String) : PgTable String :=
  ⟨name, [plainRow name "id" true], [], none, by simp [plainRow], by simp⟩

section Posts

variable {schema : DatabaseSchema (StringInterner ⟨.debug, fun _ => 0⟩)} {rows : List RawRow}
variable {db : PgDatabase String}

/-- A database is opened with a schema built from the catalogue rows of its tables. -/
theorem exists_opened (columns : db.tables.flatMap PgTable.columns = rows)
    (few : rows.length ≤ u32Range) (built : buildStable ⟨.debug, fun _ => 0⟩ rows = .ok schema)
    (keyed : ∀ table ∈ schema.tableRefs, ∃ tableName primaryCol,
      Keyed table tableName primaryCol) :
    Loads db.tables schema ∧ ∃ next, PostgresDatabase.new id schema 0 db = .ok next := by
  subst columns
  obtain ⟨interner, valid, built⟩ := DatabaseSchema.buildNew_ok built
  exact ⟨⟨.refl _, valid, fun _ _ => Or.inl rfl, few, built⟩,
    PostgresDatabase.exists_new id 0 db keyed⟩

/-- The names and primary columns of the tables of a schema. -/
def primaryNames (schema : DatabaseSchema (StringInterner ⟨.debug, fun _ => 0⟩)) :
    Except WriterStop (List (String × String)) :=
  schema.tableRefs.mapM fun table => primaryColumn table fun name => .backfillFailed name ""

theorem keyed_of_primaryNames {names : List (String × String)}
    (success : primaryNames schema = .ok names) :
    (∀ table ∈ schema.tableRefs, ∃ tableName primaryCol, Keyed table tableName primaryCol) ∧
      ∀ tableName primaryCol, (tableName, primaryCol) ∈ names →
        ∃ table ∈ schema.tableRefs, Keyed table tableName primaryCol := by
  refine ⟨?_, ?_⟩
  · intro table listed
    obtain ⟨⟨tableName, primaryCol⟩, _, read⟩ := exists_of_mapM_ok success listed
    exact ⟨tableName, primaryCol, primaryColumn_eq_ok.mp read⟩
  · intro tableName primaryCol member
    obtain ⟨table, listed, read⟩ := (mem_mapM_ok success).mp member
    exact ⟨table, listed, primaryColumn_eq_ok.mp read⟩

end Posts

/-- Steps of databases whose values are texts. -/
abbrev TextStep := @PgStep (StringInterner ⟨.debug, fun _ => 0⟩) String _ id _

/-- A row with one value in every column. -/
def recordOf (value : String) : Record String := fun _ => value

/-- A history in which every row is inserted under a trigger, and the tables it leaves,
which have a key and no other column. -/
structure History (labels : List (PgEvent (StringInterner ⟨.debug, fun _ => 0⟩) String))
    (names : List String) (db : PgDatabase String) : Prop where
  run : Steps TextStep .empty labels db
  tracked : InsertsTracked labels
  tables : db.tables.map (fun table => (table.name, table.columns)) =
    names.map fun name => (name, [plainRow name "id" true])

namespace History

variable {labels : List (PgEvent (StringInterner ⟨.debug, fun _ => 0⟩) String)}
variable {names : List String} {db : PgDatabase String}

theorem start : History [] [] .empty :=
  ⟨.refl, fun _ _ _ _ none => by simp at none, rfl⟩

theorem tracked_concat (history : History labels names db)
    {label : PgEvent (StringInterner ⟨.debug, fun _ => 0⟩) String}
    (last : ∀ name record, label = .insert name record → Tracked labels name) :
    InsertsTracked (labels ++ [label]) := by
  intro before name record after split
  rcases List.eq_nil_or_concat after with rfl | ⟨shorter, other, rfl⟩
  · obtain ⟨rfl, same⟩ := List.append_inj' split rfl
    exact last name record (List.singleton_inj.mp same)
  · rw [List.concat_eq_append, ← List.cons_append, ← List.append_assoc] at split
    obtain ⟨rfl, _⟩ := List.append_inj' split rfl
    exact history.tracked before name record shorter rfl

theorem names_eq (history : History labels names db) : db.tables.map PgTable.name = names := by
  have firsts := congrArg (List.map Prod.fst) history.tables
  simpa [Function.comp_def] using firsts

theorem columns_eq (history : History labels names db) :
    db.tables.flatMap PgTable.columns = names.map fun name => plainRow name "id" true := by
  have seconds := congrArg (List.flatMap Prod.snd) history.tables
  rw [List.flatMap_map, List.flatMap_map] at seconds
  rw [List.map_eq_flatMap]
  exact seconds

theorem sound (history : History labels names db) : db.Sound id :=
  (nothingMissed_along_of_tracked db history.tracked).invariant history.run
    PgDatabase.empty_sound fun _ _ _ sound step nothingMissed => step.sound sound nothingMissed

/-- A table of another name is created. -/
theorem createTable (history : History labels names db) {name : String} (fresh : name ∉ names) :
    ∃ next, History (labels ++ [.createTable (keyTable name)]) (name :: names) next := by
  have created : TextStep db (.createTable (keyTable name))
      { db with tables := keyTable name :: db.tables } := by
    refine .createTable (fun other member same => fresh ?_) rfl rfl
    rw [← history.names_eq, ← show other.name = name from same]
    exact List.mem_map_of_mem member
  refine ⟨_, history.run.step created, history.tracked_concat (by simp), ?_⟩
  rw [List.map_cons, List.map_cons, history.tables]
  rfl

/-- A row is inserted under a trigger. -/
theorem insert (history : History labels names db) {name : String} (tracked : Tracked labels name)
    (value : String) :
    ∃ next, History (labels ++ [.insert name (recordOf value)]) names next := by
  obtain ⟨⟨table, tableIn, rfl⟩, _⟩ := watches_of_tracked history.run tracked
  obtain ⟨front, back, here⟩ := List.append_of_mem tableIn
  obtain ⟨log, logged⟩ := @PgDatabase.Sound.exists_logInsert _ _ _ 0 history.sound _ tableIn
    (recordOf value)
  have inserted : TextStep db _ _ := .insert here logged
  refine ⟨_, history.run.step inserted, history.tracked_concat ?_, ?_⟩
  · rintro name record same
    cases same
    exact tracked
  · rw [← history.tables, here]
    simp

/-- The database is opened with a schema of its tables. -/
theorem opened (history : History labels names db)
    {schema : DatabaseSchema (StringInterner ⟨.debug, fun _ => 0⟩)}
    (built : buildStable ⟨.debug, fun _ => 0⟩
      (names.map fun name => plainRow name "id" true) = .ok schema)
    (few : names.length ≤ 100)
    (keyed : ∀ table ∈ schema.tableRefs, ∃ tableName primaryCol,
      Keyed table tableName primaryCol) :
    ∃ next, History (labels ++ [.opened schema]) names next := by
  obtain ⟨loads, next, success⟩ := exists_opened history.columns_eq (by
    have range : u32Range = 2 ^ 32 := rfl
    rw [List.length_map]
    omega) built keyed
  have opening : TextStep db (.opened schema) next := .opened loads success
  obtain ⟨triggerOf, done⟩ := PostgresDatabase.new_ok success
  refine ⟨next, history.run.step opening, history.tracked_concat (by simp), ?_⟩
  rw [← history.tables, done.tables, List.map_map]
  rfl

end History

/-- A table of users is created and gets a row, and the database is opened. -/
theorem exists_openedUsers : ∃ labels db, Steps TextStep .empty labels db ∧ db.Sound id ∧
    db.log ≠ ∅ ∧ db.tables.map PgTable.name = ["users"] ∧
      db.tables.flatMap PgTable.columns = [plainRow "users" "id" true] := by
  have names : ((buildStable ⟨.debug, fun _ => 0⟩ [plainRow "users" "id" true]).toOption.bind
      fun schema => (primaryNames schema).toOption) = some [("users", "id")] := by decide +kernel
  obtain ⟨schema, built, names⟩ := Option.bind_eq_some_iff.mp names
  obtain ⟨keyed, named⟩ := keyed_of_primaryNames (toOption_eq_some.mp names)
  let users := keyTable "users"
  have created : TextStep .empty (.createTable users) ⟨[users], ∅⟩ :=
    .createTable (fun _ member => nomatch member) rfl rfl
  have inserted : TextStep ⟨[users], ∅⟩ (.insert users.name (recordOf "1"))
      ⟨[] ++ { users with records := [recordOf "1"] } :: [], ∅⟩ := @PgStep.insert _ _ _ id _
    ⟨[users], ∅⟩ [] users [] (recordOf "1") 0 ∅ rfl rfl
  obtain ⟨loads, next, success⟩ := @exists_opened schema _
    ⟨[{ users with records := [recordOf "1"] }], ∅⟩ rfl (by decide)
      (toOption_eq_some.mp built) keyed
  have opening : TextStep _ (.opened schema) next := .opened loads success
  obtain ⟨triggerOf, opened⟩ := PostgresDatabase.new_ok success
  have sound := inserted.sound (created.sound PgDatabase.empty_sound (by simp)) (by simp)
  refine ⟨_, next, ((Steps.single created).step inserted).step opening,
    opening.sound sound fun _ _ => Or.inl rfl, ?_, ?_, ?_⟩
  · intro noEntries
    obtain ⟨table, tableIn, key⟩ := named "users" "id" List.mem_cons_self
    have entry := (opened.filled rfl ("public.users", "1")).mpr ⟨table, tableIn, _, _, key, _,
      List.mem_cons_self, rfl, _, List.mem_cons_self, rfl⟩
    rw [noEntries] at entry
    exact AList.notMem_empty _ entry
  · rw [opened.tables]
    rfl
  · rw [opened.tables]
    rfl

/-- Users and then posts are created, each before the database is opened with a schema of
all tables, and get rows after that; every one of the three starts leaves all of them
logged. -/
theorem complete_along_iff_tracked :
    ∃ (first second : DatabaseSchema (StringInterner ⟨.debug, fun _ => 0⟩))
      (last : PgDatabase String),
      let labels : List (PgEvent _ String) :=
        [.createTable (keyTable "users"), .opened first, .insert "users" (recordOf "1"),
          .createTable (keyTable "posts"), .opened second, .insert "posts" (recordOf "1"),
          .insert "users" (recordOf "2"), .opened second]
      Steps TextStep .empty labels last ∧ Along TextStep .empty labels last
        fun _ label next => ∀ schema, label = .opened schema → next.Complete id schema := by
  have alone : ((buildStable ⟨.debug, fun _ => 0⟩ [plainRow "users" "id" true]).toOption.bind
      fun schema => (primaryNames schema).toOption) = some [("users", "id")] := by decide +kernel
  have both : ((buildStable ⟨.debug, fun _ => 0⟩
      [plainRow "posts" "id" true, plainRow "users" "id" true]).toOption.bind
      fun schema => (primaryNames schema).toOption) = some [("posts", "id"), ("users", "id")] := by
    decide +kernel
  obtain ⟨first, built, names⟩ := Option.bind_eq_some_iff.mp alone
  obtain ⟨keyed, named⟩ := keyed_of_primaryNames (toOption_eq_some.mp names)
  obtain ⟨users, usersIn, usersKey⟩ := named "users" "id" List.mem_cons_self
  obtain ⟨second, secondBuilt, secondNames⟩ := Option.bind_eq_some_iff.mp both
  obtain ⟨secondKeyed, secondNamed⟩ := keyed_of_primaryNames (toOption_eq_some.mp secondNames)
  obtain ⟨posts, postsIn, postsKey⟩ := secondNamed "posts" "id" List.mem_cons_self
  obtain ⟨_, history⟩ := History.start.createTable (show "users" ∉ [] from List.not_mem_nil)
  obtain ⟨_, history⟩ := history.opened (toOption_eq_some.mp built) (by decide) keyed
  have usersTracked : ∀ back, Tracked ([.createTable (keyTable "users"), .opened first] ++ back)
      "users" := fun back =>
    ⟨[.createTable (keyTable "users")], first, back, rfl, ⟨_, List.mem_cons_self, rfl⟩, users,
      usersIn, usersKey.name⟩
  obtain ⟨_, history⟩ := history.insert (usersTracked []) "1"
  obtain ⟨_, history⟩ := history.createTable (show "posts" ∉ ["users"] by decide)
  obtain ⟨_, history⟩ := history.opened (toOption_eq_some.mp secondBuilt) (by decide) secondKeyed
  obtain ⟨_, history⟩ := history.insert
    ⟨_, second, [], rfl, ⟨keyTable "posts", by simp, rfl⟩, posts, postsIn, postsKey.name⟩ "1"
  obtain ⟨_, history⟩ := history.insert (usersTracked _) "2"
  obtain ⟨last, history⟩ := history.opened (toOption_eq_some.mp secondBuilt) (by decide) secondKeyed
  exact ⟨first, second, last, history.run, (PgDatabase.complete_along_iff id _ last).mpr
    (nothingMissed_along_of_tracked last history.tracked)⟩

/-- Posts that are created with a row after that, and lie unlogged when the database is
opened again. -/
theorem not_complete_posts : ∃ (schema : DatabaseSchema (StringInterner ⟨.debug, fun _ => 0⟩))
    (labels : List (PgEvent (StringInterner ⟨.debug, fun _ => 0⟩) String))
    (last : PgDatabase String), Steps TextStep .empty (labels ++ [.opened schema]) last ∧
      ¬ last.Complete id schema := by
  obtain ⟨labels, db, run, sound, entries, tableNames, columns⟩ := exists_openedUsers
  have names : ((buildStable ⟨.debug, fun _ => 0⟩
      [plainRow "posts" "id" true, plainRow "users" "id" true]).toOption.bind
      fun schema => (primaryNames schema).toOption) = some [("posts", "id"), ("users", "id")] := by
    decide +kernel
  obtain ⟨schema, built, names⟩ := Option.bind_eq_some_iff.mp names
  obtain ⟨keyed, named⟩ := keyed_of_primaryNames (toOption_eq_some.mp names)
  let posts := keyTable "posts"
  have created : TextStep db (.createTable posts) { db with tables := posts :: db.tables } := by
    refine .createTable (fun other member same => ?_) rfl rfl
    have listed := List.mem_map_of_mem (f := PgTable.name) member
    rw [tableNames, same] at listed
    exact absurd listed (by decide)
  have inserted : TextStep { db with tables := posts :: db.tables }
      (.insert posts.name (recordOf "1"))
      ⟨[] ++ { posts with records := [recordOf "1"] } :: db.tables, db.log⟩ := @PgStep.insert _ _ _
    id _ { db with tables := posts :: db.tables } [] posts db.tables (recordOf "1") 0 db.log rfl rfl
  obtain ⟨loads, next, success⟩ := @exists_opened schema _
    ⟨{ posts with records := [recordOf "1"] } :: db.tables, db.log⟩
    (by rw [List.flatMap_cons, columns]; rfl) (by decide) (toOption_eq_some.mp built) keyed
  have opening : TextStep _ (.opened schema) next := .opened loads success
  obtain ⟨triggerOf, opened⟩ := PostgresDatabase.new_ok success
  have soundNow := inserted.sound (created.sound sound (by simp)) (by simp)
  refine ⟨schema, _, next, ((run.step created).step inserted).step opening, fun complete => ?_⟩
  rcases (opened.complete_iff soundNow loads).mp complete with noEntries | noRecords
  · exact entries noEntries
  · obtain ⟨table, tableIn, key⟩ := named "posts" "id" List.mem_cons_self
    cases noRecords table tableIn _ List.mem_cons_self key.name rfl

end Boomerang
