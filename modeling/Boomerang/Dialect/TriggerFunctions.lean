import Boomerang.Dialect.Restarts
import Boomerang.Foundation.Clipping
import Boomerang.Foundation.Overwriting
import Boomerang.Foundation.Utf8

/-!
# The trigger functions of Postgres

Postgres cuts an identifier to 63 bytes. The function of a table has a name of its own, but
it is longer than the name of the table, and `CREATE OR REPLACE` takes an equal name for
the same function.
-/

namespace Boomerang

open Foundation

/-- An identifier as Postgres keeps it: the characters that fit in 63 bytes. -/
def truncate (identifier : String) : String :=
  String.ofList (clip Char.utf8Size 63 identifier.toList)

/-- What a trigger function logs. -/
structure TouchFunction where
  name : String
  pk : String
deriving DecidableEq, Repr

/-- The functions without arguments under their names, and for the name of a table and of a
trigger on it the name of the function that the trigger runs. -/
structure TriggerCatalog where
  functions : String → Option TouchFunction
  triggers : String × String → Option String

namespace TriggerCatalog

/-- No functions and no triggers. -/
def empty : TriggerCatalog := ⟨fun _ => none, fun _ => none⟩

/-- `CREATE OR REPLACE FUNCTION` and `CREATE OR REPLACE TRIGGER` for a table. -/
def create (catalog : TriggerCatalog) (trigger : PgTrigger) : TriggerCatalog where
  functions := Function.update catalog.functions (truncate trigger.func)
    (some ⟨trigger.name, trigger.pk⟩)
  triggers := Function.update catalog.triggers (truncate trigger.table, truncate trigger.trg)
    (some (truncate trigger.func))

/-- What the trigger on a table runs. -/
def runs (catalog : TriggerCatalog) (trigger : PgTrigger) : Option TouchFunction :=
  (catalog.triggers (trigger.table, truncate trigger.trg)).bind catalog.functions

theorem functions_foldl (triggers : List PgTrigger) (catalog : TriggerCatalog) :
    (triggers.foldl create catalog).functions = overwrite (fun trigger => truncate trigger.func)
      (fun trigger => ⟨trigger.name, trigger.pk⟩) catalog.functions triggers :=
  (List.foldl_hom functions fun _ _ => rfl).symm

theorem triggers_foldl (triggers : List PgTrigger) (catalog : TriggerCatalog) :
    (triggers.foldl create catalog).triggers =
      overwrite (fun trigger => (truncate trigger.table, truncate trigger.trg))
        (fun trigger => truncate trigger.func) catalog.triggers triggers :=
  (List.foldl_hom TriggerCatalog.triggers fun _ _ => rfl).symm

end TriggerCatalog

section Truncation

theorem totalWeight_toList (text : String) :
    totalWeight Char.utf8Size text.toList = byteLength text := by
  have spelled := bytes_ofList text.toList
  rw [String.ofList_toList] at spelled
  rw [byteLength, spelled, List.length_flatMap, totalWeight]
  simp only [String.length_utf8EncodeChar]

/-- An identifier of 63 bytes is kept. -/
theorem truncate_of_short {identifier : String} (short : byteLength identifier ≤ 63) :
    truncate identifier = identifier := by
  rw [truncate, clip_of_fits (by rwa [totalWeight_toList]), String.ofList_toList]

/-- What is kept is the longest front of characters within 63 bytes. -/
theorem truncate_longest (identifier : String) :
    (truncate identifier).toList <+: identifier.toList ∧ byteLength (truncate identifier) ≤ 63 ∧
      ∀ front : String, front.toList <+: identifier.toList → byteLength front ≤ 63 →
        front.toList <+: (truncate identifier).toList := by
  have kept : (truncate identifier).toList = clip Char.utf8Size 63 identifier.toList :=
    String.toList_ofList
  rw [← totalWeight_toList, kept]
  refine ⟨clip_isPrefix _ _, totalWeight_clip _ _, fun front starts fits => ?_⟩
  exact isPrefix_clip starts ((totalWeight_toList front).le.trans fits)

/-- The name of a trigger function, as Postgres keeps it. -/
theorem truncate_func {tableName primaryCol : String} :
    truncate (PgTrigger.of tableName primaryCol).func =
      String.ofList ("sync_log_touch_".toList ++ clip Char.utf8Size 48 tableName.toList) := by
  have whole : (PgTrigger.of tableName primaryCol).func = "sync_log_touch_" ++ tableName := rfl
  have weight : totalWeight Char.utf8Size "sync_log_touch_".toList = 15 := by decide
  rw [truncate, whole, String.toList_append, clip_append (by rw [weight]; decide), weight]

/-- The names of the trigger functions are equal where the first 48 bytes of the names of
the tables are. -/
theorem truncate_func_inj {left right leftCol rightCol : String} :
    truncate (PgTrigger.of left leftCol).func = truncate (PgTrigger.of right rightCol).func ↔
      clip Char.utf8Size 48 left.toList = clip Char.utf8Size 48 right.toList := by
  rw [truncate_func, truncate_func, String.ofList_inj, List.append_cancel_left_eq]

end Truncation

section Setup

variable {Interner : Type} [InternerOps Interner] {schema : DatabaseSchema Interner}
variable {catalog next : TriggerCatalog} {names : List String} {triggers : List PgTrigger}

/-- `PostgresDatabase::setup_triggers`, as far as it concerns the functions. -/
def PostgresDatabase.setupFunctions (schema : DatabaseSchema Interner)
    (catalog : TriggerCatalog) : Except WriterStop TriggerCatalog :=
  schema.tableRefs.foldlM (fun catalog table => do return catalog.create (← tableTrigger table))
    catalog

/-- The names of the functions of the tables differ, and the trigger of every table runs the
function that logs the name and the primary column of the table. -/
structure OwnFunctions (schema : DatabaseSchema Interner) (catalog : TriggerCatalog) : Prop where
  apart : ∀ {triggers}, schema.tableRefs.mapM PostgresDatabase.tableTrigger = .ok triggers →
    (triggers.map fun trigger => truncate trigger.func).Nodup
  logs : ∀ table ∈ schema.tableRefs, ∀ {tableName primaryCol}, Keyed table tableName primaryCol →
    catalog.runs (.of tableName primaryCol) = some ⟨publicName tableName, primaryCol⟩

/-- The triggers are those of the tables, in order. -/
theorem exists_of_tableTriggers
    (created : schema.tableRefs.mapM PostgresDatabase.tableTrigger = .ok triggers)
    (named : schema.tableRefs.mapM TableRef.name = .ok names) :
    ∃ columns : List (String × String), columns.map Prod.fst = names ∧
      columns.map (fun (tableName, primaryCol) => .of tableName primaryCol) = triggers := by
  generalize schema.tableRefs = tables at created named
  have related := mapM_ok created
  have relatedNames := mapM_ok named
  clear created named
  induction related generalizing names with
  | nil =>
      cases relatedNames
      exact ⟨[], rfl, rfl⟩
  | cons head _ ih =>
      cases relatedNames with
      | cons name rest =>
          obtain ⟨columns, rfl, rfl⟩ := ih rest
          obtain ⟨tableName, primaryCol, keyed, rfl⟩ :=
            PostgresDatabase.tableTrigger_eq_ok.mp head
          cases keyed.name.symm.trans name
          exact ⟨(_, primaryCol) :: columns, rfl, rfl⟩

/-- The names of the functions differ exactly where the names of the tables do, cut to 48
bytes. -/
theorem nodup_funcs {columns : List (String × String)} :
    ((columns.map fun (tableName, primaryCol) => PgTrigger.of tableName primaryCol).map
        fun trigger => truncate trigger.func).Nodup ↔
      ((columns.map Prod.fst).map fun name => clip Char.utf8Size 48 name.toList).Nodup := by
  rw [List.map_map, List.map_map, List.Nodup, List.Nodup, List.pairwise_map, List.pairwise_map]
  simp only [Function.comp_apply, ne_eq, truncate_func_inj]

/-- After the loop every trigger runs its own function, if the functions have names of
their own. -/
theorem TriggerCatalog.runs_of_nodup
    (apart : (triggers.map fun trigger => truncate trigger.func).Nodup)
    (tables : (triggers.map PgTrigger.table).Nodup)
    (short : ∀ trigger ∈ triggers, byteLength trigger.table ≤ 63) {trigger : PgTrigger}
    (member : trigger ∈ triggers) :
    (triggers.foldl create catalog).runs trigger = some ⟨trigger.name, trigger.pk⟩ := by
  have keys :
      (triggers.map fun trigger => (truncate trigger.table, truncate trigger.trg)).Nodup := by
    refine List.pairwise_map.mpr ((List.pairwise_map.mp tables).imp_of_mem ?_)
    intro left right leftIn rightIn differ same
    have sameTable := congrArg Prod.fst same
    rw [truncate_of_short (short left leftIn), truncate_of_short (short right rightIn)] at sameTable
    exact differ sameTable
  have runs : overwrite _ (fun trigger => truncate trigger.func) catalog.triggers triggers _ = _ :=
    overwrite_of_nodup keys member
  rw [truncate_of_short (short trigger member)] at runs
  rw [TriggerCatalog.runs, triggers_foldl, functions_foldl, runs, Option.bind_some]
  exact overwrite_of_nodup apart member

/-- The trigger of a table runs the function of a later one whose function has the same
name. -/
theorem TriggerCatalog.runs_later {left right : PgTrigger}
    (same : truncate left.func = truncate right.func) (differ : left.table ≠ right.table)
    (shortLeft : byteLength left.table ≤ 63) (shortRight : byteLength right.table ≤ 63) :
    ([left, right].foldl create catalog).runs left = some ⟨right.name, right.pk⟩ := by
  have apart : (left.table, truncate left.trg) ≠ (truncate right.table, truncate right.trg) := by
    rw [truncate_of_short shortRight]
    exact fun equal => differ (congrArg Prod.fst equal)
  rw [List.foldl_cons, List.foldl_cons, List.foldl_nil, runs, create, create]
  dsimp only
  rw [Function.update_of_ne apart, truncate_of_short shortLeft, Function.update_self,
    Option.bind_some, same, Function.update_self]

/-- Every table has its own trigger function exactly if the names of the tables differ in
their first 48 bytes. -/
theorem ownFunctions_iff (named : schema.tableRefs.mapM TableRef.name = .ok names)
    (short : ∀ name ∈ names, byteLength name ≤ 63)
    (setup : PostgresDatabase.setupFunctions schema catalog = .ok next) :
    OwnFunctions schema next ↔
      (names.map fun name => clip Char.utf8Size 48 name.toList).Nodup := by
  obtain ⟨triggers, created, rfl⟩ := foldlM_eq_ok.mp setup
  obtain ⟨columns, rfl, rfl⟩ := exists_of_tableTriggers created named
  constructor
  · exact fun own => nodup_funcs.mp (own.apart created)
  · intro distinct
    have apart := nodup_funcs.mpr distinct
    refine ⟨?_, ?_⟩
    · intro triggers found
      cases created.symm.trans found
      exact apart
    · intro table listed tableName primaryCol keyed
      have tables : ((columns.map fun (tableName, primaryCol) =>
          PgTrigger.of tableName primaryCol).map PgTrigger.table).Nodup := by
        rw [List.map_map]
        exact distinct.of_map _
      obtain ⟨trigger, member, written⟩ := exists_of_mapM_ok created listed
      have same := written.symm.trans
        (PostgresDatabase.tableTrigger_eq_ok.mpr ⟨_, _, keyed, rfl⟩)
      cases same
      refine TriggerCatalog.runs_of_nodup apart tables ?_ member
      intro trigger triggerIn
      obtain ⟨column, columnIn, rfl⟩ := List.mem_map.mp triggerIn
      exact short _ (List.mem_map_of_mem columnIn)

end Setup

section Readings

/-- A schema of given rows whose tables have given names and triggers. -/
theorem exists_setup {rows : List RawRow} {names : List String} {triggers : List PgTrigger}
    (evaluated : ((buildStable ⟨.debug, fun _ => 0⟩ rows).toOption.bind fun schema =>
      (schema.tableRefs.mapM TableRef.name).toOption.bind fun names =>
        (schema.tableRefs.mapM PostgresDatabase.tableTrigger).toOption.map fun triggers =>
          (names, triggers)) = some (names, triggers)) :
    ∃ schema, buildStable ⟨.debug, fun _ => 0⟩ rows = .ok schema ∧
      schema.tableRefs.mapM TableRef.name = .ok names ∧
      schema.tableRefs.mapM PostgresDatabase.tableTrigger = .ok triggers ∧
      ∀ catalog, PostgresDatabase.setupFunctions schema catalog =
        .ok (triggers.foldl .create catalog) := by
  obtain ⟨schema, built, evaluated⟩ := Option.bind_eq_some_iff.mp evaluated
  obtain ⟨found, named, evaluated⟩ := Option.bind_eq_some_iff.mp evaluated
  obtain ⟨written, created, same⟩ := Option.map_eq_some_iff.mp evaluated
  cases same
  have created := toOption_eq_some.mp created
  exact ⟨schema, toOption_eq_some.mp built, toOption_eq_some.mp named, created,
    fun _ => foldlM_eq_ok.mpr ⟨_, created, rfl⟩⟩

/-- Posts and users have their own functions. -/
theorem ownFunctions_iff_posts : ∃ (schema : DatabaseSchema (StringInterner ⟨.debug, fun _ => 0⟩))
    (next : TriggerCatalog), PostgresDatabase.setupFunctions schema .empty = .ok next ∧
      (OwnFunctions schema next ↔
        (["posts", "users"].map fun name => clip Char.utf8Size 48 name.toList).Nodup) := by
  obtain ⟨schema, _, named, _, setup⟩ := @exists_setup
    [plainRow "posts" "id" true, plainRow "users" "id" true] ["posts", "users"]
    [.of "posts" "id", .of "users" "id"] (by decide +kernel)
  exact ⟨schema, _, setup .empty, ownFunctions_iff named (by decide) (setup .empty)⟩

/-- Readings of two years, in tables whose names differ behind the first 48 bytes. -/
def readings2024 : String := "readings_of_all_sensors_in_the_northern_regions_2024"

def readings2025 : String := "readings_of_all_sensors_in_the_northern_regions_2025"

/-- The trigger on the readings of one year logs those of the other. -/
theorem not_ownFunctions_readings :
    ∃ (schema : DatabaseSchema (StringInterner ⟨.debug, fun _ => 0⟩)) (next : TriggerCatalog),
      schema.tableRefs.mapM TableRef.name = .ok [readings2024, readings2025] ∧
      readings2024 ≠ readings2025 ∧ byteLength readings2024 ≤ 63 ∧ byteLength readings2025 ≤ 63 ∧
      PostgresDatabase.setupFunctions schema .empty = .ok next ∧
      next.runs (.of readings2024 "id") = some ⟨publicName readings2025, "id"⟩ ∧
      ¬ OwnFunctions schema next := by
  obtain ⟨schema, _, named, created, setup⟩ := @exists_setup
    [plainRow readings2024 "id" true, plainRow readings2025 "id" true]
    [readings2024, readings2025] [.of readings2024 "id", .of readings2025 "id"]
    (by decide +kernel)
  have same : truncate (PgTrigger.of readings2024 "id").func =
      truncate (PgTrigger.of readings2025 "id").func := truncate_func_inj.mpr (by decide +kernel)
  have differ : readings2024 ≠ readings2025 := by decide
  refine ⟨schema, _, named, differ, by decide, by decide, setup .empty,
    TriggerCatalog.runs_later same differ (by decide) (by decide), fun own => ?_⟩
  have apart := own.apart created
  rw [List.map_cons, List.map_cons, same] at apart
  exact (List.nodup_cons.mp apart).1 List.mem_cons_self

end Readings

end Boomerang
