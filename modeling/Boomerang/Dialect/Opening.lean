import Boomerang.Dialect.TableShape
import Boomerang.Schema.Built

/-!
# Whether an opened database has the tables of its schema

The tables after each way to open a file are decided by claims to their names: a claim
is the shape of a live table or of a table of the schema, and the first claim to a name,
up to case, has it.
-/

namespace Boomerang

open Foundation SqliteDatabase

variable {Cells : Type}

/-- Every table of the schema is there with its columns. -/
def Truthful (tables : List TargetTable) (file : SqliteFile Cells) : Prop :=
  ∀ target ∈ tables, ∃ table ∈ file.tables.items, table.name ∉ internalNames ∧
    table.shape.Same target.shape

instance (tables : List TargetTable) (file : SqliteFile Cells) : Decidable (Truthful tables file) :=
  inferInstanceAs (Decidable (∀ target ∈ tables, ∃ table ∈ file.tables.items,
    table.name ∉ internalNames ∧ table.shape.Same target.shape))

/-- The first claim to a name in lower case. -/
def claimant (claims : List TableShape) (key : String) : Option TableShape :=
  claims.find? fun shape => asciiLower shape.name = key

/-- Every table of the schema has the shape of the first claim to its name. -/
def Claimed (tables : List TargetTable) (claims : List TableShape) : Prop :=
  ∀ target ∈ tables, target.name ∉ internalNames ∧
    ∃ shape, claimant claims (asciiLower target.name) = some shape ∧ shape.Same target.shape

instance (tables : List TargetTable) (claims : List TableShape) :
    Decidable (Claimed tables claims) :=
  inferInstanceAs (Decidable (∀ target ∈ tables, target.name ∉ internalNames ∧
    ∃ shape ∈ claimant claims (asciiLower target.name), shape.Same target.shape))

/-- The claims when the reported tables are dropped before that. -/
def recreateClaims (tables : List TargetTable) (file : SqliteFile Cells) : List TableShape :=
  (file.tables.items.filter fun table => ¬ table.IsReported).map LiveTable.shape ++
    tables.map TargetTable.shape

/-- The claims when the reported tables are altered: theirs go to the tables of the
schema that have exactly their names. -/
def alterClaims (tables : List TargetTable) (file : SqliteFile Cells) : List TableShape :=
  (file.tables.items.filter fun table => ¬ table.IsReported).map LiveTable.shape ++
    ((tables.filter fun target =>
        ∃ table ∈ file.tables.items, table.IsReported ∧ target.name = table.name) ++
      tables.filter fun target =>
        ∀ table ∈ file.tables.items, table.IsReported → table.key ≠ asciiLower target.name).map
      TargetTable.shape

section Claims

variable {file next : SqliteFile Cells} {tables : List TargetTable} {key : String}
variable {hashing : HashOrder} {hash : SchemaHash} {claims : List TableShape}

theorem claimant_append (first second : List TableShape) (key : String) :
    claimant (first ++ second) key = (claimant first key).or (claimant second key) :=
  List.find?_append

theorem claimant_target : claimant (tables.map TargetTable.shape) key =
    (tables.find? fun target => asciiLower target.name = key).map TargetTable.shape :=
  List.find?_map

theorem claimant_hidden : claimant ((file.tables.items.filter fun table => ¬ table.IsReported).map
      LiveTable.shape) key =
    ((file.tables.find? key).filter fun table => ¬ table.IsReported).map LiveTable.shape := by
  rw [claimant, List.find?_map]
  congr 1
  cases found : file.tables.find? key with
  | none =>
      rw [Catalog.find?_eq_none] at found
      refine List.find?_eq_none.mpr fun table member => ?_
      have apart : table.key ≠ key := found table (List.mem_filter.mp member).1
      exact fun same => apart (of_decide_eq_true same)
  | some table =>
      obtain ⟨member, sameKey⟩ := Catalog.find?_eq_some.mp found
      by_cases hidden : ¬ table.IsReported
      · have kept : (file.tables.filter fun table => ¬ table.IsReported).find? key = some table :=
          Catalog.find?_eq_some.mpr ⟨List.mem_filter.mpr ⟨member, decide_eq_true hidden⟩, sameKey⟩
        have remains : (some table).filter (fun table => ¬ table.IsReported) = some table :=
          Option.filter_some_pos (decide_eq_true hidden)
        exact kept.trans remains.symm
      · have gone : (file.tables.filter fun table => ¬ table.IsReported).find? key = none := by
          refine Catalog.find?_eq_none.mpr fun other otherIn same => hidden ?_
          obtain ⟨otherIn, otherHidden⟩ := List.mem_filter.mp otherIn
          rw [← Catalog.eq_of_mem otherIn member (same.trans sameKey.symm)]
          exact of_decide_eq_true otherHidden
        have removed : (some table).filter (fun table => ¬ table.IsReported) = none :=
          Option.filter_some_neg (by simpa using hidden)
        exact gone.trans removed.symm

/-- The table of a name is that of the first claim, or one of the database itself. -/
def SettledBy (claims : List TableShape) (key : String) (table : Option (LiveTable Cells)) : Prop :=
  (∃ made shape, table = some made ∧ claimant claims key = some shape ∧ made.shape.Same shape) ∨
    claimant claims key = none ∧ ∀ made, table = some made → made.name ∈ internalNames

/-- The claims decide whether the tables of the schema are there. -/
theorem truthful_iff_claimed
    (settled : ∀ key, SettledBy claims key (file.tables.find? key)) :
    Truthful tables file ↔ Claimed tables claims := by
  refine forall₂_congr fun target _ => ?_
  constructor
  · rintro ⟨table, member, notInternal, same⟩
    have sameName : table.name = target.name := same.1
    have found : file.tables.find? (asciiLower target.name) = some table :=
      Catalog.find?_eq_some.mpr ⟨member, congrArg asciiLower sameName⟩
    refine ⟨sameName ▸ notInternal, ?_⟩
    rcases settled (asciiLower target.name) with ⟨made, shape, here, first, agrees⟩ | ⟨_, internal⟩
    · cases found.symm.trans here
      exact ⟨shape, first, agrees.symm.trans same⟩
    · exact absurd (internal table found) notInternal
  · rintro ⟨notInternal, shape, first, same⟩
    rcases settled (asciiLower target.name) with ⟨made, other, here, otherFirst, agrees⟩ | ⟨none, _⟩
    · cases first.symm.trans otherFirst
      have whole := agrees.trans same
      have sameName : made.name = target.name := whole.1
      exact ⟨made, (Catalog.find?_eq_some.mp here).1, sameName ▸ notInternal, whole⟩
    · cases first.symm.trans none

/-- A created table is that of the first table of the schema of its name. -/
theorem settledBy_created {made : Option (LiveTable Cells)}
    (first : claimant claims key = claimant (tables.map TargetTable.shape) key)
    (created : CreatedFirst (tables.map createDef) key made) : SettledBy claims key made := by
  rw [CreatedFirst, List.find?_map] at created
  rw [SettledBy, first, claimant_target]
  cases found : tables.find? fun target => asciiLower target.name = key with
  | some target =>
      have same : (tables.find? ((fun definition : TableDef =>
          decide (asciiLower definition.name = key)) ∘ createDef)) = some target := found
      rw [same] at created
      cases created with
      | some created => exact Or.inl ⟨_, _, rfl, rfl, created.shape_eq ▸ .refl _⟩
  | none =>
      have same : (tables.find? ((fun definition : TableDef =>
          decide (asciiLower definition.name = key)) ∘ createDef)) = none := found
      rw [same] at created
      cases created
      refine Or.inr ⟨rfl, ?_⟩
      rintro made ⟨⟩

/-- Where there is a table, or no claim, the tables of the database itself change nothing. -/
theorem SettledBy.completed {before after : Option (LiveTable Cells)} {internal : List TableDef}
    (settled : SettledBy claims key before)
    (names : ∀ definition ∈ internal, definition.name ∈ internalNames)
    (completed : Completed internal key before after) : SettledBy claims key after := by
  rcases completed with ⟨table, rfl, rfl⟩ | ⟨rfl, created⟩
  · exact settled
  · rcases settled with ⟨_, _, absent, _⟩ | ⟨unclaimed, _⟩
    · cases absent
    · refine Or.inr ⟨unclaimed, ?_⟩
      rintro made rfl
      rw [CreatedFirst] at created
      cases found : internal.find? fun definition => asciiLower definition.name = key with
      | none =>
          rw [found] at created
          cases created
      | some definition =>
          rw [found] at created
          cases created with
          | some created =>
              rw [created.name]
              exact names definition (List.mem_of_find?_eq_some found)

/-- `create_tables` settles the tables by those that are there and those of the schema. -/
theorem settledBy_buildDdl (run : Steps SqliteFile.Step file (buildDdl tables hash) next)
    (first : claimant claims key = ((file.tables.find? key).map LiveTable.shape).or
      (claimant (tables.map TargetTable.shape) key)) :
    SettledBy claims key (next.tables.find? key) := by
  obtain ⟨middle, creating, completed⟩ := (find?_buildDdl run key).split
  refine SettledBy.completed ?_ (by decide) completed
  rcases creating with ⟨table, found, rfl⟩ | ⟨absent, created⟩
  · rw [found] at first
    exact Or.inl ⟨table, table.shape, rfl, first, .refl _⟩
  · rw [absent] at first
    exact settledBy_created first created

theorem claimant_targets (keep : TargetTable → Bool) :
    claimant ((tables.filter keep).map TargetTable.shape) key =
      (tables.find? fun target => keep target ∧ asciiLower target.name = key).map
        TargetTable.shape := by
  rw [claimant_target, List.find?_filter]
  simp only [decide_eq_true_eq]

/-- Among the claims to the name of a reported table are those of its own name alone. -/
theorem claimant_alterClaims_of_reported {before : LiveTable Cells}
    (found : file.tables.find? key = some before) (reported : before.IsReported) :
    claimant (alterClaims tables file) key =
      (tables.find? fun target => target.name = before.name).map TargetTable.shape := by
  obtain ⟨member, rfl⟩ := Catalog.find?_eq_some.mp found
  have gone : (some before).filter (fun table => ¬ table.IsReported) = none :=
    Option.filter_some_neg (by simpa using reported)
  have named : ∀ target : TargetTable, ((∃ table ∈ file.tables.items, table.IsReported ∧
      target.name = table.name) ∧ asciiLower target.name = before.key) ↔
        target.name = before.name := by
    intro target
    constructor
    · rintro ⟨⟨table, tableIn, _, sameName⟩, sameKey⟩
      rw [sameName] at sameKey
      rw [sameName, Catalog.eq_of_mem tableIn member sameKey]
    · intro sameName
      exact ⟨⟨before, member, reported, sameName⟩, congrArg asciiLower sameName⟩
  have unnamed : ∀ target : TargetTable, ¬ ((∀ table ∈ file.tables.items, table.IsReported →
      table.key ≠ asciiLower target.name) ∧ asciiLower target.name = before.key) :=
    fun target free => free.1 before member reported free.2.symm
  rw [alterClaims, List.map_append, claimant_append, claimant_append, claimant_hidden,
    claimant_targets, claimant_targets, found, gone]
  have none : tables.find? (fun _ => false) = none := List.find?_eq_none.mpr fun _ _ => nofun
  simp only [decide_eq_true_eq, named, unnamed, decide_false, none, Option.map_none, Option.none_or,
    Option.or_none]

/-- The claims to a name of which no table is reported. -/
theorem claimant_alterClaims_of_not_reported
    (hidden : ∀ table, file.tables.find? key = some table → ¬ table.IsReported) :
    claimant (alterClaims tables file) key = ((file.tables.find? key).map LiveTable.shape).or
      (claimant (tables.map TargetTable.shape) key) := by
  have stays : (file.tables.find? key).filter (fun table => ¬ table.IsReported) =
      file.tables.find? key := by
    cases found : file.tables.find? key with
    | none => rfl
    | some table => exact Option.filter_some_pos (decide_eq_true (hidden table found))
  have unnamed : ∀ target : TargetTable, ¬ ((∃ table ∈ file.tables.items, table.IsReported ∧
      target.name = table.name) ∧ asciiLower target.name = key) := by
    rintro target ⟨⟨table, tableIn, reported, sameName⟩, rfl⟩
    exact hidden table (Catalog.find?_eq_some.mpr ⟨tableIn, congrArg asciiLower sameName.symm⟩)
      reported
  have free : ∀ target : TargetTable, ((∀ table ∈ file.tables.items, table.IsReported →
      table.key ≠ asciiLower target.name) ∧ asciiLower target.name = key) ↔
        asciiLower target.name = key := by
    refine fun target => ⟨And.right, fun sameKey => ⟨?_, sameKey⟩⟩
    intro table tableIn reported tableKey
    exact hidden table (Catalog.find?_eq_some.mpr ⟨tableIn, tableKey.trans sameKey⟩) reported
  rw [alterClaims, List.map_append, claimant_append, claimant_append, claimant_hidden,
    claimant_targets, claimant_targets, claimant_target, stays]
  have none : tables.find? (fun _ => false) = none := List.find?_eq_none.mpr fun _ _ => nofun
  simp only [decide_eq_true_eq, free, unnamed, decide_false, none, Option.map_none, Option.none_or]

/-- The first batch of `alter_tables` settles the tables. -/
theorem settledBy_alterDdl (run : Steps SqliteFile.Step file
      (alterDdl hashing tables (collect file.introspect) hash) next) :
    SettledBy (alterClaims tables file) key (next.tables.find? key) := by
  obtain ⟨made, outcome, completed⟩ := find?_alterDdl run key
  refine SettledBy.completed ?_ (by decide) completed
  cases outcome with
  | @kept table found hidden =>
      have first : claimant (alterClaims tables file) key = _ :=
        claimant_alterClaims_of_not_reported fun other otherFound =>
          Option.some.inj (found.symm.trans otherFound) ▸ hidden
      rw [found] at first
      exact Or.inl ⟨table, table.shape, rfl, first, .refl _⟩
  | @migrated before live target table found reported described _ goes migrated =>
      have first : claimant (alterClaims tables file) key = _ :=
        claimant_alterClaims_of_reported found reported
      rw [goes] at first
      have sameName : target.name = before.name := by
        simpa using List.find?_some goes
      exact Or.inl ⟨table, target.shape, rfl, first, migrated.same described sameName.symm⟩
  | dropped found reported left =>
      have first : claimant (alterClaims tables file) key = _ :=
        claimant_alterClaims_of_reported found reported
      rw [left] at first
      exact Or.inr ⟨first, nofun⟩
  | created absent created =>
      have first : claimant (alterClaims tables file) key = _ :=
        claimant_alterClaims_of_not_reported fun table found => nomatch absent.symm.trans found
      rw [absent] at first
      exact settledBy_created first created

/-- The reported tables are dropped. -/
theorem find?_dropAllDdl (run : Steps SqliteFile.Step file
      (dropAllDdl hashing (collect file.introspect)) next) (key : String) :
    next.tables.find? key = (file.tables.find? key).filter fun table => ¬ table.IsReported := by
  rw [SqliteFile.find?_dropTables run]
  have listed : key ∈ (hashing.order (collect file.introspect).keys).map asciiLower ↔
      ∃ table, file.tables.find? key = some table ∧ table.IsReported := by
    rw [List.mem_map]
    constructor
    · rintro ⟨name, member, rfl⟩
      obtain ⟨live, known⟩ := Option.isSome_iff_exists.mp (AList.lookup_isSome.mpr
        (AList.mem_keys.mpr ((hashing.perm _).mem_iff.mp member)))
      obtain ⟨table, tableIn, reported, rfl, _⟩ := exists_of_lookup_collect known
      exact ⟨table, Catalog.find?_eq_some.mpr ⟨tableIn, rfl⟩, reported⟩
    · rintro ⟨table, found, reported⟩
      obtain ⟨tableIn, rfl⟩ := Catalog.find?_eq_some.mp found
      obtain ⟨live, known, _⟩ := lookup_collect_of_mem tableIn reported
      refine ⟨table.name, (hashing.perm _).mem_iff.mpr (AList.mem_keys.mp ?_), rfl⟩
      rw [← AList.lookup_isSome, known]
      rfl
  simp only [listed]
  cases found : file.tables.find? key with
  | none => simp
  | some table => by_cases reported : table.IsReported <;> simp [Option.filter, reported]

/-- The second way of `alter_tables` settles the tables. -/
theorem settledBy_recreated {emptied : SqliteFile Cells}
    (dropping : Steps SqliteFile.Step file (dropAllDdl hashing (collect file.introspect)) emptied)
    (creating : Steps SqliteFile.Step emptied (buildDdl tables hash) next) :
    SettledBy (recreateClaims tables file) key (next.tables.find? key) := by
  refine settledBy_buildDdl creating ?_
  rw [recreateClaims, claimant_append, claimant_hidden, find?_dropAllDdl dropping]

end Claims

section Opened

variable {Interner : Type} [InternerOps Interner] {schema : DatabaseSchema Interner}
variable {tables : List TargetTable} {sqlite : Sqlite Cells} {hashing : HashOrder}
variable {file next : SqliteFile Cells}

end Opened

section Samples

/-- The columns of users in a schema. -/
def userRows : List RawRow := [plainRow "users" "id" true, plainRow "users" "age" false]

/-- Users without an age. -/
def agelessUsers : TableDef where
  name := "users"
  columns := [⟨"id", "INTEGER", true, false, true, none⟩]
  keys := []
  checks := []
  withoutRowid := false
  strict := false

end Samples

end Boomerang
