import Boomerang.Dialect.Writers
import Boomerang.Schema.Lookup
import Mathlib.Logic.Nontrivial.Basic

/-!
# Record ids and primary keys

The writers take the record id of a row from one column, the last one flagged primary.
So record ids tell the rows of a table apart exactly when it is the only one.
-/

namespace Boomerang

open Foundation

/-- The columns of a table that are flagged primary. -/
def primaryColumns (group : List RawRow) : List String :=
  (group.filter Row.isPrimary).map Row.columnName

theorem primaryColumns_eq_nil {group : List RawRow} :
    primaryColumns group = [] ↔ ∀ row ∈ group, row.isPrimary = false := by
  simp [primaryColumns]

/-- Where no count is cut, `primary_key` takes one of the primary columns. -/
theorem primaryColumnOf_mem {rows : List RawRow} {old : Nat} {group : List RawRow}
    (here : (tableGroups rows)[old]? = some group) (few : rows.length ≤ u32Range)
    (narrow : group.length ≤ u16Range) {column : String}
    (taken : primaryColumnOf rows old = some column) : column ∈ primaryColumns group := by
  rw [primaryColumnOf_eq here few] at taken
  obtain ⟨offset, primary, named⟩ := Option.bind_eq_some_iff.mp taken
  obtain ⟨row, there, flagged⟩ := lastPrimary_isPrimary narrow primary
  rw [there] at named
  cases named
  exact List.mem_map_of_mem (List.mem_filter.mpr ⟨List.mem_of_getElem? there, flagged⟩)

/-- Where no count is cut, all primary columns have the name of the one taken when they
have one name. -/
theorem primaryColumns_agree_iff {rows : List RawRow} {old : Nat} {group : List RawRow}
    (here : (tableGroups rows)[old]? = some group) (few : rows.length ≤ u32Range)
    (narrow : group.length ≤ u16Range) :
    (∀ column ∈ primaryColumns group, primaryColumnOf rows old = some column) ↔
      ∀ left ∈ primaryColumns group, ∀ right ∈ primaryColumns group, left = right := by
  constructor
  · intro agree left leftIn right rightIn
    exact Option.some.inj ((agree left leftIn).symm.trans (agree right rightIn))
  · intro same column listed
    cases taken : primaryColumnOf rows old with
    | none =>
        rw [primaryColumns_eq_nil.mpr ((primaryColumnOf_eq_none here).mp taken)] at listed
        cases listed
    | some other =>
        exact congrArg some (same other (primaryColumnOf_mem here few narrow taken) column listed)

section Property

variable {Interner Value : Type} [InternerOps Interner] (text : Value → String)
variable (table : TableRef Interner)

/-- The record id that a writer derives from a row of the table. The events are those
that a trigger fires on, one for each row. -/
inductive RecordIdOf : (Record Value → Option String) → Prop where
  | backfill {statement} (written : PostgresDatabase.backfillStatement table = .ok statement) :
      RecordIdOf fun record => some (statement.recordId text record)
  | postgres {trigger} (written : PostgresDatabase.tableTrigger table = .ok trigger)
      {event : Record Value → RowEvent Value}
        (subject : ∀ record, (event record).subject = record) :
      RecordIdOf fun record => trigger.recordId text (event record)
  | sqlite {triggers trigger} (written : SqliteDatabase.tableTriggers table = .ok triggers)
      (listed : trigger ∈ triggers) {event : Record Value → RowEvent Value}
      (subject : ∀ record, (event record).subject = record)
      (fires : ∀ record, (event record).tgOp = trigger.event) :
      RecordIdOf fun record => trigger.recordId text (event record)

/-- Rows that differ in one of the columns get different record ids from every writer. -/
def IdentifiesRows (columns : List String) : Prop :=
  ∀ idOf, RecordIdOf text table idOf → ∀ left right : Record Value,
    (∃ column ∈ columns, left column ≠ right column) → idOf left ≠ idOf right

variable {text table} {tableName primaryCol : String}

theorem SqliteTrigger.recordId_eq {trigger : SqliteTrigger} {event : RowEvent Value}
    (listed : trigger ∈ SqliteTrigger.allOf tableName primaryCol)
    (fires : event.tgOp = trigger.event) :
    trigger.recordId text event = some (text (event.subject primaryCol)) := by
  simp only [allOf, List.map_cons, List.map_nil, List.mem_cons, List.not_mem_nil,
    or_false] at listed
  rcases listed with rfl | rfl | rfl
  · cases event with
    | insert new => rfl
    | update old new => rfl
    | delete old => exact absurd fires (by decide : "DELETE" ≠ "INSERT")
  · cases event with
    | insert new => rfl
    | update old new => rfl
    | delete old => exact absurd fires (by decide : "DELETE" ≠ "UPDATE")
  · cases event with
    | insert new => exact absurd fires (by decide : "INSERT" ≠ "DELETE")
    | update old new => exact absurd fires (by decide : "UPDATE" ≠ "DELETE")
    | delete old => rfl

/-- Every writer takes the primary column. -/
theorem RecordIdOf.eq_primary {idOf : Record Value → Option String}
    (derived : RecordIdOf text table idOf) (keyed : Keyed table tableName primaryCol)
    (record : Record Value) : idOf record = some (text (record primaryCol)) := by
  cases derived with
  | backfill written =>
      obtain ⟨_, _, other, rfl⟩ := PostgresDatabase.backfillStatement_eq_ok.mp written
      obtain ⟨rfl, rfl⟩ := keyed.unique other
      rfl
  | @postgres _ written _ subject =>
      obtain ⟨_, _, other, rfl⟩ := PostgresDatabase.tableTrigger_eq_ok.mp written
      obtain ⟨rfl, rfl⟩ := keyed.unique other
      refine (PgTrigger.recordId_eq text _ _).trans ?_
      rw [subject]
      rfl
  | @sqlite _ _ written listed _ subject fires =>
      obtain ⟨_, _, other, rfl⟩ := SqliteDatabase.tableTriggers_eq_ok.mp written
      obtain ⟨rfl, rfl⟩ := keyed.unique other
      refine (SqliteTrigger.recordId_eq listed (fires record)).trans ?_
      rw [subject]

/-- The primary column identifies rows if no other column has to. -/
theorem identifiesRows_iff [Nontrivial Value] (injective : Function.Injective text)
    (keyed : Keyed table tableName primaryCol) {columns : List String} :
    IdentifiesRows text table columns ↔ ∀ column ∈ columns, column = primaryCol := by
  constructor
  · intro identifies column listed
    by_contra apart
    obtain ⟨first, second, different⟩ := exists_pair_ne Value
    -- the two rows differ in the other column only
    have derived := @RecordIdOf.backfill _ _ _ text _ _
      (PostgresDatabase.backfillStatement_eq_ok.mpr ⟨_, _, keyed, rfl⟩)
    refine identifies _ derived (fun _ => first)
      (fun name => if name = column then second else first) ⟨column, listed, ?_⟩ ?_
    · rw [if_pos rfl]
      exact different
    · rw [derived.eq_primary keyed, derived.eq_primary keyed, if_neg (Ne.symm apart)]
  · rintro single idOf derived left right ⟨column, listed, different⟩ same
    rw [derived.eq_primary keyed, derived.eq_primary keyed] at same
    exact different (single column listed ▸ injective (Option.some.inj same))

end Property

section Built

variable {Interner : Type} [InternerOps Interner] [LawfulInterner Interner]
variable {unstable : UnstableSort (TableMeta × Nat) Symbol} {rows : List RawRow}
variable {symbols : String → Symbol} {pools : SchemaPools} {resolved : List ResolvedFk}
variable {order : List Nat} {ordered : List TableMeta} {schema : DatabaseSchema Interner}
variable {index old : Nat} {group : List RawRow}

/-- The name and the primary column of a table of the schema. -/
theorem BuiltFrom.keyed_iff
    (built : BuiltFrom unstable rows symbols pools resolved order ordered schema)
    (place : order[index]? = some old) (here : (tableGroups rows)[old]? = some group)
    {tableName primaryCol : String} :
    Keyed (TableRef.mk schema index) tableName primaryCol ↔
      (TableRef.mk schema index).name = .ok tableName ∧
        primaryColumnOf rows old = some primaryCol := by
  obtain ⟨_, absent, present⟩ := built.accessors place here
  constructor
  · rintro ⟨name, column, keyEq, columnName⟩
    refine ⟨name, ?_⟩
    cases primaryCol' : primaryColumnOf rows old with
    | none =>
        rw [absent
          (lastPrimary_eq_none.mpr ((primaryColumnOf_eq_none here).mp primaryCol'))] at keyEq
        cases keyEq
    | some other =>
        obtain ⟨_, otherEq, otherName⟩ := present other primaryCol'
        cases otherEq.symm.trans keyEq
        exact congrArg some (Except.ok.inj (otherName.symm.trans columnName))
  · rintro ⟨name, primaryColEq⟩
    exact ⟨name, present primaryCol primaryColEq⟩

/-- The tables of the schema are those of the groups in an order of their own, and the
writers identify the rows of a table when all its primary columns have the name of the
one that `primary_key` takes. -/
theorem DatabaseSchemaBuilder.buildRows_identifiesRows {Value : Type} [Nontrivial Value]
    {text : Value → String} {profile : Profile} {interner : Interner} {hash : SchemaHash}
    (injective : Function.Injective text) (valid : LawfulInterner.Valid interner)
    (storable : StorableAll Interner (rows.flatMap Row.strings))
    (success : buildRows unstable profile interner rows hash = .ok schema) :
    ∃ order : List Nat, order.Perm (List.range (tableGroups rows).length) ∧
      order.length = schema.tables.length ∧ ∀ index old group, order[index]? = some old →
        (tableGroups rows)[old]? = some group →
          (IdentifiesRows text (TableRef.mk schema index) (primaryColumns group) ↔
            ∀ column ∈ primaryColumns group, primaryColumnOf rows old = some column) := by
  obtain ⟨_, symbols, pools, resolved, order, ordered, built⟩ := buildRows_ok valid storable success
  refine ⟨order, built.order_perm, built.order_length, ?_⟩
  intro index old group place here
  cases primaryColEq : primaryColumnOf rows old with
  | none =>
      have noColumn := primaryColumns_eq_nil.mpr ((primaryColumnOf_eq_none here).mp primaryColEq)
      simp [noColumn, IdentifiesRows]
  | some primaryCol =>
      obtain ⟨row, _, name⟩ := built.exists_name place here
      rw [identifiesRows_iff injective ((built.keyed_iff place here).mpr ⟨name, primaryColEq⟩)]
      simp only [Option.some.injEq, eq_comm]

/-- The record ids of a table with one primary column. -/
theorem buildRows_identifiesRows_users :
    ∃ schema, buildStable ⟨.debug, fun _ => 0⟩
        [plainRow "users" "id" true, plainRow "users" "name" false] = .ok schema ∧
      IdentifiesRows (id : String → String) (TableRef.mk schema 0) ["id"] := by
  obtain ⟨schema, success⟩ := exists_of_isSome (show (buildStable ⟨.debug, fun _ => 0⟩
    [plainRow "users" "id" true, plainRow "users" "name" false]).toOption.isSome = true by
      decide +kernel)
  obtain ⟨interner, valid, built⟩ := DatabaseSchema.buildNew_ok success
  obtain ⟨order, perm, _, identifies⟩ := DatabaseSchemaBuilder.buildRows_identifiesRows
    (Function.injective_id (α := String)) valid (fun _ _ => Or.inl rfl) built
  have single : order = [0] := List.perm_singleton.mp perm
  subst single
  exact ⟨schema, success, (identifies 0 0 _ rfl rfl).mpr (by decide)⟩

/-- A table with two primary columns. -/
def memberRows : List RawRow := [plainRow "members" "team" true, plainRow "members" "user" true]

/-- Two members that differ in the team have one record id. -/
theorem not_identifiesRows_members :
    ∃ schema, buildStable ⟨.debug, fun _ => 0⟩ memberRows = .ok schema ∧
      ¬ IdentifiesRows (id : String → String) (TableRef.mk schema 0)
        (primaryColumns memberRows) := by
  have backfill : ((buildStable ⟨.debug, fun _ => 0⟩ memberRows).toOption.bind fun schema =>
      (PostgresDatabase.backfillStatement (TableRef.mk schema 0)).toOption) =
        some (.of "members" "user") := by decide +kernel
  obtain ⟨schema, built, written⟩ := Option.bind_eq_some_iff.mp backfill
  refine ⟨schema, toOption_eq_some.mp built, fun identifies => ?_⟩
  refine identifies _ (.backfill (toOption_eq_some.mp written)) (fun _ => "1")
    (fun column => if column = "team" then "2" else "1") ⟨"team", by decide, by decide⟩ rfl

end Built

end Boomerang
