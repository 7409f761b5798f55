import Boomerang.Dialect.SqliteDdl
import Boomerang.Foundation.EqualKeys
import Boomerang.Schema.Completion

/-!
# The namespaces of the foreign keys

A foreign key is given with the namespace of the table it references, and the namespace
is stored with the key. `build` looks up the name of the table only, so a key of another
namespace binds to a table of the same name.
-/

namespace Boomerang

open Foundation

section ByName

variable {tables : List TableMeta}

/-- The entries of the index by name are distinct. -/
theorem nodup_zipIdx_take (count : Nat) : (tables.zipIdx.take count).Nodup := by
  have distinct : tables.zipIdx.Nodup := by
    refine List.Nodup.of_map Prod.snd ?_
    rw [List.zipIdx_map_snd]
    exact List.nodup_range'
  exact distinct.sublist (List.take_sublist _ _)

theorem nameAt_of_none {byName : List Nat} {place : Nat} (absent : byName[place]? = none) :
    nameAt tables byName place = .error .outOfBounds := by
  rw [nameAt, indexed, absent]
  rfl

/-- With a sort that is not stable, the search of the index by name may end at any of the
first tables that have the name. -/
theorem exists_sort_finding {wanted : Symbol} {index : Nat} {info : TableMeta}
    (below : index < tables.length % u16Range) (stored : tables[index]? = some info)
    (name : info.name = wanted) :
    ∃ (unstable : UnstableSort (TableMeta × Nat) Symbol) (slot : Nat),
      tryBinarySearch (nameAt tables (sortedByName unstable tables))
          (sortedByName unstable tables).length wanted = .ok (some slot) ∧
        (sortedByName unstable tables)[slot]? = some index := by
  let stable := UnstableSort.stable (TableMeta × Nat) Symbol
  let entries := tables.zipIdx.take (tables.length % u16Range)
  obtain ⟨answer, searched, hit, miss⟩ := search_sortedByName stable tables wanted
  cases answer with
  | none => exact absurd name (miss rfl index info below stored)
  | some slot =>
      obtain ⟨other, otherInfo, slotEq, otherStored, otherBelow, otherName⟩ := hit slot rfl
      let moved := stable.exchanging (otherInfo, other) (info, index)
      have sameName : otherInfo.name = info.name := otherName.trans name.symm
      have listed : ∀ place tableMeta, tables[place]? = some tableMeta →
          place < tables.length % u16Range → (tableMeta, place) ∈ entries :=
        fun place tableMeta here inside =>
          (stable.perm _ _).mem_iff.mp (mem_sortedByName.mpr ⟨here, inside⟩)
      have places : ∀ place : Nat, (moved.sort (fun entry => entry.1.name) entries)[place]? =
          ((stable.sort (fun entry => entry.1.name) entries)[place]?).map
            (Equiv.swap (otherInfo, other) (info, index)) :=
        stable.exchanging_getElem? sameName (nodup_zipIdx_take _)
          (listed other otherInfo otherStored otherBelow) (listed index info stored below)
      have sameNames : nameAt tables (sortedByName moved tables) =
          nameAt tables (sortedByName stable tables) := by
        funext place
        have there := places place
        cases here : (stable.sort (fun entry => entry.1.name) entries)[place]? with
        | none =>
            rw [here, Option.map_none] at there
            have absent : (sortedByName stable tables)[place]? = none := by
              rw [sortedByName, List.getElem?_map, here, Option.map_none]
            have movedAbsent : (sortedByName moved tables)[place]? = none := by
              rw [sortedByName, List.getElem?_map, there, Option.map_none]
            rw [nameAt_of_none absent, nameAt_of_none movedAbsent]
        | some entry =>
            rw [here, Option.map_some] at there
            rw [(nameAt_sortedByName here).2, (nameAt_sortedByName there).2]
            exact congrArg Except.ok
              (@key_swap _ _ _ _ _ (fun entry : TableMeta × Nat => entry.1.name) sameName entry)
      have sameLength :
          (sortedByName moved tables).length = (sortedByName stable tables).length := by
        rw [sortedByName, sortedByName, List.length_map, List.length_map,
          (moved.perm _ _).length_eq, (stable.perm _ _).length_eq]
      refine ⟨moved, slot, by rw [sameNames, sameLength, searched], ?_⟩
      rw [sortedByName, List.getElem?_map] at slotEq
      obtain ⟨entry, here, rfl⟩ := Option.map_eq_some_iff.mp slotEq
      have entryStored := (mem_sortedByName.mp (List.mem_of_getElem? here)).1
      have entryEq : entry = (otherInfo, entry.2) :=
        Prod.ext (Option.some.inj (entryStored.symm.trans otherStored)) rfl
      have there := places slot
      rw [here, Option.map_some, entryEq, Equiv.swap_apply_left] at there
      exact (nameAt_sortedByName there).1

end ByName

/-- What is read from a range of a pool is in the pool. -/
theorem mem_of_ranged {Item : Type} {items slice : List Item} {start len : Nat}
    (success : ranged items start len = .ok slice) {item : Item} (member : item ∈ slice) :
    item ∈ items := by
  unfold ranged at success
  split at success
  · cases success
    exact List.mem_of_mem_drop (List.mem_of_mem_take member)
  · cases success

section Property

variable {Interner : Type}

/-- The first part of `build`: the keys that are resolved, with the pools they come from. -/
def DatabaseSchemaBuilder.resolution (unstable : UnstableSort (TableMeta × Nat) Symbol)
    (profile : Profile) (builder : DatabaseSchemaBuilder Interner) :
    Except Fault (SchemaPools × List ResolvedFk) := do
  let pools ← builder.toSchemaPools.finishTable profile
  let resolved ← pools.unresolvedFks.filterMapM (pools.resolve (sortedByName unstable pools.tables))
  return (pools, resolved)

variable [InternerOps Interner]

/-- No key of another namespace is bound: none is an edge between tables, none is stored,
and none has a clause in a `CREATE TABLE`. -/
structure DatabaseSchema.BindsWithin (schema : DatabaseSchema Interner) (pools : SchemaPools)
    (resolved : List ResolvedFk) (namespaceName : String) : Prop where
  edges : ∀ fk ∈ resolved, fk.refTableOldIdx ≠ fk.sourceTableIdx →
    ∃ key, pools.foreignKeyPool[fk.poolIndex]? = some key ∧
      Names schema.interner key.namespaceName namespaceName
  keys : ∀ key ∈ schema.foreignKeyPool, Names schema.interner key.namespaceName namespaceName
  clauses : ∀ index keys, (ColumnRef.mk schema index).foreignKeys = .ok keys → ∀ key ∈ keys,
    ∀ column clause, SqliteDatabase.readForeignKey schema column key = .ok (some clause) →
      Names schema.interner key.namespaceName namespaceName

/-- However the tables of one name are sorted, no key of another namespace is bound. -/
def BindsWithin (profile : Profile) (interner : Interner) (rows : List RawRow) (hash : SchemaHash)
    (namespaceName : String) : Prop :=
  ∀ unstable builder pools resolved schema,
    (DatabaseSchemaBuilder.new interner).addRows profile rows = .ok builder →
      builder.resolution unstable profile = .ok (pools, resolved) →
        builder.build unstable profile hash = .ok schema →
          schema.BindsWithin pools resolved namespaceName

/-- A key of another namespace has the names of a table and of one of its columns. -/
def BindsAcross (rows : List RawRow) (namespaceName : String) : Prop :=
  ∃ row ∈ rows, ∃ fk ∈ row.foreignKeys, fk.namespaceName ≠ namespaceName ∧
    ∃ index < (tableGroups rows).length % u16Range, fk.ResolvesTo (tableGroups rows) index

end Property

section Steps

variable {Interner : Type} {unstable : UnstableSort (TableMeta × Nat) Symbol}
variable {pools : SchemaPools} {groups : List (List SymbolRow)} {resolved : List ResolvedFk}
variable {order : List Nat} {ordered : List TableMeta} {schema : DatabaseSchema Interner}

/-- A key that has the names of one of the first tables and of its column resolves to it
with some sort. -/
theorem HoldsRows.exists_sort_resolving (holds : HoldsRows pools groups)
    (tables : AreTables groups pools.tables) {fk : RawForeignKey Symbol} {index : Nat}
    (below : index < groups.length % u16Range) (resolves : fk.ResolvesTo groups index) :
    ∃ (unstable : UnstableSort (TableMeta × Nat) Symbol) (place : Nat),
      pools.findColumn (sortedByName unstable pools.tables) fk.referencedTable
        fk.referencedColumn = .ok (some (index, place)) := by
  obtain ⟨⟨group, here, row, rowIn, sameName⟩, column⟩ := resolves
  obtain ⟨info, stored, isTable⟩ := tables.table index group here
  rw [← tables.length] at below
  obtain ⟨unstable, slot, searched, slotEq⟩ :=
    exists_sort_finding below stored ((isTable.name row rowIn).symm.trans sameName)
  have answered := holds.findColumn_of_slot tables fk.referencedColumn searched slotEq here
  obtain ⟨place, placed⟩ := findIdx?_storedNames.mpr column
  exact ⟨unstable, place, answered.trans (congrArg Except.ok placed)⟩

/-- Every resolved key comes from a key of the rows, and has its place in the pool. -/
theorem HoldsRows.exists_key (holds : HoldsRows pools groups)
    (resolution : pools.unresolvedFks.filterMapM
      (pools.resolve (sortedByName unstable pools.tables)) = .ok resolved) {fk : ResolvedFk}
    (member : fk ∈ resolved) :
    ∃ raw ∈ rawKeys groups, pools.foreignKeyPool[fk.poolIndex]? = some raw.unresolved ∧
      pools.findColumn (sortedByName unstable pools.tables) raw.referencedTable
        raw.referencedColumn = .ok (some (fk.refTableOldIdx, fk.colIdxInTable)) := by
  rw [(filterMapM_ok resolution).2, holds.unresolvedFks, unresolvedFrom] at member
  obtain ⟨unresolved, listed, kept⟩ := List.mem_filterMap.mp member
  obtain ⟨entry, entryIn, rfl⟩ := List.mem_map.mp listed
  have here := List.mem_zipIdx_iff_getElem?.mp entryIn
  obtain ⟨result, answered, resultEq⟩ := Option.bind_eq_some_iff.mp kept
  obtain ⟨answer, found, mapped⟩ := bind_eq_ok.mp (toOption_eq_some.mp answered)
  cases mapped
  obtain ⟨place, rfl, rfl⟩ := Option.map_eq_some_iff.mp resultEq
  have known : entry.1.2 ∈ rawKeys groups := by
    rw [rawKeys, ← map_snd_keySources]
    exact List.mem_map_of_mem (List.mem_of_getElem? here)
  exact ⟨entry.1.2, known, holds.foreignKeyPool_getElem? here, found⟩

end Steps

section Rows

variable {Interner : Type} [InternerOps Interner] [LawfulInterner Interner]
variable {unstable : UnstableSort (TableMeta × Nat) Symbol} {rows : List RawRow}
variable {symbols : String → Symbol} {pools : SchemaPools} {resolved : List ResolvedFk}
variable {order : List Nat} {ordered : List TableMeta} {schema : DatabaseSchema Interner}
variable {namespaceName : String}

/-- A key that is found has the namespace, unless one binds across. -/
theorem BuiltFrom.within_of_found
    (built : BuiltFrom unstable rows symbols pools resolved order ordered schema)
    (none : ¬ BindsAcross rows namespaceName) {raw : RawForeignKey Symbol}
    (member : raw ∈ rawKeys (namedGroups symbols rows)) {index place : Nat}
    (success : pools.findColumn (sortedByName unstable pools.tables) raw.referencedTable
      raw.referencedColumn = .ok (some (index, place))) :
    Names schema.interner raw.namespaceName namespaceName := by
  rw [rawKeys, flatten_namedGroups] at member
  obtain ⟨named, namedIn, rawIn⟩ := List.mem_flatMap.mp member
  obtain ⟨row, rowIn, rfl⟩ := List.mem_map.mp namedIn
  obtain ⟨fk, fkIn, rfl⟩ := List.mem_map.mp rawIn
  obtain ⟨below, resolves⟩ := built.holds.findColumn_resolves built.tables success
  rw [namedGroups, List.length_map] at below
  have within : fk.namespaceName = namespaceName := by
    by_contra other
    exact none ⟨row, rowIn, fk, fkIn, other, index, below,
      (built.resolvesTo_named rowIn fkIn index).mp resolves⟩
  rw [← within]
  exact built.names.of_mem rowIn
    (RawForeignKey.strings_subset fkIn (by simp [RawForeignKey.strings]))

/-- Without a key that binds across, only keys of the namespace are bound. -/
theorem BuiltFrom.bindsWithin
    (built : BuiltFrom unstable rows symbols pools resolved order ordered schema)
    (none : ¬ BindsAcross rows namespaceName) :
    schema.BindsWithin pools resolved namespaceName := by
  have stored : ∀ key ∈ schema.foreignKeyPool,
      Names schema.interner key.namespaceName namespaceName := by
    intro key member
    rw [built.steps.foreignKeyPool_eq built.holds] at member
    obtain ⟨kept, keptIn, rfl⟩ := List.mem_map.mp member
    obtain ⟨raw, rawIn, keptEq⟩ := List.mem_filterMap.mp keptIn
    obtain ⟨place, placed, rfl⟩ := Option.map_eq_some_iff.mp keptEq
    exact built.within_of_found none rawIn (found_eq_some.mp placed)
  refine ⟨fun fk member _ => ?_, stored, ?_⟩
  · obtain ⟨raw, rawIn, place, success⟩ := built.holds.exists_key built.steps.resolution member
    exact ⟨_, place, built.within_of_found none rawIn success⟩
  · intro index keys read key member column clause _
    obtain ⟨info, _, ranged⟩ := bind_eq_ok.mp read
    exact stored key (mem_of_ranged ranged member)

/-- A key that binds across is stored with some sort. -/
theorem BuiltFrom.not_bindsWithin
    (built : BuiltFrom unstable rows symbols pools resolved order ordered schema)
    {row : RawRow} (rowIn : row ∈ rows) {fk : RawForeignKey String} (fkIn : fk ∈ row.foreignKeys)
    (other : fk.namespaceName ≠ namespaceName) {index place : Nat}
    (success : pools.findColumn (sortedByName unstable pools.tables)
      (fk.named symbols).referencedTable (fk.named symbols).referencedColumn =
        .ok (some (index, place))) :
    ¬ schema.BindsWithin pools resolved namespaceName := by
  intro binds
  have kept : finalOf order (fk.named symbols, index, place) ∈ schema.foreignKeyPool := by
    rw [built.steps.foreignKeyPool_eq built.holds]
    refine List.mem_map_of_mem (List.mem_filterMap.mpr ⟨_, named_mem_rawKeys rowIn fkIn, ?_⟩)
    rw [keepKey, found_eq_some.mpr success]
    rfl
  have named : Names schema.interner (symbols fk.namespaceName) fk.namespaceName :=
    built.names.of_mem rowIn
      (RawForeignKey.strings_subset fkIn (by simp [RawForeignKey.strings]))
  exact other (named.functional (binds.keys _ kept))

/-- For rows whose tables follow each other, a key that binds across is stored with every
sort. -/
theorem BuiltFrom.bindsWithin_iff
    (built : BuiltFrom unstable rows symbols pools resolved order ordered schema)
    (few : (tableGroups rows).length < u16Range) (consecutive : Consecutive (tableGroups rows)) :
    schema.BindsWithin pools resolved namespaceName ↔ ¬ BindsAcross rows namespaceName := by
  refine ⟨?_, built.bindsWithin⟩
  rintro binds ⟨row, rowIn, fk, fkIn, other, index, _, resolves⟩
  have namedFew : (namedGroups symbols rows).length < u16Range := by
    rw [namedGroups, List.length_map]
    exact few
  obtain ⟨answer, answered⟩ :=
    built.steps.findColumn_ok built.holds (named_mem_rawKeys rowIn fkIn)
  have finds := built.holds.findColumn_iff built.tables namedFew (built.consecutive consecutive)
    answered index
  obtain ⟨place, rfl⟩ := finds.mpr ((built.resolvesTo_named rowIn fkIn index).mpr resolves)
  exact built.not_bindsWithin rowIn fkIn other answered binds

/-- What is known of every build of the same added rows. -/
theorem DatabaseSchemaBuilder.builtFrom_of_build {profile : Profile} {hash : SchemaHash}
    {builder : DatabaseSchemaBuilder Interner}
    (finished : builder.toSchemaPools.finishTable profile = .ok pools)
    (valid : LawfulInterner.Valid builder.interner)
    (names : SymbolsOf builder.interner symbols (rows.flatMap Row.strings))
    (holds : HoldsRows pools (namedGroups symbols rows))
    (tables : AreTables (namedGroups symbols rows) pools.tables)
    (success : builder.build unstable profile hash = .ok schema) :
    ∃ resolved order ordered, BuiltFrom unstable rows symbols pools resolved order ordered schema ∧
      builder.resolution unstable profile = .ok (pools, resolved) := by
  obtain ⟨_, finishedEq, internerEq, _, resolved, order, ordered, steps⟩ := build_ok success
  cases finished.symm.trans finishedEq
  refine ⟨resolved, order, ordered,
    ⟨internerEq ▸ valid, internerEq ▸ names, holds, tables, steps⟩, ?_⟩
  exact bind_eq_ok.mpr ⟨pools, finished, bind_eq_ok.mpr ⟨resolved, steps.resolution, rfl⟩⟩

theorem DatabaseSchemaBuilder.builtFrom_of_added {profile : Profile} {interner : Interner}
    {hash : SchemaHash} {builder : DatabaseSchemaBuilder Interner}
    (valid : LawfulInterner.Valid interner)
    (storable : StorableAll Interner (rows.flatMap Row.strings))
    (added : (new interner).addRows profile rows = .ok builder)
    (resolution : builder.resolution unstable profile = .ok (pools, resolved))
    (success : builder.build unstable profile hash = .ok schema) :
    ∃ symbols order ordered,
      BuiltFrom unstable rows symbols pools resolved order ordered schema := by
  obtain ⟨_, finished, _⟩ := build_ok success
  obtain ⟨after, symbols, names, holds, tables⟩ := addRows_holds valid storable added finished
  obtain ⟨_, order, ordered, built, resolutionEq⟩ :=
    builtFrom_of_build finished after names holds tables success
  cases resolutionEq.symm.trans resolution
  exact ⟨symbols, order, ordered, built⟩

/-- Keys of other namespaces are not bound exactly when none of them has the names of a
table and of one of its columns. For rows whose tables follow each other that is so with
every sort by itself. -/
theorem bindsWithin_iff_not_bindsAcross {profile : Profile} {interner : Interner}
    {hash : SchemaHash} (valid : LawfulInterner.Valid interner)
    (storable : StorableAll Interner (rows.flatMap Row.strings))
    (success : DatabaseSchemaBuilder.buildRows unstable profile interner rows hash = .ok schema)
    (namespaceName : String) :
    (BindsWithin profile interner rows hash namespaceName ↔ ¬ BindsAcross rows namespaceName) ∧
      (Consecutive (tableGroups rows) → (tableGroups rows).length < u16Range →
        ∀ unstable builder pools resolved schema,
          (DatabaseSchemaBuilder.new interner).addRows profile rows = .ok builder →
            builder.resolution unstable profile = .ok (pools, resolved) →
              builder.build unstable profile hash = .ok schema →
                (schema.BindsWithin pools resolved namespaceName ↔
                  ¬ BindsAcross rows namespaceName)) := by
  obtain ⟨builder, added, success⟩ := bind_eq_ok.mp success
  obtain ⟨pools, finished, _⟩ := DatabaseSchemaBuilder.build_ok success
  obtain ⟨after, symbols, names, holds, tables⟩ :=
    DatabaseSchemaBuilder.addRows_holds valid storable added finished
  refine ⟨⟨?_, ?_⟩, ?_⟩
  · rintro binds ⟨row, rowIn, fk, fkIn, other, index, below, resolves⟩
    obtain ⟨_, _, _, built, _⟩ :=
      DatabaseSchemaBuilder.builtFrom_of_build finished after names holds tables success
    have namedBelow : index < (namedGroups symbols rows).length % u16Range := by
      rw [namedGroups, List.length_map]
      exact below
    obtain ⟨unstable, place, found⟩ := holds.exists_sort_resolving tables namedBelow
      ((built.resolvesTo_named rowIn fkIn index).mpr resolves)
    obtain ⟨schema, returned⟩ :=
      DatabaseSchemaBuilder.build_returns finished holds tables hash
    obtain ⟨resolved, order, ordered, built, resolution⟩ :=
      DatabaseSchemaBuilder.builtFrom_of_build finished after names holds tables returned
    exact built.not_bindsWithin rowIn fkIn other found
      (binds unstable builder pools resolved schema added resolution returned)
  · intro none unstable builder pools resolved schema added resolution returned
    obtain ⟨_, _, _, built⟩ :=
      DatabaseSchemaBuilder.builtFrom_of_added valid storable added resolution returned
    exact built.bindsWithin none
  · intro consecutive few unstable builder pools resolved schema added resolution returned
    obtain ⟨_, _, _, built⟩ :=
      DatabaseSchemaBuilder.builtFrom_of_added valid storable added resolution returned
    exact built.bindsWithin_iff few consecutive

end Rows

/-- Users, and posts whose author is in a table of another namespace. -/
def acrossRows (referencedTable : String) : List RawRow :=
  [plainRow "users" "id" true,
    { plainRow "posts" "author" false with
      foreignKeys := [⟨"fk_a", "auth", referencedTable, "id", .noAction, .cascade⟩] }]

/-- A key to a table that the namespace does not have. -/
theorem bindsWithin_accounts :
    ∃ interner : StringInterner ⟨.debug, fun _ => 0⟩, LawfulInterner.Valid interner ∧
      BindsWithin .debug interner (acrossRows "accounts") ⟨List.replicate 32 0, rfl⟩ "public" := by
  obtain ⟨schema, success⟩ := exists_of_isSome
    (show (buildStable ⟨.debug, fun _ => 0⟩ (acrossRows "accounts")).toOption.isSome = true by
      decide +kernel)
  obtain ⟨interner, valid, built⟩ := DatabaseSchema.buildNew_ok success
  refine ⟨interner, valid,
    (bindsWithin_iff_not_bindsAcross valid (fun _ _ => Or.inl rfl) built "public").1.mpr ?_⟩
  rintro ⟨row, rowIn, fk, fkIn, other, index, _, ⟨group, here, named, namedIn, same⟩, _⟩
  have absent : ∀ row ∈ acrossRows "accounts", ∀ fk ∈ row.foreignKeys,
      ∀ named ∈ acrossRows "accounts", named.tableName ≠ fk.referencedTable := by decide
  exact absent row rowIn fk fkIn named (mem_rows_of_group (List.mem_of_getElem? here) namedIn) same

/-- A key to the users of another namespace binds to the users of this one. -/
theorem not_bindsWithin_users :
    ∃ interner : StringInterner ⟨.debug, fun _ => 0⟩, LawfulInterner.Valid interner ∧
      ¬ BindsWithin .debug interner (acrossRows "users") ⟨List.replicate 32 0, rfl⟩ "public" := by
  have facts : ((buildStable ⟨.debug, fun _ => 0⟩ (acrossRows "users")).toOption.map fun schema =>
      schema.foreignKeyPool.map fun key => InternerOps.resolve schema.interner key.namespaceName) =
      some [.ok (some "auth")] := by decide +kernel
  obtain ⟨schema, built, stored⟩ := Option.map_eq_some_iff.mp facts
  obtain ⟨interner, valid, success⟩ := DatabaseSchema.buildNew_ok (toOption_eq_some.mp built)
  obtain ⟨builder, added, returned⟩ := bind_eq_ok.mp success
  obtain ⟨pools, finished, _⟩ := DatabaseSchemaBuilder.build_ok returned
  obtain ⟨after, symbols, names, holds, tables⟩ := DatabaseSchemaBuilder.addRows_holds valid
    (fun _ _ => Or.inl rfl) added finished
  obtain ⟨resolved, _, _, _, resolution⟩ :=
    DatabaseSchemaBuilder.builtFrom_of_build finished after names holds tables returned
  refine ⟨interner, valid, fun binds => ?_⟩
  have within := (binds _ builder pools resolved schema added resolution returned).keys
  obtain ⟨key, rest, poolEq⟩ := List.exists_cons_of_ne_nil
    (show schema.foreignKeyPool ≠ [] from fun empty => by rw [empty] at stored; cases stored)
  rw [poolEq, List.map_cons] at stored
  have named := within key (poolEq ▸ List.mem_cons_self)
  rw [Names, (List.cons.inj stored).1] at named
  exact absurd (Option.some.inj (Except.ok.inj named)) (by decide)

end Boomerang
