import Boomerang.Foundation.Fallible
import Boomerang.Schema.Builder

/-!
# The symbols of the added rows

A symbol stays the symbol of its string while rows are added. So the rows can be
described with one naming of their strings, by the symbols of any later interner, and
the interner calls that lie between them do not matter.
-/

namespace Boomerang

open Foundation

/-- The names of a foreign key. -/
def RawForeignKey.strings (fk : RawForeignKey String) : List String :=
  [fk.constraintName, fk.namespaceName, fk.referencedTable, fk.referencedColumn]

/-- The string interned for a type name. -/
def typeStrings (dataType : String) : List String :=
  match builtinType dataType with
  | some _ => []
  | none => [dataType]

/-- The strings interned for a row. -/
def Row.strings (row : RawRow) : List String :=
  [row.tableName] ++ ([row.columnName] ++ (row.checkDefs ++ (row.domainChecks ++
    (row.foreignKeys.flatMap RawForeignKey.strings ++
      (typeStrings row.dataType ++ row.defaultExpr.toList)))))

/-- A foreign key under a naming of its strings. -/
def RawForeignKey.named (symbols : String → Symbol) (fk : RawForeignKey String) :
    RawForeignKey Symbol :=
  ⟨symbols fk.constraintName, symbols fk.namespaceName, symbols fk.referencedTable,
    symbols fk.referencedColumn, fk.onUpdate, fk.onDelete⟩

/-- A value type under a naming of its string. -/
def namedType (symbols : String → Symbol) (dataType : String) : ValueType :=
  match builtinType dataType with
  | some kind => kind
  | none => .custom (symbols dataType)

/-- A row under a naming of its strings. -/
def Row.named (symbols : String → Symbol) (row : RawRow) : SymbolRow :=
  ⟨symbols row.tableName, symbols row.columnName, namedType symbols row.dataType, row.nullable,
    row.isPrimary, row.isUnique, row.defaultExpr.map symbols,
    row.foreignKeys.map (RawForeignKey.named symbols), row.checkDefs.map symbols,
    row.domainChecks.map symbols⟩

variable {Interner : Type} [InternerOps Interner]

/-- The naming gives the symbols an interner has for some strings. -/
def SymbolsOf (interner : Interner) (symbols : String → Symbol) (strings : List String) : Prop :=
  ∀ text ∈ strings, Names interner (symbols text) text

/-- An interner that has kept the symbols of another. -/
def KeepsNames (before after : Interner) : Prop :=
  ∀ symbol text, Names before symbol text → Names after symbol text

theorem KeepsNames.trans {first second third : Interner} (left : KeepsNames first second)
    (right : KeepsNames second third) : KeepsNames first third :=
  fun symbol text named => right symbol text (left symbol text named)

theorem SymbolsOf.append {interner : Interner} {symbols : String → Symbol}
    {left right : List String} (names : SymbolsOf interner symbols (left ++ right)) :
    SymbolsOf interner symbols left ∧ SymbolsOf interner symbols right :=
  ⟨fun text member => names text (List.mem_append_left _ member),
    fun text member => names text (List.mem_append_right _ member)⟩

variable [LawfulInterner Interner]

/-- A run that has interned some strings; its result is the value for any naming by the
symbols of a later interner. -/
structure Interned {Result : Type} (strings : List String) (value : (String → Symbol) → Result)
    (before : Interner) (result : Result) (after : Interner) : Prop where
  valid : LawfulInterner.Valid after
  keeps : KeepsNames before after
  known : ∀ text ∈ strings, ∃ symbol, Names after symbol text
  value : ∀ later symbols, LawfulInterner.Valid later → KeepsNames after later →
    SymbolsOf later symbols strings → result = value symbols

/-- A run after another. -/
theorem Interned.trans {First Second Third : Type} {strings more : List String}
    {before middle after : Interner} {first : First} {second : Second} {third : Third}
    {start : (String → Symbol) → First} {finish : (String → Symbol) → Second}
    {both : (String → Symbol) → Third} (head : Interned strings start before first middle)
    (tail : Interned more finish middle second after)
    (combine : ∀ symbols, first = start symbols → second = finish symbols →
      third = both symbols) :
    Interned (strings ++ more) both before third after := by
  refine ⟨tail.valid, head.keeps.trans tail.keeps, ?_, ?_⟩
  · intro text member
    rcases List.mem_append.mp member with early | late
    · obtain ⟨symbol, named⟩ := head.known text early
      exact ⟨symbol, tail.keeps symbol text named⟩
    · exact tail.known text late
  · intro later symbols laterValid keeps names
    exact combine symbols
      (head.value later symbols laterValid (tail.keeps.trans keeps) names.append.1)
      (tail.value later symbols laterValid keeps names.append.2)

/-- Every successful run interns the strings. -/
def Interns {Result : Type} (run : StateT Interner (Except Fault) Result) (strings : List String)
    (value : (String → Symbol) → Result) : Prop :=
  ∀ before result after, LawfulInterner.Valid before → run before = .ok (result, after) →
    Interned strings value before result after

/-- The strings are stored whole. -/
def StorableAll (Interner : Type) [InternerOps Interner] [LawfulInterner Interner]
    (strings : List String) : Prop :=
  ∀ text ∈ strings, LawfulInterner.Storable Interner text

namespace Interns

theorem pure {Result : Type} (result : Result) :
    @Interns Interner _ _ _ (Pure.pure result) [] fun _ => result := by
  rintro before _ _ valid ⟨⟩
  exact ⟨valid, fun _ _ named => named, by simp, fun _ _ _ _ _ => rfl⟩

theorem bind {First Second : Type} {first : StateT Interner (Except Fault) First}
    {next : First → StateT Interner (Except Fault) Second} {strings more : List String}
    {value : (String → Symbol) → First} {final : First → (String → Symbol) → Second}
    (head : Interns first strings value)
    (tail : ∀ result, Interns (next result) more (final result)) :
    Interns (first >>= next) (strings ++ more) fun symbols => final (value symbols) symbols := by
  intro before result after valid success
  obtain ⟨⟨middle, between⟩, ran, success⟩ := bind_eq_ok.mp success
  have start := head before middle between valid ran
  refine start.trans (tail middle between result after start.valid success) ?_
  rintro symbols rfl same
  exact same

theorem map {First Second : Type} {run : StateT Interner (Except Fault) First}
    {strings : List String} {value : (String → Symbol) → First} (head : Interns run strings value)
    (change : First → Second) :
    Interns (do return change (← run)) strings fun symbols => change (value symbols) := by
  have both := head.bind fun result => @Interns.pure Interner _ _ _ (change result)
  rwa [List.append_nil] at both

theorem intern {text : String} (storable : LawfulInterner.Storable Interner text) :
    @Interns Interner _ _ _ (Boomerang.intern text) [text] fun symbols => symbols text := by
  intro before symbol after valid success
  unfold Boomerang.intern at success
  cases called : InternerOps.getOrIntern before text with
  | error fault next =>
      rw [called] at success
      cases success
  | ok found next =>
      rw [called] at success
      cases success
      obtain ⟨afterValid, named, keeps⟩ := LawfulInterner.getOrIntern_ok valid storable called
      refine ⟨afterValid, keeps, ?_, ?_⟩
      · rintro _ member
        rw [List.mem_singleton.mp member]
        exact ⟨_, named⟩
      · intro later symbols laterValid kept names
        exact (kept _ _ named).injective laterValid (names text List.mem_cons_self)

theorem mapM {Item Result : Type} {run : Item → StateT Interner (Except Fault) Result}
    {strings : Item → List String} {value : Item → (String → Symbol) → Result} {items : List Item}
    (each : ∀ item ∈ items, Interns (run item) (strings item) (value item)) :
    Interns (items.mapM run) (items.flatMap strings) fun symbols =>
      items.map fun item => value item symbols := by
  induction items with
  | nil => exact Interns.pure []
  | cons item items ih =>
      rw [List.mapM_cons, List.flatMap_cons]
      exact (each item List.mem_cons_self).bind fun result =>
        (ih fun other member => each other (List.mem_cons_of_mem _ member)).map (result :: ·)

theorem optionMapM {text : Option String}
    (storable : ∀ value ∈ text.toList, LawfulInterner.Storable Interner value) :
    @Interns Interner _ _ _ (text.mapM Boomerang.intern) text.toList fun symbols =>
      text.map symbols := by
  cases text with
  | none => exact Interns.pure none
  | some value => exact (Interns.intern (storable value List.mem_cons_self)).map some

theorem internAll {texts : List String} (storable : StorableAll Interner texts) :
    @Interns Interner _ _ _ (texts.mapM Boomerang.intern) texts fun symbols =>
      texts.map symbols := by
  have each := @Interns.mapM Interner _ _ _ _ Boomerang.intern (fun text => [text])
    (fun text symbols => symbols text) texts fun text member => .intern (storable text member)
  rwa [List.flatMap_singleton'] at each

theorem foreignKey {fk : RawForeignKey String} (storable : StorableAll Interner fk.strings) :
    @Interns Interner _ _ _ fk.intern fk.strings fun symbols => fk.named symbols := by
  have each : ∀ text ∈ fk.strings, @Interns Interner _ _ _ (Boomerang.intern text) [text]
      fun symbols => symbols text := fun text member => .intern (storable text member)
  have calls := (each fk.constraintName (by simp [RawForeignKey.strings])).bind
    fun constraintName => (each fk.namespaceName (by simp [RawForeignKey.strings])).bind
      fun namespaceName => (each fk.referencedTable (by simp [RawForeignKey.strings])).bind
        fun referencedTable => (each fk.referencedColumn (by simp [RawForeignKey.strings])).map
          fun referencedColumn => (⟨constraintName, namespaceName, referencedTable,
            referencedColumn, fk.onUpdate, fk.onDelete⟩ : RawForeignKey Symbol)
  exact calls

theorem type {dataType : String} (storable : StorableAll Interner (typeStrings dataType)) :
    @Interns Interner _ _ _ (internType dataType) (typeStrings dataType) fun symbols =>
      namedType symbols dataType := by
  unfold internType typeStrings namedType
  unfold typeStrings at storable
  cases found : builtinType dataType with
  | some kind => exact Interns.pure kind
  | none =>
      rw [found] at storable
      exact (Interns.intern (storable dataType List.mem_cons_self)).map ValueType.custom

/-- The interner calls for a row give its symbols. -/
theorem row {row : RawRow} (storable : StorableAll Interner row.strings) :
    @Interns Interner _ _ _ row.intern row.strings fun symbols => row.named symbols := by
  have keysStorable : ∀ fk ∈ row.foreignKeys, StorableAll Interner fk.strings := by
    intro fk member text listed
    refine storable text ?_
    simp only [Row.strings, List.mem_append, List.mem_flatMap]
    exact Or.inr (Or.inr (Or.inr (Or.inr (Or.inl ⟨fk, member, listed⟩))))
  have part : ∀ strings : List String, strings ⊆ row.strings → StorableAll Interner strings :=
    fun strings inside text member => storable text (inside member)
  have tableName := @Interns.intern Interner _ _ row.tableName (storable _ (by simp [Row.strings]))
  have columnName :=
    @Interns.intern Interner _ _ row.columnName (storable _ (by simp [Row.strings]))
  have checkDefs := internAll (part row.checkDefs (by intro; simp +contextual [Row.strings]))
  have domainChecks :=
    internAll (part row.domainChecks (by intro; simp +contextual [Row.strings]))
  have foreignKeys := Interns.mapM fun fk member => Interns.foreignKey (keysStorable fk member)
  have dataType := Interns.type (part (typeStrings row.dataType)
    (by intro; simp +contextual [Row.strings]))
  have defaultExpr := Interns.optionMapM (part row.defaultExpr.toList
    (by intro; simp +contextual [Row.strings]))
  have calls := tableName.bind fun tableName => columnName.bind fun columnName =>
    checkDefs.bind fun checkDefs => domainChecks.bind fun domainChecks =>
      foreignKeys.bind fun foreignKeys => dataType.bind fun dataType =>
        defaultExpr.map fun defaultExpr => (⟨tableName, columnName, dataType, row.nullable,
          row.isPrimary, row.isUnique, defaultExpr, foreignKeys, checkDefs, domainChecks⟩ :
          SymbolRow)
  exact calls

end Interns

namespace SchemaPools

/-- `add_row` on the pools. -/
def addRow (profile : Profile) (pools : SchemaPools) (row : SymbolRow) :
    Except Fault SchemaPools := do
  let pools ← pools.startTable profile row.tableName
  pools.pushColumn profile row

end SchemaPools

namespace DatabaseSchemaBuilder

/-- A row that has been added. -/
theorem addRow_ok {profile : Profile} {builder next : DatabaseSchemaBuilder Interner}
    {row : RawRow} (valid : LawfulInterner.Valid builder.interner)
    (storable : StorableAll Interner row.strings)
    (success : builder.addRow profile row = .ok next) :
    ∃ interned, Interned row.strings (fun symbols => row.named symbols) builder.interner interned
        next.interner ∧
      builder.toSchemaPools.addRow profile interned = .ok next.toSchemaPools := by
  obtain ⟨⟨interned, interner⟩, ran, success⟩ := bind_eq_ok.mp success
  obtain ⟨started, startEq, success⟩ := bind_eq_ok.mp success
  obtain ⟨pushed, pushEq, success⟩ := bind_eq_ok.mp success
  cases success
  exact ⟨interned, Interns.row storable _ _ _ valid ran, bind_eq_ok.mpr ⟨started, startEq, pushEq⟩⟩

/-- The pools after some rows have been added are those of the rows under any naming by
the symbols of a later interner. -/
theorem addRows_ok {profile : Profile} {builder final : DatabaseSchemaBuilder Interner}
    {rows : List RawRow} (valid : LawfulInterner.Valid builder.interner)
    (storable : StorableAll Interner (rows.flatMap Row.strings))
    (success : builder.addRows profile rows = .ok final) :
    Interned (rows.flatMap Row.strings)
      (fun symbols => (rows.map (Row.named symbols)).foldlM (SchemaPools.addRow profile)
        builder.toSchemaPools)
      builder.interner (.ok final.toSchemaPools) final.interner := by
  induction rows generalizing builder with
  | nil =>
      cases success
      exact ⟨valid, fun _ _ named => named, by simp, fun _ _ _ _ _ => rfl⟩
  | cons row rows ih =>
      rw [List.flatMap_cons] at storable ⊢
      obtain ⟨next, added, success⟩ := bind_eq_ok.mp success
      obtain ⟨interned, start, pools⟩ := addRow_ok valid
        (fun text member => storable text (List.mem_append_left _ member)) added
      refine start.trans (ih start.valid
        (fun text member => storable text (List.mem_append_right _ member)) success) ?_
      intro symbols same rest
      rw [List.map_cons, List.foldlM_cons, ← same, pools]
      exact rest

end DatabaseSchemaBuilder

end Boomerang
