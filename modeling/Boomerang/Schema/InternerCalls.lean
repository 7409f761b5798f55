import Boomerang.Schema.Naming

/-!
# The calls of the interner for a row

A property of runs and of the strings they intern passes to the calls for a row when it
holds of one call and passes to runs that follow each other.
-/

namespace Boomerang

/-- A property of runs and of the strings they intern that can be shown call by call. -/
structure CallByCall {Interner : Type} [InternerOps Interner]
    (Holds : {Result : Type} → StateT Interner (Except Fault) Result → List String → Prop) :
    Prop where
  pure {Result : Type} (result : Result) : Holds (Pure.pure result) []
  bind {First Second : Type} {first : StateT Interner (Except Fault) First}
    {next : First → StateT Interner (Except Fault) Second} {strings more : List String}
    (head : Holds first strings) (tail : ∀ result, Holds (next result) more) :
    Holds (first >>= next) (strings ++ more)
  intern (text : String) : Holds (Boomerang.intern text) [text]

namespace CallByCall

variable {Interner : Type} [InternerOps Interner]
variable {Holds : {Result : Type} → StateT Interner (Except Fault) Result → List String → Prop}

theorem map (calls : CallByCall Holds) {First Second : Type}
    {run : StateT Interner (Except Fault) First} {strings : List String}
    (head : Holds run strings) (change : First → Second) :
    Holds (do return change (← run)) strings := by
  have both := calls.bind head fun result => calls.pure (change result)
  rwa [List.append_nil] at both

theorem mapM (calls : CallByCall Holds) {Item Result : Type}
    {run : Item → StateT Interner (Except Fault) Result} {strings : Item → List String}
    (each : ∀ item, Holds (run item) (strings item)) (items : List Item) :
    Holds (items.mapM run) (items.flatMap strings) := by
  induction items with
  | nil => exact calls.pure []
  | cons item items ih =>
      rw [List.mapM_cons, List.flatMap_cons]
      exact calls.bind (each item) fun result => calls.map ih (result :: ·)

theorem internAll (calls : CallByCall Holds) (texts : List String) :
    Holds (texts.mapM Boomerang.intern) texts := by
  have each := calls.mapM calls.intern texts
  rwa [List.flatMap_singleton'] at each

theorem foreignKey (calls : CallByCall Holds) (fk : RawForeignKey String) :
    Holds fk.intern fk.strings := by
  have run := calls.bind (calls.intern fk.constraintName) fun constraintName =>
    calls.bind (calls.intern fk.namespaceName) fun namespaceName =>
      calls.bind (calls.intern fk.referencedTable) fun referencedTable =>
        calls.map (calls.intern fk.referencedColumn) fun referencedColumn =>
          (⟨constraintName, namespaceName, referencedTable, referencedColumn, fk.onUpdate,
            fk.onDelete⟩ : RawForeignKey Symbol)
  exact run

theorem type (calls : CallByCall Holds) (dataType : String) :
    Holds (internType dataType) (typeStrings dataType) := by
  unfold internType typeStrings
  cases builtinType dataType with
  | some kind => exact calls.pure kind
  | none => exact calls.map (calls.intern dataType) ValueType.custom

theorem optionMapM (calls : CallByCall Holds) (text : Option String) :
    Holds (text.mapM Boomerang.intern) text.toList := by
  cases text with
  | none => exact calls.pure none
  | some value => exact calls.map (calls.intern value) some

/-- The property holds of the calls for a row. -/
theorem row (calls : CallByCall Holds) (row : RawRow) : Holds row.intern row.strings := by
  have run := calls.bind (calls.intern row.tableName) fun tableName =>
    calls.bind (calls.intern row.columnName) fun columnName =>
      calls.bind (calls.internAll row.checkDefs) fun checkDefs =>
        calls.bind (calls.internAll row.domainChecks) fun domainChecks =>
          calls.bind (calls.mapM calls.foreignKey row.foreignKeys) fun foreignKeys =>
            calls.bind (calls.type row.dataType) fun dataType =>
              calls.map (calls.optionMapM row.defaultExpr) fun defaultExpr =>
                (⟨tableName, columnName, dataType, row.nullable, row.isPrimary, row.isUnique,
                  defaultExpr, foreignKeys, checkDefs, domainChecks⟩ : SymbolRow)
  exact run

end CallByCall

end Boomerang
