import Boomerang.Schema.Builder
import Boomerang.Schema.Built

/-!
# The names of types

The catalogue query renders a type with its modifier in parentheses, and an array by
brackets behind the type of its elements. `add_row` knows plain names, and arrays by the
names that their types have in the catalogue.
-/

namespace Boomerang

open Foundation

section Rendering

/-- What `format_type` puts in parentheses. -/
inductive TypeModifier where
  | length (n : Nat)
  | precision (n : Nat) (m : Int)
deriving DecidableEq, Repr

def TypeModifier.text : TypeModifier → String
  | .length n => "(" ++ toString n ++ ")"
  | .precision n m => "(" ++ toString n ++ "," ++ toString m ++ ")"

/-- The name of a type in front of a modifier, and what is behind it. -/
def splitZone (name : String) : String × String :=
  match name with
  | "timestamp without time zone" => ("timestamp", " without time zone")
  | "timestamp with time zone" => ("timestamp", " with time zone")
  | "time without time zone" => ("time", " without time zone")
  | "time with time zone" => ("time", " with time zone")
  | _ => (name, "")

/-- `format_type` of a type with a modifier. -/
def formatModified (name : String) (modifier : TypeModifier) : String :=
  (splitZone name).1 ++ modifier.text ++ (splitZone name).2

/-- `format_type` of an array. -/
def formatArray (element : String) : String := element ++ "[]"

/-- The type of arrays of values, where there is one. -/
def ValueType.array? : ValueType → Option ValueType
  | .bool => some .boolArray
  | .int => some .intArray
  | .float => some .floatArray
  | .decimal => some .decimalArray
  | .text => some .textArray
  | _ => none

/-- What `format_type` renders for the types that `add_row` knows, with what they are: a
type with a modifier, and an array of values of a type. -/
inductive Rendered : String → ValueType → Prop where
  | modified {name kind} (known : builtinType name = some kind) (modifier : TypeModifier) :
      Rendered (formatModified name modifier) kind
  | array {element kind arrays} (known : builtinType element = some kind)
      (has : kind.array? = some arrays) : Rendered (formatArray element) arrays

/-- The names that `add_row` knows have neither parentheses nor brackets, and are not those
of types of their own. -/
theorem builtinType_spec {text : String} {kind : ValueType}
    (known : builtinType text = some kind) :
    '(' ∉ text.toList ∧ ']' ∉ text.toList ∧ ∀ symbol, kind ≠ .custom symbol := by
  unfold builtinType at known
  split at known
  all_goals cases known
  all_goals exact ⟨by decide, by decide, fun _ => nofun⟩

/-- No type is known by what is rendered for it. -/
theorem Rendered.unknown {text : String} {kind : ValueType} (rendered : Rendered text kind) :
    builtinType text = none := by
  refine Option.eq_none_iff_forall_ne_some.mpr fun other known => ?_
  obtain ⟨noParenthesis, noBracket, _⟩ := builtinType_spec known
  cases rendered with
  | @modified name _ _ modifier =>
      have opens : '(' ∈ modifier.text.toList := by
        cases modifier <;> simp [TypeModifier.text]
      exact noParenthesis (by simp [formatModified, opens])
  | array => exact noBracket (by simp [formatArray])

/-- What is rendered stands for a type that is no type of its own. -/
theorem Rendered.ne_custom {text : String} {kind : ValueType} (rendered : Rendered text kind)
    (symbol : Symbol) : kind ≠ .custom symbol := by
  cases rendered with
  | modified known => exact (builtinType_spec known).2.2 symbol
  | @array _ element _ _ has => cases element <;> cases has <;> exact nofun

end Rendering

section Adding

variable {Interner : Type} [InternerOps Interner] {profile : Profile}
variable {builder next : DatabaseSchemaBuilder Interner} {row : RawRow}

/-- `add_row` gives the column of a row a value type. -/
def GivesType (profile : Profile) (builder : DatabaseSchemaBuilder Interner) (row : RawRow)
    (kind : ValueType) : Prop :=
  ∃ next column, builder.addRow profile row = .ok next ∧
    next.columns.getLast? = some column ∧ column.dataType = kind

theorem internType_ok {text : String} {interner after : Interner} {kind : ValueType}
    (success : internType text interner = .ok (kind, after)) :
    builtinType text = some kind ∨ builtinType text = none ∧ ∃ symbol, kind = .custom symbol := by
  rw [internType] at success
  cases known : builtinType text with
  | some other =>
      rw [known] at success
      cases success
      exact Or.inl rfl
  | none =>
      rw [known] at success
      obtain ⟨⟨symbol, _⟩, _, success⟩ := bind_eq_ok.mp success
      cases success
      exact Or.inr ⟨rfl, symbol, rfl⟩

/-- The type of a column is the one that its name is known for, or one of its own. -/
theorem dataType_of_addRow (success : builder.addRow profile row = .ok next) :
    ∃ column, next.columns.getLast? = some column ∧
      (builtinType row.dataType = some column.dataType ∨
        builtinType row.dataType = none ∧ ∃ symbol, column.dataType = .custom symbol) := by
  obtain ⟨⟨interned, interner⟩, internedEq, success⟩ := bind_eq_ok.mp success
  obtain ⟨started, _, success⟩ := bind_eq_ok.mp success
  obtain ⟨pushed, pushedEq, success⟩ := bind_eq_ok.mp success
  cases success
  have typed : builtinType row.dataType = some interned.dataType ∨
      builtinType row.dataType = none ∧ ∃ symbol, interned.dataType = .custom symbol := by
    obtain ⟨_, _, internedEq⟩ := bind_eq_ok.mp internedEq
    obtain ⟨_, _, internedEq⟩ := bind_eq_ok.mp internedEq
    obtain ⟨_, _, internedEq⟩ := bind_eq_ok.mp internedEq
    obtain ⟨_, _, internedEq⟩ := bind_eq_ok.mp internedEq
    obtain ⟨_, _, internedEq⟩ := bind_eq_ok.mp internedEq
    obtain ⟨⟨kind, _⟩, kindEq, internedEq⟩ := bind_eq_ok.mp internedEq
    obtain ⟨_, _, internedEq⟩ := bind_eq_ok.mp internedEq
    cases internedEq
    exact internType_ok kindEq
  obtain ⟨_, _, pushedEq⟩ := bind_eq_ok.mp pushedEq
  obtain ⟨_, _, pushedEq⟩ := bind_eq_ok.mp pushedEq
  cases pushedEq
  exact ⟨_, List.getLast?_concat, typed⟩

/-- A type that is known by its name is given. -/
theorem givesType_of_known {kind : ValueType} (known : builtinType row.dataType = some kind)
    (success : builder.addRow profile row = .ok next) : GivesType profile builder row kind := by
  obtain ⟨column, last, same | ⟨unknown, _⟩⟩ := dataType_of_addRow success
  · exact ⟨next, column, success, last, Option.some.inj (same.symm.trans known)⟩
  · cases unknown.symm.trans known

/-- A type that is not known by its name is one of its own. -/
theorem not_givesType_of_unknown {kind : ValueType} (unknown : builtinType row.dataType = none)
    (builtin : ∀ symbol, kind ≠ .custom symbol) : ¬ GivesType profile builder row kind := by
  rintro ⟨next, column, success, last, rfl⟩
  obtain ⟨other, otherLast, known | ⟨_, symbol, custom⟩⟩ := dataType_of_addRow success
  · cases known.symm.trans unknown
  · cases otherLast.symm.trans last
    exact builtin symbol custom

/-- No type with a modifier and no array is given the type that it has: its column gets a
type of its own. -/
theorem not_givesType_rendered {kind : ValueType} (rendered : Rendered row.dataType kind) :
    ¬ GivesType profile builder row kind ∧ ∀ next, builder.addRow profile row = .ok next →
      ∃ symbol, GivesType profile builder row (.custom symbol) := by
  refine ⟨not_givesType_of_unknown rendered.unknown rendered.ne_custom, fun next success => ?_⟩
  obtain ⟨column, last, known | ⟨_, symbol, custom⟩⟩ := dataType_of_addRow success
  · cases known.symm.trans rendered.unknown
  · exact ⟨symbol, next, column, success, last, custom⟩

end Adding

section Samples

/-- A row of a column of texts of limited length. -/
def limitedRow : RawRow :=
  { plainRow "users" "name" false with
    dataType := formatModified "character varying" (.length 255) }

theorem exists_addRow_limited :
    ∃ (builder next : DatabaseSchemaBuilder (StringInterner ⟨.debug, fun _ => 0⟩)),
      builder.addRow .debug limitedRow = .ok next := by
  have ran : ((StringInterner.withCapacityAndShards ⟨.debug, fun _ => 0⟩ (fun _ => 0) 1
      DEFAULT_SHARD_COUNT).toOption.bind fun interner =>
        ((DatabaseSchemaBuilder.new interner).addRow .debug limitedRow).toOption).isSome =
          true := by
    decide +kernel
  obtain ⟨next, ran⟩ := Option.isSome_iff_exists.mp ran
  obtain ⟨interner, _, added⟩ := Option.bind_eq_some_iff.mp ran
  exact ⟨.new interner, next, toOption_eq_some.mp added⟩

/-- The column gets a type of its own. -/
theorem not_givesType_rendered_limited :
    ∃ builder : DatabaseSchemaBuilder (StringInterner ⟨.debug, fun _ => 0⟩),
      ¬ GivesType .debug builder limitedRow .text ∧
        ∃ symbol, GivesType .debug builder limitedRow (.custom symbol) := by
  obtain ⟨builder, next, added⟩ := exists_addRow_limited
  have known : builtinType "character varying" = some .text := by decide
  have rendered : Rendered limitedRow.dataType .text := .modified known (.length 255)
  obtain ⟨notText, custom⟩ := @not_givesType_rendered _ _ .debug builder _ _ rendered
  exact ⟨builder, notText, custom next added⟩

/-- A limited text is known to be a text without its limit. -/
theorem not_givesType_limited :
    ∃ builder next : DatabaseSchemaBuilder (StringInterner ⟨.debug, fun _ => 0⟩),
      limitedRow.dataType = "character varying(255)" ∧
      builtinType "character varying" = some .text ∧
      builder.addRow .debug limitedRow = .ok next ∧
      ¬ GivesType .debug builder limitedRow .text := by
  obtain ⟨builder, next, added⟩ := exists_addRow_limited
  exact ⟨builder, next, by decide, by decide, added,
    not_givesType_of_unknown (by decide) fun _ => nofun⟩

end Samples

end Boomerang
