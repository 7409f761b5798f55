import Boomerang.Dialect.SqliteDatabase
import Boomerang.Foundation.Quoting

/-!
# The text of statements

Names and literals are written between quotes, with the quotes in them doubled. A scanner
reads each back, whatever follows it in the statement.
-/

namespace Boomerang

open Foundation

/-- The quote of identifiers. -/
def identQuote : Char := Char.ofNat 34

/-- The quote of literals. -/
def litQuote : Char := Char.ofNat 39

/-- The quotes of SQL. -/
def sqlQuotes : List Char := [identQuote, litQuote]

/-- `Ident`, as it is displayed. -/
def Ident (text : String) : String := String.ofList (enquote identQuote text.toList)

/-- `Lit`, as it is displayed. -/
def Lit (text : String) : String := String.ofList (enquote litQuote text.toList)

@[simp]
theorem toList_Ident (text : String) : (Ident text).toList = enquote identQuote text.toList :=
  String.toList_ofList

@[simp]
theorem toList_Lit (text : String) : (Lit text).toList = enquote litQuote text.toList :=
  String.toList_ofList

/-- An identifier and a literal are read back as they were given, and what follows them is
left, unless it starts with the quote. -/
theorem scan_ident_lit (text rest : String) :
    (rest.toList.head? ≠ some identQuote →
      scanQuoted identQuote (Ident text ++ rest).toList = some (text.toList, rest.toList)) ∧
    (rest.toList.head? ≠ some litQuote →
      scanQuoted litQuote (Lit text ++ rest).toList = some (text.toList, rest.toList)) := by
  constructor
  · intro apart
    rw [String.toList_append, toList_Ident]
    exact scanQuoted_enquote apart
  · intro apart
    rw [String.toList_append, toList_Lit]
    exact scanQuoted_enquote apart

/-- A name and a literal with quotes at the ends and next to each other. -/
theorem scan_ident_lit_quotes :
    scanQuoted identQuote (Ident "\"a\"\"b\"" ++ " TEXT").toList =
        some ("\"a\"\"b\"".toList, " TEXT".toList) ∧
      scanQuoted litQuote (Lit "'it''s" ++ ",").toList = some ("'it''s".toList, ",".toList) :=
  ⟨(scan_ident_lit _ _).1 (by decide), (scan_ident_lit _ _).2 (by decide)⟩

/-- The clause of a default. -/
def defaultClause : Option String → String
  | none => ""
  | some default => " DEFAULT " ++ default

/-- The text of a column definition in a `CREATE TABLE`. -/
def ColumnDef.createText (column : ColumnDef) : String :=
  Ident column.name ++ " " ++ column.declaredType ++
    (if column.primaryKey then " PRIMARY KEY NOT NULL"
      else (if column.unique then " UNIQUE" else "") ++
        if column.notNull then " NOT NULL" else "") ++
    defaultClause column.default

/-- The text of an `ALTER TABLE ... ADD COLUMN`. -/
def ColumnDef.alterText (table : String) (column : ColumnDef) : String :=
  "ALTER TABLE " ++ Ident table ++ " ADD COLUMN " ++ Ident column.name ++ " " ++
    column.declaredType ++ defaultClause column.default ++
    (if column.notNull then " NOT NULL" else "") ++ ";\n"

end Boomerang
