import Boomerang.Dialect.SqlText

/-!
# Defaults from Postgres

Postgres writes the default of a column as an expression. `sqlite_default` cuts it at the
first `::` and keeps what is a literal. A literal that holds `::` itself is cut inside.
-/

namespace Boomerang

open Foundation SqliteDatabase

/-- A literal default as Postgres writes it, with its cast. -/
def pgLiteral (value type : String) : String := Lit value ++ "::" ++ type

/-- A text leaves no quote open. -/
def Closed (text : String) : Prop := openQuote sqlQuotes none text.toList = none

instance : DecidablePred Closed := fun _ => inferInstanceAs (Decidable (_ = _))

/-- The default of a column is one literal of the value, whatever follows it but a quote.
Both writers end its clause so, and leave no quote open. -/
structure CompleteDefault (column : TargetColumn) (value : String) : Prop where
  literal : ∃ default, column.default = some default ∧
    ∀ rest : String, rest.toList.head? ≠ some litQuote →
      scanQuoted litQuote (default ++ rest).toList = some (value.toList, rest.toList)
  create : ∃ front, (createColumn column).createText = front ++ defaultClause column.default
  createClosed : Closed (createColumn column).createText
  alter : ∀ table, ∃ front back : String, (alterColumn column).alterText table =
    front ++ defaultClause column.default ++ back ∧ back.toList.head? ≠ some litQuote
  alterClosed : ∀ table, Closed ((alterColumn column).alterText table)

/-- The default survives: it is translated to the literal, and the clauses written for any
column that has it are complete. -/
structure DefaultSurvives (value type : String) : Prop where
  translated : sqliteDefault (pgLiteral value type) = some (Lit value)
  written : ∀ {Interner : Type} [InternerOps Interner] (schema : DatabaseSchema Interner)
    (ref : ColumnRef Interner) (symbol : Symbol) (column : TargetColumn),
    ref.defaultValue = .ok (some symbol) → Names schema.interner symbol (pgLiteral value type) →
      readColumn schema ref = .ok column → CompleteDefault column value

section Trimming

variable {front back : List Char}

/-- Trimming stops at the last letter that is no space. -/
theorem trimEnd_append {last : Char} (ends : front.getLast? = some last)
    (letter : isWhitespace last = false) : trimEnd (front ++ back) = front ++ trimEnd back := by
  have kept : front.reverse.dropWhile isWhitespace = front.reverse := by
    cases reversed : front.reverse with
    | nil => rfl
    | cons first rest =>
        rw [← List.head?_reverse, reversed] at ends
        cases ends
        rw [List.dropWhile_cons_of_neg (by simp [letter])]
  rw [trimEnd, trimEnd, List.reverse_append, List.dropWhile_append]
  split
  · rename_i empty
    rw [kept, List.isEmpty_iff.mp empty, List.reverse_reverse, List.reverse_nil, List.append_nil]
  · rw [List.reverse_append, List.reverse_reverse]

theorem trimEnd_of_getLast? {last : Char} (ends : front.getLast? = some last)
    (letter : isWhitespace last = false) : trimEnd front = front := by
  have trimmed := @trimEnd_append front [] last ends letter
  rw [List.append_nil] at trimmed
  rw [trimmed]
  exact List.append_nil _

/-- What is trimmed are spaces at the end. -/
theorem exists_trimEnd (text : List Char) : ∃ spaces, text = trimEnd text ++ spaces := by
  refine ⟨(text.reverse.takeWhile isWhitespace).reverse, ?_⟩
  rw [trimEnd, ← List.reverse_append, List.takeWhile_append_dropWhile, List.reverse_reverse]

/-- The text in front of a cast is that in front of the first doubled colon. -/
theorem beforeCast_eq (text : List Char) :
    beforeCast text = (untilDoubled ':' text).map Prod.fst := by
  induction text using beforeCast.induct with
  | case1 rest => simp [beforeCast, untilDoubled]
  | case2 => rfl
  | case3 char rest notCast ih =>
      have single : ¬ (char = ':' ∧ rest.head? = some ':') := by
        rintro ⟨rfl, next⟩
        obtain ⟨more, rfl⟩ := List.head?_eq_some_iff.mp next
        exact notCast more rfl rfl
      rw [beforeCast, untilDoubled, if_neg single, ih, Option.map_map, Option.map_map]
      · rfl
      · exact notCast

end Trimming

section Literals

variable {value type : String}

theorem getLast?_Lit (value : String) : (Lit value).toList.getLast? = some litQuote := by
  rw [toList_Lit, enquote, ← List.cons_append, List.getLast?_concat]

/-- Nothing of a literal with its cast is trimmed but the end of the type. -/
theorem trim_pgLiteral (value type : String) : trim (pgLiteral value type).toList =
    (Lit value).toList ++ ':' :: ':' :: trimEnd type.toList := by
  have start : (pgLiteral value type).toList.dropWhile isWhitespace =
      ((Lit value).toList ++ "::".toList) ++ type.toList := by
    rw [pgLiteral, String.toList_append, String.toList_append, toList_Lit, enquote,
      List.cons_append, List.cons_append, List.dropWhile_cons_of_neg (by decide)]
  have ends : ((Lit value).toList ++ "::".toList).getLast? = some ':' := by
    rw [List.getLast?_append]
    rfl
  rw [trim, start, trimEnd_append ends (by decide), List.append_assoc]
  rfl

/-- What stands in front of the first cast is kept, trimmed, if it is a literal. -/
theorem sqliteDefault_of_cast {text : String} {before after : List Char}
    (cut : untilDoubled ':' (trim text.toList) = some (before, after)) :
    sqliteDefault text = match trimEnd before with
      | [] => none
      | first :: rest =>
          if isLiteral first rest then some (String.ofList (trimEnd before)) else none := by
  cases kept : trimEnd before <;> simp [sqliteDefault, beforeCast_eq, cut, kept]

/-- A literal without a doubled colon is kept whole. -/
theorem sqliteDefault_pgLiteral (single : hasDoubled ':' value.toList = false) :
    sqliteDefault (pgLiteral value type) = some (Lit value) := by
  have cut : untilDoubled ':' (trim (pgLiteral value type).toList) =
      some ((Lit value).toList, trimEnd type.toList) := by
    rw [trim_pgLiteral]
    refine untilDoubled_append ?_ ?_
    · rw [toList_Lit, hasDoubled_enquote (by decide), single]
    · rw [getLast?_Lit]
      decide
  rw [sqliteDefault_of_cast cut, trimEnd_of_getLast? (getLast?_Lit value) (by decide), toList_Lit,
    enquote]
  dsimp only
  rw [if_pos (by simp [isLiteral, litQuote]), Lit, enquote]

/-- A default that is translated to a literal is cut in front of it or behind it. -/
theorem hasDoubled_of_sqliteDefault
    (translated : sqliteDefault (pgLiteral value type) = some (Lit value)) :
    hasDoubled ':' value.toList = false := by
  cases cut : untilDoubled ':' (trim (pgLiteral value type).toList) with
  | none =>
      rw [untilDoubled_eq_none, trim_pgLiteral, hasDoubled_append] at cut
      simp [hasDoubled] at cut
  | some parts =>
      obtain ⟨before, after⟩ := parts
      rw [sqliteDefault_of_cast cut] at translated
      have kept : trimEnd before = (Lit value).toList := by
        split at translated
        · cases translated
        · split at translated
          · rw [← Option.some.inj translated, String.toList_ofList]
          · cases translated
      obtain ⟨_, single⟩ := untilDoubled_eq_some cut
      obtain ⟨spaces, split⟩ := exists_trimEnd before
      rw [split, kept, hasDoubled_append, Bool.or_eq_false_iff, Bool.or_eq_false_iff, toList_Lit,
        hasDoubled_enquote (by decide)] at single
      exact single.1.1

end Literals

section Clauses

theorem Closed.append {front back : String} (first : Closed front) (second : Closed back) :
    Closed (front ++ back) := by
  rw [Closed, String.toList_append, openQuote_append, first, second]

theorem closed_Ident (text : String) : Closed (Ident text) := by
  rw [Closed, toList_Ident]
  exact openQuote_enquote (by decide)

theorem closed_Lit (text : String) : Closed (Lit text) := by
  rw [Closed, toList_Lit]
  exact openQuote_enquote (by decide)

theorem closed_sqliteType (type : ValueType) : Closed (sqliteType type) := by
  have plain : ∀ text ∈ ["INTEGER", "REAL", "BLOB", "TEXT"], Closed text := by decide
  cases type <;> exact plain _ (by simp [sqliteType])

/-- A column definition leaves no quote open where its type and its default do not. -/
theorem closed_createText {column : ColumnDef} (type : Closed column.declaredType)
    (default : Closed (defaultClause column.default)) : Closed column.createText := by
  have flags : Closed (if column.primaryKey then " PRIMARY KEY NOT NULL"
      else (if column.unique then " UNIQUE" else "") ++
        if column.notNull then " NOT NULL" else "") := by
    cases column.primaryKey <;> cases column.unique <;> cases column.notNull <;> decide
  have name : Closed (Ident column.name ++ " ") := (closed_Ident _).append (by decide)
  exact ((name.append type).append flags).append default

theorem closed_alterText {column : ColumnDef} (table : String) (type : Closed column.declaredType)
    (default : Closed (defaultClause column.default)) : Closed (column.alterText table) := by
  have flags : Closed (if column.notNull then " NOT NULL" else "") := by
    cases column.notNull <;> decide
  have names :
      Closed ("ALTER TABLE " ++ Ident table ++ " ADD COLUMN " ++ Ident column.name ++ " ") :=
    ((((show Closed "ALTER TABLE " by decide).append (closed_Ident _)).append (by decide)).append
      (closed_Ident _)).append (by decide)
  exact (((names.append type).append default).append flags).append (by decide)

/-- The clauses of a column with a literal as its default are complete. -/
theorem completeDefault_of_lit {column : TargetColumn} {value : String} {type : ValueType}
    (typeEq : column.sqliteType = sqliteType type) (default : column.default = some (Lit value)) :
    CompleteDefault column value := by
  have closedType : Closed column.sqliteType := typeEq ▸ closed_sqliteType type
  have closedClause : Closed (defaultClause column.default) := by
    rw [default, defaultClause]
    exact Closed.append (by decide) (closed_Lit value)
  constructor
  case literal =>
    refine ⟨Lit value, default, fun rest apart => ?_⟩
    rw [String.toList_append, toList_Lit]
    exact scanQuoted_enquote apart
  case create => exact ⟨_, rfl⟩
  case createClosed => exact closed_createText closedType closedClause
  case alter =>
    intro table
    refine ⟨_, (if (alterColumn column).notNull then " NOT NULL" else "") ++ ";\n",
      String.append_assoc, ?_⟩
    cases (alterColumn column).notNull <;> decide
  case alterClosed => exact fun table => closed_alterText table closedType closedClause

end Clauses

/-- What is read of a column with a default is the default translated. -/
theorem readColumn_default {Interner : Type} [InternerOps Interner]
    {schema : DatabaseSchema Interner} {ref : ColumnRef Interner} {symbol : Symbol} {text : String}
    {column : TargetColumn} (default : ref.defaultValue = .ok (some symbol))
    (named : Names schema.interner symbol text) (read : readColumn schema ref = .ok column) :
    column.default = sqliteDefault text ∧ ∃ type, column.sqliteType = sqliteType type := by
  obtain ⟨name, _, read⟩ := bind_eq_ok.mp read
  obtain ⟨info, infoEq, read⟩ := bind_eq_ok.mp read
  obtain ⟨found, foundEq, read⟩ := bind_eq_ok.mp read
  cases read
  refine ⟨?_, info.dataType, rfl⟩
  obtain ⟨_, sameInfo, defaultEq⟩ := bind_eq_ok.mp default
  cases infoEq.symm.trans sameInfo
  have present : info.defaultValue = some symbol := Except.ok.inj defaultEq
  rw [present, readDefault] at foundEq
  obtain ⟨resolved, resolvedEq, foundEq⟩ := bind_eq_ok.mp foundEq
  cases resolvedEq.symm.trans named
  exact (Except.ok.inj foundEq).symm

/-- A literal default survives exactly if it does not hold `::`. -/
theorem defaultSurvives_iff (value type : String) :
    DefaultSurvives value type ↔ hasDoubled ':' value.toList = false := by
  constructor
  · exact fun survives => hasDoubled_of_sqliteDefault survives.translated
  · intro single
    refine ⟨sqliteDefault_pgLiteral single, ?_⟩
    intro _ _ schema ref symbol column default named read
    obtain ⟨translated, type, typeEq⟩ := readColumn_default default named read
    rw [sqliteDefault_pgLiteral single] at translated
    exact completeDefault_of_lit typeEq translated

/-- The default `a::b` of a text column is cut to a literal that is not closed. -/
theorem not_defaultSurvives_cast : sqliteDefault (pgLiteral "a::b" "text") = some "'a" ∧
    ¬ Closed (defaultClause (sqliteDefault (pgLiteral "a::b" "text"))) ∧
      ¬ DefaultSurvives "a::b" "text" := by
  refine ⟨by decide, by decide, fun survives => ?_⟩
  exact absurd survives.translated (by decide)

end Boomerang
