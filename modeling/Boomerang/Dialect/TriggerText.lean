import Boomerang.Dialect.SqlText
import Boomerang.Foundation.Lexing

/-!
# The text of the Postgres triggers

`setup_triggers` writes a function and a trigger in one text. The body of the function is
quoted by `$$`, which nothing escapes, and the names of the table and of its primary column
stand in the body.
-/

namespace Boomerang

open Foundation

namespace PgTrigger

/-- The body up to the name of the table. -/
def bodyInsert : String := "
                    BEGIN
                        IF current_setting('boomerang.sync_write', true) = 'true' THEN
                            RETURN NULL;
                        END IF;

                        INSERT INTO boomerang.sync_log AS l (table_name, record_id, op_type, version, updated_at)
                        VALUES (
                            "

def bodyCase : String := ",
                            (CASE WHEN TG_OP = 'DELETE' THEN OLD."

def bodyElse : String := " ELSE NEW."

/-- The body behind the primary column. -/
def bodyConflict : String := " END)::text,
                            left(TG_OP, 1),
                            1,
                            (extract(epoch FROM clock_timestamp()) * 1000)::bigint
                        )
                        ON CONFLICT (table_name, record_id) DO UPDATE
                        SET op_type    = EXCLUDED.op_type,
                            version    = l.version + 1,
                            updated_at = EXCLUDED.updated_at;

                        RETURN NULL;
                    END "

/-- The function body, between the two `$$`. -/
def body (trigger : PgTrigger) : String :=
  bodyInsert ++ Lit trigger.name ++ bodyCase ++ Ident trigger.pk ++ bodyElse ++
    Ident trigger.pk ++ bodyConflict

def sqlFunction : String := "
                    CREATE OR REPLACE FUNCTION "

def sqlReturns : String := "() RETURNS trigger
                    LANGUAGE plpgsql AS "

def sqlTrigger : String := "

                    CREATE OR REPLACE TRIGGER "

def sqlOn : String := "
                    AFTER INSERT OR UPDATE OR DELETE ON "

def sqlExecute : String := "
                    FOR EACH ROW EXECUTE FUNCTION "

def sqlEnd : String := "
                 "

/-- The text that `setup_triggers` of Postgres runs for a table. -/
def sql (trigger : PgTrigger) : String :=
  sqlFunction ++ Ident trigger.func ++ sqlReturns ++ "$$" ++ trigger.body ++ "$$" ++ ";" ++
    sqlTrigger ++ Ident trigger.trg ++ sqlOn ++ Ident trigger.table ++ sqlExecute ++
    Ident trigger.func ++ "()" ++ ";" ++ sqlEnd

end PgTrigger

/-- The lexemes of Postgres. Comments and tags between the dollars are left out: they could
only stand behind a body that ends early. -/
def lexPostgres (text : String) : Option (List (Lexeme Char)) := lex sqlQuotes '$' text.toList

/-- Letters as they stand. -/
def plainText (text : String) : List (Lexeme Char) := text.toList.map .plain

/-- An identifier. -/
def identText (text : String) : Lexeme Char := .quoted identQuote text.toList

namespace PgTrigger

/-- The statement that creates the function. -/
def createFunction (trigger : PgTrigger) : List (Lexeme Char) :=
  plainText sqlFunction ++ identText trigger.func ::
    (plainText sqlReturns ++ [.body trigger.body.toList])

/-- The statement that creates the trigger. -/
def createTrigger (trigger : PgTrigger) : List (Lexeme Char) :=
  plainText sqlTrigger ++ identText trigger.trg :: plainText sqlOn ++
    identText trigger.table :: plainText sqlExecute ++ identText trigger.func :: plainText "()"

/-- The text is one statement that creates the function with its whole body, and one that
creates the trigger. -/
def TwoStatements (trigger : PgTrigger) : Prop :=
  (lexPostgres trigger.sql).map (List.splitOn (.plain ';')) =
    some [trigger.createFunction, trigger.createTrigger, plainText sqlEnd]

section Letters

/-- What holds of the letters that a text is spelled with holds of its letters. -/
theorem spelled (Holds : List Char → Prop) {text : String} {letters : List Char}
    (same : text = String.ofList letters) (holds : Holds letters) : Holds text.toList := by
  rw [same, String.toList_ofList]
  exact holds

/-- Letters that start with one that stands for itself. -/
def Starts (letters : List Char) : Prop :=
  ∃ first, letters.head? = some first ∧ first ∉ sqlQuotes ∧ first ≠ '$'

/-- Letters that all stand for themselves. -/
def IsPlain (letters : List Char) : Prop := ∀ letter ∈ letters, letter ∉ sqlQuotes ∧ letter ≠ '$'

instance : DecidablePred IsPlain := fun letters =>
  decidable_of_iff ((letters.all fun letter => !sqlQuotes.contains letter && letter != '$') = true)
    (by simp [IsPlain])

theorem Starts.append {letters : List Char} (starts : Starts letters) (rest : List Char) :
    Starts (letters ++ rest) := by
  obtain ⟨first, head, alone⟩ := starts
  exact ⟨first, by rw [List.head?_append, head, Option.some_or], alone⟩

theorem Starts.ne {letters : List Char} (starts : Starts letters) :
    letters.head? ≠ some identQuote ∧ letters.head? ≠ some '$' := by
  obtain ⟨first, head, noQuote, noDollar⟩ := starts
  rw [head]
  refine ⟨?_, by simpa using noDollar⟩
  rintro ⟨⟩
  exact noQuote (by decide)

end Letters

section Bodies

theorem hasDoubled_join {front back : List Char} (apart : back.head? ≠ some '$') :
    hasDoubled '$' (front ++ back) = (hasDoubled '$' front || hasDoubled '$' back) := by
  rw [hasDoubled_append, decide_eq_false apart, Bool.and_false, Bool.or_false]

set_option maxRecDepth 8000 in
theorem single_bodies : hasDoubled '$' bodyInsert.toList = false ∧
    hasDoubled '$' bodyCase.toList = false ∧ hasDoubled '$' bodyElse.toList = false ∧
    hasDoubled '$' bodyConflict.toList = false :=
  ⟨spelled (hasDoubled '$' · = false) rfl (by decide +kernel),
    spelled (hasDoubled '$' · = false) rfl (by decide +kernel),
    spelled (hasDoubled '$' · = false) rfl (by decide +kernel),
    spelled (hasDoubled '$' · = false) rfl (by decide +kernel)⟩

set_option maxRecDepth 8000 in
theorem starts_bodies : Starts bodyCase.toList ∧ Starts bodyElse.toList ∧
    Starts bodyConflict.toList :=
  ⟨spelled Starts rfl ⟨',', by decide⟩, spelled Starts rfl ⟨' ', by decide⟩,
    spelled Starts rfl ⟨' ', rfl, by decide⟩⟩

/-- The dollars that are doubled in the body are those in the names. -/
theorem hasDoubled_body (trigger : PgTrigger) : hasDoubled '$' trigger.body.toList =
    (hasDoubled '$' trigger.name.toList || hasDoubled '$' trigger.pk.toList) := by
  have lit : ∀ rest, (enquote litQuote trigger.name.toList ++ rest).head? ≠ some '$' := by
    intro rest
    rw [enquote, List.cons_append, List.head?_cons]
    decide
  have ident : ∀ rest, (enquote identQuote trigger.pk.toList ++ rest).head? ≠ some '$' := by
    intro rest
    rw [enquote, List.cons_append, List.head?_cons]
    decide
  obtain ⟨insert, case, other, conflict⟩ := single_bodies
  obtain ⟨caseStarts, otherStarts, conflictStarts⟩ := starts_bodies
  simp only [body, String.toList_append, List.append_assoc, toList_Lit, toList_Ident]
  rw [hasDoubled_join (lit _), hasDoubled_join (caseStarts.append _).ne.2,
    hasDoubled_join (ident _), hasDoubled_join (otherStarts.append _).ne.2,
    hasDoubled_join (ident _), hasDoubled_join conflictStarts.ne.2, insert, case, other, conflict,
    hasDoubled_enquote (by decide), hasDoubled_enquote (by decide)]
  cases hasDoubled '$' trigger.name.toList <;> cases hasDoubled '$' trigger.pk.toList <;> rfl

set_option maxRecDepth 8000 in
/-- The closing quote cannot start in the body. -/
theorem getLast?_body (trigger : PgTrigger) : trigger.body.toList.getLast? ≠ some '$' := by
  have last : bodyConflict.toList.getLast? = some ' ' :=
    spelled (List.getLast? · = some ' ') rfl rfl
  rw [body, String.toList_append, List.getLast?_append, last, Option.some_or]
  decide

end Bodies

section Statements

theorem lex_plainText {text : String} (plain : IsPlain text.toList) {rest : List Char} :
    lex sqlQuotes '$' (text.toList ++ rest) =
      (lex sqlQuotes '$' rest).map (plainText text ++ ·) :=
  lex_plain plain

theorem lex_Ident {text : String} {rest : List Char} (starts : Starts rest) :
    lex sqlQuotes '$' ((Ident text).toList ++ rest) =
      (lex sqlQuotes '$' rest).map (identText text :: ·) := by
  rw [toList_Ident]
  exact lex_enquote (by decide) starts.ne.1

theorem plain_statements : IsPlain sqlFunction.toList ∧ IsPlain sqlReturns.toList ∧
    IsPlain sqlTrigger.toList ∧ IsPlain sqlOn.toList ∧ IsPlain sqlExecute.toList ∧
    IsPlain sqlEnd.toList :=
  ⟨spelled IsPlain rfl (by decide +kernel), spelled IsPlain rfl (by decide +kernel),
    spelled IsPlain rfl (by decide +kernel), spelled IsPlain rfl (by decide +kernel),
    spelled IsPlain rfl (by decide +kernel), spelled IsPlain rfl (by decide +kernel)⟩

theorem starts_statements : Starts sqlReturns.toList ∧ Starts sqlOn.toList ∧
    Starts sqlExecute.toList ∧ Starts "()".toList :=
  ⟨spelled Starts rfl ⟨'(', by decide⟩, spelled Starts rfl ⟨'\n', by decide⟩,
    spelled Starts rfl ⟨'\n', by decide⟩, spelled Starts rfl ⟨'(', by decide⟩⟩

/-- The text behind the body. -/
def afterBody (trigger : PgTrigger) : String :=
  ";" ++ sqlTrigger ++ Ident trigger.trg ++ sqlOn ++ Ident trigger.table ++ sqlExecute ++
    Ident trigger.func ++ "()" ++ ";" ++ sqlEnd

theorem lex_afterBody (trigger : PgTrigger) : lex sqlQuotes '$' trigger.afterBody.toList =
    some (.plain ';' :: (trigger.createTrigger ++ .plain ';' :: plainText sqlEnd)) := by
  obtain ⟨-, -, triggerPlain, onPlain, executePlain, endPlain⟩ := plain_statements
  obtain ⟨-, onStarts, executeStarts, callStarts⟩ := starts_statements
  have ends : lex sqlQuotes '$' sqlEnd.toList = some (plainText sqlEnd) := by
    have lexed := @lex_plainText sqlEnd endPlain []
    rwa [List.append_nil, lex_nil, Option.map_some, List.append_nil] at lexed
  delta afterBody
  simp only [String.toList_append, List.append_assoc]
  rw [lex_plainText (by decide), lex_plainText triggerPlain, lex_Ident (onStarts.append _),
    lex_plainText onPlain, lex_Ident (executeStarts.append _), lex_plainText executePlain,
    lex_Ident (callStarts.append _), lex_plainText (by decide), lex_plainText (by decide), ends]
  simp only [Option.map_some, createTrigger, List.append_assoc, List.cons_append]
  rfl

theorem toList_sql (trigger : PgTrigger) : trigger.sql.toList =
    sqlFunction.toList ++ ((Ident trigger.func).toList ++ (sqlReturns.toList ++
      '$' :: '$' :: (trigger.body.toList ++ '$' :: '$' :: trigger.afterBody.toList))) := by
  have whole : trigger.sql = sqlFunction ++ (Ident trigger.func ++ (sqlReturns ++
      ("$$" ++ (trigger.body ++ ("$$" ++ trigger.afterBody))))) := by
    delta sql afterBody
    simp only [String.append_assoc]
  have dollars : "$$".toList = ['$', '$'] := by decide
  rw [whole]
  simp only [String.toList_append, dollars, List.cons_append, List.nil_append]

/-- The text up to the body, and the body as far as it goes. -/
theorem lex_sql (trigger : PgTrigger) {before after : List Char}
    (found : untilDoubled '$' (trigger.body.toList ++ '$' :: '$' :: trigger.afterBody.toList) =
      some (before, after)) :
    lexPostgres trigger.sql = (lex sqlQuotes '$' after).map fun rest =>
      plainText sqlFunction ++ identText trigger.func ::
        (plainText sqlReturns ++ .body before :: rest) := by
  obtain ⟨functionPlain, returnsPlain, -⟩ := plain_statements
  obtain ⟨returnsStarts, -⟩ := starts_statements
  rw [lexPostgres, toList_sql, lex_plainText functionPlain, lex_Ident (returnsStarts.append _),
    lex_plainText returnsPlain, lex_bracket (by decide) found, Option.map_map, Option.map_map,
    Option.map_map]
  rfl

theorem semicolon_statements (trigger : PgTrigger) :
    .plain ';' ∉ trigger.createFunction ∧ .plain ';' ∉ trigger.createTrigger ∧
      .plain ';' ∉ plainText sqlEnd := by
  have apart : ∀ {text : String}, ';' ∉ text.toList → .plain ';' ∉ plainText text := by
    intro text absent member
    obtain ⟨letter, there, same⟩ := List.mem_map.mp member
    cases same
    exact absent there
  have function : ';' ∉ sqlFunction.toList := spelled (';' ∉ ·) rfl (by decide)
  have returns : ';' ∉ sqlReturns.toList := spelled (';' ∉ ·) rfl (by decide)
  have trigger' : ';' ∉ sqlTrigger.toList := spelled (';' ∉ ·) rfl (by decide)
  have on : ';' ∉ sqlOn.toList := spelled (';' ∉ ·) rfl (by decide)
  have execute : ';' ∉ sqlExecute.toList := spelled (';' ∉ ·) rfl (by decide)
  have call : ';' ∉ "()".toList := spelled (';' ∉ ·) rfl (by decide)
  have ends : ';' ∉ sqlEnd.toList := spelled (';' ∉ ·) rfl (by decide)
  refine ⟨?_, ?_, apart ends⟩
  · simp [createFunction, identText, apart function, apart returns]
  · simp [createTrigger, identText, apart trigger', apart on, apart execute, apart call]

/-- The text is the two statements exactly where no dollars are doubled in the body. -/
theorem twoStatements_iff_body (trigger : PgTrigger) :
    trigger.TwoStatements ↔ hasDoubled '$' trigger.body.toList = false := by
  constructor
  · intro statements
    obtain ⟨lexemes, lexed, split⟩ := Option.map_eq_some_iff.mp statements
    have joined : [.plain ';'].intercalate (lexemes.splitOn (.plain ';')) = lexemes :=
      List.intercalate_splitOn _
    have closes : untilDoubled '$' (trigger.body.toList ++
        '$' :: '$' :: trigger.afterBody.toList) ≠ none := by
      rw [ne_eq, untilDoubled_eq_none, hasDoubled_append]
      simp [hasDoubled]
    obtain ⟨⟨before, after⟩, found⟩ := Option.ne_none_iff_exists'.mp closes
    rw [lex_sql trigger found] at lexed
    obtain ⟨rest, -, same⟩ := Option.map_eq_some_iff.mp lexed
    rw [split, ← same] at joined
    have whole : before = trigger.body.toList ∧ rest = .plain ';' ::
        (trigger.createTrigger ++ .plain ';' :: plainText sqlEnd) := by
      simpa [createFunction, List.intercalate] using joined.symm
    rw [← whole.1]
    exact (untilDoubled_eq_some found).2
  · intro single
    have found : untilDoubled '$' (trigger.body.toList ++ '$' :: '$' :: trigger.afterBody.toList) =
        some (trigger.body.toList, trigger.afterBody.toList) :=
      untilDoubled_append single trigger.getLast?_body
    obtain ⟨function, trigger', ends⟩ := semicolon_statements trigger
    have lexed : lexPostgres trigger.sql = some (trigger.createFunction ++
        .plain ';' :: (trigger.createTrigger ++ .plain ';' :: plainText sqlEnd)) := by
      rw [lex_sql trigger found, lex_afterBody, Option.map_some, createFunction]
      simp only [List.append_assoc, List.cons_append, List.nil_append]
    rw [TwoStatements, lexed, Option.map_some,
      List.splitOn_append_cons_self_of_not_mem function,
      List.splitOn_append_cons_self_of_not_mem trigger', List.splitOn_eq_singleton ends]

end Statements

/-- The text that is written for a table is the two statements exactly where neither its name
nor the name of its primary column doubles a dollar. -/
theorem twoStatements_iff (tableName primaryCol : String) :
    (PgTrigger.of tableName primaryCol).TwoStatements ↔
      hasDoubled '$' tableName.toList = false ∧ hasDoubled '$' primaryCol.toList = false := by
  have name : hasDoubled '$' (PgTrigger.of tableName primaryCol).name.toList =
      hasDoubled '$' tableName.toList := by
    have start : (PgTrigger.of tableName primaryCol).name = "public." ++ tableName := rfl
    rw [start, String.toList_append, hasDoubled_append]
    simp [hasDoubled]
  rw [twoStatements_iff_body, hasDoubled_body, name, of_pk, Bool.or_eq_false_iff]

/-- The body ends in the name of the table. -/
theorem not_twoStatements_dollars : ¬ ∀ tableName primaryCol : String,
    (PgTrigger.of tableName primaryCol).TwoStatements := by
  intro always
  have single := (twoStatements_iff_body _).mp (always "a$$b" "id")
  rw [hasDoubled_body, Bool.or_eq_false_iff] at single
  exact absurd single.1 (by decide)

end PgTrigger

end Boomerang
