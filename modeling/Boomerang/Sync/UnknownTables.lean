import Boomerang.Schema.KnownStrings
import Boomerang.Sync.MergeJoin
import Boomerang.Sync.TableKey

/-!
# The unknown tables of the logs

`symbol_for` accepts every string that the schema knows, also one that names no table.
-/

namespace Boomerang

open Foundation

section Memo

variable {Driver Interner : Type} [InternerOps Interner] {schema : DatabaseSchema Interner}
variable {cache : TableCache}

/-- The memo of a stream is right after all its calls. -/
theorem TableCache.Reached.faithful [LawfulInterner Interner]
    (valid : LawfulInterner.Valid schema.interner)
    (reached : TableCache.Reached Driver schema cache) : cache.Faithful schema := by
  induction reached with
  | default =>
      rintro symbol ⟨⟩
  | @call cache next table symbol prior success faithful =>
      unfold symbolFor at success
      split at success
      · cases success
        exact faithful
      · split at success
        · cases success
        · rename_i found known
          cases success
          rintro other ⟨⟩
          exact (LawfulInterner.get_eq_some valid).mp known

variable {row : LogRow Driver} {name : String} {dbErr : SqlxError Driver → TruthTableError Driver}

end Memo

section Property

variable {Interner : Type} [InternerOps Interner]

end Property

section Lookup

variable {Interner : Type} [InternerOps Interner] [LawfulInterner Interner] {Driver : Type}
variable {unstable : UnstableSort (TableMeta × Nat) Symbol} {rows : List RawRow}
variable {symbols : String → Symbol} {pools : SchemaPools} {resolved : List ResolvedFk}
variable {order : List Nat} {ordered : List TableMeta} {schema : DatabaseSchema Interner}

end Lookup

variable {build : Build}

end Boomerang
