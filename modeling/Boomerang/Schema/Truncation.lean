import Boomerang.Foundation.SelfDelimiting
import Boomerang.Schema.RoundTrip

/-!
# Truncated and extended schemas

Every step of `decode` takes a number of bytes that the bytes before them fix. So a schema
that is cut anywhere is rejected, and bytes behind a schema are not looked at.
-/

namespace Boomerang

open Foundation

section SelfDelimiting

theorem readSymbol_selfDelimiting : SelfDelimiting readSymbol :=
  (SelfDelimiting.number 4).bind fun _ => .ofOption _

theorem readDefault_selfDelimiting : SelfDelimiting readDefault :=
  (SelfDelimiting.number 4).bind fun _ => .pure _

theorem readType_selfDelimiting : SelfDelimiting readType := by
  refine SelfDelimiting.byte.bind fun tag => ?_
  split
  case h_15 => exact readSymbol_selfDelimiting.bind fun _ => .pure _
  case h_21 => exact .ofOption none
  all_goals exact .pure _

theorem readTable_selfDelimiting : SelfDelimiting readTable :=
  readSymbol_selfDelimiting.bind fun _ => (SelfDelimiting.number 4).bind fun _ =>
    (SelfDelimiting.number 2).bind fun _ => (SelfDelimiting.number 2).bind fun _ =>
      (SelfDelimiting.number 4).bind fun _ => (SelfDelimiting.number 2).bind fun _ => .pure _

theorem readRange_selfDelimiting : SelfDelimiting readRange :=
  (SelfDelimiting.number 4).bind fun _ => (SelfDelimiting.number 2).bind fun _ => .pure _

theorem readColumn_selfDelimiting : SelfDelimiting readColumn :=
  readSymbol_selfDelimiting.bind fun _ => readType_selfDelimiting.bind fun _ =>
    readDefault_selfDelimiting.bind fun _ => SelfDelimiting.byte.bind fun _ =>
      readRange_selfDelimiting.bind fun _ => readRange_selfDelimiting.bind fun _ => .pure _

theorem readAction_selfDelimiting : SelfDelimiting readAction :=
  SelfDelimiting.byte.bind fun _ => .ofExcept _

theorem readForeignKey_selfDelimiting : SelfDelimiting readForeignKey :=
  readSymbol_selfDelimiting.bind fun _ => readSymbol_selfDelimiting.bind fun _ =>
    (SelfDelimiting.number 2).bind fun _ => (SelfDelimiting.number 2).bind fun _ =>
      readAction_selfDelimiting.bind fun _ => readAction_selfDelimiting.bind fun _ => .pure _

theorem readHash_selfDelimiting : SelfDelimiting readHash :=
  (SelfDelimiting.take 32).bind fun _ => .ofOption _

theorem readSchema_selfDelimiting (build : Build) (uninitialised : Memory) (internerId : Nat) :
    SelfDelimiting (readSchema build uninitialised internerId) :=
  readHash_selfDelimiting.bind fun _ => (SelfDelimiting.number 4).bind fun internerLen =>
    (SelfDelimiting.take internerLen).bind fun _ => (SelfDelimiting.ofExcept _).bind fun _ =>
      readTable_selfDelimiting.counted.bind fun _ =>
        (SelfDelimiting.number 2).counted.bind fun _ =>
          readColumn_selfDelimiting.counted.bind fun _ =>
            readSymbol_selfDelimiting.counted.bind fun _ =>
              readSymbol_selfDelimiting.counted.bind fun _ =>
                readForeignKey_selfDelimiting.counted.bind fun _ => .pure _

end SelfDelimiting

namespace DatabaseSchema

variable {build : Build} {schema : DatabaseSchema (StringInterner build)}

/-- A schema built from rows within the widths is rejected when its bytes are cut, and read
the same when bytes follow them. -/
theorem decode_cut_or_extended {unstable : UnstableSort (TableMeta × Nat) Symbol}
    {uninitialised : Memory} {internerId : Nat} {rows : List RawRow} {hash : SchemaHash}
    (storable : ∀ text ∈ rows.flatMap Row.strings, MemoryPool.Storable build.profile text)
    (widths : WithinWidths rows)
    (success : buildNew unstable build uninitialised internerId rows hash = .ok schema)
    (otherMemory : Memory) (otherId : Nat) :
    (∀ count < schema.encode.length,
        decode build otherMemory otherId (schema.encode.take count) = .ok none) ∧
      ∃ decoded, decode build otherMemory otherId schema.encode = .ok (some decoded) ∧
        ∀ more, decode build otherMemory otherId (schema.encode ++ more) =
          .ok (some decoded) := by
  obtain ⟨interner, valid, success⟩ := buildNew_ok success
  obtain ⟨_, symbols, pools, resolved, order, ordered, built⟩ :=
    DatabaseSchemaBuilder.buildRows_ok valid storable success
  obtain ⟨contents, holds⟩ := built.valid
  obtain ⟨rebuilt, reads, _⟩ :=
    exists_reads holds (built.encodable widths) otherMemory otherId
  refine ⟨?_, { schema with interner := rebuilt }, reads.decode, reads.decode_append⟩
  intro count below
  exact reads.decode_take (readSchema_selfDelimiting build otherMemory otherId) below

/-- The schema of the posts is rejected when its last byte is missing. -/
theorem decode_cut_posts :
    ∃ schema decoded, buildStable ⟨.release, fun _ => 0⟩ postRows = .ok schema ∧
      schema.encode ≠ [] ∧
      decode ⟨.release, fun _ => 0⟩ (fun _ => 1) 2
        (schema.encode.take (schema.encode.length - 1)) = .ok none ∧
      decode ⟨.release, fun _ => 0⟩ (fun _ => 1) 2 (schema.encode ++ [7]) =
        .ok (some decoded) := by
  obtain ⟨schema, success⟩ := exists_of_isSome
    (show (buildStable ⟨.release, fun _ => 0⟩ postRows).toOption.isSome = true by decide +kernel)
  have widths : WithinWidths postRows := ⟨by decide, by decide, by decide, by decide⟩
  obtain ⟨cut, decoded, _, extended⟩ :=
    decode_cut_or_extended (by decide) widths success (fun _ => 1) 2
  have long : 0 < schema.encode.length := by
    have hash := schema.hash.property
    rw [encode]
    simp only [List.length_append]
    omega
  exact ⟨schema, decoded, success, List.ne_nil_of_length_pos long,
    cut _ (Nat.sub_lt long Nat.zero_lt_one), extended [7]⟩

end DatabaseSchema

end Boomerang
