import Boomerang.Interner.Decoding
import Boomerang.Schema.Codec

/-!
# Decoding any bytes

Two steps of `decode` can panic: the interner is rebuilt from whatever records its section
has, and the bytes of an action are converted without a check. All other steps reject
what they cannot read.
-/

namespace Boomerang

open Foundation

/-- The hash, and the section of the interner. -/
def readInterner : Reader Fault (SchemaHash × List UInt8) := do
  let hash ← readHash
  let internerLen ← Reader.number 4
  let internerBytes ← Reader.take internerLen
  return (hash, internerBytes)

/-- What a schema has besides its hash, its interner and its foreign keys. -/
structure Sections where
  tables : List TableMeta
  byName : List Nat
  columns : List Column
  columnNames : List Symbol
  constraintPool : List Symbol
deriving DecidableEq, Repr

/-- The sections between the interner and the foreign keys. -/
def readSections : Reader Fault Sections := do
  let tables ← readTable.counted
  let byName ← (Reader.number 2).counted
  let columns ← readColumn.counted
  let columnNames ← readSymbol.counted
  let constraintPool ← readSymbol.counted
  return ⟨tables, byName, columns, columnNames, constraintPool⟩

/-- A foreign key up to its actions. -/
def readKeyHead : Reader Fault (Symbol × Symbol × Nat × Nat) := do
  let constraintName ← readSymbol
  let namespaceName ← readSymbol
  let table ← Reader.number 2
  let column ← Reader.number 2
  return (constraintName, namespaceName, table, column)

theorem readSchema_eq (build : Build) (uninitialised : Memory) (internerId : Nat) :
    readSchema build uninitialised internerId = do
      let head ← readInterner
      let interner ← Reader.ofExcept
        (StringInterner.fromBytes build uninitialised internerId head.2)
      let sections ← readSections
      let foreignKeyPool ← readForeignKey.counted
      return ⟨sections.tables, sections.byName, sections.columns, sections.columnNames,
        sections.constraintPool, foreignKeyPool, head.1, interner⟩ := by
  simp only [readSchema, readInterner, readSections, bind_assoc, pure_bind]

theorem readForeignKey_eq : readForeignKey = do
    let head ← readKeyHead
    let onUpdate ← readAction
    let onDelete ← readAction
    return ⟨head.1, head.2.1, head.2.2.1, head.2.2.2, onUpdate, onDelete⟩ := by
  simp only [readForeignKey, readKeyHead, bind_assoc, pure_bind]

section Total

theorem readSymbol_total : readSymbol.Total :=
  (Reader.Total.number 4).bind fun _ => .ofOption _

theorem readDefault_total : readDefault.Total :=
  (Reader.Total.number 4).bind fun _ => .pure _

theorem readType_total : readType.Total := by
  refine Reader.Total.byte.bind fun tag => ?_
  split
  case h_15 => exact readSymbol_total.bind fun _ => .pure _
  case h_21 => exact .ofOption none
  all_goals exact .pure _

theorem readTable_total : readTable.Total :=
  readSymbol_total.bind fun _ => (Reader.Total.number 4).bind fun _ =>
    (Reader.Total.number 2).bind fun _ => (Reader.Total.number 2).bind fun _ =>
      (Reader.Total.number 4).bind fun _ => (Reader.Total.number 2).bind fun _ => .pure _

theorem readRange_total : readRange.Total :=
  (Reader.Total.number 4).bind fun _ => (Reader.Total.number 2).bind fun _ => .pure _

theorem readColumn_total : readColumn.Total :=
  readSymbol_total.bind fun _ => readType_total.bind fun _ => readDefault_total.bind fun _ =>
    Reader.Total.byte.bind fun _ => readRange_total.bind fun _ => readRange_total.bind fun _ =>
      .pure _

theorem readKeyHead_total : readKeyHead.Total :=
  readSymbol_total.bind fun _ => readSymbol_total.bind fun _ =>
    (Reader.Total.number 2).bind fun _ => (Reader.Total.number 2).bind fun _ => .pure _

theorem readInterner_total : readInterner.Total :=
  ((Reader.Total.take 32).bind fun _ => .ofOption _).bind fun _ =>
    (Reader.Total.number 4).bind fun len => (Reader.Total.take len).bind fun _ => .pure _

theorem readSections_total : readSections.Total :=
  readTable_total.counted.bind fun _ => (Reader.Total.number 2).counted.bind fun _ =>
    readColumn_total.counted.bind fun _ => readSymbol_total.counted.bind fun _ =>
      readSymbol_total.counted.bind fun _ => .pure _

end Total

/-- The bytes that are converted to actions, for some foreign keys: up to two of every key
that has them. -/
def actionBytes : Nat → List UInt8 → List UInt8
  | 0, _ => []
  | count + 1, bytes =>
      match readKeyHead.front bytes with
      | some (_, onUpdate :: onDelete :: rest) => onUpdate :: onDelete :: actionBytes count rest
      | some (_, [onUpdate]) => [onUpdate]
      | _ => []

/-- The bytes that are converted to actions, behind the section of the interner. -/
def reachedActions (bytes : List UInt8) : List UInt8 :=
  match readSections.front bytes with
  | none => []
  | some (_, rest) =>
      match (Reader.number 4 : Reader Fault Nat).front rest with
      | none => []
      | some (count, keys) => actionBytes count keys

/-- The records of the interner fit its shards, and the bytes of the actions are those of
actions. -/
def Decodable (build : Build) (bytes : List UInt8) : Prop :=
  match readInterner.front bytes with
  | none => True
  | some (head, rest) => RecordsFit build head.2 ∧ ∀ action ∈ reachedActions rest, action.toNat ≤ 4

/-- A byte converts to an action exactly when it is the number of one. -/
theorem Action.exists_fromU8 {value : UInt8} :
    (∃ action, fromU8 value = .ok action) ↔ value.toNat ≤ 4 := by
  unfold fromU8
  generalize value.toNat = number
  match number with
  | 0 | 1 | 2 | 3 | 4 => exact iff_of_true ⟨_, rfl⟩ (by omega)
  | more + 5 =>
      refine iff_of_false ?_ (by omega)
      rintro ⟨action, impossible⟩
      cases impossible

section Actions

variable {Value : Type} {next : Action → Reader Fault Value} {byte : UInt8} {rest : List UInt8}

/-- Without a byte the input is rejected. -/
theorem readAction_bind_nil : (readAction >>= next).Returns [] := ⟨none, rfl⟩

/-- A byte is converted before anything else is read. -/
theorem readAction_bind_cons : (readAction >>= next).Returns (byte :: rest) ↔
    ∃ action, Action.fromU8 byte = .ok action ∧ (next action).Returns rest := by
  have read : readAction (byte :: rest) = (Action.fromU8 byte).map fun action =>
      some (action, rest) := by
    rw [readAction, Reader.bind_apply]
    rfl
  rw [Reader.Returns, Reader.bind_apply, read]
  cases converted : Action.fromU8 byte with
  | error fault => simp [Except.map]
  | ok action => simp [Except.map, Reader.Returns]

end Actions

/-- The foreign keys are read unless a byte is not an action. -/
theorem readForeignKeys_returns {count : Nat} {bytes : List UInt8} :
    (readForeignKey.many count).Returns bytes ↔
      ∀ action ∈ actionBytes count bytes, action.toNat ≤ 4 := by
  induction count generalizing bytes with
  | zero => exact iff_of_true (Reader.Total.pure [] bytes) fun _ member => nomatch member
  | succ count ih =>
      have first : readForeignKey.many (count + 1) = readKeyHead >>= fun head =>
          readAction >>= fun onUpdate => readAction >>= fun onDelete => do
            return ⟨head.1, head.2.1, head.2.2.1, head.2.2.2, onUpdate, onDelete⟩ ::
              (← readForeignKey.many count) := by
        rw [Reader.many]
        nth_rewrite 1 [readForeignKey_eq]
        simp only [bind_assoc, pure_bind]
      rw [first, actionBytes]
      cases head : readKeyHead.front bytes with
      | none =>
          exact iff_of_true (Reader.returns_bind_of_none readKeyHead_total head)
            fun _ member => nomatch member
      | some pair =>
          obtain ⟨key, rest⟩ := pair
          rw [Reader.returns_bind_of_front head]
          match rest with
          | [] => exact iff_of_true readAction_bind_nil fun _ member => nomatch member
          | [onUpdate] =>
              rw [readAction_bind_cons, List.forall_mem_singleton, ← Action.exists_fromU8]
              exact ⟨fun ⟨action, converted, _⟩ => ⟨action, converted⟩,
                fun ⟨action, converted⟩ => ⟨action, converted, readAction_bind_nil⟩⟩
          | onUpdate :: onDelete :: rest =>
              rw [readAction_bind_cons, List.forall_mem_cons, List.forall_mem_cons, ← ih,
                ← Action.exists_fromU8, ← Action.exists_fromU8]
              simp only [readAction_bind_cons, Reader.returns_map]
              constructor
              · rintro ⟨first, update, second, delete, returns⟩
                exact ⟨⟨first, update⟩, ⟨second, delete⟩, returns⟩
              · rintro ⟨⟨first, update⟩, ⟨second, delete⟩, returns⟩
                exact ⟨first, update, second, delete, returns⟩

/-- Behind the interner only the actions can fail. -/
theorem readRest_returns {Value : Type} (change : Sections → List ForeignKey → Value)
    {bytes : List UInt8} :
    (do let sections ← readSections
        let foreignKeyPool ← readForeignKey.counted
        return change sections foreignKeyPool : Reader Fault Value).Returns bytes ↔
      ∀ action ∈ reachedActions bytes, action.toNat ≤ 4 := by
  rw [reachedActions]
  cases pooled : readSections.front bytes with
  | none =>
      exact iff_of_true (Reader.returns_bind_of_none readSections_total pooled)
        fun _ member => nomatch member
  | some pair =>
      obtain ⟨sections, rest⟩ := pair
      rw [Reader.returns_bind_of_front pooled, Reader.returns_map, Reader.counted]
      dsimp only
      cases counted : (Reader.number 4 : Reader Fault Nat).front rest with
      | none =>
          exact iff_of_true (Reader.returns_bind_of_none (Reader.Total.number 4) counted)
            fun _ member => nomatch member
      | some pair =>
          obtain ⟨count, keys⟩ := pair
          rw [Reader.returns_bind_of_front counted]
          exact readForeignKeys_returns

/-- The section of the interner is shorter than its length field counts. -/
theorem readInterner_small {bytes rest : List UInt8} {head : SchemaHash × List UInt8}
    (taken : readInterner.front bytes = some (head, rest)) : head.2.length < u32Range := by
  obtain ⟨hash, afterHash, _, taken⟩ := Reader.front_bind.mp taken
  obtain ⟨len, afterLen, lenTaken, taken⟩ := Reader.front_bind.mp taken
  obtain ⟨raw, afterRaw, rawTaken, taken⟩ := Reader.front_bind.mp taken
  obtain ⟨rfl, rfl⟩ := Reader.front_pure.mp taken
  obtain ⟨_, rfl, _⟩ := Reader.front_take.mp rawTaken
  exact Nat.lt_of_le_of_lt (List.length_take_le _ _) (Reader.front_number lenTaken)

/-- `decode` returns exactly when the records of the interner fit its shards and the bytes
of the actions are those of actions. -/
theorem DatabaseSchema.decode_returns_iff (build : Build) (uninitialised : Memory)
    (internerId : Nat) (bytes : List UInt8) :
    (∃ result, decode build uninitialised internerId bytes = .ok result) ↔
      Decodable build bytes := by
  rw [decode, Reader.decode_returns, readSchema_eq, Decodable]
  cases taken : readInterner.front bytes with
  | none => exact iff_of_true (Reader.returns_bind_of_none readInterner_total taken) trivial
  | some pair =>
      obtain ⟨head, rest⟩ := pair
      rw [Reader.returns_bind_of_front taken]
      rcases StringInterner.fromBytes_cases build uninitialised internerId
        (readInterner_small taken) with ⟨fits, interner, rebuilt, _⟩ | ⟨full, fault, failed⟩
      · have front : (Reader.ofExcept (StringInterner.fromBytes build uninitialised internerId
            head.2)).front rest = some (interner, rest) := by
          rw [rebuilt]
          rfl
        rw [Reader.returns_bind_of_front front]
        exact (readRest_returns _).trans (and_iff_right fits).symm
      · refine iff_of_false ?_ fun decodable => full decodable.1
        rw [Reader.returns_bind, failed]
        rintro ⟨⟨result, impossible⟩, _⟩
        cases impossible

/-- A schema without tables and with one foreign key, whose first action is 5. -/
def fifthAction : List UInt8 :=
  List.replicate 32 0 ++ List.replicate 24 0 ++
    (toLE 4 1 ++ toLE 4 1 ++ toLE 4 1 ++ toLE 2 0 ++ toLE 2 0 ++ [5, 0])

/-- The fifth action reaches the `unreachable!`. -/
theorem DatabaseSchema.not_decode_returns_fifthAction :
    ¬ ∃ result, decode ⟨.release, fun _ => 0⟩ (fun _ => 0) 1 fifthAction = .ok result := by
  have panics : decode ⟨.release, fun _ => 0⟩ (fun _ => 0) 1 fifthAction =
      .error .unreachable := rfl
  rintro ⟨result, success⟩
  cases panics.symm.trans success

end Boomerang
