import Boomerang.Sync.MergeJoin

/-!
# Swapping and settling two logs

Neither side is preferred: with the logs swapped the merge reports the same records the
other way round. One round settles: once every winner is copied to the other side, the
merge reports the conflicts it reported before and nothing else.
-/

namespace Boomerang

open Foundation

/-- The action with the sides swapped. -/
def RowAction.mirror : RowAction → RowAction
  | .applyFromPostgres => .applyFromSQLite
  | .applyFromSQLite => .applyFromPostgres
  | .conflict => .conflict

/-- The entry with the sides swapped. -/
def SyncTruthEntry.mirror (entry : SyncTruthEntry) : SyncTruthEntry :=
  ⟨entry.sqlite, entry.postgres, entry.action.mirror⟩

/-- The records of both sides once the reported action is carried out: the winner on both
sides, and in a conflict what there was. -/
def settle : Option LogRecord × Option LogRecord → Option (LogRecord × LogRecord)
  | (some p, none) => some (p, p)
  | (none, some s) => some (s, s)
  | (some p, some s) =>
      match p.action s with
      | .applyFromPostgres => some (p, p)
      | .applyFromSQLite => some (s, s)
      | .conflict => some (p, s)
  | (none, none) => none

/-- Both logs once every reported action is carried out. -/
def settled (pgLog sqLog : List LogRecord) : List (LogRecord × LogRecord) :=
  (outerJoin LogRecord.key LogRecord.key pgLog sqLog).filterMap settle

namespace LogRecord

variable {p s : LogRecord}

/-- The comparison from the other side. -/
theorem newer_swap (p s : LogRecord) : s.newer p = (p.newer s).swap := by
  have swap : ∀ left right : Int, ordCmp right left = (ordCmp left right).swap :=
    fun left right => (cmp_swap left right).symm
  rw [newer, newer, swap p.version, swap p.updatedAt, Ordering.swap_then]

theorem action_swap (p s : LogRecord) : s.action p = (p.action s).mirror := by
  rw [action, action, newer_swap p s]
  cases p.newer s <;> rfl

theorem action_eq_conflict : p.action s = .conflict ↔ p.newer s = .eq := by
  rw [action]
  cases p.newer s <;> simp

end LogRecord

section Verdicts

variable (symbols : String → Symbol)

theorem verdict_swap (pair : Option LogRecord × Option LogRecord) :
    verdict symbols pair.swap = (verdict symbols pair).map SyncTruthEntry.mirror := by
  obtain ⟨_ | p, _ | s⟩ := pair
  · rfl
  · rfl
  · rfl
  · rw [Prod.swap_prod_mk, verdict_both, verdict_both]
    by_cases same : p.state = s.state
    · rw [if_pos same, if_pos same.symm]
      rfl
    · rw [if_neg same, if_neg (Ne.symm same), LogRecord.action_swap p s]
      rfl

/-- With the logs swapped, the same records are divergent the other way round. -/
theorem divergent_swap (pgLog sqLog : List LogRecord) :
    divergent symbols sqLog pgLog = (divergent symbols pgLog sqLog).map SyncTruthEntry.mirror := by
  rw [divergent, outerJoin_swap, List.filterMap_map, divergent, List.map_filterMap]
  exact List.filterMap_congr fun pair _ => verdict_swap symbols pair

/-- What is reported once an action is carried out: the conflict, if it was one. -/
theorem verdict_settle (pair : Option LogRecord × Option LogRecord) :
    ((settle pair).bind fun both => verdict symbols (some both.1, some both.2)) =
      (verdict symbols pair).filter fun entry => entry.action = .conflict := by
  have alone : ∀ record : LogRecord, verdict symbols (some record, some record) = none :=
    fun record => by rw [verdict_both, if_pos rfl]
  obtain ⟨_ | p, _ | s⟩ := pair
  · rfl
  · exact alone s
  · exact alone p
  · by_cases same : p.state = s.state
    · have conflict : p.action s = .conflict := by
        rw [LogRecord.action_eq_conflict, LogRecord.newer_eq_eq]
        exact ⟨congrArg Prod.fst same, congrArg (fun state => state.2.1) same⟩
      simp only [settle, conflict, Option.bind_some]
      rw [verdict_both, if_pos same, Option.filter_none]
    · cases action : p.action s with
      | applyFromPostgres | applyFromSQLite =>
          simp only [settle, action, Option.bind_some, alone]
          rw [verdict_both, if_neg same, action]
          rfl
      | conflict =>
          simp only [settle, action, Option.bind_some]
          rw [verdict_both, if_neg same, action]
          rfl

/-- A winner that is reported is on both sides afterwards. -/
theorem exists_settle {pair : Option LogRecord × Option LogRecord} {entry : SyncTruthEntry}
    {winner : SyncLogEntry} (reported : verdict symbols pair = some entry)
    (won : entry.winningEntry = some winner) :
    ∃ record, settle pair = some (record, record) ∧ record.entry symbols = winner := by
  obtain ⟨_ | p, _ | s⟩ := pair
  · cases reported
  · cases reported
    exact ⟨s, rfl, Option.some.inj won⟩
  · cases reported
    exact ⟨p, rfl, Option.some.inj won⟩
  · rw [verdict_both] at reported
    split at reported
    · cases reported
    · cases reported
      cases action : p.action s with
      | applyFromPostgres =>
          rw [SyncTruthEntry.winningEntry, action] at won
          exact ⟨p, by simp only [settle, action], Option.some.inj won⟩
      | applyFromSQLite =>
          rw [SyncTruthEntry.winningEntry, action] at won
          exact ⟨s, by simp only [settle, action], Option.some.inj won⟩
      | conflict =>
          rw [SyncTruthEntry.winningEntry, action] at won
          cases won

end Verdicts

section Settled

variable {pgLog sqLog : List LogRecord}

/-- Both records keep the key of their element of the join. -/
theorem key_of_settle {pair : Option LogRecord × Option LogRecord} {both : LogRecord × LogRecord}
    (joined : Joined LogRecord.key LogRecord.key pgLog sqLog pair)
    (here : settle pair = some both) :
    joinKey LogRecord.key LogRecord.key pair = some both.1.key ∧ both.1.key = both.2.key := by
  obtain ⟨_ | p, _ | s⟩ := pair
  · cases here
  · cases here
    exact ⟨rfl, rfl⟩
  · cases here
    exact ⟨rfl, rfl⟩
  · have same := joined.2.2
    simp only [settle] at here
    split at here <;> cases here
    · exact ⟨rfl, rfl⟩
    · exact ⟨congrArg some same, rfl⟩
    · exact ⟨rfl, same⟩

/-- Both records come from the logs. -/
theorem mem_of_settle {pair : Option LogRecord × Option LogRecord} {both : LogRecord × LogRecord}
    (joined : Joined LogRecord.key LogRecord.key pgLog sqLog pair)
    (here : settle pair = some both) :
    (both.1 ∈ pgLog ∨ both.1 ∈ sqLog) ∧ (both.2 ∈ pgLog ∨ both.2 ∈ sqLog) := by
  obtain ⟨_ | p, _ | s⟩ := pair
  · cases here
  · cases here
    exact ⟨Or.inr joined.1, Or.inr joined.1⟩
  · cases here
    exact ⟨Or.inl joined.1, Or.inl joined.1⟩
  · have left : p ∈ pgLog := joined.1
    have right : s ∈ sqLog := joined.2.1
    simp only [settle] at here
    split at here <;> cases here
    · exact ⟨Or.inl left, Or.inl left⟩
    · exact ⟨Or.inr right, Or.inr right⟩
    · exact ⟨Or.inl left, Or.inr right⟩

/-- A pair of records of the settled logs, with the element of the join it comes from. -/
theorem exists_of_mem_settled (pgAscending : Ascending LogRecord.key pgLog)
    (sqAscending : Ascending LogRecord.key sqLog) {both : LogRecord × LogRecord}
    (member : both ∈ settled pgLog sqLog) :
    ∃ pair, Joined LogRecord.key LogRecord.key pgLog sqLog pair ∧ settle pair = some both := by
  obtain ⟨pair, joined, here⟩ := List.mem_filterMap.mp member
  exact ⟨pair, (mem_outerJoin pgAscending sqAscending pair).mp joined, here⟩

/-- The settled logs ascend by key, each of them. -/
theorem settled_ascending (pgAscending : Ascending LogRecord.key pgLog)
    (sqAscending : Ascending LogRecord.key sqLog) :
    Ascending LogRecord.key ((settled pgLog sqLog).map Prod.fst) ∧
      Ascending LogRecord.key ((settled pgLog sqLog).map Prod.snd) := by
  have keyOf : ∀ {both}, both ∈ settled pgLog sqLog → both.1.key = both.2.key := by
    intro both member
    obtain ⟨pair, joined, here⟩ := exists_of_mem_settled pgAscending sqAscending member
    exact (key_of_settle joined here).2
  have ordered : (settled pgLog sqLog).Pairwise fun first second => first.1.key < second.1.key := by
    have inOrder := outerJoin_ascending pgAscending sqAscending
    refine List.pairwise_filterMap.mpr (inOrder.imp_of_mem ?_)
    intro first second firstIn secondIn order low lowEq high highEq
    have firstJoined := (mem_outerJoin pgAscending sqAscending first).mp firstIn
    have secondJoined := (mem_outerJoin pgAscending sqAscending second).mp secondIn
    exact order _ _ (key_of_settle firstJoined lowEq).1 (key_of_settle secondJoined highEq).1
  refine ⟨List.pairwise_map.mpr ordered, List.pairwise_map.mpr (ordered.imp_of_mem ?_)⟩
  intro first second firstIn secondIn order
  rwa [← keyOf firstIn, ← keyOf secondIn]

/-- The settled logs differ in the conflicts of the logs. -/
theorem divergent_settled (symbols : String → Symbol) (pgAscending : Ascending LogRecord.key pgLog)
    (sqAscending : Ascending LogRecord.key sqLog) :
    divergent symbols ((settled pgLog sqLog).map Prod.fst) ((settled pgLog sqLog).map Prod.snd) =
      (divergent symbols pgLog sqLog).filter fun entry => entry.action = .conflict := by
  have same : ∀ both ∈ settled pgLog sqLog, LogRecord.key both.1 = LogRecord.key both.2 := by
    intro both member
    obtain ⟨pair, joined, here⟩ := exists_of_mem_settled pgAscending sqAscending member
    exact (key_of_settle joined here).2
  rw [divergent, outerJoin_paired same, List.filterMap_map, settled, List.filterMap_filterMap,
    divergent, List.filter_filterMap]
  exact List.filterMap_congr fun pair _ => verdict_settle symbols pair

end Settled

namespace TruthTable

variable {Driver Interner : Type} [InternerOps Interner] [LawfulInterner Interner]
variable {schema : DatabaseSchema Interner} {symbols : String → Symbol}
variable {pgLog sqLog : List LogRecord}

/-- The rows of a log that is read without failure. -/
def rows (log : List LogRecord) : List (Except (SqlxError Driver) (LogRow Driver)) :=
  log.map fun record => .ok record.row

theorem merge_rows (valid : LawfulInterner.Valid schema.interner) (profile : Profile)
    (pgAscending : Ascending LogRecord.key pgLog) (sqAscending : Ascending LogRecord.key sqLog)
    (pgKnown : KnownBy schema symbols pgLog) (sqKnown : KnownBy schema symbols sqLog) :
    merge profile schema (rows pgLog : List (Except (SqlxError Driver) _)) (rows sqLog) =
      (divergent symbols pgLog sqLog, .ok ()) := by
  have delivered : ∀ log : List LogRecord, Delivers schema False
      (rows log : List (Except (SqlxError Driver) _)) log := delivers_map
  rcases merge_ok valid profile (delivered pgLog) (delivered sqLog) pgAscending sqAscending
    pgKnown sqKnown with ⟨merged, _⟩ | ⟨impossible, _⟩
  · exact merged
  · exact impossible.elim

/-- With the logs swapped, the calls of `next_entry` return the same entries in the same
order with the sides swapped. -/
theorem merge_mirrored (valid : LawfulInterner.Valid schema.interner) (profile : Profile)
    (pgAscending : Ascending LogRecord.key pgLog) (sqAscending : Ascending LogRecord.key sqLog)
    (pgKnown : KnownBy schema symbols pgLog) (sqKnown : KnownBy schema symbols sqLog) :
    merge profile schema (rows sqLog : List (Except (SqlxError Driver) _)) (rows pgLog) =
      ((merge profile schema (rows pgLog : List (Except (SqlxError Driver) _)) (rows sqLog)).1.map
        SyncTruthEntry.mirror, .ok ()) := by
  rw [merge_rows valid profile pgAscending sqAscending pgKnown sqKnown,
    merge_rows valid profile sqAscending pgAscending sqKnown pgKnown, divergent_swap]

/-- A record of Postgres alone and a newer one of SQLite. -/
theorem merge_mirrored_letter :
    ∃ schema : DatabaseSchema (StringInterner ⟨.debug, fun _ => 0⟩),
      merge .debug schema (rows [⟨"t", "1", .update, 2, 0⟩] : List (Except (SqlxError Unit) _))
          (rows [⟨"t", "1", .insert, 1, 0⟩, ⟨"t", "2", .insert, 1, 0⟩]) =
        ((merge .debug schema
            (rows [⟨"t", "1", .insert, 1, 0⟩, ⟨"t", "2", .insert, 1, 0⟩] :
              List (Except (SqlxError Unit) _))
            (rows [⟨"t", "1", .update, 2, 0⟩])).1.map SyncTruthEntry.mirror, .ok ()) := by
  obtain ⟨schema, symbols, valid, known⟩ := exists_letterTables
  exact ⟨schema, merge_mirrored valid .debug (by unfold Ascending; decide)
    (by unfold Ascending; decide) (known _ (by decide)) (known _ (by decide))⟩

/-- Copying every winner to the other side settles the logs in one round: the merge then
reports the conflicts it reported before, in the same order, and nothing else. -/
theorem merge_settled (valid : LawfulInterner.Valid schema.interner) (profile : Profile)
    (pgAscending : Ascending LogRecord.key pgLog) (sqAscending : Ascending LogRecord.key sqLog)
    (pgKnown : KnownBy schema symbols pgLog) (sqKnown : KnownBy schema symbols sqLog) :
    ∃ entries, merge profile schema (rows pgLog : List (Except (SqlxError Driver) _)) (rows sqLog) =
        (entries, .ok ()) ∧
      (∀ entry ∈ entries, ∀ winner, entry.winningEntry = some winner →
        ∃ record, (record, record) ∈ settled pgLog sqLog ∧ record.entry symbols = winner) ∧
      merge profile schema
          (rows ((settled pgLog sqLog).map Prod.fst) : List (Except (SqlxError Driver) _))
          (rows ((settled pgLog sqLog).map Prod.snd)) =
        (entries.filter fun entry => entry.action = .conflict, .ok ()) := by
  obtain ⟨fstAscending, sndAscending⟩ := settled_ascending pgAscending sqAscending
  have known : ∀ record, record ∈ pgLog ∨ record ∈ sqLog →
      Names schema.interner (symbols record.table) record.table :=
    fun record member => member.elim (pgKnown record) (sqKnown record)
  have fstKnown : KnownBy schema symbols ((settled pgLog sqLog).map Prod.fst) := by
    intro record member
    obtain ⟨both, inSettled, rfl⟩ := List.mem_map.mp member
    obtain ⟨pair, joined, here⟩ := exists_of_mem_settled pgAscending sqAscending inSettled
    exact known _ (mem_of_settle joined here).1
  have sndKnown : KnownBy schema symbols ((settled pgLog sqLog).map Prod.snd) := by
    intro record member
    obtain ⟨both, inSettled, rfl⟩ := List.mem_map.mp member
    obtain ⟨pair, joined, here⟩ := exists_of_mem_settled pgAscending sqAscending inSettled
    exact known _ (mem_of_settle joined here).2
  refine ⟨_, merge_rows valid profile pgAscending sqAscending pgKnown sqKnown, ?_, ?_⟩
  · intro entry member winner won
    obtain ⟨pair, joined, reported⟩ := List.mem_filterMap.mp member
    obtain ⟨record, here, same⟩ := exists_settle symbols reported won
    exact ⟨record, List.mem_filterMap.mpr ⟨pair, joined, here⟩, same⟩
  · rw [merge_rows valid profile fstAscending sndAscending fstKnown sndKnown,
      divergent_settled symbols pgAscending sqAscending]

/-- Of a newer record and a conflict, the conflict is left. -/
theorem merge_settled_letter :
    ∃ (schema : DatabaseSchema (StringInterner ⟨.debug, fun _ => 0⟩)) (pgLog sqLog : List LogRecord)
      (entries : _),
      merge .debug schema (rows pgLog : List (Except (SqlxError Unit) _)) (rows sqLog) =
          (entries, .ok ()) ∧ pgLog.length = 2 ∧ sqLog.length = 2 ∧
        merge .debug schema
            (rows ((settled pgLog sqLog).map Prod.fst) : List (Except (SqlxError Unit) _))
            (rows ((settled pgLog sqLog).map Prod.snd)) =
          (entries.filter fun entry => entry.action = .conflict, .ok ()) := by
  obtain ⟨schema, symbols, valid, known⟩ := exists_letterTables
  obtain ⟨entries, merged, _, again⟩ := @merge_settled Unit _ _ _ schema symbols
    [⟨"t", "1", .insert, 2, 0⟩, ⟨"t", "2", .update, 1, 5⟩]
    [⟨"t", "1", .insert, 1, 9⟩, ⟨"t", "2", .delete, 1, 5⟩] valid .debug
      (by unfold Ascending; decide)
    (by unfold Ascending; decide)
    (known _ (by decide)) (known _ (by decide))
  exact ⟨schema, _, _, entries, merged, rfl, rfl, again⟩

end TruthTable

end Boomerang
