import Boomerang.Interner.WeakFrames

/-!
# What a load finds

A thread that has seen everything of a shard knows every numbered string of it. A thread
that knows a string passes the length check, finds the chunk and finds the slot stored;
and whoever follows an offset out of a slot has seen the record there.
-/

namespace Boomerang.WeakMemory

open Foundation

variable {build : Build} {state : State build} {logs : Nat → Log} {shardId index : Nat}
variable {view : View Cell} {log : Log}

/-- The slot of an index. -/
theorem index_eq (index : Nat) : index / CHUNK_SIZE * CHUNK_SIZE + index % CHUNK_SIZE = index :=
  Nat.div_add_mod' index CHUNK_SIZE

theorem slotIdx_lt (index : Nat) : index % CHUNK_SIZE < CHUNK_SIZE :=
  Nat.mod_lt _ (by decide)

namespace State

/-- Every region lies past the header. -/
theorem Sound.base_pos (sound : state.Sound logs) (shardId : Nat) : 4 ≤ state.base shardId := by
  rw [base, MemoryPool.regionStart, sound.made.sized.header]
  omega

namespace Shelf

/-- A chunk has one address. -/
theorem installed_unique (shelf : state.Shelf shardId log) {chunkIdx ptr other : Nat}
    (installed : Installed state.histories shardId chunkIdx ptr)
    (again : Installed state.histories shardId chunkIdx other) : other = ptr := by
  obtain ⟨real, stamp, message, found, rfl⟩ := installed
  obtain ⟨otherReal, otherStamp, otherMessage, otherFound, rfl⟩ := again
  rcases shelf.chunk _ _ _ found with ⟨_, null⟩ | ⟨rfl, _, _⟩
  · exact absurd null real
  · rcases shelf.chunk _ _ _ otherFound with ⟨_, null⟩ | ⟨rfl, _, _⟩
    · exact absurd null otherReal
    · cases found.symm.trans otherFound
      rfl

/-- What a slot of an installed chunk holds, by the index it stands for. -/
theorem slot (shelf : state.Shelf shardId log) {ptr : Nat}
    (installed : Installed state.histories shardId (index / CHUNK_SIZE) ptr) :
    state.SlotHolds shardId log index ptr (index % CHUNK_SIZE) := by
  have holds := shelf.slots _ ptr (Or.inl installed) _ (slotIdx_lt index)
  rwa [index_eq] at holds

/-- The last write to a slot comes after the zeros. -/
theorem slot_positive {ptr slotIdx stamp : Nat}
    (holds : state.SlotHolds shardId log index ptr slotIdx)
    (last : ∀ other later, state.histories (.slot ptr slotIdx) other = some later →
      other ≤ stamp) : 1 ≤ stamp := by
  obtain ⟨filled, message, positive, found⟩ := holds.filled
  exact Nat.le_trans positive (last _ _ found)

end Shelf

/-- Who has seen everything of a shard knows its numbered strings. -/
theorem UpToDate.knows (upToDate : state.UpToDate shardId view)
    (shelf : state.Shelf shardId log) (past : 4 ≤ state.base shardId)
    (below : index < log.numbered) : Knows state.histories log view shardId index := by
  have stored : index < log.stored := Nat.lt_of_lt_of_le below shelf.numbered_le
  have counted : index + 1 ≤ log.counted := Nat.le_trans stored shelf.stored_le
  obtain ⟨ptr, installed⟩ := shelf.reach index stored
  have holds := shelf.slot installed
  have slotSeen := upToDate (.slot ptr (index % CHUNK_SIZE)) ⟨_, Or.inl installed⟩
  refine ⟨below, ?_, ?_, ⟨ptr, installed, ?_⟩, ?_⟩
  · exact (shelf.lenEnds.atLeast (upToDate _ rfl) fun _ _ _ _ _ => Nat.zero_le _).weaken counted
  · obtain ⟨real, stamp, message, found, rfl⟩ := installed
    exact ⟨stamp, message, Nat.zero_le _,
      upToDate (.chunk shardId (index / CHUNK_SIZE)) rfl _ _ found, found, Nat.pos_of_ne_zero real⟩
  · have ends := holds.ends
    rw [if_pos stored] at ends
    refine (ends.atLeast slotSeen fun stamp message found _ last => ?_).weaken (by omega)
    exact Shelf.slot_positive holds last
  · exact (shelf.cursorEnds.atLeast (upToDate _ rfl) fun _ _ _ _ _ => Nat.zero_le _).weaken
      (log.sizeTo_mono (Nat.le_trans counted shelf.counted_le))

end State

namespace Knows

/-- The length a thread loads is past a string it knows. -/
theorem lt_len (knows : Knows state.histories log view shardId index)
    (shelf : state.Shelf shardId log) {stamp : Nat} {message : Message Cell}
    (load : state.histories.Loads view (.len shardId) stamp message) : index < message.value := by
  obtain ⟨seenAt, seenMessage, _, seen, found, large⟩ := knows.len
  have recent := load.recent
  rw [shelf.len _ _ load.found]
  rw [shelf.len _ _ found] at large
  omega

/-- The chunk pointer a thread loads for a string it knows is not null. -/
theorem chunk_ne_zero (knows : Knows state.histories log view shardId index)
    (shelf : state.Shelf shardId log) {stamp : Nat} {message : Message Cell}
    (load : state.histories.Loads view (.chunk shardId (index / CHUNK_SIZE)) stamp message) :
    message.value ≠ 0 := by
  obtain ⟨seenAt, seenMessage, _, seen, found, large⟩ := knows.chunk
  have recent := load.recent
  rcases shelf.chunk _ _ _ found with ⟨_, null⟩ | ⟨seenEq, _, _⟩
  · omega
  · rcases shelf.chunk _ _ _ load.found with ⟨stampEq, _⟩ | ⟨_, real, _⟩
    · omega
    · exact real

/-- The slot a thread loads for a string it knows is stored. -/
theorem slot_ne_zero (knows : Knows state.histories log view shardId index)
    (shelf : state.Shelf shardId log) {ptr stamp : Nat} {message : Message Cell}
    (installed : Installed state.histories shardId (index / CHUNK_SIZE) ptr)
    (load : state.histories.Loads view (.slot ptr (index % CHUNK_SIZE)) stamp message) :
    message.value ≠ 0 := by
  obtain ⟨known, knownInstalled, slot⟩ := knows.slot
  cases shelf.installed_unique installed knownInstalled
  have large := load.le_value (shelf.slot installed).ascends slot
  omega

/-- A cursor a thread loads is past the record of a string it knows. -/
theorem sizeTo_le_cursor (knows : Knows state.histories log view shardId index)
    (shelf : state.Shelf shardId log) {stamp : Nat} {message : Message Cell}
    (load : state.histories.Loads view (.cursor shardId) stamp message) :
    log.sizeTo (index + 1) ≤ message.value :=
  load.le_value shelf.cursorAscends knows.cursor

end Knows

/-- The record of a string whose length the header holds. -/
theorem State.recordBytes_eq {value : String} (short : byteLength value + 7 < u32Range) :
    recordBytes value = toLE 4 (byteLength value) ++ bytes value := by
  have stored : storedLength value = byteLength value := Nat.mod_eq_of_lt (by omega)
  rw [recordBytes, stored, take_byteLength]

/-- What is read from the front of some bytes. -/
theorem State.ReadsBytes.take {address : Nat} {raw : List UInt8}
    (reads : state.ReadsBytes view address raw) (size : Nat) :
    state.ReadsBytes view address (raw.take size) := by
  intro index byte here
  rw [List.getElem?_take] at here
  split at here
  · exact reads index byte here
  · cases here

/-- What is read behind the front of some bytes. -/
theorem State.ReadsBytes.drop {address : Nat} {raw : List UInt8}
    (reads : state.ReadsBytes view address raw) (size : Nat) :
    state.ReadsBytes view (address + size) (raw.drop size) := by
  intro index byte here
  rw [List.getElem?_drop] at here
  rw [Nat.add_assoc]
  exact reads (size + index) byte here

namespace State.Shelf

/-- An offset loaded from a slot leads to a record the thread has seen. -/
theorem loaded (shelf : state.Shelf shardId log) {ptr stamp : Nat} {message : Message Cell}
    (pointed : Pointed state.histories view shardId (index / CHUNK_SIZE) ptr)
    (load : state.histories.Loads view (.slot ptr (index % CHUNK_SIZE)) stamp message)
    (real : message.value ≠ 0) :
    index < log.stored ∧ message.value = state.base shardId + log.sizeTo index ∧
      Covers state.histories message.view (state.base shardId) (log.sizeTo (index + 1)) := by
  have positive : 0 < stamp :=
    Nat.lt_of_lt_of_le (pointed.zeroed _ (slotIdx_lt index)).1 load.recent
  rcases (shelf.slot pointed.installed).writes stamp message positive load.found with zero | stored
  · exact absurd zero real
  · exact stored

/-- Plain reads of seen bytes of a record. -/
theorem reads_eq (shelf : state.Shelf shardId log) {value : String} {skip : Nat}
    {raw : List UInt8} (here : log.written[index]? = some value)
    (covers : Covers state.histories view (state.base shardId) (log.sizeTo (index + 1)))
    (reads : state.ReadsBytes view (state.base shardId + log.sizeTo index + skip) raw)
    (fits : skip + raw.length ≤ (recordBytes value).length) :
    raw = ((recordBytes value).drop skip).take raw.length := by
  apply List.ext_getElem?
  intro position
  by_cases inside : position < raw.length
  · have byteAt :
        (recordBytes value)[skip + position]? = some (recordBytes value)[skip + position] :=
      List.getElem?_eq_getElem (by omega)
    obtain ⟨stamp, message, load, valueEq⟩ :=
      reads position _ (List.getElem?_eq_getElem inside)
    have ends := shelf.record index value here _ _ byteAt
    have within := (shelf.record_inside here byteAt).1
    rw [← Nat.add_assoc] at ends
    have seen :=
      covers (state.base shardId + log.sizeTo index + skip + position) (by omega) (by omega)
    have same := load.value_eq seen ends
    rw [List.getElem?_take_of_lt inside, List.getElem?_drop, byteAt,
      List.getElem?_eq_getElem inside]
    exact congrArg some (UInt8.toNat_inj.mp (valueEq.symm.trans same))
  · rw [List.getElem?_eq_none (by omega), List.getElem?_eq_none]
    rw [List.length_take]
    omega

/-- Who has seen a record reads its string. -/
theorem read_record (shelf : state.Shelf shardId log) {value : String} {header text : List UInt8}
    (here : log.written[index]? = some value)
    (covers : Covers state.histories view (state.base shardId) (log.sizeTo (index + 1)))
    (headerLength : header.length = 4) (textLength : text.length = ofLE header)
    (readHeader : state.ReadsBytes view (state.base shardId + log.sizeTo index) header)
    (readText : state.ReadsBytes view (state.base shardId + log.sizeTo index + 4) text) :
    fromUtf8Unchecked text = value ∧ text.length = byteLength value := by
  have short := (shelf.proper value (List.mem_of_getElem? here)).2.2
  have parts := recordBytes_eq short
  have size : (recordBytes value).length = 4 + byteLength value := by
    rw [parts, List.length_append, length_toLE]
    rfl
  have fits : byteLength value < 256 ^ 4 := by
    have wide : u32Range = 256 ^ 4 := by decide
    omega
  have headerEq : header = toLE 4 (byteLength value) := by
    have read := @reads_eq _ _ _ _ _ _ shelf value 0 header here covers readHeader (by omega)
    rwa [parts, headerLength, List.drop_zero, List.take_left' (length_toLE _ _)] at read
  have lengthEq : text.length = byteLength value := by
    rw [textLength, headerEq, ofLE_toLE fits]
  have textEq : text = bytes value := by
    have read := shelf.reads_eq here covers readText (by omega)
    rwa [parts, List.drop_left' (length_toLE _ _), lengthEq, take_byteLength] at read
  exact ⟨by rw [textEq, fromUtf8Unchecked_bytes], lengthEq⟩

end State.Shelf

namespace State

/-- The entries of a table are those of the numbered strings. -/
theorem Shelf.entry_of_mem (shelf : state.Shelf shardId log) {entry : Entry}
    (member : entry ∈ state.tables shardId) :
    ∃ index value, index < log.numbered ∧ log.written[index]? = some value ∧
      entry.symbol.issuedIndex = index ∧ entry.hash = hashOf build value ∧
      entry.prefix8 = prefix8 (bytes value) ∧
      Symbol.new (UInt8.ofNat shardId) index = .ok entry.symbol := by
  obtain ⟨index, inside, here⟩ := List.mem_iff_getElem.mp member
  have below : index < log.numbered := shelf.count ▸ inside
  have written : index < log.written.length := by
    have := shelf.numbered_le
    have := shelf.stored_le
    have := shelf.counted_le
    have := shelf.committed_le
    omega
  obtain ⟨symbol, numbered, entryEq⟩ :=
    shelf.entry index _ below (List.getElem?_eq_getElem written)
  rw [List.getElem?_eq_getElem inside, here] at entryEq
  cases entryEq
  exact ⟨index, _, below, List.getElem?_eq_getElem written, Symbol.issuedIndex_of_new numbered,
    rfl, rfl, numbered⟩

/-- A lookup that saw another text at every candidate has a string the table lacks. -/
theorem Shelf.not_mem_of_different {lookup : Lookup}
    (shelf : state.Shelf (state.home lookup.value) log)
    (logEq : log = logs (state.home lookup.value))
    (sound : LookupSound state.made logs lookup)
    (different : ∀ entry, state.Candidate lookup.value entry → ∃ text,
      (entry.symbol.issuedIndex, text) ∈ lookup.seen ∧ text ≠ some lookup.value) :
    lookup.value ∉ log.written.take log.numbered := by
  intro member
  obtain ⟨index, here⟩ := List.mem_iff_getElem?.mp member
  rw [List.getElem?_take] at here
  split at here
  · rename_i below
    obtain ⟨symbol, numbered, entryEq⟩ := shelf.entry index _ below here
    obtain ⟨text, seen, other⟩ := different _ ⟨List.mem_of_getElem? entryEq, rfl, rfl⟩
    have textEq := (sound.seen _ _ seen).2
    rw [Symbol.issuedIndex_of_new numbered, show state.made.shardOf lookup.value =
      state.home lookup.value from rfl, ← logEq, here] at textEq
    exact other textEq
  · cases here

end State

end Boomerang.WeakMemory
