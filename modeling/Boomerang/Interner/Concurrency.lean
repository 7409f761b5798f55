import Boomerang.Interner.CallRuns
import Mathlib.Data.List.Dedup

/-!
# Threads sharing an interner

Any number of threads call `get_or_intern` and `get`. A call is a read-locked
lookup and, after a miss, a write-locked section that looks again before it
inserts; the sections of different threads interleave in any order. A cache hit
and a static string touch no shared state, so calls answered by them take no step.

The shared state stays consistent as long as every string that reaches the
write-locked section is stored whole. The debug assertion in `alloc` sees to that;
without it a string of 2^32 bytes or more is stored cut to its length modulo 2^32.
-/

namespace Boomerang

open Foundation StringInterner

/-- Where a thread is between the sections of `get_or_intern`. -/
inductive Thread where
  | idle
  /-- The read-locked lookup missed; the write lock is not taken yet. -/
  | missed (value : String)

/-- The shared interner, the threads, and the strings of which a write-locked section
has completed. -/
structure World (build : Build) where
  interner : StringInterner build
  threads : Nat → Thread
  written : List String

/-- An atomic section taken by a thread. -/
inductive Section where
  /-- The read-locked lookup that starts a `get_or_intern`. -/
  | lookup (thread : Nat) (value : String)
  /-- The write-locked section after a miss. -/
  | write (thread : Nat)
  /-- The read-locked lookup of a `get`. -/
  | get (thread : Nat) (value : String)

namespace World

variable {build : Build}

/-- No thread has called anything yet. -/
def start (interner : StringInterner build) : World build where
  interner := interner
  threads := fun _ => .idle
  written := []

/-- Set where one thread is. -/
def setThread (world : World build) (thread : Nat) (state : Thread) : World build :=
  { world with threads := fun other => if other = thread then state else world.threads other }

/-- The sections that return without a panic. -/
inductive Step : World build → Section → World build → Prop where
  | hit {world : World build} {thread value found} (idle : world.threads thread = .idle)
      (notStatic : staticSymbol? value = none)
      (read : world.interner.readSection value = .ok (some found)) :
      Step world (.lookup thread value) world
  | miss {world : World build} {thread value} (idle : world.threads thread = .idle)
      (notStatic : staticSymbol? value = none)
      (read : world.interner.readSection value = .ok none) :
      Step world (.lookup thread value) (world.setThread thread (.missed value))
  | write {world : World build} {thread value found next}
      (missed : world.threads thread = .missed value)
      (written : world.interner.writeSection value = .ok found next) :
      Step world (.write thread)
        { (world.setThread thread .idle) with
          interner := next
          written := value :: world.written }
  | get {world : World build} {thread value} (idle : world.threads thread = .idle) :
      Step world (.get thread value) world

/-- The string an entry of a shard's table stands for. -/
def textOf (world : World build) (shardId : Nat) (entry : Entry) : String :=
  (world.interner.shards shardId).strings.getUnchecked world.interner.pool.memory
    entry.symbol.issuedIndex

/-- The entry at a place of the tables. -/
def EntryAt (world : World build) (place : Nat × Nat) (entry : Entry) : Prop :=
  place.1 < world.interner.shardCount ∧
    (world.interner.shards place.1).entries[place.2]? = some entry

/-- The shared-state invariant of the interner. -/
structure Consistent (world : World build) : Prop where
  unique : ∀ place other entry otherEntry, world.EntryAt place entry →
    world.EntryAt other otherEntry →
    world.textOf place.1 entry = world.textOf other.1 otherEntry → place = other
  completed : ∀ value ∈ world.written,
    ∃! place : Nat × Nat, ∃ entry, world.EntryAt place entry ∧ world.textOf place.1 entry = value
  described : ∀ place entry, world.EntryAt place entry →
    entry.hash = hashOf build (world.textOf place.1 entry) ∧
      entry.prefix8 = prefix8 (bytes (world.textOf place.1 entry)) ∧
      world.interner.shardOf (world.textOf place.1 entry) = place.1
  resolved : ∀ place entry, world.EntryAt place entry →
    world.interner.resolve entry.symbol = .ok (some (world.textOf place.1 entry)) ∧
      world.interner.resolveUnchecked entry.symbol = world.textOf place.1 entry
  injective : ∀ value left right, world.interner.resolve left = .ok (some value) →
    world.interner.resolve right = .ok (some value) → left = right
  counted : world.interner.len = world.written.dedup.length

/-- Every entry of the first state resolves to its string in the second. -/
def Keeps (world later : World build) : Prop :=
  ∀ place entry, world.EntryAt place entry →
    later.interner.resolve entry.symbol = .ok (some (world.textOf place.1 entry)) ∧
      later.interner.resolveUnchecked entry.symbol = world.textOf place.1 entry

/-- The sections that carry a string the arena stores whole. -/
def Allowed (build : Build) : Section → Prop
  | .lookup _ value => MemoryPool.Storable build.profile value
  | .write _ | .get _ _ => True

/-- The inductive invariant: some contents with the layout of the interner hold
exactly the strings written, and threads about to write carry storable strings. -/
structure Represents (world : World build) (contents : Contents) : Prop where
  layout : world.interner.Layout contents
  distinct : contents.Distinct
  stored : ∀ shardId < world.interner.shardCount, ∀ value ∈ contents shardId,
    value ∈ world.written
  written : ∀ value ∈ world.written, value ∈ contents (world.interner.shardOf value)
  pending : ∀ thread value, world.threads thread = .missed value →
    staticSymbol? value = none ∧ MemoryPool.Storable build.profile value

/-- A new interner represents the empty contents. -/
theorem represents_start {interner : StringInterner build} {internerId count : Nat}
    (created : Created interner internerId count) :
    (start interner).Represents Contents.empty where
  layout := created.layout
  distinct := Contents.distinct_empty
  stored := fun _ _ _ member => absurd member List.not_mem_nil
  written := fun _ member => absurd member List.not_mem_nil
  pending := fun _ _ missed => nomatch missed

/-- An allowed section keeps the invariant, and the contents only grow. -/
theorem Represents.step {world next : World build} {contents : Contents} {label : Section}
    (represents : world.Represents contents) (allowed : Allowed build label)
    (transition : Step world label next) :
    ∃ grown, next.Represents grown ∧ Contents.Grows contents grown ∧
      SameShape world.interner next.interner := by
  cases transition with
  | hit => exact ⟨contents, represents, Contents.Grows.refl _, SameShape.refl _⟩
  | get => exact ⟨contents, represents, Contents.Grows.refl _, SameShape.refl _⟩
  | @miss thread value idle notStatic read =>
      refine ⟨contents, ⟨represents.layout, represents.distinct, represents.stored,
        represents.written, ?_⟩, Contents.Grows.refl _, SameShape.refl _⟩
      intro other pendingValue missed
      simp only [setThread] at missed
      split at missed
      · cases missed
        exact ⟨notStatic, allowed⟩
      · exact represents.pending other pendingValue missed
  | @write thread value found after missed written =>
      obtain ⟨notStatic, storable⟩ := represents.pending thread value missed
      obtain ⟨grown, interned, _⟩ :=
        represents.layout.writeSection_ok represents.distinct notStatic storable written
      have shape := interned.shape
      -- The string is in the grown contents, whichever thread put it there.
      have present : value ∈ grown (world.interner.shardOf value) := by
        rcases interned.contents with ⟨numbered, _, rfl⟩ | ⟨_, rfl⟩
        · rcases numbered with isStatic | ⟨_, _, here, _⟩
          · rw [notStatic] at isStatic
            cases isStatic
          · exact List.mem_of_getElem? here
        · exact Contents.mem_push.mpr (Or.inr ⟨rfl, rfl⟩)
      have nothingElse : ∀ shardId stored, stored ∈ grown shardId →
          stored ∈ contents shardId ∨ stored = value := by
        intro shardId stored member
        rcases interned.contents with ⟨_, _, rfl⟩ | ⟨_, rfl⟩
        · exact Or.inl member
        · rcases Contents.mem_push.mp member with old | ⟨_, new⟩
          · exact Or.inl old
          · exact Or.inr new
      refine ⟨grown, ⟨interned.layout, interned.distinct, ?_, ?_, ?_⟩, interned.grows, shape⟩
      · intro shardId inRange stored member
        rcases nothingElse shardId stored member with old | rfl
        · exact List.mem_cons_of_mem _
            (represents.stored shardId (shape.shardCount ▸ inRange) stored old)
        · exact List.mem_cons_self
      · intro stored member
        rw [shape.shardOf]
        rcases List.mem_cons.mp member with rfl | old
        · exact present
        · exact (interned.grows _).subset (represents.written stored old)
      · intro other pendingValue otherMissed
        simp only [setThread] at otherMissed
        split at otherMissed
        · cases otherMissed
        · exact represents.pending other pendingValue otherMissed

/-- Allowed runs keep the invariant, and the contents only grow. -/
theorem Represents.run {world later : World build} {contents : Contents}
    {labels : List Section} (represents : world.Represents contents)
    (run : Steps Step world labels later) (allowed : ∀ label ∈ labels, Allowed build label) :
    ∃ grown, later.Represents grown ∧ Contents.Grows contents grown ∧
      SameShape world.interner later.interner := by
  induction run with
  | refl => exact ⟨contents, represents, Contents.Grows.refl _, SameShape.refl _⟩
  | step before transition ih =>
      obtain ⟨middle, here, grows, shape⟩ :=
        ih fun label member => allowed label (List.mem_append_left _ member)
      obtain ⟨grown, there, moreGrows, moreShape⟩ :=
        here.step (allowed _ (List.mem_append_right _ List.mem_cons_self)) transition
      exact ⟨grown, there, grows.trans moreGrows, shape.trans moreShape⟩

/-- The entries of the tables are those of the contents. -/
theorem Represents.entryAt {world : World build} {contents : Contents}
    (represents : world.Represents contents) {place : Nat × Nat} {entry : Entry}
    (here : world.EntryAt place entry) :
    ∃ value, (contents place.1)[place.2]? = some value ∧ world.textOf place.1 entry = value ∧
      entry.hash = hashOf build value ∧ entry.prefix8 = prefix8 (bytes value) ∧
      Symbol.new (UInt8.ofNat place.1) place.2 = .ok entry.symbol := by
  obtain ⟨inRange, entryEq⟩ := here
  have below : place.2 < (contents place.1).length := by
    rw [← represents.layout.entryCount place.1 inRange]
    exact (List.getElem?_eq_some_iff.mp entryEq).1
  obtain ⟨symbol, made, other⟩ :=
    represents.layout.entry place.1 inRange place.2 _ (List.getElem?_eq_getElem below)
  cases entryEq.symm.trans other
  refine ⟨_, List.getElem?_eq_getElem below, ?_, rfl, rfl, made⟩
  rw [textOf, Symbol.issuedIndex_of_new made]
  exact represents.layout.getUnchecked_eq inRange (List.getElem?_eq_getElem below)

/-- Equal strings in the contents are at one place. -/
theorem Represents.place_unique {world : World build} {contents : Contents}
    (represents : world.Represents contents) {place other : Nat × Nat} {value : String}
    (inRange : place.1 < world.interner.shardCount)
    (otherInRange : other.1 < world.interner.shardCount)
    (here : (contents place.1)[place.2]? = some value)
    (otherHere : (contents other.1)[other.2]? = some value) : place = other := by
  have home := represents.layout.home _ inRange value (List.mem_of_getElem? here)
  have otherHome := represents.layout.home _ otherInRange value (List.mem_of_getElem? otherHere)
  obtain ⟨shardId, index⟩ := place
  obtain ⟨otherShard, otherIndex⟩ := other
  cases home.symm.trans otherHome
  obtain ⟨below, valueEq⟩ := List.getElem?_eq_some_iff.mp here
  obtain ⟨otherBelow, otherEq⟩ := List.getElem?_eq_some_iff.mp otherHere
  have sameIndex : index = otherIndex :=
    (represents.distinct _).getElem_inj_iff.mp (valueEq.trans otherEq.symm)
  rw [sameIndex]

/-- The strings of all shards together are the strings written, without repetition. -/
theorem Represents.len_eq {world : World build} {contents : Contents}
    (represents : world.Represents contents) :
    world.interner.len = world.written.dedup.length := by
  let all := (List.range world.interner.shardCount).flatMap contents
  have nodup : all.Nodup := by
    refine List.nodup_flatMap.mpr ⟨fun shardId _ => represents.distinct shardId, ?_⟩
    refine List.nodup_range.imp_of_mem ?_
    intro first second firstMember secondMember different value inFirst inSecond
    exact different ((represents.layout.home first (List.mem_range.mp firstMember) value
      inFirst).symm.trans
      (represents.layout.home second (List.mem_range.mp secondMember) value inSecond))
  have same : ∀ value, value ∈ all ↔ value ∈ world.written.dedup := by
    intro value
    rw [List.mem_dedup, List.mem_flatMap]
    constructor
    · rintro ⟨shardId, member, stored⟩
      exact represents.stored shardId (List.mem_range.mp member) value stored
    · intro written
      exact ⟨_, List.mem_range.mpr (represents.layout.shardOf_lt value),
        represents.written value written⟩
  have perm := (List.perm_ext_iff_of_nodup nodup (List.nodup_dedup _)).mpr same
  rw [represents.layout.len_eq, ← perm.length_eq, List.length_flatMap]

/-- The inductive invariant gives the shared-state invariant. -/
theorem Represents.consistent {world : World build} {contents : Contents}
    (represents : world.Represents contents) : world.Consistent where
  unique := by
    intro place other entry otherEntry here otherHere sameText
    obtain ⟨value, inContents, text, _⟩ := represents.entryAt here
    obtain ⟨otherValue, otherInContents, otherText, _⟩ := represents.entryAt otherHere
    have sameValue : value = otherValue := text.symm.trans (sameText.trans otherText)
    exact represents.place_unique here.1 otherHere.1 inContents (sameValue ▸ otherInContents)
  completed := by
    intro value member
    have stored := represents.written value member
    have inRange := represents.layout.shardOf_lt value
    obtain ⟨index, here⟩ := List.mem_iff_getElem?.mp stored
    obtain ⟨symbol, made, entryEq⟩ := represents.layout.entry _ inRange index value here
    refine ⟨(world.interner.shardOf value, index), ⟨_, ⟨inRange, entryEq⟩, ?_⟩, ?_⟩
    · rw [textOf, Symbol.issuedIndex_of_new made]
      exact represents.layout.getUnchecked_eq inRange here
    · rintro other ⟨entry, otherHere, otherText⟩
      obtain ⟨otherValue, otherInContents, text, _⟩ := represents.entryAt otherHere
      cases text.symm.trans otherText
      exact represents.place_unique otherHere.1 inRange otherInContents here
  described := by
    intro place entry here
    obtain ⟨value, inContents, text, hash, prefix', _⟩ := represents.entryAt here
    rw [text]
    exact ⟨hash, prefix',
      represents.layout.home _ here.1 value (List.mem_of_getElem? inContents)⟩
  resolved := by
    intro place entry here
    obtain ⟨value, inContents, text, _, _, made⟩ := represents.entryAt here
    have numbered := represents.layout.numbered_of_stored here.1 inContents made
    rw [text]
    exact ⟨represents.layout.resolve_eq_some.mpr numbered,
      represents.layout.resolveUnchecked_eq numbered⟩
  injective := by
    intro value left right leftResolved rightResolved
    exact numbered_injective represents.distinct
      (represents.layout.resolve_eq_some.mp leftResolved)
      (represents.layout.resolve_eq_some.mp rightResolved)
  counted := represents.len_eq

/-- Entries keep their strings while the contents grow. -/
theorem Represents.keeps {world later : World build} {contents grown : Contents}
    (represents : world.Represents contents) (laterRepresents : later.Represents grown)
    (grows : Contents.Grows contents grown)
    (shape : SameShape world.interner later.interner) : world.Keeps later := by
  intro place entry here
  obtain ⟨value, inContents, text, _, _, made⟩ := represents.entryAt here
  have numbered := represents.layout.numbered_of_stored here.1 inContents made
  have laterNumbered := numbered.mono (shape.shardOf value) (grows _)
  rw [text]
  exact ⟨laterRepresents.layout.resolve_eq_some.mpr laterNumbered,
    laterRepresents.layout.resolveUnchecked_eq laterNumbered⟩

/-- In every run that starts from an empty interner and in which every string looked
up by `get_or_intern` is storable, every reached state is consistent, and every
later state keeps the strings of its symbols. -/
theorem consistent_of_run {uninitialised : Memory} {internerId count : Nat}
    {interner : StringInterner build} {labels : List Section} {world : World build}
    (created : withCapacityAndShards build uninitialised internerId count = .ok interner)
    (run : Steps Step (start interner) labels world)
    (allowed : ∀ label ∈ labels, Allowed build label) :
    world.Consistent ∧ ∀ more later, Steps Step world more later →
      (∀ label ∈ more, Allowed build label) → later.Consistent ∧ world.Keeps later := by
  obtain ⟨made, madeEq, facts⟩ := withCapacityAndShards_ok build uninitialised internerId count
  cases madeEq.symm.trans created
  obtain ⟨contents, represents, _⟩ := (represents_start facts).run run allowed
  refine ⟨represents.consistent, ?_⟩
  intro more later laterRun laterAllowed
  obtain ⟨grown, laterRepresents, grows, shape⟩ := represents.run laterRun laterAllowed
  exact ⟨laterRepresents.consistent, represents.keeps laterRepresents grows shape⟩

/-- A thread that interns a first string alone. -/
theorem first_call {interner next : StringInterner build} {internerId count : Nat}
    {value : String} {found : Symbol × Nat} (created : Created interner internerId count)
    (notStatic : staticSymbol? value = none)
    (inserted : interner.insertVacant value = .ok found next) :
    ∃ world, Steps Step (start interner) [.lookup 0 value, .write 0] world ∧
      world.interner = next ∧ world.written = [value] := by
  have missing : interner.findChecked value = none :=
    created.layout.findChecked_eq_none.mpr List.not_mem_nil
  have read : interner.readSection value = .ok none := by
    rw [created.layout.readSection_eq, ← created.layout.findChecked_eq_findUnchecked, missing]
    rfl
  have written : interner.writeSection value = .ok found next := by
    rw [writeSection, missing]
    exact inserted
  have looked : Step (start interner) (.lookup 0 value)
      ((start interner).setThread 0 (.missed value)) := .miss rfl notStatic read
  have missed : ((start interner).setThread 0 (.missed value)).threads 0 = .missed value := by
    simp [setThread]
  exact ⟨_, (Steps.single looked).trans (Steps.single (.write missed written)), rfl, rfl⟩

section Exists

variable {first : StringInterner build} {values : List String}
variable (world : World build) (thread : Nat) (value : String)

/-- An idle thread that looks up a string of no call so far misses. -/
theorem exists_miss (called : Called first values world.interner)
    (idle : world.threads thread = .idle) (notStatic : staticSymbol? value = none)
    (fresh : value ∉ values) :
    Step world (.lookup thread value) (world.setThread thread (.missed value)) :=
  .miss idle notStatic (called.readSection_eq_none fresh)

/-- A thread that missed takes its write-locked section, whatever others have written
since. -/
theorem exists_write (called : Called first values world.interner)
    (wide : 2 ^ 20 ≤ first.pool.regionSize) (missed : world.threads thread = .missed value)
    (notStatic : staticSymbol? value = none) (fits : recordsSize (values ++ [value]) ≤ 2 ^ 20) :
    ∃ next, Step world (.write thread) next ∧ Called first (values ++ [value]) next.interner ∧
      next.threads = (world.setThread thread .idle).threads ∧
      next.written = value :: world.written := by
  obtain ⟨found, next, written, after⟩ := called.exists_writeSection wide notStatic fits
  exact ⟨_, .write missed written, after, rfl, rfl⟩

/-- An idle thread interns a new string alone. -/
theorem exists_call (called : Called first values world.interner)
    (wide : 2 ^ 20 ≤ first.pool.regionSize) (idle : world.threads thread = .idle)
    (notStatic : staticSymbol? value = none) (fresh : value ∉ values)
    (fits : recordsSize (values ++ [value]) ≤ 2 ^ 20) :
    ∃ next, Steps Step world [.lookup thread value, .write thread] next ∧
      Called first (values ++ [value]) next.interner ∧ next.threads = world.threads ∧
      next.written = value :: world.written := by
  have looked := exists_miss world thread value called idle notStatic fresh
  obtain ⟨next, transition, after, threads, written⟩ :=
    exists_write (world.setThread thread (.missed value)) thread value called wide (if_pos rfl)
      notStatic fits
  refine ⟨next, (Steps.single looked).step transition, after, ?_, written⟩
  rw [threads]
  funext other
  simp only [setThread]
  split
  · rename_i same
    rw [same, idle]
  · rfl

end Exists

/-- Two threads miss on one string and both reach the write lock. The second finds what
the first stored. -/
theorem consistent_of_run_raced :
    ∃ (interner : StringInterner ⟨.debug, fun _ => 0⟩) (before world : World _),
      withCapacityAndShards _ (fun _ => 0) 1 4 = .ok interner ∧
        Steps Step (start interner) [.lookup 0 "cd", .write 0] before ∧
        Steps Step before [.lookup 0 "ab", .lookup 1 "ab", .write 0, .write 1] world ∧
        before.Consistent ∧ world.Consistent ∧ before.Keeps world ∧
        world.written = ["ab", "ab", "cd"] ∧ world.interner.len = 2 := by
  obtain ⟨interner, new, created⟩ :=
    withCapacityAndShards_ok ⟨.debug, fun _ => 0⟩ (fun _ => 0) 1 4
  have wide := created.regionSize_ge
  obtain ⟨before, run, called, threads, written⟩ :=
    exists_call (start interner) 0 "cd" created.called wide rfl (by decide) List.not_mem_nil
      (by decide)
  have idle : ∀ thread, before.threads thread = .idle := fun thread => by rw [threads]; rfl
  let oneMissed := before.setThread 0 (.missed "ab")
  let bothMissed := oneMissed.setThread 1 (.missed "ab")
  have looked : Step before (.lookup 0 "ab") oneMissed :=
    exists_miss before 0 "ab" called (idle 0) (by decide) (by decide)
  have lookedAgain : Step oneMissed (.lookup 1 "ab") bothMissed :=
    exists_miss oneMissed 1 "ab" called (idle 1) (by decide) (by decide)
  obtain ⟨middle, wrote, middleCalled, middleThreads, middleWritten⟩ :=
    exists_write bothMissed 0 "ab" called wide rfl (by decide) (by decide)
  obtain ⟨world, wroteAgain, _, _, worldWritten⟩ :=
    exists_write middle 1 "ab" middleCalled wide (by rw [middleThreads]; rfl) (by decide)
      (by decide)
  have raced : Steps Step before [.lookup 0 "ab", .lookup 1 "ab", .write 0, .write 1] world :=
    (((Steps.single looked).step lookedAgain).step wrote).step wroteAgain
  have allowed : ∀ label ∈ [Section.lookup 0 "cd", Section.write 0],
      Allowed ⟨.debug, fun _ => 0⟩ label := by
    simp [Allowed, MemoryPool.Storable]
  obtain ⟨consistent, keeps⟩ := consistent_of_run new run allowed
  obtain ⟨later, kept⟩ := keeps _ _ raced (by simp [Allowed, MemoryPool.Storable])
  have all : world.written = ["ab", "ab", "cd"] := by
    rw [worldWritten, middleWritten]
    exact congrArg (fun strings => "ab" :: "ab" :: strings) written
  refine ⟨interner, before, world, new, run, raced, consistent, later, kept, all, ?_⟩
  rw [later.counted, all]
  decide

/-- A release build interns `longText` as its first two letters. -/
theorem not_consistent_of_long :
    ∃ (interner : StringInterner ⟨.release, fun _ => 0⟩) (world : World _),
      withCapacityAndShards _ (fun _ => 0) 1 1 = .ok interner ∧
        Steps Step (start interner) [.lookup 0 longText, .write 0] world ∧
        ¬ world.Consistent := by
  obtain ⟨interner, new, created⟩ :=
    withCapacityAndShards_ok ⟨.release, fun _ => 0⟩ (fun _ => 0) 1 1
  obtain ⟨notStatic, symbol, offset, short, after, cut, stored⟩ := created.insertVacant_long rfl
  obtain ⟨world, run, internerEq, writtenEq⟩ := first_call created notStatic stored
  refine ⟨interner, world, new, run, ?_⟩
  intro consistent
  -- The one entry of the table stands for the first two letters.
  obtain ⟨place, ⟨entry, ⟨inRange, here⟩, text⟩, _⟩ :=
    consistent.completed longText (writtenEq ▸ List.mem_cons_self)
  have first : place.1 = 0 := by
    rw [internerEq, cut.after] at inRange
    have bounded : place.1 < short.shardCount := inRange
    have oneShard := cut.oneShard
    omega
  rw [internerEq, cut.after, first] at here
  have entrySymbol : entry.symbol = symbol :=
    congrArg Entry.symbol (List.mem_singleton.mp (List.mem_of_getElem? here))
  rw [textOf, internerEq, cut.after, first, entrySymbol,
    Symbol.issuedIndex_of_new cut.made] at text
  have two : "aa" = longText :=
    (cut.holds.layout.getUnchecked_eq (by have := cut.oneShard; omega) rfl).symm.trans text
  have lengths := congrArg byteLength two
  rw [byteLength_longText] at lengths
  exact absurd lengths (by decide)

end World

end Boomerang
