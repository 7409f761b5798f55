import Boomerang.Interner.CachedCalls

/-!
# A thread and its cache

One thread creates interners and calls `get_or_intern` and `get` on them through its
cache, while other threads intern into them too. Every slot of the cache was filled
for a string of the interner it names. So with the probe removed the thread gets the
same replies, exactly as long as no probe is misread.
-/

namespace Boomerang

open Foundation StringInterner

/-- Something a thread does, or that happens to its interners. -/
inductive Call where
  /-- `StringInterner::with_capacity_and_shards`. -/
  | create (uninitialised : Memory) (count : Nat)
  | getOrIntern (handle : Nat) (value : String)
  | get (handle : Nat) (value : String)
  /-- Another thread calls `get_or_intern`. -/
  | elsewhere (handle : Nat) (value : String)

/-- What the thread gets: a symbol from `get_or_intern`, an optional one from `get`,
nothing from the others, or a panic. -/
abbrev Reply := Except Fault (Option Symbol)

/-- The live interners by handle, `NEXT_INTERNER_ID`, and the cache of the thread. -/
structure Session (build : Build) where
  interners : List (StringInterner build)
  nextId : Nat
  cache : ThreadLocalCache

namespace Session

variable {build : Build}

/-- A new thread, before any interner is created. -/
def start : Session build := ⟨[], 1, ThreadLocalCache.new⟩

/-- One call, with or without the cache probe. -/
def act (probing : Bool) (session : Session build) : Call → Reply × Session build
  | .create uninitialised count =>
      match withCapacityAndShards build uninitialised session.nextId count with
      | .error fault => (.error fault, session)
      | .ok interner => (.ok none,
          { session with
            interners := session.interners ++ [interner]
            nextId := (session.nextId + 1) % u32Range })
  | .getOrIntern handle value =>
      match session.interners[handle]? with
      | none => (.ok none, session)
      | some interner =>
          match getOrInternCached probing session.cache interner value with
          | .error fault (next, cache) =>
              (.error fault, ⟨session.interners.set handle next, session.nextId, cache⟩)
          | .ok symbol (next, cache) =>
              (.ok (some symbol), ⟨session.interners.set handle next, session.nextId, cache⟩)
  | .get handle value =>
      match session.interners[handle]? with
      | none => (.ok none, session)
      | some interner =>
          match getCached probing session.cache interner value with
          | .error fault => (.error fault, session)
          | .ok (found, cache) => (.ok found, { session with cache := cache })
  | .elsewhere handle value =>
      match session.interners[handle]? with
      | none => (.ok none, session)
      | some interner =>
          match interner.getOrIntern value with
          | .error fault next =>
              (.error fault, { session with interners := session.interners.set handle next })
          | .ok _ next =>
            (.ok none, { session with interners := session.interners.set handle next })

/-- The replies to a sequence of calls, up to the first panic. -/
def replies (probing : Bool) (session : Session build) : List Call → List Reply
  | [] => []
  | call :: calls =>
      match session.act probing call with
      | (.error fault, _) => [.error fault]
      | (.ok reply, next) => .ok reply :: next.replies probing calls

/-- The live interner of a handle. -/
def At (session : Session build) (handle : Nat) (interner : StringInterner build) : Prop :=
  session.interners[handle]? = some interner

/-- The call's probe is misread. -/
def Misreads (session : Session build) : Call → Prop
  | .getOrIntern handle value | .get handle value =>
      ∃ interner, session.At handle interner ∧ Misread session.cache interner value
  | .create _ _ | .elsewhere _ _ => False

/-- No probe of a sequence of calls is misread. -/
def Clean (session : Session build) : List Call → Prop
  | [] => True
  | call :: calls => ¬ session.Misreads call ∧
      ∀ reply next, session.act true call = (.ok reply, next) → next.Clean calls

/-- The string a call may store is stored whole. -/
def StoresWhole (build : Build) : Call → Prop
  | .getOrIntern _ value | .elsewhere _ value => MemoryPool.Storable build.profile value
  | .create _ _ | .get _ _ => True

/-- The number of interners a sequence of calls creates. -/
def creations (calls : List Call) : Nat :=
  (calls.filter fun call => match call with
    | .create _ _ => true
    | _ => false).length

/-- Interner ids are distinct and not zero, interners hold their contents, and slots
were filled for strings of the interners they name. -/
structure Valid (session : Session build) (contents : Nat → Contents) : Prop where
  nextId : session.nextId = session.interners.length + 1
  known : ∀ idx, (session.cache idx).internerId ≤ session.interners.length
  ids : ∀ handle interner, session.At handle interner → interner.internerId = handle + 1
  holds : ∀ handle interner, session.At handle interner → interner.Holds (contents handle)
  faithful : ∀ handle interner, session.At handle interner →
    CacheFaithful session.cache interner (contents handle)

theorem valid_start : Valid (start : Session build) fun _ => Contents.empty where
  nextId := rfl
  known := fun _ => Nat.zero_le _
  ids := fun _ _ here => nomatch here
  holds := fun _ _ here => nomatch here
  faithful := fun _ _ here => nomatch here

namespace Valid

variable {session : Session build} {contents : Nat → Contents}

/-- A new interner has an id that no slot names. -/
theorem created (valid : session.Valid contents) (room : session.interners.length + 2 < u32Range)
    {interner : StringInterner build} {count : Nat}
    (facts : Created interner session.nextId count) :
    Valid { session with
        interners := session.interners ++ [interner]
        nextId := (session.nextId + 1) % u32Range }
      (Function.update contents session.interners.length Contents.empty) := by
  have cases : ∀ handle other, (session.interners ++ [interner])[handle]? = some other →
      session.At handle other ∧ handle < session.interners.length ∨
        handle = session.interners.length ∧ other = interner := by
    intro handle other here
    by_cases old : handle < session.interners.length
    · rw [List.getElem?_append_left old] at here
      exact Or.inl ⟨here, old⟩
    · have bound := (List.getElem?_eq_some_iff.mp here).1
      rw [List.length_append, List.length_singleton] at bound
      have last : handle = session.interners.length := by omega
      rw [last, List.getElem?_concat_length] at here
      exact Or.inr ⟨last, (Option.some.inj here).symm⟩
  constructor
  case nextId =>
    rw [valid.nextId, List.length_append, List.length_singleton]
    exact Nat.mod_eq_of_lt (by omega)
  case known =>
    intro idx
    rw [List.length_append]
    exact Nat.le_add_right_of_le (valid.known idx)
  case ids =>
    intro handle other here
    rcases cases handle other here with ⟨old, _⟩ | ⟨rfl, rfl⟩
    · exact valid.ids handle other old
    · rw [facts.internerId, valid.nextId]
  case holds =>
    intro handle other here
    rcases cases handle other here with ⟨old, below⟩ | ⟨rfl, rfl⟩
    · rw [Function.update_of_ne (Nat.ne_of_lt below)]
      exact valid.holds handle other old
    · rw [Function.update_self]
      exact facts.holds
  case faithful =>
    intro handle other here
    rcases cases handle other here with ⟨old, below⟩ | ⟨rfl, rfl⟩
    · rw [Function.update_of_ne (Nat.ne_of_lt below)]
      exact valid.faithful handle other old
    · intro idx named
      have known := valid.known idx
      rw [facts.internerId, valid.nextId] at named
      dsimp only at named
      omega

/-- An interner stores a string, in whichever thread. -/
theorem interned (valid : session.Valid contents) {handle : Nat}
    {interner next : StringInterner build} (here : session.At handle interner) {value : String}
    {symbol : Symbol} {grown : Contents}
    (interned : Interned interner (contents handle) value symbol next grown) :
    Valid { session with interners := session.interners.set handle next }
      (Function.update contents handle grown) := by
  have cases : ∀ other found, (session.interners.set handle next)[other]? = some found →
      other = handle ∧ found = next ∨ other ≠ handle ∧ session.At other found := by
    intro other found there
    by_cases same : other = handle
    · subst same
      rw [List.getElem?_set_self (List.getElem?_eq_some_iff.mp here).1] at there
      exact Or.inl ⟨rfl, (Option.some.inj there).symm⟩
    · rw [List.getElem?_set_ne (Ne.symm same)] at there
      exact Or.inr ⟨same, there⟩
  constructor
  case nextId => rw [List.length_set, valid.nextId]
  case known =>
    intro idx
    rw [List.length_set]
    exact valid.known idx
  case ids =>
    intro other found there
    rcases cases other found there with ⟨rfl, rfl⟩ | ⟨_, old⟩
    · rw [interned.shape.internerId, valid.ids other interner here]
    · exact valid.ids other found old
  case holds =>
    intro other found there
    rcases cases other found there with ⟨rfl, rfl⟩ | ⟨different, old⟩
    · rw [Function.update_self]
      exact interned.holds (valid.holds other interner here)
    · rw [Function.update_of_ne different]
      exact valid.holds other found old
  case faithful =>
    intro other found there
    rcases cases other found there with ⟨rfl, rfl⟩ | ⟨different, old⟩
    · rw [Function.update_self]
      intro idx named
      obtain ⟨stored, storedSymbol, cached⟩ :=
        valid.faithful other interner here idx (named.trans interned.shape.internerId)
      exact ⟨stored, storedSymbol, cached.mono (valid.holds other interner here).layout
        interned.layout interned.shape interned.grows⟩
    · rw [Function.update_of_ne different]
      exact valid.faithful other found old

/-- The thread fills a slot for a string an interner holds. -/
theorem filled (valid : session.Valid contents) {handle : Nat} {interner : StringInterner build}
    (here : session.At handle interner) {value : String} {symbol : Symbol}
    (notStatic : staticSymbol? value = none)
    (numbered : Numbered interner (contents handle) value symbol) :
    Valid { session with
      cache := session.cache.fill interner value symbol
        (interner.textOffset (interner.shardOf value) symbol) } contents := by
  have slots := cachedAs_fill (valid.holds handle interner here).layout session.cache notStatic
    numbered
  have id := valid.ids handle interner here
  have bound := (List.getElem?_eq_some_iff.mp here).1
  refine ⟨valid.nextId, ?_, valid.ids, valid.holds, ?_⟩
  · intro idx
    dsimp only
    rcases slots idx with same | cached
    · rw [same]
      exact valid.known idx
    · rw [cached.internerId, id]
      exact bound
  · intro other found there idx named
    dsimp only at named ⊢
    rcases slots idx with same | cached
    · rw [same] at named ⊢
      exact valid.faithful other found there idx named
    · -- Distinct ids: the slot names this interner and no other.
      have sameHandle : other = handle := by
        have otherId := valid.ids other found there
        rw [cached.internerId, id, otherId] at named
        omega
      subst sameHandle
      cases Option.some.inj (there.symm.trans here)
      exact ⟨value, symbol, cached⟩

end Valid

/-- What a call of `get_or_intern` replies. -/
def replyOf {State : Type} : Outcome State Symbol → Reply
  | .ok symbol _ => .ok (some symbol)
  | .error fault _ => .error fault

/-- The state a call leaves. -/
def stateOf {State : Type} : Outcome State Symbol → State
  | .ok _ state | .error _ state => state

theorem act_getOrIntern {session : Session build} {handle : Nat} {value : String}
    {interner : StringInterner build} (here : session.At handle interner) (probing : Bool) :
    (session.act probing (.getOrIntern handle value)).1 =
        replyOf ((getOrInternCached probing session.cache interner value).mapState Prod.fst) ∧
      (session.act probing (.getOrIntern handle value)).2.interners =
        session.interners.set handle
          (stateOf ((getOrInternCached probing session.cache interner value).mapState Prod.fst)) ∧
      (session.act probing (.getOrIntern handle value)).2.nextId = session.nextId := by
  simp only [act, show session.interners[handle]? = some interner from here]
  cases getOrInternCached probing session.cache interner value <;> exact ⟨rfl, rfl, rfl⟩

theorem act_get {session : Session build} {handle : Nat} {value : String}
    {interner : StringInterner build} (here : session.At handle interner) (probing : Bool) :
    (session.act probing (.get handle value)).1 =
        (getCached probing session.cache interner value).map Prod.fst ∧
      (session.act probing (.get handle value)).2.interners = session.interners ∧
      (session.act probing (.get handle value)).2.nextId = session.nextId := by
  simp only [act, show session.interners[handle]? = some interner from here]
  cases getCached probing session.cache interner value <;> exact ⟨rfl, rfl, rfl⟩

/-- Two sessions with the same interners. -/
structure Agree (left right : Session build) : Prop where
  interners : left.interners = right.interners
  nextId : left.nextId = right.nextId

/-- The first reply is that of the first call. -/
theorem head?_replies_cons (probing : Bool) (session : Session build) (call : Call)
    (calls : List Call) :
    (session.replies probing (call :: calls)).head? = some (session.act probing call).1 := by
  rw [replies]
  split <;> simp_all

namespace Valid

variable {session other : Session build} {contents : Nat → Contents} {call : Call}

/-- A misread probe changes the reply. -/
theorem act_misread (valid : session.Valid contents) (agree : Agree session other)
    (storable : StoresWhole build call) (misreads : session.Misreads call) :
    (session.act true call).1 ≠ (other.act false call).1 := by
  cases call with
  | create | elsewhere => exact misreads.elim
  | getOrIntern handle value =>
      obtain ⟨interner, here, misread⟩ := misreads
      have holds := valid.holds handle interner here
      obtain ⟨symbol, success, different⟩ := holds.layout.getOrInternCached_misread holds.distinct
        (valid.faithful handle interner here) storable misread
      have there : other.At handle interner := by
        rw [At, ← agree.interners]
        exact here
      rw [(act_getOrIntern here true).1, (act_getOrIntern there false).1, success,
        getOrInternCached_false]
      cases plain : interner.getOrIntern value with
      | error fault next => exact fun same => nomatch same
      | ok plainSymbol next =>
          intro same
          cases same
          exact different next plain
  | get handle value =>
      obtain ⟨interner, here, misread⟩ := misreads
      have holds := valid.holds handle interner here
      obtain ⟨symbol, success, different⟩ := holds.layout.getCached_misread holds.distinct
        (valid.faithful handle interner here) misread
      have there : other.At handle interner := by
        rw [At, ← agree.interners]
        exact here
      rw [(act_get here true).1, (act_get there false).1, success, getCached_false]
      intro same
      exact different (Except.ok.inj same).symm

/-- A call whose probe is not misread has the same reply and the same effect on the
interners as without the probe. -/
theorem act_clean (valid : session.Valid contents) (agree : Agree session other)
    (clean : ¬ session.Misreads call) :
    (session.act true call).1 = (other.act false call).1 ∧
      Agree (session.act true call).2 (other.act false call).2 := by
  have lookup : ∀ handle : Nat, other.interners[handle]? = session.interners[handle]? :=
    fun handle => by rw [agree.interners]
  cases call with
  | create uninitialised count =>
      simp only [act, ← agree.nextId]
      cases withCapacityAndShards build uninitialised session.nextId count with
      | error fault => exact ⟨rfl, agree⟩
      | ok interner => exact ⟨rfl, by rw [agree.interners], rfl⟩
  | elsewhere handle value =>
      simp only [act, lookup]
      cases session.interners[handle]? with
      | none => exact ⟨rfl, agree⟩
      | some interner =>
          dsimp only
          cases interner.getOrIntern value <;>
            exact ⟨rfl, congrArg (List.set · handle _) agree.interners, agree.nextId⟩
  | getOrIntern handle value =>
      cases here : session.interners[handle]? with
      | none =>
          simp only [act, lookup, here]
          exact ⟨trivial, agree⟩
      | some interner =>
          have there : other.At handle interner := (lookup handle).trans here
          have holds := valid.holds handle interner here
          have same := holds.layout.getOrInternCached_true holds.distinct
            (valid.faithful handle interner here) fun misread => clean ⟨interner, here, misread⟩
          obtain ⟨reply, interners, nextId⟩ := act_getOrIntern here true
          obtain ⟨otherReply, otherInterners, otherNextId⟩ := act_getOrIntern there false
          rw [same] at reply interners
          rw [getOrInternCached_false] at otherReply otherInterners
          exact ⟨reply.trans otherReply.symm,
            by rw [interners, otherInterners, agree.interners],
            by rw [nextId, otherNextId, agree.nextId]⟩
  | get handle value =>
      cases here : session.interners[handle]? with
      | none =>
          simp only [act, lookup, here]
          exact ⟨trivial, agree⟩
      | some interner =>
          have there : other.At handle interner := (lookup handle).trans here
          have holds := valid.holds handle interner here
          have same := holds.layout.getCached_true holds.distinct
            (valid.faithful handle interner here) fun misread => clean ⟨interner, here, misread⟩
          obtain ⟨reply, interners, nextId⟩ := act_get here true
          obtain ⟨otherReply, otherInterners, otherNextId⟩ := act_get there false
          rw [same] at reply
          rw [getCached_false] at otherReply
          exact ⟨reply.trans otherReply.symm,
            by rw [interners, otherInterners, agree.interners],
            by rw [nextId, otherNextId, agree.nextId]⟩

/-- A call that returns keeps the session valid. -/
theorem act_valid (valid : session.Valid contents)
    (room : session.interners.length + creations [call] + 1 < u32Range)
    (storable : StoresWhole build call) (clean : ¬ session.Misreads call)
    {reply : Option Symbol} {next : Session build}
    (success : session.act true call = (.ok reply, next)) :
    next.interners.length = session.interners.length + creations [call] ∧
      ∃ after, next.Valid after := by
  cases call with
  | create uninitialised count =>
      simp only [act] at success
      obtain ⟨interner, new, facts⟩ :=
        withCapacityAndShards_ok build uninitialised session.nextId count
      rw [new] at success
      cases success
      exact ⟨List.length_append, _, valid.created room facts⟩
  | elsewhere handle value =>
      simp only [act] at success
      cases here : session.interners[handle]? with
      | none =>
          rw [here] at success
          cases success
          exact ⟨rfl, _, valid⟩
      | some interner =>
          have holds := valid.holds handle interner here
          rw [here] at success
          dsimp only at success
          cases interned : interner.getOrIntern value with
          | error fault after =>
              rw [interned] at success
              cases success
          | ok symbol after =>
              rw [interned] at success
              cases success
              obtain ⟨grown, done⟩ := holds.layout.getOrIntern_ok holds.distinct storable interned
              exact ⟨List.length_set, _, valid.interned here done⟩
  | getOrIntern handle value =>
      simp only [act] at success
      cases here : session.interners[handle]? with
      | none =>
          rw [here] at success
          cases success
          exact ⟨rfl, _, valid⟩
      | some interner =>
          have holds := valid.holds handle interner here
          rw [here] at success
          dsimp only at success
          cases called : getOrInternCached true session.cache interner value with
          | error fault after =>
              rw [called] at success
              cases success
          | ok symbol after =>
              obtain ⟨after, cache⟩ := after
              rw [called] at success
              cases success
              obtain ⟨grown, done, cached⟩ := holds.layout.getOrInternCached_ok holds.distinct
                (valid.faithful handle interner here) storable
                (fun misread => clean ⟨interner, here, misread⟩) called
              have stored := valid.interned here done
              refine ⟨List.length_set, ?_⟩
              rcases cached with rfl | ⟨notStatic, rfl⟩
              · exact ⟨_, stored⟩
              · have there : (session.interners.set handle after)[handle]? = some after :=
                  List.getElem?_set_self (List.getElem?_eq_some_iff.mp here).1
                refine ⟨_, stored.filled there notStatic ?_⟩
                rw [Function.update_self]
                exact done.numbered
  | get handle value =>
      simp only [act] at success
      cases here : session.interners[handle]? with
      | none =>
          rw [here] at success
          cases success
          exact ⟨rfl, _, valid⟩
      | some interner =>
          have holds := valid.holds handle interner here
          rw [here] at success
          dsimp only at success
          cases called : getCached true session.cache interner value with
          | error fault =>
              rw [called] at success
              cases success
          | ok found =>
              obtain ⟨found, cache⟩ := found
              rw [called] at success
              cases success
              refine ⟨rfl, ?_⟩
              rcases holds.layout.getCached_ok holds.distinct
                (valid.faithful handle interner here)
                (fun misread => clean ⟨interner, here, misread⟩) called with
                rfl | ⟨notStatic, symbol, numbered, rfl⟩
              · exact ⟨_, valid⟩
              · exact ⟨_, valid.filled here notStatic numbered⟩

/-- From sessions that agree, the replies with and without the probe are the same
exactly when no probe is misread. -/
theorem replies_eq_iff {calls : List Call} (valid : session.Valid contents)
    (agree : Agree session other) (storable : ∀ call ∈ calls, StoresWhole build call)
    (room : session.interners.length + creations calls + 1 < u32Range) :
    session.replies true calls = other.replies false calls ↔ session.Clean calls := by
  induction calls generalizing session other contents with
  | nil => exact ⟨fun _ => trivial, fun _ => rfl⟩
  | cons call calls ih =>
      have split : creations (call :: calls) = creations [call] + creations calls := by
        rw [creations, creations, creations, ← List.length_append, ← List.filter_append]
        rfl
      have storableHere := storable call List.mem_cons_self
      by_cases misreads : session.Misreads call
      · refine iff_of_false ?_ fun clean => clean.1 misreads
        intro same
        refine valid.act_misread agree storableHere misreads ?_
        have heads := congrArg List.head? same
        rw [head?_replies_cons, head?_replies_cons] at heads
        exact Option.some.inj heads
      · obtain ⟨sameReply, agreeAfter⟩ := valid.act_clean agree misreads
        rcases left : session.act true call with ⟨reply, next⟩
        rcases right : other.act false call with ⟨otherReply, otherNext⟩
        rw [left, right] at sameReply agreeAfter
        dsimp only at sameReply agreeAfter
        subst sameReply
        cases reply with
        | error fault => simp [replies, left, right, Clean, misreads]
        | ok reply =>
            obtain ⟨length, after, validAfter⟩ :=
              valid.act_valid (by omega) storableHere misreads left
            have rest := ih validAfter agreeAfter
              (fun later member => storable later (List.mem_cons_of_mem _ member)) (by omega)
            simp [replies, left, right, Clean, misreads, rest]

end Valid

/-- For every sequence of calls of a thread over interners with distinct ids, every
reply is the one without the cache probe exactly when no probe is misread. -/
theorem replies_start_eq_iff {calls : List Call}
    (storable : ∀ call ∈ calls, StoresWhole build call)
    (few : creations calls + 1 < u32Range) :
    (start : Session build).replies true calls = (start : Session build).replies false calls ↔
      (start : Session build).Clean calls :=
  valid_start.replies_eq_iff ⟨rfl, rfl⟩ storable (by simpa [start] using few)

/-- The string a call looks up is its own prefix. -/
def Short : Call → Prop
  | .getOrIntern _ value | .get _ value => byteLength value ≤ 8
  | .create _ _ | .elsewhere _ _ => True

/-- Probes of strings of up to eight bytes are never misread. -/
theorem clean_of_short {session : Session build} {calls : List Call}
    (short : ∀ call ∈ calls, Short call) : session.Clean calls := by
  induction calls generalizing session with
  | nil => trivial
  | cons call calls ih =>
      refine ⟨?_, fun _ _ _ => ih fun later member => short later (List.mem_cons_of_mem _ member)⟩
      have here := short call List.mem_cons_self
      cases call with
      | create | elsewhere => exact id
      | getOrIntern handle value | get handle value =>
          rintro ⟨interner, _, long, _⟩
          exact absurd long (Nat.not_lt_of_le here)

/-- Interning two letters and looking them up again. -/
theorem replies_start_eq_two :
    (start : Session ⟨.debug, fun _ => 0⟩).replies true
        [.create (fun _ => 0) 1, .getOrIntern 0 "ab", .get 0 "ab"] =
      (start : Session ⟨.debug, fun _ => 0⟩).replies false
        [.create (fun _ => 0) 1, .getOrIntern 0 "ab", .get 0 "ab"] := by
  refine (replies_start_eq_iff ?_ (by decide)).mpr (clean_of_short ?_)
  · simp [StoresWhole, MemoryPool.Storable]
  · have two : byteLength "ab" ≤ 8 := by decide
    simp [Short, two]

/-- Twelve equal letters, followed in the arena by a record of twelve bytes. A string
of the last eight letters and the length header of that record, with the same hash,
is read as the letters. -/
theorem replies_differ :
    (start : Session ⟨.debug, fun _ => 0⟩).replies true
        [.create (fun _ => 0) 1, .getOrIntern 0 "aaaaaaaaaaaa", .getOrIntern 0 "bbbbbbbbbbbb",
          .get 0 "aaaaaaaa\x0c\x00\x00\x00"] ≠
      (start : Session ⟨.debug, fun _ => 0⟩).replies false
        [.create (fun _ => 0) 1, .getOrIntern 0 "aaaaaaaaaaaa", .getOrIntern 0 "bbbbbbbbbbbb",
          .get 0 "aaaaaaaa\x0c\x00\x00\x00"] := by
  intro same
  have found := congrArg (List.map fun reply : Reply => reply.toOption.join.isSome) same
  exact absurd found (by decide)

end Session

end Boomerang
