import Boomerang.Dialect.TriggerFunctions

/-!
# Removing the setup of Postgres

The removal looks for the functions whose names start as those of the setup do, whatever
their arguments, and drops the one without arguments under each name, with the triggers that
run it. It takes the setup back exactly where the database had neither such a function
without arguments nor a trigger under a name of the setup.
-/

namespace Boomerang

open Foundation

/-- The names that `LIKE 'sync\_log\_touch\_%'` matches. -/
def isTouchName (name : String) : Bool :=
  "sync_log_touch_".toList.isPrefixOf name.toList

theorem isTouchName_func {tableName primaryCol : String} :
    isTouchName (truncate (PgTrigger.of tableName primaryCol).func) = true := by
  have kept : (truncate (PgTrigger.of tableName primaryCol).func).toList =
      "sync_log_touch_".toList ++ clip Char.utf8Size 48 tableName.toList := by
    rw [truncate_func]
    exact String.toList_ofList
  rw [isTouchName, List.isPrefixOf_iff_prefix, kept]
  exact List.prefix_append _ _

namespace TriggerCatalog

variable {catalog : TriggerCatalog} {functions : List String}

/-- The functions have names that Postgres keeps whole, and every trigger runs a function
that is there. -/
structure Sound (catalog : TriggerCatalog) : Prop where
  short : ∀ func, (catalog.functions func).isSome → byteLength func ≤ 63
  there : ∀ place func, catalog.triggers place = some func → (catalog.functions func).isSome

/-- `DROP FUNCTION IF EXISTS ... CASCADE`. The triggers that run the function go with it. -/
def dropFunction (catalog : TriggerCatalog) (func : String) : TriggerCatalog where
  functions := Function.update catalog.functions (truncate func) none
  triggers := fun place => (catalog.triggers place).filter fun runs => runs ≠ truncate func

/-- What is left without the functions of the setup. -/
def untouched (catalog : TriggerCatalog) : TriggerCatalog where
  functions := fun func => if isTouchName func then none else catalog.functions func
  triggers := fun place => (catalog.triggers place).filter fun func => !isTouchName func

theorem eq_of_entries {left right : TriggerCatalog}
    (functions : ∀ func, left.functions func = right.functions func)
    (triggers : ∀ place, left.triggers place = right.triggers place) : left = right := by
  cases left
  cases right
  exact congrArg₂ TriggerCatalog.mk (funext functions) (funext triggers)

theorem create_functions (trigger : PgTrigger) (func : String) :
    (catalog.create trigger).functions func = if func = truncate trigger.func then
      some ⟨trigger.name, trigger.pk⟩ else catalog.functions func :=
  Function.update_apply _ _ _ _

theorem create_triggers (trigger : PgTrigger) (place : String × String) :
    (catalog.create trigger).triggers place =
      if place = (truncate trigger.table, truncate trigger.trg) then some (truncate trigger.func)
      else catalog.triggers place :=
  Function.update_apply _ _ _ _

theorem dropFunction_functions (func other : String) :
    (catalog.dropFunction func).functions other =
      if other = truncate func then none else catalog.functions other :=
  Function.update_apply _ _ _ _

theorem dropFunction_triggers (func : String) (place : String × String) :
    (catalog.dropFunction func).triggers place =
      (catalog.triggers place).filter fun runs => runs ≠ truncate func := rfl

theorem untouched_functions (func : String) : catalog.untouched.functions func =
    if isTouchName func then none else catalog.functions func := rfl

theorem untouched_triggers (place : String × String) : catalog.untouched.triggers place =
    (catalog.triggers place).filter fun func => !isTouchName func := rfl

/-- The function of a trigger that is created is there before the trigger. -/
theorem Sound.create (sound : catalog.Sound) (trigger : PgTrigger) :
    (catalog.create trigger).Sound := by
  have kept : ∀ func, (catalog.functions func).isSome →
      ((catalog.create trigger).functions func).isSome := by
    intro func there
    rw [create_functions]
    split
    · rfl
    · exact there
  constructor
  case short =>
    intro func there
    rw [create_functions] at there
    split at there
    · rename_i same
      exact same ▸ (truncate_longest trigger.func).2.1
    · exact sound.short func there
  case there =>
    intro place func runs
    rw [create_triggers] at runs
    split at runs
    · cases runs
      rw [create_functions, if_pos rfl]
      rfl
    · exact kept func (sound.there place func runs)

theorem Sound.setup (sound : catalog.Sound) (triggers : List PgTrigger) :
    (triggers.foldl TriggerCatalog.create catalog).Sound := by
  induction triggers generalizing catalog with
  | nil => exact sound
  | cons trigger triggers ih => exact ih (sound.create trigger)

/-- The functions that are left of those that are not dropped. -/
theorem functions_dropped (func : String) :
    (functions.foldl dropFunction catalog).functions func =
      if func ∈ functions.map truncate then none else catalog.functions func := by
  induction functions generalizing catalog with
  | nil => simp
  | cons first functions ih =>
      rw [List.foldl_cons, ih, List.map_cons, dropFunction_functions]
      by_cases later : func ∈ functions.map truncate
      · rw [if_pos later, if_pos (List.mem_cons_of_mem _ later)]
      · rw [if_neg later]
        simp only [List.mem_cons, later, or_false]

/-- The triggers that are left run functions that are not dropped. -/
theorem triggers_dropped (place : String × String) :
    (functions.foldl dropFunction catalog).triggers place =
      (catalog.triggers place).filter fun func => func ∉ functions.map truncate := by
  induction functions generalizing catalog with
  | nil =>
      rw [List.foldl_nil]
      cases catalog.triggers place with
      | none => rfl
      | some func => simp [Option.filter_some]
  | cons first functions ih =>
      rw [List.foldl_cons, ih, List.map_cons, dropFunction_triggers]
      cases catalog.triggers place with
      | none => rfl
      | some func => by_cases same : func = truncate first <;> simp [Option.filter_some, same]

/-- Dropping the functions of the setup, and other names of that form under which there is
no function, leaves what is not of the setup. -/
theorem Sound.dropped (sound : catalog.Sound)
    (touch : ∀ func ∈ functions, isTouchName func ∧ byteLength func ≤ 63)
    (all : ∀ func, (catalog.functions func).isSome → isTouchName func → func ∈ functions) :
    functions.foldl TriggerCatalog.dropFunction catalog = catalog.untouched := by
  have whole : functions.map truncate = functions := by
    refine (List.map_congr_left fun func member => ?_).trans (List.map_id _)
    exact truncate_of_short (touch func member).2
  refine eq_of_entries (fun func => ?_) (fun place => ?_)
  · rw [functions_dropped, whole, untouched_functions]
    by_cases found : func ∈ functions
    · rw [if_pos found, if_pos (touch func found).1]
    · rw [if_neg found]
      split
      · rename_i isTouch
        by_contra stored
        exact found (all func (Option.isSome_iff_ne_none.mpr stored) isTouch)
      · rfl
  · rw [triggers_dropped, whole, untouched_triggers]
    cases runs : catalog.triggers place with
    | none => rfl
    | some func =>
        have found : func ∈ functions ↔ isTouchName func = true :=
          ⟨fun member => (touch func member).1, all func (sound.there place func runs)⟩
        simp [Option.filter_some, found]

end TriggerCatalog

/-- A function with arguments, by its name and their types. -/
structure Overload where
  name : String
  arguments : List String
  nonempty : arguments ≠ []

/-- The functions of the public schema: those without arguments with the triggers that run
them, and those with arguments, which no trigger runs. -/
structure PublicCatalog where
  plain : TriggerCatalog
  overloads : List Overload

namespace PublicCatalog

/-- Names that Postgres keeps whole, and triggers that run functions that are there. -/
structure Sound (catalog : PublicCatalog) : Prop where
  plain : catalog.plain.Sound
  short : ∀ overload ∈ catalog.overloads, byteLength overload.name ≤ 63

/-- What the query of `remove_setup` yields, in any order: names of functions, whatever
their arguments. -/
def Finds (catalog : PublicCatalog) (functions : List String) : Prop :=
  ∀ func, func ∈ functions ↔ ((catalog.plain.functions func).isSome ∨
    ∃ overload ∈ catalog.overloads, overload.name = func) ∧ isTouchName func

/-- The names found can be dropped one by one. -/
theorem Sound.dropped {catalog : PublicCatalog} {functions : List String}
    (sound : catalog.Sound) (finds : catalog.Finds functions) :
    functions.foldl TriggerCatalog.dropFunction catalog.plain = catalog.plain.untouched := by
  refine sound.plain.dropped (fun func member => ?_) fun func there isTouch =>
    (finds func).mpr ⟨Or.inl there, isTouch⟩
  obtain ⟨there | ⟨overload, listed, rfl⟩, isTouch⟩ := (finds func).mp member
  · exact ⟨isTouch, sound.plain.short func there⟩
  · exact ⟨isTouch, sound.short overload listed⟩

/-- Where no function without arguments has a name of the setup, the query finds those of
the triggers and the names of the others. -/
theorem finds_setup {catalog : PublicCatalog} {triggers : List PgTrigger}
    (vacant : ∀ func, isTouchName func → catalog.plain.functions func = none)
    (touch : ∀ trigger ∈ triggers, isTouchName (truncate trigger.func)) :
    Finds ⟨triggers.foldl TriggerCatalog.create catalog.plain, catalog.overloads⟩
      (triggers.map (fun trigger => truncate trigger.func) ++
        (catalog.overloads.map Overload.name).filter isTouchName) := by
  intro func
  rw [TriggerCatalog.functions_foldl, List.mem_append, List.mem_filter, List.mem_map, List.mem_map]
  constructor
  · rintro (⟨trigger, member, rfl⟩ | ⟨overloaded, isTouch⟩)
    · obtain ⟨last, _, stored⟩ : ∃ last ∈ triggers, overwrite
          (fun trigger => truncate trigger.func)
          (fun trigger => TouchFunction.mk trigger.name trigger.pk) catalog.plain.functions triggers
          (truncate trigger.func) = some ⟨last.name, last.pk⟩ :=
        overwrite_of_present ⟨trigger, member, rfl⟩
      exact ⟨Or.inl (by rw [stored]; rfl), touch trigger member⟩
    · exact ⟨Or.inr overloaded, isTouch⟩
  · rintro ⟨stored | overloaded, isTouch⟩
    · refine Or.inl ?_
      by_contra missing
      rw [overwrite_of_absent fun trigger member same => missing ⟨trigger, member, same⟩,
        vacant func isTouch] at stored
      cases stored
    · exact Or.inr ⟨overloaded, isTouch⟩

end PublicCatalog

section Removal

variable {Interner : Type} [InternerOps Interner] {schema : DatabaseSchema Interner}
variable {triggers : List PgTrigger}

/-- `PostgresDatabase::setup_triggers` on the functions of the public schema. -/
def PostgresDatabase.setupPublic (schema : DatabaseSchema Interner) (catalog : PublicCatalog) :
    Except WriterStop PublicCatalog := do
  return { catalog with plain := ← setupFunctions schema catalog.plain }

/-- `PostgresDatabase::remove_setup`, as far as it concerns the functions of the public
schema, with the names that its query found. Each name stands with `()` behind it, so of
the functions of that name the one without arguments is dropped. -/
def PostgresDatabase.removeSetup (catalog : PublicCatalog) (functions : List String) :
    PublicCatalog :=
  { catalog with plain := functions.foldl TriggerCatalog.dropFunction catalog.plain }

/-- No function without arguments has a name of the setup, and no trigger has the place of
one of the setup. -/
structure Vacant (schema : DatabaseSchema Interner) (catalog : TriggerCatalog) : Prop where
  functions : ∀ func, isTouchName func → catalog.functions func = none
  triggers : ∀ table ∈ schema.tableRefs, ∀ {tableName primaryCol},
    Keyed table tableName primaryCol →
      catalog.triggers (truncate tableName, truncate (PgTrigger.of tableName primaryCol).trg) = none

theorem isTouchName_of_created
    (created : schema.tableRefs.mapM PostgresDatabase.tableTrigger = .ok triggers) :
    ∀ trigger ∈ triggers, isTouchName (truncate trigger.func) := by
  intro trigger member
  obtain ⟨_, _, written⟩ := (mem_mapM_ok created).mp member
  obtain ⟨_, _, _, rfl⟩ := PostgresDatabase.tableTrigger_eq_ok.mp written
  exact isTouchName_func

/-- The functions that are left after the setup and the removal. -/
theorem functions_restored (catalog : TriggerCatalog)
    (touch : ∀ trigger ∈ triggers, isTouchName (truncate trigger.func)) (func : String) :
    (triggers.foldl TriggerCatalog.create catalog).untouched.functions func =
      if isTouchName func then none else catalog.functions func := by
  rw [TriggerCatalog.untouched_functions, TriggerCatalog.functions_foldl]
  by_cases isTouch : isTouchName func
  · rw [if_pos isTouch, if_pos isTouch]
  · rw [if_neg isTouch, if_neg isTouch]
    exact overwrite_of_absent fun trigger member same => isTouch (same ▸ touch trigger member)

/-- The triggers of the setup are gone. -/
theorem triggers_gone (catalog : TriggerCatalog)
    (touch : ∀ trigger ∈ triggers, isTouchName (truncate trigger.func)) {trigger : PgTrigger}
    (member : trigger ∈ triggers) :
    (triggers.foldl TriggerCatalog.create catalog).untouched.triggers
      (truncate trigger.table, truncate trigger.trg) = none := by
  rw [TriggerCatalog.untouched_triggers, TriggerCatalog.triggers_foldl]
  obtain ⟨last, lastIn, stored⟩ : ∃ last ∈ triggers, overwrite
      (fun trigger : PgTrigger => (truncate trigger.table, truncate trigger.trg))
      (fun trigger => truncate trigger.func) catalog.triggers triggers
      (truncate trigger.table, truncate trigger.trg) = some (truncate last.func) :=
    overwrite_of_present ⟨trigger, member, rfl⟩
  rw [stored, Option.filter_some, touch last lastIn]
  rfl

/-- Other triggers are left, unless they run a function of the setup. -/
theorem triggers_restored (catalog : TriggerCatalog) {place : String × String}
    (other : ∀ trigger ∈ triggers, (truncate trigger.table, truncate trigger.trg) ≠ place) :
    (triggers.foldl TriggerCatalog.create catalog).untouched.triggers place =
      (catalog.triggers place).filter fun func => !isTouchName func := by
  rw [TriggerCatalog.untouched_triggers, TriggerCatalog.triggers_foldl, overwrite_of_absent other]

/-- What is left of the functions without arguments and of the triggers is what was there
exactly if there was nothing in the place of the setup. -/
theorem untouched_eq_iff {catalog : TriggerCatalog} (sound : catalog.Sound)
    (created : schema.tableRefs.mapM PostgresDatabase.tableTrigger = .ok triggers) :
    (triggers.foldl TriggerCatalog.create catalog).untouched = catalog ↔
      Vacant schema catalog := by
  have touch := isTouchName_of_created created
  constructor
  · intro same
    refine ⟨fun func isTouch => ?_, fun table listed tableName primaryCol keyed => ?_⟩
    · have left := functions_restored catalog touch func
      rwa [same, if_pos isTouch] at left
    · have member := (mem_mapM_ok created).mpr
        ⟨table, listed, PostgresDatabase.tableTrigger_eq_ok.mpr ⟨_, _, keyed, rfl⟩⟩
      have gone := triggers_gone catalog touch member
      rw [same] at gone
      exact gone
  · intro vacant
    refine TriggerCatalog.eq_of_entries (fun func => ?_) (fun place => ?_)
    · rw [functions_restored catalog touch]
      split
      · rename_i isTouch
        exact (vacant.functions func isTouch).symm
      · rfl
    · by_cases own : ∃ trigger ∈ triggers, (truncate trigger.table, truncate trigger.trg) = place
      · obtain ⟨trigger, member, rfl⟩ := own
        obtain ⟨table, listed, written⟩ := (mem_mapM_ok created).mp member
        obtain ⟨_, _, keyed, rfl⟩ := PostgresDatabase.tableTrigger_eq_ok.mp written
        exact (triggers_gone catalog touch member).trans (vacant.triggers table listed keyed).symm
      · rw [triggers_restored catalog fun trigger member same => own ⟨trigger, member, same⟩]
        cases runs : catalog.triggers place with
        | none => rfl
        | some func =>
            have there := sound.there place func runs
            have free : isTouchName func = false := by
              by_contra isTouch
              rw [vacant.functions func (eq_true_of_ne_false isTouch)] at there
              cases there
            rw [Option.filter_some, free]
            rfl

/-- The removal after a setup restores the functions and the triggers exactly if there was
nothing in the place of the setup. -/
theorem PostgresDatabase.removeSetup_restores {catalog next : PublicCatalog}
    {functions : List String} (sound : catalog.Sound)
    (setup : PostgresDatabase.setupPublic schema catalog = .ok next)
    (finds : next.Finds functions) :
    PostgresDatabase.removeSetup next functions = catalog ↔ Vacant schema catalog.plain := by
  obtain ⟨plain, looped, done⟩ := bind_eq_ok.mp setup
  cases done
  obtain ⟨triggers, created, rfl⟩ := foldlM_eq_ok.mp looped
  have nextSound : PublicCatalog.Sound
      ⟨triggers.foldl TriggerCatalog.create catalog.plain, catalog.overloads⟩ :=
    ⟨sound.plain.setup triggers, sound.short⟩
  rw [removeSetup, nextSound.dropped finds, ← untouched_eq_iff sound.plain created]
  constructor
  · exact fun restored => congrArg PublicCatalog.plain restored
  · intro same
    dsimp only
    rw [same]

/-- A function that a trigger on posts runs, and one of a name of the setup with an
argument. -/
def auditCatalog : PublicCatalog where
  plain :=
    { functions := fun func => if func = "audit" then some ⟨"audit", "id"⟩ else none
      triggers := fun place => if place = ("posts", "on_change") then some "audit" else none }
  overloads := [⟨"sync_log_touch_audit", ["integer"], by decide⟩]

theorem sound_auditCatalog : auditCatalog.Sound := by
  refine ⟨⟨fun func there => ?_, fun place func runs => ?_⟩, by decide⟩
  · obtain ⟨_, there⟩ := Option.isSome_iff_exists.mp there
    obtain ⟨rfl, _⟩ := Option.ite_none_right_eq_some.mp there
    decide
  · obtain ⟨_, runs⟩ := Option.ite_none_right_eq_some.mp runs
    cases runs
    rfl

/-- The setup of posts and users is taken back, though the query finds a function with an
argument too. -/
theorem removeSetup_restores_posts :
    ∃ (schema : DatabaseSchema (StringInterner ⟨.debug, fun _ => 0⟩)) (next : PublicCatalog)
      (functions : List String),
      PostgresDatabase.setupPublic schema auditCatalog = .ok next ∧ next.Finds functions ∧
        "sync_log_touch_audit" ∈ functions ∧
        PostgresDatabase.removeSetup next functions = auditCatalog := by
  obtain ⟨schema, _, _, created, setup⟩ := @exists_setup
    [plainRow "posts" "id" true, plainRow "users" "id" true] ["posts", "users"]
    [.of "posts" "id", .of "users" "id"] (by decide +kernel)
  have setup : PostgresDatabase.setupPublic schema auditCatalog = .ok _ :=
    bind_eq_ok.mpr ⟨_, setup auditCatalog.plain, rfl⟩
  have vacant : Vacant schema auditCatalog.plain := by
    refine ⟨fun func isTouch => ?_, fun table listed tableName primaryCol keyed => ?_⟩
    · refine if_neg ?_
      rintro rfl
      exact absurd isTouch (by decide)
    · have member := (mem_mapM_ok created).mpr
        ⟨table, listed, PostgresDatabase.tableTrigger_eq_ok.mpr ⟨_, _, keyed, rfl⟩⟩
      have free : ∀ trigger ∈ [PgTrigger.of "posts" "id", PgTrigger.of "users" "id"],
          auditCatalog.plain.triggers (truncate trigger.table, truncate trigger.trg) = none := by
        decide
      exact free _ member
  have finds := PublicCatalog.finds_setup vacant.functions (isTouchName_of_created created)
  exact ⟨schema, _, _, setup, finds, by decide,
    (PostgresDatabase.removeSetup_restores sound_auditCatalog setup finds).mpr vacant⟩

end Removal

end Boomerang
