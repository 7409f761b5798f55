import Boomerang.Schema.Built
import Boomerang.Schema.InternerCalls

/-!
# The strings that a schema knows

One interner holds the names of tables and columns, the types, defaults, checks and
namespaces. A new schema has symbols for these strings and for the static ones, and for
no others.
-/

namespace Boomerang

open Foundation

variable {build : Build}

namespace StringInterner

/-- A call of `get_or_intern` gives a symbol to no other string. -/
theorem Interned.numbered_before {before after : StringInterner build}
    {contents grown : Contents} {value text : String} {symbol other : Symbol}
    (interned : Interned before contents value symbol after grown)
    (numbered : after.Numbered grown text other) :
    before.Numbered contents text other ∨ text = value := by
  rcases interned.contents with ⟨_, rfl, rfl⟩ | ⟨_, rfl⟩
  · exact Or.inl numbered
  · rcases numbered with isStatic | ⟨notStatic, index, here, made⟩
    · exact Or.inl (Or.inl isStatic)
    · rw [interned.shape.shardOf text] at here made
      rcases Contents.getElem?_push here with ⟨old, _⟩ | ⟨_, _, new, _⟩
      · exact Or.inl (Or.inr ⟨notStatic, index, old, made⟩)
      · exact Or.inr new

/-- The strings that have a symbol after a call of `get_or_intern`. -/
theorem names_of_getOrIntern {before after : StringInterner build} {value text : String}
    {symbol other : Symbol} (valid : LawfulInterner.Valid before)
    (storable : MemoryPool.Storable build.profile value)
    (success : before.getOrIntern value = .ok symbol after) (named : Names after other text) :
    Names before other text ∨ text = value := by
  obtain ⟨contents, holds⟩ := valid
  obtain ⟨grown, interned⟩ := holds.layout.getOrIntern_ok holds.distinct storable success
  have numbered := interned.layout.resolve_eq_some.mp named
  exact (interned.numbered_before numbered).imp_left holds.layout.resolve_eq_some.mpr

end StringInterner

/-- Runs that give symbols to no other strings. -/
def AddsOnly {Result : Type} (run : StateT (StringInterner build) (Except Fault) Result)
    (strings : List String) : Prop :=
  StorableAll (StringInterner build) strings → ∀ before result after,
    LawfulInterner.Valid before → run before = .ok (result, after) →
      LawfulInterner.Valid after ∧
        ∀ symbol text, Names after symbol text → Names before symbol text ∨ text ∈ strings

namespace AddsOnly

theorem callByCall : CallByCall (@AddsOnly build) := by
  constructor
  · rintro Result result storable before _ _ valid ⟨⟩
    exact ⟨valid, fun _ _ named => Or.inl named⟩
  · intro First Second first next strings more head tail storable before result after valid success
    obtain ⟨⟨value, middle⟩, ran, success⟩ := bind_eq_ok.mp success
    obtain ⟨middleValid, early⟩ := head (fun text member => storable text
      (List.mem_append_left _ member)) before value middle valid ran
    obtain ⟨afterValid, late⟩ := tail value (fun text member => storable text
      (List.mem_append_right _ member)) middle result after middleValid success
    refine ⟨afterValid, fun symbol text named => ?_⟩
    rcases late symbol text named with between | added
    · exact (early symbol text between).imp_right (List.mem_append_left more)
    · exact Or.inr (List.mem_append_right strings added)
  · intro text storable before symbol after valid success
    have whole := storable text List.mem_cons_self
    unfold Boomerang.intern at success
    cases called : InternerOps.getOrIntern before text with
    | error fault next =>
        rw [called] at success
        cases success
    | ok found next =>
        rw [called] at success
        cases success
        refine ⟨(LawfulInterner.getOrIntern_ok valid whole called).1, fun other name named => ?_⟩
        exact (StringInterner.names_of_getOrIntern valid whole called named).imp_right
          List.mem_singleton.mpr

end AddsOnly

namespace DatabaseSchemaBuilder

variable {profile : Profile} {builder : DatabaseSchemaBuilder (StringInterner build)}

end DatabaseSchemaBuilder

end Boomerang
