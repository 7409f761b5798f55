import Boomerang.Foundation.Quoting

/-!
# Lexing quoted text

A text is cut into plain letters and the texts between quotes. A doubled bracket letter
opens a body that ends at the next doubled one, whatever stands in it.
-/

namespace Boomerang.Foundation

/-- What a text is cut into. -/
inductive Lexeme (Letter : Type) where
  | plain (letter : Letter)
  | quoted (quote : Letter) (text : List Letter)
  | body (text : List Letter)
deriving DecidableEq, Repr

variable {Letter : Type} [DecidableEq Letter]

/-- What follows the first doubled letter is shorter than the source. -/
theorem length_of_untilDoubled {letter : Letter} {source before after : List Letter}
    (found : untilDoubled letter source = some (before, after)) : after.length < source.length := by
  rw [(untilDoubled_eq_some found).1, List.length_append, List.length_cons, List.length_cons]
  omega

/-- Cut a text into lexemes. A quote or a body that does not end makes it fail. -/
def lex (quotes : List Letter) (bracket : Letter) (text : List Letter) :
    Option (List (Lexeme Letter)) :=
  match text with
  | [] => some []
  | letter :: rest =>
      if letter ∈ quotes then
        match _read : scanBody letter rest with
        | none => none
        | some (text, after) => (lex quotes bracket after).map (.quoted letter text :: ·)
      else if letter = bracket ∧ rest.head? = some bracket then
        match _found : untilDoubled bracket rest.tail with
        | none => none
        | some (text, after) => (lex quotes bracket after).map (.body text :: ·)
      else (lex quotes bracket rest).map (.plain letter :: ·)
termination_by text.length
decreasing_by
  · exact Nat.lt_succ_of_lt (length_of_scanBody _read)
  · have shorter := length_of_untilDoubled _found
    rw [List.length_tail] at shorter
    rw [List.length_cons]
    omega
  · exact Nat.lt_succ_self _

variable {quotes : List Letter} {bracket : Letter} {text rest : List Letter}

@[simp]
theorem lex_nil : lex quotes bracket [] = some [] := by
  rw [lex]

/-- Letters that are no quotes and no bracket are plain. -/
theorem lex_plain (plain : ∀ letter ∈ text, letter ∉ quotes ∧ letter ≠ bracket) :
    lex quotes bracket (text ++ rest) =
      (lex quotes bracket rest).map (text.map .plain ++ ·) := by
  induction text with
  | nil => simp
  | cons letter text ih =>
      obtain ⟨noQuote, noBracket⟩ := plain letter List.mem_cons_self
      rw [List.cons_append, lex, if_neg noQuote, if_neg (fun both => noBracket both.1),
        ih fun other member => plain other (List.mem_cons_of_mem _ member), Option.map_map]
      rfl

/-- A quoted text is one lexeme. -/
theorem lex_enquote {quote : Letter} (member : quote ∈ quotes) (apart : rest.head? ≠ some quote) :
    lex quotes bracket (enquote quote text ++ rest) =
      (lex quotes bracket rest).map (.quoted quote text :: ·) := by
  have read : scanBody quote (escape quote text ++ quote :: rest) = some (text, rest) :=
    scanBody_enquoted apart
  rw [enquote, List.cons_append, List.append_assoc, List.singleton_append, lex, if_pos member]
  split
  · rename_i unread
    cases unread.symm.trans read
  · rename_i found
    cases found.symm.trans read
    rfl

/-- A body ends at the first doubled bracket. -/
theorem lex_bracket (noQuote : bracket ∉ quotes) {body after : List Letter}
    (found : untilDoubled bracket rest = some (body, after)) :
    lex quotes bracket (bracket :: bracket :: rest) =
      (lex quotes bracket after).map (.body body :: ·) := by
  rw [lex, if_neg noQuote, if_pos ⟨rfl, rfl⟩]
  split
  · rename_i unread
    cases unread.symm.trans found
  · rename_i read
    cases read.symm.trans found
    rfl

end Boomerang.Foundation
