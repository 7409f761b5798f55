import Mathlib.Data.List.Induction

/-!
# Quoted text

A quoted text stands between two quotes with every quote in it doubled. A scanner takes it
back with one letter of lookahead. A second kind of quoting, between doubled letters, has
no escape: it ends at the first doubled letter.
-/

namespace Boomerang.Foundation

variable {Letter : Type} [DecidableEq Letter] {quote letter : Letter}
variable {text rest : List Letter}

/-- Double every quote. -/
def escape (quote : Letter) (text : List Letter) : List Letter :=
  text.flatMap fun letter => if letter = quote then [quote, letter] else [letter]

/-- A text between quotes. -/
def enquote (quote : Letter) (text : List Letter) : List Letter :=
  quote :: (escape quote text ++ [quote])

/-- Read on behind an opening quote: the text up to the closing one, and what follows. -/
def scanBody (quote : Letter) : List Letter → Option (List Letter × List Letter)
  | [] => none
  | letter :: rest =>
      if letter = quote then
        match rest with
        | [] => some ([], [])
        | next :: more =>
            if next = quote then
              (scanBody quote more).map fun (text, after) => (quote :: text, after)
            else some ([], next :: more)
      else (scanBody quote rest).map fun (text, after) => (letter :: text, after)

/-- Read a quoted text. -/
def scanQuoted (quote : Letter) : List Letter → Option (List Letter × List Letter)
  | [] => none
  | letter :: rest => if letter = quote then scanBody quote rest else none

section Escaping

@[simp]
theorem escape_nil : escape quote [] = [] := rfl

theorem escape_cons : escape quote (letter :: text) =
    (if letter = quote then [quote, letter] else [letter]) ++ escape quote text :=
  List.flatMap_cons

/-- An escaped text starts with the letter that the text starts with. -/
theorem head?_escape : (escape quote text).head? = text.head? := by
  cases text with
  | nil => rfl
  | cons letter text =>
      rw [escape_cons]
      split
      · rename_i same
        rw [same]
        rfl
      · rfl

theorem scanBody_other (other : letter ≠ quote) : scanBody quote (letter :: rest) =
    (scanBody quote rest).map fun (text, after) => (letter :: text, after) := by
  cases rest <;> simp [scanBody, other]

theorem scanBody_doubled : scanBody quote (quote :: quote :: rest) =
    (scanBody quote rest).map fun (text, after) => (quote :: text, after) := by
  simp [scanBody]

/-- Behind an opening quote, a quote that is not doubled ends the text. -/
theorem scanBody_quote (apart : rest.head? ≠ some quote) :
    scanBody quote (quote :: rest) = some ([], rest) := by
  cases rest with
  | nil => simp [scanBody]
  | cons next more =>
      rw [List.head?_cons, ne_eq, Option.some.injEq] at apart
      simp [scanBody, apart]

/-- Behind an opening quote, an escaped text is read as the text. -/
theorem scanBody_escape : scanBody quote (escape quote text ++ rest) =
    (scanBody quote rest).map fun (read, after) => (text ++ read, after) := by
  induction text with
  | nil => simp
  | cons letter text ih =>
      rw [escape_cons, List.append_assoc]
      split
      · rename_i same
        rw [same, List.cons_append, List.cons_append, List.nil_append, scanBody_doubled, ih,
          Option.map_map]
        rfl
      · rename_i other
        rw [List.cons_append, List.nil_append, scanBody_other other, ih, Option.map_map]
        rfl

theorem scanBody_enquoted (apart : rest.head? ≠ some quote) :
    scanBody quote (escape quote text ++ quote :: rest) = some (text, rest) := by
  rw [scanBody_escape, scanBody_quote apart, Option.map_some]
  dsimp only
  rw [List.append_nil]

/-- A quoted text is read back, and what follows it is left. -/
theorem scanQuoted_enquote (apart : rest.head? ≠ some quote) :
    scanQuoted quote (enquote quote text ++ rest) = some (text, rest) := by
  rw [enquote, List.cons_append, List.append_assoc, scanQuoted, if_pos rfl]
  exact scanBody_enquoted apart

/-- What follows a quoted text is shorter than the source. -/
theorem length_of_scanBody {source : List Letter}
    (read : scanBody quote source = some (text, rest)) : rest.length < source.length := by
  induction source using scanBody.induct quote generalizing text rest with
  | case1 => cases read
  | case2 =>
      rw [scanBody_quote (by simp)] at read
      cases read
      exact Nat.zero_lt_one
  | case3 more ih =>
      rw [scanBody_doubled] at read
      obtain ⟨⟨found, after⟩, there, same⟩ := Option.map_eq_some_iff.mp read
      cases same
      exact Nat.lt_succ_of_lt (Nat.lt_succ_of_lt (ih there))
  | case4 next more single =>
      rw [scanBody_quote (by simpa using single)] at read
      cases read
      exact Nat.lt_succ_self _
  | case5 letter more other ih =>
      rw [scanBody_other other] at read
      obtain ⟨⟨found, after⟩, there, same⟩ := Option.map_eq_some_iff.mp read
      cases same
      exact Nat.lt_succ_of_lt (ih there)

end Escaping

section Doubling

/-- A letter stands twice in a row. -/
def hasDoubled (letter : Letter) : List Letter → Bool
  | [] => false
  | first :: rest => (first = letter && rest.head? = some letter) || hasDoubled letter rest

/-- The text in front of the first doubled letter, and what follows it. -/
def untilDoubled (letter : Letter) : List Letter → Option (List Letter × List Letter)
  | [] => none
  | first :: rest =>
      if first = letter ∧ rest.head? = some letter then some ([], rest.tail)
      else (untilDoubled letter rest).map fun (before, after) => (first :: before, after)

theorem hasDoubled_cons {first : Letter} :
    hasDoubled letter (first :: rest) =
      ((decide (first = letter) && decide (rest.head? = some letter)) || hasDoubled letter rest) :=
  rfl

theorem hasDoubled_append {front back : List Letter} : hasDoubled letter (front ++ back) =
    (hasDoubled letter front || hasDoubled letter back ||
      (decide (front.getLast? = some letter) && decide (back.head? = some letter))) := by
  induction front with
  | nil => simp [hasDoubled]
  | cons first front ih =>
      rw [List.cons_append, hasDoubled_cons, hasDoubled_cons, ih]
      cases front with
      | nil => simp [hasDoubled, Bool.or_comm]
      | cons second front =>
          rw [List.getLast?_cons_cons, List.cons_append, List.head?_cons, List.head?_cons]
          simp only [Bool.or_assoc]

/-- Doubling the quotes doubles no other letter. -/
theorem hasDoubled_escape (other : letter ≠ quote) :
    hasDoubled letter (escape quote text) = hasDoubled letter text := by
  induction text with
  | nil => rfl
  | cons first text ih =>
      rw [escape_cons, hasDoubled_append, ih, head?_escape, hasDoubled_cons]
      split
      · rename_i same
        subst same
        simp [hasDoubled, Ne.symm other]
      · simp [hasDoubled, Bool.or_comm]

/-- A quoted text has a doubled letter where the text has one. -/
theorem hasDoubled_enquote (other : letter ≠ quote) :
    hasDoubled letter (enquote quote text) = hasDoubled letter text := by
  rw [enquote, hasDoubled_cons, hasDoubled_append, hasDoubled_escape other]
  simp [hasDoubled, Ne.symm other]

theorem untilDoubled_eq_none : untilDoubled letter text = none ↔
    hasDoubled letter text = false := by
  induction text with
  | nil => simp [untilDoubled, hasDoubled]
  | cons first text ih =>
      rw [untilDoubled, hasDoubled_cons]
      split
      · rename_i doubled
        simp [doubled.1, doubled.2]
      · rename_i single
        rw [Option.map_eq_none_iff, ih, Bool.or_eq_false_iff, Bool.and_eq_false_iff,
          decide_eq_false_iff_not, decide_eq_false_iff_not]
        exact ⟨fun rest => ⟨not_and_or.mp single, rest⟩, And.right⟩

/-- Where a text without a doubled letter is followed by one, the text is what stands in
front of the first. -/
theorem untilDoubled_append (single : hasDoubled letter text = false)
    (apart : text.getLast? ≠ some letter) :
    untilDoubled letter (text ++ letter :: letter :: rest) = some (text, rest) := by
  induction text with
  | nil => simp [untilDoubled]
  | cons first text ih =>
      rw [hasDoubled_cons, Bool.or_eq_false_iff, Bool.and_eq_false_iff, decide_eq_false_iff_not,
        decide_eq_false_iff_not] at single
      have notDoubled :
          ¬ (first = letter ∧ (text ++ letter :: letter :: rest).head? = some letter) := by
        rintro ⟨same, next⟩
        cases text with
        | nil => exact apart (by rw [same]; rfl)
        | cons second text => exact single.1.elim (· same) (· next)
      rw [List.cons_append, untilDoubled, if_neg notDoubled, ih single.2 ?_]
      · rfl
      · intro last
        cases text with
        | nil => cases last
        | cons second text => exact apart (by rw [List.getLast?_cons_cons, last])

/-- What is found in front of the first doubled letter has none, and the two of them
follow. -/
theorem untilDoubled_eq_some {before after : List Letter}
    (found : untilDoubled letter text = some (before, after)) :
    text = before ++ letter :: letter :: after ∧ hasDoubled letter before = false := by
  induction text generalizing before with
  | nil => cases found
  | cons first text ih =>
      rw [untilDoubled] at found
      split at found
      · rename_i doubled
        cases found
        cases text with
        | nil => cases doubled.2
        | cons second text =>
            cases doubled.2
            rw [doubled.1]
            exact ⟨rfl, rfl⟩
      · rename_i single
        obtain ⟨⟨front, behind⟩, there, same⟩ := Option.map_eq_some_iff.mp found
        cases same
        obtain ⟨split, fewer⟩ := ih there
        refine ⟨by rw [split]; rfl, ?_⟩
        rw [hasDoubled_cons, fewer, Bool.or_false, Bool.and_eq_false_iff, decide_eq_false_iff_not,
          decide_eq_false_iff_not]
        refine not_and_or.mp fun doubled => single ⟨doubled.1, ?_⟩
        rw [split, List.head?_append, doubled.2]
        rfl

end Doubling

section OpenQuotes

/-- The quote that is open behind a letter. -/
def openStep (quotes : List Letter) : Option Letter → Letter → Option Letter
  | none, letter => if letter ∈ quotes then some letter else none
  | some quote, letter => if letter = quote then none else some quote

/-- The quote that is open behind a text. -/
def openQuote (quotes : List Letter) (before : Option Letter) (text : List Letter) :
    Option Letter :=
  text.foldl (openStep quotes) before

variable {quotes : List Letter} {before : Option Letter}

theorem openQuote_append {front back : List Letter} : openQuote quotes before (front ++ back) =
    openQuote quotes (openQuote quotes before front) back :=
  List.foldl_append

/-- An escaped text leaves its quote open: a doubled quote closes and opens it. -/
theorem openQuote_escape (member : quote ∈ quotes) :
    openQuote quotes (some quote) (escape quote text) = some quote := by
  induction text with
  | nil => rfl
  | cons letter text ih =>
      have here : openQuote quotes (some quote)
          (if letter = quote then [quote, letter] else [letter]) = some quote := by
        split
        · rename_i same
          simp [openQuote, openStep, same, member]
        · rename_i other
          simp [openQuote, openStep, other]
      rw [escape_cons, openQuote_append, here, ih]

/-- A quoted text leaves no quote open. -/
theorem openQuote_enquote (member : quote ∈ quotes) :
    openQuote quotes none (enquote quote text) = none := by
  have opened : openQuote quotes none [quote] = some quote := by
    simp [openQuote, openStep, member]
  have closed : openQuote quotes (some quote) [quote] = none := by
    simp [openQuote, openStep]
  rw [enquote, ← List.singleton_append, openQuote_append, openQuote_append, opened,
    openQuote_escape member, closed]

end OpenQuotes

end Boomerang.Foundation
