import FilterQuery.Token.Scan

/-
  This file defines how a query is cut into lexemes.

  Key definitions include:
    * `FilterQuery.LexFailure`
    * `FilterQuery.Lexer`
    * `FilterQuery.Lexer.next`
    * `FilterQuery.Lexing`
    * `FilterQuery.Lexer.all`
    * `FilterQuery.Lexer.drain`
    * `FilterQuery.Lexing.ofString`

  A lexer is a place in a query.  Gap characters before a
  token are skipped.  The first piece that is no token ends
  the reading, and a lexer that has failed yields nothing
  more.
-/

------------------------------------------------------------
-- Lexers
------------------------------------------------------------

namespace FilterQuery

/- A piece of a query that is no token, and where it starts. -/
structure LexFailure where
  position : Nat
  cause : LexError
deriving DecidableEq, Repr

/- The characters still to be read and their byte offset. -/
structure Lexer where
  rest : List Char
  offset : Nat
deriving Repr

namespace Lexer

/- The lexer at the start of a query. -/
def ofString (query : String) : Lexer :=
  ⟨query.toList, 0⟩

/- The lexer at the next character that is no gap. -/
def skipGap (l : Lexer) : Lexer :=
  ⟨l.rest.dropWhile Text.isGap,
    l.offset + Text.byteLength (l.rest.takeWhile Text.isGap)⟩

/-
  The next lexeme or failure, if the query is not at its end,
  and the lexer after it.
-/
def next
    (l : Lexer) :
    Option (Except LexFailure Lexeme) × Lexer :=
  let start := l.skipGap.offset
  match l.skipGap.rest with
  | [] => (none, ⟨[], start⟩)
  | c :: cs =>
      match Scanned.ofChars c cs with
      | .error cause =>
          (some (.error ⟨start, cause⟩), ⟨[], start⟩)
      | .ok s =>
          let stop := start + Text.byteLength s.text
          (some (.ok ⟨s.token, start, stop⟩), ⟨s.rest, stop⟩)

/- Skipping gaps adds no text. -/
theorem length_rest_skipGap_le
    (l : Lexer) :
    l.skipGap.rest.length ≤ l.rest.length := by
  exact (List.dropWhile_sublist _).length_le

/- A lexer that yields a lexeme has less text after it. -/
theorem length_rest_of_next
    {l l' : Lexer}
    {x : Lexeme}
    (hNext : l.next = (some (.ok x), l')) :
    l'.rest.length < l.rest.length := by
  have hSkip := l.length_rest_skipGap_le
  unfold next at hNext
  split at hNext
  · simp at hNext
  · rename_i c cs hRest
    rw [hRest] at hSkip
    cases hRead : Scanned.ofChars c cs with
    | error cause =>
        simp [hRead] at hNext
    | ok s =>
        have hShort := Scanned.length_rest_of_ofChars hRead
        simp only [hRead, Prod.mk.injEq] at hNext
        rw [← hNext.2]
        exact Nat.lt_of_lt_of_le hShort hSkip

end Lexer

end FilterQuery

------------------------------------------------------------
-- Whole Queries
------------------------------------------------------------

namespace FilterQuery

/-
  All lexemes of a query up to its first failure, and the
  failure if there is one.
-/
structure Lexing where
  lexemes : List Lexeme
  failure : Option LexFailure
deriving DecidableEq, Repr

/- Everything that a lexer yields from its place on. -/
def Lexer.all (l : Lexer) : Lexing :=
  match _hNext : l.next with
  | (none, _) => ⟨[], none⟩
  | (some (.error failure), _) => ⟨[], some failure⟩
  | (some (.ok x), l') =>
      let lexing := l'.all
      { lexing with lexemes := x :: lexing.lexemes }
termination_by l.rest.length
decreasing_by exact Lexer.length_rest_of_next _hNext

/- The lexer after everything has been read. -/
def Lexer.drain (l : Lexer) : Lexer :=
  match _hNext : l.next with
  | (some (.ok _), l') => l'.drain
  | (_, l') => l'
termination_by l.rest.length
decreasing_by exact Lexer.length_rest_of_next _hNext

namespace Lexing

/- The lexing of a query. -/
def ofString (query : String) : Lexing :=
  (Lexer.ofString query).all

/- The lexemes of a query without failure. -/
def complete
    (lexing : Lexing) :
    Except LexFailure (List Lexeme) :=
  match lexing.failure with
  | none => .ok lexing.lexemes
  | some failure => .error failure

end Lexing

end FilterQuery
