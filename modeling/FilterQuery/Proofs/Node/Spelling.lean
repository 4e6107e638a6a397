import FilterQuery.Node.Shape
import FilterQuery.Proofs.Token.Cutting

/-
  This file proves which tokens the text of a tree is cut
  into.

  Key definitions include:
    * `FilterQuery.Comparison.tokens`
    * `FilterQuery.Node.tokens`

  Key theorems include:
    * `FilterQuery.Comparison.piece`
    * `FilterQuery.Node.piece`

  Every part of a tree is a piece: between its own tokens
  nothing runs together, and behind it stands a separator, a
  closing parenthesis or the end of the text.
-/

------------------------------------------------------------
-- Tokens Of Trees
------------------------------------------------------------

namespace FilterQuery

namespace Comparison

/- The tokens that arguments are read as. -/
def argumentTokens : List String → List Token
| [argument] => [Text.valueToken argument]
| arguments =>
    .openParen ::
      (List.intercalate [.comma]
          (arguments.map fun value =>
            [Text.valueToken value]) ++
        [.closeParen])

/- The tokens that a comparison is read as. -/
def tokens (c : Comparison) : List Token :=
  Text.valueToken c.selector ::
    .operator c.operator.symbol :: argumentTokens c.arguments

end Comparison

namespace Connective

/- The tokens before the children of a connective. -/
def openingTokens : Connective → List Token
| .and => [.openParen]
| .or => [.openParen]
| .not => [.bang, .openParen]

/- The token of a connective. -/
def token : Connective → Token
| .and => .semicolon
| .or => .comma
| .not => .bang

end Connective

namespace Node

mutual

/- The tokens that a tree is read as. -/
def tokens : Node → List Token
| .comparison c => c.tokens
| .logical k children =>
    k.openingTokens ++
      (List.intercalate [k.token] (tokensList children) ++
        [.closeParen])

/- The tokens of each tree of a list. -/
def tokensList : List Node → List (List Token)
| [] => []
| n :: ns => n.tokens :: tokensList ns

end

/- The characters of a list are those of its trees. -/
theorem charsList_eq_map
    (ns : List Node) :
    charsList ns = ns.map chars := by
  induction ns with
  | nil =>
      rfl
  | cons n ns ih =>
      rw [charsList, ih, List.map_cons]

/- The tokens of a list are those of its trees. -/
theorem tokensList_eq_map
    (ns : List Node) :
    tokensList ns = ns.map tokens := by
  induction ns with
  | nil =>
      rfl
  | cons n ns ih =>
      rw [tokensList, ih, List.map_cons]

end Node

end FilterQuery

------------------------------------------------------------
-- Cutting The Text Of Trees
------------------------------------------------------------

namespace FilterQuery

/- Values in parentheses are a piece before anything. -/
theorem Cuts.values
    {values : List String}
    {rest : List Char}
    {us : List Token}
    (hSome : values ≠ [])
    (hRest : Cuts rest us) :
    Cuts
      ('(' ::
        (List.intercalate [','] (values.map Text.valueChars) ++
          ')' :: rest))
      (.openParen ::
        (List.intercalate [.comma]
            (values.map fun value =>
              [Text.valueToken value]) ++
          .closeParen :: us)) := by
  have hInside :=
    Piece.intercalate .comma hSome fun value _ =>
      Piece.value value
  exact hInside.parenthesized hRest

/- The text of arguments is a piece. -/
theorem Comparison.piece_arguments
    (arguments : List String) :
    Piece (argumentChars arguments)
      (argumentTokens arguments) := by
  rcases arguments with _ | ⟨a, _ | ⟨b, bs⟩⟩
  · intro rest us _ hRest
    exact (hRest.mark .closeParen).mark .openParen
  · exact Piece.value a
  · intro rest us _ hRest
    have hCuts := hRest.values (List.cons_ne_nil a (b :: bs))
    simpa [argumentChars, argumentTokens] using hCuts

/- Arguments do not start with an equal sign. -/
theorem Comparison.head_argumentChars
    (arguments : List String)
    (cs : List Char) :
    (argumentChars arguments ++ cs).head? ≠ some '=' := by
  rcases arguments with _ | ⟨a, _ | ⟨b, bs⟩⟩
  · intro hHead
    cases hHead
  · exact Text.head_valueChars a cs
  · intro hHead
    cases hHead

/- The text of a comparison is a piece. -/
theorem Comparison.piece
    (c : Comparison) :
    Piece c.chars c.tokens := by
  intro rest us hEnds hRest
  have hValid := c.operator.valid _ List.mem_cons_self
  have hArguments :=
    piece_arguments c.arguments rest us hEnds hRest
  have hNext := head_argumentChars c.arguments rest
  have hSymbol := hArguments.operator hValid hNext
  have hEnd :=
    (Symbol.spelling_of_isValid hValid).endsValue
      (argumentChars c.arguments ++ rest)
  have hWhole := hSymbol.value c.selector hEnd
  simpa [chars, tokens] using hWhole

namespace Node

/- The text of a well-formed tree is a piece. -/
theorem piece
    {n : Node}
    (hWhole : n.WellFormed) :
    Piece n.chars n.tokens := by
  induction n with
  | comparison c =>
      exact c.piece
  | logical k ns ih =>
      cases hWhole with
      | logical hSome hNot hChildren =>
          have hEach :
              ∀ n ∈ ns, Piece n.chars n.tokens :=
            fun n hn => ih n hn (hChildren n hn)
          intro rest us _ hRest
          rw [chars, tokens, charsList_eq_map,
            tokensList_eq_map]
          cases k with
          | and =>
              have hInside :=
                Piece.intercalate .semicolon hSome hEach
              have hGroup := hInside.parenthesized hRest
              simpa [Connective.opening, Connective.symbol,
                Connective.openingTokens, Connective.token]
                using hGroup
          | or =>
              have hInside :=
                Piece.intercalate .comma hSome hEach
              have hGroup := hInside.parenthesized hRest
              simpa [Connective.opening, Connective.symbol,
                Connective.openingTokens, Connective.token]
                using hGroup
          | not =>
              rcases List.length_eq_one_iff.mp (hNot rfl) with
                ⟨n, rfl⟩
              have hInside :=
                hEach n (List.mem_singleton.mpr rfl)
              have hGroup := hInside.parenthesized hRest
              simpa [Connective.opening,
                Connective.openingTokens] using hGroup.bang

end Node

end FilterQuery
