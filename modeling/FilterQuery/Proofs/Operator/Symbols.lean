import FilterQuery.Proofs.Node.Spelling
import FilterQuery.Proofs.Token.Joining
import FilterQuery.Proofs.Token.Lossless
import FilterQuery.Proofs.Token.Patterns
import Mathlib

/-
  This file proves that the symbols an operator may have are
  the symbols that a lexer reads.

  Key theorems include:
    * `FilterQuery.Lexing.ofString_eq_single_iff`
    * `FilterQuery.Comparison.tiles`
    * `FilterQuery.Symbol.read_as_valid`

  Symbols are checked when operators are configured, on a
  whole string, and read when a query is cut, from the front
  of a text.  The texts of tokens stand between the two: a
  token that stops before what follows it is the first lexeme
  there.
-/

------------------------------------------------------------
-- Queries Of One Token
------------------------------------------------------------

namespace FilterQuery

namespace Lexing

/- Every lexeme of a query is spelled by some text. -/
theorem spelled_of_mem
    {query : String}
    {x : Lexeme}
    (hMem : x ∈ (ofString query).lexemes) :
    ∃ text,
      Text.Slice query x.start x.stop text ∧
        x.token.Spelled text.toList := by
  have hTiles :
      Tiles Scanned.Scans 0 query.toList (ofString query) :=
    tiles_iff.mpr rfl
  have hAccounts :=
    hTiles.accounts (Text.Remains.start query)
  exact (hAccounts.lexemes x hMem).2

/- A query is one token exactly if it is its text. -/
theorem ofString_eq_single_iff
    {query : String}
    {t : Token} :
    ofString query =
        ⟨[⟨t, 0, query.utf8ByteSize⟩], none⟩ ↔
      t.Spelled query.toList := by
  constructor
  · intro hSingle
    have hMem :
        ⟨t, 0, query.utf8ByteSize⟩ ∈
          (ofString query).lexemes := by
      rw [hSingle]
      exact List.mem_singleton.mpr rfl
    rcases spelled_of_mem hMem with ⟨text, hSlice, hSpelled⟩
    rwa [hSlice.eq_of_whole] at hSpelled
  · intro hSpelled
    have hEnd :
        Tiles Scanned.Scans
          (0 + Text.byteLength query.toList) [] ⟨[], none⟩ :=
      .finish Text.gapOnly_nil
    have hTiles := Tiles.spelled hSpelled t.stops_nil hEnd
    rw [List.append_nil, Nat.zero_add, Text.byteLength_toList]
      at hTiles
    exact tiles_iff.mp hTiles

end Lexing

end FilterQuery

------------------------------------------------------------
-- Valid Symbols
------------------------------------------------------------

namespace FilterQuery

/- The valid symbols are those with one of the spellings. -/
theorem Symbol.isValid_iff_spelling
    {symbol : String} :
    isValid symbol = true ↔ Spelling symbol.toList := by
  constructor
  · intro hValid
    exact spelling_of_isValid hValid
  · intro hSpelling
    exact Bool.or_eq_true_iff.mpr
      (TokenKind.matches_operator_iff.mpr hSpelling)

/- An operator token is spelled by its own valid symbol. -/
theorem Token.spelled_operator_iff
    {symbol : String}
    {text : List Char} :
    (operator symbol).Spelled text ↔
      Symbol.isValid symbol = true ∧ text = symbol.toList := by
  rw [Symbol.isValid_iff_spelling]
  constructor
  · intro hSpelled
    cases hSpelled with
    | operator hSymbol =>
        rw [String.toList_ofList]
        exact ⟨hSymbol, rfl⟩
  · rintro ⟨hSymbol, rfl⟩
    have hSpelled := Spelled.operator hSymbol
    rwa [String.ofList_toList] at hSpelled

end FilterQuery

------------------------------------------------------------
-- Comparisons
------------------------------------------------------------

namespace FilterQuery

/- A written value is the text of its token. -/
theorem Text.spelled_valueToken
    (value : String) :
    (valueToken value).Spelled (valueChars value) := by
  unfold valueToken valueChars
  split
  · rename_i hUnreserved
    rcases isPlain_of_isUnreserved hUnreserved with
      ⟨hSome, hPlain⟩
    have hBare := Token.Spelled.bare hSome hPlain
    rwa [String.ofList_toList] at hBare
  · have hClosed :=
      Quoted.splitClosing_encode
        Quote.double.char_ne_backslash value.toList []
    have hBody := Quoted.body_of_splitClosing hClosed
    have hQuoted :=
      Token.Spelled.quoted
        (hBody.encodes
          (Quoted.decode_encode .double value.toList))
    rwa [String.ofList_toList] at hQuoted

/- A written value stops before a symbol. -/
theorem Text.valueToken_stops
    {rest : List Char}
    (hEnds : EndsValue rest)
    (value : String) :
    (valueToken value).Stops rest := by
  unfold valueToken
  split
  · exact hEnds
  · trivial

/-
  A written comparison is its selector, its symbol, and
  whatever its arguments are read as.
-/
theorem Comparison.tiles
    (c : Comparison) :
    ∃ xs,
      Tiles Scanned.Scans 0 c.chars
          ⟨⟨Text.valueToken c.selector, 0,
              Text.byteLength (Text.valueChars c.selector)⟩ ::
            ⟨.operator c.operator.symbol,
              Text.byteLength (Text.valueChars c.selector),
              Text.byteLength (Text.valueChars c.selector) +
                c.operator.symbol.utf8ByteSize⟩ :: xs, none⟩ ∧
        xs.map Lexeme.token = argumentTokens c.arguments := by
  have hValid := c.operator.valid _ List.mem_cons_self
  rcases (piece_arguments c.arguments).cuts.tiles
      (0 + Text.byteLength (Text.valueChars c.selector) +
        Text.byteLength c.operator.symbol.toList) with
    ⟨xs, hArguments, hTokens⟩
  -- No symbol goes on with what arguments start with, and no
  -- value goes on with a symbol.
  have hNext := head_argumentChars c.arguments []
  rw [List.append_nil] at hNext
  have hSymbol :=
    hArguments.spelled
      (Token.spelled_operator_iff.mpr ⟨hValid, rfl⟩)
      (fun _ => hNext)
  have hEnds :=
    (Symbol.spelling_of_isValid hValid).endsValue
      (argumentChars c.arguments)
  have hSelector :=
    hSymbol.spelled (Text.spelled_valueToken c.selector)
      (Text.valueToken_stops hEnds c.selector)
  refine ⟨xs, ?_, hTokens⟩
  rw [Text.byteLength_toList, Nat.zero_add] at hSelector
  rwa [chars, List.append_assoc]

end FilterQuery

------------------------------------------------------------
-- Symbols Of Operators And Symbols In Queries
------------------------------------------------------------

namespace FilterQuery

namespace Symbol

/-
  A string is a valid symbol exactly if it is read as that
  one operator, and exactly if it matches the pattern of
  operators.  So every operator in a query has a valid
  symbol, and the symbol of a written comparison is read back
  between its selector and its arguments.
-/
theorem read_as_valid :
    (∀ symbol,
        (isValid symbol = true ↔
            Lexing.ofString symbol =
              ⟨[⟨.operator symbol, 0, symbol.utf8ByteSize⟩],
                none⟩) ∧
          (isValid symbol = true ↔
            symbol.toList ∈ TokenKind.operator.pattern)) ∧
      (∀ query,
        ∀ x ∈ (Lexing.ofString query).lexemes,
          ∀ symbol,
            x.token = .operator symbol →
              isValid symbol = true) ∧
      ∀ c : Comparison,
        ∃ xs,
          Lexing.ofString c.render =
              ⟨⟨Text.valueToken c.selector, 0,
                  Text.byteLength
                    (Text.valueChars c.selector)⟩ ::
                ⟨.operator c.operator.symbol,
                  Text.byteLength
                    (Text.valueChars c.selector),
                  Text.byteLength
                      (Text.valueChars c.selector) +
                    c.operator.symbol.utf8ByteSize⟩ :: xs,
                none⟩ ∧
            xs.map Lexeme.token =
              Comparison.argumentTokens c.arguments := by
  refine ⟨?_, ?_, ?_⟩
  · intro symbol
    constructor
    · rw [Lexing.ofString_eq_single_iff,
        Token.spelled_operator_iff, and_iff_left rfl]
    · rw [isValid_iff_spelling,
        TokenKind.mem_pattern_operator_iff]
  · intro query x hx symbol hToken
    rcases Lexing.spelled_of_mem hx with ⟨text, _, hSpelled⟩
    rw [hToken, Token.spelled_operator_iff] at hSpelled
    exact hSpelled.1
  · intro c
    rcases c.tiles with ⟨xs, hTiles, hTokens⟩
    refine ⟨xs, ?_, hTokens⟩
    rw [← tiles_iff, Comparison.render, String.toList_ofList]
    exact hTiles

/-
  A lone bracket is a symbol in front of a quoted equal sign.
  No symbol has three equal signs.
-/
theorem read_as_valid_sample :
    (Lexing.ofString "é>'='").lexemes[1]? =
        some ⟨.operator ">", 2, 3⟩ ∧
      isValid ">" = true ∧
      isValid "=a=b=" = false := by
  have hLexing :
      Lexing.ofString "é>'='" =
        ⟨[⟨.bare "é", 0, 2⟩, ⟨.operator ">", 2, 3⟩,
            ⟨.quoted "=", 3, 6⟩], none⟩ := by
    cbv
  rw [hLexing]
  refine ⟨rfl, ?_, by decide⟩
  apply read_as_valid.2.1 "é>'='" ⟨.operator ">", 2, 3⟩ ?_ _ rfl
  rw [hLexing]
  decide

end Symbol

end FilterQuery
