import FilterQuery.Proofs.Text.Slices
import FilterQuery.Proofs.Token.Texts
import FilterQuery.Proofs.Token.Tiling

/-
  This file proves how texts are cut into lexemes that are
  put together from other texts.

  Key definitions include:
    * `FilterQuery.Lexeme.shift`
    * `FilterQuery.Lexing.shift`
    * `FilterQuery.Lexing.Free`
    * `FilterQuery.Lexing.enclose`

  Key theorems include:
    * `FilterQuery.Tiles.shift`
    * `FilterQuery.Tiles.append`
    * `FilterQuery.Tiles.spelled`
    * `FilterQuery.Tiles.parenthesized`
    * `FilterQuery.Lexing.ofString_parentheses`

  Where a text starts matters for the places of its lexemes
  only.  A text without failure is cut in the same way in
  front of what no token goes on with, such as a mark.
-/

------------------------------------------------------------
-- Places
------------------------------------------------------------

namespace FilterQuery

/- The lexeme a number of bytes later. -/
def Lexeme.shift (distance : Nat) (x : Lexeme) : Lexeme :=
  ⟨x.token, distance + x.start, distance + x.stop⟩

/- The failure a number of bytes later. -/
def LexFailure.shift
    (distance : Nat)
    (failure : LexFailure) :
    LexFailure :=
  ⟨distance + failure.position, failure.cause⟩

/- The lexing a number of bytes later. -/
def Lexing.shift
    (distance : Nat)
    (lexing : Lexing) :
    Lexing :=
  ⟨lexing.lexemes.map (Lexeme.shift distance),
    lexing.failure.map (LexFailure.shift distance)⟩

/-
  The place lies inside of no lexeme, and not behind the
  failure.
-/
def Lexing.Free (lexing : Lexing) (place : Nat) : Prop :=
  (∀ x ∈ lexing.lexemes, place ≤ x.start ∨ x.stop ≤ place) ∧
    ∀ failure ∈ lexing.failure, place ≤ failure.position

/-
  Lexemes of a query of that many bytes in parentheses, and
  the lexing of the text behind the parentheses.
-/
def Lexing.enclose
    (xs : List Lexeme)
    (size : Nat)
    (rest : Lexing) :
    Lexing :=
  let behind := rest.shift (1 + size + 1)
  ⟨⟨.openParen, 0, 1⟩ ::
      (xs.map (Lexeme.shift 1) ++
        ⟨.closeParen, 1 + size, 1 + size + 1⟩ ::
          behind.lexemes),
    behind.failure⟩

/- A text is cut in the same way wherever it starts. -/
theorem Tiles.shift
    {Reads : Char → List Char → Except LexError Scanned → Prop}
    {offset : Nat}
    {cs : List Char}
    {lexing : Lexing}
    (hTiles : Tiles Reads offset cs lexing)
    (distance : Nat) :
    Tiles Reads (distance + offset) cs
      (lexing.shift distance) := by
  induction hTiles with
  | finish hGap =>
      exact .finish hGap
  | @failure offset gap cs c cause hGap hStart hReads =>
      change
        Tiles Reads (distance + offset) (gap ++ c :: cs)
          ⟨[], some
            ⟨distance + (offset + Text.byteLength gap),
              cause⟩⟩
      rw [← Nat.add_assoc]
      exact .failure hGap hStart hReads
  | @lexeme offset gap cs c s lexing hGap hStart hReads _ ih =>
      change
        Tiles Reads (distance + offset) (gap ++ c :: cs)
          ⟨⟨s.token,
              distance + (offset + Text.byteLength gap),
              distance +
                (offset + Text.byteLength (gap ++ s.text))⟩ ::
              (lexing.shift distance).lexemes,
            (lexing.shift distance).failure⟩
      rw [← Nat.add_assoc] at ih
      rw [← Nat.add_assoc, ← Nat.add_assoc]
      exact .lexeme hGap hStart hReads ih

end FilterQuery

------------------------------------------------------------
-- Texts Behind Each Other
------------------------------------------------------------

namespace FilterQuery

namespace Tiles

variable {offset : Nat}
variable {cs : List Char}
variable {lexing : Lexing}

/- A gap in front of a text is skipped. -/
theorem gap_append
    {Reads : Char → List Char → Except LexError Scanned → Prop}
    {gap : List Char}
    (hGap : Text.GapOnly gap)
    (hTiles :
      Tiles Reads (offset + Text.byteLength gap) cs lexing) :
    Tiles Reads offset (gap ++ cs) lexing := by
  cases hTiles with
  | finish hMore =>
      exact .finish (List.forall_mem_append.mpr ⟨hGap, hMore⟩)
  | failure hMore hStart hReads =>
      have hBoth := List.forall_mem_append.mpr ⟨hGap, hMore⟩
      rw [Nat.add_assoc, ← Text.byteLength_append,
        ← List.append_assoc]
      exact .failure hBoth hStart hReads
  | lexeme hMore hStart hReads hRest =>
      have hBoth := List.forall_mem_append.mpr ⟨hGap, hMore⟩
      simp only [Nat.add_assoc, ← Text.byteLength_append,
        ← List.append_assoc] at hRest ⊢
      exact .lexeme hBoth hStart hReads hRest

/-
  A text without failure stands in front of another, if no
  token goes on with that.
-/
theorem append
    {more : List Char}
    {first : Lexing}
    (hTiles : Tiles Scanned.Scans offset cs first)
    (hNone : first.failure = none)
    (hStops : ∀ t : Token, t.Stops more)
    (hMore :
      Tiles Scanned.Scans (offset + Text.byteLength cs) more
        lexing) :
    Tiles Scanned.Scans offset (cs ++ more)
      ⟨first.lexemes ++ lexing.lexemes, lexing.failure⟩ := by
  induction hTiles with
  | finish hGap =>
      exact hMore.gap_append hGap
  | failure _ _ _ =>
      cases hNone
  | @lexeme offset gap cs c s first hGap hStart hScan _ ih =>
      have hLonger :
          Scanned.Scans c (cs ++ more)
            (.ok ⟨s.token, s.text, s.rest ++ more⟩) :=
        Scanned.ofChars_append hStart hScan fun _ =>
          hStops s.token
      rw [Scanned.eq_append_of_ofChars hScan,
        ← List.append_assoc, Text.byteLength_append,
        ← Nat.add_assoc] at hMore
      rw [List.append_assoc, List.cons_append]
      exact .lexeme hGap hStart hLonger (ih hNone hMore)

/-
  The text of a token is the first lexeme, if the token stops
  before the text behind it.
-/
theorem spelled
    {t : Token}
    {text : List Char}
    (hSpelled : t.Spelled text)
    (hStops : t.Stops cs)
    (hTiles :
      Tiles Scanned.Scans (offset + Text.byteLength text) cs
        lexing) :
    Tiles Scanned.Scans offset (text ++ cs)
      ⟨⟨t, offset, offset + Text.byteLength text⟩ ::
          lexing.lexemes,
        lexing.failure⟩ := by
  have hWhole : Scanned.Whole ⟨t, text, cs⟩ :=
    ⟨hSpelled, hStops⟩
  rcases hSpelled.start with ⟨c, ds, rfl, hStart⟩
  have hScan :
      Scanned.Scans c (ds ++ cs) (.ok ⟨t, c :: ds, cs⟩) :=
    hWhole.ofChars rfl
  exact .lexeme Text.gapOnly_nil hStart hScan hTiles

/- A mark in front of a text is a lexeme by itself. -/
theorem mark
    {m : Char}
    {t : Token}
    (hMark : Mark m t)
    (hTiles : Tiles Scanned.Scans (offset + 1) cs lexing) :
    Tiles Scanned.Scans offset (m :: cs)
      ⟨⟨t, offset, offset + 1⟩ :: lexing.lexemes,
        lexing.failure⟩ := by
  cases hMark with
  | openParen => exact spelled .openParen trivial hTiles
  | closeParen => exact spelled .closeParen trivial hTiles
  | semicolon => exact spelled .semicolon trivial hTiles
  | comma => exact spelled .comma trivial hTiles

/- An exclamation mark may stand before a parenthesis. -/
theorem bang
    (hTiles :
      Tiles Scanned.Scans (offset + 1) ('(' :: cs) lexing) :
    Tiles Scanned.Scans offset ('!' :: '(' :: cs)
      ⟨⟨.bang, offset, offset + 1⟩ :: lexing.lexemes,
        lexing.failure⟩ :=
  spelled .bang (Token.stops_mark .openParen cs .bang) hTiles

/- A mark separates a text without failure from another. -/
theorem separated
    {m : Char}
    {t : Token}
    {more : List Char}
    {first : Lexing}
    (hTiles : Tiles Scanned.Scans offset cs first)
    (hNone : first.failure = none)
    (hMark : Mark m t)
    (hMore :
      Tiles Scanned.Scans
        (offset + Text.byteLength cs + 1) more lexing) :
    Tiles Scanned.Scans offset (cs ++ m :: more)
      ⟨first.lexemes ++
          ⟨t, offset + Text.byteLength cs,
            offset + Text.byteLength cs + 1⟩ ::
            lexing.lexemes,
        lexing.failure⟩ :=
  hTiles.append hNone (Token.stops_mark hMark more)
    (hMore.mark hMark)

/-
  A text without failure in parentheses, in front of any
  text: the parentheses stand around its lexemes, and behind
  them the other text is cut as if it stood alone.
-/
theorem parenthesized
    {more : List Char}
    {first : Lexing}
    (hTiles : Tiles Scanned.Scans (offset + 1) cs first)
    (hNone : first.failure = none)
    (hMore :
      Tiles Scanned.Scans
        (offset + 1 + Text.byteLength cs + 1) more lexing) :
    Tiles Scanned.Scans offset ('(' :: (cs ++ ')' :: more))
      ⟨⟨.openParen, offset, offset + 1⟩ ::
          (first.lexemes ++
            ⟨.closeParen,
              offset + 1 + Text.byteLength cs,
              offset + 1 + Text.byteLength cs + 1⟩ ::
              lexing.lexemes),
        lexing.failure⟩ :=
  (hTiles.separated hNone .closeParen hMore).mark .openParen

end Tiles

/-
  The lexemes of a query without failure stay between the
  parentheses around it, whatever follows.
-/
theorem Lexing.ofString_parentheses
    {query : String}
    {xs : List Lexeme}
    (hTokenize : tokenize query = .ok xs)
    (rest : String) :
    ofString ("(" ++ query ++ ")" ++ rest) =
      enclose xs query.utf8ByteSize (ofString rest) := by
  have hChars :
      ("(" ++ query ++ ")" ++ rest).toList =
        '(' :: (query.toList ++ ')' :: rest.toList) := by
    simp
  have hQuery :=
    tiles_iff.mpr (tokenize_eq_ok_iff.mp hTokenize)
  have hRest :
      Tiles Scanned.Scans 0 rest.toList (ofString rest) :=
    tiles_iff.mpr rfl
  rw [← tiles_iff, hChars, ← Text.byteLength_toList]
  exact (hQuery.shift 1).parenthesized rfl (hRest.shift _)

end FilterQuery
