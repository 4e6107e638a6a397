import FilterQuery.Proofs.Text.Slices
import FilterQuery.Proofs.Token.Texts
import FilterQuery.Proofs.Token.Tiling
import Mathlib

/-
  This file proves that cutting a query into lexemes loses
  nothing of it.

  Key definitions include:
    * `FilterQuery.Lexer.after`
    * `FilterQuery.Lexing.items`
    * `FilterQuery.Lexing.finish`
    * `FilterQuery.Lexing.spans`
    * `FilterQuery.Lexing.Accounts`

  Key theorems include:
    * `FilterQuery.Tiles.yields`
    * `FilterQuery.Tiles.accounts`
    * `FilterQuery.Lexing.lossless`

  A lexer yields the items of its lexing one after another.
  The spans of the lexemes and of the gaps around them follow
  each other without a hole, and their texts put together are
  the query up to the place where reading ends.
-/

------------------------------------------------------------
-- What A Lexer Yields
------------------------------------------------------------

namespace FilterQuery

/- The lexer after it was asked a number of times. -/
def Lexer.after : Nat → Lexer → Lexer
| 0, l => l
| count + 1, l => after count l.next.2

/- The lexemes, and the failure behind them if there is one. -/
def Lexing.items
    (lexing : Lexing) :
    List (Except LexFailure Lexeme) :=
  lexing.lexemes.map .ok ++ lexing.failure.toList.map .error

namespace Lexer

/- At the end of the text a lexer stays where it is. -/
theorem after_nil
    (offset : Nat)
    (count : Nat) :
    after count ⟨[], offset⟩ = ⟨[], offset⟩ := by
  induction count with
  | zero => rfl
  | succ count ih => exact ih

/- At the end of the text a lexer yields nothing. -/
theorem next_after_nil
    (offset : Nat)
    (count : Nat) :
    (after count ⟨[], offset⟩).next.1 = none := by
  rw [after_nil]
  rfl

end Lexer

/-
  A lexer yields the items of its lexing in order, and
  nothing after them, however often it is asked.
-/
theorem Tiles.yields
    {offset : Nat}
    {cs : List Char}
    {lexing : Lexing}
    (hTiles : Tiles Scanned.Scans offset cs lexing)
    (count : Nat) :
    (Lexer.after count ⟨cs, offset⟩).next.1 =
      lexing.items[count]? := by
  induction hTiles generalizing count with
  | @finish offset gap hGap =>
      have hNext := Lexer.next_gap hGap offset
      cases count with
      | zero =>
          exact congrArg Prod.fst hNext
      | succ count =>
          rw [Lexer.after, hNext, Lexer.next_after_nil]
          rfl
  | @failure offset gap cs c cause hGap hStart hScan =>
      have hNext :=
        Lexer.next_failure hGap hStart hScan offset
      cases count with
      | zero =>
          exact congrArg Prod.fst hNext
      | succ count =>
          rw [Lexer.after, hNext, Lexer.next_after_nil]
          rfl
  | @lexeme offset gap cs c s lexing hGap hStart hScan _ ih =>
      have hNext :=
        Lexer.next_lexeme hGap hStart hScan offset
      cases count with
      | zero =>
          exact congrArg Prod.fst hNext
      | succ count =>
          rw [Lexer.after, hNext]
          exact ih count

end FilterQuery

------------------------------------------------------------
-- Spans
------------------------------------------------------------

namespace FilterQuery

namespace Lexing

/- Where reading ends: at the failure, or with the query. -/
def finish (lexing : Lexing) (query : String) : Nat :=
  match lexing.failure with
  | none => query.utf8ByteSize
  | some failure => failure.position

/- The spans around and between lexemes. -/
def gapSpans
    (finish : Nat) :
    Nat → List Lexeme → List (Nat × Nat)
| start, [] => [(start, finish)]
| start, x :: xs =>
    (start, x.start) :: gapSpans finish x.stop xs

/- The spans of lexemes with the spans around and between. -/
def spans
    (finish : Nat) :
    Nat → List Lexeme → List (Nat × Nat)
| start, [] => [(start, finish)]
| start, x :: xs =>
    (start, x.start) :: (x.start, x.stop) ::
      spans finish x.stop xs

/-
  The lexing accounts for the query from a place on: every
  lexeme spans its own text, nothing but gaps is left over,
  and the texts of all spans make up what was read.
-/
structure Accounts
    (query : String)
    (start : Nat)
    (lexing : Lexing) : Prop where
  lexemes :
    ∀ x ∈ lexing.lexemes,
      x.start < x.stop ∧
        ∃ text,
          Text.Slice query x.start x.stop text ∧
            x.token.Spelled text.toList
  behind : ∀ x ∈ lexing.lexemes, start ≤ x.start
  ordered :
    lexing.lexemes.Pairwise fun x y => x.stop ≤ y.start
  gaps :
    ∀ span ∈
        gapSpans (lexing.finish query) start lexing.lexemes,
      ∃ gap,
        Text.Slice query span.1 span.2 gap ∧
          Text.GapOnly gap.toList
  rebuilt :
    ∃ texts,
      List.Forall₂
          (fun span => Text.Slice query span.1 span.2)
          (spans (lexing.finish query) start lexing.lexemes)
          texts ∧
        Text.Slice query start (lexing.finish query)
          (String.join texts)
  failure :
    ∀ failure ∈ lexing.failure,
      failure.position < query.utf8ByteSize

variable {query : String}
variable {start : Nat}

/- A gap up to the end of reading accounts for itself. -/
theorem accounts_gap
    {failure? : Option LexFailure}
    {gap : List Char}
    (hGap : Text.GapOnly gap)
    (hSlice :
      Text.Slice query start (finish ⟨[], failure?⟩ query)
        (String.ofList gap))
    (hFailure :
      ∀ failure ∈ failure?,
        failure.position < query.utf8ByteSize) :
    Accounts query start ⟨[], failure?⟩ where
  lexemes := List.forall_mem_nil _
  behind := List.forall_mem_nil _
  ordered := List.Pairwise.nil
  gaps := by
    refine List.forall_mem_singleton.mpr
      ⟨String.ofList gap, hSlice, ?_⟩
    rwa [String.toList_ofList]
  rebuilt := by
    refine ⟨[String.ofList gap], .cons hSlice .nil, ?_⟩
    simpa using hSlice
  failure := hFailure

/- A gap and a lexeme before a lexing account for themselves. -/
theorem Accounts.cons
    {lexing : Lexing}
    {x : Lexeme}
    {gap text : List Char}
    (hGap : Text.GapOnly gap)
    (hBefore :
      Text.Slice query start x.start (String.ofList gap))
    (hLexeme :
      Text.Slice query x.start x.stop (String.ofList text))
    (hSpelled : x.token.Spelled text)
    (hSome : x.start < x.stop)
    (hRest : Accounts query x.stop lexing) :
    Accounts query start
      ⟨x :: lexing.lexemes, lexing.failure⟩ where
  lexemes := by
    refine List.forall_mem_cons.mpr
      ⟨⟨hSome, String.ofList text, hLexeme, ?_⟩,
        hRest.lexemes⟩
    rwa [String.toList_ofList]
  behind := by
    refine List.forall_mem_cons.mpr ⟨hBefore.ordered, ?_⟩
    intro y hy
    have hBehind := hRest.behind y hy
    have hFirst := hBefore.ordered
    omega
  ordered := List.pairwise_cons.mpr
    ⟨hRest.behind, hRest.ordered⟩
  gaps := by
    refine List.forall_mem_cons.mpr
      ⟨⟨String.ofList gap, hBefore, ?_⟩, hRest.gaps⟩
    rwa [String.toList_ofList]
  rebuilt := by
    rcases hRest.rebuilt with ⟨texts, hTexts, hJoin⟩
    refine
      ⟨String.ofList gap :: String.ofList text :: texts,
        .cons hBefore (.cons hLexeme hTexts), ?_⟩
    rw [String.join_cons, String.join_cons]
    exact hBefore.append (hLexeme.append hJoin)
  failure := hRest.failure

end Lexing

/- Tiles of what remains of a query account for it. -/
theorem Tiles.accounts
    {query : String}
    {offset : Nat}
    {cs : List Char}
    {lexing : Lexing}
    (hTiles : Tiles Scanned.Scans offset cs lexing)
    (hRemains : Text.Remains query offset cs) :
    lexing.Accounts query offset := by
  induction hTiles with
  | @finish offset gap hGap =>
      rw [← List.append_nil gap] at hRemains
      have hFinish := hRemains.skip.eq_size
      refine Lexing.accounts_gap hGap ?_ nofun
      change Text.Slice query offset query.utf8ByteSize _
      rw [← hFinish]
      exact hRemains.slice
  | @failure offset gap cs c cause hGap hStart hScan =>
      refine Lexing.accounts_gap hGap hRemains.slice ?_
      rintro failure ⟨⟩
      exact hRemains.skip.lt_size
  | @lexeme offset gap cs c s lexing hGap hStart hScan _ ih =>
      have hWhole := Scanned.whole_of_ofChars hStart hScan
      have hAfter := hRemains.skip
      rw [Scanned.eq_append_of_ofChars hScan] at hAfter
      rw [Text.byteLength_append, ← Nat.add_assoc] at ih ⊢
      have hPos := hWhole.spelled.byteLength_pos
      exact .cons hGap hRemains.slice hAfter.slice
        hWhole.spelled (Nat.lt_add_of_pos_right hPos)
        (ih hAfter.skip)

end FilterQuery

------------------------------------------------------------
-- Nothing Is Lost Of A Query
------------------------------------------------------------

namespace FilterQuery

namespace Lexing

/- A lexing has no failure if none of its items is one. -/
theorem eq_complete_iff
    {lexing : Lexing}
    {xs : List Lexeme} :
    lexing = ⟨xs, none⟩ ↔
      (∀ failure, .error failure ∉ lexing.items) ∧
        lexing.lexemes = xs := by
  rcases lexing with ⟨ys, failure⟩
  cases failure <;> simp [items]

/-
  A lexer yields finitely many lexemes, then at most one
  failure, then nothing forever, and tokenizing succeeds
  exactly without a failure.  The lexemes account for the
  query, all of which is rebuilt if there is no failure.
-/
theorem lossless
    (query : String) :
    (∀ count,
        ((Lexer.ofString query).after count).next.1 =
          (ofString query).items[count]?) ∧
      (∀ xs,
        tokenize query = .ok xs ↔
          (∀ failure, .error failure ∉ (ofString query).items) ∧
            (ofString query).lexemes = xs) ∧
      (ofString query).Accounts query 0 ∧
      ((ofString query).failure = none →
        ∃ texts,
          List.Forall₂
              (fun span => Text.Slice query span.1 span.2)
              (spans query.utf8ByteSize 0
                (ofString query).lexemes)
              texts ∧
            String.join texts = query) := by
  have hTiles :
      Tiles Scanned.Scans 0 query.toList (ofString query) :=
    tiles_iff.mpr rfl
  have hAccounts :=
    hTiles.accounts (Text.Remains.start query)
  refine ⟨hTiles.yields, ?_, hAccounts, ?_⟩
  · intro xs
    rw [tokenize_eq_ok_iff, eq_complete_iff]
  · intro hNone
    rcases hAccounts.rebuilt with ⟨texts, hTexts, hJoin⟩
    simp only [finish, hNone] at hTexts hJoin
    exact ⟨texts, hTexts, hJoin.eq_of_whole⟩

/-
  The literal holds a quote and a backslash, each behind a
  backslash.  A gap precedes the semicolon, and the equal sign
  at the end is a failure.
-/
theorem lossless_sample :
    ((Lexer.ofString "é=='x\\'\\\\' ;=").after 4).next.1 =
        some (.error ⟨13, .unrecognizedInput⟩) ∧
      ((Lexer.ofString "é=='x\\'\\\\' ;=").after 5).next.1 =
        none ∧
      (∀ xs, tokenize "é=='x\\'\\\\' ;=" ≠ .ok xs) ∧
      ∃ text,
        Text.Slice "é=='x\\'\\\\' ;=" 4 11 text ∧
          (Token.quoted "x'\\").Spelled text.toList := by
  rcases lossless "é=='x\\'\\\\' ;=" with
    ⟨hYields, hTokenize, hAccounts, _⟩
  have hLexing :
      ofString "é=='x\\'\\\\' ;=" =
        ⟨[⟨.bare "é", 0, 2⟩, ⟨.operator "==", 2, 4⟩,
            ⟨.quoted "x'\\", 4, 11⟩, ⟨.semicolon, 12, 13⟩],
          some ⟨13, .unrecognizedInput⟩⟩ := by
    cbv
  rw [hLexing] at hYields hTokenize hAccounts
  refine ⟨hYields 4, hYields 5, ?_, ?_⟩
  · intro xs hOk
    exact ((hTokenize xs).mp hOk).1 _
      (List.mem_append_right _ (List.mem_singleton.mpr rfl))
  · exact (hAccounts.lexemes ⟨.quoted "x'\\", 4, 11⟩
      (by decide)).2

end Lexing

end FilterQuery
