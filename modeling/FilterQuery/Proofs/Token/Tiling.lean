import FilterQuery.Proofs.Token.Cutting
import FilterQuery.Query.Parse

/-
  This file proves that a lexer tiles a text: gaps and the
  texts of tokens follow each other until the text ends or
  no token can be read.

  Key definitions include:
    * `FilterQuery.Text.GapOnly`
    * `FilterQuery.Tiles`

  Key theorems include:
    * `FilterQuery.Text.gap_cases`
    * `FilterQuery.Cuts.tiles`
    * `FilterQuery.tiles_iff`
    * `FilterQuery.tokenize_eq_ok_iff`

  Facts about whole lexings are proved by induction on the
  tiles, without a look at how the lexer moves.
-/

------------------------------------------------------------
-- Gaps
------------------------------------------------------------

namespace FilterQuery

namespace Text

/- Text of characters that are skipped. -/
def GapOnly (cs : List Char) : Prop :=
  ∀ c ∈ cs, isGap c = true

/- No text is a gap. -/
theorem gapOnly_nil :
    GapOnly [] :=
  List.forall_mem_nil _

/- A text is a gap, or has a first character after a gap. -/
theorem gap_cases
    (cs : List Char) :
    GapOnly cs ∨
      ∃ gap c ds,
        cs = gap ++ c :: ds ∧
          GapOnly gap ∧ isGap c = false := by
  induction cs with
  | nil =>
      exact Or.inl gapOnly_nil
  | cons c cs ih =>
      cases hGap : isGap c with
      | false =>
          exact Or.inr
            ⟨[], c, cs, rfl, gapOnly_nil, hGap⟩
      | true =>
          rcases ih with hAll | ⟨gap, d, ds, rfl, hAll, hStart⟩
          · exact Or.inl
              (List.forall_mem_cons.mpr ⟨hGap, hAll⟩)
          · exact Or.inr
              ⟨c :: gap, d, ds, rfl,
                List.forall_mem_cons.mpr ⟨hGap, hAll⟩,
                hStart⟩

end Text

end FilterQuery

------------------------------------------------------------
-- Steps Of A Lexer
------------------------------------------------------------

namespace FilterQuery

namespace Lexer

variable {gap cs : List Char}
variable {c : Char}

/- A gap is skipped up to a character that is no gap. -/
theorem skipGap_append
    (hGap : Text.GapOnly gap)
    (hStart : ∀ d ∈ cs.head?, Text.isGap d = false)
    (offset : Nat) :
    skipGap ⟨gap ++ cs, offset⟩ =
      ⟨cs, offset + Text.byteLength gap⟩ := by
  unfold skipGap
  rw [Text.takeWhile_append hGap hStart,
    Text.dropWhile_append hGap hStart]

/- The same in front of a character that is no gap. -/
theorem skipGap_cons
    (hGap : Text.GapOnly gap)
    (hStart : Text.isGap c = false)
    (cs : List Char)
    (offset : Nat) :
    skipGap ⟨gap ++ c :: cs, offset⟩ =
      ⟨c :: cs, offset + Text.byteLength gap⟩ := by
  apply skipGap_append hGap
  intro d hd
  cases hd
  exact hStart

/- Behind a gap at the end of the text nothing comes. -/
theorem next_gap
    (hGap : Text.GapOnly gap)
    (offset : Nat) :
    next ⟨gap, offset⟩ =
      (none, ⟨[], offset + Text.byteLength gap⟩) := by
  have hSkip :
      skipGap ⟨gap, offset⟩ =
        ⟨[], offset + Text.byteLength gap⟩ := by
    have hEnd :
        ∀ d ∈ ([] : List Char).head?,
          Text.isGap d = false := by
      intro d hd
      cases hd
    have hAppend := skipGap_append hGap hEnd offset
    rwa [List.append_nil] at hAppend
  unfold next
  rw [hSkip]

/- Behind a gap, what is no token is a failure. -/
theorem next_failure
    {cause : LexError}
    (hGap : Text.GapOnly gap)
    (hStart : Text.isGap c = false)
    (hScan : Scanned.ofChars c cs = .error cause)
    (offset : Nat) :
    next ⟨gap ++ c :: cs, offset⟩ =
      (some (.error ⟨offset + Text.byteLength gap, cause⟩),
        ⟨[], offset + Text.byteLength gap⟩) := by
  unfold next
  rw [skipGap_cons hGap hStart]
  simp only [hScan]

/- Behind a gap, a token is a lexeme. -/
theorem next_lexeme
    {s : Scanned}
    (hGap : Text.GapOnly gap)
    (hStart : Text.isGap c = false)
    (hScan : Scanned.ofChars c cs = .ok s)
    (offset : Nat) :
    next ⟨gap ++ c :: cs, offset⟩ =
      (some
        (.ok
          ⟨s.token, offset + Text.byteLength gap,
            offset + Text.byteLength (gap ++ s.text)⟩),
        ⟨s.rest, offset + Text.byteLength (gap ++ s.text)⟩) := by
  unfold next
  rw [skipGap_cons hGap hStart]
  simp only [hScan, Text.byteLength_append, Nat.add_assoc]

/- At the end of the text nothing is left. -/
theorem all_of_none
    {l l' : Lexer}
    (hNext : l.next = (none, l')) :
    l.all = ⟨[], none⟩ := by
  rw [all]
  split
  · rfl
  · rename_i h
    rw [hNext] at h
    cases h
  · rename_i h
    rw [hNext] at h
    cases h

/- The next lexeme comes before all others. -/
theorem all_of_next
    {l l' : Lexer}
    {x : Lexeme}
    (hNext : l.next = (some (.ok x), l')) :
    l.all =
      { l'.all with lexemes := x :: l'.all.lexemes } := by
  rw [all]
  split
  · rename_i h
    rw [hNext] at h
    cases h
  · rename_i h
    rw [hNext] at h
    cases h
  · rename_i h
    rw [hNext] at h
    cases h
    rfl

/- A failure is all that a lexer yields. -/
theorem all_of_failure
    {l l' : Lexer}
    {failure : LexFailure}
    (hNext : l.next = (some (.error failure), l')) :
    l.all = ⟨[], some failure⟩ := by
  rw [all]
  split
  · rename_i h
    rw [hNext] at h
    cases h
  · rename_i h
    rw [hNext] at h
    cases h
    rfl
  · rename_i h
    rw [hNext] at h
    cases h

end Lexer

end FilterQuery

------------------------------------------------------------
-- Tiles
------------------------------------------------------------

namespace FilterQuery

/-
  A text is tiled from an offset on, by a way to read the
  token at the front of a text: a gap, the text of a token, a
  gap, and so on.  It ends with a gap, or with a gap and what
  is read as no token.
-/
inductive Tiles
    (Reads :
      Char → List Char → Except LexError Scanned → Prop) :
    Nat → List Char → Lexing → Prop
  | finish
      {offset : Nat}
      {gap : List Char}
      (hGap : Text.GapOnly gap) :
      Tiles Reads offset gap ⟨[], none⟩
  | failure
      {offset : Nat}
      {gap cs : List Char}
      {c : Char}
      {cause : LexError}
      (hGap : Text.GapOnly gap)
      (hStart : Text.isGap c = false)
      (hReads : Reads c cs (.error cause)) :
      Tiles Reads offset (gap ++ c :: cs)
        ⟨[], some ⟨offset + Text.byteLength gap, cause⟩⟩
  | lexeme
      {offset : Nat}
      {gap cs : List Char}
      {c : Char}
      {s : Scanned}
      {lexing : Lexing}
      (hGap : Text.GapOnly gap)
      (hStart : Text.isGap c = false)
      (hReads : Reads c cs (.ok s))
      (hRest :
        Tiles Reads (offset + Text.byteLength (gap ++ s.text))
          s.rest lexing) :
      Tiles Reads offset (gap ++ c :: cs)
        ⟨⟨s.token, offset + Text.byteLength gap,
            offset + Text.byteLength (gap ++ s.text)⟩ ::
            lexing.lexemes,
          lexing.failure⟩

/- The way a lexer reads the token at the front of a text. -/
def Scanned.Scans
    (c : Char)
    (cs : List Char)
    (result : Except LexError Scanned) : Prop :=
  ofChars c cs = result

variable {offset : Nat}
variable {cs : List Char}
variable {lexing : Lexing}

/- What is read in another way is tiled alike. -/
theorem Tiles.mono
    {Reads Reads' :
      Char → List Char → Except LexError Scanned → Prop}
    (hTiles : Tiles Reads offset cs lexing)
    (hMono :
      ∀ c cs result,
        Text.isGap c = false →
          Reads c cs result → Reads' c cs result) :
    Tiles Reads' offset cs lexing := by
  induction hTiles with
  | finish hGap =>
      exact .finish hGap
  | failure hGap hStart hReads =>
      exact .failure hGap hStart (hMono _ _ _ hStart hReads)
  | lexeme hGap hStart hReads _ ih =>
      exact .lexeme hGap hStart (hMono _ _ _ hStart hReads) ih

/- What a lexer yields tiles the text before it. -/
theorem tiles_all
    (cs : List Char)
    (offset : Nat) :
    Tiles Scanned.Scans offset cs
      (Lexer.all ⟨cs, offset⟩) := by
  rcases Text.gap_cases cs with
    hGap | ⟨gap, c, ds, hText, hGap, hStart⟩
  · rw [Lexer.all_of_none (Lexer.next_gap hGap offset)]
    exact .finish hGap
  · cases hScan : Scanned.ofChars c ds with
    | error cause =>
        rw [hText, Lexer.all_of_failure
          (Lexer.next_failure hGap hStart hScan offset)]
        exact .failure hGap hStart hScan
    | ok s =>
        -- Reading goes on behind the token, in less text.
        have hLess : s.rest.length < cs.length := by
          have hShort := Scanned.length_rest_of_ofChars hScan
          rw [hText, List.length_append]
          omega
        rw [hText, Lexer.all_of_next
          (Lexer.next_lexeme hGap hStart hScan offset)]
        exact .lexeme hGap hStart hScan (tiles_all s.rest _)
termination_by cs.length

/- Tiles of a text are what a lexer yields. -/
theorem Tiles.all_eq
    (hTiles : Tiles Scanned.Scans offset cs lexing) :
    Lexer.all ⟨cs, offset⟩ = lexing := by
  induction hTiles with
  | finish hGap =>
      exact Lexer.all_of_none (Lexer.next_gap hGap _)
  | failure hGap hStart hScan =>
      exact Lexer.all_of_failure
        (Lexer.next_failure hGap hStart hScan _)
  | lexeme hGap hStart hScan _ ih =>
      rw [Lexer.all_of_next
        (Lexer.next_lexeme hGap hStart hScan _), ih]

/- Text that is cut into tokens is tiled by them. -/
theorem Cuts.tiles
    {ts : List Token}
    (hCuts : Cuts cs ts)
    (offset : Nat) :
    ∃ xs,
      Tiles Scanned.Scans offset cs ⟨xs, none⟩ ∧
        xs.map Lexeme.token = ts := by
  induction hCuts generalizing offset with
  | nil =>
      exact ⟨[], .finish Text.gapOnly_nil, rfl⟩
  | cons hStart hScan _ ih =>
      rcases ih _ with ⟨xs, hTiles, rfl⟩
      exact ⟨_, .lexeme Text.gapOnly_nil hStart hScan hTiles,
        rfl⟩

/- There is one way to tile a query. -/
theorem tiles_iff
    {query : String} :
    Tiles Scanned.Scans 0 query.toList lexing ↔
      Lexing.ofString query = lexing := by
  constructor
  · intro hTiles
    exact hTiles.all_eq
  · rintro rfl
    exact tiles_all query.toList 0

/- Tokenizing succeeds for queries without failure. -/
theorem tokenize_eq_ok_iff
    {query : String}
    {xs : List Lexeme} :
    tokenize query = .ok xs ↔
      Lexing.ofString query = ⟨xs, none⟩ := by
  unfold tokenize Lexing.complete
  rcases Lexing.ofString query with ⟨ys, failure⟩
  cases failure with
  | none =>
      change Except.ok ys = Except.ok xs ↔ _
      rw [Except.ok.injEq, Lexing.mk.injEq, eq_self, and_true]
  | some failure =>
      exact ⟨nofun, nofun⟩

end FilterQuery
