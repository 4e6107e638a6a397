import FilterQuery.Proofs.Token.Joining
import FilterQuery.Proofs.Token.Lossless
import Mathlib

/-
  This file proves that the lexing of a query can be cut at
  every place inside of no lexeme, and at no other.

  Key definitions include:
    * `FilterQuery.Lexing.behind`
    * `FilterQuery.Lexing.Joins`

  Key theorems include:
    * `FilterQuery.Tiles.joins`
    * `FilterQuery.Tiles.before_failure`
    * `FilterQuery.Lexing.free_iff_of_splits`
    * `FilterQuery.Lexing.splits_between_lexemes`

  A token that stops before a text stops before any front of
  that text, also before an empty one.  So the lexemes in
  front of a cut stay as they are if the query ends there, and
  a lexer that starts at the cut yields all others.
-/

------------------------------------------------------------
-- Fronts Of A Text
------------------------------------------------------------

namespace FilterQuery

/- Of two fronts of one text, the shorter starts the longer. -/
theorem Text.exists_append_of_byteLength_le
    {as bs cs ds : List Char}
    (hText : as ++ bs = cs ++ ds)
    (hShort : byteLength as ≤ byteLength cs) :
    ∃ es, cs = as ++ es ∧ bs = es ++ ds := by
  rcases List.append_eq_append_iff.mp hText with
    hLonger | ⟨es, rfl, rfl⟩
  · exact hLonger
  · -- What is left over takes up no bytes.
    have hSize := length_le_byteLength es
    rw [byteLength_append] at hShort
    have hNil : es = [] :=
      List.eq_nil_of_length_eq_zero (by omega)
    subst hNil
    exact ⟨[], by simp, rfl⟩

/- A token is read whole in front of less text. -/
theorem Scanned.Whole.front
    {t : Token}
    {text front back : List Char}
    (hWhole : Whole ⟨t, text, front ++ back⟩) :
    Whole ⟨t, text, front⟩ :=
  ⟨hWhole.spelled, hWhole.stops.of_append⟩

namespace Tiles

variable {offset : Nat}
variable {gap cs : List Char}
variable {lexing : Lexing}

/- A gap in front of a text changes nothing but places. -/
theorem gap_append_iff
    (hGap : Text.GapOnly gap) :
    Tiles Scanned.Scans offset (gap ++ cs) lexing ↔
      Tiles Scanned.Scans (offset + Text.byteLength gap) cs
        lexing := by
  constructor
  · intro hTiles
    have hBehind := tiles_all cs (offset + Text.byteLength gap)
    have hSame := (hBehind.gap_append hGap).all_eq
    rw [hTiles.all_eq] at hSame
    rwa [← hSame] at hBehind
  · exact gap_append hGap

/- A token behind a gap is the first lexeme. -/
theorem whole
    {t : Token}
    {text : List Char}
    (hGap : Text.GapOnly gap)
    (hWhole : Scanned.Whole ⟨t, text, cs⟩)
    (hTiles :
      Tiles Scanned.Scans
        (offset + Text.byteLength gap + Text.byteLength text)
        cs lexing) :
    Tiles Scanned.Scans offset (gap ++ (text ++ cs))
      ⟨⟨t, offset + Text.byteLength gap,
          offset + Text.byteLength gap +
            Text.byteLength text⟩ ::
          lexing.lexemes,
        lexing.failure⟩ :=
  gap_append hGap
    (spelled hWhole.spelled hWhole.stops hTiles)

end Tiles

end FilterQuery

------------------------------------------------------------
-- Cuts In A Text
------------------------------------------------------------

namespace FilterQuery

/-
  The lexing is that of two texts behind each other: the front
  has no failure, and all that the back yields comes behind
  the lexemes of the front.
-/
def Lexing.Joins
    (lexing : Lexing)
    (offset : Nat)
    (front back : List Char) : Prop :=
  ∃ xs rest,
    Tiles Scanned.Scans offset front ⟨xs, none⟩ ∧
      Tiles Scanned.Scans (offset + Text.byteLength front)
        back rest ∧
        lexing = ⟨xs ++ rest.lexemes, rest.failure⟩

variable {offset : Nat}
variable {front back cs : List Char}
variable {lexing : Lexing}

/- A text can be cut in a gap that it starts with. -/
theorem Tiles.joins_gap
    {gap : List Char}
    (hTiles : Tiles Scanned.Scans offset (gap ++ cs) lexing)
    (hText : front ++ back = gap ++ cs)
    (hGap : Text.GapOnly gap)
    (hShort : Text.byteLength front ≤ Text.byteLength gap) :
    lexing.Joins offset front back := by
  rcases Text.exists_append_of_byteLength_le hText hShort with
    ⟨more, rfl, _⟩
  have hFront : Text.GapOnly front :=
    (List.forall_mem_append.mp hGap).1
  rw [← hText] at hTiles
  exact
    ⟨[], lexing, .finish hFront,
      (gap_append_iff hFront).mp hTiles, rfl⟩

/- A cut behind a token leaves the token in front. -/
theorem Lexing.Joins.lexeme
    {gap text : List Char}
    {t : Token}
    (hJoins :
      lexing.Joins
        (offset + Text.byteLength gap + Text.byteLength text)
        front back)
    (hGap : Text.GapOnly gap)
    (hWhole : Scanned.Whole ⟨t, text, front ++ back⟩) :
    Joins
      ⟨⟨t, offset + Text.byteLength gap,
          offset + Text.byteLength gap +
            Text.byteLength text⟩ ::
          lexing.lexemes,
        lexing.failure⟩
      offset (gap ++ (text ++ front)) back := by
  rcases hJoins with ⟨xs, rest, hFront, hBack, rfl⟩
  refine
    ⟨_, rest, hFront.whole hGap hWhole.front, ?_, rfl⟩
  rw [Text.byteLength_append, Text.byteLength_append,
    ← Nat.add_assoc, ← Nat.add_assoc]
  exact hBack

/- A text can be cut at a free place. -/
theorem Tiles.joins
    (hTiles :
      Tiles Scanned.Scans offset (front ++ back) lexing)
    (hFree :
      lexing.Free (offset + Text.byteLength front)) :
    lexing.Joins offset front back := by
  -- The induction is on the tiles; the front loses one each.
  generalize hText : front ++ back = cs at hTiles
  induction hTiles generalizing front with
  | finish hGap =>
      subst hText
      rcases List.forall_mem_append.mp hGap with
        ⟨hFront, hBack⟩
      exact ⟨[], _, .finish hFront, .finish hBack, rfl⟩
  | @failure offset gap cs c cause hGap hStart hScan =>
      have hPlace := hFree.2 _ rfl
      have hShort :
          Text.byteLength front ≤ Text.byteLength gap := by
        simpa using hPlace
      have hTile :
          Tiles Scanned.Scans offset (gap ++ c :: cs) _ :=
        .failure hGap hStart hScan
      exact hTile.joins_gap hText hGap hShort
  | @lexeme offset gap cs c s lexing hGap hStart hScan hRest ih =>
      have hWhole := Scanned.whole_of_ofChars hStart hScan
      -- The cut is in the gap, or behind the whole token.
      rcases hFree.1 _ List.mem_cons_self with
        hBefore | hBehind
      · have hShort :
            Text.byteLength front ≤ Text.byteLength gap := by
          simpa using hBefore
        have hTile :
            Tiles Scanned.Scans offset (gap ++ c :: cs) _ :=
          .lexeme hGap hStart hScan hRest
        exact hTile.joins_gap hText hGap hShort
      · have hLong :
            Text.byteLength (gap ++ s.text) ≤
              Text.byteLength front := by
          simpa using hBehind
        rw [Scanned.eq_append_of_ofChars hScan,
          ← List.append_assoc] at hText
        rcases Text.exists_append_of_byteLength_le
            hText.symm hLong with
          ⟨more, rfl, hMore⟩
        rcases s with ⟨t, text, rest⟩
        subst hMore
        simp only [Text.byteLength_append, ← Nat.add_assoc]
          at ih hFree ⊢
        have hJoins :=
          ih ⟨(List.forall_mem_cons.mp hFree.1).2, hFree.2⟩
            rfl
        rw [List.append_assoc]
        exact hJoins.lexeme hGap hWhole

/- The text before a failure has all lexemes and no failure. -/
theorem Tiles.before_failure
    {failure : LexFailure}
    (hTiles : Tiles Scanned.Scans offset cs lexing)
    (hFailure : lexing.failure = some failure) :
    ∃ front back,
      cs = front ++ back ∧
        offset + Text.byteLength front = failure.position ∧
          Tiles Scanned.Scans offset front
            ⟨lexing.lexemes, none⟩ := by
  induction hTiles with
  | finish _ =>
      cases hFailure
  | @failure offset gap cs c cause hGap _ _ =>
      cases hFailure
      exact ⟨gap, c :: cs, rfl, rfl, .finish hGap⟩
  | @lexeme offset gap cs c s lexing hGap hStart hScan _ ih =>
      have hWhole := Scanned.whole_of_ofChars hStart hScan
      rcases ih hFailure with
        ⟨front, back, hText, hPlace, hFront⟩
      rcases s with ⟨t, text, rest⟩
      subst hText
      simp only [Text.byteLength_append, ← Nat.add_assoc]
        at hPlace hFront ⊢
      refine
        ⟨gap ++ (text ++ front), back, ?_, ?_,
          hFront.whole hGap hWhole.front⟩
      · rw [Scanned.eq_append_of_ofChars hScan,
          List.append_assoc, List.append_assoc]
      · rw [Text.byteLength_append, Text.byteLength_append,
          ← Nat.add_assoc, ← Nat.add_assoc]
        exact hPlace

end FilterQuery

------------------------------------------------------------
-- Cuts In A Query
------------------------------------------------------------

namespace FilterQuery

namespace Lexing

/-
  The lexemes, and behind them the lexing of a text that
  starts at the place.
-/
def behind
    (xs : List Lexeme)
    (place : Nat)
    (rest : Lexing) :
    Lexing :=
  let later := rest.shift place
  ⟨xs ++ later.lexemes, later.failure⟩

/- The lexemes of a text without failure end with the text. -/
theorem stop_le_of_tokenize
    {query : String}
    {xs : List Lexeme}
    (hTokenize : tokenize query = .ok xs) :
    ∀ x ∈ xs, x.stop ≤ query.utf8ByteSize := by
  intro x hx
  have hTiles :=
    tiles_iff.mpr (tokenize_eq_ok_iff.mp hTokenize)
  have hAccounts := hTiles.accounts (Text.Remains.start query)
  rcases (hAccounts.lexemes x hx).2 with ⟨text, hSlice, _⟩
  exact hSlice.stop_le

/- The end of lexemes is free if what follows starts there. -/
theorem free_behind
    {xs : List Lexeme}
    {place : Nat}
    (hStop : ∀ x ∈ xs, x.stop ≤ place)
    (rest : Lexing) :
    (behind xs place rest).Free place := by
  constructor
  · intro x hx
    rcases List.mem_append.mp hx with hFirst | hLater
    · exact Or.inr (hStop x hFirst)
    · rcases List.mem_map.mp hLater with ⟨y, _, rfl⟩
      exact Or.inl (Nat.le_add_right _ _)
  · intro failure hFailure
    rcases Option.map_eq_some_iff.mp hFailure with ⟨_, _, rfl⟩
    exact Nat.le_add_right _ _

/-
  A place of a query is free exactly if the text before it has
  no failure, and the lexing of the query is that of the text
  behind it, behind the lexemes of the text before it.
-/
theorem free_iff_of_splits
    {query front back : String}
    {place : query.Pos}
    (hSplits : place.Splits front back) :
    (ofString query).Free place.offset.byteIdx ↔
      ∃ xs,
        tokenize front = .ok xs ∧
          ofString query =
            (ofString back).behind xs place.offset.byteIdx := by
  have hPlace :
      place.offset.byteIdx = Text.byteLength front.toList := by
    rw [hSplits.offset_eq_rawEndPos,
      String.byteIdx_rawEndPos, Text.byteLength_toList]
  constructor
  · intro hFree
    have hTiles :
        Tiles Scanned.Scans 0 (front.toList ++ back.toList)
          (ofString query) := by
      rw [← String.toList_append, ← hSplits.eq_append]
      exact tiles_iff.mpr rfl
    rw [hPlace] at hFree ⊢
    rw [← Nat.zero_add (Text.byteLength _)] at hFree
    rcases hTiles.joins hFree with
      ⟨xs, rest, hFront, hBack, hJoin⟩
    have hAlone :
        Tiles Scanned.Scans 0 back.toList (ofString back) :=
      tiles_iff.mpr rfl
    have hRest :
        rest =
          (ofString back).shift
            (Text.byteLength front.toList) := by
      rw [Nat.zero_add] at hBack
      rw [← hBack.all_eq]
      exact (hAlone.shift _).all_eq
    subst hRest
    exact
      ⟨xs, tokenize_eq_ok_iff.mpr (tiles_iff.mp hFront), hJoin⟩
  · rintro ⟨xs, hTokenize, hJoin⟩
    rw [hJoin, hPlace]
    apply free_behind
    rw [Text.byteLength_toList]
    exact stop_le_of_tokenize hTokenize

/- The text before a failure has all lexemes of the query. -/
theorem tokenize_before_failure
    {query : String}
    {failure : LexFailure}
    (hFailure : (ofString query).failure = some failure) :
    ∃ place : query.Pos,
      place.offset.byteIdx = failure.position ∧
        tokenize (query.sliceTo place).copy =
          .ok (ofString query).lexemes := by
  have hTiles :
      Tiles Scanned.Scans 0 query.toList (ofString query) :=
    tiles_iff.mpr rfl
  rcases hTiles.before_failure hFailure with
    ⟨front, back, hText, hPlace, hFront⟩
  rcases Text.exists_splits hText with ⟨place, hSplits⟩
  refine ⟨place, ?_, ?_⟩
  · rw [← hPlace, hSplits.offset_eq_rawEndPos,
      String.byteIdx_rawEndPos, Text.utf8ByteSize_ofList,
      Nat.zero_add]
  · rw [place.splits.eq_left hSplits, tokenize_eq_ok_iff,
      ← tiles_iff, String.toList_ofList]
    exact hFront

/-
  The lexing of a query can be cut at a place exactly if the
  place lies inside of no lexeme and not behind the failure:
  the text before it has no failure, and behind its lexemes
  the text from there on is cut as if it stood alone.  The
  text before the failure has all lexemes of the query.
-/
theorem splits_between_lexemes
    (query : String) :
    (∀ place : query.Pos,
        (ofString query).Free place.offset.byteIdx ↔
          ∃ xs,
            tokenize (query.sliceTo place).copy = .ok xs ∧
              ofString query =
                (ofString (query.sliceFrom place).copy).behind
                  xs place.offset.byteIdx) ∧
      ∀ failure,
        (ofString query).failure = some failure →
          ∃ place : query.Pos,
            place.offset.byteIdx = failure.position ∧
              tokenize (query.sliceTo place).copy =
                .ok (ofString query).lexemes := by
  constructor
  · intro place
    exact free_iff_of_splits place.splits
  · intro failure hFailure
    exact tokenize_before_failure hFailure

/-
  The cut at 7 is inside of a gap, behind a character of two
  bytes.  At 2, inside of a bare value, no cut is possible,
  though the front by itself is cut without failure.
-/
theorem splits_between_lexemes_sample :
    (∃ place : String.Pos "é2==1  ;=;b",
        place.Splits "é2==1 " " ;=;b" ∧
          (ofString "é2==1  ;=;b").Free 7 ∧
            ∃ xs,
              tokenize "é2==1 " = .ok xs ∧
                ofString "é2==1  ;=;b" =
                  (ofString " ;=;b").behind xs 7) ∧
      (∃ place : String.Pos "é2==1  ;=;b",
        place.Splits "é" "2==1  ;=;b" ∧
          ¬ (ofString "é2==1  ;=;b").Free 2 ∧
            ¬ ∃ xs,
                tokenize "é" = .ok xs ∧
                  ofString "é2==1  ;=;b" =
                    (ofString "2==1  ;=;b").behind xs 2) ∧
        (ofString "é2==1  ;=;b").failure =
            some ⟨9, .unrecognizedInput⟩ ∧
          ∃ place : String.Pos "é2==1  ;=;b",
            place.offset.byteIdx = 9 ∧
              tokenize
                  (String.sliceTo "é2==1  ;=;b" place).copy =
                .ok (ofString "é2==1  ;=;b").lexemes := by
  rcases splits_between_lexemes "é2==1  ;=;b" with
    ⟨hPlaces, hBefore⟩
  have hLexing :
      ofString "é2==1  ;=;b" =
        ⟨[⟨.bare "é2", 0, 3⟩, ⟨.operator "==", 3, 5⟩,
            ⟨.bare "1", 5, 6⟩, ⟨.semicolon, 8, 9⟩],
          some ⟨9, .unrecognizedInput⟩⟩ := by
    cbv
  have hFailure :
      (ofString "é2==1  ;=;b").failure =
        some ⟨9, .unrecognizedInput⟩ :=
    congrArg failure hLexing
  have hFree : (ofString "é2==1  ;=;b").Free 7 := by
    rw [hLexing]
    unfold Free
    decide
  have hInside : ¬ (ofString "é2==1  ;=;b").Free 2 := by
    rw [hLexing]
    unfold Free
    decide
  have hGap :
      ∃ place : String.Pos "é2==1  ;=;b",
        place.Splits "é2==1 " " ;=;b" :=
    ⟨⟨⟨7⟩, by decide⟩, by decide, rfl⟩
  have hValue :
      ∃ place : String.Pos "é2==1  ;=;b",
        place.Splits "é" "2==1  ;=;b" :=
    ⟨⟨⟨2⟩, by decide⟩, by decide, rfl⟩
  rcases hGap with ⟨between, hBetween⟩
  rcases hValue with ⟨inside, hWithin⟩
  have hCut := hPlaces between
  have hNoCut := hPlaces inside
  rw [between.splits.eq_left hBetween,
    between.splits.eq_right hBetween,
    hBetween.offset_eq_rawEndPos] at hCut
  rw [inside.splits.eq_left hWithin,
    inside.splits.eq_right hWithin,
    hWithin.offset_eq_rawEndPos] at hNoCut
  exact
    ⟨⟨between, hBetween, hFree, hCut.mp hFree⟩,
      ⟨inside, hWithin, hInside, mt hNoCut.mpr hInside⟩,
      hFailure, hBefore _ hFailure⟩

end Lexing

end FilterQuery
