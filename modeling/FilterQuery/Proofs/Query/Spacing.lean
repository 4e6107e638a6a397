import FilterQuery.Proofs.Query.Renaming
import FilterQuery.Proofs.Query.Stopping
import FilterQuery.Proofs.Token.Joining
import Mathlib

/-
  This file proves that gaps between the tokens of a query
  make no difference but to places.

  Key definitions include:
    * `FilterQuery.Spacing`
    * `FilterQuery.Spacing.fill`
    * `FilterQuery.Spacing.added`
    * `FilterQuery.Spacing.lexing`
    * `FilterQuery.Spacing.FitsFrom`
    * `FilterQuery.ParseError.move`

  Key theorems include:
    * `FilterQuery.Tiles.fill`
    * `FilterQuery.Registry.parseLexemes_move`
    * `FilterQuery.Registry.parse_spaced`

  Gaps are put in at byte offsets of the query, as many as
  one likes, where no token is cut apart.  A token stops in
  front of every gap, so it is read as before, and everything
  behind a gap starts later by the size of the gap.
-/

------------------------------------------------------------
-- Gaps To Be Put In
------------------------------------------------------------

namespace FilterQuery

/- A gap, or nothing, for each byte offset of a query. -/
structure Spacing where
  gap : Nat → List Char
  gapOnly : ∀ place, Text.GapOnly (gap place)

namespace Spacing

variable (σ : Spacing)

/- The text from a place on, with the gaps put in. -/
def fill : Nat → List Char → List Char
| place, [] => σ.gap place
| place, c :: cs =>
    σ.gap place ++ c :: fill (place + c.utf8Size) cs

/- The query with the gaps put in. -/
def query (query : String) : String :=
  String.ofList (σ.fill 0 query.toList)

/- How many bytes are put in in front of a place. -/
def added : Nat → Nat
| 0 => 0
| place + 1 => added place + Text.byteLength (σ.gap place)

/- The new place of what starts at the place. -/
def start (place : Nat) : Nat :=
  σ.added (place + 1) + place

/- The lexeme, later by what is put in up to its start. -/
def lexeme (x : Lexeme) : Lexeme :=
  x.shift (σ.added (x.start + 1))

/- The failure, later by what is put in up to its place. -/
def failure (failure : LexFailure) : LexFailure :=
  failure.shift (σ.added (failure.position + 1))

/- The lexing with the gaps put in. -/
def lexing (lexing : Lexing) : Lexing :=
  ⟨lexing.lexemes.map σ.lexeme, lexing.failure.map σ.failure⟩

end Spacing

/- From an offset on, gaps are put in at free places only. -/
def Spacing.FitsFrom
    (σ : Spacing)
    (offset : Nat)
    (lexing : Lexing) : Prop :=
  ∀ place,
    offset ≤ place → σ.gap place ≠ [] → lexing.Free place

end FilterQuery

------------------------------------------------------------
-- Texts With Gaps
------------------------------------------------------------

namespace FilterQuery

/- Every gap character takes one byte. -/
theorem Text.utf8Size_of_isGap
    {c : Char}
    (hGap : isGap c = true) :
    c.utf8Size = 1 := by
  have hMem : c ∈ gaps := by
    simpa [isGap] using hGap
  simp only [gaps, List.mem_cons, List.not_mem_nil,
    or_false] at hMem
  rcases hMem with rfl | rfl | rfl | rfl | rfl <;> rfl

/- Every token stops in front of a gap. -/
theorem Token.stops_gap
    {g : Char}
    (hGap : Text.isGap g = true)
    (rest : List Char)
    (t : Token) :
    t.Stops (g :: rest) := by
  apply stops_of_head
  · intro hHead
    cases hHead
    cases hGap
  · intro c hc
    cases hc
    simp [Text.isPlain, hGap]

namespace Spacing

variable {σ : Spacing}

/- A lexeme is moved as a whole. -/
theorem lexeme_mk
    (t : Token)
    (place size : Nat) :
    σ.lexeme ⟨t, place, place + size⟩ =
      ⟨t, σ.start place, σ.start place + size⟩ := by
  simp only [lexeme, Lexeme.shift, start, Nat.add_assoc]

/- Where no gaps are put in, a text is as before. -/
theorem fill_append
    {cs : List Char}
    {place : Nat}
    (hNone :
      ∀ p, place ≤ p → p < place + Text.byteLength cs →
        σ.gap p = [])
    (ds : List Char) :
    σ.fill place (cs ++ ds) =
      cs ++ σ.fill (place + Text.byteLength cs) ds := by
  induction cs generalizing place with
  | nil =>
      rfl
  | cons c cs ih =>
      have hSize : 0 < c.utf8Size := c.utf8Size_pos
      rw [Text.byteLength] at hNone ⊢
      have hHere := hNone place (Nat.le_refl _) (by omega)
      have hRest :
          ∀ p, place + c.utf8Size ≤ p →
            p < place + c.utf8Size + Text.byteLength cs →
              σ.gap p = [] := by
        intro p hFirst hLast
        exact hNone p (by omega) (by omega)
      rw [List.cons_append, fill, hHere, ih hRest,
        Nat.add_assoc]
      rfl

/- Where no gaps are put in, nothing is added. -/
theorem added_eq
    {first last : Nat}
    (hNone : ∀ p, first ≤ p → p < last → σ.gap p = [])
    (hOrder : first ≤ last) :
    σ.added last = σ.added first := by
  induction last, hOrder using Nat.le_induction with
  | base =>
      rfl
  | succ last hOrder ih =>
      have hBefore := ih fun p hFirst hLast =>
        hNone p hFirst (Nat.lt_succ_of_lt hLast)
      rw [added, hNone last hOrder (Nat.lt_succ_self last),
        hBefore]
      rfl

/- A gap with gaps put in is a longer gap. -/
theorem fill_gap
    {gap : List Char}
    (hGap : Text.GapOnly gap)
    (place : Nat)
    (cs : List Char) :
    ∃ wider,
      Text.GapOnly wider ∧
        σ.fill place (gap ++ cs) =
          wider ++ σ.fill (place + Text.byteLength gap) cs ∧
        σ.added place + Text.byteLength wider =
          σ.added (place + Text.byteLength gap) +
            Text.byteLength gap := by
  induction gap generalizing place with
  | nil =>
      exact ⟨[], Text.gapOnly_nil, rfl, rfl⟩
  | cons c gap ih =>
      rcases List.forall_mem_cons.mp hGap with
        ⟨hFirst, hRest⟩
      have hSize := Text.utf8Size_of_isGap hFirst
      rcases ih hRest (place + 1) with
        ⟨wider, hWider, hFill, hAdded⟩
      refine ⟨σ.gap place ++ c :: wider, ?_, ?_, ?_⟩
      · exact List.forall_mem_append.mpr
          ⟨σ.gapOnly place,
            List.forall_mem_cons.mpr ⟨hFirst, hWider⟩⟩
      · rw [List.cons_append, fill, hSize, hFill,
          Text.byteLength, hSize, List.append_assoc,
          List.cons_append, Nat.add_assoc]
      · rw [added] at hAdded
        rw [Text.byteLength_append, Text.byteLength,
          Text.byteLength, hSize, ← Nat.add_assoc place]
        omega

/- A text with gaps put in only in front of it. -/
theorem fill_whole
    {text : List Char}
    {place : Nat}
    (hSome : text ≠ [])
    (hNone :
      ∀ p, place < p → p < place + Text.byteLength text →
        σ.gap p = [])
    (cs : List Char) :
    σ.fill place (text ++ cs) =
      σ.gap place ++
        (text ++
          σ.fill (place + Text.byteLength text) cs) := by
  rcases List.exists_cons_of_ne_nil hSome with ⟨c, ds, rfl⟩
  have hSize : 0 < c.utf8Size := c.utf8Size_pos
  rw [Text.byteLength] at hNone ⊢
  have hRest :
      ∀ p, place + c.utf8Size ≤ p →
        p < place + c.utf8Size + Text.byteLength ds →
          σ.gap p = [] := by
    intro p hFirst hLast
    exact hNone p (by omega) (by omega)
  rw [List.cons_append, fill, fill_append hRest,
    Nat.add_assoc]
  rfl

/-
  A text behind a gap, with gaps put in only in front of it:
  it stands behind a longer gap.
-/
theorem fill_front
    {gap text : List Char}
    {offset place : Nat}
    (hGap : Text.GapOnly gap)
    (hPlace : offset + Text.byteLength gap = place)
    (hSome : text ≠ [])
    (hNone :
      ∀ p, place < p → p < place + Text.byteLength text →
        σ.gap p = [])
    (cs : List Char) :
    ∃ wider,
      Text.GapOnly wider ∧
        σ.fill offset (gap ++ (text ++ cs)) =
          wider ++
            (text ++
              σ.fill (place + Text.byteLength text) cs) ∧
        σ.added offset + offset + Text.byteLength wider =
          σ.start place := by
  rcases fill_gap (σ := σ) hGap offset (text ++ cs) with
    ⟨wider, hWider, hFill, hAdded⟩
  rw [hPlace] at hFill hAdded
  refine ⟨wider ++ σ.gap place, ?_, ?_, ?_⟩
  · exact List.forall_mem_append.mpr
      ⟨hWider, σ.gapOnly place⟩
  · rw [hFill, fill_whole hSome hNone, List.append_assoc]
  · rw [Text.byteLength_append, start, added]
    omega

/- A token that stops before a text stops before its gaps. -/
theorem stops_fill
    {t : Token}
    {rest : List Char}
    (hStops : t.Stops rest)
    (place : Nat) :
    t.Stops (σ.fill place rest) := by
  cases hHere : σ.gap place with
  | nil =>
      cases rest with
      | nil =>
          rw [fill, hHere]
          exact hStops
      | cons c cs =>
          rw [fill, hHere]
          exact Token.stops_cons_iff.mpr
            (Token.stops_cons_iff.mp hStops)
  | cons g gs =>
      have hGap : Text.isGap g = true :=
        σ.gapOnly place g (by simp [hHere])
      cases rest with
      | nil =>
          rw [fill, hHere]
          exact Token.stops_gap hGap gs t
      | cons c cs =>
          rw [fill, hHere]
          exact Token.stops_gap hGap _ t

end Spacing

end FilterQuery

------------------------------------------------------------
-- Tokens Between Gaps
------------------------------------------------------------

namespace FilterQuery

namespace Spacing.FitsFrom

variable {σ : Spacing}
variable {offset : Nat}

/- Nothing is put in between the ends of a lexeme. -/
theorem gap_inside
    {x : Lexeme}
    {lexing : Lexing}
    {place : Nat}
    (hFits : σ.FitsFrom offset lexing)
    (hMem : x ∈ lexing.lexemes)
    (hOffset : offset ≤ place)
    (hStart : x.start < place)
    (hStop : place < x.stop) :
    σ.gap place = [] := by
  by_contra hGap
  rcases (hFits place hOffset hGap).1 x hMem with
    hBefore | hBehind
  · omega
  · omega

/- Nothing is put in behind a failure. -/
theorem gap_behind
    {lexing : Lexing}
    {failure : LexFailure}
    {place : Nat}
    (hFits : σ.FitsFrom offset lexing)
    (hFailure : lexing.failure = some failure)
    (hOffset : offset ≤ place)
    (hBehind : failure.position < place) :
    σ.gap place = [] := by
  by_contra hGap
  have hBefore := (hFits place hOffset hGap).2 failure hFailure
  omega

/- What fits a lexing fits what follows its first lexeme. -/
theorem rest
    {x : Lexeme}
    {lexing : Lexing}
    {later : Nat}
    (hFits :
      σ.FitsFrom offset ⟨x :: lexing.lexemes, lexing.failure⟩)
    (hLater : offset ≤ later) :
    σ.FitsFrom later lexing := by
  intro place hPlace hGap
  rcases hFits place (Nat.le_trans hLater hPlace) hGap with
    ⟨hLexemes, hFailure⟩
  exact ⟨(List.forall_mem_cons.mp hLexemes).2, hFailure⟩

end Spacing.FitsFrom

/- A text with gaps put in is cut into the moved lexemes. -/
theorem Tiles.fill
    {σ : Spacing}
    {offset : Nat}
    {cs : List Char}
    {lexing : Lexing}
    (hTiles : Tiles Scanned.Scans offset cs lexing)
    (hFits : σ.FitsFrom offset lexing) :
    Tiles Scanned.Scans (σ.added offset + offset)
      (σ.fill offset cs) (σ.lexing lexing) := by
  induction hTiles with
  | @finish offset gap hGap =>
      rcases Spacing.fill_gap (σ := σ) hGap offset [] with
        ⟨wider, hWider, hFill, _⟩
      rw [List.append_nil] at hFill
      rw [hFill]
      exact .finish
        (List.forall_mem_append.mpr ⟨hWider, σ.gapOnly _⟩)
  | @failure offset gap cs c cause hGap hStart hScan =>
      have hNone :
          ∀ p, offset + Text.byteLength gap < p →
            σ.gap p = [] := by
        intro p hBehind
        exact hFits.gap_behind rfl (by omega) hBehind
      rcases Spacing.fill_front hGap rfl
          (List.cons_ne_nil c cs)
          (fun p hBehind _ => hNone p hBehind) [] with
        ⟨wider, hWider, hFill, hStarts⟩
      have hEnd :
          σ.gap
              (offset + Text.byteLength gap +
                Text.byteLength (c :: cs)) =
            [] := by
        have hSize : 0 < c.utf8Size := c.utf8Size_pos
        apply hNone
        rw [Text.byteLength]
        omega
      rw [Spacing.fill, hEnd, List.append_nil] at hFill
      have hTile :
          Tiles Scanned.Scans (σ.added offset + offset)
            (wider ++ c :: cs) _ :=
        .failure hWider hStart hScan
      rw [hStarts] at hTile
      rw [hFill]
      exact hTile
  | @lexeme offset gap cs c s lexing hGap hStart hScan _ ih =>
      have hWhole := Scanned.whole_of_ofChars hStart hScan
      have hText : c :: cs = s.text ++ s.rest :=
        Scanned.eq_append_of_ofChars hScan
      have hPos := hWhole.spelled.byteLength_pos
      rw [Text.byteLength_append, ← Nat.add_assoc]
        at ih hFits ⊢
      have hNone :
          ∀ p, offset + Text.byteLength gap < p →
            p < offset + Text.byteLength gap +
              Text.byteLength s.text →
              σ.gap p = [] := by
        intro p hAfter hBefore
        exact hFits.gap_inside List.mem_cons_self (by omega)
          hAfter hBefore
      rcases Spacing.fill_front hGap rfl hWhole.spelled.ne_nil
          hNone s.rest with
        ⟨wider, hWider, hFill, hStarts⟩
      have hRest := ih (hFits.rest (by omega))
      rw [Spacing.added_eq hNone (by omega), ← Nat.add_assoc]
        at hRest
      have hTile :=
        Tiles.spelled hWhole.spelled
          (Spacing.stops_fill hWhole.stops _) hRest
      rw [hText, hFill]
      apply Tiles.gap_append hWider
      rw [hStarts]
      rw [Spacing.lexing, List.map_cons, Spacing.lexeme_mk]
      exact hTile

end FilterQuery

------------------------------------------------------------
-- Lexemes At Other Places
------------------------------------------------------------

namespace FilterQuery

/- The error with its place replaced. -/
def ParseError.move (f : Nat → Nat) : ParseError → ParseError
| .lexical failure =>
    .lexical ⟨f failure.position, failure.cause⟩
| .unexpectedToken expected got position =>
    .unexpectedToken expected got (f position)
| .unexpectedEnd expected => .unexpectedEnd expected
| .invalidNode position cause =>
    .invalidNode (f position) cause

/- Errors at their own places are the same. -/
theorem ParseError.move_id
    (e : ParseError) :
    e.move id = e := by
  cases e <;> rfl

namespace Renaming

/- The renaming that gives new places only. -/
def places (f : Nat → Nat) : Renaming where
  token := id
  value := id
  start := f
  stop _ := 0
  value?_token _ := congrFun Option.map_id.symm _
  token_of_none _ _ := rfl
  isBlankText_value _ := rfl

/- New places make a difference to errors only. -/
theorem outcome_places
    (f : Nat → Nat)
    (result : Except ParseError Node) :
    (places f).outcome result =
      result.mapError (ParseError.move f) := by
  cases result with
  | ok n =>
      exact congrArg Except.ok n.mapValues_id
  | error e =>
      cases e <;> rfl

end Renaming

/-
  Lexemes that start elsewhere are parsed alike, with errors
  that are elsewhere.
-/
theorem Registry.parseLexemes_move
    {f : Nat → Nat}
    {g : Lexeme → Lexeme}
    (R : Registry)
    (hToken : ∀ x, (g x).token = x.token)
    (hStart : ∀ x, (g x).start = f x.start)
    (xs : List Lexeme) :
    R.parseLexemes (xs.map g) =
      (R.parseLexemes xs).mapError (ParseError.move f) := by
  have hSame :
      (xs.map g).map (Renaming.places id).lexeme =
        xs.map (Renaming.places f).lexeme := by
    rw [List.map_map]
    apply List.map_congr_left
    intro x _
    simp [Renaming.lexeme, Renaming.places, hToken, hStart]
  have hMoved := R.parseLexemes_rename (.places id) (xs.map g)
  rw [hSame, R.parseLexemes_rename,
    Renaming.outcome_places, Renaming.outcome_places]
    at hMoved
  rw [hMoved]
  cases R.parseLexemes (xs.map g) with
  | ok n => rfl
  | error e => exact congrArg Except.error e.move_id.symm

end FilterQuery

------------------------------------------------------------
-- Queries With Gaps
------------------------------------------------------------

namespace FilterQuery

namespace Spacing

variable {σ : Spacing}
variable {query : String}

/- A query with gaps put in has the moved lexing. -/
theorem ofString_query
    (hFits : σ.FitsFrom 0 (Lexing.ofString query)) :
    Lexing.ofString (σ.query query) =
      σ.lexing (Lexing.ofString query) := by
  have hTiles := (tiles_iff.mpr rfl).fill hFits
  rw [← tiles_iff, Spacing.query, String.toList_ofList]
  exact hTiles

/- It is parsed alike, with errors that are elsewhere. -/
theorem parse_query
    (R : Registry)
    (hFits : σ.FitsFrom 0 (Lexing.ofString query)) :
    R.parse (σ.query query) =
      (R.parse query).mapError (ParseError.move σ.start) := by
  unfold Registry.parse tokenize
  rw [ofString_query hFits]
  rcases Lexing.ofString query with ⟨xs, failure⟩
  cases failure with
  | none =>
      exact R.parseLexemes_move (f := σ.start)
        (g := σ.lexeme) (fun _ => rfl) (fun _ => rfl) xs
  | some failure =>
      rfl

/- The same gap at each of some places. -/
def atEach
    (places : List Nat)
    (gap : List Char)
    (hGap : Text.GapOnly gap) :
    Spacing where
  gap place := if place ∈ places then gap else []
  gapOnly place := by
    split
    · exact hGap
    · exact Text.gapOnly_nil

/- Gaps at free places fit. -/
theorem fitsFrom_atEach
    {places : List Nat}
    {gap : List Char}
    {lexing : Lexing}
    (hGap : Text.GapOnly gap)
    (hFree : ∀ place ∈ places, lexing.Free place)
    (offset : Nat) :
    (atEach places gap hGap).FitsFrom offset lexing := by
  intro place _ hSome
  have hMem : place ∈ places := by
    by_contra hNot
    exact hSome (if_neg hNot)
  exact hFree place hMem

end Spacing

/- The place of an error is where a token starts or fails. -/
theorem Registry.starts_of_parse
    {R : Registry}
    {query : String}
    {e : ParseError}
    {place : Nat}
    (hParse : R.parse query = .error e)
    (hPlace : e.position? = some place) :
    (∃ x ∈ (Lexing.ofString query).lexemes,
        x.start = place) ∨
      ∃ failure ∈ (Lexing.ofString query).failure,
        failure.position = place := by
  unfold parse tokenize at hParse
  revert hParse
  rcases Lexing.ofString query with ⟨xs, failure⟩
  intro hParse
  cases failure with
  | none =>
      exact Or.inl (starts_of_parseLexemes hParse hPlace)
  | some failure =>
      cases hParse
      cases hPlace
      exact Or.inr ⟨failure, rfl, rfl⟩

/-
  Gaps between tokens make no difference but to places.  The
  query with the gaps put in has the same lexemes and the
  same failure, each later by what is put in in front of it.
  It has the same tree, or the same error at the new place of
  the same lexeme or failure.
-/
theorem Registry.parse_spaced
    {query : String}
    {σ : Spacing}
    (R : Registry)
    (hFits : σ.FitsFrom 0 (Lexing.ofString query)) :
    Lexing.ofString (σ.query query) =
        σ.lexing (Lexing.ofString query) ∧
      (∀ n,
        R.parse query = .ok n →
          R.parse (σ.query query) = .ok n) ∧
      ∀ e,
        R.parse query = .error e →
          R.parse (σ.query query) =
              .error (e.move σ.start) ∧
            ∀ place,
              e.position? = some place →
                (∃ x ∈ (Lexing.ofString query).lexemes,
                    x.start = place ∧
                      (σ.lexeme x).start = σ.start place) ∨
                  ∃ failure ∈ (Lexing.ofString query).failure,
                    failure.position = place ∧
                      (σ.failure failure).position =
                        σ.start place := by
  refine ⟨Spacing.ofString_query hFits, ?_, ?_⟩
  · intro n hParse
    rw [Spacing.parse_query R hFits, hParse]
    rfl
  · intro e hParse
    constructor
    · rw [Spacing.parse_query R hFits, hParse]
      rfl
    · intro place hPlace
      rcases starts_of_parse hParse hPlace with
        ⟨x, hMem, rfl⟩ | ⟨failure, hMem, rfl⟩
      · exact Or.inl ⟨x, hMem, rfl, rfl⟩
      · exact Or.inr ⟨failure, hMem, rfl, rfl⟩

/-
  Tabulators around the tokens of `é==1)` move the place of
  the closing parenthesis only.
-/
theorem Registry.parse_spaced_sample :
    ∃ σ : Spacing,
      σ.FitsFrom 0 (Lexing.ofString "é==1)") ∧
        σ.query "é==1)" = "\té\t==\t1\t)" ∧
        standard.parse "é==1)" =
          .error
            (.unexpectedToken .connective .closeParen 5) ∧
        standard.parse "\té\t==\t1\t)" =
          .error
            (.unexpectedToken .connective .closeParen 9) := by
  have hGap : Text.GapOnly ['\t'] := by
    intro c hc
    cases List.mem_singleton.mp hc
    rfl
  have hLexing :
      Lexing.ofString "é==1)" =
        ⟨[⟨.bare "é", 0, 2⟩, ⟨.operator "==", 2, 4⟩,
          ⟨.bare "1", 4, 5⟩, ⟨.closeParen, 5, 6⟩], none⟩ := by
    cbv
  have hParse :
      standard.parse "é==1)" =
        .error
          (.unexpectedToken .connective .closeParen 5) := by
    cbv
  have hFits :
      (Spacing.atEach [0, 2, 4, 5] ['\t'] hGap).FitsFrom 0
        (Lexing.ofString "é==1)") := by
    apply Spacing.fitsFrom_atEach
    rw [hLexing]
    unfold Lexing.Free
    decide
  have hQuery :
      (Spacing.atEach [0, 2, 4, 5] ['\t'] hGap).query
          "é==1)" =
        "\té\t==\t1\t)" := by
    cbv
  have hMoved := ((parse_spaced standard hFits).2.2 _ hParse).1
  rw [hQuery] at hMoved
  exact ⟨_, hFits, hQuery, hParse, hMoved⟩

end FilterQuery
