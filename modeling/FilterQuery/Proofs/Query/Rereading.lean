import FilterQuery.Proofs.Query.Conservation
import FilterQuery.Proofs.Query.Stopping

/-
  This file proves what a reader yields that is used again
  and again.

  Key definitions include:
    * `FilterQuery.Reader.after`
    * `FilterQuery.Reader.place`
    * `FilterQuery.Registry.Lands`
    * `FilterQuery.Reader.Stuck`

  Key theorems include:
    * `FilterQuery.Reader.readMany_eq`
    * `FilterQuery.Reader.place_succ`
    * `FilterQuery.Registry.lands`
    * `FilterQuery.Reader.stuck_of_length_le`
    * `FilterQuery.Reader.lands_after`
    * `FilterQuery.Reader.readings_settle`

  The only thing a reading changes is the position, where the
  next one starts.  A reading that does not move it is
  repeated for ever, and all others move it on, so each
  reader comes to such a reading.
-/

------------------------------------------------------------
-- Places Of A Reader
------------------------------------------------------------

namespace FilterQuery

namespace Reader

/- The reader after a number of readings. -/
def after (r : Reader) : Nat → Reader
| 0 => r
| count + 1 => (r.after count).read.2

/- The position after that many readings. -/
def place (r : Reader) (count : Nat) : Nat :=
  (r.after count).position

/- Reading parses the lexemes from the position on. -/
theorem read_result
    (r : Reader) :
    r.read.1 =
      r.registry.parseLexemes (r.lexemes.drop r.position) :=
  Descent.query_result r.registry r.lexemes r.position

/- Reading moves on by what is read of these lexemes. -/
theorem position_read
    {r : Reader}
    (hInside : r.position ≤ r.lexemes.length) :
    r.read.2.position =
      r.position +
        r.registry.progress
          (r.lexemes.drop r.position) :=
  Descent.query_position r.registry hInside

/- Readings after the first are readings of the next reader. -/
theorem after_read
    (r : Reader)
    (count : Nat) :
    r.read.2.after count = r.after (count + 1) := by
  induction count with
  | zero =>
      rfl
  | succ count ih =>
      rw [after, ih]
      rfl

/- Readings can be counted in two parts. -/
theorem after_add
    (r : Reader)
    (first second : Nat) :
    r.after (first + second) =
      (r.after first).after second := by
  induction second with
  | zero =>
      rfl
  | succ second ih =>
      rw [← Nat.add_assoc, after, ih, after]

/- The results are those of the readers on the way. -/
theorem readMany_eq
    (r : Reader)
    (times : Nat) :
    readMany times r =
      (List.range times).map fun count =>
        (r.after count).read.1 := by
  induction times generalizing r with
  | zero =>
      rfl
  | succ times ih =>
      rw [readMany, ih, List.range_succ_eq_map,
        List.map_cons, List.map_map]
      simp only [after_read]
      rfl

/- Readings change nothing but the position. -/
theorem after_eq
    (r : Reader)
    (count : Nat) :
    r.after count =
      ⟨r.registry, r.lexemes, r.place count⟩ := by
  induction count with
  | zero =>
      rfl
  | succ count ih =>
      unfold place
      rw [after, ih]
      rfl

variable {r : Reader}

/- No reader moves beyond the end. -/
theorem place_le_length
    (hInside : r.position ≤ r.lexemes.length)
    (count : Nat) :
    r.place count ≤ r.lexemes.length := by
  induction count with
  | zero =>
      exact hInside
  | succ count ih =>
      unfold place
      rw [after, after_eq]
      exact (Descent.query _ _ _).inside ih

/- A reading moves on by what it reads. -/
theorem place_succ
    (hInside : r.position ≤ r.lexemes.length)
    (count : Nat) :
    r.place (count + 1) =
      r.place count +
        r.registry.progress
          (r.lexemes.drop (r.place count)) := by
  have hHere := place_le_length hInside count
  conv =>
    lhs
    rw [place, after, r.after_eq count]
  exact position_read hHere

end Reader

end FilterQuery

------------------------------------------------------------
-- Where A Reading Ends
------------------------------------------------------------

namespace FilterQuery

namespace Registry

/-
  Where a reading ends that starts at a place of the lexemes:
  behind a whole query of at least three lexemes, at the end,
  at the lexeme that is not allowed or has an unknown symbol,
  or right behind a comparison that is refused.
-/
inductive Lands
    (R : Registry)
    (xs : List Lexeme)
    (start : Nat) :
    Nat → Except ParseError Node → Prop
  | parsed
      {n : Node}
      (hMany : start + 3 ≤ xs.length) :
      Lands R xs start xs.length (.ok n)
  | unexpectedEnd
      {expected : Expected} :
      Lands R xs start xs.length
        (.error (.unexpectedEnd expected))
  | unexpectedToken
      {stop : Nat}
      {expected : Expected}
      {x : Lexeme}
      (hAt : xs[stop]? = some x) :
      Lands R xs start stop
        (.error
          (.unexpectedToken expected x.token x.start))
  | unknownOperator
      {stop : Nat}
      {x : Lexeme}
      {symbol : String}
      (hAt : xs[stop]? = some x)
      (hToken : x.token = .operator symbol) :
      Lands R xs start stop
        (.error
          (.invalidNode x.start (.unknownOperator symbol)))
  | refused
      {before zs after : List Lexeme}
      {w : Written}
      {position : Nat}
      {cause : NodeError}
      (hSplit : xs = before ++ zs ++ after)
      (hStart : start ≤ before.length)
      (hSpells : w.Spells zs)
      (hBlames : R.Blames w (.invalidNode position cause))
      (hKnown : ∀ symbol, cause ≠ .unknownOperator symbol) :
      Lands R xs start (before ++ zs).length
        (.error (.invalidNode position cause))

variable {R : Registry}

/- No query has less than three lexemes. -/
theorem three_le_length_of_parseLexemes
    {xs : List Lexeme}
    {n : Node}
    (hParse : R.parseLexemes xs = .ok n) :
    3 ≤ xs.length := by
  have hMeans := means_of_parseLexemes hParse
  have hWords := hMeans.wellFormed.three_le_length_words
  have hTokens := hMeans.tallies.length_words_le
  rw [Lexeme.length_tokens] at hTokens
  exact Nat.le_trans hWords hTokens

/- A query that is parsed is read as a whole. -/
theorem progress_of_parseLexemes
    {xs : List Lexeme}
    {n : Node}
    (hParse : R.parseLexemes xs = .ok n) :
    R.progress xs = xs.length := by
  rcases reaches_of_parseLexemes hParse with
    ⟨st, hReaches, _⟩
  exact progress_of_reaches hReaches

/- A reading that stops at a lexeme ends there or behind it. -/
theorem lands_of_stops
    {st : State}
    {before : List Lexeme}
    {x : Lexeme}
    {halt : Halt}
    (hReaches : State.Reaches R .start before st)
    (hStop : State.Stops R st x halt)
    (front after : List Lexeme) :
    R.Lands (front ++ (before ++ x :: after)) front.length
      (front.length + R.progress (before ++ x :: after))
      (.error halt.error) := by
  have hAt :
      (front ++ (before ++ x :: after))[
          front.length + before.length]? =
        some x := by
    simp
  have hRefuses := refuses_of_stops hReaches hStop
  rw [progress_of_stops hReaches hStop]
  cases hStop with
  | unexpected _ =>
      exact .unexpectedToken hAt
  | unknownSymbol hToken _ =>
      exact .unknownOperator hAt hToken
  | single _ hRefused | closeList _ hRefused =>
      have hNone := Comparison.culprit?_of_ofParts hRefused
      rcases hRefuses (hNone _) with
        ⟨_, middle, zs, w, hFront, hSpells, hBlames⟩
      have hSplit :
          front ++ (before ++ x :: after) =
            (front ++ middle) ++ zs ++ after := by
        rw [List.append_assoc front, ← hFront]
        simp
      have hLength :
          front.length + (before.length + 1) =
            ((front ++ middle) ++ zs).length := by
        rw [List.append_assoc front, ← hFront]
        simp
      have hKnown := Comparison.known_of_ofParts hRefused
      rw [if_pos rfl, hLength]
      exact .refused hSplit (by simp) hSpells hBlames hKnown

/- Every reading ends in such a place. -/
theorem lands
    (R : Registry)
    (front ys : List Lexeme) :
    R.Lands (front ++ ys) front.length
      (front.length + R.progress ys)
      (R.parseLexemes ys) := by
  have hOutcome := R.outcome_parseLexemes ys
  generalize hResult : R.parseLexemes ys = result
    at hOutcome ⊢
  cases hOutcome with
  | parsed hReaches _ =>
      have hMany := three_le_length_of_parseLexemes hResult
      rw [progress_of_reaches hReaches, ← List.length_append]
      apply Lands.parsed
      rw [List.length_append]
      omega
  | unfinished hReaches _ =>
      rw [progress_of_reaches hReaches, ← List.length_append]
      exact .unexpectedEnd
  | stopped hSplit hReaches hStop hError =>
      rw [hSplit, ← hError]
      exact lands_of_stops hReaches hStop front _

end Registry

end FilterQuery

------------------------------------------------------------
-- Readers That Are Stuck
------------------------------------------------------------

namespace FilterQuery

namespace Reader

variable {r : Reader}

/- The next reading leaves the reader where it is. -/
def Stuck (r : Reader) : Prop :=
  r.read.2 = r

/- A reader that is stuck stays so. -/
theorem Stuck.after
    (hStuck : r.Stuck)
    (count : Nat) :
    r.after count = r := by
  induction count with
  | zero =>
      rfl
  | succ count ih =>
      rw [Reader.after, ih]
      exact hStuck

/- The next reader is stuck too. -/
theorem Stuck.read
    (hStuck : r.Stuck) :
    r.read.2.Stuck := by
  rw [hStuck]
  exact hStuck

/- A reader is stuck that leaves nothing behind. -/
theorem stuck_of_progress
    (hInside : r.position ≤ r.lexemes.length)
    (hNone :
      r.registry.progress (r.lexemes.drop r.position) = 0) :
    r.Stuck := by
  have hHere := position_read hInside
  rw [hNone, Nat.add_zero] at hHere
  exact congrArg (Reader.mk r.registry r.lexemes) hHere

/- A reader that is stuck yields an error. -/
theorem Stuck.error
    (hStuck : r.Stuck) :
    ∃ e, r.read.1 = .error e := by
  cases hRead : r.read.1 with
  | error e =>
      exact ⟨e, rfl⟩
  | ok n =>
      exfalso
      rw [read_result] at hRead
      have hMany :=
        Registry.three_le_length_of_parseLexemes hRead
      have hAll := Registry.progress_of_parseLexemes hRead
      rw [List.length_drop] at hMany hAll
      have hNext :=
        position_read (r := r) (by omega)
      rw [hStuck, hAll] at hNext
      omega

/- Up to where a reader is stuck, every reading moves it. -/
theorem le_place_or_stuck
    (hInside : r.position ≤ r.lexemes.length)
    (count : Nat) :
    count ≤ r.place count ∨ (r.after count).Stuck := by
  induction count with
  | zero =>
      exact Or.inl (Nat.zero_le _)
  | succ count ih =>
      rcases ih with hMoved | hStuck
      · have hHere := place_le_length hInside count
        have hNext := place_succ hInside count
        rcases Nat.eq_zero_or_pos
            (r.registry.progress
              (r.lexemes.drop (r.place count))) with
          hNone | hMore
        · have hStuck : (r.after count).Stuck := by
            rw [r.after_eq]
            exact stuck_of_progress hHere hNone
          exact Or.inr hStuck.read
        · exact Or.inl (by omega)
      · exact Or.inr hStuck.read

/- After as many readings as lexemes a reader is stuck. -/
theorem stuck_of_length_le
    (hInside : r.position ≤ r.lexemes.length)
    {count : Nat}
    (hMany : r.lexemes.length ≤ count) :
    (r.after count).Stuck := by
  rcases le_place_or_stuck hInside count with
    hMoved | hStuck
  · have hEnd := place_le_length hInside count
    rw [r.after_eq]
    apply stuck_of_progress hEnd
    change
      r.registry.progress (r.lexemes.drop (r.place count)) = 0
    rw [List.drop_eq_nil_of_le (by omega)]
    exact Nat.le_zero.mp (Registry.progress_le_length _ [])
  · exact hStuck

end Reader

end FilterQuery

------------------------------------------------------------
-- Repeated Reading
------------------------------------------------------------

namespace FilterQuery

namespace Reader

/- A reading parses what the readings before it have left. -/
theorem read_after
    (r : Reader)
    (count : Nat) :
    (r.after count).read.1 =
      r.registry.parseLexemes
        (r.lexemes.drop (r.place count)) := by
  rw [r.after_eq, read_result]

variable {r : Reader}

/- It ends in a place that fits its result. -/
theorem lands_after
    (hInside : r.position ≤ r.lexemes.length)
    (count : Nat) :
    r.registry.Lands r.lexemes (r.place count)
      (r.place (count + 1))
      (r.registry.parseLexemes
        (r.lexemes.drop (r.place count))) := by
  have hEnd := place_le_length hInside count
  have hLands :=
    r.registry.lands (r.lexemes.take (r.place count))
      (r.lexemes.drop (r.place count))
  rw [List.take_append_drop, List.length_take_of_le hEnd,
    ← place_succ hInside] at hLands
  exact hLands

/- After as many readings as lexemes the reader has settled. -/
theorem after_of_length_le
    (hInside : r.position ≤ r.lexemes.length)
    {count : Nat}
    (hMany : r.lexemes.length ≤ count) :
    r.after count = r.after r.lexemes.length := by
  have hStuck : (r.after r.lexemes.length).Stuck :=
    stuck_of_length_le hInside (Nat.le_refl _)
  rcases Nat.exists_eq_add_of_le hMany with ⟨more, rfl⟩
  rw [after_add, hStuck.after]

/-
  Each reading parses the lexemes that the readings before it
  have left, as if nothing had been read before.  It starts
  where they have ended and ends in a place that fits its
  result.  After as many readings as there are lexemes all
  results are one error, and the reader stays where it is.
-/
theorem readings_settle
    (R : Registry)
    (xs : List Lexeme) :
    let r : Reader := ⟨R, xs, 0⟩
    r.place 0 = 0 ∧
      (∀ times,
        readMany times r =
          (List.range times).map fun count =>
            R.parseLexemes (xs.drop (r.place count))) ∧
      (∀ count,
        r.after count = ⟨R, xs, r.place count⟩ ∧
          r.place count ≤ r.place (count + 1) ∧
          r.place (count + 1) ≤ xs.length ∧
          R.Lands xs (r.place count)
            (r.place (count + 1))
            (R.parseLexemes
              (xs.drop (r.place count)))) ∧
      ∃ e,
        ∀ count,
          xs.length ≤ count →
            R.parseLexemes (xs.drop (r.place count)) =
                .error e ∧
              r.place (count + 1) = r.place count := by
  intro r
  have hInside : r.position ≤ r.lexemes.length :=
    Nat.zero_le _
  refine ⟨rfl, ?_, ?_, ?_⟩
  · intro times
    rw [readMany_eq]
    simp only [read_after]
    rfl
  · intro count
    have hNext := place_succ hInside count
    exact ⟨r.after_eq count, by omega,
      place_le_length hInside _, lands_after hInside count⟩
  · have hStuck : (r.after xs.length).Stuck :=
      stuck_of_length_le hInside (Nat.le_refl _)
    rcases hStuck.error with ⟨e, hError⟩
    refine ⟨e, ?_⟩
    intro count hMany
    have hHere := after_of_length_le hInside hMany
    have hNext :=
      after_of_length_le hInside (Nat.le_succ_of_le hMany)
    constructor
    · rw [← hError, ← hHere]
      exact (r.read_after count).symm
    · unfold place
      rw [hNext, hHere]

/-
  The second reading of `a==1)` is stuck at the parenthesis,
  which the first one has left.
-/
theorem readings_settle_sample :
    let xs : List Lexeme :=
      [⟨.bare "a", 0, 1⟩, ⟨.operator "==", 1, 3⟩,
        ⟨.bare "1", 3, 4⟩, ⟨.closeParen, 4, 5⟩]
    let r : Reader := ⟨.basic, xs, 0⟩
    readMany 2 r =
        [.error (.unexpectedToken .connective .closeParen 4),
          .error (.unexpectedToken .operand .closeParen 4)] ∧
      ∀ count,
        4 ≤ count →
          r.registry.parseLexemes (xs.drop (r.place count)) =
            .error
              (.unexpectedToken .operand .closeParen 4) ∧
            r.place (count + 1) = r.place count := by
  intro xs r
  rcases (readings_settle .basic xs).2.2.2 with
    ⟨e, hSettled⟩
  have hTwice :
      readMany 2 r =
        [.error (.unexpectedToken .connective .closeParen 4),
          .error
            (.unexpectedToken .operand .closeParen 4)] := by
    cbv
  have hFourth :
      r.registry.parseLexemes (xs.drop (r.place 4)) =
        .error (.unexpectedToken .operand .closeParen 4) := by
    cbv
  rw [(hSettled 4 (Nat.le_refl 4)).1] at hFourth
  cases hFourth
  exact ⟨hTwice, hSettled⟩

end Reader

end FilterQuery
