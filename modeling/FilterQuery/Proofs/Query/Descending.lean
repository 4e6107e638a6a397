import FilterQuery.Proofs.Query.Moves
import FilterQuery.Query.Parse

/-
  This file proves that parsing by descent and reading lexeme
  by lexeme have the same outcomes.

  Key definitions include:
    * `FilterQuery.State.runFrom`
    * `FilterQuery.Descent.Tracks`
    * `FilterQuery.Descent.Links`
    * `FilterQuery.Descent.TracksLevel`

  Key theorems include:
    * `FilterQuery.Descent.Tracks.bind`
    * `FilterQuery.Descent.tracks_chain`
    * `FilterQuery.Descent.tracks_disjunction`
    * `FilterQuery.Descent.query_eq_run`
    * `FilterQuery.Registry.parseLexemes_eq_run`

  What the descent keeps in the calls that are still open, a
  run keeps in its state.  While a run with a fixed outcome is
  in the state that a function of the descent stands for, the
  function follows it: it fails with that outcome, or ends
  where the run is in the state that stands for its return.
-/

------------------------------------------------------------
-- Runs From A Position
------------------------------------------------------------

namespace FilterQuery

variable {R : Registry}
variable {xs : List Lexeme}
variable {position : Nat}
variable {x : Lexeme}

namespace Descent

/- The lexeme at a position is followed by what is behind. -/
theorem drop_eq_cons
    (hThere : xs[position]? = some x) :
    xs.drop position = x :: xs.drop (advance xs position) := by
  rcases List.getElem?_eq_some_iff.mp hThere with
    ⟨hMore, rfl⟩
  rw [advance_of_lt hMore]
  exact List.drop_eq_getElem_cons hMore

/- Nothing is left behind the end. -/
theorem drop_eq_nil
    (hEnd : xs[position]? = none) :
    xs.drop position = [] :=
  List.drop_eq_nil_of_le (List.getElem?_eq_none_iff.mp hEnd)

/- A token stands where there is a lexeme with it. -/
theorem checks_iff
    {t : Token} :
    checks xs t position = true ↔
      ∃ x, xs[position]? = some x ∧ x.token = t := by
  unfold checks
  cases xs[position]? <;> simp

/- Where a token does not stand, there is another one. -/
theorem token_ne_of_checks
    {t : Token}
    (hToken : checks xs t position = false)
    (hThere : xs[position]? = some x) :
    x.token ≠ t := by
  intro hx
  rw [checks_iff.mpr ⟨x, hThere, hx⟩] at hToken
  cases hToken

/- The offset of a lexeme is where it starts. -/
theorem offset_of_getElem?
    (hThere : xs[position]? = some x) :
    offset xs position = x.start := by
  simp only [offset, hThere]

end Descent

namespace State

/- Read the lexemes from a position on. -/
def runFrom
    (R : Registry)
    (xs : List Lexeme)
    (st : State)
    (position : Nat) :
    Except ParseError Node × List Lexeme :=
  st.run R (xs.drop position)

/- A run moves on over the lexeme at its position. -/
theorem runFrom_of_moves
    {st st' : State}
    (hThere : xs[position]? = some x)
    (hMove : Moves R st x st') :
    st.runFrom R xs position =
      st'.runFrom R xs (Descent.advance xs position) := by
  unfold runFrom
  rw [Descent.drop_eq_cons hThere, run, step_of_moves hMove]

/- A run stops before the lexeme at its position or behind. -/
theorem runFrom_of_stops
    {st : State}
    {halt : Halt}
    (hThere : xs[position]? = some x)
    (hStop : Stops R st x halt) :
    st.runFrom R xs position =
      (.error halt.error,
        xs.drop
          (if halt.consumed then Descent.advance xs position
            else position)) := by
  unfold runFrom
  rw [Descent.drop_eq_cons hThere, run, step_of_stops hStop]
  cases hConsumed : halt.consumed with
  | true => simp [hConsumed]
  | false => simp [hConsumed, Descent.drop_eq_cons hThere]

/- A run finishes at the end. -/
theorem runFrom_of_end
    (hEnd : xs[position]? = none)
    (st : State) :
    st.runFrom R xs position =
      (st.finish, xs.drop position) := by
  unfold runFrom
  rw [Descent.drop_eq_nil hEnd, run]

/- What a state does not allow is unexpected there. -/
theorem runFrom_of_refused
    {st : State}
    (hRefused :
      ∀ x, xs[position]? = some x → st.admits x.token = false)
    (hEnd :
      xs[position]? = none →
        st.finish = .error (.unexpectedEnd st.expected)) :
    st.runFrom R xs position =
      (.error (Descent.unexpected xs st.expected position),
        xs.drop position) := by
  unfold Descent.unexpected
  cases hThere : xs[position]? with
  | none =>
      rw [runFrom_of_end hThere, hEnd hThere]
  | some x =>
      rw [runFrom_of_stops hThere
        (.unexpected (hRefused x hThere))]
      rfl

end State

end FilterQuery

------------------------------------------------------------
-- Tracking
------------------------------------------------------------

namespace FilterQuery

namespace Descent

/-
  A descent tracks a run with the outcome.  If it fails, the
  run ends with its error where it ended.  If it returns, the
  value and the position are as described.
-/
structure Tracks
    {xs : List Lexeme}
    {start : Nat}
    {α : Type}
    (outcome : Except ParseError Node × List Lexeme)
    (d : Descent xs start α)
    (Returns : α → Nat → Prop) :
    Prop where
  ok : ∀ a, d.result = .ok a → Returns a d.position
  error :
    ∀ e,
      d.result = .error e →
        outcome = (.error e, xs.drop d.position)

variable {R : Registry}
variable {xs : List Lexeme}
variable {start position : Nat}
variable {α β : Type}
variable {outcome : Except ParseError Node × List Lexeme}
variable {Returns : α → Nat → Prop}

/- A value may be returned where it is as described. -/
theorem tracks_ok
    {a : α}
    (hReturns : Returns a start) :
    Tracks outcome (done (.ok a) : Descent xs start α)
      Returns where
  ok := by
    intro b hb
    cases hb
    exact hReturns
  error := nofun

/- An error may be raised where the run ends with it. -/
theorem tracks_error
    {e : ParseError}
    (hOutcome : outcome = (.error e, xs.drop start)) :
    Tracks outcome (done (.error e) : Descent xs start α)
      Returns where
  ok := nofun
  error := by
    intro e' he
    cases he
    exact hOutcome

/- Going on tracks the run if each part does. -/
theorem Tracks.bind
    {d : Descent xs start α}
    {rest :
      α → (position : Nat) → start ≤ position →
        Descent xs position β}
    {Ends : β → Nat → Prop}
    (hFirst : d.Tracks outcome Returns)
    (hRest :
      ∀ a position hStart,
        Returns a position →
          (rest a position hStart).Tracks outcome Ends) :
    (d.bind rest).Tracks outcome Ends := by
  unfold Descent.bind
  split
  · rename_i e hResult
    refine ⟨nofun, ?_⟩
    intro e' he
    cases he
    exact hFirst.error e hResult
  · rename_i a hResult
    have hNext :=
      hRest a d.position d.advances (hFirst.ok a hResult)
    exact ⟨hNext.ok, hNext.error⟩

/- Where a lexeme is left behind does not matter. -/
theorem Tracks.behind
    {rest : Descent xs (advance xs position) α}
    (hRest : rest.Tracks outcome Returns) :
    (Descent.behind rest).Tracks outcome Returns :=
  ⟨hRest.ok, hRest.error⟩

/- What is returned may be described more loosely. -/
theorem Tracks.mono
    {d : Descent xs start α}
    {Ends : α → Nat → Prop}
    (hTracks : d.Tracks outcome Returns)
    (hEnds :
      ∀ a position, Returns a position → Ends a position) :
    d.Tracks outcome Ends :=
  ⟨fun a ha => hEnds a _ (hTracks.ok a ha), hTracks.error⟩

/- What the state of the run does not allow is unexpected. -/
theorem tracks_unexpected
    {st : State}
    (hRun : outcome = st.runFrom R xs start)
    (hRefused :
      ∀ x, xs[start]? = some x → st.admits x.token = false)
    (hEnd :
      xs[start]? = none →
        st.finish = .error (.unexpectedEnd st.expected)) :
    Tracks outcome
      (done (.error (unexpected xs st.expected start)) :
        Descent xs start α)
      Returns :=
  tracks_error
    (hRun.trans (State.runFrom_of_refused hRefused hEnd))

/- A token is taken, or something else stands there. -/
theorem tracks_expectToken
    {t : Token}
    {expected : Expected}
    {rest :
      start < xs.length → Descent xs (advance xs start) α}
    (hTaken :
      ∀ x hMore,
        xs[start]? = some x → x.token = t →
          (rest hMore).Tracks outcome Returns)
    (hOther :
      checks xs t start = false →
        Tracks outcome
          (done (.error (unexpected xs expected start)) :
            Descent xs start α)
          Returns) :
    (expectToken xs t expected start rest).Tracks outcome
      Returns := by
  unfold expectToken
  split
  · rename_i hToken
    rcases checks_iff.mp hToken with ⟨x, hThere, hx⟩
    exact (hTaken x _ hThere hx).behind
  · rename_i hToken
    exact hOther (by simpa using hToken)

/- A value is taken, or something else stands there. -/
theorem tracks_expectValue
    {expected : Expected}
    {Returns : String → Nat → Prop}
    (hTaken :
      ∀ x value,
        xs[start]? = some x → x.token.value? = some value →
          Returns value (advance xs start))
    (hOther :
      (∀ x, xs[start]? = some x → x.token.value? = none) →
        Tracks outcome
          (done (.error (unexpected xs expected start)) :
            Descent xs start String)
          Returns) :
    (expectValue xs expected start).Tracks outcome
      Returns := by
  unfold expectValue
  split
  · rename_i value hValue
    rcases Option.bind_eq_some_iff.mp hValue with
      ⟨x, hThere, hx⟩
    exact (tracks_ok (hTaken x value hThere hx)).behind
  · rename_i hNone
    apply hOther
    intro x hThere
    rw [hThere] at hNone
    exact hNone

end Descent

end FilterQuery

------------------------------------------------------------
-- Comparisons
------------------------------------------------------------

namespace FilterQuery

namespace Descent

variable {R : Registry}
variable {xs : List Lexeme}
variable {start : Nat}
variable {groups : List Group}
variable {level : Level}
variable {head : Head}
variable {outcome : Except ParseError Node × List Lexeme}

/- The outcome when all arguments of a comparison are read. -/
def compared
    (R : Registry)
    (xs : List Lexeme)
    (groups : List Group)
    (level : Level)
    (head : Head)
    (arguments : List String)
    (position : Nat) :
    Except ParseError Node × List Lexeme :=
  match Comparison.ofParts head.operator head.selector
      arguments with
  | .ok c =>
      State.runFrom R xs
        ⟨groups, level, .complete (.comparison c)⟩ position
  | .error cause =>
      (.error (.invalidNode head.start cause),
        xs.drop position)

/- An argument is read where a list wants one. -/
theorem tracks_listArgument
    {before : List String}
    (hRun :
      outcome =
        State.runFrom R xs ⟨groups, level, .list head before⟩
          start) :
    (expectValue xs .argument start).Tracks outcome
      fun argument position =>
        outcome =
          State.runFrom R xs
            ⟨groups, level, .argument head argument before⟩
            position := by
  refine tracks_expectValue ?_ ?_
  · intro x value hThere hx
    rw [hRun]
    exact State.runFrom_of_moves hThere (.argument hx)
  · intro hNone
    refine tracks_unexpected hRun ?_ fun _ => rfl
    intro x hThere
    simp [State.admits, State.expected, Expected.admits,
      Token.isValue, hNone x hThere]

/- Arguments are read until no comma is behind one. -/
theorem tracks_moreArguments
    {argument : String}
    {before : List String}
    (hRun :
      outcome =
        State.runFrom R xs
          ⟨groups, level, .argument head argument before⟩
          start) :
    (moreArguments xs (argument :: before).reverse
        start).Tracks outcome fun values position =>
      ∃ argument before,
        values = (argument :: before).reverse ∧
          checks xs .comma position = false ∧
          outcome =
            State.runFrom R xs
              ⟨groups, level,
                .argument head argument before⟩
              position := by
  generalize hValues : (argument :: before).reverse = values
  induction values, start using moreArguments.induct xs
    generalizing argument before with
  | case1 values start hComma ih =>
      rw [moreArguments, dif_pos hComma]
      rcases checks_iff.mp hComma with ⟨x, hThere, hx⟩
      rw [State.runFrom_of_moves hThere (.nextArgument hx)]
        at hRun
      refine ((tracks_listArgument hRun).bind ?_).behind
      intro value next hNext hMore
      refine ih value next hNext hMore ?_
      rw [List.reverse_cons, hValues]
  | case2 values start hNone =>
      rw [moreArguments, dif_neg hNone]
      exact tracks_ok
        ⟨argument, before, hValues.symm, by simpa using hNone,
          hRun⟩

/- A single argument is compared at once. -/
theorem compared_of_single
    {x : Lexeme}
    {value : String}
    (hThere : xs[start]? = some x)
    (hValue : x.token.value? = some value) :
    State.runFrom R xs ⟨groups, level, .symbol head⟩ start =
      compared R xs groups level head [value]
        (advance xs start) := by
  unfold compared
  split
  · rename_i c hMade
    exact State.runFrom_of_moves hThere (.single hValue hMade)
  · rename_i cause hRefused
    exact State.runFrom_of_stops hThere
      (.single hValue hRefused)

/- A list of arguments is compared when it closes. -/
theorem compared_of_closeList
    {x : Lexeme}
    {argument : String}
    {before : List String}
    (hThere : xs[start]? = some x)
    (hClosing : x.token = .closeParen) :
    State.runFrom R xs
        ⟨groups, level, .argument head argument before⟩
        start =
      compared R xs groups level head
        (argument :: before).reverse (advance xs start) := by
  unfold compared
  split
  · rename_i c hMade
    exact State.runFrom_of_moves hThere
      (.closeList hClosing hMade)
  · rename_i cause hRefused
    exact State.runFrom_of_stops hThere
      (.closeList hClosing hRefused)

/- One argument is read behind a symbol. -/
theorem tracks_singleArgument
    (hRun :
      outcome =
        State.runFrom R xs ⟨groups, level, .symbol head⟩
          start)
    (hOpening : checks xs .openParen start = false) :
    (expectValue xs .argument start).Tracks outcome
      fun argument position =>
        outcome =
          compared R xs groups level head [argument]
            position := by
  refine tracks_expectValue ?_ ?_
  · intro x value hThere hx
    rw [hRun]
    exact compared_of_single hThere hx
  · intro hNone
    refine tracks_unexpected hRun ?_ fun _ => rfl
    intro x hThere
    have hOther := token_ne_of_checks hOpening hThere
    simp [State.admits, State.expected, Expected.admits,
      Token.isValue, hNone x hThere, hOther]

/- Arguments are read behind the symbol of a comparison. -/
theorem tracks_arguments
    (hRun :
      outcome =
        State.runFrom R xs ⟨groups, level, .symbol head⟩
          start) :
    (arguments xs start).Tracks outcome fun values position =>
      outcome =
        compared R xs groups level head values position := by
  unfold arguments
  split
  · rename_i hOpening
    rcases checks_iff.mp hOpening with ⟨x, hThere, hx⟩
    rw [State.runFrom_of_moves hThere (.list hx)] at hRun
    refine ((tracks_listArgument hRun).bind ?_).behind
    intro value next _ hFirst
    refine (tracks_moreArguments hFirst).bind ?_
    rintro values last _ ⟨argument, before, rfl, hComma, hLast⟩
    refine tracks_expectToken ?_ ?_
    · intro y _ hThere hy
      apply tracks_ok
      rw [hLast]
      exact compared_of_closeList hThere hy
    · intro hClosing
      refine tracks_unexpected hLast ?_ fun _ => rfl
      intro y hThere
      have hOther := token_ne_of_checks hClosing hThere
      have hNone := token_ne_of_checks hComma hThere
      simp [State.admits, State.expected, Expected.admits,
        hOther, hNone]
  · rename_i hOpening
    have hSingle :=
      tracks_singleArgument hRun (by simpa using hOpening)
    exact hSingle.bind fun _ _ _ hCompared =>
      tracks_ok hCompared

/- The selector of a comparison is read and its start kept. -/
theorem tracks_selector
    {x : Lexeme}
    (hThere : xs[start]? = some x)
    (hValue : x.token.isValue = true)
    (hRun :
      outcome =
        State.runFrom R xs ⟨groups, level, .operand⟩ start) :
    (expectValue xs .selector start).Tracks outcome
      fun selector position =>
        outcome =
          State.runFrom R xs
            ⟨groups, level,
              .selector selector (offset xs start)⟩
            position := by
  refine tracks_expectValue ?_ ?_
  · intro y value hy hSelector
    rw [hRun, offset_of_getElem? hy]
    exact State.runFrom_of_moves hy (.selector hSelector)
  · intro hNone
    unfold Token.isValue at hValue
    rw [hNone x hThere] at hValue
    cases hValue

/- A comparison is read where a value starts an operand. -/
theorem tracks_comparison
    {x : Lexeme}
    (hThere : xs[start]? = some x)
    (hValue : x.token.isValue = true)
    (hRun :
      outcome =
        State.runFrom R xs ⟨groups, level, .operand⟩ start) :
    (comparison R xs start).Tracks outcome fun n position =>
      outcome =
        State.runFrom R xs ⟨groups, level, .complete n⟩
          position := by
  unfold comparison
  refine (tracks_selector hThere hValue hRun).bind ?_
  intro selector position _ hSelector
  split
  · rename_i symbol hSymbol
    rcases Option.map_eq_some_iff.mp hSymbol with
      ⟨y, hy, hToken⟩
    split
    · rename_i hContains
      rcases (R.contains_iff_get? symbol).mp hContains with
        ⟨operator, hKnown⟩
      rw [State.runFrom_of_moves hy (.symbol hToken hKnown)]
        at hSelector
      refine ((tracks_arguments hSelector).bind ?_).behind
      intro values last _ hCompared
      rw [Registry.comparison_of_get? hKnown]
      unfold compared at hCompared
      cases hMade :
          Comparison.ofParts operator selector values with
      | ok c =>
          simp only [hMade] at hCompared
          exact tracks_ok hCompared
      | error cause =>
          simp only [hMade] at hCompared
          exact tracks_error hCompared
    · rename_i hMissing
      have hUnknown : R.get? symbol = none := by
        cases hKnown : R.get? symbol with
        | none => rfl
        | some operator =>
            exact absurd
              ((R.contains_iff_get? symbol).mpr
                ⟨operator, hKnown⟩)
              hMissing
      apply tracks_error
      rw [hSelector, offset_of_getElem? hy]
      exact State.runFrom_of_stops hy
        (.unknownSymbol hToken hUnknown)
  · rename_i hOther
    refine tracks_unexpected hSelector ?_ fun _ => rfl
    intro y hy
    cases hToken : y.token with
    | operator symbol =>
        exact absurd (by rw [hy, Option.map_some, hToken])
          (hOther symbol)
    | _ => rfl

end Descent

end FilterQuery

------------------------------------------------------------
-- Chains
------------------------------------------------------------

namespace FilterQuery

/- Several children of AND and OR always pass the check. -/
theorem Node.combine_of_two_le
    {connective : Connective}
    {children : List Node}
    (hKind : connective ≠ .not)
    (hMany : 2 ≤ children.length) :
    combine connective children =
      .ok (connect connective children) := by
  rcases children with _ | ⟨n, _ | ⟨m, ms⟩⟩
  · simp at hMany
  · simp at hMany
  · cases connective with
    | not => exact absurd rfl hKind
    | and | or => rfl

namespace Descent

variable {xs : List Lexeme}
variable {start : Nat}
variable {outcome : Except ParseError Node × List Lexeme}
variable {separator : Token}
variable {connective : Connective}
variable {part :
  (position : Nat) → start ≤ position →
    Descent xs position Node}
variable {Ready Read : List Node → Nat → Prop}

/-
  The run is ready for a part behind each separator, and a
  part that is read there is one child more.
-/
structure Links
    (outcome : Except ParseError Node × List Lexeme)
    (separator : Token)
    (part :
      (position : Nat) → start ≤ position →
        Descent xs position Node)
    (Ready Read : List Node → Nat → Prop) :
    Prop where
  part :
    ∀ children position hStart,
      Ready children position →
        (part position hStart).Tracks outcome
          fun child next => Read (children ++ [child]) next
  separator :
    ∀ children position x,
      xs[position]? = some x → x.token = separator →
        Read children position →
          Ready children (advance xs position)

/- Parts are read until no separator is behind one. -/
theorem tracks_moreParts
    (hLinks : Links outcome separator part Ready Read)
    {children : List Node}
    {position : Nat}
    (hStart : start ≤ position)
    (hRead : Read children position) :
    (moreParts separator part children position
        hStart).Tracks outcome fun all last =>
      Read all last ∧
        checks xs separator last = false ∧
        children.length +
            (checks xs separator position).toNat ≤
          all.length := by
  induction children, position, hStart using
    @moreParts.induct xs start separator with
  | case1 children position hStart hToken hNext ih =>
      rw [moreParts, dif_pos hToken, hToken]
      rcases checks_iff.mp hToken with ⟨x, hThere, hx⟩
      have hReady := hLinks.separator _ _ x hThere hx hRead
      refine
        ((hLinks.part _ _ hNext hReady).bind ?_).behind
      intro child next hChild hMore
      refine (ih child next hChild hMore).mono ?_
      rintro all last ⟨hAll, hNone, hLength⟩
      refine ⟨hAll, hNone, ?_⟩
      rw [List.length_append, List.length_singleton]
        at hLength
      rw [Bool.toNat_true]
      omega
  | case2 children position hStart hToken =>
      rw [moreParts, dif_neg hToken]
      rw [Bool.not_eq_true] at hToken
      refine tracks_ok ⟨hRead, hToken, ?_⟩
      rw [hToken]
      exact Nat.le_refl _

/-
  A chain reads parts with the separator between them and
  puts them together.
-/
theorem tracks_chain
    (hLinks : Links outcome separator part Ready Read)
    (hKind : connective ≠ .not)
    (hReady : Ready [] start) :
    (chain separator connective start part).Tracks outcome
      fun n last =>
        ∃ children,
          Read children last ∧
            checks xs separator last = false ∧
            n = Node.connect connective children := by
  unfold chain
  refine
    (hLinks.part [] start (Nat.le_refl _) hReady).bind ?_
  intro first position hFirst hRead
  split
  · rename_i hToken
    refine (tracks_moreParts hLinks hFirst hRead).bind ?_
    rintro children last _ ⟨hAll, hNone, hLength⟩
    rw [hToken, Bool.toNat_true] at hLength
    unfold logical
    rw [Node.combine_of_two_le hKind hLength]
    exact tracks_ok ⟨children, hAll, hNone, rfl⟩
  · rename_i hToken
    rw [Bool.not_eq_true] at hToken
    refine tracks_ok ⟨[first], hRead, hToken, ?_⟩
    cases connective with
    | not => exact absurd rfl hKind
    | and | or => rfl

end Descent

end FilterQuery

------------------------------------------------------------
-- Queries
------------------------------------------------------------

namespace FilterQuery

namespace Descent

variable {R : Registry}
variable {xs : List Lexeme}
variable {start : Nat}
variable {groups : List Group}
variable {level : Level}
variable {outcome : Except ParseError Node × List Lexeme}

/-
  The run has read the last operand of a level with the tree,
  and neither a semicolon nor a comma is behind it.
-/
def EndsLevel
    (R : Registry)
    (xs : List Lexeme)
    (outcome : Except ParseError Node × List Lexeme)
    (groups : List Group)
    (n : Node)
    (position : Nat) : Prop :=
  ∃ level operand,
    n = level.close operand ∧
      checks xs .semicolon position = false ∧
      checks xs .comma position = false ∧
      outcome =
        State.runFrom R xs ⟨groups, level, .complete operand⟩
          position

/- A disjunction from a position on is a level of the run. -/
def TracksLevel
    (R : Registry)
    (xs : List Lexeme)
    (start : Nat) : Prop :=
  ∀ outcome groups,
    outcome =
        State.runFrom R xs ⟨groups, .empty, .operand⟩ start →
      (disjunction R xs start).Tracks outcome
        (EndsLevel R xs outcome groups)

/- A group is read where its parenthesis opens a level. -/
theorem tracks_group
    {st : State}
    {negated : Bool}
    (hInside :
      start < xs.length → TracksLevel R xs (advance xs start))
    (hRun : outcome = st.runFrom R xs start)
    (hOpens :
      ∀ x : Lexeme,
        x.token = .openParen →
          State.Moves R st x
            ⟨⟨negated, level⟩ :: groups, .empty, .operand⟩)
    (hOther :
      checks xs .openParen start = false →
        outcome =
          (.error (unexpected xs .group start),
            xs.drop start)) :
    (group R xs start).Tracks outcome fun n position =>
      outcome =
        State.runFrom R xs
          ⟨groups, level,
            .complete (Group.operand ⟨negated, level⟩ n)⟩
          position := by
  rw [group]
  refine tracks_expectToken ?_ fun hNone =>
    tracks_error (hOther hNone)
  intro x hMore hThere hx
  rw [State.runFrom_of_moves hThere (hOpens x hx)] at hRun
  refine (hInside hMore _ _ hRun).bind ?_
  rintro n position _
    ⟨inner, operand, rfl, hSemicolon, hComma, hEnd⟩
  refine tracks_expectToken ?_ ?_
  · intro y _ hThere hy
    apply tracks_ok
    rw [hEnd]
    exact State.runFrom_of_moves hThere (.closeGroup hy)
  · intro hClosing
    refine tracks_unexpected hEnd ?_ fun _ => rfl
    intro y hThere
    simp [State.admits, State.expected, Expected.admits,
      token_ne_of_checks hSemicolon hThere,
      token_ne_of_checks hComma hThere,
      token_ne_of_checks hClosing hThere]

/- A group is read behind an exclamation mark. -/
theorem tracks_negatedGroup
    (hInside :
      start < xs.length → TracksLevel R xs (advance xs start))
    (hRun :
      outcome =
        State.runFrom R xs ⟨groups, level, .negation⟩
          start) :
    (group R xs start).Tracks outcome fun n position =>
      outcome =
        State.runFrom R xs
          ⟨groups, level, .complete n.negate⟩ position := by
  refine
    tracks_group hInside hRun (fun _ => .negatedGroup) ?_
  intro hNone
  refine
    hRun.trans (State.runFrom_of_refused ?_ fun _ => rfl)
  intro x hThere
  simp [State.admits, State.expected, Expected.admits,
    token_ne_of_checks hNone hThere]

/- An operand is read where one must start. -/
theorem tracks_operand
    (hInside :
      ∀ position,
        start < position → position ≤ xs.length →
          TracksLevel R xs position)
    (hRun :
      outcome =
        State.runFrom R xs ⟨groups, level, .operand⟩ start) :
    (operand R xs start).Tracks outcome fun n position =>
      outcome =
        State.runFrom R xs ⟨groups, level, .complete n⟩
          position := by
  have hBehind :
      ∀ position,
        start ≤ position → position < xs.length →
          TracksLevel R xs (advance xs position) := by
    intro position hStart hMore
    apply hInside <;> rw [advance_of_lt hMore] <;> omega
  rw [operand]
  cases hThere : xs[start]? with
  | none =>
      refine tracks_unexpected hRun ?_ fun _ => rfl
      intro x hx
      rw [hThere] at hx
      cases hx
  | some x =>
      rw [Option.map_some]
      cases hToken : x.token with
      | bang =>
          rw [State.runFrom_of_moves hThere (.bang hToken)]
            at hRun
          have hGroup :=
            tracks_negatedGroup
              (hBehind _ (le_advance xs start)) hRun
          refine (hGroup.bind ?_).behind
          intro inner position _ hInner
          exact tracks_ok hInner
      | openParen =>
          refine
            tracks_group (hBehind _ (Nat.le_refl _)) hRun
              (fun _ => .group) ?_
          intro hNone
          exact absurd hToken (token_ne_of_checks hNone hThere)
      | bare value | quoted value =>
          have hValue : x.token.isValue = true := by
            rw [hToken]
            rfl
          exact tracks_comparison hThere hValue hRun
      | _ =>
          refine tracks_unexpected hRun ?_ fun _ => rfl
          intro y hy
          rw [hThere] at hy
          cases hy
          rw [hToken]
          rfl

/- The run wants an operand behind the operands of a level. -/
def WantsOperand
    (R : Registry)
    (xs : List Lexeme)
    (outcome : Except ParseError Node × List Lexeme)
    (groups : List Group)
    (conjunctions operands : List Node)
    (position : Nat) : Prop :=
  outcome =
    State.runFrom R xs
      ⟨groups, ⟨conjunctions, operands.reverse⟩, .operand⟩
      position

/- The run has read the operands of a level. -/
def EndsOperand
    (R : Registry)
    (xs : List Lexeme)
    (outcome : Except ParseError Node × List Lexeme)
    (groups : List Group)
    (conjunctions operands : List Node)
    (position : Nat) : Prop :=
  ∃ before last,
    operands = before ++ [last] ∧
      outcome =
        State.runFrom R xs
          ⟨groups, ⟨conjunctions, before.reverse⟩,
            .complete last⟩
          position

/- Operands of a level are linked by semicolons. -/
theorem links_operands
    {conjunctions : List Node}
    (hInside :
      ∀ position,
        start < position → position ≤ xs.length →
          TracksLevel R xs position) :
    Links outcome .semicolon
      (fun position (_ : start ≤ position) =>
        operand R xs position)
      (WantsOperand R xs outcome groups conjunctions)
      (EndsOperand R xs outcome groups conjunctions) := by
  constructor
  · intro operands position hStart hWants
    refine (tracks_operand ?_ hWants).mono ?_
    · intro next hNext hMore
      exact hInside next (by omega) hMore
    · intro n next hEnd
      exact ⟨operands, n, rfl, hEnd⟩
  · rintro _ position x hThere hx ⟨before, last, rfl, hEnd⟩
    unfold WantsOperand
    rw [State.runFrom_of_moves hThere (.nextOperand hx)]
      at hEnd
    rw [hEnd, List.reverse_append]
    rfl

/-
  The run has read the last operand of a conjunction with the
  tree, and no semicolon is behind it.
-/
def EndsConjunction
    (R : Registry)
    (xs : List Lexeme)
    (outcome : Except ParseError Node × List Lexeme)
    (groups : List Group)
    (conjunctions : List Node)
    (n : Node)
    (position : Nat) : Prop :=
  ∃ operands last,
    n = (⟨conjunctions, operands⟩ : Level).conjunction last ∧
      checks xs .semicolon position = false ∧
      outcome =
        State.runFrom R xs
          ⟨groups, ⟨conjunctions, operands⟩, .complete last⟩
          position

/- Operands are read into a conjunction of a level. -/
theorem tracks_conjunction
    {conjunctions : List Node}
    (hInside :
      ∀ position,
        start < position → position ≤ xs.length →
          TracksLevel R xs position)
    (hWants :
      WantsOperand R xs outcome groups conjunctions [] start) :
    (conjunction R xs start).Tracks outcome
      (EndsConjunction R xs outcome groups conjunctions) := by
  rw [conjunction]
  refine
    (tracks_chain (links_operands hInside) (by decide)
      hWants).mono ?_
  rintro n position
    ⟨_, ⟨before, last, rfl, hEnd⟩, hSemicolon, rfl⟩
  refine ⟨before.reverse, last, ?_, hSemicolon, hEnd⟩
  unfold Level.conjunction
  rw [List.reverse_cons, List.reverse_reverse]

/- Conjunctions of a level are linked by commas. -/
theorem links_conjunctions
    (hInside :
      ∀ position,
        start < position → position ≤ xs.length →
          TracksLevel R xs position) :
    Links outcome .comma
      (fun position (_ : start ≤ position) =>
        conjunction R xs position)
      (fun conjunctions =>
        WantsOperand R xs outcome groups
          conjunctions.reverse [])
      (fun conjunctions position =>
        ∃ before last,
          conjunctions = before ++ [last] ∧
            EndsConjunction R xs outcome groups
              before.reverse last position) := by
  constructor
  · intro conjunctions position hStart hWants
    refine (tracks_conjunction ?_ hWants).mono ?_
    · intro next hNext hMore
      exact hInside next (by omega) hMore
    · intro n next hEnd
      exact ⟨conjunctions, n, rfl, hEnd⟩
  · rintro _ position x hThere hx
      ⟨before, _, rfl, operands, last, rfl, _, hEnd⟩
    unfold WantsOperand
    rw [State.runFrom_of_moves hThere (.nextConjunction hx)]
      at hEnd
    rw [hEnd, List.reverse_append]
    rfl

/- Conjunctions are read into a level. -/
theorem tracksLevel_of_inside
    (hInside :
      ∀ position,
        start < position → position ≤ xs.length →
          TracksLevel R xs position) :
    TracksLevel R xs start := by
  intro outcome groups hRun
  rw [disjunction]
  refine
    (tracks_chain (links_conjunctions hInside) (by decide)
      hRun).mono ?_
  rintro n position
    ⟨_, ⟨before, _, rfl, operands, last, rfl, hSemicolon,
      hEnd⟩, hComma, rfl⟩
  refine ⟨_, last, ?_, hSemicolon, hComma, hEnd⟩
  unfold Level.close
  rw [List.reverse_cons, List.reverse_reverse]

/- Wherever it starts, a disjunction is a level of the run. -/
theorem tracks_disjunction
    (R : Registry)
    (xs : List Lexeme)
    (start : Nat) :
    TracksLevel R xs start := by
  -- Calls inside of parentheses start further on.
  induction hLeft : xs.length - start using
    Nat.strongRecOn generalizing start with
  | ind left ih =>
      apply tracksLevel_of_inside
      intro position hAfter hInside
      exact ih (xs.length - position) (by omega) position rfl

/- A query is read from the start of a run to its end. -/
theorem tracks_query
    (R : Registry)
    (xs : List Lexeme)
    (start : Nat)
    (hRun :
      outcome = State.runFrom R xs .start start) :
    (query R xs start).Tracks outcome fun n position =>
      outcome = (.ok n, xs.drop position) := by
  unfold query
  refine (tracks_disjunction R xs start outcome [] hRun).bind ?_
  rintro n position _
    ⟨level, operand, rfl, hSemicolon, hComma, hEnd⟩
  split
  · rename_i hLast
    apply tracks_ok
    rw [hEnd, State.runFrom_of_end
      (List.getElem?_eq_none_iff.mpr hLast)]
    rfl
  · rename_i hMore
    refine tracks_unexpected hEnd ?_ ?_
    · intro x hThere
      simp [State.admits, State.expected, Expected.admits,
        token_ne_of_checks hSemicolon hThere,
        token_ne_of_checks hComma hThere]
    · intro hNone
      exact absurd (List.getElem?_eq_none_iff.mp hNone) hMore

/-
  From each position, the descent gives what a run over the
  lexemes from there on gives, and ends before the lexemes
  that the run leaves.
-/
theorem query_eq_run
    (R : Registry)
    (xs : List Lexeme)
    (start : Nat) :
    State.start.run R (xs.drop start) =
      ((query R xs start).result,
        xs.drop (query R xs start).position) := by
  have hTracks := tracks_query R xs start rfl
  cases hResult : (query R xs start).result with
  | ok n => exact hTracks.ok n hResult
  | error e => exact hTracks.error e hResult

end Descent

/- Parsing is reading from the start to the end. -/
theorem Registry.parseLexemes_eq_run
    (R : Registry)
    (xs : List Lexeme) :
    R.parseLexemes xs = (State.start.run R xs).1 :=
  (congrArg Prod.fst (Descent.query_eq_run R xs 0)).symm

end FilterQuery
