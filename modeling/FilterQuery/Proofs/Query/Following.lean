import FilterQuery.Proofs.Query.Derivations
import FilterQuery.Proofs.Query.Runs

/-
  This file proves that reading follows derivations: lexemes
  that derive trees are read to the end, and lexemes that are
  written with a fault stop the reading at their first fault.

  Key definitions include:
    * `FilterQuery.State.Follows`

  Key theorems include:
    * `FilterQuery.State.follows_of_derives`
    * `FilterQuery.State.fails_of_written`
    * `FilterQuery.Registry.parseLexemes_of_means`
    * `FilterQuery.Registry.parseLexemes_of_fault`
-/

------------------------------------------------------------
-- Comparisons
------------------------------------------------------------

namespace FilterQuery

namespace State

variable {R : Registry}

/- Selector and symbol of a comparison are read. -/
theorem reaches_symbol
    {x y : Lexeme}
    {selector symbol : String}
    {operator : Operator}
    (hSelector : x.token.value? = some selector)
    (hSymbol : y.token = .operator symbol)
    (hKnown : R.get? symbol = some operator)
    (groups : List Group)
    (level : Level) :
    Reaches R ⟨groups, level, .operand⟩ [x, y]
      ⟨groups, level, .symbol ⟨operator, selector, x.start⟩⟩ :=
  .step (.selector hSelector)
    (.single (.symbol hSymbol hKnown))

/- A list of arguments is read up to its last argument. -/
theorem reaches_of_values
    {xs : List Lexeme}
    {values : List String}
    (hValues : Values xs values)
    (groups : List Group)
    (level : Level)
    (head : Head)
    (arguments : List String) :
    ∃ last before,
      (last :: before).reverse =
          arguments.reverse ++ values ∧
        Reaches R ⟨groups, level, .list head arguments⟩ xs
          ⟨groups, level, .argument head last before⟩ := by
  induction hValues generalizing arguments with
  | one hValue =>
      exact ⟨_, arguments, by simp,
        .single (.argument hValue)⟩
  | more hValue hComma _ ih =>
      rename_i value _ _ _
      rcases ih (value :: arguments) with
        ⟨last, before, hSame, hReaches⟩
      refine ⟨last, before, ?_, ?_⟩
      · rw [hSame, List.reverse_cons, List.append_assoc,
          List.singleton_append]
      · exact .step (.argument hValue)
          (.step (.nextArgument hComma) hReaches)

/-
  The last lexeme of the arguments completes a comparison
  that can be made, and refuses one that cannot.
-/
theorem last_of_arguments
    {xs : List Lexeme}
    {values : List String}
    (hArguments : Arguments xs values)
    (groups : List Group)
    (level : Level)
    (head : Head) :
    ∃ before last st,
      xs = before ++ [last] ∧
        Reaches R ⟨groups, level, .symbol head⟩ before st ∧
        (∀ c,
          Comparison.ofParts head.operator head.selector
              values = .ok c →
            Moves R st last
              ⟨groups, level, .complete (.comparison c)⟩) ∧
        ∀ cause,
          Comparison.ofParts head.operator head.selector
              values = .error cause →
            Stops R st last
              ⟨.invalidNode head.start cause, true⟩ := by
  cases hArguments with
  | single hValue =>
      exact ⟨[], _, _, rfl, .refl _,
        fun c hMade => .single hValue hMade,
        fun cause hRefused => .single hValue hRefused⟩
  | list hOpening hValues hClosing =>
      rename_i opening closing xs
      rcases reaches_of_values (R := R) hValues groups level
          head [] with
        ⟨argument, before, hSame, hReaches⟩
      have hValuesEq :
          values = (argument :: before).reverse := by
        simpa using hSame.symm
      refine ⟨opening :: xs, closing, _, rfl,
        .step (.list hOpening) hReaches, ?_, ?_⟩
      · intro c hMade
        rw [hValuesEq] at hMade
        exact .closeList hClosing hMade
      · intro cause hRefused
        rw [hValuesEq] at hRefused
        exact .closeList hClosing hRefused

/- A comparison that means a tree is read to its end. -/
theorem reaches_of_compares
    {w : Written}
    {xs : List Lexeme}
    {n : Node}
    (hSpells : w.Spells xs)
    (hCompares : R.Compares w n)
    (groups : List Group)
    (level : Level) :
    Reaches R ⟨groups, level, .operand⟩ xs
      ⟨groups, level, .complete n⟩ := by
  have hSome := hSpells.ne_nil
  cases hSpells with
  | intro hSelector hSymbol hArguments =>
      cases hKnown : R.get? _ with
      | none =>
          cases hCompares with
          | intro hGet _ _ =>
              rw [hKnown] at hGet
              cases hGet
      | some operator =>
          rcases (Registry.compares_iff hKnown hSome).mp
              hCompares with
            ⟨c, hMade, rfl⟩
          rcases last_of_arguments (R := R) hArguments groups
              level ⟨operator, _, _⟩ with
            ⟨before, last, st, rfl, hBefore, hLast, _⟩
          have hHead :=
            reaches_symbol hSelector hSymbol hKnown groups
              level
          exact hHead.trans
            (hBefore.trans (.single (hLast c hMade)))

/- A comparison with a fault stops the reading. -/
theorem fails_of_spells
    {w : Written}
    {xs : List Lexeme}
    {e : ParseError}
    (hSpells : w.Spells xs)
    (hFault : R.fault? w = some e)
    (groups : List Group)
    (level : Level) :
    Fails R ⟨groups, level, .operand⟩ xs e := by
  have hSome := hSpells.ne_nil
  cases hSpells with
  | intro hSelector hSymbol hArguments =>
      rename_i x y selector symbol xs arguments
      cases hKnown : R.get? symbol with
      | none =>
          have hError :
              e = .invalidNode y.start
                (.unknownOperator symbol) := by
            simpa [Registry.fault?, hKnown] using hFault.symm
          rw [hError]
          exact .of_moves (.selector hSelector)
            (.here (.unknownSymbol hSymbol hKnown) xs)
      | some operator =>
          cases hMade :
              Comparison.ofParts operator selector
                arguments with
          | ok c =>
              rw [Registry.fault?_of_ofParts_ok hKnown hMade]
                at hFault
              cases hFault
          | error cause =>
              rw [Registry.fault?_of_ofParts_error hKnown
                hSome hMade] at hFault
              cases hFault
              rcases last_of_arguments (R := R) hArguments
                  groups level
                  ⟨operator, selector, x.start⟩ with
                ⟨before, last, st, rfl, hBefore, _, hLast⟩
              have hHead :=
                reaches_symbol hSelector hSymbol hKnown groups
                  level
              have hStop := hLast cause hMade
              exact .of_reaches (hHead.trans hBefore)
                (.here hStop [])

end State

end FilterQuery

------------------------------------------------------------
-- Derivations
------------------------------------------------------------

namespace FilterQuery

namespace State

variable {R : Registry}

/-
  Reading the lexemes of a part of a query leaves its trees
  in the state: all but the last operand in the level, and
  the last one complete.
-/
def Follows
    (R : Registry) :
    Rule → List Lexeme → List Node → Prop
| .operand, xs, ns =>
    ∀ n groups level,
      ns = [n] →
        Reaches R ⟨groups, level, .operand⟩ xs
          ⟨groups, level, .complete n⟩
| .conjunction, xs, ns =>
    ∀ groups level, ∃ before last,
      ns = before ++ [last] ∧
        Reaches R ⟨groups, level, .operand⟩ xs
          ⟨groups,
            ⟨level.conjunctions,
              before.reverse ++ level.operands⟩,
            .complete last⟩
| .disjunction, xs, ns =>
    ∀ groups conjunctions, ∃ level last,
      (level.conjunction last :: level.conjunctions).reverse =
          conjunctions.reverse ++ ns ∧
        Reaches R ⟨groups, ⟨conjunctions, []⟩, .operand⟩ xs
          ⟨groups, level, .complete last⟩

/- A disjunction that starts a level fills that level. -/
theorem Follows.fill
    {xs : List Lexeme}
    {ns : List Node}
    (hInside : Follows R .disjunction xs ns)
    (groups : List Group) :
    ∃ level last,
      level.close last = R.reading.join .or ns ∧
        Reaches R ⟨groups, .empty, .operand⟩ xs
          ⟨groups, level, .complete last⟩ := by
  rcases hInside groups [] with
    ⟨level, last, hSame, hReaches⟩
  refine ⟨level, last, ?_, hReaches⟩
  rw [Level.close, hSame, List.reverse_nil, List.nil_append]
  rfl

/- A disjunction in parentheses is read as one operand. -/
theorem Follows.close
    {closing : Lexeme}
    {xs : List Lexeme}
    {ns : List Node}
    (hInside : Follows R .disjunction xs ns)
    (hClosing : closing.token = .closeParen)
    (group : Group)
    (groups : List Group) :
    Reaches R ⟨group :: groups, .empty, .operand⟩
      (xs ++ [closing])
      ⟨groups, group.outer,
        .complete
          (group.operand (R.reading.join .or ns))⟩ := by
  rcases hInside.fill (group :: groups) with
    ⟨level, last, hClose, hReaches⟩
  rw [← hClose]
  exact hReaches.trans (.single (.closeGroup hClosing))

/- Lexemes that derive trees are read as these trees. -/
theorem follows_of_derives
    {rule : Rule}
    {xs : List Lexeme}
    {ns : List Node}
    (hDerives : Derives R.reading rule xs ns) :
    Follows R rule xs ns := by
  induction hDerives with
  | comparison hSpells hMeans =>
      intro n groups level hSame
      cases hSame
      exact reaches_of_compares hSpells hMeans groups level
  | group hOpening _ hClosing ih =>
      intro n groups level hSame
      cases hSame
      exact .step (.group hOpening)
        (ih.close hClosing ⟨false, level⟩ groups)
  | negation hBang hOpening _ hClosing ih =>
      intro n groups level hSame
      cases hSame
      exact .step (.bang hBang)
        (.step (.negatedGroup hOpening)
          (ih.close hClosing ⟨true, level⟩ groups))
  | oneOperand _ ih =>
      intro groups level
      exact ⟨[], _, rfl, ih _ groups level rfl⟩
  | @moreOperands _ _ _ first _ _ hSemicolon _ ihFirst
      ihMore =>
      intro groups level
      rcases ihMore groups (level.pushOperand first) with
        ⟨before, last, rfl, hReaches⟩
      refine ⟨first :: before, last, rfl, ?_⟩
      rw [List.reverse_cons, List.append_assoc,
        List.singleton_append]
      exact (ihFirst _ groups level rfl).trans
        (.step (.nextOperand hSemicolon) hReaches)
  | oneConjunction _ ih =>
      intro groups conjunctions
      rcases ih groups ⟨conjunctions, []⟩ with
        ⟨before, last, rfl, hReaches⟩
      refine ⟨_, last, ?_, hReaches⟩
      simp [Level.conjunction, Registry.reading]
  | moreConjunctions _ hComma _ ihFirst ihMore =>
      intro groups conjunctions
      rcases ihFirst groups ⟨conjunctions, []⟩ with
        ⟨before, last, rfl, hFirst⟩
      rcases ihMore groups
          ((⟨conjunctions, before.reverse ++ []⟩ :
              Level).conjunction last :: conjunctions) with
        ⟨level, n, hSame, hMore⟩
      refine ⟨level, n, ?_,
        hFirst.trans
          (.step (.nextConjunction hComma) hMore)⟩
      rw [hSame, List.reverse_cons, List.append_assoc,
        List.singleton_append]
      simp [Level.conjunction, Registry.reading]

end State

end FilterQuery

------------------------------------------------------------
-- Faults
------------------------------------------------------------

namespace FilterQuery

namespace State

variable {R : Registry}

/- The leftmost fault of a list is in its first half or not. -/
theorem fault_append_cases
    {vs ws : List Written}
    {e : ParseError}
    (hFault : (vs ++ ws).findSome? R.fault? = some e) :
    vs.findSome? R.fault? = some e ∨
      (∀ w ∈ vs, R.fault? w = none) ∧
        ws.findSome? R.fault? = some e := by
  rw [List.findSome?_append] at hFault
  cases hFirst : vs.findSome? R.fault? with
  | some e' =>
      rw [hFirst] at hFault
      exact Or.inl hFault
  | none =>
      rw [hFirst] at hFault
      exact Or.inr
        ⟨List.findSome?_eq_none_iff.mp hFirst, hFault⟩

/-
  Lexemes that are written with a fault stop the reading at
  the leftmost fault.
-/
theorem fails_of_written
    {rule : Rule}
    {xs : List Lexeme}
    {parts : List (List Written)}
    {e : ParseError}
    (hDerives : Derives Written.reading rule xs parts)
    (hFault : parts.flatten.findSome? R.fault? = some e)
    (groups : List Group)
    (level : Level) :
    Fails R ⟨groups, level, .operand⟩ xs e := by
  induction hDerives generalizing groups level with
  | @comparison _ w _ hSpells hMeans =>
      cases hMeans
      have hOne : R.fault? w = some e := by
        simpa using hFault
      exact fails_of_spells hSpells hOne groups level
  | @group _ _ _ parts hOpening _ _ ih =>
      have hInside :
          parts.flatten.findSome? R.fault? = some e := by
        simpa [Written.reading] using hFault
      exact .of_moves (.group hOpening)
        ((ih hInside _ _).append _)
  | @negation _ _ _ _ parts hBang hOpening _ _ ih =>
      have hInside :
          parts.flatten.findSome? R.fault? = some e := by
        simpa [Written.reading] using hFault
      exact .of_moves (.bang hBang)
        (.of_moves (.negatedGroup hOpening)
          ((ih hInside _ _).append _))
  | oneOperand _ ih =>
      exact ih hFault groups level
  | @oneConjunction _ parts _ ih =>
      have hInside :
          parts.flatten.findSome? R.fault? = some e := by
        simpa [Written.reading] using hFault
      exact ih hInside groups level
  | @moreOperands _ _ _ first _ hOperand hSemicolon _ ihFirst
      ihMore =>
      rcases fault_append_cases hFault with
        hHere | ⟨hNone, hLater⟩
      · exact (ihFirst (by simpa using hHere) _ _).append _
      · rcases Registry.derives_of_written hOperand
            (by simpa using hNone) with
          ⟨ns, hLength, hNs⟩
        rcases hNs.operand_singleton with ⟨n, rfl⟩
        have hReaches :=
          follows_of_derives hNs n groups level rfl
        exact .of_reaches hReaches
          (.of_moves (.nextOperand hSemicolon)
            (ihMore hLater _ _))
  | @moreConjunctions _ _ _ parts _ hConjunction hComma _
      ihFirst ihMore =>
      rcases fault_append_cases hFault with
        hHere | ⟨hNone, hLater⟩
      · exact (ihFirst hHere _ _).append _
      · rcases Registry.derives_of_written hConjunction
            hNone with
          ⟨ns, hLength, hNs⟩
        rcases follows_of_derives hNs groups level with
          ⟨before, last, rfl, hReaches⟩
        exact .of_reaches hReaches
          (.of_moves (.nextConjunction hComma)
            (ihMore hLater _ _))

end State

end FilterQuery

------------------------------------------------------------
-- Whole Queries
------------------------------------------------------------

namespace FilterQuery

namespace Registry

variable {R : Registry}

/- Lexemes that mean a tree are parsed into that tree. -/
theorem parseLexemes_of_means
    {xs : List Lexeme}
    {n : Node}
    (hMeans : R.Means xs n) :
    R.parseLexemes xs = .ok n := by
  rcases hMeans with ⟨ns, hDerives, rfl⟩
  rcases (State.follows_of_derives hDerives).fill [] with
    ⟨level, last, hClose, hReaches⟩
  rw [parseLexemes_eq_run, State.start, hReaches.run]
  change Except.ok (level.close last) = _
  rw [hClose]

/- A sentence with a fault is rejected for the leftmost. -/
theorem parseLexemes_of_fault
    {xs : List Lexeme}
    {ws : List Written}
    {e : ParseError}
    (hSentence : Sentence xs ws)
    (hFault : ws.findSome? R.fault? = some e) :
    R.parseLexemes xs = .error e := by
  rcases hSentence with ⟨parts, hDerives, rfl⟩
  rw [parseLexemes_eq_run]
  exact (State.fails_of_written hDerives hFault [] .empty).run

/- A sentence without faults means a tree. -/
theorem means_of_sentence
    {xs : List Lexeme}
    {ws : List Written}
    (hSentence : Sentence xs ws)
    (hNone : ∀ w ∈ ws, R.fault? w = none) :
    ∃ n, R.Means xs n := by
  rcases hSentence with ⟨parts, hDerives, rfl⟩
  rcases derives_of_written hDerives hNone with
    ⟨ns, _, hNs⟩
  exact ⟨_, ns, hNs, rfl⟩

end Registry

end FilterQuery
