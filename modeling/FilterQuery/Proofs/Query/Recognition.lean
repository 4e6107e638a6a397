import FilterQuery.Proofs.Query.Following
import FilterQuery.Proofs.Query.Prefixes
import FilterQuery.Proofs.Query.Trees

/-
  This file proves that parsing recognizes the grammar: the
  lexemes that are parsed into a tree are those that mean it.

  Key theorems include:
    * `FilterQuery.Registry.parseLexemes_eq_ok`
    * `FilterQuery.Registry.Means.unique`
    * `FilterQuery.Registry.Means.list_of_operator`
    * `FilterQuery.Registry.parseLexemes_recognizes_grammar`
-/

------------------------------------------------------------
-- Parsing And Meaning
------------------------------------------------------------

namespace FilterQuery

namespace Registry

variable {R : Registry}

/- Parsing finds the tree that lexemes mean, and no other. -/
theorem parseLexemes_eq_ok
    {xs : List Lexeme}
    {n : Node} :
    R.parseLexemes xs = .ok n ↔ R.Means xs n :=
  ⟨means_of_parseLexemes, parseLexemes_of_means⟩

/- Lexemes mean at most one tree. -/
theorem Means.unique
    {xs : List Lexeme}
    {n m : Node}
    (hLeft : R.Means xs n)
    (hRight : R.Means xs m) :
    n = m := by
  have hSame : Except.ok n = Except.ok m :=
    (parseLexemes_of_means hLeft).symm.trans
      (parseLexemes_of_means hRight)
  exact Except.ok.inj hSame

/- A semicolon before a comma joins first. -/
theorem means_semicolon_comma
    {semicolon comma : Lexeme}
    {us vs ws : List Lexeme}
    {a b c : Node}
    (hA : Derives R.reading .operand us [a])
    (hB : Derives R.reading .operand vs [b])
    (hC : Derives R.reading .operand ws [c])
    (hSemicolon : semicolon.token = .semicolon)
    (hComma : comma.token = .comma) :
    R.Means (us ++ semicolon :: (vs ++ comma :: ws))
      (.logical .or [.logical .and [a, b], c]) := by
  have hBoth :=
    Derives.moreOperands hA hSemicolon (.oneOperand hB)
  have hAll := Derives.moreConjunctions hBoth hComma hC.query
  rw [List.append_assoc, List.cons_append] at hAll
  exact ⟨_, hAll, rfl⟩

/- A semicolon after a comma joins first. -/
theorem means_comma_semicolon
    {semicolon comma : Lexeme}
    {us vs ws : List Lexeme}
    {a b c : Node}
    (hA : Derives R.reading .operand us [a])
    (hB : Derives R.reading .operand vs [b])
    (hC : Derives R.reading .operand ws [c])
    (hSemicolon : semicolon.token = .semicolon)
    (hComma : comma.token = .comma) :
    R.Means (us ++ comma :: (vs ++ semicolon :: ws))
      (.logical .or [a, .logical .and [b, c]]) := by
  have hBoth :=
    Derives.moreOperands hB hSemicolon (.oneOperand hC)
  have hAll :=
    Derives.moreConjunctions (.oneOperand hA) hComma
      (.oneConjunction hBoth)
  exact ⟨_, hAll, rfl⟩

end Registry

end FilterQuery

------------------------------------------------------------
-- Parentheses After Operators
------------------------------------------------------------

namespace FilterQuery

namespace State

variable {R : Registry}

/-
  A list of arguments that is read to the end of the query
  consists of values and a closing parenthesis.
-/
theorem values_of_reaches
    {groups : List Group}
    {level : Level}
    {head : Head}
    {arguments : List String}
    {st : State}
    {xs : List Lexeme}
    {n : Node}
    (hReaches :
      Reaches R ⟨groups, level, .list head arguments⟩ xs st)
    (hFinish : st.finish = .ok n) :
    ∃ ys values closing zs,
      xs = ys ++ closing :: zs ∧
        Values ys values ∧ closing.token = .closeParen := by
  cases hReaches with
  | refl =>
      cases hFinish
  | step hMove hMore =>
      cases hMove with
      | argument hValue =>
          cases hMore with
          | refl =>
              cases hFinish
          | step hMove hRest =>
              cases hMove with
              | nextArgument hComma =>
                  rcases values_of_reaches hRest hFinish with
                    ⟨ys, values, closing, zs, rfl, hValues,
                      hClosing⟩
                  exact ⟨_, _, closing, zs, rfl,
                    .more hValue hComma hValues, hClosing⟩
              | closeList hClosing _ =>
                  exact ⟨[_], [_], _, _, rfl, .one hValue,
                    hClosing⟩
termination_by xs.length

/- After an operator the state waits for arguments. -/
theorem symbol_of_moves
    {st st' : State}
    {x : Lexeme}
    {symbol : String}
    (hMove : Moves R st x st')
    (hToken : x.token = .operator symbol) :
    ∃ groups level head,
      st' = ⟨groups, level, .symbol head⟩ := by
  cases hMove with
  | symbol _ _ =>
      exact ⟨_, _, _, rfl⟩
  | selector h | single h _ | argument h =>
      rw [hToken] at h
      cases h
  | group h | bang h | negatedGroup h | list h
  | nextArgument h | closeList h _ | nextOperand h
  | nextConjunction h | closeGroup h =>
      rw [hToken] at h
      cases h

/- After an operator, a parenthesis opens a list. -/
theorem list_of_moves
    {groups : List Group}
    {level : Level}
    {head : Head}
    {st : State}
    {x : Lexeme}
    (hMove : Moves R ⟨groups, level, .symbol head⟩ x st)
    (hToken : x.token = .openParen) :
    st = ⟨groups, level, .list head []⟩ := by
  cases hMove with
  | list _ =>
      rfl
  | single h _ =>
      rw [hToken] at h
      cases h

end State

/-
  In a query with a meaning, a parenthesis behind an operator
  opens a list of values.
-/
theorem Registry.Means.list_of_operator
    {R : Registry}
    {before after : List Lexeme}
    {x opening : Lexeme}
    {symbol : String}
    {n : Node}
    (hMeans :
      R.Means (before ++ x :: opening :: after) n)
    (hSymbol : x.token = .operator symbol)
    (hOpening : opening.token = .openParen) :
    ∃ xs values closing ys,
      after = xs ++ closing :: ys ∧
        Values xs values ∧ closing.token = .closeParen := by
  rcases reaches_of_parseLexemes
      (parseLexemes_of_means hMeans) with
    ⟨st, hReaches, hFinish⟩
  rcases hReaches.split with ⟨_, _, hAfter⟩
  cases hAfter with
  | step hMove hMore =>
      rcases State.symbol_of_moves hMove hSymbol with
        ⟨groups, level, head, rfl⟩
      cases hMore with
      | step hMove hMore =>
          rw [State.list_of_moves hMove hOpening] at hMore
          exact State.values_of_reaches hMore hFinish

end FilterQuery

------------------------------------------------------------
-- Recognition
------------------------------------------------------------

namespace FilterQuery

/-
  Parsing recognizes the grammar: it finds a tree exactly if
  the lexemes mean that tree.  So the grammar is unambiguous.
  Connectives other than NOT have several operands, semicolons
  join before commas, and a parenthesis behind an operator
  opens a list of arguments, never a group.
-/
theorem Registry.parseLexemes_recognizes_grammar
    (R : Registry) :
    (∀ xs n, R.parseLexemes xs = .ok n ↔ R.Means xs n) ∧
      (∀ xs n m, R.Means xs n → R.Means xs m → n = m) ∧
      (∀ xs n, R.Means xs n → n.Branching) ∧
      (∀ us vs ws semicolon comma a b c,
        Derives R.reading .operand us [a] →
          Derives R.reading .operand vs [b] →
          Derives R.reading .operand ws [c] →
          semicolon.token = .semicolon →
          comma.token = .comma →
            R.Means (us ++ semicolon :: (vs ++ comma :: ws))
              (.logical .or [.logical .and [a, b], c]) ∧
            R.Means (us ++ comma :: (vs ++ semicolon :: ws))
              (.logical .or [a, .logical .and [b, c]])) ∧
      ∀ before after x opening symbol n,
        R.Means (before ++ x :: opening :: after) n →
          x.token = .operator symbol →
          opening.token = .openParen →
            ∃ xs values closing ys,
              after = xs ++ closing :: ys ∧
                Values xs values ∧
                closing.token = .closeParen := by
  refine ⟨?_, ?_, ?_, ?_, ?_⟩
  · intro xs n
    exact parseLexemes_eq_ok
  · intro xs n m hLeft hRight
    exact hLeft.unique hRight
  · intro xs n hMeans
    exact hMeans.branching
  · intro us vs ws semicolon comma a b c hA hB hC hSemicolon
      hComma
    exact
      ⟨means_semicolon_comma hA hB hC hSemicolon hComma,
        means_comma_semicolon hA hB hC hSemicolon hComma⟩
  · intro before after x opening symbol n hMeans hSymbol
      hOpening
    exact hMeans.list_of_operator hSymbol hOpening

/-
  In `a==1;b=in=(2,3),c==4` the semicolon joins first, and
  the parenthesis opens a list.
-/
theorem Registry.parseLexemes_recognizes_sample :
    ∃ n,
      basic.parseLexemes
          [⟨.bare "a", 0, 1⟩, ⟨.operator "==", 1, 3⟩,
            ⟨.bare "1", 3, 4⟩, ⟨.semicolon, 4, 5⟩,
            ⟨.bare "b", 5, 6⟩, ⟨.operator "=in=", 6, 10⟩,
            ⟨.openParen, 10, 11⟩, ⟨.bare "2", 11, 12⟩,
            ⟨.comma, 12, 13⟩, ⟨.bare "3", 13, 14⟩,
            ⟨.closeParen, 14, 15⟩, ⟨.comma, 15, 16⟩,
            ⟨.bare "c", 16, 17⟩, ⟨.operator "==", 17, 19⟩,
            ⟨.bare "4", 19, 20⟩] = .ok n ∧
        n =
          .logical .or
            [.logical .and
              [.comparison
                ⟨Builtin.equal.operator, "a", ["1"]⟩,
              .comparison
                ⟨Builtin.inList.operator, "b", ["2", "3"]⟩],
            .comparison
              ⟨Builtin.equal.operator, "c", ["4"]⟩] ∧
        n.Branching ∧
        ∃ xs values closing ys,
          [⟨.bare "2", 11, 12⟩, ⟨.comma, 12, 13⟩,
              ⟨.bare "3", 13, 14⟩, ⟨.closeParen, 14, 15⟩,
              ⟨.comma, 15, 16⟩, ⟨.bare "c", 16, 17⟩,
              ⟨.operator "==", 17, 19⟩, ⟨.bare "4", 19, 20⟩] =
            xs ++ closing :: ys ∧
              Values xs values ∧
              closing.token = .closeParen := by
  rcases parseLexemes_recognizes_grammar basic with
    ⟨hExact, hUnique, hBranching, hBinds, hList⟩
  have hA :
      Derives basic.reading .operand
        [⟨.bare "a", 0, 1⟩, ⟨.operator "==", 1, 3⟩,
          ⟨.bare "1", 3, 4⟩]
        [.comparison ⟨Builtin.equal.operator, "a", ["1"]⟩] :=
    .comparison (.intro rfl rfl (.single rfl))
      (.intro rfl rfl (Or.inr rfl))
  have hB :
      Derives basic.reading .operand
        [⟨.bare "b", 5, 6⟩, ⟨.operator "=in=", 6, 10⟩,
          ⟨.openParen, 10, 11⟩, ⟨.bare "2", 11, 12⟩,
          ⟨.comma, 12, 13⟩, ⟨.bare "3", 13, 14⟩,
          ⟨.closeParen, 14, 15⟩]
        [.comparison
          ⟨Builtin.inList.operator, "b", ["2", "3"]⟩] :=
    .comparison
      (.intro rfl rfl (.list rfl (.more rfl rfl (.one rfl)) rfl))
      (.intro rfl rfl (Or.inl rfl))
  have hC :
      Derives basic.reading .operand
        [⟨.bare "c", 16, 17⟩, ⟨.operator "==", 17, 19⟩,
          ⟨.bare "4", 19, 20⟩]
        [.comparison ⟨Builtin.equal.operator, "c", ["4"]⟩] :=
    .comparison (.intro rfl rfl (.single rfl))
      (.intro rfl rfl (Or.inr rfl))
  have hBoth :=
    hBinds _ _ _ ⟨.semicolon, 4, 5⟩ ⟨.comma, 15, 16⟩ _ _ _
      hA hB hC rfl rfl
  have hMeans := hBoth.1
  have hParsed := (hExact _ _).mpr hMeans
  refine ⟨_, hParsed, ?_, ?_, ?_⟩
  · exact hUnique _ _ _ ((hExact _ _).mp hParsed) hMeans
  · exact hBranching _ _ hMeans
  · exact
      hList
        [⟨.bare "a", 0, 1⟩, ⟨.operator "==", 1, 3⟩,
          ⟨.bare "1", 3, 4⟩, ⟨.semicolon, 4, 5⟩,
          ⟨.bare "b", 5, 6⟩]
        _ ⟨.operator "=in=", 6, 10⟩ ⟨.openParen, 10, 11⟩
        "=in=" _ hMeans rfl rfl

end FilterQuery
