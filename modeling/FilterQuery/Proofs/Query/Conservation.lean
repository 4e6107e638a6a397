import FilterQuery.Proofs.Node.Spelling
import FilterQuery.Proofs.Query.Prefixes
import FilterQuery.Proofs.Query.Renaming
import FilterQuery.Proofs.Query.Trees

/-
  This file proves that parsing conserves the tokens of a
  query: each is found again in the tree.

  Key definitions include:
    * `FilterQuery.Token.words`
    * `FilterQuery.Node.words`
    * `FilterQuery.Node.arities`
    * `FilterQuery.Tally`

  Key theorems include:
    * `FilterQuery.Derives.tallies`
    * `FilterQuery.Node.count_eq`
    * `FilterQuery.Registry.parseLexemes_conserves`

  Values and symbols are the words of a tree, in their order.
  The marks between operands are counted by its connectives: a
  connective with one more operand stands for one more mark.
-/

------------------------------------------------------------
-- Words
------------------------------------------------------------

namespace FilterQuery

namespace Token

/- The value or the symbol that a token holds. -/
def word? : Token → Option String
| .operator symbol => some symbol
| t => t.value?

/- The words of tokens, in order. -/
def words (ts : List Token) : List String :=
  ts.filterMap word?

/- A token is a word, or one of five marks. -/
theorem length_eq_words_add_marks
    (ts : List Token) :
    ts.length =
      (words ts).length + ts.count .bang +
        ts.count .semicolon + ts.count .comma +
        ts.count .openParen + ts.count .closeParen := by
  induction ts with
  | nil =>
      rfl
  | cons t ts ih =>
      unfold words at ih ⊢
      cases t <;>
        simp [List.filterMap_cons, word?, value?] <;> omega

end Token

/-
  What is written for a comparison, with the canonical symbol
  of its operator.
-/
def Comparison.words (c : Comparison) : List String :=
  c.selector :: c.operator.symbol :: c.arguments

/- The words of the comparisons of a tree, left to right. -/
def Node.words (n : Node) : List String :=
  n.comparisons.flatMap Comparison.words

/- Every comparison has words. -/
theorem Node.length_comparisons_le_words
    (n : Node) :
    n.comparisons.length ≤ n.words.length := by
  unfold words
  induction n.comparisons with
  | nil =>
      exact Nat.le_refl 0
  | cons c cs ih =>
      rw [List.flatMap_cons, List.length_append,
        List.length_cons, Comparison.words, List.length_cons]
      omega

/- A well-formed tree has at least three words. -/
theorem Node.WellFormed.three_le_length_words
    {n : Node}
    (hWellFormed : n.WellFormed) :
    3 ≤ n.words.length := by
  induction n with
  | comparison c =>
      cases hWellFormed with
      | comparison hComparison =>
          have hPos :=
            List.length_pos_iff.mpr hComparison.arguments
          simp only [words, comparisons, List.flatMap_singleton,
            Comparison.words, List.length_cons]
          omega
  | logical k ns ih =>
      cases hWellFormed with
      | logical hSome _ hChildren =>
          rcases List.exists_cons_of_ne_nil hSome with
            ⟨n, ns, rfl⟩
          have hFirst :=
            ih n List.mem_cons_self
              (hChildren n List.mem_cons_self)
          unfold words at hFirst ⊢
          rw [comparisons, comparisonsList,
            List.flatMap_append, List.length_append]
          omega

end FilterQuery

------------------------------------------------------------
-- Numbers Of Operands
------------------------------------------------------------

namespace FilterQuery

/- By how much numbers exceed one, all together. -/
def surplus : List Nat → Nat
| [] => 0
| m :: ms => m - 1 + surplus ms

/- The surplus of numbers that follow each other. -/
theorem surplus_append
    (ms ns : List Nat) :
    surplus (ms ++ ns) = surplus ms + surplus ns := by
  induction ms with
  | nil =>
      rw [List.nil_append, surplus, Nat.zero_add]
  | cons m ms ih =>
      rw [List.cons_append, surplus, surplus, ih,
        Nat.add_assoc]

/- Numbers from two on exceed one by at least one each. -/
theorem length_le_surplus
    {ms : List Nat}
    (hMany : ∀ m ∈ ms, 2 ≤ m) :
    ms.length ≤ surplus ms := by
  induction ms with
  | nil =>
      exact Nat.le_refl 0
  | cons m ms ih =>
      rcases List.forall_mem_cons.mp hMany with
        ⟨hFirst, hRest⟩
      have hLength := ih hRest
      rw [List.length_cons, surplus]
      omega

namespace Node

mutual

/-
  The numbers of operands of all the nodes of a tree that
  have the connective.
-/
def arities (l : Connective) : Node → List Nat
| .comparison _ => []
| .logical k children =>
    (if k = l then [children.length] else []) ++
      aritiesList l children

/- The same for each tree of a list. -/
def aritiesList (l : Connective) : List Node → List Nat
| [] => []
| n :: ns => n.arities l ++ aritiesList l ns

end

/- The numbers of arguments of the comparisons of a tree. -/
def argumentCounts (n : Node) : List Nat :=
  n.comparisons.map fun c => c.arguments.length

/- A list has the numbers of operands of its trees. -/
theorem aritiesList_eq_flatMap
    (l : Connective)
    (ns : List Node) :
    aritiesList l ns = ns.flatMap (arities l) := by
  induction ns with
  | nil =>
      rfl
  | cons n ns ih =>
      rw [aritiesList, ih, List.flatMap_cons]

/- A connective adds how many operands it has itself. -/
theorem arities_logical
    (l k : Connective)
    (ns : List Node) :
    (logical k ns).arities l =
      (if k = l then [ns.length] else []) ++
        ns.flatMap (arities l) := by
  rw [arities, aritiesList_eq_flatMap]

/-
  In a tree with enough branching, conjunctions and
  disjunctions have at least two operands.
-/
theorem Branching.two_le_of_mem_arities
    {n : Node}
    {l : Connective}
    (hBranching : n.Branching)
    (hNot : l ≠ .not) :
    ∀ m ∈ n.arities l, 2 ≤ m := by
  induction n with
  | comparison c =>
      exact List.forall_mem_nil _
  | logical k ns ih =>
      cases hBranching with
      | logical hMany hChildren =>
          intro m hm
          rw [arities_logical, List.mem_append] at hm
          rcases hm with hOwn | hBelow
          · by_cases hSame : k = l
            · rw [if_pos hSame, List.mem_singleton] at hOwn
              rw [hOwn]
              exact hMany (hSame ▸ hNot)
            · rw [if_neg hSame] at hOwn
              cases hOwn
          · rcases List.mem_flatMap.mp hBelow with
              ⟨n, hn, hmn⟩
            exact ih n hn (hChildren n hn) m hmn

/-
  The number of nodes is that of the comparisons, negations,
  conjunctions and disjunctions together.
-/
theorem count_eq
    (n : Node) :
    n.count =
      n.comparisons.length + (n.arities .not).length +
        (n.arities .and).length + (n.arities .or).length := by
  induction n with
  | comparison c =>
      rfl
  | logical k ns ih =>
      have hList :
          countList ns =
            (comparisonsList ns).length +
              (aritiesList .not ns).length +
              (aritiesList .and ns).length +
              (aritiesList .or ns).length := by
        induction ns with
        | nil =>
            rfl
        | cons n ns ihList =>
            rcases List.forall_mem_cons.mp ih with
              ⟨hFirst, hRest⟩
            have hMore := ihList hRest
            simp only [countList, comparisonsList,
              aritiesList, List.length_append]
            omega
      rw [count, comparisons, hList]
      cases k <;> simp [arities] <;> omega

end Node

end FilterQuery

------------------------------------------------------------
-- Tallies
------------------------------------------------------------

namespace FilterQuery

/-
  What tokens amount to: their words, and how many negation
  marks, semicolons and commas there are.  Parentheses are
  equally many on both sides.
-/
structure Tally
    (ts : List Token)
    (words : List String)
    (bangs semicolons commas : Nat) : Prop where
  words : Token.words ts = words
  bangs : ts.count .bang = bangs
  semicolons : ts.count .semicolon = semicolons
  commas : ts.count .comma = commas
  parentheses : ts.count .openParen = ts.count .closeParen

namespace Tally

variable {ts us : List Token}
variable {vs ws : List String}
variable {b b' s s' c c' : Nat}

/- Tallies of tokens that follow each other are added. -/
theorem append
    (hFirst : Tally ts vs b s c)
    (hSecond : Tally us ws b' s' c') :
    Tally (ts ++ us) (vs ++ ws) (b + b') (s + s')
      (c + c') where
  words := by
    rw [← hFirst.words, ← hSecond.words]
    exact List.filterMap_append
  bangs := by
    rw [List.count_append, hFirst.bangs, hSecond.bangs]
  semicolons := by
    rw [List.count_append, hFirst.semicolons,
      hSecond.semicolons]
  commas := by
    rw [List.count_append, hFirst.commas, hSecond.commas]
  parentheses := by
    rw [List.count_append, List.count_append,
      hFirst.parentheses, hSecond.parentheses]

/- Parentheses around tokens leave the tally as it is. -/
theorem parenthesized
    (hTally : Tally ts ws b s c) :
    Tally (.openParen :: (ts ++ [.closeParen])) ws b s c where
  words := by
    rw [← hTally.words]
    simp [Token.words, List.filterMap_cons, Token.word?,
      Token.value?]
  bangs := by
    rw [← hTally.bangs]
    simp
  semicolons := by
    rw [← hTally.semicolons]
    simp
  commas := by
    rw [← hTally.commas]
    simp
  parentheses := by
    simp [hTally.parentheses]

/- A value is a word. -/
theorem value
    {t : Token}
    {value : String}
    (hValue : t.value? = some value) :
    Tally [t] [value] 0 0 0 := by
  rcases Token.eq_of_value? hValue with rfl | rfl
  · exact ⟨rfl, rfl, rfl, rfl, rfl⟩
  · exact ⟨rfl, rfl, rfl, rfl, rfl⟩

/- A symbol is a word. -/
theorem operator
    (symbol : String) :
    Tally [.operator symbol] [symbol] 0 0 0 :=
  ⟨rfl, rfl, rfl, rfl, rfl⟩

/- A negation mark counts as one. -/
theorem bang :
    Tally [.bang] [] 1 0 0 :=
  ⟨rfl, rfl, rfl, rfl, rfl⟩

/- The mark between operands counts as one of its kind. -/
theorem mark
    {k : Connective}
    (hNot : k ≠ .not) :
    Tally [k.token] [] 0 (if k = .and then 1 else 0)
      (if k = .or then 1 else 0) := by
  cases k with
  | not => exact absurd rfl hNot
  | and | or => exact ⟨rfl, rfl, rfl, rfl, rfl⟩

end Tally

namespace Lexeme

/- The tokens of lexemes. -/
def tokens (xs : List Lexeme) : List Token :=
  xs.map Lexeme.token

/- Each lexeme has one token. -/
theorem length_tokens
    (xs : List Lexeme) :
    (tokens xs).length = xs.length :=
  List.length_map _

end Lexeme

/- Between values there is one comma less than values. -/
theorem Values.tally
    {xs : List Lexeme}
    {values : List String}
    (hValues : Values xs values) :
    Tally (Lexeme.tokens xs) values 0 0
      (values.length - 1) := by
  induction hValues with
  | one hValue =>
      exact .value hValue
  | @more x comma value xs values hValue hComma hMore ih =>
      have hMark : Tally [.comma] [] 0 0 1 :=
        Tally.mark (k := .or) nofun
      have hPos :=
        List.length_pos_iff.mpr hMore.ne_nil
      have hCount :
          (value :: values).length - 1 =
            0 + (1 + (values.length - 1)) := by
        rw [List.length_cons]
        omega
      rw [hCount]
      unfold Lexeme.tokens at ih ⊢
      rw [List.map_cons, List.map_cons, hComma]
      exact (Tally.value hValue).append (hMark.append ih)

/- The same in parentheses, if they are needed. -/
theorem Arguments.tally
    {xs : List Lexeme}
    {values : List String}
    (hArguments : Arguments xs values) :
    Tally (Lexeme.tokens xs) values 0 0
      (values.length - 1) := by
  cases hArguments with
  | single hValue =>
      exact .value hValue
  | list hOpening hValues hClosing =>
      have hTally := hValues.tally.parenthesized
      unfold Lexeme.tokens at hTally ⊢
      rw [List.map_cons, List.map_append, List.map_singleton,
        hOpening, hClosing]
      exact hTally

end FilterQuery

------------------------------------------------------------
-- Tallies Of Trees
------------------------------------------------------------

namespace FilterQuery

namespace Node

/-
  The tree accounts for the tokens: its words are theirs, it
  negates once for each negation mark, and the semicolons and
  commas are those between its operands and arguments.
-/
def Tallies (n : Node) (ts : List Token) : Prop :=
  Tally ts n.words (n.arities .not).length
    (surplus (n.arities .and))
    (surplus (n.arities .or) + surplus n.argumentCounts)

variable {k : Connective}
variable {ns : List Node}

/- One more operand adds its comparisons in front. -/
theorem comparisons_connect_cons
    (hNot : k ≠ .not)
    (hSome : ns ≠ [])
    (n : Node) :
    (connect k (n :: ns)).comparisons =
      n.comparisons ++ (connect k ns).comparisons := by
  rcases ns with _ | ⟨m, _ | ⟨l, ls⟩⟩
  · exact absurd rfl hSome
  · rw [connect_cons_cons, connect_singleton hNot]
    simp [comparisons, comparisonsList]
  · rw [connect_cons_cons, connect_cons_cons]
    simp [comparisons, comparisonsList]

/- It adds its negations in front. -/
theorem arities_not_connect_cons
    (hNot : k ≠ .not)
    (hSome : ns ≠ [])
    (n : Node) :
    (connect k (n :: ns)).arities .not =
      n.arities .not ++ (connect k ns).arities .not := by
  rcases ns with _ | ⟨m, _ | ⟨l, ls⟩⟩
  · exact absurd rfl hSome
  · rw [connect_cons_cons, connect_singleton hNot]
    simp [arities_logical, hNot]
  · rw [connect_cons_cons, connect_cons_cons]
    simp [arities_logical, hNot]

/- It adds one to the operands of the connective. -/
theorem surplus_arities_connect_cons
    (hNot : k ≠ .not)
    (hSome : ns ≠ [])
    (n : Node)
    (l : Connective) :
    surplus ((connect k (n :: ns)).arities l) =
      surplus (n.arities l) +
        ((if k = l then 1 else 0) +
          surplus ((connect k ns).arities l)) := by
  rcases ns with _ | ⟨m, _ | ⟨o, os⟩⟩
  · exact absurd rfl hSome
  · rw [connect_cons_cons, connect_singleton hNot]
    by_cases hSame : k = l
    · simp [arities_logical, hSame, surplus, surplus_append]
      omega
    · simp [arities_logical, hSame, surplus_append]
  · rw [connect_cons_cons, connect_cons_cons]
    by_cases hSame : k = l
    · simp [arities_logical, hSame, surplus, surplus_append]
      omega
    · simp [arities_logical, hSame, surplus_append]

namespace Tallies

variable {n : Node}
variable {ts us : List Token}

/- A tree in parentheses accounts for these as well. -/
theorem parenthesized
    (hTallies : n.Tallies ts) :
    n.Tallies (.openParen :: (ts ++ [.closeParen])) :=
  Tally.parenthesized hTallies

/- A negation accounts for a negation mark. -/
theorem negate
    (hTallies : n.Tallies ts) :
    n.negate.Tallies (.bang :: ts) := by
  have hBoth := Tally.bang.append hTallies
  unfold Tallies Node.negate words argumentCounts
  rw [comparisons, arities_logical, arities_logical,
    arities_logical]
  simpa [comparisonsList, words, argumentCounts,
    Nat.add_comm] using hBoth

/- One more operand accounts for the mark behind it. -/
theorem join
    (hFirst : n.Tallies ts)
    (hNot : k ≠ .not)
    (hSome : ns ≠ [])
    (hMore : (connect k ns).Tallies us) :
    (connect k (n :: ns)).Tallies (ts ++ k.token :: us) := by
  have hBoth :=
    Tally.append hFirst ((Tally.mark hNot).append hMore)
  unfold Tallies words argumentCounts at hBoth ⊢
  rw [comparisons_connect_cons hNot hSome,
    arities_not_connect_cons hNot hSome,
    surplus_arities_connect_cons hNot hSome,
    surplus_arities_connect_cons hNot hSome,
    List.flatMap_append, List.length_append, List.map_append,
    surplus_append]
  -- Commas between operands are counted before the others.
  have hCommas (a b m c d : Nat) :
      a + b + (m + (c + d)) = a + (m + c) + (b + d) := by
    omega
  rw [List.nil_append, Nat.zero_add, hCommas] at hBoth
  exact hBoth

/- A tree has no more words than there are tokens. -/
theorem length_words_le
    (hTallies : n.Tallies ts) :
    n.words.length ≤ ts.length := by
  have hTokens := Token.length_eq_words_add_marks ts
  rw [hTallies.words] at hTokens
  omega

/-
  A tree with enough branching has no more nodes than there
  are tokens.
-/
theorem count_le
    (hTallies : n.Tallies ts)
    (hBranching : n.Branching) :
    n.count ≤ ts.length := by
  have hTokens := Token.length_eq_words_add_marks ts
  rw [hTallies.words, hTallies.bangs, hTallies.semicolons,
    hTallies.commas] at hTokens
  have hComparisons := n.length_comparisons_le_words
  have hAnd :=
    length_le_surplus
      (hBranching.two_le_of_mem_arities
        (l := .and) nofun)
  have hOr :=
    length_le_surplus
      (hBranching.two_le_of_mem_arities (l := .or) nofun)
  rw [Node.count_eq]
  omega

end Tallies

end Node

end FilterQuery

------------------------------------------------------------
-- Tallies Of Derivations
------------------------------------------------------------

namespace FilterQuery

variable {R : Registry}
variable {xs : List Lexeme}

/- The connective that joins the parts of a rule. -/
def Rule.connective : Rule → Connective
| .operand => .and
| .conjunction => .and
| .disjunction => .or

/- A comparison accounts for the tokens it is written with. -/
theorem Written.Spells.tallies
    {w : Written}
    {operator : Operator}
    (hSpells : w.Spells xs)
    (hSymbol : operator.symbol = w.symbol) :
    (Node.comparison
      ⟨operator, w.selector, w.arguments⟩).Tallies
        (Lexeme.tokens xs) := by
  cases hSpells with
  | @intro x y selector symbol xs arguments hSelector hToken
      hArguments =>
      have hTally :=
        (Tally.value hSelector).append
          ((Tally.operator symbol).append hArguments.tally)
      change operator.symbol = symbol at hSymbol
      rw [← hToken, ← hSymbol] at hTally
      simpa [Node.Tallies, Node.words, Comparison.words,
        Node.argumentCounts, Node.comparisons, Node.arities,
        surplus, Lexeme.tokens] using hTally

/- The tree of a derivation accounts for its tokens. -/
theorem Derives.tallies
    {rule : Rule}
    {ns : List Node}
    (hDerives : Derives R.reading rule xs ns) :
    (Node.connect rule.connective ns).Tallies
      (Lexeme.tokens xs) := by
  induction hDerives with
  | comparison hSpells hMeans =>
      cases hMeans with
      | intro hKnown _ _ =>
          exact hSpells.tallies (Registry.symbol_of_get? hKnown)
  | group hOpening _ hClosing ih =>
      unfold Lexeme.tokens at ih ⊢
      rw [List.map_cons, List.map_append, List.map_singleton,
        hOpening, hClosing]
      exact ih.parenthesized
  | negation hBang hOpening _ hClosing ih =>
      unfold Lexeme.tokens at ih ⊢
      rw [List.map_cons, List.map_cons, List.map_append,
        List.map_singleton, hBang, hOpening, hClosing]
      exact ih.parenthesized.negate
  | oneOperand _ ih =>
      exact ih
  | moreOperands _ hSemicolon hMore ihFirst ihMore =>
      unfold Lexeme.tokens at ihFirst ihMore ⊢
      rw [List.map_append, List.map_cons, hSemicolon]
      exact ihFirst.join nofun hMore.ne_nil ihMore
  | oneConjunction _ ih =>
      exact ih
  | moreConjunctions _ hComma hMore ihFirst ihMore =>
      unfold Lexeme.tokens at ihFirst ihMore ⊢
      rw [List.map_append, List.map_cons, hComma]
      exact ihFirst.join nofun hMore.ne_nil ihMore

namespace Registry

variable {n : Node}

/- A tree accounts for the tokens of a query that means it. -/
theorem Means.tallies
    (hMeans : R.Means xs n) :
    n.Tallies (Lexeme.tokens xs) := by
  rcases hMeans with ⟨ns, hDerives, rfl⟩
  exact hDerives.tallies

/-
  Parsing conserves tokens.  The words of the tree are the
  values and symbols of the query, in order.  Negations are as
  many as negation marks; the operands of conjunctions exceed
  one by the number of semicolons, and those of disjunctions
  and the arguments of comparisons by the number of commas;
  parentheses are balanced.  So the tree has no more nodes
  than the query has tokens.
-/
theorem parseLexemes_conserves
    (hParse : R.parseLexemes xs = .ok n) :
    let ts := Lexeme.tokens xs
    n.words = Token.words ts ∧
      (n.arities .not).length = ts.count .bang ∧
      surplus (n.arities .and) = ts.count .semicolon ∧
      surplus (n.arities .or) + surplus n.argumentCounts =
        ts.count .comma ∧
      ts.count .openParen = ts.count .closeParen ∧
      n.count ≤ xs.length := by
  intro ts
  have hMeans := means_of_parseLexemes hParse
  have hTallies : n.Tallies ts := hMeans.tallies
  have hCount := hTallies.count_le hMeans.branching
  rw [Lexeme.length_tokens] at hCount
  exact ⟨hTallies.words.symm, hTallies.bangs.symm,
    hTallies.semicolons.symm, hTallies.commas.symm,
    hTallies.parentheses, hCount⟩

/-
  In `!(a==1;b==2),c=in=(3,4)` one comma joins operands and
  the other one arguments.
-/
theorem parseLexemes_conserves_sample :
    ∃ n,
      basic.parseLexemes
          [⟨.bang, 0, 1⟩, ⟨.openParen, 1, 2⟩,
            ⟨.bare "a", 2, 3⟩, ⟨.operator "==", 3, 5⟩,
            ⟨.bare "1", 5, 6⟩, ⟨.semicolon, 6, 7⟩,
            ⟨.bare "b", 7, 8⟩, ⟨.operator "==", 8, 10⟩,
            ⟨.bare "2", 10, 11⟩, ⟨.closeParen, 11, 12⟩,
            ⟨.comma, 12, 13⟩, ⟨.bare "c", 13, 14⟩,
            ⟨.operator "=in=", 14, 18⟩,
            ⟨.openParen, 18, 19⟩, ⟨.bare "3", 19, 20⟩,
            ⟨.comma, 20, 21⟩, ⟨.bare "4", 21, 22⟩,
            ⟨.closeParen, 22, 23⟩] =
          .ok n ∧
        n.words =
          ["a", "==", "1", "b", "==", "2", "c", "=in=", "3",
            "4"] ∧
        (n.arities .not).length = 1 ∧
        surplus (n.arities .and) = 1 ∧
        surplus (n.arities .or) + surplus n.argumentCounts =
          2 ∧
        n.count ≤ 18 := by
  have hParse :
      basic.parseLexemes
          [⟨.bang, 0, 1⟩, ⟨.openParen, 1, 2⟩,
            ⟨.bare "a", 2, 3⟩, ⟨.operator "==", 3, 5⟩,
            ⟨.bare "1", 5, 6⟩, ⟨.semicolon, 6, 7⟩,
            ⟨.bare "b", 7, 8⟩, ⟨.operator "==", 8, 10⟩,
            ⟨.bare "2", 10, 11⟩, ⟨.closeParen, 11, 12⟩,
            ⟨.comma, 12, 13⟩, ⟨.bare "c", 13, 14⟩,
            ⟨.operator "=in=", 14, 18⟩,
            ⟨.openParen, 18, 19⟩, ⟨.bare "3", 19, 20⟩,
            ⟨.comma, 20, 21⟩, ⟨.bare "4", 21, 22⟩,
            ⟨.closeParen, 22, 23⟩] =
          .ok
            (.logical .or
              [.logical .not
                [.logical .and
                  [.comparison
                    ⟨Builtin.equal.operator, "a", ["1"]⟩,
                  .comparison
                    ⟨Builtin.equal.operator, "b", ["2"]⟩]],
              .comparison
                ⟨Builtin.inList.operator, "c",
                  ["3", "4"]⟩]) := by
    rw [parseLexemes_eq_run]
    rfl
  rcases parseLexemes_conserves hParse with
    ⟨hWords, hBangs, hSemicolons, hCommas, _, hCount⟩
  exact ⟨_, hParse, hWords, hBangs, hSemicolons, hCommas,
    hCount⟩

end Registry

end FilterQuery
