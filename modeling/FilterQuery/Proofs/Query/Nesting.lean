import FilterQuery.Proofs.Node.Made
import FilterQuery.Proofs.Node.Recursion
import FilterQuery.Proofs.Query.Conservation
import Mathlib

/-
  This file proves that the parentheses of a query bound the
  depth of its tree.

  Key definitions include:
    * `FilterQuery.Token.nesting`
    * `FilterQuery.Token.Nested`

  Key theorems include:
    * `FilterQuery.Token.nesting_le_iff`
    * `FilterQuery.Derives.depth_le`
    * `FilterQuery.Registry.Means.depth_le`
    * `FilterQuery.Registry.parse_bounds_depth`

  Between two parentheses a tree goes down three levels at
  most: a disjunction, a conjunction, and an operand or a
  negation.  The rest of a query does not matter, since
  parentheses are balanced within every part of it.
-/

------------------------------------------------------------
-- Nesting
------------------------------------------------------------

namespace FilterQuery

namespace Token

/- How many more parentheses are opened than closed. -/
def excess (ts : List Token) : Nat :=
  ts.count .openParen - ts.count .closeParen

/-
  The largest excess of opening over closing parentheses at
  the front of the tokens.
-/
def nesting (ts : List Token) : Nat :=
  (ts.inits.map excess).foldr max 0

/- Nowhere are more than so many parentheses open. -/
def Nested (d : Nat) (ts : List Token) : Prop :=
  ∀ us,
    us <+: ts →
      us.count .openParen ≤ us.count .closeParen + d

/- The nesting is the least such number. -/
theorem nesting_le_iff
    {ts : List Token}
    {d : Nat} :
    nesting ts ≤ d ↔ Nested d ts := by
  unfold nesting Nested
  constructor
  · intro hLe us hFront
    have hMem : us ∈ ts.inits :=
      (List.mem_inits us ts).mpr hFront
    have hExcess :=
      List.le_max_of_le (List.mem_map_of_mem hMem)
        (Nat.le_refl (excess us))
    have hBound := Nat.le_trans hExcess hLe
    unfold excess at hBound
    omega
  · intro hNested
    apply List.max_le_of_forall_le
    intro e hMem
    rcases List.mem_map.mp hMem with ⟨us, hFront, rfl⟩
    have hBound :=
      hNested us ((List.mem_inits us ts).mp hFront)
    unfold excess
    omega

/- Without parentheses there is no nesting. -/
theorem nested_of_not_mem
    {ts : List Token}
    (hFlat : openParen ∉ ts) :
    Nested 0 ts := by
  intro us hFront
  have hNone : openParen ∉ us :=
    fun hMem => hFlat (hFront.subset hMem)
  rw [List.count_eq_zero.mpr hNone]
  exact Nat.zero_le _

namespace Nested

variable {d : Nat}
variable {ts us : List Token}

/- The front of tokens is nested no deeper. -/
theorem front
    (hNested : Nested d (ts ++ us)) :
    Nested d ts := by
  intro vs hFront
  exact hNested vs (hFront.trans (List.prefix_append ts us))

/- What follows balanced tokens is nested no deeper. -/
theorem behind
    (hNested : Nested d (ts ++ us))
    (hBalanced : ts.count .openParen = ts.count .closeParen) :
    Nested d us := by
  intro vs hFront
  have hBound :=
    hNested (ts ++ vs)
      ((List.prefix_append_right_inj ts).mpr hFront)
  rw [List.count_append, List.count_append] at hBound
  omega

/- What follows a token other than a parenthesis. -/
theorem tail
    {t : Token}
    (hNested : Nested d (t :: ts))
    (hOpening : t ≠ .openParen)
    (hClosing : t ≠ .closeParen) :
    Nested d ts := by
  have hSplit : Nested d ([t] ++ ts) := hNested
  apply behind hSplit
  rw [List.count_singleton, List.count_singleton,
    if_neg (by simpa using hOpening),
    if_neg (by simpa using hClosing)]

/- Inside of parentheses one less is open. -/
theorem inside
    (hNested : Nested d (.openParen :: (ts ++ us))) :
    ∃ e, d = e + 1 ∧ Nested e ts := by
  have hInside :
      ∀ vs,
        vs <+: ts →
          vs.count .openParen + 1 ≤
            vs.count .closeParen + d := by
    intro vs hFront
    have hBound :=
      hNested (.openParen :: vs)
        (List.cons_prefix_cons.mpr ⟨rfl,
          hFront.trans (List.prefix_append ts us)⟩)
    simpa using hBound
  have hPos := hInside [] List.nil_prefix
  refine ⟨d - 1, ?_, ?_⟩
  · simp only [List.count_nil] at hPos
    omega
  · intro vs hFront
    have hBound := hInside vs hFront
    simp only [List.count_nil] at hPos
    omega

end Nested

end Token

end FilterQuery

------------------------------------------------------------
-- Depth Of Operands
------------------------------------------------------------

namespace FilterQuery

namespace Node

/- A list is no deeper than each of its trees. -/
theorem depthList_le
    {ns : List Node}
    {d : Nat}
    (hEach : ∀ n ∈ ns, n.depth ≤ d) :
    depthList ns ≤ d := by
  induction ns with
  | nil =>
      exact Nat.zero_le d
  | cons n ns ih =>
      rcases List.forall_mem_cons.mp hEach with
        ⟨hFirst, hMore⟩
      exact Nat.max_le.mpr ⟨hFirst, ih hMore⟩

/- A connective adds at most one level to its operands. -/
theorem depth_connect_le
    {k : Connective}
    {ns : List Node}
    {d : Nat}
    (hEach : ∀ n ∈ ns, n.depth ≤ d) :
    (connect k ns).depth ≤ d + 1 := by
  have hLogical : (logical k ns).depth ≤ d + 1 := by
    have hList := depthList_le hEach
    rw [depth]
    omega
  unfold connect
  split
  · rename_i n
    exact Nat.le_succ_of_le
      (hEach n (List.mem_singleton.mpr rfl))
  · rename_i n
    exact Nat.le_succ_of_le
      (hEach n (List.mem_singleton.mpr rfl))
  · exact hLogical

end Node

/-
  How many levels the operands of a rule have outside of all
  parentheses.
-/
def Rule.levels : Rule → Nat
| .operand => 1
| .conjunction => 1
| .disjunction => 2

namespace Derives

variable {R : Registry}
variable {rule : Rule}
variable {xs : List Lexeme}
variable {ns : List Node}

/- Parentheses are balanced within a part of a query. -/
theorem balanced
    (hDerives : Derives R.reading rule xs ns) :
    (Lexeme.tokens xs).count .openParen =
      (Lexeme.tokens xs).count .closeParen :=
  hDerives.tallies.parentheses

/-
  Each pair of parentheses adds at most three levels to the
  operands of a part of a query.
-/
theorem depth_le
    {d : Nat}
    (hDerives : Derives R.reading rule xs ns)
    (hNested : Token.Nested d (Lexeme.tokens xs)) :
    ∀ n ∈ ns, n.depth ≤ 3 * d + rule.levels := by
  -- The nesting varies in the induction: inside of a group it
  -- is one less, which pays for the levels of the group.
  unfold Lexeme.tokens at hNested
  induction hDerives generalizing d with
  | comparison _ hMeans =>
      cases hMeans
      exact List.forall_mem_singleton.mpr
        (Nat.le_add_left 1 (3 * d))
  | group hOpening _ _ ih =>
      rw [List.map_cons, List.map_append, hOpening] at hNested
      rcases hNested.inside with ⟨e, rfl, hInside⟩
      have hGroup :=
        Node.depth_connect_le (k := .or) (ih hInside)
      exact List.forall_mem_singleton.mpr
        (Nat.le_succ_of_le hGroup)
  | negation hBang hOpening _ _ ih =>
      rw [List.map_cons, List.map_cons, List.map_append, hBang,
        hOpening] at hNested
      rcases (hNested.tail nofun nofun).inside with
        ⟨e, rfl, hInside⟩
      have hGroup :=
        Node.depth_connect_le (k := .or) (ih hInside)
      have hNot :=
        Node.depth_connect_le (k := .not)
          (List.forall_mem_singleton.mpr hGroup)
      exact List.forall_mem_singleton.mpr hNot
  | oneOperand _ ih =>
      exact ih hNested
  | moreOperands hOperand hSemicolon _ ihFirst ihMore =>
      rw [List.map_append, List.map_cons, hSemicolon] at hNested
      have hMore :=
        (hNested.behind hOperand.balanced).tail nofun nofun
      intro n hn
      rcases List.mem_cons.mp hn with rfl | hLater
      · exact ihFirst hNested.front _
          (List.mem_singleton.mpr rfl)
      · exact ihMore hMore n hLater
  | oneConjunction _ ih =>
      have hAnd :=
        Node.depth_connect_le (k := .and) (ih hNested)
      exact List.forall_mem_singleton.mpr hAnd
  | moreConjunctions hFirst hComma _ ihFirst ihMore =>
      rw [List.map_append, List.map_cons, hComma] at hNested
      have hMore :=
        (hNested.behind hFirst.balanced).tail nofun nofun
      have hAnd :=
        Node.depth_connect_le (k := .and)
          (ihFirst hNested.front)
      intro n hn
      rcases List.mem_cons.mp hn with rfl | hLater
      · exact hAnd
      · exact ihMore hMore n hLater

end Derives

end FilterQuery

------------------------------------------------------------
-- Depth Of Queries
------------------------------------------------------------

namespace FilterQuery

namespace Registry

variable {R : Registry}
variable {xs : List Lexeme} {n : Node}

/-
  A tree that lexemes mean has at most three levels for each
  level of nesting, and three more.
-/
theorem Means.depth_le
    {d : Nat}
    (hMeans : R.Means xs n)
    (hNested : Token.Nested d (Lexeme.tokens xs)) :
    n.depth ≤ 3 * (d + 1) := by
  rcases hMeans with ⟨ns, hDerives, rfl⟩
  exact Node.depth_connect_le (hDerives.depth_le hNested)

/-
  However long a query is, its tree has at most three levels
  for each level of nesting and three more.  So if nesting is
  limited, then rendering, counting, writing as a document and
  visiting go down no further than the limit allows; and a
  query without parentheses has at most three levels.
-/
theorem parse_bounds_depth
    (R : Registry) :
    (∀ xs n,
        R.parseLexemes xs = .ok n →
          n.depth ≤
            3 * (Token.nesting (Lexeme.tokens xs) + 1)) ∧
      ∀ query n,
        R.parse query = .ok n →
          ∃ xs,
            tokenize query = .ok xs ∧
              n.depth ≤
                3 * (Token.nesting (Lexeme.tokens xs) + 1) ∧
              (∀ limit,
                Token.nesting (Lexeme.tokens xs) ≤ limit →
                  n.FitsWithin (3 * (limit + 1))) ∧
              (.openParen ∉ Lexeme.tokens xs →
                n.depth ≤ 3) := by
  constructor
  · intro xs n hParse
    have hMeans := means_of_parseLexemes hParse
    exact hMeans.depth_le
      (Token.nesting_le_iff.mp (Nat.le_refl _))
  · intro query n hParse
    rcases means_of_parse hParse with ⟨xs, hXs, hMeans⟩
    refine ⟨xs, hXs, ?_, ?_, ?_⟩
    · exact hMeans.depth_le
        (Token.nesting_le_iff.mp (Nat.le_refl _))
    · intro limit hLimit
      exact Node.fitsWithin_iff.mpr
        (hMeans.depth_le (Token.nesting_le_iff.mp hLimit))
    · intro hFlat
      exact hMeans.depth_le (Token.nested_of_not_mem hFlat)

/-
  All six levels that one pair of parentheses allows are used
  by `!(a==1;b==2,c==3);d==4,e==5`.
-/
theorem parse_bounds_depth_sample :
    ∃ n xs,
      basic.parse "!(a==1;b==2,c==3);d==4,e==5" = .ok n ∧
        tokenize "!(a==1;b==2,c==3);d==4,e==5" = .ok xs ∧
        Token.nesting (Lexeme.tokens xs) = 1 ∧
        n.depth = 6 ∧
        n.FitsWithin 6 := by
  have hTokens :
      tokenize "!(a==1;b==2,c==3);d==4,e==5" =
        .ok
          [⟨.bang, 0, 1⟩, ⟨.openParen, 1, 2⟩,
            ⟨.bare "a", 2, 3⟩, ⟨.operator "==", 3, 5⟩,
            ⟨.bare "1", 5, 6⟩, ⟨.semicolon, 6, 7⟩,
            ⟨.bare "b", 7, 8⟩, ⟨.operator "==", 8, 10⟩,
            ⟨.bare "2", 10, 11⟩, ⟨.comma, 11, 12⟩,
            ⟨.bare "c", 12, 13⟩, ⟨.operator "==", 13, 15⟩,
            ⟨.bare "3", 15, 16⟩, ⟨.closeParen, 16, 17⟩,
            ⟨.semicolon, 17, 18⟩, ⟨.bare "d", 18, 19⟩,
            ⟨.operator "==", 19, 21⟩, ⟨.bare "4", 21, 22⟩,
            ⟨.comma, 22, 23⟩, ⟨.bare "e", 23, 24⟩,
            ⟨.operator "==", 24, 26⟩, ⟨.bare "5", 26, 27⟩] := by
    cbv
  have hParse :
      basic.parse "!(a==1;b==2,c==3);d==4,e==5" =
        .ok
          (.logical .or
            [.logical .and
              [.logical .not
                [.logical .or
                  [.logical .and
                    [.comparison
                      ⟨Builtin.equal.operator, "a", ["1"]⟩,
                    .comparison
                      ⟨Builtin.equal.operator, "b", ["2"]⟩],
                  .comparison
                    ⟨Builtin.equal.operator, "c", ["3"]⟩]],
              .comparison
                ⟨Builtin.equal.operator, "d", ["4"]⟩],
            .comparison
              ⟨Builtin.equal.operator, "e", ["5"]⟩]) := by
    unfold parse
    rw [hTokens]
    cbv
  rcases (parse_bounds_depth basic).2 _ _ hParse with
    ⟨xs, hXs, _, hFits, _⟩
  rw [hTokens] at hXs
  cases hXs
  exact ⟨_, _, hParse, hTokens, by decide, by decide,
    hFits 1 (by decide)⟩

end Registry

end FilterQuery
