import FilterQuery.Proofs.Node.Made
import FilterQuery.Proofs.Node.Resolution
import FilterQuery.Proofs.Node.Spelling
import FilterQuery.Proofs.Query.Recognition
import FilterQuery.Proofs.Token.Tiling

/-
  This file proves that the text of a tree is parsed back
  into that tree.

  Key definitions include:
    * `FilterQuery.Registry.Supports`

  Key theorems include:
    * `FilterQuery.Lexeme.separated_induction`
    * `FilterQuery.Registry.derives_tokens`
    * `FilterQuery.Registry.parse_render`
    * `FilterQuery.Registry.render_round_trip`

  The text of a tree is cut into the tokens of the tree, and
  these derive the tree, up to conjunctions and disjunctions
  of one operand, which become mere parentheses.
-/

------------------------------------------------------------
-- Deriving Trees From Their Tokens
------------------------------------------------------------

namespace FilterQuery

/- One lexeme of one token. -/
theorem Lexeme.eq_singleton_of_tokens
    {xs : List Lexeme}
    {t : Token}
    (hTokens : xs.map Lexeme.token = [t]) :
    ∃ x, xs = [x] ∧ x.token = t := by
  rcases List.map_eq_cons_iff.mp hTokens with
    ⟨x, ys, rfl, hToken, hNone⟩
  rw [List.map_eq_nil_iff] at hNone
  rw [hNone]
  exact ⟨x, rfl, hToken⟩

/- Lexemes of tokens in parentheses are in parentheses. -/
theorem Lexeme.eq_parenthesized_of_tokens
    {xs : List Lexeme}
    {ts : List Token}
    (hTokens :
      xs.map Lexeme.token =
        .openParen :: (ts ++ [.closeParen])) :
    ∃ opening ys closing,
      xs = opening :: (ys ++ [closing]) ∧
        opening.token = .openParen ∧
        ys.map Lexeme.token = ts ∧
        closing.token = .closeParen := by
  rcases List.map_eq_cons_iff.mp hTokens with
    ⟨opening, zs, rfl, hOpening, hRest⟩
  rcases List.map_eq_append_iff.mp hRest with
    ⟨ys, us, rfl, hInside, hLast⟩
  rcases eq_singleton_of_tokens hLast with
    ⟨closing, rfl, hClosing⟩
  exact ⟨opening, ys, closing, rfl, hOpening, hInside,
    hClosing⟩

/-
  Lexemes of tokens with a separator between them start with
  those of the first part and a separator.
-/
theorem Lexeme.eq_append_of_tokens
    {xs : List Lexeme}
    {ts us : List Token}
    {separator : Token}
    (hTokens :
      xs.map Lexeme.token = ts ++ [separator] ++ us) :
    ∃ ys x zs,
      xs = ys ++ x :: zs ∧
        ys.map Lexeme.token = ts ∧
        x.token = separator ∧
        zs.map Lexeme.token = us := by
  rw [List.append_assoc, List.singleton_append] at hTokens
  rcases List.map_eq_append_iff.mp hTokens with
    ⟨ys, vs, rfl, hFirst, hRest⟩
  rcases List.map_eq_cons_iff.mp hRest with
    ⟨x, zs, rfl, hSeparator, hMore⟩
  exact ⟨ys, x, zs, rfl, hFirst, hSeparator, hMore⟩

/-
  Lexemes of parts with a separator between them have a
  property that one part has and that one more part in front
  keeps.
-/
theorem Lexeme.separated_induction
    {α : Type}
    {tokens : α → List Token}
    {separator : Token}
    {P : List Lexeme → List α → Prop}
    {xs : List Lexeme}
    {as : List α}
    (hOne :
      ∀ a ∈ as, ∀ ys : List Lexeme,
        ys.map Lexeme.token = tokens a → P ys [a])
    (hMore :
      ∀ a ∈ as, ∀ (ys zs : List Lexeme) (x : Lexeme) bs,
        ys.map Lexeme.token = tokens a →
          x.token = separator →
            P zs bs → P (ys ++ x :: zs) (a :: bs))
    (hSome : as ≠ [])
    (hTokens :
      xs.map Lexeme.token =
        List.intercalate [separator] (as.map tokens)) :
    P xs as := by
  induction as generalizing xs with
  | nil =>
      exact absurd rfl hSome
  | cons a as ih =>
      cases as with
      | nil =>
          rw [List.map_cons, List.map_nil,
            List.intercalate_singleton] at hTokens
          exact hOne a List.mem_cons_self xs hTokens
      | cons b bs =>
          rw [List.map_cons, List.map_cons,
            List.intercalate_cons_cons] at hTokens
          rcases eq_append_of_tokens hTokens with
            ⟨ys, x, zs, rfl, hFirst, hSeparator, hRest⟩
          have hLater : P zs (b :: bs) := by
            apply ih
            · intro d hd
              exact hOne d (List.mem_cons_of_mem _ hd)
            · intro d hd
              exact hMore d (List.mem_cons_of_mem _ hd)
            · exact List.cons_ne_nil _ _
            · exact hRest
          exact hMore a List.mem_cons_self ys zs x _ hFirst
            hSeparator hLater

/- The token of a value has that value. -/
theorem Lexeme.value?_of_valueToken
    {x : Lexeme}
    {value : String}
    (hToken : x.token = Text.valueToken value) :
    x.token.value? = some value := by
  rw [hToken]
  exact Text.value?_valueToken value

/- The tokens of values with commas are such values. -/
theorem Values.of_tokens
    {xs : List Lexeme}
    {values : List String}
    (hSome : values ≠ [])
    (hTokens :
      xs.map Lexeme.token =
        List.intercalate [.comma]
          (values.map fun value =>
            [Text.valueToken value])) :
    Values xs values := by
  refine Lexeme.separated_induction ?_ ?_ hSome hTokens
  · intro value _ ys hValue
    rcases Lexeme.eq_singleton_of_tokens hValue with
      ⟨x, rfl, hToken⟩
    exact .one (Lexeme.value?_of_valueToken hToken)
  · intro value _ ys zs comma _ hValue hComma hRest
    rcases Lexeme.eq_singleton_of_tokens hValue with
      ⟨x, rfl, hToken⟩
    exact .more (Lexeme.value?_of_valueToken hToken) hComma
      hRest

/- The tokens of arguments are these arguments. -/
theorem Arguments.of_tokens
    {xs : List Lexeme}
    {arguments : List String}
    (hSome : arguments ≠ [])
    (hTokens :
      xs.map Lexeme.token =
        Comparison.argumentTokens arguments) :
    Arguments xs arguments := by
  rcases arguments with _ | ⟨a, _ | ⟨b, bs⟩⟩
  · exact absurd rfl hSome
  · rcases Lexeme.eq_singleton_of_tokens hTokens with
      ⟨x, rfl, hToken⟩
    exact .single (Lexeme.value?_of_valueToken hToken)
  · rcases Lexeme.eq_parenthesized_of_tokens hTokens with
      ⟨opening, ys, closing, rfl, hOpening, hInside,
        hClosing⟩
    exact .list hOpening (.of_tokens hSome hInside) hClosing

namespace Registry

variable {R : Registry}

/-
  The registry has the operators of the tree, as far as their
  symbols go, and each takes that many arguments.
-/
def Supports
    (R : Registry)
    (n : Node) : Prop :=
  ∀ c ∈ n.comparisons,
    ∃ operator,
      R.get? c.operator.symbol = some operator ∧
        (operator.multiValue = true ∨
          c.arguments.length = 1)

/- What supports a tree supports its children. -/
theorem Supports.child
    {k : Connective}
    {ns : List Node}
    (hSupports : R.Supports (.logical k ns)) :
    ∀ n ∈ ns, R.Supports n := by
  intro n hn c hc
  apply hSupports c
  exact Node.mem_comparisons_logical.mpr ⟨n, hn, hc⟩

/- The tokens of a comparison mean that comparison. -/
theorem derives_comparison
    {c : Comparison}
    {xs : List Lexeme}
    (hWhole : c.WellFormed)
    (hSupports : R.Supports (.comparison c))
    (hTokens : xs.map Lexeme.token = c.tokens) :
    Derives R.reading .operand xs
      [.comparison (R.resolveComparison c)] := by
  rcases hSupports c (List.mem_singleton.mpr rfl) with
    ⟨operator, hKnown, hArity⟩
  rcases List.map_eq_cons_iff.mp hTokens with
    ⟨x, ys, rfl, hSelector, hAfter⟩
  rcases List.map_eq_cons_iff.mp hAfter with
    ⟨y, zs, rfl, hSymbol, hArguments⟩
  have hSpells :=
    Written.Spells.intro
      (Lexeme.value?_of_valueToken hSelector) hSymbol
      (.of_tokens hWhole.arguments hArguments)
  have hResolved :
      R.resolveComparison c =
        ⟨operator, c.selector, c.arguments⟩ := by
    rw [resolveComparison, resolveOperator, hKnown]
    rfl
  rw [hResolved]
  exact .comparison hSpells
    (.intro hKnown hWhole.selector hArity)

/- Operands with semicolons between them are a conjunction. -/
theorem derives_conjunction
    {f : Node → Node}
    {ns : List Node}
    {xs : List Lexeme}
    (hSome : ns ≠ [])
    (hEach :
      ∀ n ∈ ns, ∀ ys : List Lexeme,
        ys.map Lexeme.token = n.tokens →
          Derives R.reading .operand ys [f n])
    (hTokens :
      xs.map Lexeme.token =
        List.intercalate [.semicolon]
          (ns.map Node.tokens)) :
    Derives R.reading .conjunction xs (ns.map f) := by
  refine Lexeme.separated_induction
    (P := fun ys ms =>
      Derives R.reading .conjunction ys (ms.map f))
    ?_ ?_ hSome hTokens
  · intro n hn ys hYs
    exact .oneOperand (hEach n hn ys hYs)
  · intro n hn ys zs x ms hYs hSeparator hRest
    exact .moreOperands (hEach n hn ys hYs) hSeparator hRest

/- Operands with commas between them are a disjunction. -/
theorem derives_disjunction
    {f : Node → Node}
    {ns : List Node}
    {xs : List Lexeme}
    (hSome : ns ≠ [])
    (hEach :
      ∀ n ∈ ns, ∀ ys : List Lexeme,
        ys.map Lexeme.token = n.tokens →
          Derives R.reading .operand ys [f n])
    (hTokens :
      xs.map Lexeme.token =
        List.intercalate [.comma] (ns.map Node.tokens)) :
    Derives R.reading .disjunction xs (ns.map f) := by
  refine Lexeme.separated_induction
    (P := fun ys ms =>
      Derives R.reading .disjunction ys (ms.map f))
    ?_ ?_ hSome hTokens
  · intro n hn ys hYs
    exact (hEach n hn ys hYs).query
  · intro n hn ys zs x ms hYs hSeparator hRest
    exact .moreConjunctions (.oneOperand (hEach n hn ys hYs))
      hSeparator hRest

/-
  Resolving commutes with leaving out the connective above a
  single operand.
-/
theorem resolve_connect
    (k : Connective)
    (ns : List Node) :
    R.resolve (Node.connect k ns) =
      R.reading.join k (ns.map R.resolve) := by
  rcases ns with _ | ⟨n, _ | ⟨m, ms⟩⟩ <;>
    cases k <;>
      simp [reading, Node.connect, resolve,
        resolveList_eq_map]

/-
  The tokens of a well-formed tree derive it, collapsed and
  with the operators of the registry.
-/
theorem derives_tokens
    {n : Node}
    {xs : List Lexeme}
    (hWhole : n.WellFormed)
    (hSupports : R.Supports n)
    (hTokens : xs.map Lexeme.token = n.tokens) :
    Derives R.reading .operand xs
      [R.resolve n.collapse] := by
  induction n generalizing xs with
  | comparison c =>
      cases hWhole with
      | comparison hComparison =>
          exact derives_comparison hComparison hSupports
            hTokens
  | logical k ns ih =>
      cases hWhole with
      | logical hSome hNot hChildren =>
          have hEach :
              ∀ n ∈ ns, ∀ ys : List Lexeme,
                ys.map Lexeme.token = n.tokens →
                  Derives R.reading .operand ys
                    [R.resolve n.collapse] :=
            fun n hn ys hYs =>
              ih n hn (hChildren n hn) (hSupports.child n hn)
                hYs
          have hTree :
              R.resolve (Node.collapse (.logical k ns)) =
                R.reading.join k
                  (ns.map fun n => R.resolve n.collapse) := by
            rw [Node.collapse, resolve_connect,
              Node.collapseList_eq_map, List.map_map]
            rfl
          rw [hTree]
          rw [Node.tokens, Node.tokensList_eq_map] at hTokens
          cases k with
          | and =>
              rcases Lexeme.eq_parenthesized_of_tokens hTokens
                with ⟨opening, ys, closing, rfl, hOpening,
                  hInside, hClosing⟩
              have hBoth :=
                derives_conjunction hSome hEach hInside
              exact .group hOpening (.oneConjunction hBoth)
                hClosing
          | or =>
              rcases Lexeme.eq_parenthesized_of_tokens hTokens
                with ⟨opening, ys, closing, rfl, hOpening,
                  hInside, hClosing⟩
              have hBoth :=
                derives_disjunction hSome hEach hInside
              exact .group hOpening hBoth hClosing
          | not =>
              rcases List.length_eq_one_iff.mp (hNot rfl) with
                ⟨n, rfl⟩
              rcases List.map_eq_cons_iff.mp hTokens with
                ⟨bang, zs, rfl, hBang, hGroup⟩
              rcases Lexeme.eq_parenthesized_of_tokens hGroup
                with ⟨opening, ys, closing, rfl, hOpening,
                  hInside, hClosing⟩
              rw [List.map_cons, List.map_nil,
                List.intercalate_singleton] at hInside
              have hOne :=
                hEach n (List.mem_singleton.mpr rfl) ys hInside
              exact .negation hBang hOpening hOne.query
                hClosing

end Registry

end FilterQuery

------------------------------------------------------------
-- Reading Back
------------------------------------------------------------

namespace FilterQuery

/- The text of a well-formed tree is cut into its tokens. -/
theorem Node.tokenize_render
    {n : Node}
    (hWhole : n.WellFormed) :
    ∃ xs,
      tokenize n.render = .ok xs ∧
        xs.map Lexeme.token = n.tokens := by
  rcases (piece hWhole).cuts.tiles 0 with
    ⟨xs, hTiles, hTokens⟩
  have hChars : n.render.toList = n.chars :=
    String.toList_ofList
  rw [← hChars, tiles_iff] at hTiles
  exact ⟨xs, tokenize_eq_ok_iff.mpr hTiles, hTokens⟩

namespace Registry

variable {R : Registry}

/- The text of a tree is parsed into the tree, collapsed. -/
theorem parse_render
    {n : Node}
    (hWhole : n.WellFormed)
    (hSupports : R.Supports n) :
    R.parse n.render = .ok (R.resolve n.collapse) := by
  rcases Node.tokenize_render hWhole with ⟨xs, hXs, hTokens⟩
  have hMeans : R.Means xs (R.resolve n.collapse) :=
    ⟨_, (derives_tokens hWhole hSupports hTokens).query, rfl⟩
  unfold parse
  rw [hXs]
  exact parseLexemes_of_means hMeans

/- A registry supports the trees that it parses. -/
theorem supports_of_parse
    {query : String}
    {n : Node}
    (hParse : R.parse query = .ok n) :
    R.Supports n := by
  rcases means_of_parse hParse with ⟨xs, _, hMeans⟩
  apply hMeans.induction
  · intro w n _ hCompares c hc
    cases hCompares with
    | intro hKnown hSelector hArity =>
        rw [List.mem_singleton.mp hc]
        rw [symbol_of_get? hKnown]
        exact ⟨_, hKnown, hArity⟩
  · intro k ns _ _ hEach c hc
    rcases Node.mem_comparisons_logical.mp hc with
      ⟨n, hn, hcn⟩
    exact hEach n hn c hcn

/- The text of a parsed tree is parsed into the same tree. -/
theorem parse_render_of_parse
    {S : Registry}
    {query : String}
    {n : Node}
    (hParse : S.parse query = .ok n)
    (hSupports : R.Supports n) :
    R.parse n.render = .ok (R.resolve n) := by
  rcases means_of_parse hParse with ⟨xs, _, hMeans⟩
  rw [parse_render hMeans.wellFormed hSupports,
    Node.collapse_of_branching hMeans.branching]

/-
  The text of every tree that can be made is parsed back, by
  every registry that supports the tree.  The result is the
  same tree up to conjunctions and disjunctions of one
  operand, which are replaced by that operand; so it is the
  same tree exactly if there are none, and that is so for
  every tree that was parsed.
-/
theorem render_round_trip
    (R : Registry) :
    (∀ n : Node,
      n.Made →
        R.Supports n →
          R.parse n.render = .ok (R.resolve n.collapse) ∧
            (R.resolve n.collapse).same n.collapse = true ∧
            ((R.resolve n.collapse).same n = true ↔
              n.Branching)) ∧
      (∀ (S : Registry) query n,
        S.parse query = .ok n →
          R.Supports n →
            R.parse n.render = .ok (R.resolve n) ∧
              (R.resolve n).same n = true) ∧
      ∀ query n,
        R.parse query = .ok n → R.parse n.render = .ok n := by
  refine ⟨?_, ?_, ?_⟩
  · intro n hMade hSupports
    have hWhole := hMade.wellFormed
    exact ⟨parse_render hWhole hSupports, same_resolve _,
      same_resolve_collapse_iff hWhole⟩
  · intro S query n hParse hSupports
    exact ⟨parse_render_of_parse hParse hSupports,
      same_resolve n⟩
  · intro query n hParse
    rcases means_of_parse hParse with ⟨xs, _, hMeans⟩
    rw [parse_render_of_parse hParse (supports_of_parse hParse),
      resolve_of_registers hMeans.registers]

/-
  A disjunction of one operand is read back as that operand,
  here one whose argument needs quotes.
-/
theorem render_round_trip_sample :
    ∃ c : Comparison,
      c.arguments = ["b \"c\""] ∧
        basic.parse
            (Node.logical .or [.comparison c]).render =
          .ok (.comparison c) ∧
        (Node.comparison c).same
            (.logical .or [.comparison c]) ≠ true ∧
        basic.parse (Node.comparison c).render =
          .ok (.comparison c) ∧
        (basic.resolve (.comparison c)).same
            (.comparison c) = true := by
  rcases render_round_trip basic with
    ⟨hTree, hOther, hParsed⟩
  have hParts :
      Comparison.ofParts Builtin.equal.operator "a"
          ["b \"c\""] =
        .ok ⟨Builtin.equal.operator, "a", ["b \"c\""]⟩ :=
    rfl
  have hJoined :
      Node.ofChildren .or
          [.comparison
            ⟨Builtin.equal.operator, "a", ["b \"c\""]⟩] =
        .ok
          (.logical .or
            [.comparison
              ⟨Builtin.equal.operator, "a",
                ["b \"c\""]⟩]) :=
    rfl
  have hEach :
      ∀ m ∈
          [Node.comparison
            ⟨Builtin.equal.operator, "a", ["b \"c\""]⟩],
        m.Made := by
    intro m hm
    rw [List.mem_singleton.mp hm]
    exact .ofParts hParts
  have hLeaf :
      basic.Supports
        (.comparison
          ⟨Builtin.equal.operator, "a", ["b \"c\""]⟩) := by
    intro c hc
    rw [List.mem_singleton.mp hc]
    exact ⟨Builtin.equal.operator, rfl, Or.inr rfl⟩
  rcases hTree _ (.ofChildren hEach hJoined) hLeaf with
    ⟨hParse, _, hSame⟩
  refine ⟨_, rfl, hParse, ?_, hParsed _ _ hParse,
    (hOther _ _ _ hParse hLeaf).2⟩
  intro hEqual
  have hBranching := hSame.mp hEqual
  cases hBranching with
  | logical hMany _ =>
      have hTwo := hMany (by decide)
      exact absurd hTwo (by decide)

end Registry

end FilterQuery
