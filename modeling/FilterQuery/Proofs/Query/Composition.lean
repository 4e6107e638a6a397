import FilterQuery.Proofs.Node.Made
import FilterQuery.Proofs.Query.Following
import FilterQuery.Proofs.Token.Joining
import Mathlib

/-
  This file proves that queries in parentheses can be put
  together to larger queries.

  Key definitions include:
    * `FilterQuery.Registry.DerivesText`

  Key theorems include:
    * `FilterQuery.Derives.shift`
    * `FilterQuery.Registry.parse_eq_ok_iff`
    * `FilterQuery.Registry.DerivesText.group`
    * `FilterQuery.Registry.parse_composes`

  Derivations do not depend on where lexemes stand, so they
  can be stated about texts.  The texts of operands are put
  together as their lexemes are.
-/

------------------------------------------------------------
-- Derivations At Other Places
------------------------------------------------------------

namespace FilterQuery

variable {xs : List Lexeme}
variable {values : List String}

/- Values are values wherever they stand. -/
theorem Values.shift
    (hValues : Values xs values)
    (distance : Nat) :
    Values (xs.map (Lexeme.shift distance)) values := by
  induction hValues with
  | one hValue => exact .one hValue
  | more hValue hComma _ ih => exact .more hValue hComma ih

/- Arguments are arguments wherever they stand. -/
theorem Arguments.shift
    (hArguments : Arguments xs values)
    (distance : Nat) :
    Arguments (xs.map (Lexeme.shift distance)) values := by
  cases hArguments with
  | single hValue => exact .single hValue
  | list hOpening hValues hClosing =>
      rw [List.map_cons, List.map_append]
      exact .list hOpening (hValues.shift distance) hClosing

/-
  Under a registry, lexemes derive the same trees wherever
  they stand.
-/
theorem Derives.shift
    {R : Registry}
    {rule : Rule}
    {ns : List Node}
    (hDerives : Derives R.reading rule xs ns)
    (distance : Nat) :
    Derives R.reading rule (xs.map (Lexeme.shift distance))
      ns := by
  induction hDerives with
  | comparison hSpells hCompares =>
      rcases hSpells with ⟨hSelector, hSymbol, hArguments⟩
      rcases hCompares with ⟨hKnown, hVisible, hArity⟩
      rw [List.map_cons, List.map_cons]
      exact .comparison
        (.intro hSelector hSymbol (hArguments.shift distance))
        (.intro hKnown hVisible hArity)
  | group hOpening _ hClosing ih =>
      rw [List.map_cons, List.map_append]
      exact .group hOpening ih hClosing
  | negation hBang hOpening _ hClosing ih =>
      rw [List.map_cons, List.map_cons, List.map_append]
      exact .negation hBang hOpening ih hClosing
  | oneOperand _ ih =>
      exact .oneOperand ih
  | moreOperands _ hSemicolon _ ihFirst ihMore =>
      rw [List.map_append, List.map_cons]
      exact .moreOperands ihFirst hSemicolon ihMore
  | oneConjunction _ ih =>
      exact .oneConjunction ih
  | moreConjunctions _ hComma _ ihFirst ihMore =>
      rw [List.map_append, List.map_cons]
      exact .moreConjunctions ihFirst hComma ihMore

end FilterQuery

------------------------------------------------------------
-- Derivations Of Texts
------------------------------------------------------------

namespace FilterQuery

namespace Registry

variable {R : Registry}

/-
  However far from the start of a query it stands, the text
  is cut without failure into lexemes that derive the trees.
-/
def DerivesText
    (R : Registry)
    (rule : Rule)
    (cs : List Char)
    (ns : List Node) : Prop :=
  ∀ offset,
    ∃ xs,
      Tiles Scanned.Scans offset cs ⟨xs, none⟩ ∧
        Derives R.reading rule xs ns

/- Parsing succeeds for queries that derive a tree. -/
theorem parse_eq_ok_iff
    {query : String}
    {n : Node} :
    R.parse query = .ok n ↔
      ∃ ns,
        R.DerivesText .disjunction query.toList ns ∧
          n = Node.connect .or ns := by
  constructor
  · intro hParse
    rcases means_of_parse hParse with
      ⟨xs, hXs, ns, hDerives, rfl⟩
    have hTiles :=
      tiles_iff.mpr (tokenize_eq_ok_iff.mp hXs)
    refine ⟨ns, ?_, rfl⟩
    intro offset
    exact ⟨_, hTiles.shift offset, hDerives.shift offset⟩
  · rintro ⟨ns, hText, rfl⟩
    rcases hText 0 with ⟨xs, hTiles, hDerives⟩
    have hXs : tokenize query = .ok xs :=
      tokenize_eq_ok_iff.mpr (tiles_iff.mp hTiles)
    unfold parse
    rw [hXs]
    exact parseLexemes_of_means ⟨ns, hDerives, rfl⟩

namespace DerivesText

variable {cs ds : List Char}
variable {n : Node}
variable {ns ms : List Node}

/- A query in parentheses is an operand. -/
theorem group
    (hInside : R.DerivesText .disjunction cs ns) :
    R.DerivesText .operand ('(' :: (cs ++ [')']))
      [Node.connect .or ns] := by
  intro offset
  rcases hInside (offset + 1) with ⟨xs, hTiles, hDerives⟩
  have hAll :=
    hTiles.parenthesized rfl (.finish Text.gapOnly_nil)
  exact ⟨_, hAll, .group rfl hDerives rfl⟩

/- So it is with an exclamation mark before it. -/
theorem negation
    (hInside : R.DerivesText .disjunction cs ns) :
    R.DerivesText .operand ('!' :: '(' :: (cs ++ [')']))
      [.logical .not [Node.connect .or ns]] := by
  intro offset
  rcases hInside (offset + 1 + 1) with ⟨xs, hTiles, hDerives⟩
  have hAll :=
    hTiles.parenthesized rfl (.finish Text.gapOnly_nil)
  exact ⟨_, hAll.bang, .negation rfl rfl hDerives rfl⟩

/- An operand is a conjunction. -/
theorem oneOperand
    (hOperand : R.DerivesText .operand cs [n]) :
    R.DerivesText .conjunction cs [n] := by
  intro offset
  rcases hOperand offset with ⟨xs, hTiles, hDerives⟩
  exact ⟨xs, hTiles, .oneOperand hDerives⟩

/- An operand before a conjunction is a conjunction. -/
theorem moreOperands
    (hOperand : R.DerivesText .operand cs [n])
    (hMore : R.DerivesText .conjunction ds ns) :
    R.DerivesText .conjunction (cs ++ ';' :: ds)
      (n :: ns) := by
  intro offset
  rcases hOperand offset with ⟨xs, hTiles, hDerives⟩
  rcases hMore (offset + Text.byteLength cs + 1) with
    ⟨ys, hAfter, hRest⟩
  exact ⟨_, hTiles.separated rfl .semicolon hAfter,
    .moreOperands hDerives rfl hRest⟩

/- A conjunction is a disjunction. -/
theorem oneConjunction
    (hConjunction : R.DerivesText .conjunction cs ns) :
    R.DerivesText .disjunction cs [Node.connect .and ns] := by
  intro offset
  rcases hConjunction offset with ⟨xs, hTiles, hDerives⟩
  exact ⟨xs, hTiles, .oneConjunction hDerives⟩

/- A conjunction before a disjunction is a disjunction. -/
theorem moreConjunctions
    (hConjunction : R.DerivesText .conjunction cs ns)
    (hMore : R.DerivesText .disjunction ds ms) :
    R.DerivesText .disjunction (cs ++ ',' :: ds)
      (Node.connect .and ns :: ms) := by
  intro offset
  rcases hConjunction offset with ⟨xs, hTiles, hDerives⟩
  rcases hMore (offset + Text.byteLength cs + 1) with
    ⟨ys, hAfter, hRest⟩
  exact ⟨_, hTiles.separated rfl .comma hAfter,
    .moreConjunctions hDerives rfl hRest⟩

end DerivesText

end Registry

end FilterQuery

------------------------------------------------------------
-- Composition
------------------------------------------------------------

namespace FilterQuery

namespace Registry

variable {R : Registry}

/- Parentheses around a text, as characters. -/
theorem toList_parentheses
    (text : String) :
    ("(" ++ text ++ ")").toList =
      '(' :: (text.toList ++ [')']) := by
  simp

/- An accepted query in parentheses is an operand. -/
theorem derivesText_of_parse
    {query : String}
    {n : Node}
    (hParse : R.parse query = .ok n) :
    R.DerivesText .operand ("(" ++ query ++ ")").toList
      [n] := by
  rcases parse_eq_ok_iff.mp hParse with ⟨ns, hInside, rfl⟩
  rw [toList_parentheses]
  exact hInside.group

/- A conjunction is a query. -/
theorem parse_of_conjunction
    {query : String}
    {ns : List Node}
    (hText : R.DerivesText .conjunction query.toList ns) :
    R.parse query = .ok (Node.connect .and ns) :=
  parse_eq_ok_iff.mpr ⟨_, hText.oneConjunction, rfl⟩

/- A disjunction is a query. -/
theorem parse_of_disjunction
    {query : String}
    {ns : List Node}
    (hText : R.DerivesText .disjunction query.toList ns) :
    R.parse query = .ok (Node.connect .or ns) :=
  parse_eq_ok_iff.mpr ⟨_, hText, rfl⟩

/- Several trees are connected by a connective. -/
theorem connect_of_many
    (k : Connective)
    {ns : List Node}
    (hMany : 2 ≤ ns.length) :
    Node.connect k ns = .logical k ns := by
  rcases ns with _ | ⟨n, _ | ⟨m, ms⟩⟩
  · exact absurd hMany (Nat.not_succ_le_zero 1)
  · exact absurd hMany (Nat.not_succ_le_self 1)
  · exact Node.connect_cons_cons k n m ms

/-
  Accepted queries in parentheses with a separator between
  them follow a rule that one operand follows and that one
  more operand in front keeps.
-/
theorem derivesText_intercalate
    {rule : Rule}
    {m : Char}
    {separator : String}
    {parts : List (String × Node)}
    (hSeparator : separator.toList = [m])
    (hOne :
      ∀ cs n,
        R.DerivesText .operand cs [n] →
          R.DerivesText rule cs [n])
    (hMore :
      ∀ cs ds n ns,
        R.DerivesText .operand cs [n] →
          R.DerivesText rule ds ns →
            R.DerivesText rule (cs ++ m :: ds) (n :: ns))
    (hSome : parts ≠ [])
    (hEach : ∀ p ∈ parts, R.parse p.1 = .ok p.2) :
    R.DerivesText rule
      (separator.intercalate
        (parts.map fun p => "(" ++ p.1 ++ ")")).toList
      (parts.map Prod.snd) := by
  rw [String.toList_intercalate, hSeparator]
  induction parts with
  | nil =>
      exact absurd rfl hSome
  | cons p parts ih =>
      rcases List.forall_mem_cons.mp hEach with
        ⟨hParse, hRest⟩
      have hFirst := derivesText_of_parse hParse
      cases parts with
      | nil =>
          simp only [List.map_cons, List.map_nil,
            List.intercalate_singleton]
          exact hOne _ _ hFirst
      | cons q parts =>
          have hLater := ih (List.cons_ne_nil _ _) hRest
          simp only [List.map_cons,
            List.intercalate_cons_cons, List.append_assoc]
            at hLater ⊢
          exact hMore _ _ _ _ hFirst hLater

/-
  Several accepted queries in parentheses, with semicolons or
  commas between them, mean the AND or the OR of their trees
  in order.
-/
theorem parse_intercalate
    {parts : List (String × Node)}
    (hMany : 2 ≤ parts.length)
    (hEach : ∀ p ∈ parts, R.parse p.1 = .ok p.2) :
    R.parse
        (String.intercalate ";"
          (parts.map fun p => "(" ++ p.1 ++ ")")) =
      .ok (.logical .and (parts.map Prod.snd)) ∧
    R.parse
        (String.intercalate ","
          (parts.map fun p => "(" ++ p.1 ++ ")")) =
      .ok (.logical .or (parts.map Prod.snd)) := by
  have hSome : parts ≠ [] := by
    rintro rfl
    exact absurd hMany (by decide)
  have hLength : 2 ≤ (parts.map Prod.snd).length := by
    rwa [List.length_map]
  rw [← connect_of_many .and hLength,
    ← connect_of_many .or hLength]
  constructor
  · exact parse_of_conjunction
      (derivesText_intercalate rfl
        (fun _ _ => .oneOperand)
        (fun _ _ _ _ => .moreOperands) hSome hEach)
  · exact parse_of_disjunction
      (derivesText_intercalate rfl
        (fun _ _ hOperand => hOperand.oneOperand.oneConjunction)
        (fun _ _ _ _ hOperand =>
          hOperand.oneOperand.moreConjunctions)
        hSome hEach)

/- An accepted query in parentheses means the same tree. -/
theorem parse_parentheses
    {query : String}
    {n : Node}
    (hParse : R.parse query = .ok n) :
    R.parse ("(" ++ query ++ ")") = .ok n :=
  parse_of_conjunction (derivesText_of_parse hParse).oneOperand

/- Behind an exclamation mark it means the NOT of its tree. -/
theorem parse_negation
    {query : String}
    {n : Node}
    (hParse : R.parse query = .ok n) :
    R.parse ("!(" ++ query ++ ")") =
      .ok (.logical .not [n]) := by
  rcases parse_eq_ok_iff.mp hParse with ⟨ns, hInside, rfl⟩
  have hChars :
      ("!(" ++ query ++ ")").toList =
        '!' :: '(' :: (query.toList ++ [')']) := by
    simp
  have hOperand := hInside.negation
  rw [← hChars] at hOperand
  exact parse_of_conjunction hOperand.oneOperand

end Registry

/-
  Accepted queries compose.  In parentheses, several of them
  mean the AND or the OR of their trees in order, and one of
  them its tree, or the NOT of it behind an exclamation mark.
  Nothing inside such parentheses changes how the text behind
  them is cut.
-/
theorem Registry.parse_composes
    (R : Registry) :
    (∀ parts : List (String × Node),
        2 ≤ parts.length →
          (∀ p ∈ parts, R.parse p.1 = .ok p.2) →
            R.parse
                (String.intercalate ";"
                  (parts.map fun p => "(" ++ p.1 ++ ")")) =
              .ok (.logical .and (parts.map Prod.snd)) ∧
            R.parse
                (String.intercalate ","
                  (parts.map fun p => "(" ++ p.1 ++ ")")) =
              .ok (.logical .or (parts.map Prod.snd))) ∧
      (∀ query n,
        R.parse query = .ok n →
          R.parse ("!(" ++ query ++ ")") =
              .ok (.logical .not [n]) ∧
            R.parse ("(" ++ query ++ ")") = .ok n) ∧
      ∀ query n (rest : String),
        R.parse query = .ok n →
          ∃ xs,
            tokenize query = .ok xs ∧
              Lexing.ofString ("(" ++ query ++ ")" ++ rest) =
                Lexing.enclose xs query.utf8ByteSize
                  (Lexing.ofString rest) := by
  refine ⟨?_, ?_, ?_⟩
  · intro parts hMany hEach
    exact parse_intercalate hMany hEach
  · intro query n hParse
    exact ⟨parse_negation hParse, parse_parentheses hParse⟩
  · intro query n rest hParse
    rcases means_of_parse hParse with ⟨xs, hXs, _⟩
    exact ⟨xs, hXs, Lexing.ofString_parentheses hXs rest⟩

/-
  Quotes keep a parenthesis from closing, and gaps do not
  matter.
-/
theorem Registry.parse_composes_sample :
    ∃ n m,
      standard.parse " a == ')' " = .ok n ∧
        standard.parse "b!=\"(\";c==1" = .ok m ∧
        standard.parse "( a == ')' );(b!=\"(\";c==1)" =
          .ok (.logical .and [n, m]) ∧
        standard.parse "( a == ')' ),(b!=\"(\";c==1)" =
          .ok (.logical .or [n, m]) ∧
        standard.parse "!( a == ')' )" =
          .ok (.logical .not [n]) := by
  rcases parse_composes standard with ⟨hMany, hOne, _⟩
  have hFirst :
      standard.parse " a == ')' " =
        .ok (.comparison
          ⟨Builtin.equal.operator, "a", [")"]⟩) := by
    cbv
  have hSecond :
      standard.parse "b!=\"(\";c==1" =
        .ok (.logical .and
          [.comparison
            ⟨Builtin.notEqual.operator, "b", ["("]⟩,
          .comparison
            ⟨Builtin.equal.operator, "c", ["1"]⟩]) := by
    cbv
  rcases hMany [(_, _), (_, _)] (by decide)
      (List.forall_mem_cons.mpr
        ⟨hFirst, List.forall_mem_singleton.mpr hSecond⟩) with
    ⟨hAnd, hOr⟩
  exact ⟨_, _, hFirst, hSecond, hAnd, hOr,
    (hOne _ _ hFirst).1⟩

end FilterQuery
