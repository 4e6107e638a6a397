import FilterQuery.Node.Render
import FilterQuery.Proofs.Node.Made

/-
  This file proves what can be relied on at every node of a
  well-formed tree, and of a tree that was parsed.

  Key definitions include:
    * `FilterQuery.Node.Within`
    * `FilterQuery.Node.Sound`
    * `FilterQuery.Node.Steady`
    * `FilterQuery.Node.Parsed`
    * `FilterQuery.Node.charsByIndex?`

  Key theorems include:
    * `FilterQuery.Node.WellFormed.sound`
    * `FilterQuery.Node.WellFormed.steady`
    * `FilterQuery.Node.charsByIndex?_eq_some`
    * `FilterQuery.Registry.parsed_of_parse`

  The conditions are spelled out for a single node, and hold
  at every node inside a tree.
-/

------------------------------------------------------------
-- Trees Inside Trees
------------------------------------------------------------

namespace FilterQuery

namespace Node

/- The first tree is the second, or stands below its root. -/
inductive Within : Node → Node → Prop
  | root
      (n : Node) :
      Within n n
  | child
      {k : Connective}
      {children : List Node}
      {m n : Node}
      (hChild : n ∈ children)
      (hWithin : Within m n) :
      Within m (.logical k children)

variable {m n : Node}

/- What is inside a well-formed tree is well formed. -/
theorem Within.wellFormed
    (hWithin : m.Within n)
    (hWhole : n.WellFormed) :
    m.WellFormed := by
  induction hWithin with
  | root =>
      exact hWhole
  | child hChild _ ih =>
      exact ih (hWhole.children hChild)

/- What is inside a branching tree is branching. -/
theorem Within.branching
    (hWithin : m.Within n)
    (hBranching : n.Branching) :
    m.Branching := by
  induction hWithin with
  | root =>
      exact hBranching
  | child hChild _ ih =>
      cases hBranching with
      | logical _ hChildren =>
          exact ih (hChildren _ hChild)

/- A comparison inside a tree is one of its comparisons. -/
theorem Within.mem_comparisons
    {c : Comparison}
    (hWithin : Within (.comparison c) n) :
    c ∈ n.comparisons := by
  generalize hLeaf : Node.comparison c = leaf at hWithin
  induction hWithin with
  | root =>
      subst hLeaf
      exact List.mem_singleton.mpr rfl
  | child hChild _ ih =>
      exact mem_comparisons_logical.mpr ⟨_, hChild, ih hLeaf⟩

end Node

end FilterQuery

------------------------------------------------------------
-- Sound Nodes
------------------------------------------------------------

namespace FilterQuery

/- An operator with spellings, all of which are symbols. -/
def Operator.Sound (op : Operator) : Prop :=
  op.symbols ≠ [] ∧
    (∀ s ∈ op.symbols, Symbol.isValid s = true) ∧
    op.symbols[0]? = some op.symbol

namespace Node

/- The node at the root has what it needs. -/
def Sound : Node → Prop
| .comparison c =>
    c.operator.Sound ∧
      Text.isBlankText c.selector = false ∧
      c.arguments ≠ [] ∧
      (c.operator.multiValue = false →
        c.arguments.length = 1)
| .logical k children =>
    children ≠ [] ∧ (k = .not → children.length = 1)

/-
  What a node has by index is there, and changing its parts
  fails for few reasons only.
-/
def Steady : Node → Prop
| .comparison c =>
    (∀ op cause,
      c.withOperator op = .error cause →
        cause =
          .tooManyArguments op.symbol c.arguments.length) ∧
      ∀ arguments cause,
        c.withArguments arguments = .error cause →
          cause = .emptyArguments ∨
            cause =
              .tooManyArguments c.operator.symbol
                arguments.length
| .logical k children =>
    (∃ child, children[0]? = some child) ∧
      ∀ ns cause,
        Node.ofChildren k ns = .error cause →
          cause = .emptyChildren ∨ cause = .notArity ns.length

/-
  The node at the root could have been parsed: AND and OR
  have several children, and an operator is the one that the
  registry has for its symbol, in every field.
-/
def Parsed (R : Registry) : Node → Prop
| .comparison c =>
    R.get? c.operator.symbol = some c.operator
| .logical k children => k ≠ .not → 2 ≤ children.length

end Node

/- Every operator is sound. -/
theorem Operator.sound
    (op : Operator) :
    op.Sound :=
  ⟨List.cons_ne_nil _ _, op.valid, rfl⟩

/- A comparison is refused for one of three reasons. -/
theorem Comparison.error_of_ofParts
    {operator : Operator}
    {selector : String}
    {arguments : List String}
    {cause : NodeError}
    (hRefused :
      ofParts operator selector arguments = .error cause) :
    Text.isBlankText selector = true ∧
        cause = .blankSelector ∨
      arguments = [] ∧ cause = .emptyArguments ∨
      cause =
        .tooManyArguments operator.symbol arguments.length := by
  cases ofParts_eq_error_iff.mp hRefused with
  | blankSelector hBlank =>
      exact Or.inl ⟨hBlank, rfl⟩
  | emptyArguments _ hNone =>
      exact Or.inr (Or.inl ⟨hNone, rfl⟩)
  | tooManyArguments _ _ _ =>
      exact Or.inr (Or.inr rfl)

namespace Node

variable {n : Node}

/- Joining fails for one of two reasons. -/
theorem error_of_ofChildren
    {k : Connective}
    {ns : List Node}
    {cause : NodeError}
    (hRefused : ofChildren k ns = .error cause) :
    cause = .emptyChildren ∨ cause = .notArity ns.length := by
  unfold ofChildren at hRefused
  split at hRefused
  · cases hRefused
    exact Or.inl rfl
  · split at hRefused
    · cases hRefused
      exact Or.inr rfl
    · cases hRefused

/- The root of a well-formed tree is sound. -/
theorem WellFormed.sound
    (hWhole : n.WellFormed) :
    n.Sound := by
  cases hWhole with
  | comparison hComparison =>
      refine ⟨Operator.sound _, hComparison.selector,
        hComparison.arguments, ?_⟩
      intro hSingle
      rcases hComparison.arity with hMany | hOne
      · rw [hSingle] at hMany
        cases hMany
      · exact hOne
  | logical hSome hNot _ =>
      exact ⟨hSome, hNot⟩

/- The root of a well-formed tree is steady. -/
theorem WellFormed.steady
    (hWhole : n.WellFormed) :
    n.Steady := by
  cases hWhole with
  | @comparison c hComparison =>
      -- The selector of a tree at hand is never refused.
      have hVisible : Text.isBlankText c.selector ≠ true := by
        rw [hComparison.selector]
        decide
      constructor
      · intro op cause hRefused
        rcases Comparison.error_of_ofParts hRefused with
          ⟨hBlank, _⟩ | ⟨hNone, _⟩ | hMany
        · exact absurd hBlank hVisible
        · exact absurd hNone hComparison.arguments
        · exact hMany
      · intro arguments cause hRefused
        rcases Comparison.error_of_ofParts hRefused with
          ⟨hBlank, _⟩ | ⟨_, hNone⟩ | hMany
        · exact absurd hBlank hVisible
        · exact Or.inl hNone
        · exact Or.inr hMany
  | logical hSome _ _ =>
      rcases List.exists_cons_of_ne_nil hSome with
        ⟨n, ns, rfl⟩
      exact ⟨⟨n, rfl⟩, fun _ _ => error_of_ofChildren⟩

end Node

end FilterQuery

------------------------------------------------------------
-- Reading By Index
------------------------------------------------------------

namespace FilterQuery

/-
  The characters of a comparison, where a single spelling or
  argument is taken by its index.
-/
def Comparison.charsByIndex?
    (c : Comparison) :
    Option (List Char) := do
  let symbol ← c.operator.symbols[0]?
  let arguments ←
    if c.arguments.length = 1 then
      c.arguments[0]?.map Text.valueChars
    else
      some
        ('(' ::
          (List.intercalate [',']
              (c.arguments.map Text.valueChars) ++
            [')']))
  return Text.valueChars c.selector ++ symbol.toList ++
    arguments

namespace Node

mutual

/- The characters of a tree, read in this way. -/
def charsByIndex? : Node → Option (List Char)
| .comparison c => c.charsByIndex?
| .logical k children =>
    (charsByIndexList? children).map fun parts =>
      k.opening ++
        (List.intercalate k.symbol.toList parts ++ [')'])

/- The characters of each tree of a list. -/
def charsByIndexList? :
    List Node → Option (List (List Char))
| [] => some []
| n :: ns => do
    let part ← n.charsByIndex?
    let parts ← charsByIndexList? ns
    return part :: parts

end

end Node

/- Reading a comparison by index never fails. -/
theorem Comparison.charsByIndex?_eq_some
    (c : Comparison) :
    c.charsByIndex? = some c.chars := by
  unfold charsByIndex? chars
  rcases c with ⟨op, selector, arguments⟩
  rcases arguments with _ | ⟨a, _ | ⟨b, bs⟩⟩
  · rfl
  · rfl
  · rfl

/- Reading a tree by index never fails. -/
theorem Node.charsByIndex?_eq_some
    (n : Node) :
    n.charsByIndex? = some n.chars := by
  induction n with
  | comparison c =>
      exact c.charsByIndex?_eq_some
  | logical k children ih =>
      have hParts :
          charsByIndexList? children =
            some (charsList children) := by
        induction children with
        | nil => rfl
        | cons n ns ihRest =>
            rw [List.forall_mem_cons] at ih
            rw [charsByIndexList?, ih.1, ihRest ih.2]
            rfl
      rw [charsByIndex?, hParts]
      rfl

end FilterQuery

------------------------------------------------------------
-- Defined And Parsed
------------------------------------------------------------

namespace FilterQuery

/- A defined operator is sound and has what was spelled. -/
theorem Definition.sound_of_operator
    {definition : Definition}
    {op : Operator}
    (hDefined : definition.operator = .ok op) :
    op.Sound ∧
      ∀ symbols multiValue,
        definition = .spelled symbols multiValue →
          op.symbols = symbols ∧
            op.multiValue = multiValue := by
  refine ⟨op.sound, ?_⟩
  rintro symbols multiValue rfl
  exact Operator.symbols_of_ofSymbols hDefined

/- What is parsed could have been parsed at every depth. -/
theorem Registry.parsed_of_parse
    {R : Registry}
    {query : String}
    {n m : Node}
    (hParse : R.parse query = .ok n)
    (hWithin : m.Within n) :
    m.Parsed R := by
  rcases means_of_parse hParse with ⟨xs, _, hMeans⟩
  cases m with
  | comparison c =>
      exact hMeans.registers c hWithin.mem_comparisons
  | logical k ns =>
      cases hWithin.branching hMeans.branching with
      | logical hMany _ => exact hMany

end FilterQuery
