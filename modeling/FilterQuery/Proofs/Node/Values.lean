import FilterQuery.Node.Basic

/-
  This file takes a tree apart into its values and its shape.

  Key definitions include:
    * `FilterQuery.Node.mapValues`
    * `FilterQuery.Node.values`
    * `FilterQuery.Node.shape`

  Key theorems include:
    * `FilterQuery.Comparison.ofParts_mapValues`
    * `FilterQuery.Node.shape_mapValues`
    * `FilterQuery.Node.eq_of_shape_of_values`

  The values of a tree are its selectors and arguments, from
  left to right.  The shape is all the rest: connectives,
  operators, and how many arguments there are.
-/

------------------------------------------------------------
-- Other Values
------------------------------------------------------------

namespace FilterQuery

/- The comparison with each value replaced. -/
def Comparison.mapValues
    (f : String → String)
    (c : Comparison) :
    Comparison :=
  ⟨c.operator, f c.selector, c.arguments.map f⟩

namespace Node

mutual

/- The tree with each value replaced. -/
def mapValues
    (f : String → String) :
    Node → Node
| .comparison c => .comparison (c.mapValues f)
| .logical k children =>
    .logical k (mapValuesList f children)

/- Each tree of a list with each value replaced. -/
def mapValuesList
    (f : String → String) :
    List Node → List Node
| [] => []
| n :: ns => mapValues f n :: mapValuesList f ns

end

/- Values of a list are replaced in each of its trees. -/
theorem mapValuesList_eq_map
    (f : String → String)
    (ns : List Node) :
    mapValuesList f ns = ns.map (mapValues f) := by
  induction ns with
  | nil =>
      rfl
  | cons n ns ih =>
      rw [mapValuesList, ih, List.map_cons]

/- Values under a connective are replaced in each operand. -/
theorem mapValues_logical
    (f : String → String)
    (k : Connective)
    (ns : List Node) :
    mapValues f (.logical k ns) =
      .logical k (ns.map (mapValues f)) := by
  rw [mapValues, mapValuesList_eq_map]

/- A tree with its own values is the same. -/
theorem mapValues_id
    (n : Node) :
    n.mapValues id = n := by
  induction n with
  | comparison c =>
      simp [mapValues, Comparison.mapValues]
  | logical k ns ih =>
      rw [mapValues_logical, List.map_congr_left ih]
      exact congrArg (Node.logical k) (List.map_id ns)

/- Values that are replaced twice. -/
theorem mapValues_mapValues
    (f g : String → String)
    (n : Node) :
    (n.mapValues f).mapValues g = n.mapValues (g ∘ f) := by
  induction n with
  | comparison c =>
      simp [mapValues, Comparison.mapValues]
  | logical k ns ih =>
      simp only [mapValues_logical, List.map_map]
      exact congrArg (Node.logical k) (List.map_congr_left ih)

end Node

/-
  A comparison can be made of other values exactly if it can
  be made, if blank values stay blank and others do not
  become blank.
-/
theorem Comparison.ofParts_mapValues
    {f : String → String}
    (hBlank :
      ∀ value,
        Text.isBlankText (f value) = Text.isBlankText value)
    (operator : Operator)
    (selector : String)
    (arguments : List String) :
    ofParts operator (f selector) (arguments.map f) =
      (ofParts operator selector arguments).map
        (mapValues f) := by
  unfold ofParts
  rw [hBlank, List.length_map]
  simp only [List.map_eq_nil_iff]
  split
  · rfl
  · split
    · rfl
    · split
      · rfl
      · rfl

end FilterQuery

------------------------------------------------------------
-- Values And Shapes
------------------------------------------------------------

namespace FilterQuery

/- The selector and the arguments of a comparison. -/
def Comparison.values (c : Comparison) : List String :=
  c.selector :: c.arguments

namespace Node

mutual

/- The values of a tree, from left to right. -/
def values : Node → List String
| .comparison c => c.values
| .logical _ children => valuesList children

/- The values of the trees of a list. -/
def valuesList : List Node → List String
| [] => []
| n :: ns => n.values ++ valuesList ns

end

/- The tree without its values. -/
def shape (n : Node) : Node :=
  n.mapValues fun _ => ""

/- The values of a list are those of its trees. -/
theorem valuesList_eq_flatMap
    (ns : List Node) :
    valuesList ns = ns.flatMap values := by
  induction ns with
  | nil =>
      rfl
  | cons n ns ih =>
      rw [valuesList, ih, List.flatMap_cons]

/- Other values do not change the shape. -/
theorem shape_mapValues
    (f : String → String)
    (n : Node) :
    (n.mapValues f).shape = n.shape :=
  mapValues_mapValues f _ n

end Node

/- Comparisons of one shape have equally many values. -/
theorem Comparison.eq_of_append_values
    {c d : Comparison}
    {vs ws : List String}
    (hShape :
      (c.mapValues fun _ => "") = d.mapValues fun _ => "")
    (hValues : c.values ++ vs = d.values ++ ws) :
    c = d ∧ vs = ws := by
  rcases c with ⟨operator, selector, arguments⟩
  rcases d with ⟨operator', selector', arguments'⟩
  simp only [mapValues, mk.injEq] at hShape
  rcases hShape with ⟨rfl, _, hArguments⟩
  have hLength : arguments.length = arguments'.length := by
    simpa using congrArg List.length hArguments
  simp only [values, List.cons_append, List.cons.injEq]
    at hValues
  rcases hValues with ⟨rfl, hRest⟩
  rcases List.append_inj hRest hLength with ⟨rfl, rfl⟩
  exact ⟨rfl, rfl⟩

namespace Node

/-
  The tree can be told by its shape and by any values that
  start with its own.
-/
def Determined (n : Node) : Prop :=
  ∀ m vs ws,
    n.shape = m.shape →
      n.values ++ vs = m.values ++ ws → n = m ∧ vs = ws

/- A list of such trees can be told in the same way. -/
theorem eq_of_append_valuesList
    {ns ms : List Node}
    {vs ws : List String}
    (hEach : ∀ n ∈ ns, n.Determined)
    (hShapes : ns.map shape = ms.map shape)
    (hValues : valuesList ns ++ vs = valuesList ms ++ ws) :
    ns = ms ∧ vs = ws := by
  induction ns generalizing ms with
  | nil =>
      cases ms with
      | nil => exact ⟨rfl, hValues⟩
      | cons m ms => cases hShapes
  | cons n ns ih =>
      cases ms with
      | nil =>
          cases hShapes
      | cons m ms =>
          rcases List.forall_mem_cons.mp hEach with
            ⟨hFirst, hMore⟩
          rcases List.cons.inj hShapes with ⟨hShape, hRest⟩
          simp only [valuesList, List.append_assoc] at hValues
          rcases hFirst m _ _ hShape hValues with
            ⟨rfl, hLater⟩
          rcases ih hMore hRest hLater with ⟨rfl, rfl⟩
          exact ⟨rfl, rfl⟩

/- Every tree can be told in this way. -/
theorem determined
    (n : Node) :
    n.Determined := by
  induction n with
  | comparison c =>
      intro m vs ws hShape hValues
      cases m with
      | comparison d =>
          have hShapes := Node.comparison.inj hShape
          rcases Comparison.eq_of_append_values hShapes
              hValues with
            ⟨rfl, rfl⟩
          exact ⟨rfl, rfl⟩
      | logical l ms =>
          cases hShape
  | logical k ns ih =>
      intro m vs ws hShape hValues
      cases m with
      | comparison d =>
          cases hShape
      | logical l ms =>
          simp only [shape, mapValues_logical,
            logical.injEq] at hShape
          rcases hShape with ⟨rfl, hShapes⟩
          rcases eq_of_append_valuesList ih hShapes
              hValues with
            ⟨rfl, rfl⟩
          exact ⟨rfl, rfl⟩

/- A tree is determined by its shape and its values. -/
theorem eq_of_shape_of_values
    {n m : Node}
    (hShape : n.shape = m.shape)
    (hValues : n.values = m.values) :
    n = m := by
  have hAppend : n.values ++ [] = m.values ++ [] := by
    rw [hValues]
  exact (n.determined m [] [] hShape hAppend).1

end Node

end FilterQuery
