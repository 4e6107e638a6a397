import FilterQuery.Operator.Registry

/-
  This file proves which operators a registry keeps, how they
  are found again, and when registries are the same.

  Key definitions include:
    * `FilterQuery.Operator.firsts`
    * `FilterQuery.Registry.Represents`

  Key theorems include:
    * `FilterQuery.Intake.kept_ofList`
    * `FilterQuery.Intake.perm_ofList`
    * `FilterQuery.Registry.get?_eq_some_iff_mem`
    * `FilterQuery.Registry.ofList_eq_ok_iff`
    * `FilterQuery.Registry.same_iff`
    * `FilterQuery.Registry.ofList_represents`

  The list of operators determines the map beside it, so two
  registries with the same operators are equal.
-/

------------------------------------------------------------
-- First Operators
------------------------------------------------------------

namespace FilterQuery

namespace Operator

/-
  The first operators of their canonical symbols, in the
  order of the list.
-/
def firsts (ops : List Operator) : List Operator :=
  ops.eraseDupsBy same

/- The first operator keeps others of its symbol out. -/
theorem firsts_cons
    (op : Operator)
    (ops : List Operator) :
    firsts (op :: ops) =
      op :: firsts
        (ops.filter fun other => other.symbol ≠ op.symbol) := by
  have hFilter :
      (ops.filter fun other =>
        decide (other.same op = false)) =
        ops.filter fun other =>
          other.symbol ≠ op.symbol := by
    apply List.filter_congr
    intro other _
    simp [same]
  unfold firsts
  rw [List.eraseDupsBy_cons, hFilter]

/- The first operator of a symbol is kept as its first. -/
theorem find?_firsts
    (ops : List Operator)
    (symbol : String) :
    ((firsts ops).find? fun op => op.symbol == symbol) =
      ops.find? fun op => op.symbol == symbol := by
  match ops with
  | [] =>
      rfl
  | op :: ops =>
      rw [firsts_cons, List.find?_cons, List.find?_cons]
      cases hSymbol : op.symbol == symbol with
      | true =>
          rfl
      | false =>
          -- What is left out has another symbol.
          have hLeftOut :
              (fun other : Operator =>
                decide
                  (decide (other.symbol ≠ op.symbol) = true ∧
                    (other.symbol == symbol) = true)) =
                fun other => other.symbol == symbol := by
            funext other
            grind
          change
            ((firsts _).find? _ : Option Operator) = _
          rw [find?_firsts, List.find?_filter, hLeftOut]
termination_by ops.length
decreasing_by
  exact Nat.lt_succ_of_le (List.length_filter_le _ _)

/- Operators with distinct symbols are all first. -/
theorem firsts_of_nodup
    {ops : List Operator}
    (hDistinct : (ops.map symbol).Nodup) :
    firsts ops = ops := by
  induction ops with
  | nil =>
      rfl
  | cons op ops ih =>
      rw [List.map_cons, List.nodup_cons] at hDistinct
      have hOthers :
          (ops.filter fun other =>
            other.symbol ≠ op.symbol) = ops := by
        apply List.filter_eq_self.mpr
        intro other hMem
        apply decide_eq_true
        intro hSame
        apply hDistinct.1
        rw [← hSame]
        exact List.mem_map_of_mem hMem
      rw [firsts_cons, hOthers, ih hDistinct.2]

/- Operators are the same place by place if symbols are. -/
theorem isEqv_same_iff
    {ops others : List Operator} :
    ops.isEqv others same = true ↔
      ops.map symbol = others.map symbol := by
  induction ops generalizing others with
  | nil =>
      cases others with
      | nil => exact ⟨fun _ => rfl, fun _ => rfl⟩
      | cons other others => exact ⟨nofun, nofun⟩
  | cons op ops ih =>
      cases others with
      | nil => exact ⟨nofun, nofun⟩
      | cons other others =>
          rw [List.isEqv, Bool.and_eq_true, ih, List.map_cons,
            List.map_cons, List.cons.injEq, same, beq_iff_eq]

/- There are first operators unless there are none at all. -/
theorem firsts_eq_nil_iff
    {ops : List Operator} :
    firsts ops = [] ↔ ops = [] := by
  cases ops with
  | nil =>
      exact Iff.rfl
  | cons op ops =>
      rw [firsts_cons]
      exact ⟨nofun, nofun⟩

end Operator

end FilterQuery

------------------------------------------------------------
-- Intake
------------------------------------------------------------

namespace FilterQuery

namespace Intake

/-
  What is kept of more operators: the first ones of symbols
  that were not taken before.
-/
theorem kept_foldl
    (intake : Intake)
    (ops : List Operator) :
    (ops.foldl add intake).kept =
      intake.kept ++
        Operator.firsts
          (ops.filter fun op =>
            !intake.places.contains op.symbol) := by
  induction ops generalizing intake with
  | nil =>
      exact (List.append_nil _).symm
  | cons op ops ih =>
      rw [List.foldl_cons, ih]
      unfold add
      cases hTaken : intake.places.contains op.symbol with
      | true =>
          rw [List.filter_cons_of_neg (by simp [hTaken])]
          rfl
      | false =>
          rw [List.filter_cons_of_pos (by simp [hTaken]),
            Operator.firsts_cons, List.filter_filter,
            if_neg Bool.false_ne_true, List.append_assoc]
          have hFree :
              (ops.filter fun other =>
                !(intake.places.insert op.symbol
                    intake.kept.length).contains
                  other.symbol) =
                ops.filter fun other =>
                  decide (other.symbol ≠ op.symbol) &&
                    !intake.places.contains other.symbol := by
            apply List.filter_congr
            intro other _
            rw [Places.contains_insert_eq, Bool.not_or]
            congr 1
            rw [Bool.eq_iff_iff, Bool.not_eq_true',
              beq_eq_false_iff_ne, decide_eq_true_eq, ne_comm]
          rw [hFree]
          rfl

/- The first operators of their symbols are kept. -/
theorem kept_ofList
    (ops : List Operator) :
    (ofList ops).kept = Operator.firsts ops := by
  unfold ofList
  rw [kept_foldl]
  have hAll :
      (ops.filter fun op =>
        !empty.places.contains op.symbol) = ops := by
    apply List.filter_eq_self.mpr
    intro op _
    rfl
  rw [hAll]
  rfl

/- The map of an intake has the symbols of the list. -/
theorem contains_ofList
    (ops : List Operator)
    (symbol : String) :
    (ofList ops).places.contains symbol = true ↔
      ∃ op ∈ ops, op.symbol = symbol := by
  have hStep := inStep_ofList ops
  unfold InStep at hStep
  rw [hStep.contains_iff, kept_ofList]
  have hFind := congrArg Option.isSome
    (Operator.find?_firsts ops symbol)
  rw [Bool.eq_iff_iff, List.find?_isSome, List.find?_isSome]
    at hFind
  simp only [beq_iff_eq] at hFind
  rw [List.mem_map]
  exact hFind

/- An operator taken in is kept or dropped. -/
theorem perm_add
    (intake : Intake)
    (op : Operator) :
    ((intake.add op).kept ++ (intake.add op).dropped).Perm
      (intake.kept ++ intake.dropped ++ [op]) := by
  unfold add
  split
  · rw [List.append_assoc]
  · simp only [List.append_assoc]
    exact List.perm_append_comm.append_left _

/- All operators taken in are kept or dropped. -/
theorem perm_foldl
    (intake : Intake)
    (ops : List Operator) :
    ((ops.foldl add intake).kept ++
        (ops.foldl add intake).dropped).Perm
      (intake.kept ++ intake.dropped ++ ops) := by
  induction ops generalizing intake with
  | nil =>
      rw [List.append_nil]
      exact .refl _
  | cons op ops ih =>
      have hStep := (perm_add intake op).append_right ops
      rw [List.append_assoc _ [op], List.singleton_append]
        at hStep
      exact (ih (intake.add op)).trans hStep

/- All operators of a list are kept or dropped. -/
theorem perm_ofList
    (ops : List Operator) :
    ((ofList ops).kept ++ (ofList ops).dropped).Perm ops :=
  perm_foldl empty ops

end Intake

end FilterQuery

------------------------------------------------------------
-- Lookup
------------------------------------------------------------

namespace FilterQuery

namespace Registry

variable {R : Registry}

/- The canonical symbols of a registry are distinct. -/
theorem nodup_symbols
    (R : Registry) :
    R.symbols.Nodup :=
  R.located.nodup

/- A lookup finds the operator that has the symbol. -/
theorem get?_eq_some_iff_mem
    {symbol : String}
    {op : Operator} :
    R.get? symbol = some op ↔
      op ∈ R.operators ∧ op.symbol = symbol := by
  constructor
  · intro hGet
    rcases get?_eq_some_iff.mp hGet with ⟨i, _, hOperator⟩
    exact ⟨List.mem_of_getElem? hOperator, symbol_of_get? hGet⟩
  · rintro ⟨hMem, rfl⟩
    rcases List.mem_iff_getElem?.mp hMem with ⟨i, hOperator⟩
    apply get?_eq_some_iff.mpr
    refine ⟨i, (R.located _ i).mpr ?_, hOperator⟩
    rw [List.getElem?_map, hOperator]
    rfl

/- A lookup is a search through the operators. -/
theorem get?_eq_find?
    (R : Registry)
    (symbol : String) :
    R.get? symbol =
      R.operators.find? fun op => op.symbol == symbol := by
  cases hFind :
      R.operators.find? fun op => op.symbol == symbol with
  | some op =>
      have hSymbol := List.find?_some hFind
      rw [beq_iff_eq] at hSymbol
      exact get?_eq_some_iff_mem.mpr
        ⟨List.mem_of_find?_eq_some hFind, hSymbol⟩
  | none =>
      apply Option.eq_none_iff_forall_ne_some.mpr
      intro op hGet
      rcases get?_eq_some_iff_mem.mp hGet with ⟨hMem, hSymbol⟩
      have hOther := List.find?_eq_none.mp hFind op hMem
      exact hOther (beq_iff_eq.mpr hSymbol)

/- The operator at the place of a symbol is the one found. -/
theorem get?_of_position?
    {symbol : String}
    {i : Nat}
    (hPlace : R.position? symbol = some i) :
    ∃ hLt : i < R.operators.length,
      R.get? symbol = some R.operators[i] := by
  have hLt := lt_length_of_position? hPlace
  exact ⟨hLt, get?_eq_some_iff.mpr
    ⟨i, hPlace, List.getElem?_eq_getElem hLt⟩⟩

/- Registries with the same operators are equal. -/
theorem eq_of_operators
    {S : Registry}
    (hOperators : R.operators = S.operators) :
    R = S := by
  rcases R with ⟨ops, places, hSome, hLocated⟩
  rcases S with ⟨others, otherPlaces, hOthers, hElsewhere⟩
  change ops = others at hOperators
  subst hOperators
  have hPlaces := hLocated.unique hElsewhere
  subst hPlaces
  rfl

end Registry

end FilterQuery

------------------------------------------------------------
-- Building
------------------------------------------------------------

namespace FilterQuery

namespace Registry

variable {R S : Registry} {ops : List Operator}

/- Only the empty list of operators makes no registry. -/
theorem ofList_eq_error_iff
    {e : ConfigError} :
    ofList ops = .error e ↔
      ops = [] ∧ e = .emptyOperators := by
  unfold ofList
  split
  · rename_i hNone
    rw [Intake.kept_ofList, Operator.firsts_eq_nil_iff]
      at hNone
    rw [Except.error.injEq]
    exact ⟨fun h => ⟨hNone, h.symm⟩, fun h => h.2.symm⟩
  · rename_i hSome
    rw [Intake.kept_ofList, Operator.firsts_eq_nil_iff]
      at hSome
    exact ⟨nofun, fun h => absurd h.1 hSome⟩

/- The registry of a list holds its first operators. -/
theorem ofList_eq_ok_iff :
    ofList ops = .ok R ↔
      ops ≠ [] ∧ R.operators = Operator.firsts ops := by
  unfold ofList
  split
  · rename_i hNone
    rw [Intake.kept_ofList, Operator.firsts_eq_nil_iff]
      at hNone
    exact ⟨nofun, fun h => absurd hNone h.1⟩
  · rename_i hSome
    rw [Except.ok.injEq]
    rw [Intake.kept_ofList, Operator.firsts_eq_nil_iff]
      at hSome
    constructor
    · rintro rfl
      exact ⟨hSome, Intake.kept_ofList ops⟩
    · rintro ⟨_, hOperators⟩
      apply eq_of_operators
      rw [hOperators]
      exact Intake.kept_ofList ops

/- The first operators of their symbols make the registry. -/
theorem ofList_eq_of_firsts
    {others : List Operator}
    (hFirsts : Operator.firsts ops = Operator.firsts others) :
    ofList ops = ofList others := by
  cases hMade : ofList others with
  | error e =>
      rcases ofList_eq_error_iff.mp hMade with ⟨rfl, rfl⟩
      have hNone := Operator.firsts_eq_nil_iff.mp hFirsts
      exact ofList_eq_error_iff.mpr ⟨hNone, rfl⟩
  | ok R =>
      rcases ofList_eq_ok_iff.mp hMade with
        ⟨hSome, hOperators⟩
      have hOthers : ops ≠ [] := by
        rw [ne_eq, ← Operator.firsts_eq_nil_iff, hFirsts,
          Operator.firsts_eq_nil_iff]
        exact hSome
      exact ofList_eq_ok_iff.mpr
        ⟨hOthers, hOperators.trans hFirsts.symm⟩

/- A duplicate of an earlier operator changes nothing. -/
theorem ofList_of_duplicate
    {before after : List Operator}
    {op other : Operator}
    (hMem : other ∈ before)
    (hSymbol : other.symbol = op.symbol) :
    ofList (before ++ op :: after) =
      ofList (before ++ after) := by
  apply ofList_eq_of_firsts
  rw [← Intake.kept_ofList, ← Intake.kept_ofList]
  have hTaken :=
    (Intake.contains_ofList before op.symbol).mpr
      ⟨other, hMem, hSymbol⟩
  unfold Intake.ofList at hTaken ⊢
  rw [List.foldl_append, List.foldl_append, List.foldl_cons,
    Intake.kept_foldl, Intake.kept_foldl, Intake.add,
    if_pos hTaken]

/- The operators of a registry make that registry again. -/
theorem ofList_operators
    (R : Registry) :
    ofList R.operators = .ok R := by
  apply ofList_eq_ok_iff.mpr
  exact ⟨R.nonempty,
    (Operator.firsts_of_nodup R.nodup_symbols).symm⟩

/- A lookup finds the first operator of the list. -/
theorem get?_of_ofList
    (hMade : ofList ops = .ok R)
    (symbol : String) :
    R.get? symbol =
      ops.find? fun op => op.symbol == symbol := by
  rw [get?_eq_find?, (ofList_eq_ok_iff.mp hMade).2,
    Operator.find?_firsts]

/- Registries are the same if their symbols are equal. -/
theorem same_iff :
    R.same S = true ↔ R.symbols = S.symbols := by
  unfold same
  rw [Bool.and_eq_true, Operator.isEqv_same_iff, beq_iff_eq]
  constructor
  · rintro ⟨hSymbols, _⟩
    exact hSymbols
  · intro hSymbols
    refine ⟨hSymbols, R.located.unique ?_⟩
    change S.places.Locates R.symbols
    rw [hSymbols]
    exact S.located

end Registry

end FilterQuery

------------------------------------------------------------
-- What A Registry Stands For
------------------------------------------------------------

namespace FilterQuery

namespace Registry

/-
  The registry stands for the operators of a list: it keeps
  the first of each canonical symbol, its map has exactly
  their symbols, each with its own place, and lookups find
  them whole and never past the end.  Alternates neither are
  found nor stand in the way of a canonical symbol.
-/
structure Represents
    (R : Registry)
    (ops : List Operator) : Prop where
  operators : R.operators = Operator.firsts ops
  distinct : R.symbols.Nodup
  placed :
    ∀ (symbol : String) (i : Nat),
      R.places[symbol]? = some i ↔
        R.symbols[i]? = some symbol
  known :
    ∀ symbol,
      R.contains symbol = true ↔
        ∃ op, R.get? symbol = some op
  listed :
    ∀ symbol,
      R.contains symbol = true ↔
        ∃ op ∈ ops, op.symbol = symbol
  found :
    ∀ symbol,
      R.get? symbol =
        ops.find? fun op => op.symbol == symbol
  inRange :
    ∀ (symbol : String) (i : Nat),
      R.places[symbol]? = some i →
        ∃ hLt : i < R.operators.length,
          R.get? symbol = some R.operators[i]
  alternate :
    ∀ op ∈ ops, ∀ symbol ∈ op.alternates,
      (∀ other ∈ ops, other.symbol ≠ symbol) →
        R.get? symbol = none ∧ R.contains symbol = false
  unblocked :
    ∀ before op after,
      ops = before ++ op :: after →
        (∀ other ∈ before, other.symbol ≠ op.symbol) →
          R.get? op.symbol = some op
  counted :
    R.size + (Intake.ofList ops).dropped.length = ops.length

variable {R : Registry} {ops : List Operator}

/- A symbol is known if an operator of the list has it. -/
theorem contains_iff_of_ofList
    (hMade : ofList ops = .ok R)
    (symbol : String) :
    R.contains symbol = true ↔
      ∃ op ∈ ops, op.symbol = symbol := by
  rw [contains_iff_get?, get?_of_ofList hMade,
    ← Option.isSome_iff_exists, List.find?_isSome]
  simp only [beq_iff_eq]

/- A symbol that no operator of the list has is not found. -/
theorem get?_eq_none_of_ofList
    {symbol : String}
    (hMade : ofList ops = .ok R)
    (hNone : ∀ op ∈ ops, op.symbol ≠ symbol) :
    R.get? symbol = none := by
  rw [get?_of_ofList hMade]
  apply List.find?_eq_none.mpr
  intro op hMem hSymbol
  exact hNone op hMem (beq_iff_eq.mp hSymbol)

/- An operator is found unless one before it is in the way. -/
theorem get?_of_first
    {before after : List Operator}
    {op : Operator}
    (hMade : ofList (before ++ op :: after) = .ok R)
    (hFirst : ∀ other ∈ before, other.symbol ≠ op.symbol) :
    R.get? op.symbol = some op := by
  rw [get?_of_ofList hMade]
  apply List.find?_eq_some_iff_append.mpr
  refine ⟨beq_iff_eq.mpr rfl, before, after, rfl, ?_⟩
  intro other hMem
  simpa using hFirst other hMem

/- What is not kept of a list has been dropped. -/
theorem size_add_dropped
    (hMade : ofList ops = .ok R) :
    R.size + (Intake.ofList ops).dropped.length =
      ops.length := by
  have hLength := (Intake.perm_ofList ops).length_eq
  rw [List.length_append, Intake.kept_ofList,
    ← (ofList_eq_ok_iff.mp hMade).2] at hLength
  exact hLength

/- A registry stands for the list it is made from. -/
theorem represents_of_ofList
    (hMade : ofList ops = .ok R) :
    R.Represents ops where
  operators := (ofList_eq_ok_iff.mp hMade).2
  distinct := R.nodup_symbols
  placed := R.located
  known := R.contains_iff_get?
  listed := contains_iff_of_ofList hMade
  found := get?_of_ofList hMade
  inRange _ _ := get?_of_position?
  alternate _ _ symbol _ hNone := by
    refine ⟨get?_eq_none_of_ofList hMade hNone, ?_⟩
    rw [← Bool.not_eq_true, contains_iff_of_ofList hMade]
    rintro ⟨other, hMem, hSymbol⟩
    exact hNone other hMem hSymbol
  unblocked before op after hSplit hFirst := by
    subst hSplit
    exact get?_of_first hMade hFirst
  counted := size_add_dropped hMade

/-
  Only the empty list makes no registry; any other makes one
  that stands for the list.  The operators of a registry make
  that registry again, and registries are the same exactly if
  their canonical symbols are, in the same order.
-/
theorem ofList_represents :
    (∀ ops e,
      ofList ops = .error e ↔
        ops = [] ∧ e = .emptyOperators) ∧
      (∀ ops,
        ops ≠ [] →
          ∃ R, ofList ops = .ok R ∧ R.Represents ops) ∧
      (∀ R, ofList R.operators = .ok R) ∧
      ∀ R S : Registry,
        R.same S = true ↔ R.symbols = S.symbols := by
  refine ⟨?_, ?_, ofList_operators, ?_⟩
  · intro ops e
    exact ofList_eq_error_iff
  · intro ops hSome
    cases hMade : ofList ops with
    | error e =>
        exact absurd (ofList_eq_error_iff.mp hMade).1 hSome
    | ok R =>
        exact ⟨R, rfl, represents_of_ofList hMade⟩
  · intro R S
    exact same_iff

/-
  The alternate `>` of `=gt=` does not keep the operator `>`
  out, a second operator `=gt=` is dropped, and the registry
  is the same as one without alternates.
-/
theorem ofList_represents_sample :
    ∃ (gt angle again : Operator) (R S : Registry),
      gt.symbols = ["=gt=", ">"] ∧
        angle.symbols = [">"] ∧
        again.symbols = ["=gt="] ∧
        ofList [gt, angle, again] = .ok R ∧
        R.get? ">" = some angle ∧
        R.get? "=gt=" = some gt ∧
        R.size = 2 ∧
        ofList [again, angle] = .ok S ∧
        R.same S = true := by
  rcases ofList_represents with ⟨_, hMade, _, hSame⟩
  let gt : Operator := ⟨"=gt=", [">"], false, by decide⟩
  let angle : Operator := ⟨">", [], true, by decide⟩
  let again : Operator := ⟨"=gt=", [], true, by decide⟩
  rcases hMade [gt, angle, again] (List.cons_ne_nil _ _) with
    ⟨R, hR, hRepresents⟩
  rcases hMade [again, angle] (List.cons_ne_nil _ _) with
    ⟨S, hS, hOther⟩
  have hAngle :=
    hRepresents.unblocked [gt] angle [again] rfl (by decide)
  have hGt :=
    hRepresents.unblocked [] gt [angle, again] rfl nofun
  have hSize : R.size = 2 := by
    have hDropped :
        (Intake.ofList [gt, angle, again]).dropped = [again] :=
      by decide
    have hCounted := hRepresents.counted
    rw [hDropped] at hCounted
    exact Nat.succ.inj hCounted
  have hSymbols : R.symbols = S.symbols := by
    unfold symbols
    rw [hRepresents.operators, hOther.operators]
    decide
  exact ⟨gt, angle, again, R, S, rfl, rfl, rfl, hR, hAngle,
    hGt, hSize, hS, (hSame R S).mpr hSymbols⟩

end Registry

end FilterQuery
