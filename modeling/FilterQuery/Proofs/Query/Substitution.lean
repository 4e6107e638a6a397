import FilterQuery.Proofs.Query.Prefixes
import FilterQuery.Proofs.Query.Renaming
import Mathlib

/-
  This file proves that the values of a query are data: other
  values in their places change nothing but these values.

  Key definitions include:
    * `FilterQuery.Lexeme.values`
    * `FilterQuery.Lexeme.Alike`
    * `FilterQuery.ParseError.Alike`
    * `FilterQuery.Renaming.mask`

  Key theorems include:
    * `FilterQuery.Registry.values_of_parseLexemes`
    * `FilterQuery.Token.mask_eq_iff`
    * `FilterQuery.Registry.parseLexemes_mask_eq`
    * `FilterQuery.Registry.parseLexemes_substitutes`

  Two queries that differ in values only become equal when
  all values are masked, and masking can be done after
  parsing.  The values that are masked can be found again:
  those of the tree are those of the lexemes, in order.
-/

------------------------------------------------------------
-- Values Of Lexemes
------------------------------------------------------------

namespace FilterQuery

namespace Lexeme

/- The values of lexemes, in order. -/
def values (xs : List Lexeme) : List String :=
  xs.filterMap fun x => x.token.value?

/- No lexemes have no values. -/
theorem values_nil :
    values [] = [] :=
  rfl

/- A lexeme with a value comes with its value. -/
theorem values_cons_of_some
    {x : Lexeme}
    {value : String}
    (hValue : x.token.value? = some value)
    (xs : List Lexeme) :
    values (x :: xs) = value :: values xs :=
  List.filterMap_cons_some hValue

/- A lexeme without value adds none. -/
theorem values_cons_of_none
    {x : Lexeme}
    {t : Token}
    (hToken : x.token = t)
    (hNone : t.value? = none)
    (xs : List Lexeme) :
    values (x :: xs) = values xs := by
  rw [← hToken] at hNone
  exact List.filterMap_cons_none hNone

/- Values of lexemes that follow each other. -/
theorem values_append
    (xs ys : List Lexeme) :
    values (xs ++ ys) = values xs ++ values ys :=
  List.filterMap_append

/- A lexeme without value at the end adds none. -/
theorem values_snoc_of_none
    {x : Lexeme}
    {t : Token}
    (hToken : x.token = t)
    (hNone : t.value? = none)
    (xs : List Lexeme) :
    values (xs ++ [x]) = values xs := by
  rw [values_append, values_cons_of_none hToken hNone,
    values_nil, List.append_nil]

/- A lexeme without value between others adds none. -/
theorem values_append_cons_of_none
    {x : Lexeme}
    {t : Token}
    (hToken : x.token = t)
    (hNone : t.value? = none)
    (xs ys : List Lexeme) :
    values (xs ++ x :: ys) = values xs ++ values ys := by
  rw [values_append, values_cons_of_none hToken hNone]

end Lexeme

/- A list of values has these values. -/
theorem Values.values_eq
    {xs : List Lexeme}
    {values : List String}
    (hValues : Values xs values) :
    Lexeme.values xs = values := by
  induction hValues with
  | one hValue =>
      rw [Lexeme.values_cons_of_some hValue,
        Lexeme.values_nil]
  | more hValue hComma _ ih =>
      rw [Lexeme.values_cons_of_some hValue,
        Lexeme.values_cons_of_none hComma rfl, ih]

/- Arguments have these values. -/
theorem Arguments.values_eq
    {xs : List Lexeme}
    {values : List String}
    (hArguments : Arguments xs values) :
    Lexeme.values xs = values := by
  cases hArguments with
  | single hValue =>
      rw [Lexeme.values_cons_of_some hValue,
        Lexeme.values_nil]
  | list hOpening hValues hClosing =>
      rw [Lexeme.values_cons_of_none hOpening rfl,
        Lexeme.values_snoc_of_none hClosing rfl,
        hValues.values_eq]

/- A written comparison has its selector and arguments. -/
theorem Written.Spells.values_eq
    {w : Written}
    {xs : List Lexeme}
    (hSpells : w.Spells xs) :
    Lexeme.values xs = w.selector :: w.arguments := by
  cases hSpells with
  | intro hSelector hSymbol hArguments =>
      rw [Lexeme.values_cons_of_some hSelector,
        Lexeme.values_cons_of_none hSymbol rfl,
        hArguments.values_eq]

end FilterQuery

------------------------------------------------------------
-- Values Of Parsed Trees
------------------------------------------------------------

namespace FilterQuery

/- A connective has the values of its operands. -/
theorem Node.values_connect
    (k : Connective)
    (ns : List Node) :
    (connect k ns).values = ns.flatMap values := by
  unfold connect
  split
  · rw [List.flatMap_singleton]
  · rw [List.flatMap_singleton]
  · rw [values, valuesList_eq_flatMap]

variable {R : Registry}

/- The trees of a derivation have the values of its lexemes. -/
theorem Derives.values_eq
    {rule : Rule}
    {xs : List Lexeme}
    {ns : List Node}
    (hDerives : Derives R.reading rule xs ns) :
    ns.flatMap Node.values = Lexeme.values xs := by
  induction hDerives with
  | comparison hSpells hMeans =>
      rw [List.flatMap_singleton, hSpells.values_eq]
      cases hMeans
      rfl
  | group hOpening _ hClosing ih =>
      rw [List.flatMap_singleton,
        Lexeme.values_cons_of_none hOpening rfl,
        Lexeme.values_snoc_of_none hClosing rfl, ← ih]
      exact Node.values_connect .or _
  | negation hBang hOpening _ hClosing ih =>
      rw [List.flatMap_singleton,
        Lexeme.values_cons_of_none hBang rfl,
        Lexeme.values_cons_of_none hOpening rfl,
        Lexeme.values_snoc_of_none hClosing rfl, ← ih]
      change (Node.connect .not [Node.connect .or _]).values = _
      rw [Node.values_connect, List.flatMap_singleton,
        Node.values_connect]
  | oneOperand _ ih =>
      exact ih
  | moreOperands _ hSemicolon _ ihFirst ihMore =>
      rw [Lexeme.values_append_cons_of_none hSemicolon rfl,
        ← ihFirst, ← ihMore, List.flatMap_singleton,
        List.flatMap_cons]
  | oneConjunction _ ih =>
      rw [List.flatMap_singleton, ← ih]
      exact Node.values_connect .and _
  | moreConjunctions _ hComma _ ihFirst ihMore =>
      rw [Lexeme.values_append_cons_of_none hComma rfl,
        List.flatMap_cons, ihMore, ← ihFirst]
      exact congrArg (· ++ _) (Node.values_connect .and _)

namespace Registry

/- A parsed tree has the values of the lexemes, in order. -/
theorem values_of_parseLexemes
    {xs : List Lexeme}
    {n : Node}
    (hParse : R.parseLexemes xs = .ok n) :
    n.values = Lexeme.values xs := by
  rcases means_of_parseLexemes hParse with
    ⟨ns, hDerives, rfl⟩
  rw [← hDerives.values_eq]
  exact Node.values_connect .or ns

end Registry

end FilterQuery

------------------------------------------------------------
-- Masks
------------------------------------------------------------

namespace FilterQuery

/- What shows of a value is whether it is blank. -/
def Text.mask (value : String) : String :=
  if isBlankText value then "" else "x"

/- A masked value is as blank as the value. -/
theorem Text.isBlankText_mask
    (value : String) :
    isBlankText (mask value) = isBlankText value := by
  unfold mask
  cases hBlank : isBlankText value with
  | false => rfl
  | true => rfl

/- Masked values show no more than whether they are blank. -/
theorem Text.mask_eq_iff
    {left right : String} :
    mask left = mask right ↔
      isBlankText left = isBlankText right := by
  constructor
  · intro hMask
    rw [← isBlankText_mask left, hMask, isBlankText_mask]
  · intro hBlank
    unfold mask
    rw [hBlank]

/- The token with its value masked. -/
def Token.mask (t : Token) : Token :=
  match t.value? with
  | some value => .bare (Text.mask value)
  | none => t

/- A token without value is not masked. -/
theorem Token.mask_of_none
    {t : Token}
    (hNone : t.value? = none) :
    t.mask = t := by
  unfold mask
  rw [hNone]

/- A token with a value becomes a bare value. -/
theorem Token.mask_of_some
    {t : Token}
    {value : String}
    (hValue : t.value? = some value) :
    t.mask = .bare (Text.mask value) := by
  unfold mask
  rw [hValue]

/- A masked token has the masked value. -/
theorem Token.value?_mask
    (t : Token) :
    t.mask.value? = t.value?.map Text.mask := by
  cases hValue : t.value? with
  | none =>
      rw [mask_of_none hValue, hValue]
      rfl
  | some value =>
      rw [mask_of_some hValue]
      rfl

/- Masking all values in their places. -/
def Renaming.mask : Renaming where
  token := Token.mask
  value := Text.mask
  start := id
  stop := id
  value?_token := Token.value?_mask
  token_of_none _ := Token.mask_of_none
  isBlankText_value := Text.isBlankText_mask

/- Tokens are alike if nothing tells them apart but values. -/
theorem Token.mask_eq_iff
    {t u : Token} :
    t.mask = u.mask ↔ t.Alike u := by
  constructor
  · intro hMask
    have hValues := congrArg Token.value? hMask
    rw [value?_mask, value?_mask] at hValues
    cases hLeft : t.value? with
    | none =>
        rw [hLeft, Option.map_none] at hValues
        have hRight :=
          Option.map_eq_none_iff.mp hValues.symm
        rw [mask_of_none hLeft, mask_of_none hRight] at hMask
        rw [hMask]
        exact .same u
    | some value =>
        rw [hLeft, Option.map_some] at hValues
        rcases Option.map_eq_some_iff.mp hValues.symm with
          ⟨other, hRight, hSame⟩
        exact .values hLeft hRight
          (Text.mask_eq_iff.mp hSame.symm)
  · intro hAlike
    cases hAlike with
    | same => rfl
    | values hLeft hRight hBlank =>
        rw [mask_of_some hLeft, mask_of_some hRight,
          Text.mask_eq_iff.mpr hBlank]

end FilterQuery

------------------------------------------------------------
-- Queries With Other Values
------------------------------------------------------------

namespace FilterQuery

/-
  Lexemes in the same place whose tokens differ at most in
  the value they hold.
-/
structure Lexeme.Alike (x y : Lexeme) : Prop where
  token : x.token.Alike y.token
  start : x.start = y.start
  stop : x.stop = y.stop

/- Errors that differ at most in the value that was found. -/
inductive ParseError.Alike : ParseError → ParseError → Prop
  | same
      (e : ParseError) :
      ParseError.Alike e e
  | unexpectedToken
      {expected : Expected}
      {left right : Token}
      {position : Nat}
      (hAlike : left.Alike right) :
      ParseError.Alike
        (.unexpectedToken expected left position)
        (.unexpectedToken expected right position)

/- Lexemes that are alike are masked to the same lexeme. -/
theorem Lexeme.Alike.mask_eq
    {x y : Lexeme}
    (hAlike : x.Alike y) :
    Renaming.mask.lexeme x = Renaming.mask.lexeme y := by
  rcases x with ⟨t, start, stop⟩
  rcases y with ⟨u, start', stop'⟩
  rcases hAlike with ⟨hToken, hStart, hStop⟩
  change start = start' at hStart
  change stop = stop' at hStop
  subst hStart hStop
  exact congrArg (Lexeme.mk · start stop)
    (Token.mask_eq_iff.mpr hToken)

/- Equal errors are alike. -/
theorem ParseError.alike_of_eq
    {e e' : ParseError}
    (hSame : e = e') :
    e.Alike e' := by
  rw [hSame]
  exact .same e'

/- Errors that are masked to the same error are alike. -/
theorem ParseError.alike_of_mask
    {e e' : ParseError}
    (hMask : Renaming.mask.error e = Renaming.mask.error e') :
    e.Alike e' := by
  cases e with
  | unexpectedToken expected got position =>
      cases e' with
      | unexpectedToken expected' got' position' =>
          rcases ParseError.unexpectedToken.inj hMask with
            ⟨rfl, hToken, hPosition⟩
          change position = position' at hPosition
          rw [hPosition]
          exact .unexpectedToken (Token.mask_eq_iff.mp hToken)
      | _ => cases hMask
  | lexical _ | unexpectedEnd _ | invalidNode _ _ =>
      cases e' with
      | unexpectedToken _ _ _ => cases hMask
      | _ => exact ParseError.alike_of_eq hMask

/- Trees that are masked to the same tree have one shape. -/
theorem Node.shape_of_mask
    {n m : Node}
    (hMask : Renaming.mask.node n = Renaming.mask.node m) :
    n.shape = m.shape := by
  have hShape := congrArg Node.shape hMask
  unfold Renaming.node at hShape
  rwa [Node.shape_mapValues, Node.shape_mapValues] at hShape

namespace Registry

variable {R : Registry} {xs ys : List Lexeme}

/- Masks hide what makes the outcomes differ. -/
theorem parseLexemes_mask_eq
    (R : Registry)
    (hAlike : List.Forall₂ Lexeme.Alike xs ys) :
    Renaming.mask.outcome (R.parseLexemes xs) =
      Renaming.mask.outcome (R.parseLexemes ys) := by
  have hSame :
      xs.map Renaming.mask.lexeme =
        ys.map Renaming.mask.lexeme := by
    induction hAlike with
    | nil =>
        rfl
    | cons hFirst _ ih =>
        rw [List.map_cons, List.map_cons, hFirst.mask_eq, ih]
  rw [← parseLexemes_rename, ← parseLexemes_rename, hSame]

/-
  If one query is parsed so is the other, to the only tree of
  that shape with its own values.
-/
theorem tree_of_alike
    {n : Node}
    (hAlike : List.Forall₂ Lexeme.Alike xs ys)
    (hParse : R.parseLexemes xs = .ok n) :
    ∃ m,
      R.parseLexemes ys = .ok m ∧
        ∀ m' : Node,
          m'.shape = n.shape ∧
              m'.values = Lexeme.values ys ↔
            m' = m := by
  have hMask := R.parseLexemes_mask_eq hAlike
  rw [hParse] at hMask
  cases hOther : R.parseLexemes ys with
  | error e =>
      rw [hOther] at hMask
      cases hMask
  | ok m =>
      rw [hOther] at hMask
      have hShape := Node.shape_of_mask (Except.ok.inj hMask)
      have hValues := values_of_parseLexemes hOther
      refine ⟨m, rfl, ?_⟩
      intro m'
      constructor
      · rintro ⟨hShape', hValues'⟩
        exact Node.eq_of_shape_of_values
          (hShape'.trans hShape) (hValues'.trans hValues.symm)
      · rintro rfl
        exact ⟨hShape.symm, hValues⟩

/- If one query is rejected the other is, for an alike error. -/
theorem error_of_alike
    {e : ParseError}
    (hAlike : List.Forall₂ Lexeme.Alike xs ys)
    (hParse : R.parseLexemes xs = .error e) :
    ∃ e', R.parseLexemes ys = .error e' ∧ e.Alike e' := by
  have hMask := R.parseLexemes_mask_eq hAlike
  rw [hParse] at hMask
  cases hOther : R.parseLexemes ys with
  | ok m =>
      rw [hOther] at hMask
      cases hMask
  | error e' =>
      rw [hOther] at hMask
      have hError := Except.error.inj hMask
      exact ⟨e', rfl, ParseError.alike_of_mask hError⟩

/-
  Lexemes that differ in values only, blank ones in place of
  blank ones, have outcomes that differ in values only.  If
  one list is parsed so is the other, to a tree of the same
  shape with its own values, and no other tree is like that.
  If one is rejected so is the other, for an error that
  differs at most in the value that was found.  Where all
  values are equal, bare or quoted, so are the trees.
-/
theorem parseLexemes_substitutes
    (R : Registry)
    (hAlike : List.Forall₂ Lexeme.Alike xs ys) :
    (∀ n,
        R.parseLexemes xs = .ok n →
          n.values = Lexeme.values xs ∧
            ∃ m,
              R.parseLexemes ys = .ok m ∧
                ∀ m' : Node,
                  m'.shape = n.shape ∧
                      m'.values = Lexeme.values ys ↔
                    m' = m) ∧
      (∀ e,
        R.parseLexemes xs = .error e →
          ∃ e', R.parseLexemes ys = .error e' ∧ e.Alike e') ∧
      ((∃ n, R.parseLexemes xs = .ok n) ↔
        ∃ m, R.parseLexemes ys = .ok m) ∧
      (Lexeme.values xs = Lexeme.values ys →
        ∀ n,
          R.parseLexemes xs = .ok n ↔
            R.parseLexemes ys = .ok n) := by
  have hTree :
      ∀ n,
        R.parseLexemes xs = .ok n →
          ∃ m,
            R.parseLexemes ys = .ok m ∧
              ∀ m' : Node,
                m'.shape = n.shape ∧
                    m'.values = Lexeme.values ys ↔
                  m' = m :=
    fun n hParse => tree_of_alike hAlike hParse
  have hBoth :
      (∃ n, R.parseLexemes xs = .ok n) ↔
        ∃ m, R.parseLexemes ys = .ok m := by
    constructor
    · rintro ⟨n, hParse⟩
      rcases hTree n hParse with ⟨m, hOther, _⟩
      exact ⟨m, hOther⟩
    · rintro ⟨m, hOther⟩
      cases hParse : R.parseLexemes xs with
      | ok n => exact ⟨n, rfl⟩
      | error e =>
          rcases error_of_alike hAlike hParse with
            ⟨e', hError, _⟩
          rw [hOther] at hError
          cases hError
  have hSame :
      Lexeme.values xs = Lexeme.values ys →
        ∀ n,
          R.parseLexemes xs = .ok n →
            R.parseLexemes ys = .ok n := by
    intro hValues n hParse
    rcases hTree n hParse with ⟨m, hOther, hOnly⟩
    have hOwn := values_of_parseLexemes hParse
    rw [(hOnly n).mp ⟨rfl, hOwn.trans hValues⟩]
    exact hOther
  refine ⟨?_, ?_, hBoth, ?_⟩
  · intro n hParse
    exact ⟨values_of_parseLexemes hParse, hTree n hParse⟩
  · intro e hParse
    exact error_of_alike hAlike hParse
  · intro hValues n
    constructor
    · exact hSame hValues n
    · intro hOther
      rcases hBoth.mpr ⟨n, hOther⟩ with ⟨m, hParse⟩
      have hAgain := hSame hValues m hParse
      rw [hOther] at hAgain
      cases hAgain
      exact hParse

/-
  A quoted separator takes the place of a bare argument, and
  is the argument of the tree.
-/
theorem parseLexemes_substitutes_sample :
    List.Forall₂ Lexeme.Alike
        [⟨.bare "a", 0, 1⟩, ⟨.operator "==", 1, 3⟩,
          ⟨.bare "xyz", 3, 6⟩]
        [⟨.bare "b", 0, 1⟩, ⟨.operator "==", 1, 3⟩,
          ⟨.quoted ";", 3, 6⟩] ∧
      basic.parseLexemes
          [⟨.bare "b", 0, 1⟩, ⟨.operator "==", 1, 3⟩,
            ⟨.quoted ";", 3, 6⟩] =
        .ok
          (.comparison
            ⟨Builtin.equal.operator, "b", [";"]⟩) := by
  have hAlike :
      List.Forall₂ Lexeme.Alike
        [⟨.bare "a", 0, 1⟩, ⟨.operator "==", 1, 3⟩,
          ⟨.bare "xyz", 3, 6⟩]
        [⟨.bare "b", 0, 1⟩, ⟨.operator "==", 1, 3⟩,
          ⟨.quoted ";", 3, 6⟩] :=
    .cons ⟨.values rfl rfl (by decide), rfl, rfl⟩
      (.cons ⟨.same _, rfl, rfl⟩
        (.cons ⟨.values rfl rfl (by decide), rfl, rfl⟩ .nil))
  have hBare :
      basic.parseLexemes
          [⟨.bare "a", 0, 1⟩, ⟨.operator "==", 1, 3⟩,
            ⟨.bare "xyz", 3, 6⟩] =
        .ok
          (.comparison
            ⟨Builtin.equal.operator, "a", ["xyz"]⟩) := by
    rw [parseLexemes_eq_run]
    rfl
  refine ⟨hAlike, ?_⟩
  rcases (basic.parseLexemes_substitutes hAlike).1 _ hBare with
    ⟨_, m, hParse, hOnly⟩
  have hTree :=
    (hOnly
      (.comparison ⟨Builtin.equal.operator, "b", [";"]⟩)).mp
      ⟨rfl, rfl⟩
  rw [hParse, hTree]

end Registry

end FilterQuery
