import FilterQuery.Proofs.Config.Restoring
import Mathlib

/-
  This file proves which documents are read as operators and
  registries, and what is wrong with any other document.

  Key definitions include:
    * `FilterQuery.Settles`
    * `FilterQuery.Leftmost`
    * `FilterQuery.Operator.Defines`
    * `FilterQuery.Operator.Mistyped`
    * `FilterQuery.Operator.Misspelled`
    * `FilterQuery.Operator.WellDefined`
    * `FilterQuery.Operator.Rejects`
    * `FilterQuery.Registry.Rejects`

  Key theorems include:
    * `FilterQuery.Settles.bind`
    * `FilterQuery.Settles.mapM`
    * `FilterQuery.Operator.partsOfDocument_settles`
    * `FilterQuery.Operator.ofDocument_settles`
    * `FilterQuery.Registry.ofDocument_settles`
    * `FilterQuery.Registry.ofDocument_validates`

  Reading goes through three layers: the parts of an operator,
  the operator, and the registry.  What a layer accepts and
  what it reports is put together from the layer below.
-/

------------------------------------------------------------
-- Results And Errors
------------------------------------------------------------

namespace FilterQuery

variable {ε ε' α β : Type}

/-
  The results of a computation are the good values, and its
  errors the bad ones.
-/
structure Settles
    (x : Except ε α)
    (Good : α → Prop)
    (Bad : ε → Prop) : Prop where
  ok_iff : ∀ a, x = .ok a ↔ Good a
  error_iff : ∀ e, x = .error e ↔ Bad e

/- The first member that is not good is bad in the way. -/
def Leftmost
    (Good : α → Prop)
    (Bad : α → ε → Prop)
    (as : List α)
    (e : ε) : Prop :=
  ∃ before a after,
    as = before ++ a :: after ∧
      (∀ b ∈ before, Good b) ∧ Bad a e

/- Among no members none is bad. -/
theorem not_leftmost_nil
    {Good : α → Prop}
    {Bad : α → ε → Prop}
    {e : ε} :
    ¬ Leftmost Good Bad [] e := by
  rintro ⟨before, a, after, hSplit, _⟩
  cases before <;> cases hSplit

/- The first member is bad, or good and a later one is bad. -/
theorem leftmost_cons_iff
    {Good : α → Prop}
    {Bad : α → ε → Prop}
    {a : α}
    {as : List α}
    {e : ε} :
    Leftmost Good Bad (a :: as) e ↔
      Bad a e ∨ Good a ∧ Leftmost Good Bad as e := by
  constructor
  · rintro ⟨before, b, after, hSplit, hBefore, hBad⟩
    cases before with
    | nil =>
        cases hSplit
        exact Or.inl hBad
    | cons c before =>
        cases hSplit
        rcases List.forall_mem_cons.mp hBefore with
          ⟨hGood, hMore⟩
        exact Or.inr
          ⟨hGood, before, b, after, rfl, hMore, hBad⟩
  · rintro (hBad |
      ⟨hGood, before, b, after, rfl, hBefore, hBad⟩)
    · exact ⟨[], a, as, rfl, List.forall_mem_nil _, hBad⟩
    · exact ⟨a :: before, b, after, rfl,
        List.forall_mem_cons.mpr ⟨hGood, hBefore⟩, hBad⟩

/- Members have counterparts if the list has a counterpart. -/
theorem exists_forall₂_iff
    {Good : α → β → Prop}
    {as : List α} :
    (∃ bs, List.Forall₂ Good as bs) ↔
      ∀ a ∈ as, ∃ b, Good a b := by
  induction as with
  | nil =>
      exact ⟨fun _ => List.forall_mem_nil _,
        fun _ => ⟨[], .nil⟩⟩
  | cons a as ih =>
      rw [List.forall_mem_cons, ← ih]
      constructor
      · rintro ⟨_, _ | ⟨hFirst, hMore⟩⟩
        exact ⟨⟨_, hFirst⟩, _, hMore⟩
      · rintro ⟨⟨b, hFirst⟩, bs, hMore⟩
        exact ⟨b :: bs, .cons hFirst hMore⟩

namespace Settles

variable {x : Except ε α}
variable {Good Good' : α → Prop}
variable {Bad Bad' : ε → Prop}

/- Good and bad values may be told in another way. -/
theorem congr
    (hSettles : Settles x Good Bad)
    (hGood : ∀ a, Good a ↔ Good' a)
    (hBad : ∀ e, Bad e ↔ Bad' e) :
    Settles x Good' Bad' where
  ok_iff a := (hSettles.ok_iff a).trans (hGood a)
  error_iff e := (hSettles.error_iff e).trans (hBad e)

/- A value is its own result. -/
theorem ok
    (a : α) :
    Settles (.ok a : Except ε α) (· = a) (fun _ => False) where
  ok_iff _ := by rw [Except.ok.injEq, eq_comm]
  error_iff _ := ⟨nofun, nofun⟩

/- An error is its own error. -/
theorem error
    (e : ε) :
    Settles (.error e : Except ε α) (fun _ => False)
      (· = e) where
  ok_iff _ := ⟨nofun, nofun⟩
  error_iff _ := by rw [Except.error.injEq, eq_comm]

/- An error of two steps is one of the first or the second. -/
theorem bind
    {f : α → Except ε β}
    {GoodAt : α → β → Prop}
    {BadAt : α → ε → Prop}
    (hFirst : Settles x Good Bad)
    (hSecond : ∀ a, Settles (f a) (GoodAt a) (BadAt a)) :
    Settles (x >>= f)
      (fun b => ∃ a, Good a ∧ GoodAt a b)
      (fun e => Bad e ∨ ∃ a, Good a ∧ BadAt a e) := by
  cases x with
  | error e =>
      -- There is no good value for a second step.
      have hNone : ∀ a, ¬ Good a :=
        fun a h => nomatch (hFirst.ok_iff a).mpr h
      have hOnly := hFirst.error_iff
      refine (error e).congr ?_ ?_
      · intro b
        exact ⟨nofun, fun ⟨a, h, _⟩ => hNone a h⟩
      · intro e'
        rw [← hOnly, Except.error.injEq]
        constructor
        · exact fun h => Or.inl h.symm
        · rintro (h | ⟨a, h, _⟩)
          · exact h.symm
          · exact absurd h (hNone a)
  | ok a =>
      have hNone : ∀ e, ¬ Bad e :=
        fun e h => nomatch (hFirst.error_iff e).mpr h
      have hOnly : ∀ b, Good b ↔ a = b := by
        intro b
        rw [← hFirst.ok_iff, Except.ok.injEq]
      refine (hSecond a).congr ?_ ?_
      · intro b
        simp only [hOnly, exists_eq_left']
      · intro e
        simp only [hOnly, exists_eq_left', hNone, false_or]

/- Errors may be wrapped. -/
theorem mapError
    (hSettles : Settles x Good Bad)
    (f : ε → ε') :
    Settles (x.mapError f) Good
      (fun e' => ∃ e, Bad e ∧ e' = f e) := by
  cases x with
  | error e =>
      refine (error (f e)).congr ?_ ?_
      · intro a
        rw [← hSettles.ok_iff]
        exact ⟨nofun, nofun⟩
      · intro e'
        simp only [← hSettles.error_iff, Except.error.injEq,
          exists_eq_left']
  | ok a =>
      refine (ok a).congr ?_ ?_
      · intro b
        rw [← hSettles.ok_iff, Except.ok.injEq, eq_comm]
      · intro e'
        simp only [← hSettles.error_iff]
        exact ⟨nofun, fun ⟨_, h, _⟩ => nomatch h⟩

/-
  A list is good if its members are, and otherwise the first
  member that is not good is reported.
-/
theorem mapM
    {read : α → Except ε β}
    {GoodAs : α → β → Prop}
    {BadAs : α → ε → Prop}
    (hEach : ∀ a, Settles (read a) (GoodAs a) (BadAs a))
    (as : List α) :
    Settles (as.mapM read) (List.Forall₂ GoodAs as)
      (Leftmost (fun a => ∃ b, GoodAs a b) BadAs as) := by
  induction as with
  | nil =>
      refine (ok []).congr ?_ ?_
      · intro bs
        rw [List.forall₂_nil_left_iff]
      · intro e
        exact ⟨nofun, fun h => not_leftmost_nil h⟩
  | cons a as ih =>
      -- Putting a value in front is never an error, so errors
      -- are those of the first member or of the rest.
      rw [List.mapM_cons]
      have hRest b := ih.bind fun bs => ok (b :: bs)
      refine ((hEach a).bind hRest).congr ?_ ?_
      · intro cs
        rw [List.forall₂_cons_left_iff]
        constructor
        · rintro ⟨b, hFirst, bs, hMore, rfl⟩
          exact ⟨b, bs, hFirst, hMore, rfl⟩
        · rintro ⟨b, bs, hFirst, hMore, rfl⟩
          exact ⟨b, hFirst, bs, hMore, rfl⟩
      · intro e
        rw [leftmost_cons_iff]
        constructor
        · rintro (hBad | ⟨b, hFirst, hMore | ⟨_, _, h⟩⟩)
          · exact Or.inl hBad
          · exact Or.inr ⟨⟨b, hFirst⟩, hMore⟩
          · exact h.elim
        · rintro (hBad | ⟨⟨b, hFirst⟩, hMore⟩)
          · exact Or.inl hBad
          · exact Or.inr ⟨b, hFirst, Or.inl hMore⟩

end Settles

end FilterQuery

------------------------------------------------------------
-- Scalars And Texts
------------------------------------------------------------

namespace FilterQuery

namespace Document

variable {α β : Type} {d : Document} {wanted : Wanted}

/- The document has none of the forms that were wanted. -/
def Unlike
    (form : α → Document)
    (wanted : Wanted)
    (d : Document)
    (e : DocumentError) : Prop :=
  (∀ a, d ≠ form a) ∧ e = .invalidType d wanted

/- A document of another form is an error. -/
theorem settles_unlike
    {Good : β → Prop}
    (form : α → Document)
    (hUnlike : ∀ a, d ≠ form a)
    (hNone : ∀ b, ¬ Good b) :
    Settles
      (.error (.invalidType d wanted) : Except _ β)
      Good
      (d.Unlike form wanted) := by
  refine (Settles.error _).congr ?_ ?_
  · intro b
    exact (iff_false_intro (hNone b)).symm
  · intro e
    exact ⟨fun h => ⟨hUnlike, h⟩, fun h => h.2⟩

/- A document of the form has one content. -/
theorem settles_like
    {form : α → Document}
    (hInjective : Function.Injective form)
    (a : α) :
    Settles (.ok a : Except DocumentError α)
      (fun b => form a = form b)
      ((form a).Unlike form wanted) := by
  refine (Settles.ok a).congr ?_ ?_
  · intro b
    rw [hInjective.eq_iff, eq_comm]
  · intro e
    exact ⟨False.elim, fun h => h.1 a rfl⟩

/- A document of another form is no fault of configuration. -/
theorem Unlike.ne_config
    {form : α → Document}
    {e : DocumentError}
    (hUnlike : d.Unlike form wanted e)
    (cause : ConfigError) :
    e ≠ .config cause := by
  rw [hUnlike.2]
  nofun

/- Only strings have a text. -/
theorem toText_settles
    (d : Document) :
    Settles d.toText (fun text => d = .string text)
      (d.Unlike .string .string) := by
  cases d with
  | string text => exact settles_like (fun _ _ => string.inj) text
  | _ => exact settles_unlike string nofun nofun

/- Only booleans have a truth value. -/
theorem toTruth_settles
    (d : Document) :
    Settles d.toTruth (fun value => d = .bool value)
      (d.Unlike .bool .boolean) := by
  cases d with
  | bool value => exact settles_like (fun _ _ => bool.inj) value
  | _ => exact settles_unlike bool nofun nofun

/- The document is no list, or one with something else in it. -/
inductive NotTexts : Document → DocumentError → Prop
  | kind {d : Document} {e : DocumentError}
      (hUnlike : d.Unlike .list .sequence e) :
      NotTexts d e
  | item {items : List Document} {e : DocumentError}
      (hFirst :
        Leftmost (fun d => ∃ text, d = .string text)
          (Unlike .string .string) items e) :
      NotTexts (.list items) e

/- Something else than texts is no fault of configuration. -/
theorem NotTexts.ne_config
    {e : DocumentError}
    (hNotTexts : d.NotTexts e)
    (cause : ConfigError) :
    e ≠ .config cause := by
  rcases hNotTexts with
    hUnlike | ⟨_, _, _, _, _, hUnlike⟩
  · exact hUnlike.ne_config cause
  · exact hUnlike.ne_config cause

/- Only lists of strings have texts. -/
theorem toTexts_settles
    (d : Document) :
    Settles d.toTexts (fun texts => d = .ofTexts texts)
      d.NotTexts := by
  cases d with
  | list items =>
      refine (Settles.mapM toText_settles items).congr ?_ ?_
      · intro texts
        rw [ofTexts, list.injEq, ← List.forall₂_eq_eq_eq,
          List.forall₂_map_right_iff]
      · intro e
        constructor
        · exact .item
        · rintro (hUnlike | hFirst)
          · exact absurd rfl (hUnlike.1 items)
          · exact hFirst
  | _ =>
      refine (settles_unlike list ?_ ?_).congr
        (fun _ => Iff.rfl) ?_
      · nofun
      · intro texts
        unfold ofTexts
        nofun
      · intro e
        exact ⟨.kind, fun | .kind hUnlike => hUnlike⟩

end Document

end FilterQuery

------------------------------------------------------------
-- Definitions Of Operators
------------------------------------------------------------

namespace FilterQuery

namespace Operator

/- A field that is left out states that the arity is single. -/
def StatesArity : Option Document → Bool → Prop
| some d, multiValue => d = .bool multiValue
| none, multiValue => multiValue = false

/-
  The document is an operator's definition, an object or a
  list, with these spellings and this arity.
-/
inductive Defines : Document → List String → Bool → Prop
  | fields {fields : List (String × Document)}
      {symbols : List String} {multiValue : Bool}
      (hSymbols :
        fields.lookup "symbols" = some (.ofTexts symbols))
      (hArity :
        StatesArity (fields.lookup "multi_value") multiValue) :
      Defines (.object fields) symbols multiValue
  | symbols {symbols : List String} :
      Defines (.list [.ofTexts symbols]) symbols false
  | both {symbols : List String} {multiValue : Bool} :
      Defines (.list [.ofTexts symbols, .bool multiValue])
        symbols multiValue

/-
  The document is no definition of an operator.  The arity of
  an object comes before its spellings.
-/
inductive Mistyped : Document → DocumentError → Prop
  | kind {d : Document}
      (hFields : ∀ fields, d ≠ .object fields)
      (hItems : ∀ items, d ≠ .list items) :
      Mistyped d (.invalidType d .operator)
  | arity {fields : List (String × Document)}
      {d : Document} {e : DocumentError}
      (hField : fields.lookup "multi_value" = some d)
      (hUnlike : d.Unlike .bool .boolean e) :
      Mistyped (.object fields) e
  | noSymbols {fields : List (String × Document)}
      {multiValue : Bool}
      (hArity :
        StatesArity (fields.lookup "multi_value") multiValue)
      (hField : fields.lookup "symbols" = none) :
      Mistyped (.object fields) (.missingField "symbols")
  | symbols {fields : List (String × Document)}
      {multiValue : Bool} {d : Document} {e : DocumentError}
      (hArity :
        StatesArity (fields.lookup "multi_value") multiValue)
      (hField : fields.lookup "symbols" = some d)
      (hNotTexts : d.NotTexts e) :
      Mistyped (.object fields) e
  | noItems :
      Mistyped (.list []) .noElements
  | first {d : Document} {more : List Document}
      {e : DocumentError}
      (hNotTexts : d.NotTexts e) :
      Mistyped (.list (d :: more)) e
  | second {symbols : List String} {d : Document}
      {more : List Document} {e : DocumentError}
      (hUnlike : d.Unlike .bool .boolean e) :
      Mistyped (.list (.ofTexts symbols :: d :: more)) e
  | tooMany {symbols : List String} {multiValue : Bool}
      {more : List Document}
      (hMore : more ≠ []) :
      Mistyped
        (.list (.ofTexts symbols :: .bool multiValue :: more))
        (.tooManyElements (more.length + 2))

/- A wrong type is no fault of configuration. -/
theorem Mistyped.ne_config
    {d : Document}
    {e : DocumentError}
    (hMistyped : Mistyped d e)
    (cause : ConfigError) :
    e ≠ .config cause := by
  cases hMistyped with
  | kind | noSymbols | noItems | tooMany => nofun
  | arity _ hUnlike | second hUnlike =>
      exact hUnlike.ne_config cause
  | symbols _ _ hNotTexts | first hNotTexts =>
      exact hNotTexts.ne_config cause

/- The arity that a field states. -/
def readArity : Option Document → Except DocumentError Bool
| some d => d.toTruth
| none => .ok false

/- The parts that a field completes with spellings. -/
def readSymbols
    (field : Option Document)
    (multiValue : Bool) :
    Except DocumentError (List String × Bool) :=
  match field with
  | some d =>
      d.toTexts.bind fun symbols => .ok (symbols, multiValue)
  | none => .error (.missingField "symbols")

/- The parts of an object are read from its two fields. -/
theorem partsOfFields_eq
    (fields : List (String × Document)) :
    partsOfFields fields =
      (readArity (fields.lookup "multi_value")).bind
        (readSymbols (fields.lookup "symbols")) := by
  unfold partsOfFields
  cases fields.lookup "multi_value" <;> rfl

/- An arity is stated by nothing or by a truth value. -/
theorem readArity_settles
    (field : Option Document) :
    Settles (readArity field) (StatesArity field)
      (fun e =>
        ∃ d, field = some d ∧ d.Unlike .bool .boolean e) := by
  cases field with
  | none =>
      exact (Settles.ok false).congr (fun _ => Iff.rfl)
        fun _ => ⟨False.elim, nofun⟩
  | some d =>
      refine (Document.toTruth_settles d).congr
        (fun _ => Iff.rfl) ?_
      intro e
      simp only [Option.some.injEq, exists_eq_left']

/- Spellings are a list of texts that must be there. -/
theorem readSymbols_settles
    (field : Option Document)
    (multiValue : Bool) :
    Settles (readSymbols field multiValue)
      (fun p =>
        field = some (.ofTexts p.1) ∧ p.2 = multiValue)
      (fun e =>
        field = none ∧ e = .missingField "symbols" ∨
          ∃ d, field = some d ∧ d.NotTexts e) := by
  cases field with
  | none =>
      refine (Settles.error _).congr ?_ ?_
      · intro p
        exact ⟨False.elim, fun h => nomatch h.1⟩
      · intro e
        simp
  | some d =>
      refine ((Document.toTexts_settles d).bind fun symbols =>
        Settles.ok (symbols, multiValue)).congr ?_ ?_
      · rintro ⟨symbols, arity⟩
        simp
      · intro e
        simp

/- The parts of an object are those of its two fields. -/
theorem partsOfFields_settles
    (fields : List (String × Document)) :
    Settles (partsOfFields fields)
      (fun p => Defines (.object fields) p.1 p.2)
      (Mistyped (.object fields)) := by
  rw [partsOfFields_eq]
  refine ((readArity_settles _).bind
    (readSymbols_settles _)).congr ?_ ?_
  · rintro ⟨symbols, multiValue⟩
    constructor
    · rintro ⟨_, hArity, hSymbols, rfl⟩
      exact .fields hSymbols hArity
    · rintro ⟨hSymbols, hArity⟩
      exact ⟨multiValue, hArity, hSymbols, rfl⟩
  · intro e
    constructor
    · rintro (⟨d, hField, hUnlike⟩ |
        ⟨_, hArity,
          ⟨hField, rfl⟩ | ⟨d, hField, hNotTexts⟩⟩)
      · exact .arity hField hUnlike
      · exact .noSymbols hArity hField
      · exact .symbols hArity hField hNotTexts
    · intro hMistyped
      cases hMistyped with
      | kind hFields => exact absurd rfl (hFields fields)
      | arity hField hUnlike =>
          exact Or.inl ⟨_, hField, hUnlike⟩
      | noSymbols hArity hField =>
          exact Or.inr ⟨_, hArity, Or.inl ⟨hField, rfl⟩⟩
      | symbols hArity hField hNotTexts =>
          exact Or.inr
            ⟨_, hArity, Or.inr ⟨_, hField, hNotTexts⟩⟩

/-
  The arity that may stand behind the spellings.  What stands
  behind the arity is too many.
-/
def readSecond : List Document → Except DocumentError Bool
| [] => .ok false
| [d] => d.toTruth
| d :: more =>
    d.toTruth.bind fun _ =>
      .error (.tooManyElements (more.length + 2))

/- The parts of a list are read one behind the other. -/
theorem partsOfItems_cons
    (first : Document)
    (more : List Document) :
    partsOfItems (first :: more) =
      first.toTexts.bind fun symbols =>
        (readSecond more).bind fun multiValue =>
          .ok (symbols, multiValue) := by
  match more with
  | [] =>
      rfl
  | [_] =>
      rfl
  | second :: _ :: _ =>
      dsimp only [partsOfItems, readSecond]
      cases second.toTruth <;> rfl

/- At most one truth value stands behind the spellings. -/
theorem readSecond_settles
    (items : List Document) :
    Settles (readSecond items)
      (fun multiValue =>
        items = [] ∧ multiValue = false ∨
          items = [.bool multiValue])
      (fun e =>
        ∃ d more,
          items = d :: more ∧
            (d.Unlike .bool .boolean e ∨
              ∃ multiValue,
                d = .bool multiValue ∧
                  more ≠ [] ∧
                    e = .tooManyElements (more.length + 2))) := by
  match items with
  | [] =>
      refine (Settles.ok false).congr ?_ ?_
      · intro multiValue
        simp
      · intro e
        simp
  | [d] =>
      refine (Document.toTruth_settles d).congr ?_ ?_
      · intro multiValue
        simp
      · intro e
        simp
  | d :: third :: more =>
      refine ((Document.toTruth_settles d).bind fun _ =>
        Settles.error _).congr ?_ ?_
      · intro multiValue
        simp
      · intro e
        simp

/- The parts of a list are its one or two members. -/
theorem partsOfItems_settles
    (items : List Document) :
    Settles (partsOfItems items)
      (fun p => Defines (.list items) p.1 p.2)
      (Mistyped (.list items)) := by
  cases items with
  | nil =>
      refine (Settles.error _).congr ?_ ?_
      · rintro ⟨symbols, multiValue⟩
        exact ⟨False.elim, nofun⟩
      · intro e
        constructor
        · rintro rfl
          exact .noItems
        · intro hMistyped
          cases hMistyped with
          | kind _ hItems => exact absurd rfl (hItems _)
          | noItems => rfl
  | cons first more =>
      have hRest (symbols : List String) :=
        (readSecond_settles more).bind fun multiValue =>
          Settles.ok (symbols, multiValue)
      rw [partsOfItems_cons]
      refine ((Document.toTexts_settles first).bind
        hRest).congr ?_ ?_
      · rintro ⟨symbols, multiValue⟩
        constructor
        · rintro ⟨_, rfl, _, ⟨rfl, rfl⟩ | rfl, ⟨⟩⟩
          · exact .symbols
          · exact .both
        · intro hDefines
          cases hDefines with
          | symbols =>
              exact ⟨_, rfl, _, Or.inl ⟨rfl, rfl⟩, rfl⟩
          | both => exact ⟨_, rfl, _, Or.inr rfl, rfl⟩
      · intro e
        constructor
        · rintro (hNotTexts |
            ⟨_, rfl,
              ⟨_, _, rfl, hUnlike | ⟨_, rfl, hMore, rfl⟩⟩ |
              ⟨_, _, hNone⟩⟩)
          · exact .first hNotTexts
          · exact .second hUnlike
          · exact .tooMany hMore
          · exact hNone.elim
        · intro hMistyped
          cases hMistyped with
          | kind _ hItems => exact absurd rfl (hItems _)
          | first hNotTexts => exact Or.inl hNotTexts
          | second hUnlike =>
              exact Or.inr
                ⟨_, rfl, Or.inl ⟨_, _, rfl, Or.inl hUnlike⟩⟩
          | tooMany hMore =>
              refine Or.inr ⟨_, rfl, Or.inl ⟨_, _, rfl, ?_⟩⟩
              exact Or.inr ⟨_, rfl, hMore, rfl⟩

/- The parts of an operator are those of its definition. -/
theorem partsOfDocument_settles
    (d : Document) :
    Settles (partsOfDocument d)
      (fun p => Defines d p.1 p.2)
      (Mistyped d) := by
  cases d with
  | object fields => exact partsOfFields_settles fields
  | list items => exact partsOfItems_settles items
  | _ =>
      refine (Settles.error _).congr ?_ ?_
      · intro p
        exact ⟨False.elim, nofun⟩
      · intro e
        constructor
        · rintro rfl
          exact .kind nofun nofun
        · intro hMistyped
          cases hMistyped
          rfl

end Operator

end FilterQuery

------------------------------------------------------------
-- Operators
------------------------------------------------------------

namespace FilterQuery

namespace Operator

/- The text is reported as no symbol. -/
def Misspelling
    (symbol : String)
    (e : ConfigError) : Prop :=
  Symbol.isValid symbol = false ∧ e = .invalidSymbol symbol

/- There are no spellings, or one of them is no symbol. -/
inductive Misspelled : List String → ConfigError → Prop
  | none :
      Misspelled [] .emptySymbols
  | some {symbols : List String} {e : ConfigError}
      (hFirst :
        Leftmost (fun symbol => Symbol.isValid symbol = true)
          Misspelling symbols e) :
      Misspelled symbols e

/- The spelling that is found is the first that is no symbol. -/
theorem leftmost_misspelling_iff
    {symbols : List String}
    {e : ConfigError} :
    Leftmost (fun symbol => Symbol.isValid symbol = true)
        Misspelling symbols e ↔
      ∃ bad,
        firstInvalid? symbols = some bad ∧
          e = .invalidSymbol bad := by
  unfold firstInvalid?
  constructor
  · rintro ⟨before, bad, after, rfl, hBefore, hBad, rfl⟩
    refine ⟨bad, ?_, rfl⟩
    apply List.find?_eq_some_iff_append.mpr
    refine ⟨by rw [hBad]; rfl, before, after, rfl, ?_⟩
    intro symbol hMem
    rw [hBefore symbol hMem]
    rfl
  · rintro ⟨bad, hFind, rfl⟩
    rcases List.find?_eq_some_iff_append.mp hFind with
      ⟨hBad, before, after, rfl, hBefore⟩
    refine ⟨before, bad, after, rfl, ?_, ?_, rfl⟩
    · intro symbol hMem
      simpa using hBefore symbol hMem
    · simpa using hBad

/- Only a first spelling that is no symbol is an error. -/
theorem ofSymbols_cons_eq_error_iff
    {symbol : String}
    {alternates : List String}
    {multiValue : Bool}
    {e : ConfigError} :
    ofSymbols (symbol :: alternates) multiValue = .error e ↔
      ∃ bad,
        firstInvalid? (symbol :: alternates) = some bad ∧
          e = .invalidSymbol bad := by
  unfold ofSymbols
  dsimp only
  split
  · rename_i bad hFirst
    simp only [hFirst, Except.error.injEq, Option.some.injEq,
      exists_eq_left']
    exact eq_comm
  · rename_i hNone
    refine ⟨nofun, ?_⟩
    rintro ⟨_, hSome, _⟩
    exact nomatch hNone.symm.trans hSome

/- Operators are made of valid spellings only. -/
theorem ofSymbols_settles
    (symbols : List String)
    (multiValue : Bool) :
    Settles (ofSymbols symbols multiValue)
      (fun op =>
        op.symbols = symbols ∧ op.multiValue = multiValue)
      (Misspelled symbols) where
  ok_iff op := by
    constructor
    · exact symbols_of_ofSymbols
    · rintro ⟨rfl, rfl⟩
      exact ofSymbols_symbols op
  error_iff e := by
    cases symbols with
    | nil =>
        constructor
        · rintro ⟨⟩
          exact .none
        · rintro (_ | hFirst)
          · rfl
          · exact absurd hFirst not_leftmost_nil
    | cons symbol alternates =>
        rw [ofSymbols_cons_eq_error_iff,
          ← leftmost_misspelling_iff]
        exact ⟨.some, fun | .some hFirst => hFirst⟩

/-
  The document defines no operator.  Spellings are looked at
  only if the types are right.
-/
inductive Rejects : Document → DocumentError → Prop
  | mistyped {d : Document} {e : DocumentError}
      (hMistyped : Mistyped d e) :
      Rejects d e
  | misspelled {d : Document} {symbols : List String}
      {multiValue : Bool} {e : ConfigError}
      (hDefines : Defines d symbols multiValue)
      (hMisspelled : Misspelled symbols e) :
      Rejects d (.config e)

/- Faults of configuration are faults of the spellings. -/
theorem rejects_config_iff
    {d : Document}
    {cause : ConfigError} :
    Rejects d (.config cause) ↔
      ∃ symbols multiValue,
        Defines d symbols multiValue ∧
          Misspelled symbols cause := by
  constructor
  · rintro (hMistyped | ⟨hDefines, hMisspelled⟩)
    · exact absurd rfl (hMistyped.ne_config cause)
    · exact ⟨_, _, hDefines, hMisspelled⟩
  · rintro ⟨_, _, hDefines, hMisspelled⟩
    exact .misspelled hDefines hMisspelled

/- An operator is read from its definitions only. -/
theorem ofDocument_settles
    (d : Document) :
    Settles (ofDocument d)
      (fun op => Defines d op.symbols op.multiValue)
      (Rejects d) := by
  have hChecks (p : List String × Bool) :=
    (ofSymbols_settles p.1 p.2).mapError DocumentError.config
  refine ((partsOfDocument_settles d).bind hChecks).congr ?_ ?_
  · intro op
    constructor
    · rintro ⟨⟨_, _⟩, hDefines, rfl, rfl⟩
      exact hDefines
    · intro hDefines
      exact ⟨(_, _), hDefines, rfl, rfl⟩
  · intro e
    constructor
    · rintro (hMistyped | ⟨p, hDefines, _, hMisspelled, rfl⟩)
      · exact .mistyped hMistyped
      · exact .misspelled hDefines hMisspelled
    · rintro (hMistyped | ⟨hDefines, hMisspelled⟩)
      · exact Or.inl hMistyped
      · exact Or.inr
          ⟨(_, _), hDefines, _, hMisspelled, rfl⟩

/-
  The document defines an operator with some spellings, all of
  them symbols.
-/
def WellDefined (d : Document) : Prop :=
  ∃ symbols multiValue,
    Defines d symbols multiValue ∧
      symbols ≠ [] ∧
        ∀ symbol ∈ symbols, Symbol.isValid symbol = true

/- Well-defined are the documents that define an operator. -/
theorem wellDefined_iff
    {d : Document} :
    WellDefined d ↔
      ∃ op : Operator, Defines d op.symbols op.multiValue := by
  constructor
  · rintro ⟨symbols, multiValue, hDefines, hSome, hValid⟩
    cases symbols with
    | nil => exact absurd rfl hSome
    | cons symbol alternates =>
        exact ⟨⟨symbol, alternates, multiValue, hValid⟩,
          hDefines⟩
  · rintro ⟨op, hDefines⟩
    exact ⟨_, _, hDefines, List.cons_ne_nil _ _, op.valid⟩

end Operator

end FilterQuery

------------------------------------------------------------
-- Registries
------------------------------------------------------------

namespace FilterQuery

namespace Registry

/-
  The document is no list of operators: its first member that
  is not well defined is reported.
-/
inductive Rejects : Document → DocumentError → Prop
  | kind {d : Document} {e : DocumentError}
      (hUnlike : d.Unlike .list .sequence e) :
      Rejects d e
  | element {items : List Document} {e : DocumentError}
      (hFirst :
        Leftmost Operator.WellDefined Operator.Rejects items e) :
      Rejects (.list items) e
  | empty :
      Rejects (.list []) (.config .emptyOperators)

/- Only the empty list of operators makes no registry. -/
theorem ofList_settles
    (ops : List Operator) :
    Settles (ofList ops)
      (fun R => ofList ops = .ok R)
      (fun e => ops = [] ∧ e = .emptyOperators) where
  ok_iff _ := Iff.rfl
  error_iff _ := ofList_eq_error_iff

/- A registry is read from definitions in their order. -/
theorem ofDocument_settles
    (d : Document) :
    Settles (ofDocument d)
      (fun R =>
        ∃ items ops,
          d = .list items ∧
            List.Forall₂
              (fun item (op : Operator) =>
                Operator.Defines item op.symbols op.multiValue)
              items ops ∧
            ofList ops = .ok R)
      (Rejects d) := by
  cases d with
  | list items =>
      have hMakes (ops : List Operator) :=
        (ofList_settles ops).mapError DocumentError.config
      refine ((Settles.mapM Operator.ofDocument_settles
        items).bind hMakes).congr ?_ ?_
      · intro R
        constructor
        · rintro ⟨ops, hEach, hMade⟩
          exact ⟨items, ops, rfl, hEach, hMade⟩
        · rintro ⟨_, ops, ⟨⟩, hEach, hMade⟩
          exact ⟨ops, hEach, hMade⟩
      · intro e
        simp only [← Operator.wellDefined_iff]
        constructor
        · rintro (hFirst |
            ⟨_, hEach, _, ⟨rfl, rfl⟩, rfl⟩)
          · exact .element hFirst
          · cases hEach
            exact .empty
        · rintro (hUnlike | hFirst | _)
          · exact absurd rfl (hUnlike.1 items)
          · exact Or.inl hFirst
          · exact Or.inr
              ⟨[], .nil, _, ⟨rfl, rfl⟩, rfl⟩
  | _ =>
      refine (Document.settles_unlike .list ?_ ?_).congr
        (fun _ => Iff.rfl) ?_
      · nofun
      · nofun
      · intro e
        exact ⟨.kind, fun | .kind hUnlike => hUnlike⟩

/- Only the empty list is reported to have no operators. -/
theorem rejects_emptyOperators_iff
    {d : Document} :
    Rejects d (.config .emptyOperators) ↔ d = .list [] := by
  constructor
  · intro hRejects
    cases hRejects with
    | kind hUnlike =>
        exact absurd rfl (hUnlike.ne_config _)
    | element hFirst =>
        -- The spellings of a member are never blamed on the
        -- number of operators.
        rcases hFirst with ⟨_, _, _, _, _, hRejects⟩
        rcases Operator.rejects_config_iff.mp hRejects with
          ⟨_, _, _, hMisspelled⟩
        cases hMisspelled with
        | some hFirst =>
            rcases hFirst with ⟨_, _, _, _, _, _, hCause⟩
            exact nomatch hCause
    | empty => rfl
  · rintro rfl
    exact .empty

/- Lists of well-defined operators are read as registries. -/
theorem exists_ofDocument_iff
    {d : Document} :
    (∃ R, ofDocument d = .ok R) ↔
      ∃ items,
        d = .list items ∧
          items ≠ [] ∧
            ∀ item ∈ items, Operator.WellDefined item := by
  simp only [(ofDocument_settles d).ok_iff,
    Operator.wellDefined_iff, ← exists_forall₂_iff]
  constructor
  · rintro ⟨R, items, ops, rfl, hEach, hMade⟩
    refine ⟨items, rfl, ?_, ops, hEach⟩
    rintro rfl
    cases hEach
    exact (ofList_eq_ok_iff.mp hMade).1 rfl
  · rintro ⟨items, rfl, hSome, ops, hEach⟩
    cases hMade : ofList ops with
    | error e =>
        rcases ofList_eq_error_iff.mp hMade with ⟨rfl, _⟩
        exact absurd (List.forall₂_nil_right_iff.mp hEach) hSome
    | ok R =>
        exact ⟨R, items, ops, rfl, hEach, hMade⟩

/-
  A document is read as a registry exactly if it is a list of
  one or more well-defined operators.  The registry is the one
  made from those operators in order, so later duplicates are
  dropped and its map is right.  Any other document is
  reported: by its first member that is not well defined, for
  a wrong type before a wrong spelling, or for having no
  members, which is reported of the empty list only.
-/
theorem ofDocument_validates :
    (∀ d,
      (∃ R, ofDocument d = .ok R) ↔
        ∃ items,
          d = .list items ∧
            items ≠ [] ∧
              ∀ item ∈ items, Operator.WellDefined item) ∧
      (∀ d R,
        ofDocument d = .ok R ↔
          ∃ items ops,
            d = .list items ∧
              List.Forall₂
                (fun item (op : Operator) =>
                  Operator.Defines item op.symbols
                    op.multiValue)
                items ops ∧
              ofList ops = .ok R ∧
              R.Represents ops) ∧
      (∀ d e, ofDocument d = .error e ↔ Rejects d e) ∧
      ∀ d,
        ofDocument d = .error (.config .emptyOperators) ↔
          d = .list [] := by
  refine ⟨?_, ?_, ?_, ?_⟩
  · intro d
    exact exists_ofDocument_iff
  · intro d R
    rw [(ofDocument_settles d).ok_iff]
    constructor
    · rintro ⟨items, ops, hList, hEach, hMade⟩
      exact ⟨items, ops, hList, hEach, hMade,
        represents_of_ofList hMade⟩
    · rintro ⟨items, ops, hList, hEach, hMade, _⟩
      exact ⟨items, ops, hList, hEach, hMade⟩
  · intro d e
    exact (ofDocument_settles d).error_iff e
  · intro d
    rw [(ofDocument_settles d).error_iff]
    exact rejects_emptyOperators_iff

/-
  The positional definition of `=in=` is not the first of its
  symbol, so the basic registry is read as if it were not
  there.  A wrong spelling is reported before the wrong type
  of a later member.
-/
theorem ofDocument_validates_sample :
    ofDocument
        (.list
          [.object [("symbols", .list [.string "=="])],
          .object
            [("symbols", .list [.string "=in="]),
              ("multi_value", .bool true)],
          .list [.list [.string "=in=", .string "<"]]]) =
        .ok basic ∧
      ofDocument
          (.list
            [.object [("symbols", .list [.string "=="])],
            .list [.list [.string "<", .string "~="]],
            .object [("symbols", .null)]]) =
        .error (.config (.invalidSymbol "~=")) := by
  rcases ofDocument_validates with ⟨_, hReads, hRejects, _⟩
  constructor
  · have hMade :
        ofList
            [Builtin.equal.operator, Builtin.inList.operator,
              ⟨"=in=", ["<"], false, by decide⟩] =
          .ok basic :=
      rfl
    apply (hReads _ basic).mpr
    refine ⟨_, _, rfl, ?_, hMade, represents_of_ofList hMade⟩
    have hAgain := @Operator.Defines.symbols ["=in=", "<"]
    exact .cons (.fields rfl rfl)
      (.cons (.fields rfl rfl) (.cons hAgain .nil))
  · apply (hRejects _ _).mpr
    refine .element ⟨[_], _, [_], rfl, ?_, ?_⟩
    · intro item hItem
      rw [List.mem_singleton.mp hItem]
      exact ⟨["=="], false, .fields rfl rfl,
        List.cons_ne_nil _ _, by decide⟩
    · have hDefines := @Operator.Defines.symbols ["<", "~="]
      refine .misspelled hDefines (.some ?_)
      exact ⟨["<"], "~=", [], rfl, by decide, by decide, rfl⟩

end Registry

end FilterQuery
