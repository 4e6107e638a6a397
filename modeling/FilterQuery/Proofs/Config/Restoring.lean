import FilterQuery.Config.Read
import FilterQuery.Config.Write
import FilterQuery.Proofs.Operator.Registration
import FilterQuery.Query.Parse
import Mathlib.Data.List.Forall2

/-
  This file proves that operators and registries are read back
  from their documents as they were.

  Key definitions include:
    * `FilterQuery.Operator.Describes`
    * `FilterQuery.Registry.Describes`
    * `FilterQuery.Registry.normalize`

  Key theorems include:
    * `FilterQuery.Operator.ofDocument_of_describes`
    * `FilterQuery.Registry.ofDocument_of_describes`
    * `FilterQuery.Registry.document_restores`

  Reading checks the spellings again and sorts out duplicates
  again.  Neither changes anything: the spellings of operators
  are valid and the symbols of a registry are distinct.
-/

------------------------------------------------------------
-- Lists
------------------------------------------------------------

namespace FilterQuery

/- A list is read if each of its members is. -/
theorem mapM_eq_ok_of_forall₂
    {ε α β : Type}
    {read : α → Except ε β}
    {as : List α}
    {bs : List β}
    (hEach : List.Forall₂ (fun a b => read a = .ok b) as bs) :
    as.mapM read = .ok bs := by
  induction hEach with
  | nil =>
      rfl
  | cons hFirst _ ih =>
      rw [List.mapM_cons, hFirst, ih]
      rfl

/- A list of texts is read back. -/
theorem Document.toTexts_ofTexts
    (texts : List String) :
    (ofTexts texts).toTexts = .ok texts := by
  apply mapM_eq_ok_of_forall₂
  rw [List.forall₂_map_left_iff]
  exact List.forall₂_same.mpr fun _ _ => rfl

end FilterQuery

------------------------------------------------------------
-- Operators
------------------------------------------------------------

namespace FilterQuery

namespace Operator

/-
  The document is an object with the spellings and the arity
  of the operator.  The order of the fields and any further
  fields carry no meaning.
-/
def Describes
    (op : Operator)
    (d : Document) : Prop :=
  ∃ fields,
    d = .object fields ∧
      fields.lookup "symbols" = some (.ofTexts op.symbols) ∧
      fields.lookup "multi_value" =
        some (.bool op.multiValue)

/- The document that is written describes the operator. -/
theorem describes_document
    (op : Operator) :
    op.Describes op.document :=
  ⟨_, rfl, rfl, rfl⟩

/- The fields of a description hold spellings and arity. -/
theorem partsOfFields_of_lookup
    {op : Operator}
    {fields : List (String × Document)}
    (hSymbols :
      fields.lookup "symbols" = some (.ofTexts op.symbols))
    (hArity :
      fields.lookup "multi_value" =
        some (.bool op.multiValue)) :
    partsOfFields fields = .ok (op.symbols, op.multiValue) := by
  unfold partsOfFields
  rw [hSymbols, hArity]
  change
    (Document.ofTexts op.symbols).toTexts.bind
        (fun texts => .ok (texts, op.multiValue)) =
      _
  rw [Document.toTexts_ofTexts]
  rfl

/- An operator is read from its description. -/
theorem ofDocument_of_describes
    {op : Operator}
    {d : Document}
    (hDescribes : op.Describes d) :
    ofDocument d = .ok op := by
  rcases hDescribes with ⟨fields, rfl, hSymbols, hArity⟩
  unfold ofDocument partsOfDocument
  simp only [partsOfFields_of_lookup hSymbols hArity]
  change (ofSymbols op.symbols op.multiValue).mapError _ = _
  rw [ofSymbols_symbols]
  rfl

end Operator

end FilterQuery

------------------------------------------------------------
-- Registries
------------------------------------------------------------

namespace FilterQuery

namespace Registry

/- The document describes the operators in order. -/
def Describes
    (R : Registry)
    (d : Document) : Prop :=
  ∃ items,
    d = .list items ∧
      List.Forall₂ (fun item op => op.Describes item) items
        R.operators

/- The document that is written describes the registry. -/
theorem describes_document
    (R : Registry) :
    R.Describes R.document := by
  refine ⟨_, rfl, ?_⟩
  rw [List.forall₂_map_left_iff]
  exact List.forall₂_same.mpr fun op _ =>
    op.describes_document

/- A registry is read from its description. -/
theorem ofDocument_of_describes
    {R : Registry}
    {d : Document}
    (hDescribes : R.Describes d) :
    ofDocument d = .ok R := by
  rcases hDescribes with ⟨items, rfl, hEach⟩
  have hItems :
      items.mapM Operator.ofDocument = .ok R.operators :=
    mapM_eq_ok_of_forall₂
      (hEach.imp fun _ _ => Operator.ofDocument_of_describes)
  unfold ofDocument
  simp only [hItems]
  change (ofList R.operators).mapError _ = _
  rw [ofList_operators]
  rfl

/- Read a document, and write what has been read. -/
def normalize
    (d : Document) :
    Except DocumentError Document :=
  (ofDocument d).map document

/- A document that has been normalized stays as it is. -/
theorem normalize_of_normalize
    {d e : Document}
    (hNormal : normalize d = .ok e) :
    normalize e = .ok e := by
  unfold normalize at hNormal
  cases hRead : ofDocument d with
  | error _ =>
      rw [hRead] at hNormal
      cases hNormal
  | ok R =>
      rw [hRead] at hNormal
      cases hNormal
      unfold normalize
      rw [ofDocument_of_describes R.describes_document]
      rfl

/-
  The document of a registry describes it and is read as a
  registry with the same operators, spellings and arities in
  the same order and the same map, which parses every query
  alike; and so is any other document that describes the
  registry.  What is written after reading is read and
  written again without any change.
-/
theorem document_restores :
    (∀ R : Registry,
      R.Describes R.document ∧
        ∃ S,
          ofDocument R.document = .ok S ∧
            S.operators = R.operators ∧
            S.places = R.places ∧
            ∀ query,
              S.parse query = R.parse query ∧
                (S.parse query).map Node.document =
                  (R.parse query).map Node.document) ∧
      (∀ (R : Registry) d,
        R.Describes d → ofDocument d = .ok R) ∧
      ∀ d e, normalize d = .ok e → normalize e = .ok e := by
  refine ⟨?_, ?_, ?_⟩
  · intro R
    have hWritten := R.describes_document
    exact ⟨hWritten, R, ofDocument_of_describes hWritten, rfl,
      rfl, fun _ => ⟨rfl, rfl⟩⟩
  · intro R d hDescribes
    exact ofDocument_of_describes hDescribes
  · intro d e hNormal
    exact normalize_of_normalize hNormal

/-
  The order of fields does not matter to the basic registry.
  A document with a positional operator, without arities and
  with a duplicate is normal after one round.
-/
theorem document_restores_sample :
    ofDocument
        (.list
          [.object
            [("multi_value", .bool false),
              ("symbols", .list [.string "=="])],
          .object
            [("multi_value", .bool true),
              ("symbols", .list [.string "=in="])]]) =
        .ok basic ∧
      ∃ e,
        normalize
            (.list
              [.list [.list [.string "=gt=", .string ">"]],
              .object [("symbols", .list [.string "=gt="])]]) =
          .ok e ∧
          e =
            .list
              [.object
                [("symbols",
                  .list [.string "=gt=", .string ">"]),
                  ("multi_value", .bool false)]] ∧
          normalize e = .ok e := by
  rcases document_restores with ⟨_, hDescribed, hNormal⟩
  have hBasic :
      basic.Describes
        (.list
          [.object
            [("multi_value", .bool false),
              ("symbols", .list [.string "=="])],
          .object
            [("multi_value", .bool true),
              ("symbols", .list [.string "=in="])]]) :=
    ⟨_, rfl, .cons ⟨_, rfl, rfl, rfl⟩
      (.cons ⟨_, rfl, rfl, rfl⟩ .nil)⟩
  have hRound :
      normalize
          (.list
            [.list [.list [.string "=gt=", .string ">"]],
            .object [("symbols", .list [.string "=gt="])]]) =
        .ok
          (.list
            [.object
              [("symbols",
                .list [.string "=gt=", .string ">"]),
                ("multi_value", .bool false)]]) :=
    rfl
  exact ⟨hDescribed basic _ hBasic, _, hRound, rfl,
    hNormal _ _ hRound⟩

end Registry

end FilterQuery
