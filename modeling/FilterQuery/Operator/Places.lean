import Std.Data.ExtTreeMap

/-
  This file defines maps from symbols to places, and when such
  a map is in step with a list of symbols.

  Key definitions include:
    * `FilterQuery.Places`
    * `FilterQuery.Places.Locates`

  A map in step with a list knows exactly the symbols of the
  list, each by its own place.  It stays in step when a new
  symbol is appended, and there is only one such map.
-/

------------------------------------------------------------
-- Places
------------------------------------------------------------

namespace FilterQuery

/- A place for each of some symbols. -/
abbrev Places := Std.ExtTreeMap String Nat

namespace Places

/-
  The map gives each of the symbols its place in the list, and
  no place to any other symbol.
-/
def Locates
    (places : Places)
    (symbols : List String) : Prop :=
  ∀ (symbol : String) (i : Nat),
    places[symbol]? = some i ↔ symbols[i]? = some symbol

/- The empty map locates no symbols. -/
theorem locates_nil : Locates ∅ [] := by
  intro symbol i
  rw [Std.ExtTreeMap.getElem?_empty, List.getElem?_nil]
  exact ⟨nofun, nofun⟩

variable {places : Places} {symbols : List String}

/- The symbols in the map are those that are located. -/
theorem Locates.contains_iff
    (hLocates : places.Locates symbols)
    (symbol : String) :
    places.contains symbol = true ↔ symbol ∈ symbols := by
  rw [Std.ExtTreeMap.contains_eq_isSome_getElem?,
    Option.isSome_iff_exists, List.mem_iff_getElem?]
  exact exists_congr fun i => hLocates symbol i

/- Every place in the map is a place of the list. -/
theorem Locates.lt_length
    {symbol : String}
    {i : Nat}
    (hLocates : places.Locates symbols)
    (hPlace : places[symbol]? = some i) :
    i < symbols.length := by
  have hSymbol := (hLocates symbol i).mp hPlace
  exact (List.getElem?_eq_some_iff.mp hSymbol).1

/- Symbols that can be located are distinct. -/
theorem Locates.nodup
    (hLocates : places.Locates symbols) :
    symbols.Nodup := by
  apply List.pairwise_iff_getElem.mpr
  intro i j hi hj hLt hSame
  have hFirst : places[symbols[i]]? = some i :=
    (hLocates _ i).mpr (List.getElem?_eq_getElem hi)
  have hSecond : places[symbols[i]]? = some j := by
    rw [hLocates, hSame]
    exact List.getElem?_eq_getElem hj
  rw [hFirst] at hSecond
  cases hSecond
  exact Nat.lt_irrefl _ hLt

/- Only one map locates the symbols. -/
theorem Locates.unique
    {others : Places}
    (hLocates : places.Locates symbols)
    (hOthers : others.Locates symbols) :
    places = others := by
  apply Std.ExtTreeMap.ext_getElem?
  intro symbol
  apply Option.ext
  intro i
  rw [hLocates, hOthers]

end Places

end FilterQuery

------------------------------------------------------------
-- Keeping In Step
------------------------------------------------------------

namespace FilterQuery

namespace Places

variable {places : Places} {symbols : List String}

/- Inserting a symbol adds no other symbol to the map. -/
theorem contains_insert_eq
    (symbol other : String)
    (i : Nat) :
    (places.insert symbol i).contains other =
      (symbol == other || places.contains other) := by
  rw [Std.ExtTreeMap.contains_insert, Bool.eq_iff_iff,
    Bool.or_eq_true, Bool.or_eq_true, beq_iff_eq, beq_iff_eq,
    Std.compare_eq_iff_eq]

/- A new symbol gets the place behind the located ones. -/
theorem Locates.snoc
    {symbol : String}
    (hLocates : places.Locates symbols)
    (hNew : places.contains symbol = false) :
    Locates (places.insert symbol symbols.length)
      (symbols ++ [symbol]) := by
  intro other i
  have hAbsent : symbol ∉ symbols := by
    rw [← hLocates.contains_iff, hNew]
    exact Bool.false_ne_true
  rw [Std.ExtTreeMap.getElem?_insert]
  by_cases hSame : symbol = other
  · subst hSame
    have hEarlier : symbols[i]? ≠ some symbol :=
      fun h => hAbsent (List.mem_of_getElem? h)
    rw [if_pos (Std.compare_eq_iff_eq.mpr rfl)]
    grind
  · rw [if_neg fun h => hSame (Std.compare_eq_iff_eq.mp h)]
    rw [hLocates]
    grind

/- Numbering distinct symbols locates them. -/
theorem locates_zipIdx
    (hDistinct : symbols.Nodup) :
    Locates (Std.ExtTreeMap.ofList symbols.zipIdx) symbols := by
  have hPairs :
      symbols.zipIdx.Pairwise fun a b =>
        ¬ compare a.1 b.1 = .eq := by
    have hFirst : (symbols.zipIdx.map Prod.fst).Nodup := by
      rw [List.zipIdx_map_fst]
      exact hDistinct
    refine (List.pairwise_map.mp hFirst).imp ?_
    intro a b hNe hEq
    exact hNe (Std.compare_eq_iff_eq.mp hEq)
  have hPlace :
      ∀ (symbol : String) (i : Nat),
        symbols[i]? = some symbol →
          (Std.ExtTreeMap.ofList symbols.zipIdx)[symbol]? =
            some i := by
    intro symbol i hSymbol
    exact Std.ExtTreeMap.getElem?_ofList_of_mem
      (Std.compare_eq_iff_eq.mpr rfl) hPairs
      (List.mem_zipIdx_iff_getElem?.mpr hSymbol)
  intro symbol i
  refine ⟨?_, hPlace symbol i⟩
  intro hGet
  have hContains :
      (Std.ExtTreeMap.ofList symbols.zipIdx).contains
        symbol = true := by
    rw [Std.ExtTreeMap.contains_eq_isSome_getElem?, hGet]
    rfl
  rw [Std.ExtTreeMap.contains_ofList, List.zipIdx_map_fst,
    List.contains_iff_mem] at hContains
  rcases List.mem_iff_getElem?.mp hContains with ⟨j, hSymbol⟩
  rw [hPlace symbol j hSymbol] at hGet
  cases hGet
  exact hSymbol

end Places

end FilterQuery
