import FilterQuery.Proofs.Token.Joining
import Mathlib

/-
  This file proves that every value can be written between
  quotes of either kind, in front of any text.

  Key theorems include:
    * `FilterQuery.Lexing.literal_decodes`

  There are many ways to write a value, since the quote that
  is not the closing one may stand with or without a
  backslash.  They are exactly the bodies with that value.
-/

------------------------------------------------------------
-- Literals
------------------------------------------------------------

namespace FilterQuery

namespace Lexing

/-
  However a value is written between two equal quotes, and
  whatever follows, the literal is cut off as one lexeme with
  the value, and the text behind it as if it stood alone.
-/
theorem literal_decodes
    {q : Quote}
    {value : String}
    {body : List Char}
    (hEncodes : Quoted.Encodes q.char value.toList body)
    (rest : String) :
    let literal := String.ofList (q.char :: (body ++ [q.char]))
    let behind := (ofString rest).shift literal.utf8ByteSize
    ofString (literal ++ rest) =
      ⟨⟨.quoted value, 0, literal.utf8ByteSize⟩ ::
          behind.lexemes,
        behind.failure⟩ := by
  intro literal behind
  have hSize :
      literal.utf8ByteSize =
        Text.byteLength (q.char :: (body ++ [q.char])) :=
    Text.utf8ByteSize_ofList _
  have hRest :
      Tiles Scanned.Scans 0 rest.toList (ofString rest) :=
    tiles_iff.mpr rfl
  have hBehind := hRest.shift literal.utf8ByteSize
  rw [Nat.add_comm, hSize] at hBehind
  have hSpelled := Token.Spelled.quoted hEncodes
  have hTiles := Tiles.spelled hSpelled trivial hBehind
  rw [String.ofList_toList, Nat.zero_add, ← hSize] at hTiles
  rw [← tiles_iff, String.toList_append, String.toList_ofList]
  exact hTiles

/-
  Between single quotes, a double quote is written with and
  without a backslash.  Behind the literal nothing is a token.
-/
theorem literal_decodes_sample :
    Quoted.Encodes Quote.single.char "\"é\"'\\".toList
        ['\\', '"', 'é', '"', '\\', '\'', '\\', '\\'] ∧
      ofString "'\\\"é\"\\'\\\\'=" =
        ⟨[⟨.quoted "\"é\"'\\", 0, 11⟩],
          some ⟨11, .unrecognizedInput⟩⟩ := by
  have hEncodes :
      Quoted.Encodes Quote.single.char "\"é\"'\\".toList
        ['\\', '"', 'é', '"', '\\', '\'', '\\', '\\'] := by
    refine .escape (Or.inl rfl) ?_
    refine .ordinary (by decide) (by decide) ?_
    refine .ordinary (by decide) (by decide) ?_
    refine .escape (Or.inr (Or.inl rfl)) ?_
    exact .escape (Or.inr (Or.inr rfl)) .nil
  have hRest :
      ofString "=" = ⟨[], some ⟨0, .unrecognizedInput⟩⟩ := by
    cbv
  have hLexing := literal_decodes hEncodes "="
  rw [hRest] at hLexing
  exact ⟨hEncodes, hLexing⟩

end Lexing

end FilterQuery
