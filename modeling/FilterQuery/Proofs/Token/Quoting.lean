import FilterQuery.Proofs.Operator.Symbols
import Mathlib

/-
  This file proves that values are quoted wherever a lexer
  would not read them back as they are, and says where they
  are quoted without need.

  Key definitions include:
    * `FilterQuery.Text.delimiters`
    * `FilterQuery.Text.ReadsBare`
    * `FilterQuery.Text.WrittenBare`
    * `FilterQuery.Text.WrittenQuoted`

  Key theorems include:
    * `FilterQuery.Text.readsBare_iff`
    * `FilterQuery.Text.isUnreserved_iff`
    * `FilterQuery.Text.written_as_read`

  Writing and reading use different classes of characters.
  A bare value is read up to one of fifteen delimiters; it is
  written only if it has no white space of any kind either.
-/

------------------------------------------------------------
-- Bare Values
------------------------------------------------------------

namespace FilterQuery

namespace Text

/- The characters at which reading a bare value ends. -/
def delimiters : List Char :=
  [' ', '\t', '\r', '\n', '\x0c', '(', ')', '<', '>', '=',
    ',', ';', '!', '"', '\'']

/- The text is read as one bare value from end to end. -/
def ReadsBare (text : String) : Prop :=
  Lexing.ofString text =
    ⟨[⟨.bare text, 0, text.utf8ByteSize⟩], none⟩

/- The value is written as it is. -/
def WrittenBare (value : String) : Prop :=
  valueChars value = value.toList

/- The value is written between double quotes. -/
def WrittenQuoted (value : String) : Prop :=
  valueChars value = Quoted.literal .double value.toList

end Text

end FilterQuery

------------------------------------------------------------
-- Reading
------------------------------------------------------------

namespace FilterQuery

/- A bare token is spelled by its own plain characters. -/
theorem Token.spelled_bare_iff
    {value : String}
    {text : List Char} :
    (bare value).Spelled text ↔
      text = value.toList ∧ text ≠ [] ∧
        ∀ c ∈ text, Text.isPlain c = true := by
  constructor
  · intro hSpelled
    cases hSpelled with
    | bare hSome hPlain =>
        rw [String.toList_ofList]
        exact ⟨rfl, hSome, hPlain⟩
  · rintro ⟨rfl, hSome, hPlain⟩
    have hSpelled := Spelled.bare hSome hPlain
    rwa [String.ofList_toList] at hSpelled

namespace Text

variable {text value : String}

/- Plain characters are those that are no delimiters. -/
theorem isPlain_iff
    {c : Char} :
    isPlain c = true ↔ c ∉ delimiters := by
  unfold isPlain isGap isReserved
  rw [Bool.and_eq_true, Bool.not_eq_true',
    Bool.not_eq_true', ← Bool.not_eq_true,
    ← Bool.not_eq_true, List.contains_iff_mem,
    List.contains_iff_mem, ← not_or, ← List.mem_append]
  have hSame : (gaps ++ reserved).Perm delimiters := by
    decide
  exact not_congr hSame.mem_iff

/- Bare values are the texts without delimiters. -/
theorem readsBare_iff :
    ReadsBare text ↔
      text.toList ≠ [] ∧
        ∀ c ∈ text.toList, c ∉ delimiters := by
  unfold ReadsBare
  rw [Lexing.ofString_eq_single_iff, Token.spelled_bare_iff,
    eq_self, true_and]
  simp only [isPlain_iff]

end Text

end FilterQuery

------------------------------------------------------------
-- Writing
------------------------------------------------------------

namespace FilterQuery

/- A written body is no shorter than its value. -/
theorem Quoted.length_le_encode
    (q : Char)
    (value : List Char) :
    value.length ≤ (encode q value).length := by
  induction value with
  | nil =>
      exact Nat.le_refl 0
  | cons c cs ih =>
      unfold encode
      split <;> simp only [List.length_cons] <;> omega

namespace Text

variable {text value : String}

/-
  A text is unreserved if it is read bare and has no white
  space.
-/
theorem isUnreserved_iff :
    isUnreserved text = true ↔
      ReadsBare text ∧
        ∀ c ∈ text.toList, isBlank c = false := by
  rw [readsBare_iff]
  simp only [← isPlain_iff]
  constructor
  · intro hUnreserved
    refine ⟨isPlain_of_isUnreserved hUnreserved, ?_⟩
    intro c hc
    unfold isUnreserved at hUnreserved
    rw [Bool.and_eq_true, List.all_eq_true] at hUnreserved
    have hBoth := hUnreserved.2 c hc
    rw [Bool.and_eq_true, Bool.not_eq_true'] at hBoth
    exact hBoth.1
  · rintro ⟨⟨hSome, hPlain⟩, hBlank⟩
    unfold isUnreserved
    rw [Bool.and_eq_true, List.all_eq_true]
    refine ⟨by simpa using hSome, ?_⟩
    intro c hc
    have hReserved := hPlain c hc
    unfold isPlain at hReserved
    rw [Bool.and_eq_true] at hReserved ⊢
    rw [hBlank c hc]
    exact ⟨rfl, hReserved.2⟩

/- A quoted value is longer than the value. -/
theorem literal_ne_self
    (q : Quote)
    (cs : List Char) :
    Quoted.literal q cs ≠ cs := by
  intro hSame
  have hEncode := Quoted.length_le_encode q.char cs
  have hLength := congrArg List.length hSame
  unfold Quoted.literal at hLength
  rw [List.length_cons, List.length_append] at hLength
  omega

/- Unreserved values are those that are written bare. -/
theorem writtenBare_iff :
    WrittenBare value ↔ isUnreserved value = true := by
  unfold WrittenBare valueChars
  split
  · rename_i hUnreserved
    exact ⟨fun _ => hUnreserved, fun _ => rfl⟩
  · rename_i hReserved
    exact ⟨fun h => absurd h (literal_ne_self _ _),
      fun h => absurd h hReserved⟩

/- All other values are quoted. -/
theorem writtenQuoted_iff :
    WrittenQuoted value ↔ isUnreserved value = false := by
  unfold WrittenQuoted valueChars
  split
  · rename_i hUnreserved
    rw [hUnreserved]
    exact ⟨fun h => absurd h.symm (literal_ne_self _ _),
      nofun⟩
  · rename_i hReserved
    exact ⟨fun _ => Bool.not_eq_true _ ▸ hReserved,
      fun _ => rfl⟩

end Text

end FilterQuery

------------------------------------------------------------
-- Writing As It Is Read
------------------------------------------------------------

namespace FilterQuery

namespace Text

variable {value : String}

/- A written value is read as its token. -/
theorem ofString_valueChars
    (value : String) :
    Lexing.ofString (String.ofList (valueChars value)) =
      ⟨[⟨valueToken value, 0, byteLength (valueChars value)⟩],
        none⟩ := by
  have hSpelled := spelled_valueToken value
  rw [← String.toList_ofList (l := valueChars value)]
    at hSpelled
  rw [Lexing.ofString_eq_single_iff.mpr hSpelled,
    utf8ByteSize_ofList]

/-
  A value that is read bare is quoted only for white space
  that is no gap.
-/
theorem writtenQuoted_iff_of_readsBare
    (hBare : ReadsBare value) :
    WrittenQuoted value ↔
      ∃ c ∈ value.toList,
        isBlank c = true ∧ isGap c = false := by
  rw [writtenQuoted_iff, ← Bool.not_eq_true,
    isUnreserved_iff, and_iff_right hBare]
  push Not
  refine exists_congr fun c => and_congr_right fun hc => ?_
  -- A gap is a delimiter, so there is none in the value.
  have hPlain :=
    isPlain_iff.mpr ((readsBare_iff.mp hBare).2 c hc)
  unfold isPlain at hPlain
  rw [Bool.and_eq_true, Bool.not_eq_true'] at hPlain
  rw [Bool.ne_false_iff, and_iff_left hPlain.1]

/-
  A text is unreserved exactly if it is read as one bare value
  and has no white space; and it is read so exactly if it is
  not empty and has no delimiter.  A value that is written
  bare is read bare, and any value that is not read bare is
  quoted; of those that are, only the ones with white space
  that is no gap are quoted.  Either way, what is written is
  read as one token with the value.
-/
theorem written_as_read :
    (∀ text,
        isUnreserved text = true ↔
          ReadsBare text ∧
            ∀ c ∈ text.toList, isBlank c = false) ∧
      (∀ text,
        ReadsBare text ↔
          text.toList ≠ [] ∧
            ∀ c ∈ text.toList, c ∉ delimiters) ∧
      (∀ value, WrittenBare value → ReadsBare value) ∧
      (∀ value, ¬ ReadsBare value → WrittenQuoted value) ∧
      (∀ value,
        ReadsBare value →
          (WrittenQuoted value ↔
            ∃ c ∈ value.toList,
              isBlank c = true ∧ isGap c = false)) ∧
      ∀ value,
        Lexing.ofString (String.ofList (valueChars value)) =
            ⟨[⟨valueToken value, 0,
                byteLength (valueChars value)⟩], none⟩ ∧
          (valueToken value).value? = some value := by
  refine ⟨?_, ?_, ?_, ?_, ?_, ?_⟩
  · intro text
    exact isUnreserved_iff
  · intro text
    exact readsBare_iff
  · intro value hWritten
    exact (isUnreserved_iff.mp (writtenBare_iff.mp hWritten)).1
  · intro value hOther
    rw [writtenQuoted_iff, ← Bool.not_eq_true,
      isUnreserved_iff]
    exact fun h => hOther h.1
  · intro value hBare
    exact writtenQuoted_iff_of_readsBare hBare
  · intro value
    exact ⟨ofString_valueChars value, value?_valueToken value⟩

/-
  A vertical tab does not end a bare value, but it is quoted.
  A form feed ends one.
-/
theorem written_as_read_sample :
    ReadsBare "é\x0b" ∧
      WrittenQuoted "é\x0b" ∧
      ¬ ReadsBare "é\x0c" ∧
      WrittenQuoted "é\x0c" ∧
      WrittenBare "é." ∧
      ReadsBare "é." := by
  rcases written_as_read with
    ⟨_, hReads, hBare, hQuoted, hGap, _⟩
  have hTabChars : "é\x0b".toList = ['é', '\x0b'] := by
    cbv
  have hFeedChars : "é\x0c".toList = ['é', '\x0c'] := by
    cbv
  have hTab : ReadsBare "é\x0b" := by
    rw [hReads, hTabChars]
    simp [delimiters]
  have hFeed : ¬ ReadsBare "é\x0c" := by
    rw [hReads, hFeedChars]
    simp [delimiters]
  have hTabQuoted :=
    (hGap "é\x0b" hTab).mpr ⟨'\x0b', by decide, by decide⟩
  have hWritten : WrittenBare "é." := by
    unfold WrittenBare
    decide
  exact ⟨hTab, hTabQuoted, hFeed, hQuoted _ hFeed, hWritten,
    hBare _ hWritten⟩

end Text

end FilterQuery
