import FilterQuery.Text.Classes

/-
  This file relates the characters of a text to its bytes.

  Key definitions include:
    * `FilterQuery.Text.Slice`
    * `FilterQuery.Text.Remains`

  Key theorems include:
    * `FilterQuery.Text.Slice.append`
    * `FilterQuery.Text.Remains.slice`

  Places in a text are byte offsets.  A slice says what stands
  between two places in terms of the UTF-8 encoding alone;
  what remains after a place is a list of characters.
-/

------------------------------------------------------------
-- Slices
------------------------------------------------------------

namespace FilterQuery

namespace Text

/- The characters of a text take up its bytes. -/
theorem byteLength_toList
    (text : String) :
    byteLength text.toList = text.utf8ByteSize := by
  rw [← utf8ByteSize_ofList, String.ofList_toList]

/-
  The bytes of a text from `start` up to `stop` encode the
  part, and both places are character boundaries of the text.
-/
structure Slice
    (text : String)
    (start stop : Nat)
    (part : String) : Prop where
  ordered : start ≤ stop
  boundary_start : (⟨start⟩ : String.Pos.Raw).IsValid text
  boundary_stop : (⟨stop⟩ : String.Pos.Raw).IsValid text
  bytes :
    text.toByteArray.extract start stop = part.toByteArray

namespace Slice

variable {text part more : String}
variable {start stop finish : Nat}

/- A slice lies inside the text. -/
theorem stop_le
    (hSlice : Slice text start stop part) :
    stop ≤ text.utf8ByteSize :=
  hSlice.boundary_stop.le_rawEndPos

/- Two neighbouring slices are one slice. -/
theorem append
    (hFirst : Slice text start stop part)
    (hSecond : Slice text stop finish more) :
    Slice text start finish (part ++ more) where
  ordered := Nat.le_trans hFirst.ordered hSecond.ordered
  boundary_start := hFirst.boundary_start
  boundary_stop := hSecond.boundary_stop
  bytes := by
    rw [ByteArray.extract_eq_extract_append_extract stop
        hFirst.ordered hSecond.ordered,
      hFirst.bytes, hSecond.bytes, String.toByteArray_append]

/- The bytes between two places are those of the middle. -/
theorem extract_middle
    (before middle after : String) :
    (before ++ (middle ++ after)).toByteArray.extract
        before.utf8ByteSize
        (before.utf8ByteSize + middle.utf8ByteSize) =
      middle.toByteArray := by
  have hCut :=
    ByteArray.extract_append_size_add
      (a := before.toByteArray)
      (b := (middle ++ after).toByteArray)
      (i := 0) (j := middle.utf8ByteSize)
  rw [Nat.add_zero, String.toByteArray_append] at hCut
  rw [String.toByteArray_append, String.toByteArray_append,
    ← String.size_toByteArray, hCut]
  exact ByteArray.extract_append_eq_left rfl

/- The slice of a whole text is the text. -/
theorem eq_of_whole
    (hSlice : Slice text 0 text.utf8ByteSize part) :
    part = text := by
  have hBytes := hSlice.bytes
  rw [← String.size_toByteArray, ByteArray.extract_zero_size]
    at hBytes
  exact String.toByteArray_inj.mp hBytes.symm

end Slice

end Text

end FilterQuery

------------------------------------------------------------
-- Remaining Characters
------------------------------------------------------------

namespace FilterQuery

namespace Text

/- The characters of a text from a byte offset on. -/
def Remains
    (text : String)
    (offset : Nat)
    (cs : List Char) : Prop :=
  ∃ before,
    text.toList = before ++ cs ∧ byteLength before = offset

namespace Remains

variable {text : String}
variable {offset : Nat}
variable {cs ds : List Char}

/- At the start of a text all of it remains. -/
theorem start
    (text : String) :
    Remains text 0 text.toList :=
  ⟨[], rfl, rfl⟩

/- What remains after some of the remaining characters. -/
theorem skip
    (hRemains : Remains text offset (cs ++ ds)) :
    Remains text (offset + byteLength cs) ds := by
  rcases hRemains with ⟨before, hText, rfl⟩
  refine ⟨before ++ cs, ?_, byteLength_append before cs⟩
  rw [hText, List.append_assoc]

/- A place where characters remain is a boundary. -/
theorem boundary
    (hRemains : Remains text offset cs) :
    (⟨offset⟩ : String.Pos.Raw).IsValid text := by
  rcases hRemains with ⟨before, hText, rfl⟩
  rw [String.Pos.Raw.isValid_iff_exists_append]
  refine ⟨String.ofList before, String.ofList cs, ?_, ?_⟩
  · rw [← String.ofList_append, ← hText, String.ofList_toList]
  · rw [String.Pos.Raw.ext_iff, String.byteIdx_rawEndPos,
      utf8ByteSize_ofList]

/- The remaining characters are a slice of the text. -/
theorem slice
    (hRemains : Remains text offset (cs ++ ds)) :
    Slice text offset (offset + byteLength cs)
      (String.ofList cs) where
  ordered := Nat.le_add_right _ _
  boundary_start := hRemains.boundary
  boundary_stop := hRemains.skip.boundary
  bytes := by
    rcases hRemains with ⟨before, hText, rfl⟩
    have hSplit :
        text =
          String.ofList before ++
            (String.ofList cs ++ String.ofList ds) := by
      rw [← String.ofList_append, ← String.ofList_append,
        ← hText, String.ofList_toList]
    rw [hSplit, ← utf8ByteSize_ofList before,
      ← utf8ByteSize_ofList cs]
    exact Slice.extract_middle _ _ _

/- Where nothing remains the text ends. -/
theorem eq_size
    (hRemains : Remains text offset []) :
    offset = text.utf8ByteSize := by
  rcases hRemains with ⟨before, hText, rfl⟩
  rw [List.append_nil] at hText
  rw [← hText, byteLength_toList]

/- Where a character remains the text has not ended. -/
theorem lt_size
    {c : Char}
    (hRemains : Remains text offset (c :: cs)) :
    offset < text.utf8ByteSize := by
  have hSlice :
      Slice text offset (offset + byteLength [c])
        (String.ofList [c]) :=
    hRemains.slice
  have hStop := hSlice.stop_le
  have hSize : 0 < c.utf8Size := c.utf8Size_pos
  simp only [byteLength] at hStop
  omega

end Remains

/- Between two parts of a text there is a place. -/
theorem exists_splits
    {text : String}
    {front back : List Char}
    (hText : text.toList = front ++ back) :
    ∃ place : text.Pos,
      place.Splits (String.ofList front)
        (String.ofList back) := by
  have hRemains : Remains text (byteLength front) back :=
    ⟨front, hText, rfl⟩
  refine
    ⟨⟨⟨byteLength front⟩, hRemains.boundary⟩, ?_, ?_⟩
  · rw [← String.ofList_append, ← hText, String.ofList_toList]
  · rw [String.Pos.Raw.ext_iff, String.byteIdx_rawEndPos,
      utf8ByteSize_ofList]

end Text

end FilterQuery
