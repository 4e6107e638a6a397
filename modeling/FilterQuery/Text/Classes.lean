/-
  This file defines the character classes of filter queries
  and the texts they single out.

  Key definitions include:
    * `FilterQuery.Text.isBlank`
    * `FilterQuery.Text.isGap`
    * `FilterQuery.Text.isReserved`
    * `FilterQuery.Text.isPlain`
    * `FilterQuery.Text.isBlankText`
    * `FilterQuery.Text.isUnreserved`
    * `FilterQuery.Text.byteLength`

  Two different notions of white space meet here.  Between
  tokens only the five gap characters are skipped; a selector
  is blank, and a value needs quotes, by the wider Unicode
  property White_Space.
-/

------------------------------------------------------------
-- Character Classes
------------------------------------------------------------

namespace FilterQuery

namespace Text

/-
  Code point ranges of the Unicode property White_Space, both
  ends included.
-/
def blankRanges : List (Nat × Nat) :=
  [(0x9, 0xD), (0x20, 0x20), (0x85, 0x85), (0xA0, 0xA0),
    (0x1680, 0x1680), (0x2000, 0x200A), (0x2028, 0x2029),
    (0x202F, 0x202F), (0x205F, 0x205F), (0x3000, 0x3000)]

/- Characters with the Unicode property White_Space. -/
def isBlank (c : Char) : Bool :=
  blankRanges.any fun (low, high) =>
    decide (low ≤ c.toNat) && decide (c.toNat ≤ high)

/- Characters skipped between tokens. -/
def gaps : List Char :=
  [' ', '\t', '\r', '\n', '\x0c']

/- Membership in the gap characters. -/
def isGap (c : Char) : Bool :=
  gaps.contains c

/- Characters that never occur in an unquoted value. -/
def reserved : List Char :=
  ['"', '\'', '(', ')', ';', ',', '=', '!', '<', '>']

/- Membership in the reserved characters. -/
def isReserved (c : Char) : Bool :=
  reserved.contains c

/- Characters that an unquoted value may be read from. -/
def isPlain (c : Char) : Bool :=
  !isGap c && !isReserved c

/- Every gap character is white space. -/
theorem isBlank_of_isGap
    {c : Char}
    (hGap : isGap c = true) :
    isBlank c = true := by
  have hMem : c ∈ gaps := by
    simpa [isGap] using hGap
  simp only [gaps, List.mem_cons, List.not_mem_nil,
    or_false] at hMem
  rcases hMem with h | h | h | h | h <;> subst h <;> decide

end Text

end FilterQuery

------------------------------------------------------------
-- Classes Of Texts
------------------------------------------------------------

namespace FilterQuery

namespace Text

/- Texts that are empty or white space throughout. -/
def isBlankText (text : String) : Bool :=
  text.toList.all isBlank

/-
  Texts that can be written without quotes: not empty, no
  white space and no reserved character.
-/
def isUnreserved (text : String) : Bool :=
  !text.toList.isEmpty &&
    text.toList.all fun c => !isBlank c && !isReserved c

end Text

end FilterQuery

------------------------------------------------------------
-- Length In Bytes
------------------------------------------------------------

namespace FilterQuery

namespace Text

/- Length of the UTF-8 encoding of a list of characters. -/
def byteLength : List Char → Nat
| [] => 0
| c :: cs => c.utf8Size + byteLength cs

/- `byteLength` is the UTF-8 size of the string. -/
theorem utf8ByteSize_ofList
    (cs : List Char) :
    (String.ofList cs).utf8ByteSize = byteLength cs := by
  induction cs with
  | nil =>
      rfl
  | cons c cs ih =>
      simp [byteLength, String.ofList_cons, ih]

/- Lengths add up over concatenation. -/
theorem byteLength_append
    (cs ds : List Char) :
    byteLength (cs ++ ds) = byteLength cs + byteLength ds := by
  induction cs with
  | nil =>
      simp [byteLength]
  | cons c cs ih =>
      simp only [List.cons_append, byteLength, ih]
      omega

/- Every character takes at least one byte. -/
theorem length_le_byteLength
    (cs : List Char) :
    cs.length ≤ byteLength cs := by
  induction cs with
  | nil =>
      simp [byteLength]
  | cons c cs ih =>
      have hSize : 0 < c.utf8Size := c.utf8Size_pos
      simp only [byteLength, List.length_cons]
      omega

end Text

end FilterQuery
