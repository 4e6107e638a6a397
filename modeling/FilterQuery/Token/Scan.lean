import FilterQuery.Text.Classes
import FilterQuery.Text.Quoted
import FilterQuery.Token.Basic

/-
  This file defines how one token is read from the front of a
  text.

  Key definitions include:
    * `FilterQuery.Scanned`
    * `FilterQuery.Scanned.scan`
    * `FilterQuery.LexError.reported`
    * `FilterQuery.Scanned.ofChars`

  Key theorems include:
    * `FilterQuery.Scanned.eq_append_of_ofChars`
    * `FilterQuery.Scanned.length_rest_of_ofChars`

  The first character decides what kind of token follows, and
  each kind reads as far as it can.
-/

------------------------------------------------------------
-- Scanned Tokens
------------------------------------------------------------

namespace FilterQuery

/-
  A token read from the front of a text, the characters it
  was read from, and the characters after it.
-/
structure Scanned where
  token : Token
  text : List Char
  rest : List Char
deriving Repr

namespace Scanned

/- A token that is a single character. -/
def single
    (token : Token)
    (c : Char)
    (cs : List Char) :
    Scanned :=
  ⟨token, [c], cs⟩

/- `!=`, or a lone exclamation mark. -/
def negation : List Char → Scanned
| '=' :: cs => ⟨.operator "!=", ['!', '='], cs⟩
| cs => ⟨.bang, ['!'], cs⟩

/- An angle bracket, with an equal sign if one follows. -/
def order
    (bracket : Char) :
    List Char → Scanned
| '=' :: cs =>
    ⟨.operator (String.ofList [bracket, '=']),
      [bracket, '='], cs⟩
| cs => ⟨.operator (String.ofList [bracket]), [bracket], cs⟩

/- An equal sign, letters, and another equal sign. -/
def named (cs : List Char) : Except LexError Scanned :=
  match cs.dropWhile Char.isAlpha with
  | '=' :: rest =>
      let text := '=' :: (cs.takeWhile Char.isAlpha ++ ['='])
      .ok ⟨.operator (String.ofList text), text, rest⟩
  | _ => .error .unrecognizedInput

/- A value between two quotes. -/
def quoted
    (q : Quote)
    (cs : List Char) :
    Except LexError Scanned :=
  match Quoted.splitClosing q.char cs with
  | none => .error .unrecognizedInput
  | some (body, rest) =>
      (Quoted.decode body).map fun value =>
        ⟨.quoted (String.ofList value),
          q.char :: (body ++ [q.char]), rest⟩

/- A character and all plain characters after it. -/
def bare
    (c : Char)
    (cs : List Char) :
    Scanned :=
  let text := c :: cs.takeWhile Text.isPlain
  ⟨.bare (String.ofList text), text,
    cs.dropWhile Text.isPlain⟩

/- The token that the first of `c :: cs` decides on. -/
def scan
    (c : Char)
    (cs : List Char) :
    Except LexError Scanned :=
  match c with
  | '(' => .ok (single .openParen c cs)
  | ')' => .ok (single .closeParen c cs)
  | ';' => .ok (single .semicolon c cs)
  | ',' => .ok (single .comma c cs)
  | '!' => .ok (negation cs)
  | '<' => .ok (order c cs)
  | '>' => .ok (order c cs)
  | '=' => named cs
  | '"' => quoted .double cs
  | '\'' => quoted .single cs
  | _ => .ok (bare c cs)

end Scanned

/-
  The error as it is reported where no token could be read at
  a character.  A quote that starts no token never closes.
-/
def LexError.reported : Char → LexError → LexError
| '"', .unrecognizedInput => .unterminatedQuote
| '\'', .unrecognizedInput => .unterminatedQuote
| _, cause => cause

/- The token at the front of `c :: cs`. -/
def Scanned.ofChars
    (c : Char)
    (cs : List Char) :
    Except LexError Scanned :=
  (scan c cs).mapError (LexError.reported c)

end FilterQuery

------------------------------------------------------------
-- Reported Errors
------------------------------------------------------------

namespace FilterQuery

namespace LexError

/- A quote that starts no token is reported as open. -/
theorem reported_quote
    (q : Quote) :
    reported q.char .unrecognizedInput =
      .unterminatedQuote := by
  cases q <;> rfl

/- Any other error is reported as it is. -/
theorem reported_of_ne
    {cause : LexError}
    (hOther : cause ≠ .unrecognizedInput)
    (c : Char) :
    reported c cause = cause := by
  unfold reported
  split <;> simp_all

/- A bad escape is reported as it is. -/
theorem reported_invalidEscape
    (c d : Char) :
    reported c (.invalidEscape d) = .invalidEscape d := by
  apply reported_of_ne
  nofun

end LexError

/- A text between quotes fails only at its escapes. -/
theorem Quoted.decode_ne_unrecognizedInput
    (body : List Char) :
    decode body ≠ .error .unrecognizedInput := by
  fun_induction decode body with
  | case1 | case2 | case4 =>
      nofun
  | case3 _ ds _ ih | case5 _ ds _ ih =>
      cases hRest : decode ds <;> simp_all [Except.map]

/- Reading a token is not changed by how errors are reported. -/
theorem Scanned.ofChars_eq_ok_iff_scan
    {c : Char}
    {cs : List Char}
    {s : Scanned} :
    ofChars c cs = .ok s ↔ scan c cs = .ok s := by
  unfold ofChars
  cases scan c cs with
  | ok t => exact Iff.rfl
  | error cause => exact ⟨nofun, nofun⟩

end FilterQuery

------------------------------------------------------------
-- Nothing Is Lost
------------------------------------------------------------

namespace FilterQuery

namespace Scanned

/- Reading an order symbol splits the text. -/
theorem order_append
    (bracket : Char)
    (cs : List Char) :
    (order bracket cs).text ++ (order bracket cs).rest =
      bracket :: cs := by
  unfold order
  split <;> rfl

/- Reading an exclamation mark splits the text. -/
theorem negation_append
    (cs : List Char) :
    (negation cs).text ++ (negation cs).rest = '!' :: cs := by
  unfold negation
  split <;> rfl

/- Reading a bare value splits the text. -/
theorem bare_append
    (c : Char)
    (cs : List Char) :
    (bare c cs).text ++ (bare c cs).rest = c :: cs := by
  simp [bare, List.takeWhile_append_dropWhile]

/- Reading a named symbol splits the text. -/
theorem named_append
    {cs : List Char}
    {s : Scanned}
    (hRead : named cs = .ok s) :
    s.text ++ s.rest = '=' :: cs := by
  unfold named at hRead
  split at hRead
  · rename_i rest hDrop
    simp only [Except.ok.injEq] at hRead
    subst hRead
    have hSplit :=
      List.takeWhile_append_dropWhile (p := Char.isAlpha)
        (l := cs)
    rw [hDrop] at hSplit
    simpa using hSplit
  · simp at hRead

/- Reading a quoted value splits the text. -/
theorem quoted_append
    {q : Quote}
    {cs : List Char}
    {s : Scanned}
    (hRead : quoted q cs = .ok s) :
    s.text ++ s.rest = q.char :: cs := by
  unfold quoted at hRead
  split at hRead
  · simp at hRead
  · rename_i body rest hSplit
    cases hDecode : Quoted.decode body with
    | error e =>
        simp [hDecode, Except.map] at hRead
    | ok value =>
        simp only [hDecode, Except.map, Except.ok.injEq]
          at hRead
        subst hRead
        simp [Quoted.eq_append_of_splitClosing hSplit]

/-
  The characters of a token and the characters after it make
  up the text it was read from.
-/
theorem eq_append_of_ofChars
    {c : Char}
    {cs : List Char}
    {s : Scanned}
    (hRead : ofChars c cs = .ok s) :
    c :: cs = s.text ++ s.rest := by
  rw [ofChars_eq_ok_iff_scan] at hRead
  unfold scan at hRead
  split at hRead
  case h_5 =>
    simp only [Except.ok.injEq] at hRead
    exact hRead ▸ (negation_append cs).symm
  case h_6 =>
    simp only [Except.ok.injEq] at hRead
    exact hRead ▸ (order_append '<' cs).symm
  case h_7 =>
    simp only [Except.ok.injEq] at hRead
    exact hRead ▸ (order_append '>' cs).symm
  case h_8 =>
    exact (named_append hRead).symm
  case h_9 =>
    exact (quoted_append hRead).symm
  case h_10 =>
    exact (quoted_append hRead).symm
  case h_11 =>
    simp only [Except.ok.injEq] at hRead
    exact hRead ▸ (bare_append c cs).symm
  all_goals
    simp only [Except.ok.injEq] at hRead
    subst hRead
    rfl

/- A token starts with the character it was chosen by. -/
theorem head_of_ofChars
    {c : Char}
    {cs : List Char}
    {s : Scanned}
    (hRead : ofChars c cs = .ok s) :
    s.text.head? = some c := by
  rw [ofChars_eq_ok_iff_scan] at hRead
  unfold scan at hRead
  split at hRead
  case h_5 =>
    simp only [Except.ok.injEq] at hRead
    subst hRead
    unfold negation
    split <;> rfl
  case h_6 | h_7 =>
    simp only [Except.ok.injEq] at hRead
    subst hRead
    unfold order
    split <;> rfl
  case h_8 =>
    unfold named at hRead
    split at hRead
    · simp only [Except.ok.injEq] at hRead
      subst hRead
      rfl
    · simp at hRead
  case h_9 | h_10 =>
    unfold quoted at hRead
    split at hRead
    · simp at hRead
    · rename_i body rest hSplit
      cases hDecode : Quoted.decode body with
      | error e =>
          simp [hDecode, Except.map] at hRead
      | ok value =>
          simp only [hDecode, Except.map, Except.ok.injEq]
            at hRead
          subst hRead
          rfl
  all_goals
    simp only [Except.ok.injEq] at hRead
    subst hRead
    rfl

/- Reading a token leaves less text than there was. -/
theorem length_rest_of_ofChars
    {c : Char}
    {cs : List Char}
    {s : Scanned}
    (hRead : ofChars c cs = .ok s) :
    s.rest.length < (c :: cs).length := by
  have hText : s.text ≠ [] := by
    intro hNil
    have hHead := head_of_ofChars hRead
    simp [hNil] at hHead
  have hPos : 0 < s.text.length :=
    List.length_pos_iff.mpr hText
  rw [eq_append_of_ofChars hRead, List.length_append]
  omega

end Scanned

end FilterQuery
