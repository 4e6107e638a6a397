/-
  This file defines quoted values: text between two equal
  quotes, in which a backslash protects the character after
  it.

  Key definitions include:
    * `FilterQuery.Quote`
    * `FilterQuery.Quoted.splitClosing`
    * `FilterQuery.Quoted.decode`
    * `FilterQuery.Quoted.encode`

  Key theorems include:
    * `FilterQuery.Quoted.eq_append_of_splitClosing`
    * `FilterQuery.Quoted.splitClosing_encode`
    * `FilterQuery.Quoted.decode_encode`

  Reading has two steps.  `splitClosing` finds the closing
  quote and looks at no escape; `decode` then removes the
  backslashes of the body.
-/

------------------------------------------------------------
-- Quotes And Lexical Errors
------------------------------------------------------------

namespace FilterQuery

/- The two kinds of quotes around a value. -/
inductive Quote
  | double
  | single
deriving DecidableEq, Repr

/- The quote as a character. -/
def Quote.char : Quote → Char
| .double => '"'
| .single => '\''

/- Reasons why a piece of a query is no token. -/
inductive LexError
  | unrecognizedInput
  | unterminatedQuote
  | invalidEscape (c : Char)
deriving DecidableEq, Repr

/- The text of a lexical error. -/
def LexError.message : LexError → String
| .unrecognizedInput => "Unrecognized input"
| .unterminatedQuote => "Unterminated quoted string"
| .invalidEscape c => s!"Invalid escape sequence '\\{c}'"

end FilterQuery

------------------------------------------------------------
-- Reading
------------------------------------------------------------

namespace FilterQuery

namespace Quoted

/-
  Split after an opening quote: the body up to the first
  equal quote that no backslash protects, and what follows
  that quote.
-/
def splitClosing
    (q : Char) :
    List Char → Option (List Char × List Char)
| [] => none
| c :: cs =>
    if c = q then
      some ([], cs)
    else if c = '\\' then
      match cs with
      | [] => none
      | d :: ds =>
          (splitClosing q ds).map fun (body, rest) =>
            (c :: d :: body, rest)
    else
      (splitClosing q cs).map fun (body, rest) =>
        (c :: body, rest)

/- Characters that a backslash may protect. -/
def isEscapable (c : Char) : Bool :=
  c == '"' || c == '\'' || c == '\\'

/-
  The value of a body: each backslash is dropped and the
  character after it kept.  The first character that needs no
  protection is the error.
-/
def decode : List Char → Except LexError (List Char)
| [] => .ok []
| c :: cs =>
    if c = '\\' then
      match cs with
      | [] => .error .unterminatedQuote
      | d :: ds =>
          if isEscapable d then
            (decode ds).map (d :: ·)
          else
            .error (.invalidEscape d)
    else
      (decode cs).map (c :: ·)

end Quoted

end FilterQuery

------------------------------------------------------------
-- Writing
------------------------------------------------------------

namespace FilterQuery

namespace Quoted

/-
  The body that stands for a value: a backslash before each
  closing quote and each backslash.
-/
def encode
    (q : Char) :
    List Char → List Char
| [] => []
| c :: cs =>
    if c = q ∨ c = '\\' then
      '\\' :: c :: encode q cs
    else
      c :: encode q cs

/- A value between two quotes. -/
def literal
    (q : Quote)
    (value : List Char) :
    List Char :=
  q.char :: (encode q.char value ++ [q.char])

end Quoted

end FilterQuery

------------------------------------------------------------
-- Reading Back
------------------------------------------------------------

namespace FilterQuery

namespace Quoted

/-
  The body, the closing quote and the rest make up the text
  that was split.
-/
theorem eq_append_of_splitClosing
    {q : Char}
    {cs body rest : List Char}
    (hSplit : splitClosing q cs = some (body, rest)) :
    cs = body ++ q :: rest := by
  fun_induction splitClosing q cs generalizing body rest with
  | case1 =>
      simp at hSplit
  | case2 cs =>
      simp only [Option.some.injEq, Prod.mk.injEq] at hSplit
      rcases hSplit with ⟨rfl, rfl⟩
      rfl
  | case3 =>
      simp at hSplit
  | case4 d ds _ ih =>
      simp only [Option.map_eq_some_iff, Prod.exists,
        Prod.mk.injEq] at hSplit
      rcases hSplit with ⟨body', rest', h, rfl, rfl⟩
      simp [ih h]
  | case5 c cs _ _ ih =>
      simp only [Option.map_eq_some_iff, Prod.exists,
        Prod.mk.injEq] at hSplit
      rcases hSplit with ⟨body', rest', h, rfl, rfl⟩
      simp [ih h]

/- A quote closes the body at once. -/
theorem splitClosing_quote
    (q : Char)
    (rest : List Char) :
    splitClosing q (q :: rest) = some ([], rest) := by
  cases rest <;> simp [splitClosing]

/- An ordinary character belongs to the body. -/
theorem splitClosing_cons
    {q c : Char}
    (hQuote : c ≠ q)
    (hBackslash : c ≠ '\\')
    (cs : List Char) :
    splitClosing q (c :: cs) =
      (splitClosing q cs).map fun (body, rest) =>
        (c :: body, rest) := by
  cases cs <;> simp [splitClosing, hQuote, hBackslash]

/- A protected character belongs to the body. -/
theorem splitClosing_backslash
    {q : Char}
    (hQuote : q ≠ '\\')
    (d : Char)
    (ds : List Char) :
    splitClosing q ('\\' :: d :: ds) =
      (splitClosing q ds).map fun (body, rest) =>
        ('\\' :: d :: body, rest) := by
  simp [splitClosing, hQuote.symm]

/- An ordinary character stands for itself. -/
theorem decode_cons
    {c : Char}
    (hBackslash : c ≠ '\\')
    (cs : List Char) :
    decode (c :: cs) = (decode cs).map (c :: ·) := by
  cases cs <;> simp [decode, hBackslash]

/-
  A written body is closed by the next quote, whatever
  follows.
-/
theorem splitClosing_encode
    {q : Char}
    (hQuote : q ≠ '\\')
    (value rest : List Char) :
    splitClosing q (encode q value ++ q :: rest) =
      some (encode q value, rest) := by
  induction value with
  | nil =>
      exact splitClosing_quote q rest
  | cons c cs ih =>
      by_cases hEscape : c = q ∨ c = '\\'
      · simp [encode, hEscape, splitClosing_backslash hQuote, ih]
      · have hNot := not_or.mp hEscape
        simp [encode, hEscape, splitClosing_cons hNot.1 hNot.2,
          ih]

/- A written body has the value it was written for. -/
theorem decode_encode
    (q : Quote)
    (value : List Char) :
    decode (encode q.char value) = .ok value := by
  induction value with
  | nil =>
      rfl
  | cons c cs ih =>
      by_cases hEscape : c = q.char ∨ c = '\\'
      · have hEscapable : isEscapable c = true := by
          rcases hEscape with rfl | rfl
          · cases q <;> decide
          · decide
        simp [encode, hEscape, decode, hEscapable, ih,
          Except.map]
      · have hNot := not_or.mp hEscape
        simp [encode, hEscape, decode_cons hNot.2, ih,
          Except.map]

end Quoted

end FilterQuery
