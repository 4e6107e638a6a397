import FilterQuery.Node.Render
import FilterQuery.Token.Scan

/-
  This file proves how text without gaps is cut into tokens,
  one kind of token after the other.

  Key definitions include:
    * `FilterQuery.Cuts`
    * `FilterQuery.Text.EndsValue`
    * `FilterQuery.Mark`
    * `FilterQuery.Piece`

  Key theorems include:
    * `FilterQuery.Cuts.value`
    * `FilterQuery.Cuts.operator`
    * `FilterQuery.Piece.intercalate`

  A token reads as far as it can, so what follows it matters:
  a bare value must not be followed by a plain character, and
  a symbol not by an equal sign.
-/

------------------------------------------------------------
-- Runs Of Characters
------------------------------------------------------------

namespace FilterQuery

namespace Text

variable {p : Char → Bool}
variable {cs ds : List Char}

/- A run of characters is taken up to where it stops. -/
theorem takeWhile_append
    (hRun : ∀ c ∈ cs, p c = true)
    (hStop : ∀ c ∈ ds.head?, p c = false) :
    (cs ++ ds).takeWhile p = cs := by
  rw [List.takeWhile_append_of_pos hRun]
  cases ds with
  | nil => simp
  | cons d ds => simp [hStop d rfl]

/- What is left behind a run starts where the run stops. -/
theorem dropWhile_append
    (hRun : ∀ c ∈ cs, p c = true)
    (hStop : ∀ c ∈ ds.head?, p c = false) :
    (cs ++ ds).dropWhile p = ds := by
  rw [List.dropWhile_append_of_pos hRun]
  cases ds with
  | nil => rfl
  | cons d ds => simp [hStop d rfl]

end Text

end FilterQuery

------------------------------------------------------------
-- Cuts
------------------------------------------------------------

namespace FilterQuery

/-
  The text is cut into the tokens, and there is no gap before
  any of them.
-/
inductive Cuts : List Char → List Token → Prop
  | nil : Cuts [] []
  | cons
      {c : Char}
      {cs : List Char}
      {s : Scanned}
      {ts : List Token}
      (hGap : Text.isGap c = false)
      (hScan : Scanned.ofChars c cs = .ok s)
      (hRest : Cuts s.rest ts) :
      Cuts (c :: cs) (s.token :: ts)

end FilterQuery

------------------------------------------------------------
-- Marks
------------------------------------------------------------

namespace FilterQuery

/- Text that cannot go on with a bare value. -/
def Text.EndsValue (cs : List Char) : Prop :=
  ∀ c ∈ cs.head?, Text.isPlain c = false

/- Tokens of one character that needs no context. -/
inductive Mark : Char → Token → Prop
  | openParen : Mark '(' .openParen
  | closeParen : Mark ')' .closeParen
  | semicolon : Mark ';' .semicolon
  | comma : Mark ',' .comma

namespace Mark

variable {m : Char} {t : Token}

/- A mark is a token by itself. -/
theorem scan
    (hMark : Mark m t)
    (cs : List Char) :
    Scanned.ofChars m cs = .ok (.single t m cs) := by
  cases hMark <;> rfl

/- A mark is neither a gap nor part of a bare value. -/
theorem reserved
    (hMark : Mark m t) :
    Text.isGap m = false ∧ Text.isPlain m = false := by
  cases hMark <;> decide

/- A mark ends a value. -/
theorem endsValue
    (hMark : Mark m t)
    (cs : List Char) :
    Text.EndsValue (m :: cs) := by
  intro c hc
  cases hc
  exact hMark.reserved.2

end Mark

namespace Cuts

/- A mark may stand before anything. -/
theorem mark
    {m : Char}
    {t : Token}
    {cs : List Char}
    {ts : List Token}
    (hMark : Mark m t)
    (hRest : Cuts cs ts) :
    Cuts (m :: cs) (t :: ts) :=
  .cons hMark.reserved.1 (hMark.scan cs) hRest

/- An exclamation mark may stand before a parenthesis. -/
theorem bang
    {cs : List Char}
    {ts : List Token}
    (hRest : Cuts ('(' :: cs) ts) :
    Cuts ('!' :: '(' :: cs) (.bang :: ts) := by
  have hGap : Text.isGap '!' = false := by decide
  have hScan :
      Scanned.ofChars '!' ('(' :: cs) =
        .ok ⟨.bang, ['!'], '(' :: cs⟩ := rfl
  exact .cons hGap hScan hRest

end Cuts

end FilterQuery

------------------------------------------------------------
-- Values
------------------------------------------------------------

namespace FilterQuery

namespace Text

/- The token that a value is read as when it is written. -/
def valueToken (value : String) : Token :=
  if isUnreserved value then .bare value else .quoted value

/- The token has the value. -/
theorem value?_valueToken
    (value : String) :
    (valueToken value).value? = some value := by
  unfold valueToken
  split <;> rfl

/- Unreserved text is not empty, and plain throughout. -/
theorem isPlain_of_isUnreserved
    {value : String}
    (hUnreserved : isUnreserved value = true) :
    value.toList ≠ [] ∧
      ∀ c ∈ value.toList, isPlain c = true := by
  unfold isUnreserved at hUnreserved
  rw [Bool.and_eq_true, List.all_eq_true] at hUnreserved
  rcases hUnreserved with ⟨hSome, hAll⟩
  constructor
  · intro hNil
    rw [hNil] at hSome
    cases hSome
  · intro c hc
    have hClean := hAll c hc
    rw [Bool.and_eq_true, Bool.not_eq_true',
      Bool.not_eq_true'] at hClean
    have hGap : isGap c = false := by
      cases hGap : isGap c with
      | false => rfl
      | true =>
          rw [isBlank_of_isGap hGap] at hClean
          cases hClean.1
    simp [isPlain, hGap, hClean.2]

/- What is written for a value does not start with `=`. -/
theorem head_valueChars
    (value : String)
    (cs : List Char) :
    (valueChars value ++ cs).head? ≠ some '=' := by
  unfold valueChars
  split
  · rename_i hUnreserved
    rcases isPlain_of_isUnreserved hUnreserved with
      ⟨hSome, hPlain⟩
    cases hChars : value.toList with
    | nil => exact absurd hChars hSome
    | cons c ds =>
        have hc := hPlain c (by simp [hChars])
        intro hHead
        cases hHead
        revert hc
        decide
  · intro hHead
    cases hHead

end Text

namespace Scanned

/- A plain character starts a bare value. -/
theorem ofChars_of_isPlain
    {c : Char}
    (hPlain : Text.isPlain c = true)
    (cs : List Char) :
    ofChars c cs = .ok (bare c cs) := by
  rw [ofChars_eq_ok_iff_scan]
  unfold scan
  split
  case h_11 => rfl
  all_goals
    exact absurd hPlain (by decide)

/- A bare value is read up to where it ends. -/
theorem bare_append_of_endsValue
    {c : Char}
    {cs rest : List Char}
    (hPlain : ∀ d ∈ cs, Text.isPlain d = true)
    (hEnds : Text.EndsValue rest) :
    bare c (cs ++ rest) =
      ⟨.bare (String.ofList (c :: cs)), c :: cs, rest⟩ := by
  unfold bare
  rw [Text.takeWhile_append hPlain hEnds,
    Text.dropWhile_append hPlain hEnds]

/- A quoted value is read back, whatever follows. -/
theorem quoted_literal
    (q : Quote)
    (value rest : List Char) :
    quoted q (Quoted.encode q.char value ++ q.char :: rest) =
      .ok ⟨.quoted (String.ofList value),
        Quoted.literal q value, rest⟩ := by
  have hQuote : q.char ≠ '\\' := by
    cases q <;> decide
  unfold quoted
  rw [Quoted.splitClosing_encode hQuote]
  simp only [Quoted.decode_encode]
  rfl

end Scanned

/- A value may stand before what ends it. -/
theorem Cuts.value
    {cs : List Char}
    {ts : List Token}
    (value : String)
    (hEnds : Text.EndsValue cs)
    (hRest : Cuts cs ts) :
    Cuts (Text.valueChars value ++ cs)
      (Text.valueToken value :: ts) := by
  unfold Text.valueChars Text.valueToken
  split
  · rename_i hUnreserved
    rcases Text.isPlain_of_isUnreserved hUnreserved with
      ⟨hSome, hPlain⟩
    cases hChars : value.toList with
    | nil => exact absurd hChars hSome
    | cons c ds =>
        rw [hChars] at hPlain
        have hc := hPlain c List.mem_cons_self
        have hGap : Text.isGap c = false := by
          unfold Text.isPlain at hc
          rw [Bool.and_eq_true, Bool.not_eq_true'] at hc
          exact hc.1
        have hScan :
            Scanned.ofChars c (ds ++ cs) =
              .ok ⟨.bare value, c :: ds, cs⟩ := by
          rw [Scanned.ofChars_of_isPlain hc,
            Scanned.bare_append_of_endsValue
              (fun d hd => hPlain d (List.mem_cons_of_mem _ hd))
              hEnds,
            ← hChars, String.ofList_toList]
        exact .cons hGap hScan hRest
  · have hGap : Text.isGap '"' = false := by decide
    have hScan :
        Scanned.ofChars '"'
            (Quoted.encode '"' value.toList ++ '"' :: cs) =
          .ok ⟨.quoted value,
            Quoted.literal .double value.toList, cs⟩ := by
      have hQuoted :=
        Scanned.quoted_literal .double value.toList cs
      rw [String.ofList_toList] at hQuoted
      exact Scanned.ofChars_eq_ok_iff_scan.mpr hQuoted
    have hCuts := Cuts.cons hGap hScan hRest
    simpa [Quoted.literal, Quote.char] using hCuts

end FilterQuery

------------------------------------------------------------
-- Operators
------------------------------------------------------------

namespace FilterQuery

namespace Symbol

/- The spellings that a symbol can have. -/
inductive Spelling : List Char → Prop
  | named
      {letters : List Char}
      (hLetters : ∀ c ∈ letters, c.isAlpha = true) :
      Spelling ('=' :: (letters ++ ['=']))
  | order
      {bracket : Char}
      (hBracket : bracket = '<' ∨ bracket = '>') :
      Spelling [bracket]
  | orderEqual
      {bracket : Char}
      (hBracket : bracket = '<' ∨ bracket = '>') :
      Spelling [bracket, '=']
  | notEqual : Spelling ['!', '=']

/- A named symbol has letters between its equal signs. -/
theorem spelling_of_isNamed
    {cs : List Char}
    (hNamed : isNamed cs = true) :
    Spelling cs := by
  unfold isNamed at hNamed
  split at hNamed
  · rename_i ds
    have hDrop : ds.dropWhile Char.isAlpha = ['='] := by
      simpa using hNamed
    have hSplit :=
      List.takeWhile_append_dropWhile (p := Char.isAlpha)
        (l := ds)
    rw [hDrop] at hSplit
    rw [← hSplit]
    apply Spelling.named
    exact List.all_eq_true.mp List.all_takeWhile
  · cases hNamed

/- A valid symbol has one of the spellings. -/
theorem spelling_of_isValid
    {symbol : String}
    (hValid : isValid symbol = true) :
    Spelling symbol.toList := by
  unfold isValid at hValid
  rw [Bool.or_eq_true] at hValid
  rcases hValid with hNamed | hShort
  · exact spelling_of_isNamed hNamed
  · simp only [isShort, Bool.or_eq_true, beq_iff_eq] at hShort
    rcases hShort with (((h | h) | h) | h) | h
    · rw [h]
      exact .order (Or.inr rfl)
    · rw [h]
      exact .order (Or.inl rfl)
    · rw [h]
      exact .orderEqual (Or.inr rfl)
    · rw [h]
      exact .orderEqual (Or.inl rfl)
    · rw [h]
      exact .notEqual

/- A symbol ends a value. -/
theorem Spelling.endsValue
    {cs : List Char}
    (hSpelling : Spelling cs)
    (ds : List Char) :
    Text.EndsValue (cs ++ ds) := by
  intro c hc
  cases hSpelling with
  | named _ | notEqual =>
      cases hc
      decide
  | order hBracket | orderEqual hBracket =>
      cases hc
      rcases hBracket with rfl | rfl <;> decide

end Symbol

namespace Scanned

/- A named symbol is read, whatever follows. -/
theorem named_of_letters
    {letters : List Char}
    (hLetters : ∀ c ∈ letters, c.isAlpha = true)
    (rest : List Char) :
    named (letters ++ '=' :: rest) =
      .ok
        ⟨.operator
            (String.ofList ('=' :: (letters ++ ['=']))),
          '=' :: (letters ++ ['=']), rest⟩ := by
  have hStop :
      ∀ c ∈ ('=' :: rest).head?, c.isAlpha = false := by
    intro c hc
    cases hc
    decide
  have hDrop := Text.dropWhile_append hLetters hStop
  have hTake := Text.takeWhile_append hLetters hStop
  unfold named
  simp only [hDrop, hTake]

/- A lone exclamation mark has no equal sign behind it. -/
theorem negation_of_head
    {cs : List Char}
    (hNext : cs.head? ≠ some '=') :
    negation cs = ⟨.bang, ['!'], cs⟩ := by
  unfold negation
  split
  · exact absurd rfl hNext
  · rfl

/- An angle bracket is read where no equal sign follows. -/
theorem order_of_head
    {cs : List Char}
    (bracket : Char)
    (hNext : cs.head? ≠ some '=') :
    order bracket cs =
      ⟨.operator (String.ofList [bracket]), [bracket], cs⟩ := by
  unfold order
  split
  · exact absurd rfl hNext
  · rfl

end Scanned

/-
  A symbol is read whole, except that a lone bracket must not
  be followed by an equal sign.
-/
theorem Symbol.Spelling.scan
    {ds rest : List Char}
    (hSpelling : Symbol.Spelling ds)
    (hNext : ds.length = 1 → rest.head? ≠ some '=') :
    ∃ c cs,
      ds = c :: cs ∧
        Text.isGap c = false ∧
        Scanned.ofChars c (cs ++ rest) =
          .ok ⟨.operator (String.ofList ds), ds, rest⟩ := by
  cases hSpelling with
  | @named letters hLetters =>
      refine ⟨'=', _, rfl, by decide, ?_⟩
      rw [List.append_assoc]
      exact Scanned.ofChars_eq_ok_iff_scan.mpr
        (Scanned.named_of_letters hLetters rest)
  | order hBracket =>
      refine ⟨_, [], rfl, ?_, ?_⟩
      · rcases hBracket with rfl | rfl <;> decide
      · rw [List.nil_append]
        rcases hBracket with rfl | rfl
        · exact congrArg Except.ok
            (Scanned.order_of_head '<' (hNext rfl))
        · exact congrArg Except.ok
            (Scanned.order_of_head '>' (hNext rfl))
  | orderEqual hBracket =>
      refine ⟨_, ['='], rfl, ?_, ?_⟩
      · rcases hBracket with rfl | rfl <;> decide
      · rcases hBracket with rfl | rfl <;> rfl
  | notEqual =>
      exact ⟨'!', ['='], rfl, by decide, rfl⟩

/- A symbol may stand before what is no equal sign. -/
theorem Cuts.operator
    {symbol : String}
    {cs : List Char}
    {ts : List Token}
    (hValid : Symbol.isValid symbol = true)
    (hNext : cs.head? ≠ some '=')
    (hRest : Cuts cs ts) :
    Cuts (symbol.toList ++ cs) (.operator symbol :: ts) := by
  have hSpelling := Symbol.spelling_of_isValid hValid
  rcases hSpelling.scan (fun _ => hNext) with
    ⟨d, ds, hChars, hGap, hScan⟩
  rw [String.ofList_toList] at hScan
  rw [hChars]
  exact .cons hGap hScan hRest

end FilterQuery

------------------------------------------------------------
-- Pieces
------------------------------------------------------------

namespace FilterQuery

/-
  The text is cut into the tokens, before anything that does
  not go on with a value.
-/
def Piece
    (cs : List Char)
    (ts : List Token) : Prop :=
  ∀ rest us,
    Text.EndsValue rest →
      Cuts rest us → Cuts (cs ++ rest) (ts ++ us)

namespace Piece

/- A piece can be all of a text. -/
theorem cuts
    {cs : List Char}
    {ts : List Token}
    (hPiece : Piece cs ts) :
    Cuts cs ts := by
  have hEnds : Text.EndsValue [] := by
    intro c hc
    cases hc
  have hCuts := hPiece [] [] hEnds .nil
  rw [List.append_nil, List.append_nil] at hCuts
  exact hCuts

/- A value is a piece. -/
theorem value
    (value : String) :
    Piece (Text.valueChars value)
      [Text.valueToken value] := by
  intro rest us hEnds hRest
  exact hRest.value value hEnds

/- Pieces with a mark between them are a piece. -/
theorem intercalate
    {α : Type}
    {m : Char}
    {t : Token}
    {chars : α → List Char}
    {tokens : α → List Token}
    {as : List α}
    (hMark : Mark m t)
    (hSome : as ≠ [])
    (hEach : ∀ a ∈ as, Piece (chars a) (tokens a)) :
    Piece (List.intercalate [m] (as.map chars))
      (List.intercalate [t] (as.map tokens)) := by
  induction as with
  | nil =>
      exact absurd rfl hSome
  | cons a as ih =>
      have hFirst := hEach a List.mem_cons_self
      cases as with
      | nil =>
          simp only [List.map_cons, List.map_nil,
            List.intercalate_singleton]
          exact hFirst
      | cons b bs =>
          have hMore :=
            ih (List.cons_ne_nil _ _) fun d hd =>
              hEach d (List.mem_cons_of_mem _ hd)
          simp only [List.map_cons,
            List.intercalate_cons_cons] at hMore ⊢
          intro rest us hEnds hRest
          have hAfter := (hMore rest us hEnds hRest).mark hMark
          have hAll := hFirst _ _ (hMark.endsValue _) hAfter
          simpa using hAll

/- A piece in parentheses may stand before anything. -/
theorem parenthesized
    {cs rest : List Char}
    {ts us : List Token}
    (hPiece : Piece cs ts)
    (hRest : Cuts rest us) :
    Cuts ('(' :: (cs ++ ')' :: rest))
      (.openParen :: (ts ++ .closeParen :: us)) := by
  have hClosed := hRest.mark .closeParen
  have hInside :=
    hPiece _ _ (Mark.closeParen.endsValue rest) hClosed
  exact hInside.mark .openParen

end Piece

end FilterQuery
