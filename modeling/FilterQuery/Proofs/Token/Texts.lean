import FilterQuery.Proofs.Token.Cutting
import FilterQuery.Token.Pattern

/-
  This file proves which texts tokens are read from, and
  where these texts end.

  Key definitions include:
    * `FilterQuery.Token.Spelled`
    * `FilterQuery.Token.Stops`
    * `FilterQuery.Scanned.Whole`

  Key theorems include:
    * `FilterQuery.Quoted.splitClosing_eq_some_iff`
    * `FilterQuery.Quoted.encodes_iff`
    * `FilterQuery.Scanned.whole_of_ofChars`
    * `FilterQuery.Scanned.ofChars_append`
    * `FilterQuery.Token.Spelled.token_unique`

  Few tokens depend on what follows them: a lone `!`, `<` or
  `>` takes in an equal sign, and a bare value takes in plain
  characters.  A token that cannot go on in this way is read
  as it stands.
-/

------------------------------------------------------------
-- Quoted Bodies
------------------------------------------------------------

namespace FilterQuery

/- No quote is a backslash. -/
theorem Quote.char_ne_backslash
    (q : Quote) :
    q.char ≠ '\\' := by
  cases q <;> decide

namespace Quoted

/- What a quote closes is a body. -/
theorem body_of_splitClosing
    {q : Char}
    {cs body rest : List Char}
    (hSplit : splitClosing q cs = some (body, rest)) :
    Body q body := by
  fun_induction splitClosing q cs generalizing body rest with
  | case1 =>
      cases hSplit
  | case2 cs =>
      cases hSplit
      exact .nil
  | case3 =>
      cases hSplit
  | case4 d ds _ ih =>
      simp only [Option.map_eq_some_iff, Prod.exists,
        Prod.mk.injEq] at hSplit
      rcases hSplit with ⟨body', rest', h, rfl, rfl⟩
      exact .pair d (ih h)
  | case5 c cs hQuote hBackslash ih =>
      simp only [Option.map_eq_some_iff, Prod.exists,
        Prod.mk.injEq] at hSplit
      rcases hSplit with ⟨body', rest', h, rfl, rfl⟩
      exact .ordinary hQuote hBackslash (ih h)

/- A body is closed by the quote behind it. -/
theorem Body.splitClosing
    {q : Char}
    {body : List Char}
    (hBody : Body q body)
    (hQuote : q ≠ '\\')
    (rest : List Char) :
    Quoted.splitClosing q (body ++ q :: rest) =
      some (body, rest) := by
  induction hBody with
  | nil =>
      exact splitClosing_quote q rest
  | ordinary hOther hBackslash _ ih =>
      rw [List.cons_append,
        splitClosing_cons hOther hBackslash, ih]
      rfl
  | pair c _ ih =>
      rw [List.cons_append, List.cons_append,
        splitClosing_backslash hQuote, ih]
      rfl

/-
  The closing quote is the first that no backslash protects.
-/
theorem splitClosing_eq_some_iff
    {q : Char}
    {cs body rest : List Char}
    (hQuote : q ≠ '\\') :
    splitClosing q cs = some (body, rest) ↔
      Body q body ∧ cs = body ++ q :: rest := by
  constructor
  · intro hSplit
    exact ⟨body_of_splitClosing hSplit,
      eq_append_of_splitClosing hSplit⟩
  · rintro ⟨hBody, rfl⟩
    exact hBody.splitClosing hQuote rest

/- The characters that decoding lets a backslash protect. -/
theorem isEscapable_iff
    {c : Char} :
    isEscapable c = true ↔ Protectable c := by
  simp [isEscapable, Protectable, or_assoc]

/- What is written for a value is closed by the next quote. -/
theorem Encodes.isBody
    {q : Char}
    {value body : List Char}
    (hEncodes : Encodes q value body) :
    Body q body := by
  induction hEncodes with
  | nil =>
      exact .nil
  | ordinary hQuote hBackslash _ ih =>
      exact .ordinary hQuote hBackslash ih
  | escape _ _ ih =>
      exact .pair _ ih

/- What is written for a value has the value. -/
theorem Encodes.decode_eq_ok
    {q : Char}
    {value body : List Char}
    (hEncodes : Encodes q value body) :
    decode body = .ok value := by
  induction hEncodes with
  | nil =>
      rfl
  | ordinary _ hBackslash _ ih =>
      rw [decode_cons hBackslash, ih]
      rfl
  | escape hEscape _ ih =>
      rw [decode, if_pos rfl,
        if_pos (isEscapable_iff.mpr hEscape), ih]
      rfl

/- A body with a value is written for it. -/
theorem Body.encodes
    {q : Char}
    {value body : List Char}
    (hBody : Body q body)
    (hValue : decode body = .ok value) :
    Encodes q value body := by
  induction hBody generalizing value with
  | nil =>
      cases hValue
      exact .nil
  | @ordinary c cs hQuote hBackslash _ ih =>
      rw [decode_cons hBackslash] at hValue
      cases hRest : decode cs with
      | error cause =>
          rw [hRest] at hValue
          cases hValue
      | ok more =>
          rw [hRest] at hValue
          cases hValue
          exact .ordinary hQuote hBackslash (ih hRest)
  | @pair c cs _ ih =>
      rw [decode, if_pos rfl] at hValue
      by_cases hEscape : isEscapable c = true
      · rw [if_pos hEscape] at hValue
        cases hRest : decode cs with
        | error cause =>
            rw [hRest] at hValue
            cases hValue
        | ok more =>
            rw [hRest] at hValue
            cases hValue
            exact .escape (isEscapable_iff.mp hEscape)
              (ih hRest)
      · rw [if_neg hEscape] at hValue
        cases hValue

/- The ways to write a value are the bodies that have it. -/
theorem encodes_iff
    {q : Char}
    {value body : List Char} :
    Encodes q value body ↔
      Body q body ∧ decode body = .ok value := by
  constructor
  · intro hEncodes
    exact ⟨hEncodes.isBody, hEncodes.decode_eq_ok⟩
  · rintro ⟨hBody, hValue⟩
    exact hBody.encodes hValue

/- A body has one closing quote. -/
theorem Body.unique
    {q : Char}
    {body body' rest rest' : List Char}
    (hQuote : q ≠ '\\')
    (hBody : Body q body)
    (hBody' : Body q body')
    (hText : body ++ q :: rest = body' ++ q :: rest') :
    body = body' ∧ rest = rest' := by
  have hSplit := hBody.splitClosing hQuote rest
  rw [hText, hBody'.splitClosing hQuote rest'] at hSplit
  cases hSplit
  exact ⟨rfl, rfl⟩

end Quoted

end FilterQuery

------------------------------------------------------------
-- Kinds Of Texts
------------------------------------------------------------

namespace FilterQuery

namespace TokenKind

/- The texts of operators are the spellings of symbols. -/
theorem matches_operator_iff
    {text : List Char} :
    operator.Matches text ↔ Symbol.Spelling text := by
  constructor
  · intro hMatches
    have hValid :
        Symbol.isValid (String.ofList text) = true := by
      unfold Symbol.isValid
      rw [String.toList_ofList]
      exact Bool.or_eq_true_iff.mpr hMatches
    have hSpelling := Symbol.spelling_of_isValid hValid
    rwa [String.toList_ofList] at hSpelling
  · intro hSpelling
    cases hSpelling with
    | named hLetters =>
        left
        have hStop :
            ∀ c ∈ ['='].head?, c.isAlpha = false := by
          intro c hc
          cases hc
          decide
        have hDrop := Text.dropWhile_append hLetters hStop
        simp only [Symbol.isNamed, hDrop, beq_self_eq_true]
    | order hBracket | orderEqual hBracket =>
        right
        rcases hBracket with rfl | rfl <;> rfl
    | notEqual =>
        right
        rfl

end TokenKind

end FilterQuery

------------------------------------------------------------
-- Texts Of Tokens
------------------------------------------------------------

namespace FilterQuery

/-
  The text that a token is read from: its own character or
  characters, or what is written for its value between two
  equal quotes.
-/
inductive Token.Spelled : Token → List Char → Prop
  | openParen : Token.Spelled .openParen ['(']
  | closeParen : Token.Spelled .closeParen [')']
  | semicolon : Token.Spelled .semicolon [';']
  | comma : Token.Spelled .comma [',']
  | bang : Token.Spelled .bang ['!']
  | operator
      {text : List Char}
      (hSymbol : Symbol.Spelling text) :
      Token.Spelled (.operator (String.ofList text)) text
  | bare
      {text : List Char}
      (hSome : text ≠ [])
      (hPlain : ∀ c ∈ text, Text.isPlain c = true) :
      Token.Spelled (.bare (String.ofList text)) text
  | quoted
      {q : Quote}
      {value body : List Char}
      (hEncodes : Quoted.Encodes q.char value body) :
      Token.Spelled (.quoted (String.ofList value))
        (q.char :: (body ++ [q.char]))

namespace Token

/- The text of a token is not empty. -/
theorem Spelled.ne_nil
    {t : Token}
    {text : List Char}
    (hSpelled : t.Spelled text) :
    text ≠ [] := by
  cases hSpelled with
  | operator hSymbol =>
      cases hSymbol <;> exact List.cons_ne_nil _ _
  | bare hSome _ => exact hSome
  | _ => exact List.cons_ne_nil _ _

/- The text of a token takes up bytes. -/
theorem Spelled.byteLength_pos
    {t : Token}
    {text : List Char}
    (hSpelled : t.Spelled text) :
    0 < Text.byteLength text :=
  Nat.lt_of_lt_of_le
    (List.length_pos_iff.mpr hSpelled.ne_nil)
    (Text.length_le_byteLength text)

/- The text of a token does not start with a gap. -/
theorem Spelled.start
    {t : Token}
    {text : List Char}
    (hSpelled : t.Spelled text) :
    ∃ c cs, text = c :: cs ∧ Text.isGap c = false := by
  cases hSpelled with
  | openParen | closeParen | semicolon | comma | bang =>
      exact ⟨_, _, rfl, rfl⟩
  | operator hSymbol =>
      have hEnd :
          text.length = 1 →
            ([] : List Char).head? ≠ some '=' :=
        fun _ => nofun
      rcases hSymbol.scan hEnd with ⟨c, cs, hText, hGap, _⟩
      exact ⟨c, cs, hText, hGap⟩
  | bare hSome hPlain =>
      rcases List.exists_cons_of_ne_nil hSome with
        ⟨c, cs, rfl⟩
      have hc := hPlain c List.mem_cons_self
      unfold Text.isPlain at hc
      rw [Bool.and_eq_true, Bool.not_eq_true'] at hc
      exact ⟨c, cs, rfl, hc.1⟩
  | @quoted q _ body _ =>
      refine ⟨q.char, body ++ [q.char], rfl, ?_⟩
      cases q <;> rfl

/- The text of a token belongs to its kind. -/
theorem Spelled.matches_kind
    {t : Token}
    {text : List Char}
    (hSpelled : t.Spelled text) :
    t.kind.Matches text := by
  cases hSpelled with
  | openParen | closeParen | semicolon | comma | bang =>
      rfl
  | operator hSymbol =>
      exact TokenKind.matches_operator_iff.mpr hSymbol
  | bare hSome hPlain =>
      exact ⟨hSome, hPlain⟩
  | quoted hEncodes =>
      exact ⟨_, _, hEncodes.isBody, rfl⟩

end Token

end FilterQuery

------------------------------------------------------------
-- Ends Of Tokens
------------------------------------------------------------

namespace FilterQuery

namespace Token

/- The token does not go on with the text behind it. -/
def Stops (t : Token) (rest : List Char) : Prop :=
  match t with
  | .bang => rest.head? ≠ some '='
  | .operator symbol =>
      symbol.toList.length = 1 → rest.head? ≠ some '='
  | .bare _ => Text.EndsValue rest
  | _ => True

/- Every token stops before what nothing can go on with. -/
theorem stops_of_head
    {rest : List Char}
    (hNext : rest.head? ≠ some '=')
    (hEnds : Text.EndsValue rest)
    (t : Token) :
    t.Stops rest := by
  cases t with
  | bang => exact hNext
  | operator symbol => exact fun _ => hNext
  | bare text => exact hEnds
  | _ => trivial

/- Every token stops at the end of the text. -/
theorem stops_nil
    (t : Token) :
    t.Stops [] := by
  apply stops_of_head
  · intro hHead
    cases hHead
  · intro c hc
    cases hc

/- Every token stops before a mark. -/
theorem stops_mark
    {m : Char}
    {u : Token}
    (hMark : Mark m u)
    (rest : List Char)
    (t : Token) :
    t.Stops (m :: rest) := by
  apply stops_of_head
  · intro hHead
    cases hHead
    cases hMark
  · exact hMark.endsValue rest

/- Only the first character behind a token matters. -/
theorem stops_cons_iff
    {t : Token}
    {c : Char}
    {rest : List Char} :
    t.Stops (c :: rest) ↔ t.Stops [c] := by
  cases t <;> exact Iff.rfl

/- A token that stops before a text stops before more of it. -/
theorem Stops.append
    {t : Token}
    {rest more : List Char}
    (hStops : t.Stops rest)
    (hMore : rest = [] → t.Stops more) :
    t.Stops (rest ++ more) := by
  cases rest with
  | nil => exact hMore rfl
  | cons c cs =>
      exact stops_cons_iff.mpr (stops_cons_iff.mp hStops)

/- A token that stops before a text stops before less of it. -/
theorem Stops.of_append
    {t : Token}
    {rest more : List Char}
    (hStops : t.Stops (rest ++ more)) :
    t.Stops rest := by
  cases rest with
  | nil => exact t.stops_nil
  | cons c cs =>
      exact stops_cons_iff.mpr (stops_cons_iff.mp hStops)

end Token

end FilterQuery

------------------------------------------------------------
-- Reading A Token
------------------------------------------------------------

namespace FilterQuery

namespace Scanned

/- The token is read from its text, which ends there. -/
structure Whole (s : Scanned) : Prop where
  spelled : s.token.Spelled s.text
  stops : s.token.Stops s.rest

/- A symbol with an angle bracket is read whole. -/
theorem whole_order
    {bracket : Char}
    (hBracket : bracket = '<' ∨ bracket = '>')
    (cs : List Char) :
    (order bracket cs).Whole := by
  unfold order
  split
  · refine ⟨.operator (.orderEqual hBracket), ?_⟩
    intro hLength
    rw [String.toList_ofList] at hLength
    cases hLength
  · rename_i hNext
    refine ⟨.operator (.order hBracket), ?_⟩
    intro _ hHead
    rcases List.head?_eq_some_iff.mp hHead with ⟨ds, rfl⟩
    exact hNext ds rfl

/- An exclamation mark is read whole. -/
theorem whole_negation
    (cs : List Char) :
    (negation cs).Whole := by
  unfold negation
  split
  · refine ⟨.operator .notEqual, ?_⟩
    intro hLength
    cases hLength
  · rename_i hNext
    refine ⟨.bang, ?_⟩
    intro hHead
    rcases List.head?_eq_some_iff.mp hHead with ⟨ds, rfl⟩
    exact hNext ds rfl

/- A named symbol is read whole. -/
theorem whole_of_named
    {cs : List Char}
    {s : Scanned}
    (hRead : named cs = .ok s) :
    s.Whole := by
  unfold named at hRead
  split at hRead
  · cases hRead
    refine ⟨.operator
      (.named (List.all_eq_true.mp List.all_takeWhile)), ?_⟩
    intro hLength
    simp at hLength
  · cases hRead

/- A quoted value is read whole. -/
theorem whole_of_quoted
    {q : Quote}
    {cs : List Char}
    {s : Scanned}
    (hRead : quoted q cs = .ok s) :
    s.Whole := by
  unfold quoted at hRead
  split at hRead
  · cases hRead
  · rename_i body rest hSplit
    cases hValue : Quoted.decode body with
    | error e =>
        rw [hValue] at hRead
        cases hRead
    | ok value =>
        rw [hValue] at hRead
        cases hRead
        have hEncodes :=
          Quoted.encodes_iff.mpr
            ⟨Quoted.body_of_splitClosing hSplit, hValue⟩
        exact ⟨.quoted hEncodes, trivial⟩

/- A bare value is read whole. -/
theorem whole_bare
    {c : Char}
    (hPlain : Text.isPlain c = true)
    (cs : List Char) :
    (bare c cs).Whole := by
  constructor
  · refine .bare (List.cons_ne_nil _ _) ?_
    intro d hd
    rcases List.mem_cons.mp hd with rfl | hLater
    · exact hPlain
    · exact List.all_eq_true.mp List.all_takeWhile d hLater
  · intro d hd
    change d ∈ (cs.dropWhile Text.isPlain).head? at hd
    have hDrop := List.head?_dropWhile_not Text.isPlain cs
    rw [Option.mem_def.mp hd] at hDrop
    simpa using hDrop

/- The token at the front of a text is read whole. -/
theorem whole_of_ofChars
    {c : Char}
    {cs : List Char}
    {s : Scanned}
    (hStart : Text.isGap c = false)
    (hRead : ofChars c cs = .ok s) :
    s.Whole := by
  rw [ofChars_eq_ok_iff_scan] at hRead
  unfold scan at hRead
  split at hRead
  case h_1 | h_2 | h_3 | h_4 =>
    cases hRead
    exact ⟨by constructor, trivial⟩
  case h_5 =>
    cases hRead
    exact whole_negation cs
  case h_6 =>
    cases hRead
    exact whole_order (Or.inl rfl) cs
  case h_7 =>
    cases hRead
    exact whole_order (Or.inr rfl) cs
  case h_8 =>
    exact whole_of_named hRead
  case h_9 | h_10 =>
    exact whole_of_quoted hRead
  case h_11 hOpen hClose hSemi hComma hBang hLess hGreater
      hEqual hDouble hSingle =>
    cases hRead
    -- No case is left for a reserved character.
    have hPlain : Text.isPlain c = true := by
      simp only [Text.isPlain, hStart, Text.isReserved,
        Text.reserved]
      simp_all
    exact whole_bare hPlain cs

/- What can be read whole is read. -/
theorem Whole.ofChars
    {c : Char}
    {cs : List Char}
    {s : Scanned}
    (hWhole : s.Whole)
    (hText : s.text ++ s.rest = c :: cs) :
    Scanned.ofChars c cs = .ok s := by
  rcases s with ⟨t, text, rest⟩
  have hSpelled : t.Spelled text := hWhole.spelled
  have hStops : t.Stops rest := hWhole.stops
  change text ++ rest = c :: cs at hText
  cases hSpelled with
  | openParen | closeParen | semicolon | comma =>
      cases hText
      rfl
  | bang =>
      cases hText
      exact congrArg Except.ok (negation_of_head hStops)
  | operator hSymbol =>
      have hNext :
          text.length = 1 → rest.head? ≠ some '=' := by
        intro hLength
        exact hStops (by rwa [String.toList_ofList])
      rcases hSymbol.scan hNext with ⟨d, ds, rfl, _, hScan⟩
      cases hText
      exact hScan
  | bare hSome hPlain =>
      cases text with
      | nil =>
          exact absurd rfl hSome
      | cons d ds =>
          rw [List.cons_append] at hText
          rcases List.cons.inj hText with ⟨rfl, rfl⟩
          rw [ofChars_of_isPlain (hPlain d List.mem_cons_self),
            bare_append_of_endsValue
              (fun e he => hPlain e (List.mem_cons_of_mem _ he))
              hStops]
  | @quoted q value body hEncodes =>
      rcases Quoted.encodes_iff.mp hEncodes with
        ⟨hBody, hValue⟩
      have hQuoted :
          quoted q (body ++ [q.char] ++ rest) =
            .ok ⟨.quoted (String.ofList value),
              q.char :: (body ++ [q.char]), rest⟩ := by
        unfold quoted
        rw [List.append_assoc, List.singleton_append,
          hBody.splitClosing q.char_ne_backslash]
        simp only [hValue]
        rfl
      cases hText
      cases q <;> exact ofChars_eq_ok_iff_scan.mpr hQuoted

/-
  The same token is read in front of more text, if it does
  not go on there.
-/
theorem ofChars_append
    {c : Char}
    {cs more : List Char}
    {s : Scanned}
    (hStart : Text.isGap c = false)
    (hRead : ofChars c cs = .ok s)
    (hMore : s.rest = [] → s.token.Stops more) :
    ofChars c (cs ++ more) =
      .ok ⟨s.token, s.text, s.rest ++ more⟩ := by
  have hWhole := whole_of_ofChars hStart hRead
  have hLonger :
      Whole ⟨s.token, s.text, s.rest ++ more⟩ :=
    ⟨hWhole.spelled, hWhole.stops.append hMore⟩
  apply hLonger.ofChars
  rw [← List.append_assoc, ← eq_append_of_ofChars hRead,
    List.cons_append]

end Scanned

/- A text is the text of one token. -/
theorem Token.Spelled.token_unique
    {t u : Token}
    {text : List Char}
    (hLeft : t.Spelled text)
    (hRight : u.Spelled text) :
    t = u := by
  have hWholeLeft : Scanned.Whole ⟨t, text, []⟩ :=
    ⟨hLeft, t.stops_nil⟩
  have hWholeRight : Scanned.Whole ⟨u, text, []⟩ :=
    ⟨hRight, u.stops_nil⟩
  rcases List.exists_cons_of_ne_nil hLeft.ne_nil with
    ⟨c, cs, rfl⟩
  have hText : (c :: cs) ++ [] = c :: cs :=
    List.append_nil _
  have hSame :=
    (hWholeLeft.ofChars hText).symm.trans
      (hWholeRight.ofChars hText)
  cases hSame
  rfl

end FilterQuery
