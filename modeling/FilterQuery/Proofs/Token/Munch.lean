import FilterQuery.Proofs.Token.Patterns
import FilterQuery.Proofs.Token.Tiling
import Mathlib

/-
  This file proves that a lexer reads the longest match of
  the patterns of tokens.

  Key definitions include:
    * `FilterQuery.TokenKind.Longest`
    * `FilterQuery.Munch`

  Key theorems include:
    * `FilterQuery.Token.Spelled.not_longer`
    * `FilterQuery.Scanned.Whole.longest`
    * `FilterQuery.munch_iff`
    * `FilterQuery.Lexing.longest_match`

  A longest match is described without a look at how the
  lexer finds it.
-/

------------------------------------------------------------
-- Longest Matches
------------------------------------------------------------

namespace FilterQuery

/-
  The text is not empty, stands at the front of the others,
  belongs to the kind, and nothing longer at the front
  belongs to any kind.
-/
structure TokenKind.Longest
    (kind : TokenKind)
    (cs text : List Char) : Prop where
  ne_nil : text ≠ []
  front : text <+: cs
  mem : text ∈ kind.pattern
  longest :
    ∀ (k : TokenKind),
      ∀ other ∈ k.pattern,
        other <+: cs → other.length ≤ text.length

/- There is one longest match. -/
theorem TokenKind.Longest.unique
    {k l : TokenKind}
    {cs text other : List Char}
    (hLeft : k.Longest cs text)
    (hRight : l.Longest cs other) :
    k = l ∧ text = other := by
  have hLength : text.length = other.length :=
    Nat.le_antisymm
      (hRight.longest k text hLeft.mem hLeft.front)
      (hLeft.longest l other hRight.mem hRight.front)
  have hText : text = other := by
    rw [List.prefix_iff_eq_take.mp hLeft.front, hLength,
      ← List.prefix_iff_eq_take.mp hRight.front]
  subst hText
  exact ⟨TokenKind.pattern_disjoint hLeft.mem hRight.mem, rfl⟩

/- The error where no text of any kind starts. -/
def LexError.unmatched (c : Char) : LexError :=
  if c = '"' ∨ c = '\'' then
    .unterminatedQuote
  else
    .unrecognizedInput

/-
  What stands at the front of a text by its longest match: a
  token, a quoted text without a value, or nothing at all.
-/
inductive Munch
    (c : Char)
    (cs : List Char) :
    Except LexError Scanned → Prop
  | token
      {s : Scanned}
      (hText : s.text ++ s.rest = c :: cs)
      (hLongest : s.token.kind.Longest (c :: cs) s.text)
      (hSpelled : s.token.Spelled s.text) :
      Munch c cs (.ok s)
  | undecodable
      {q : Quote}
      {body : List Char}
      {cause : LexError}
      (hLongest :
        TokenKind.quoted.Longest (c :: cs)
          (q.char :: (body ++ [q.char])))
      (hDecode : Quoted.decode body = .error cause) :
      Munch c cs (.error cause)
  | unmatched
      (hNone :
        ∀ (k : TokenKind),
          ∀ text ∈ k.pattern, ¬ text <+: c :: cs) :
      Munch c cs (.error (.unmatched c))

end FilterQuery

------------------------------------------------------------
-- Nothing Longer Matches
------------------------------------------------------------

namespace FilterQuery

/-
  A symbol goes on as a symbol only if it is one character
  and an equal sign follows.
-/
theorem Symbol.Spelling.of_append
    {text more : List Char}
    {c : Char}
    (hShort : Symbol.Spelling text)
    (hLong : Symbol.Spelling (text ++ c :: more)) :
    text.length = 1 ∧ c = '=' := by
  have hMatches := TokenKind.matches_operator_iff.mpr hLong
  cases hShort with
  | @named letters hLetters =>
      have hStop :
          ∀ d ∈ ('=' :: c :: more).head?,
            d.isAlpha = false := by
        intro d hd
        cases hd
        decide
      have hDrop := Text.dropWhile_append hLetters hStop
      rcases hMatches with hNamed | hShort
      · simp [Symbol.isNamed, hDrop] at hNamed
      · simp [Symbol.isShort] at hShort
  | order hBracket =>
      have hEqual : c = '=' ∧ more = [] := by
        rcases hBracket with rfl | rfl <;>
          simpa [TokenKind.Matches, Symbol.isNamed,
            Symbol.isShort] using hMatches
      exact ⟨rfl, hEqual.1⟩
  | orderEqual hBracket =>
      rcases hBracket with rfl | rfl <;>
        simp [TokenKind.Matches, Symbol.isNamed,
          Symbol.isShort] at hMatches
  | notEqual =>
      simp [TokenKind.Matches, Symbol.isNamed,
        Symbol.isShort] at hMatches

/-
  What starts with a closed quoted text is that quoted text,
  if it belongs to any kind.
-/
theorem TokenKind.eq_literal_of_matches
    {q : Quote}
    {k : TokenKind}
    {body text after : List Char}
    (hBody : Quoted.Body q.char body)
    (hMatches : k.Matches text)
    (hFront : text <+: q.char :: (body ++ q.char :: after)) :
    k = .quoted ∧ text = q.char :: (body ++ [q.char]) := by
  have hKind := eq_ofText hMatches
  rcases hFront with ⟨rest, hText⟩
  cases text with
  | nil =>
      cases hKind
      exact absurd rfl hMatches.1
  | cons c cs =>
      rw [List.cons_append] at hText
      rcases List.cons.inj hText with ⟨rfl, hTail⟩
      have hQuoted : k = .quoted := by
        rw [hKind]
        cases q <;> rfl
      subst hQuoted
      rcases hMatches with ⟨r, body', hBody', hLiteral⟩
      rcases List.cons.inj hLiteral with ⟨hQuote, rfl⟩
      -- The quotes at both ends are the same.
      rw [← hQuote] at hBody' hTail ⊢
      rw [List.append_assoc, List.singleton_append] at hTail
      rcases hBody'.unique q.char_ne_backslash hBody hTail with
        ⟨rfl, _⟩
      exact ⟨rfl, rfl⟩

/- Where a token stops, no kind of text goes on. -/
theorem Token.Spelled.not_longer
    {t : Token}
    {k : TokenKind}
    {text more : List Char}
    {c : Char}
    (hSpelled : t.Spelled text)
    (hStops : t.Stops (c :: more)) :
    ¬ k.Matches (text ++ c :: more) := by
  intro hMatches
  -- Only a lone `!` goes on as another kind of token.
  have hSame (hBang : text ≠ ['!']) : k = t.kind := by
    rw [TokenKind.eq_ofText hMatches,
      TokenKind.ofText_append hSpelled.ne_nil hBang,
      ← TokenKind.eq_ofText hSpelled.matches_kind]
  cases hSpelled with
  | openParen | closeParen | semicolon | comma =>
      cases hSame (by decide)
      cases hMatches
  | bang =>
      cases TokenKind.eq_ofText hMatches
      have hEqual : c = '=' ∧ more = [] := by
        simpa [TokenKind.ofText, TokenKind.ofHead,
          TokenKind.Matches, Symbol.isNamed,
          Symbol.isShort] using hMatches
      exact hStops (congrArg some hEqual.1)
  | operator hSymbol =>
      have hBang : text ≠ ['!'] := by
        rintro rfl
        have hValid :=
          TokenKind.matches_operator_iff.mpr hSymbol
        simp [TokenKind.Matches, Symbol.isNamed,
          Symbol.isShort] at hValid
      cases hSame hBang
      rcases hSymbol.of_append
        (TokenKind.matches_operator_iff.mp hMatches) with
        ⟨hLength, rfl⟩
      rw [← String.toList_ofList (l := text)] at hLength
      exact hStops hLength rfl
  | bare hSome hPlain =>
      have hBang : text ≠ ['!'] := by
        rintro rfl
        cases hPlain '!' List.mem_cons_self
      cases hSame hBang
      have hc : Text.isPlain c = true :=
        hMatches.2 c
          (List.mem_append_right _ List.mem_cons_self)
      rw [hStops c rfl] at hc
      cases hc
  | @quoted q _ body hEncodes =>
      have hFront :
          q.char :: (body ++ [q.char]) ++ c :: more <+:
            q.char :: (body ++ q.char :: c :: more) :=
        ⟨[], by simp⟩
      have hText :=
        (TokenKind.eq_literal_of_matches hEncodes.isBody
          hMatches hFront).2
      simp at hText

/- A token that is read whole is the longest match. -/
theorem Scanned.Whole.longest
    {s : Scanned}
    (hWhole : s.Whole) :
    s.token.kind.Longest (s.text ++ s.rest) s.text where
  ne_nil := hWhole.spelled.ne_nil
  front := List.prefix_append _ _
  mem :=
    TokenKind.mem_pattern_iff.mpr hWhole.spelled.matches_kind
  longest := by
    intro k other hMem hFront
    rcases List.prefix_or_prefix_of_prefix hFront
        (List.prefix_append s.text s.rest) with
      hShort | ⟨more, rfl⟩
    · exact hShort.length_le
    · cases more with
      | nil => simp
      | cons c more =>
          -- The rest starts with the same character.
          rcases List.prefix_append_right_inj s.text |>.mp
            hFront with ⟨tail, hRest⟩
          have hStops : s.token.Stops (c :: more) := by
            have hBehind := hWhole.stops
            rw [← hRest] at hBehind
            exact Token.stops_cons_iff.mpr
              (Token.stops_cons_iff.mp hBehind)
          exact absurd (TokenKind.mem_pattern_iff.mp hMem)
            (hWhole.spelled.not_longer hStops)

end FilterQuery

------------------------------------------------------------
-- The Longest Match Is Read
------------------------------------------------------------

namespace FilterQuery

variable {c : Char}
variable {cs : List Char}

/- This is what is reported where nothing is recognized. -/
theorem LexError.reported_unrecognizedInput
    (c : Char) :
    reported c .unrecognizedInput = unmatched c := by
  unfold reported unmatched
  split <;> simp_all

/- What belongs to a kind at the front starts there. -/
theorem TokenKind.cons_of_front
    {k : TokenKind}
    {text : List Char}
    (hMem : text ∈ k.pattern)
    (hFront : text <+: c :: cs) :
    ∃ ds, text = c :: ds ∧ ds <+: cs := by
  rcases not_isGap_of_mem_pattern hMem with ⟨d, ds, rfl, _⟩
  rcases List.cons_prefix_cons.mp hFront with ⟨rfl, hRest⟩
  exact ⟨ds, rfl, hRest⟩

/- An equal sign that starts no symbol starts nothing. -/
theorem Scanned.munch_of_named
    {cause : LexError}
    (hRead :
      (named cs).mapError (LexError.reported '=') =
        .error cause) :
    Munch '=' cs (.error cause) := by
  have hCause : cause = .unmatched '=' := by
    unfold named at hRead
    split at hRead <;> cases hRead
    rfl
  rw [hCause]
  refine .unmatched ?_
  intro k text hMem hFront
  rcases TokenKind.cons_of_front hMem hFront with
    ⟨ds, rfl, rest, rfl⟩
  have hMatches := TokenKind.mem_pattern_iff.mp hMem
  cases TokenKind.eq_ofText hMatches
  cases TokenKind.matches_operator_iff.mp hMatches with
  | named hLetters =>
      rw [List.append_assoc, List.singleton_append,
        named_of_letters hLetters rest] at hRead
      cases hRead
  | order hBracket | orderEqual hBracket =>
      rcases hBracket with h | h <;> cases h

/- An opening quote is closed if a kind of text starts there. -/
theorem TokenKind.literal_of_front
    {q : Quote}
    {k : TokenKind}
    {text : List Char}
    (hMem : text ∈ k.pattern)
    (hFront : text <+: q.char :: cs) :
    ∃ body rest,
      Quoted.splitClosing q.char cs = some (body, rest) := by
  rcases cons_of_front hMem hFront with ⟨ds, rfl, rest, rfl⟩
  have hMatches := mem_pattern_iff.mp hMem
  have hKind : k = .quoted := by
    rw [eq_ofText hMatches]
    cases q <;> rfl
  subst hKind
  rcases hMatches with ⟨r, body, hBody, hLiteral⟩
  rcases List.cons.inj hLiteral with ⟨hQuote, rfl⟩
  rw [← hQuote] at hBody ⊢
  rw [List.append_assoc, List.singleton_append,
    hBody.splitClosing q.char_ne_backslash]
  exact ⟨body, rest, rfl⟩

/- A closed quoted text is the longest match. -/
theorem Quoted.Body.longest
    {q : Quote}
    {body : List Char}
    (hBody : Quoted.Body q.char body)
    (rest : List Char) :
    TokenKind.quoted.Longest
      (q.char :: (body ++ q.char :: rest))
      (q.char :: (body ++ [q.char])) where
  ne_nil := List.cons_ne_nil _ _
  front := ⟨rest, by simp⟩
  mem := TokenKind.mem_pattern_iff.mpr ⟨q, body, hBody, rfl⟩
  longest := by
    intro k other hMem hFront
    rw [(TokenKind.eq_literal_of_matches hBody
      (TokenKind.mem_pattern_iff.mp hMem) hFront).2]

/- A quote without a value is no token. -/
theorem Scanned.munch_of_quoted
    {q : Quote}
    {cause : LexError}
    (hRead :
      (quoted q cs).mapError (LexError.reported q.char) =
        .error cause) :
    Munch q.char cs (.error cause) := by
  unfold quoted at hRead
  split at hRead
  · rename_i hOpen
    cases hRead
    rw [LexError.reported_unrecognizedInput]
    refine .unmatched ?_
    intro k text hMem hFront
    rcases TokenKind.literal_of_front hMem hFront with
      ⟨body, rest, hClosed⟩
    rw [hOpen] at hClosed
    cases hClosed
  · rename_i body rest hSplit
    rcases (Quoted.splitClosing_eq_some_iff
      q.char_ne_backslash).mp hSplit with ⟨hBody, rfl⟩
    cases hDecode : Quoted.decode body with
    | error escape =>
        rw [hDecode] at hRead
        cases hRead
        have hEscape : escape ≠ .unrecognizedInput := by
          rintro rfl
          exact Quoted.decode_ne_unrecognizedInput body hDecode
        rw [LexError.reported_of_ne hEscape]
        exact .undecodable (hBody.longest rest) hDecode
    | ok value =>
        rw [hDecode] at hRead
        cases hRead

/- A lexer reads what the longest match says. -/
theorem munch_ofChars
    (hStart : Text.isGap c = false)
    (cs : List Char) :
    Munch c cs (Scanned.ofChars c cs) := by
  cases hRead : Scanned.ofChars c cs with
  | ok s =>
      have hWhole := Scanned.whole_of_ofChars hStart hRead
      have hText := Scanned.eq_append_of_ofChars hRead
      refine .token hText.symm ?_ hWhole.spelled
      rw [hText]
      exact hWhole.longest
  | error cause =>
      unfold Scanned.ofChars Scanned.scan at hRead
      split at hRead
      case h_8 => exact Scanned.munch_of_named hRead
      case h_9 => exact Scanned.munch_of_quoted hRead
      case h_10 => exact Scanned.munch_of_quoted hRead
      all_goals
        cases hRead

/- Two longest texts of tokens give the same token. -/
theorem Munch.token_unique
    {s s' : Scanned}
    (hText : s.text ++ s.rest = c :: cs)
    (hText' : s'.text ++ s'.rest = c :: cs)
    (hLongest : s.token.kind.Longest (c :: cs) s.text)
    (hLongest' : s'.token.kind.Longest (c :: cs) s'.text)
    (hSpelled : s.token.Spelled s.text)
    (hSpelled' : s'.token.Spelled s'.text) :
    s = s' := by
  rcases s with ⟨t, text, rest⟩
  rcases s' with ⟨t', text', rest'⟩
  have hSame : text = text' := (hLongest.unique hLongest').2
  subst hSame
  have hToken : t = t' := hSpelled.token_unique hSpelled'
  have hRest : rest = rest' :=
    List.append_cancel_left (hText.trans hText'.symm)
  rw [hToken, hRest]

/- The body of a quoted token has a value. -/
theorem Token.Spelled.decode_ne_error
    {t : Token}
    {q : Quote}
    {body : List Char}
    {cause : LexError}
    (hSpelled : t.Spelled (q.char :: (body ++ [q.char]))) :
    Quoted.decode body ≠ .error cause := by
  have hKind : t.kind = .quoted := by
    rw [TokenKind.eq_ofText hSpelled.matches_kind]
    cases q <;> rfl
  generalize hText : q.char :: (body ++ [q.char]) = text
    at hSpelled
  cases hSpelled with
  | quoted hEncodes =>
      rcases List.cons.inj hText with ⟨_, hTail⟩
      rw [(List.append_inj' hTail rfl).1,
        hEncodes.decode_eq_ok]
      intro hError
      cases hError
  | _ => cases hKind

/- There is one result by longest match. -/
theorem Munch.unique
    {result result' : Except LexError Scanned}
    (hLeft : Munch c cs result)
    (hRight : Munch c cs result') :
    result = result' := by
  cases hLeft with
  | token hText hLongest hSpelled =>
      cases hRight with
      | token hText' hLongest' hSpelled' =>
          rw [token_unique hText hText' hLongest hLongest'
            hSpelled hSpelled']
      | undecodable hLongest' hDecode =>
          rw [(hLongest.unique hLongest').2] at hSpelled
          exact absurd hDecode hSpelled.decode_ne_error
      | unmatched hNone =>
          exact absurd hLongest.front
            (hNone _ _ hLongest.mem)
  | undecodable hLongest hDecode =>
      cases hRight with
      | token _ hLongest' hSpelled =>
          rw [(hLongest'.unique hLongest).2] at hSpelled
          exact absurd hDecode hSpelled.decode_ne_error
      | undecodable hLongest' hDecode' =>
          have hText := (hLongest.unique hLongest').2
          rcases List.cons.inj hText with ⟨hQuote, hTail⟩
          rw [(List.append_inj' hTail rfl).1, hDecode']
            at hDecode
          cases hDecode
          rfl
      | unmatched hNone =>
          exact absurd hLongest.front
            (hNone _ _ hLongest.mem)
  | unmatched hNone =>
      cases hRight with
      | token _ hLongest _ | undecodable hLongest _ =>
          exact absurd hLongest.front
            (hNone _ _ hLongest.mem)
      | unmatched _ =>
          rfl

/-
  At a character that is no gap, a lexer reads exactly what
  the longest match says.
-/
theorem munch_iff
    {result : Except LexError Scanned}
    (hStart : Text.isGap c = false) :
    Munch c cs result ↔ Scanned.Scans c cs result := by
  constructor
  · intro hMunch
    exact (munch_ofChars hStart cs).unique hMunch
  · rintro rfl
    exact munch_ofChars hStart cs

/-
  A query is cut into its lexemes by longest match, and the
  languages of tokens never compete.  Texts of tokens start
  where no gap is skipped.  At an opening quote, the text up
  to the first equal quote outside of backslash pairs is all
  that belongs to any language.
-/
theorem Lexing.longest_match
    (query : String) :
    (∀ lexing,
        Tiles Munch 0 query.toList lexing ↔
          ofString query = lexing) ∧
      (∀ (k l : TokenKind) (text : List Char),
        text ∈ k.pattern → text ∈ l.pattern → k = l) ∧
      (∀ (k : TokenKind),
        ∀ text ∈ k.pattern,
          ∃ c cs, text = c :: cs ∧ Text.isGap c = false) ∧
      (∀ (q : Quote) (body after : List Char),
        Quoted.Body q.char body →
          ∀ (k : TokenKind),
            ∀ text ∈ k.pattern,
              text <+: q.char :: (body ++ q.char :: after) →
                k = .quoted ∧
                  text = q.char :: (body ++ [q.char])) := by
  refine ⟨?_, ?_, ?_, ?_⟩
  · intro lexing
    rw [← tiles_iff]
    constructor
    · intro hTiles
      exact hTiles.mono fun _ _ _ hStart hMunch =>
        (munch_iff hStart).mp hMunch
    · intro hTiles
      exact hTiles.mono fun _ _ _ hStart hScan =>
        (munch_iff hStart).mpr hScan
  · intro k l text hLeft hRight
    exact TokenKind.pattern_disjoint hLeft hRight
  · intro k text hMem
    exact TokenKind.not_isGap_of_mem_pattern hMem
  · intro q body after hBody k text hMem hFront
    exact TokenKind.eq_literal_of_matches hBody
      (TokenKind.mem_pattern_iff.mp hMem) hFront

/-
  `!=` is longer than `!`, a quoted text ends at the quote
  outside of pairs, and letters without a second equal sign
  are no operator.
-/
theorem Lexing.longest_match_sample :
    Tiles Munch 0 "a!='\\''=le".toList
        ⟨[⟨.bare "a", 0, 1⟩, ⟨.operator "!=", 1, 3⟩,
            ⟨.quoted "'", 3, 7⟩],
          some ⟨7, .unrecognizedInput⟩⟩ ∧
      ∀ (k : TokenKind),
        ∀ text ∈ k.pattern,
          text <+: ['\'', '\\', '\'', '\'', '=', 'l', 'e'] →
            text = ['\'', '\\', '\'', '\''] := by
  rcases longest_match "a!='\\''=le" with
    ⟨hTiles, _, _, hQuoted⟩
  have hLexing :
      ofString "a!='\\''=le" =
        ⟨[⟨.bare "a", 0, 1⟩, ⟨.operator "!=", 1, 3⟩,
            ⟨.quoted "'", 3, 7⟩],
          some ⟨7, .unrecognizedInput⟩⟩ := by
    cbv
  have hBody : Quoted.Body '\'' ['\\', '\''] := .pair '\'' .nil
  refine ⟨(hTiles _).mpr hLexing, ?_⟩
  intro k text hMem hFront
  exact (hQuoted .single ['\\', '\''] ['=', 'l', 'e'] hBody k
    text hMem hFront).2

end FilterQuery
