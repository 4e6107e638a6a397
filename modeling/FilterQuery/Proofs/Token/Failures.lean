import FilterQuery.Proofs.Token.Lossless
import Mathlib

/-
  This file proves where no token can be read, and for which
  reason.

  Key definitions include:
    * `FilterQuery.Quoted.Clean`
    * `FilterQuery.LexError.Arises`
    * `FilterQuery.Lexer.Arrives`

  Key theorems include:
    * `FilterQuery.Quoted.Body.clean_or_invalid`
    * `FilterQuery.Scanned.ofChars_eq_error_iff`
    * `FilterQuery.Lexer.Arrives.remains`
    * `FilterQuery.Lexing.failure_classified`

  A lexer fails at an equal sign that starts no symbol, at a
  quote that is never closed, and at a quoted text with a
  backslash before a character that needs none.
-/

------------------------------------------------------------
-- Escapes
------------------------------------------------------------

namespace FilterQuery

namespace Quoted

/-
  Text in which each backslash that is not protected itself
  protects a character that it may protect.
-/
inductive Clean : List Char → Prop
  | nil : Clean []
  | ordinary
      {c : Char}
      {cs : List Char}
      (hBackslash : c ≠ '\\')
      (hRest : Clean cs) :
      Clean (c :: cs)
  | escape
      {c : Char}
      {cs : List Char}
      (hEscape : Protectable c)
      (hRest : Clean cs) :
      Clean ('\\' :: c :: cs)

/- Decoding goes on behind clean text. -/
theorem Clean.decode_append
    {cs : List Char}
    (hClean : Clean cs) :
    ∃ value,
      ∀ ds,
        decode (cs ++ ds) = (decode ds).map (value ++ ·) := by
  induction hClean with
  | nil =>
      refine ⟨[], fun ds => ?_⟩
      rw [List.nil_append]
      cases decode ds <;> rfl
  | @ordinary c cs hBackslash _ ih =>
      rcases ih with ⟨value, hValue⟩
      refine ⟨c :: value, fun ds => ?_⟩
      rw [List.cons_append, decode_cons hBackslash, hValue]
      cases decode ds <;> rfl
  | @escape c cs hEscape _ ih =>
      rcases ih with ⟨value, hValue⟩
      refine ⟨c :: value, fun ds => ?_⟩
      rw [List.cons_append, List.cons_append, decode,
        if_pos rfl, if_pos (isEscapable_iff.mpr hEscape),
        hValue]
      cases decode ds <;> rfl

/- Clean text has a value. -/
theorem Clean.decode_eq_ok
    {cs : List Char}
    (hClean : Clean cs) :
    ∃ value, decode cs = .ok value := by
  rcases hClean.decode_append with ⟨value, hValue⟩
  have hAll := hValue []
  rw [List.append_nil] at hAll
  exact ⟨value ++ [], hAll⟩

/- The first backslash that protects nothing is the error. -/
theorem Clean.decode_eq_invalidEscape
    {before after : List Char}
    {c : Char}
    (hClean : Clean before)
    (hNot : ¬ Protectable c) :
    decode (before ++ '\\' :: c :: after) =
      .error (.invalidEscape c) := by
  rcases hClean.decode_append with ⟨value, hValue⟩
  have hEscape : ¬ isEscapable c = true :=
    fun h => hNot (isEscapable_iff.mp h)
  rw [hValue, decode, if_pos rfl, if_neg hEscape]
  rfl

/-
  A body is clean, or has a first backslash before a
  character that needs none.  No backslash is left over at
  its end.
-/
theorem Body.clean_or_invalid
    {q : Char}
    {body : List Char}
    (hBody : Body q body) :
    Clean body ∨
      ∃ before c after,
        body = before ++ '\\' :: c :: after ∧
          Clean before ∧ ¬ Protectable c := by
  induction hBody with
  | nil =>
      exact Or.inl .nil
  | @ordinary c cs _ hBackslash _ ih =>
      rcases ih with
        hClean | ⟨before, d, after, rfl, hClean, hNot⟩
      · exact Or.inl (.ordinary hBackslash hClean)
      · exact Or.inr
          ⟨c :: before, d, after, rfl,
            .ordinary hBackslash hClean, hNot⟩
  | @pair c cs _ ih =>
      by_cases hEscape : Protectable c
      · rcases ih with
          hClean | ⟨before, d, after, rfl, hClean, hNot⟩
        · exact Or.inl (.escape hEscape hClean)
        · exact Or.inr
            ⟨'\\' :: c :: before, d, after, rfl,
              .escape hEscape hClean, hNot⟩
      · exact Or.inr ⟨[], c, cs, rfl, .nil, hEscape⟩

/- The last backslash of a body protects a character. -/
theorem Body.decode_ne_unterminatedQuote
    {q : Char}
    {body : List Char}
    (hBody : Body q body) :
    decode body ≠ .error .unterminatedQuote := by
  intro hDecode
  rcases hBody.clean_or_invalid with
    hClean | ⟨before, c, after, rfl, hClean, hNot⟩
  · rcases hClean.decode_eq_ok with ⟨value, hValue⟩
    rw [hValue] at hDecode
    cases hDecode
  · rw [hClean.decode_eq_invalidEscape hNot] at hDecode
    cases hDecode

end Quoted

end FilterQuery

------------------------------------------------------------
-- Texts That Are No Tokens
------------------------------------------------------------

namespace FilterQuery

/-
  What is wrong at a character with the text behind it: an
  equal sign is not followed by letters and another equal
  sign; no equal quote is found behind a quote, where each
  backslash takes the character after it along; or a quoted
  text has a backslash before a character that needs none,
  and only good ones before that.
-/
inductive LexError.Arises :
    Char → List Char → LexError → Prop
  | unrecognizedInput
      {cs : List Char}
      (hNot :
        ¬ ∃ letters rest,
          (∀ c ∈ letters, c.isAlpha = true) ∧
            cs = letters ++ '=' :: rest) :
      LexError.Arises '=' cs .unrecognizedInput
  | unterminatedQuote
      {q : Quote}
      {cs : List Char}
      (hOpen :
        ¬ ∃ body rest,
          Quoted.Body q.char body ∧
            cs = body ++ q.char :: rest) :
      LexError.Arises q.char cs .unterminatedQuote
  | invalidEscape
      {q : Quote}
      {before after rest : List Char}
      {c : Char}
      (hBody :
        Quoted.Body q.char (before ++ '\\' :: c :: after))
      (hClean : Quoted.Clean before)
      (hNot : ¬ Quoted.Protectable c) :
      LexError.Arises q.char
        (before ++ '\\' :: c :: after ++ q.char :: rest)
        (.invalidEscape c)

namespace Scanned

variable {cs : List Char}
variable {cause : LexError}

/- An equal sign fails without letters and an equal sign. -/
theorem named_eq_error_iff :
    (named cs).mapError (LexError.reported '=') = .error cause ↔
      LexError.Arises '=' cs cause := by
  constructor
  · intro hRead
    unfold named at hRead
    split at hRead
    · cases hRead
    · rename_i hDrop
      cases hRead
      refine .unrecognizedInput ?_
      rintro ⟨letters, rest, hLetters, rfl⟩
      have hStop :
          ∀ c ∈ ('=' :: rest).head?, c.isAlpha = false := by
        intro c hc
        cases hc
        decide
      exact hDrop rest (Text.dropWhile_append hLetters hStop)
  · intro hArises
    generalize hHead : '=' = c at hArises
    cases hArises with
    | unrecognizedInput hNot =>
        unfold named
        split
        · rename_i rest hDrop
          have hSplit :=
            List.takeWhile_append_dropWhile
              (p := Char.isAlpha) (l := cs)
          rw [hDrop] at hSplit
          exact absurd
            ⟨_, rest, List.all_eq_true.mp List.all_takeWhile,
              hSplit.symm⟩
            hNot
        · rfl
    | @unterminatedQuote q _ _ | @invalidEscape q _ _ _ _ _ =>
        cases q <;> cases hHead

/- A quoted text fails if it is open or not clean. -/
theorem quoted_eq_error_iff
    {q : Quote} :
    (quoted q cs).mapError (LexError.reported q.char) =
        .error cause ↔
      LexError.Arises q.char cs cause := by
  constructor
  · intro hRead
    unfold quoted at hRead
    split at hRead
    · rename_i hOpen
      cases hRead
      rw [LexError.reported_quote]
      refine .unterminatedQuote ?_
      rintro ⟨body, rest, hBody, rfl⟩
      rw [hBody.splitClosing q.char_ne_backslash] at hOpen
      cases hOpen
    · rename_i body rest hSplit
      rcases (Quoted.splitClosing_eq_some_iff
        q.char_ne_backslash).mp hSplit with ⟨hBody, rfl⟩
      rcases hBody.clean_or_invalid with
        hClean | ⟨before, c, after, rfl, hClean, hNot⟩
      · rcases hClean.decode_eq_ok with ⟨value, hValue⟩
        rw [hValue] at hRead
        cases hRead
      · rw [hClean.decode_eq_invalidEscape hNot] at hRead
        cases hRead
        rw [LexError.reported_invalidEscape]
        exact .invalidEscape hBody hClean hNot
  · intro hArises
    generalize hHead : q.char = c at hArises
    cases hArises with
    | unrecognizedInput _ =>
        cases q <;> cases hHead
    | @unterminatedQuote r _ hOpen =>
        have hNone : Quoted.splitClosing q.char cs = none := by
          apply Option.eq_none_iff_forall_ne_some.mpr
          rintro ⟨body, rest⟩ hSplit
          rw [hHead] at hSplit
          exact hOpen
            ⟨body, rest, (Quoted.splitClosing_eq_some_iff
              r.char_ne_backslash).mp hSplit⟩
        simp only [quoted, hNone, Except.mapError,
          LexError.reported_quote]
    | @invalidEscape r before after rest c hBody hClean hNot =>
        have hSplit :=
          hBody.splitClosing r.char_ne_backslash rest
        rw [← hHead] at hSplit ⊢
        simp only [quoted, hSplit,
          hClean.decode_eq_invalidEscape hNot, Except.map,
          Except.mapError, LexError.reported_invalidEscape]

/-
  No token can be read at a character exactly for one of the
  three reasons.
-/
theorem ofChars_eq_error_iff
    {c : Char} :
    ofChars c cs = .error cause ↔
      LexError.Arises c cs cause := by
  constructor
  · intro hRead
    unfold ofChars scan at hRead
    split at hRead
    case h_8 =>
      exact named_eq_error_iff.mp hRead
    case h_9 | h_10 =>
      exact quoted_eq_error_iff.mp hRead
    all_goals
      cases hRead
  · intro hArises
    cases hArises with
    | unrecognizedInput hNot =>
        exact named_eq_error_iff.mpr (.unrecognizedInput hNot)
    | @unterminatedQuote q _ hOpen =>
        have hRead :=
          quoted_eq_error_iff.mpr
            (LexError.Arises.unterminatedQuote hOpen)
        cases q <;> exact hRead
    | @invalidEscape q _ _ rest _ hBody hClean hNot =>
        have hRead :=
          quoted_eq_error_iff.mpr
            (@LexError.Arises.invalidEscape q _ _ rest _
              hBody hClean hNot)
        cases q <;> exact hRead

/- A clean body between two quotes is read as its value. -/
theorem ofChars_of_clean
    {q : Quote}
    {body : List Char}
    (hBody : Quoted.Body q.char body)
    (hClean : Quoted.Clean body)
    (rest : List Char) :
    ∃ value,
      Quoted.decode body = .ok value ∧
        ofChars q.char (body ++ q.char :: rest) =
          .ok
            ⟨.quoted (String.ofList value),
              q.char :: (body ++ [q.char]), rest⟩ := by
  rcases hClean.decode_eq_ok with ⟨value, hValue⟩
  have hWhole :
      Whole
        ⟨.quoted (String.ofList value),
          q.char :: (body ++ [q.char]), rest⟩ :=
    ⟨.quoted (hBody.encodes hValue), trivial⟩
  exact ⟨value, hValue, hWhole.ofChars (by simp)⟩

end Scanned

end FilterQuery

------------------------------------------------------------
-- Token Starts
------------------------------------------------------------

namespace FilterQuery

namespace Lexer

variable {query : String}

/-
  After that many lexemes and the gap behind them, the lexer
  of a query is at the place, before the text.
-/
def Arrives
    (query : String)
    (count place : Nat)
    (text : List Char) : Prop :=
  ((ofString query).after count).skipGap = ⟨text, place⟩

/- A lexer that has text before it is at a place of the query. -/
def Within
    (query : String)
    (l : Lexer) : Prop :=
  l.rest ≠ [] → Text.Remains query l.offset l.rest

/- Skipping gaps stays within the query. -/
theorem Within.skipGap
    {l : Lexer}
    (hWithin : l.Within query) :
    l.skipGap.Within query := by
  intro hSome
  have hRest : l.rest ≠ [] := by
    intro hNil
    apply hSome
    simp [Lexer.skipGap, hNil]
  have hRemains := hWithin hRest
  rw [← List.takeWhile_append_dropWhile (p := Text.isGap)
    (l := l.rest)] at hRemains
  exact hRemains.skip

/- Reading a lexeme stays within the query. -/
theorem Within.next
    {l : Lexer}
    (hWithin : l.Within query) :
    l.next.2.Within query := by
  have hSkip := hWithin.skipGap
  unfold Lexer.next
  split
  · exact fun hSome => absurd rfl hSome
  · rename_i c cs hRest
    split
    · exact fun hSome => absurd rfl hSome
    · rename_i s hScan
      have hRemains := hSkip (by simp [hRest])
      rw [hRest, Scanned.eq_append_of_ofChars hScan]
        at hRemains
      exact fun _ => hRemains.skip

/- Reading a number of lexemes stays within the query. -/
theorem Within.after
    {l : Lexer}
    (hWithin : l.Within query)
    (count : Nat) :
    (Lexer.after count l).Within query := by
  induction count generalizing l with
  | zero => exact hWithin
  | succ count ih => exact ih hWithin.next

/- The text at which a lexer arrives remains of the query. -/
theorem Arrives.remains
    {count place : Nat}
    {c : Char}
    {cs : List Char}
    (hArrives : Arrives query count place (c :: cs)) :
    Text.Remains query place (c :: cs) := by
  have hStart : (ofString query).Within query :=
    fun _ => Text.Remains.start query
  have hThere := (hStart.after count).skipGap
  rw [hArrives] at hThere
  exact hThere (List.cons_ne_nil _ _)

/- What a lexer yields depends on the text it arrives at. -/
theorem Arrives.next_eq
    {count place : Nat}
    {c : Char}
    {cs : List Char}
    (hArrives : Arrives query count place (c :: cs)) :
    ((ofString query).after count).next.1 =
      match Scanned.ofChars c cs with
      | .error cause => some (.error ⟨place, cause⟩)
      | .ok s =>
          some (.ok ⟨s.token, place,
            place + Text.byteLength s.text⟩) := by
  have hThere :
      ((ofString query).after count).skipGap =
        ⟨c :: cs, place⟩ := hArrives
  simp only [Lexer.next, hThere]
  cases Scanned.ofChars c cs <;> rfl

/- A failure is yielded where a reason for it arises. -/
theorem next_eq_error_iff
    {count : Nat}
    {failure : LexFailure} :
    ((ofString query).after count).next.1 =
        some (.error failure) ↔
      ∃ c cs,
        Arrives query count failure.position (c :: cs) ∧
          failure.cause.Arises c cs := by
  constructor
  · intro hNext
    generalize hThere :
        ((ofString query).after count).skipGap = there
    rcases there with ⟨_ | ⟨c, cs⟩, place⟩
    · simp [Lexer.next, hThere] at hNext
    · have hArrives :
          Arrives query count place (c :: cs) := hThere
      rw [hArrives.next_eq] at hNext
      split at hNext
      · rename_i cause hScan
        cases hNext
        exact ⟨c, cs, hArrives,
          Scanned.ofChars_eq_error_iff.mp hScan⟩
      · cases hNext
  · rintro ⟨c, cs, hArrives, hArises⟩
    rw [hArrives.next_eq,
      Scanned.ofChars_eq_error_iff.mpr hArises]

end Lexer

namespace Lexing

/- The failure of a query is yielded after its lexemes. -/
theorem failure_eq_some_iff
    {query : String}
    {failure : LexFailure} :
    (ofString query).failure = some failure ↔
      ∃ count,
        ((Lexer.ofString query).after count).next.1 =
          some (.error failure) := by
  have hYields :
      ∀ count,
        ((Lexer.ofString query).after count).next.1 =
          (ofString query).items[count]? :=
    (tiles_iff.mpr rfl).yields
  have hItems :
      (ofString query).failure = some failure ↔
        .error failure ∈ (ofString query).items := by
    simp [items]
  simp only [hYields, hItems, List.mem_iff_getElem?]

end Lexing

end FilterQuery

------------------------------------------------------------
-- Reasons Of Failures
------------------------------------------------------------

namespace FilterQuery

/-
  What stands between the quotes of a literal is a slice of
  it, from its second byte up to its last.
-/
theorem Quoted.slice_body
    (q : Quote)
    (body : List Char) :
    Text.Slice (String.ofList (q.char :: (body ++ [q.char])))
      1
      ((String.ofList
        (q.char :: (body ++ [q.char]))).utf8ByteSize - 1)
      (String.ofList body) := by
  have hQuote : Text.byteLength [q.char] = 1 := by
    cases q <;> rfl
  have hSize :
      (String.ofList
          (q.char :: (body ++ [q.char]))).utf8ByteSize - 1 =
        0 + Text.byteLength [q.char] +
          Text.byteLength body := by
    rw [Text.utf8ByteSize_ofList, ← List.singleton_append,
      Text.byteLength_append, Text.byteLength_append, hQuote]
    omega
  have hAll :
      Text.Remains
        (String.ofList (q.char :: (body ++ [q.char]))) 0
        ([q.char] ++ (body ++ [q.char])) := by
    refine ⟨[], ?_, rfl⟩
    rw [String.toList_ofList]
    rfl
  have hBody := hAll.skip.slice
  rw [← hSize, hQuote] at hBody
  exact hBody

namespace Lexing

/-
  A query fails at a place exactly if its lexer arrives there
  and a reason for the failure arises.  The text from there
  on is a slice of the query.  A closed literal without bad
  backslashes is read as a lexeme; none has a backslash left
  over at its end; and its text, and that between its quotes,
  are slices.
-/
theorem failure_classified
    (query : String) :
    (∀ place cause,
        (ofString query).failure = some ⟨place, cause⟩ ↔
          ∃ count c cs,
            Lexer.Arrives query count place (c :: cs) ∧
              cause.Arises c cs) ∧
      (∀ count place c cs,
        Lexer.Arrives query count place (c :: cs) →
          Text.Slice query place query.utf8ByteSize
            (String.ofList (c :: cs))) ∧
      ∀ count place (q : Quote) body rest,
        Lexer.Arrives query count place
            (q.char :: (body ++ q.char :: rest)) →
          Quoted.Body q.char body →
            let literal :=
              String.ofList (q.char :: (body ++ [q.char]))
            let stop := place + literal.utf8ByteSize
            (Quoted.Clean body →
                ∃ value,
                  Quoted.decode body = .ok value ∧
                    ((Lexer.ofString query).after
                        count).next.1 =
                      some
                        (.ok
                          ⟨.quoted (String.ofList value),
                            place, stop⟩)) ∧
              Quoted.decode body ≠
                .error .unterminatedQuote ∧
              Text.Slice query place stop literal ∧
              Text.Slice literal 1 (literal.utf8ByteSize - 1)
                (String.ofList body) := by
  refine ⟨?_, ?_, ?_⟩
  · intro place cause
    rw [failure_eq_some_iff]
    exact exists_congr fun count => Lexer.next_eq_error_iff
  · intro count place c cs hArrives
    have hRemains := hArrives.remains
    rw [← List.append_nil (c :: cs)] at hRemains
    rw [← hRemains.skip.eq_size]
    exact hRemains.slice
  · intro count place q body rest hArrives hBody literal stop
    have hSize :
        literal.utf8ByteSize =
          Text.byteLength (q.char :: (body ++ [q.char])) :=
      Text.utf8ByteSize_ofList _
    refine ⟨?_, hBody.decode_ne_unterminatedQuote, ?_,
      Quoted.slice_body q body⟩
    · intro hClean
      rcases Scanned.ofChars_of_clean hBody hClean rest with
        ⟨value, hValue, hScan⟩
      refine ⟨value, hValue, ?_⟩
      rw [hArrives.next_eq, hScan]
      simp only [stop, hSize]
    · have hRemains :
          Text.Remains query place
            (q.char :: (body ++ [q.char]) ++ rest) := by
        simpa using hArrives.remains
      simp only [stop, hSize]
      exact hRemains.slice

/-
  The second literal is open, whatever its escapes are.  In
  the first one the backslash protects a quote.
-/
theorem failure_classified_sample :
    (∃ count c cs,
        Lexer.Arrives "'\\''==\"a\\q" count 6 (c :: cs) ∧
          LexError.unterminatedQuote.Arises c cs ∧
          Text.Slice "'\\''==\"a\\q" 6 10
            (String.ofList (c :: cs))) ∧
      (∃ value,
        Quoted.decode ['\\', '\''] = .ok value ∧
          ((Lexer.ofString "'\\''==\"a\\q").after 0).next.1 =
            some
              (.ok
                ⟨.quoted (String.ofList value), 0, 4⟩)) ∧
      Text.Slice "'\\''" 1 3 "\\'" := by
  rcases failure_classified "'\\''==\"a\\q" with
    ⟨hFailure, hRest, hLiteral⟩
  have hOpen :
      (ofString "'\\''==\"a\\q").failure =
        some ⟨6, .unterminatedQuote⟩ := by
    cbv
  have hArrives :
      Lexer.Arrives "'\\''==\"a\\q" 0 0
        (Quote.single.char ::
          (['\\', '\''] ++
            Quote.single.char ::
              ['=', '=', '"', 'a', '\\', 'q'])) := by
    rfl
  have hBody :
      Quoted.Body Quote.single.char ['\\', '\''] :=
    .pair '\'' .nil
  have hClean : Quoted.Clean ['\\', '\''] :=
    .escape (Or.inr (Or.inl rfl)) .nil
  rcases (hFailure 6 .unterminatedQuote).mp hOpen with
    ⟨count, c, cs, hThere, hArises⟩
  rcases hLiteral 0 0 .single _ _ hArrives hBody with
    ⟨hRead, _, _, hInner⟩
  exact ⟨⟨count, c, cs, hThere, hArises,
      hRest count 6 c cs hThere⟩,
    hRead hClean, hInner⟩

end Lexing

end FilterQuery
