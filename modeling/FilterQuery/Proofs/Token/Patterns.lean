import FilterQuery.Proofs.Token.Texts
import Mathlib.Computability.Language

/-
  This file defines the texts of tokens as regular languages,
  and proves that no text belongs to two of them.

  Key definitions include:
    * `FilterQuery.Text.oneOf`
    * `FilterQuery.Quoted.pattern`
    * `FilterQuery.TokenKind.pattern`

  Key theorems include:
    * `FilterQuery.Quoted.mem_pattern_iff`
    * `FilterQuery.TokenKind.mem_pattern_iff`
    * `FilterQuery.TokenKind.eq_ofText`
    * `FilterQuery.TokenKind.pattern_disjoint`
    * `FilterQuery.TokenKind.not_isGap_of_mem_pattern`

  The languages are put together from single characters by
  union, concatenation and iteration.
-/

open scoped Computability

------------------------------------------------------------
-- Languages
------------------------------------------------------------

namespace FilterQuery

namespace Text

/- The texts of one character of a class. -/
def oneOf (p : Char → Bool) : Language Char :=
  {cs | ∃ c, p c = true ∧ cs = [c]}

end Text

/-
  A quote, ordinary characters and pairs of a backslash and
  any character, and the same quote again.
-/
def Quoted.pattern (q : Char) : Language Char :=
  {[q]} *
    (Text.oneOf (fun c => c != q && c != '\\') +
      {['\\']} *
        (Text.oneOf (fun c => c != '\n') + {['\n']}))∗ *
    {[q]}

/- The language of a kind of token. -/
def TokenKind.pattern : TokenKind → Language Char
| .openParen => {['(']}
| .closeParen => {[')']}
| .semicolon => {[';']}
| .comma => {[',']}
| .bang => {['!']}
| .operator =>
    {['=']} * (Text.oneOf Char.isAlpha)∗ * {['=']} +
      ({['>']} + {['<']}) * (1 + {['=']}) +
      {['!', '=']}
| .bare => Text.oneOf Text.isPlain * (Text.oneOf Text.isPlain)∗
| .quoted => Quoted.pattern '"' + Quoted.pattern '\''

end FilterQuery

------------------------------------------------------------
-- Membership
------------------------------------------------------------

namespace FilterQuery

namespace Text

variable {c : Char}
variable {cs : List Char}
variable {L : Language Char}

/- A character in front of the texts of a language. -/
theorem mem_cons_iff :
    cs ∈ ({[c]} * L : Language Char) ↔
      ∃ ds ∈ L, cs = c :: ds := by
  rw [Language.mem_mul]
  constructor
  · rintro ⟨front, rfl, ds, hMem, rfl⟩
    exact ⟨ds, hMem, rfl⟩
  · rintro ⟨ds, hMem, rfl⟩
    exact ⟨[c], rfl, ds, hMem, rfl⟩

/- A character behind the texts of a language. -/
theorem mem_snoc_iff :
    cs ∈ (L * {[c]} : Language Char) ↔
      ∃ ds ∈ L, cs = ds ++ [c] := by
  rw [Language.mem_mul]
  constructor
  · rintro ⟨ds, hMem, back, rfl, rfl⟩
    exact ⟨ds, hMem, rfl⟩
  · rintro ⟨ds, hMem, rfl⟩
    exact ⟨ds, hMem, [c], rfl, rfl⟩

/- A text of the language in front of more of its texts. -/
theorem append_mem_kstar
    {ds : List Char}
    (hFront : cs ∈ L)
    (hRest : ds ∈ L∗) :
    cs ++ ds ∈ L∗ := by
  rcases Language.mem_kstar.mp hRest with ⟨texts, rfl, hTexts⟩
  exact Language.mem_kstar.mpr
    ⟨cs :: texts, rfl,
      List.forall_mem_cons.mpr ⟨hFront, hTexts⟩⟩

/-
  What holds of the empty text, and stays true when a text of
  the language is put in front, holds of the iteration.
-/
theorem kstar_induction
    {motive : ∀ cs, cs ∈ L∗ → Prop}
    (nil : motive [] (Language.nil_mem_kstar L))
    (append :
      ∀ cs ds (hFront : cs ∈ L) (hRest : ds ∈ L∗),
        motive ds hRest →
          motive (cs ++ ds) (append_mem_kstar hFront hRest))
    (hMem : cs ∈ L∗) :
    motive cs hMem := by
  rcases Language.mem_kstar.mp hMem with ⟨texts, rfl, hTexts⟩
  induction texts with
  | nil => exact nil
  | cons text texts ih =>
      rcases List.forall_mem_cons.mp hTexts with
        ⟨hFront, hRest⟩
      have hJoin := Language.join_mem_kstar hRest
      exact append text _ hFront hJoin (ih hRest hJoin)

/- The iteration of a class holds runs of its characters. -/
theorem mem_kstar_oneOf_iff
    {p : Char → Bool} :
    cs ∈ (oneOf p)∗ ↔ ∀ c ∈ cs, p c = true := by
  constructor
  · intro hMem
    induction hMem using kstar_induction with
    | nil => exact List.forall_mem_nil _
    | append text ds hText _ ih =>
        rcases hText with ⟨c, hc, rfl⟩
        exact List.forall_mem_cons.mpr ⟨hc, ih⟩
  · intro hRun
    induction cs with
    | nil => exact Language.nil_mem_kstar _
    | cons c cs ih =>
        rw [List.forall_mem_cons] at hRun
        have hFront : [c] ∈ oneOf p := ⟨c, hRun.1, rfl⟩
        exact append_mem_kstar hFront (ih hRun.2)

end Text

namespace Quoted

/- Iteration gives the bodies between two quotes. -/
theorem mem_kstar_iff
    {q : Char}
    {cs : List Char} :
    cs ∈ (Text.oneOf (fun c => c != q && c != '\\') +
        {['\\']} *
          (Text.oneOf (fun c => c != '\n') + {['\n']}))∗ ↔
      Body q cs := by
  constructor
  · intro hMem
    induction hMem using Text.kstar_induction with
    | nil => exact .nil
    | append text ds hText _ ih =>
        rcases hText with ⟨c, hc, rfl⟩ | hPair
        · simp only [Bool.and_eq_true, bne_iff_ne] at hc
          exact .ordinary hc.1 hc.2 ih
        · rcases Text.mem_cons_iff.mp hPair with
            ⟨_, ⟨c, _, rfl⟩ | rfl, rfl⟩
          · exact .pair c ih
          · exact .pair '\n' ih
  · intro hBody
    induction hBody with
    | nil => exact Language.nil_mem_kstar _
    | @ordinary c cs hQuote hBackslash _ ih =>
        refine Text.append_mem_kstar
          (Or.inl ⟨c, ?_, rfl⟩) ih
        simp only [Bool.and_eq_true, bne_iff_ne]
        exact ⟨hQuote, hBackslash⟩
    | @pair c cs _ ih =>
        -- A line break is not in the class of the dot.
        have hAny :
            [c] ∈ Text.oneOf (fun c => c != '\n') +
              {['\n']} := by
          by_cases hBreak : c = '\n'
          · subst hBreak
            exact Or.inr rfl
          · exact Or.inl ⟨c, bne_iff_ne.mpr hBreak, rfl⟩
        exact Text.append_mem_kstar
          (Or.inr (Text.mem_cons_iff.mpr ⟨[c], hAny, rfl⟩)) ih

/- A quoted text is a body between two quotes. -/
theorem mem_pattern_iff
    {q : Char}
    {cs : List Char} :
    cs ∈ pattern q ↔
      ∃ body, Body q body ∧ cs = q :: (body ++ [q]) := by
  unfold pattern
  rw [Text.mem_snoc_iff]
  constructor
  · rintro ⟨_, hMem, rfl⟩
    rcases Text.mem_cons_iff.mp hMem with ⟨body, hBody, rfl⟩
    exact ⟨body, mem_kstar_iff.mp hBody, rfl⟩
  · rintro ⟨body, hBody, rfl⟩
    exact ⟨q :: body,
      Text.mem_cons_iff.mpr
        ⟨body, mem_kstar_iff.mpr hBody, rfl⟩, rfl⟩

end Quoted

namespace TokenKind

/- The pattern of operators holds the spellings of symbols. -/
theorem mem_pattern_operator_iff
    {cs : List Char} :
    cs ∈ pattern .operator ↔ Symbol.Spelling cs := by
  constructor
  · rintro ((hNamed | hOrder) | hNotEqual)
    · rcases Text.mem_snoc_iff.mp hNamed with ⟨_, hMem, rfl⟩
      rcases Text.mem_cons_iff.mp hMem with
        ⟨letters, hLetters, rfl⟩
      exact .named (Text.mem_kstar_oneOf_iff.mp hLetters)
    · rcases Language.mem_mul.mp hOrder with
        ⟨_, rfl | rfl, _, rfl | rfl, rfl⟩
      · exact .order (Or.inr rfl)
      · exact .orderEqual (Or.inr rfl)
      · exact .order (Or.inl rfl)
      · exact .orderEqual (Or.inl rfl)
    · cases hNotEqual
      exact .notEqual
  · intro hSpelling
    cases hSpelling with
    | @named letters hLetters =>
        refine Or.inl (Or.inl (Text.mem_snoc_iff.mpr
          ⟨'=' :: letters, Text.mem_cons_iff.mpr
            ⟨letters, ?_, rfl⟩, rfl⟩))
        exact Text.mem_kstar_oneOf_iff.mpr hLetters
    | @order bracket hBracket =>
        refine Or.inl (Or.inr (Language.mem_mul.mpr
          ⟨[bracket], ?_, [], Or.inl rfl, rfl⟩))
        rcases hBracket with rfl | rfl
        · exact Or.inr rfl
        · exact Or.inl rfl
    | @orderEqual bracket hBracket =>
        refine Or.inl (Or.inr (Language.mem_mul.mpr
          ⟨[bracket], ?_, ['='], Or.inr rfl, rfl⟩))
        rcases hBracket with rfl | rfl
        · exact Or.inr rfl
        · exact Or.inl rfl
    | notEqual =>
        exact Or.inr rfl

/- The languages hold the texts of the kinds. -/
theorem mem_pattern_iff
    {k : TokenKind}
    {cs : List Char} :
    cs ∈ k.pattern ↔ k.Matches cs := by
  cases k with
  | openParen | closeParen | semicolon | comma | bang =>
      exact Iff.rfl
  | operator =>
      rw [mem_pattern_operator_iff, matches_operator_iff]
  | bare =>
      constructor
      · intro hMem
        rcases Language.mem_mul.mp hMem with
          ⟨_, ⟨c, hc, rfl⟩, ds, hRun, rfl⟩
        refine ⟨List.cons_ne_nil _ _, ?_⟩
        exact List.forall_mem_cons.mpr
          ⟨hc, Text.mem_kstar_oneOf_iff.mp hRun⟩
      · rintro ⟨hSome, hPlain⟩
        cases cs with
        | nil => exact absurd rfl hSome
        | cons c cs =>
            rw [List.forall_mem_cons] at hPlain
            have hFront : [c] ∈ Text.oneOf Text.isPlain :=
              ⟨c, hPlain.1, rfl⟩
            exact Language.append_mem_mul hFront
              (Text.mem_kstar_oneOf_iff.mpr hPlain.2)
  | quoted =>
      constructor
      · rintro (hDouble | hSingle)
        · exact ⟨.double, Quoted.mem_pattern_iff.mp hDouble⟩
        · exact ⟨.single, Quoted.mem_pattern_iff.mp hSingle⟩
      · rintro ⟨q, hBody⟩
        cases q with
        | double =>
            exact Or.inl (Quoted.mem_pattern_iff.mpr hBody)
        | single =>
            exact Or.inr (Quoted.mem_pattern_iff.mpr hBody)

end TokenKind

end FilterQuery

------------------------------------------------------------
-- Kinds Of Texts
------------------------------------------------------------

namespace FilterQuery

namespace TokenKind

/-
  The kind of token that starts with a character, if it is
  not a lone exclamation mark.
-/
def ofHead : Char → TokenKind
| '(' => .openParen
| ')' => .closeParen
| ';' => .semicolon
| ',' => .comma
| '!' | '=' | '<' | '>' => .operator
| '"' | '\'' => .quoted
| _ => .bare

/- The kind of token that a text could be read as. -/
def ofText : List Char → TokenKind
| ['!'] => .bang
| c :: _ => ofHead c
| [] => .bare

/- Plain characters start bare values. -/
theorem ofHead_of_isPlain
    {c : Char}
    (hPlain : Text.isPlain c = true) :
    ofHead c = .bare := by
  unfold ofHead
  split
  case h_11 => rfl
  all_goals
    exact absurd hPlain (by decide)

/- The first character decides, unless it is `!`. -/
theorem ofText_cons
    {c : Char}
    (hBang : c ≠ '!')
    (cs : List Char) :
    ofText (c :: cs) = ofHead c := by
  unfold ofText
  split
  · rename_i hText
    cases hText
    exact absurd rfl hBang
  · rename_i hText
    cases hText
    rfl
  · rename_i hText
    cases hText

/- More text behind a text is of the same kind. -/
theorem ofText_append
    {text : List Char}
    (hSome : text ≠ [])
    (hBang : text ≠ ['!'])
    (more : List Char) :
    ofText (text ++ more) = ofText text := by
  cases text with
  | nil => exact absurd rfl hSome
  | cons c cs =>
      by_cases hHead : c = '!'
      · subst hHead
        cases cs with
        | nil => exact absurd rfl hBang
        | cons d ds => rfl
      · rw [List.cons_append, ofText_cons hHead,
          ofText_cons hHead]

/- A text belongs to no other kind. -/
theorem eq_ofText
    {k : TokenKind}
    {text : List Char}
    (hMatches : k.Matches text) :
    k = ofText text := by
  cases k with
  | openParen | closeParen | semicolon | comma | bang =>
      cases hMatches
      rfl
  | operator =>
      cases matches_operator_iff.mp hMatches with
      | named _ | notEqual =>
          rfl
      | order hBracket | orderEqual hBracket =>
          rcases hBracket with rfl | rfl <;> rfl
  | bare =>
      rcases hMatches with ⟨hSome, hPlain⟩
      cases text with
      | nil =>
          exact absurd rfl hSome
      | cons c cs =>
          have hc := hPlain c List.mem_cons_self
          have hBang : c ≠ '!' := by
            rintro rfl
            cases hc
          rw [ofText_cons hBang, ofHead_of_isPlain hc]
  | quoted =>
      rcases hMatches with ⟨q, body, _, rfl⟩
      cases q <;> rfl

/- No text belongs to two languages. -/
theorem pattern_disjoint
    {k l : TokenKind}
    {cs : List Char}
    (hLeft : cs ∈ k.pattern)
    (hRight : cs ∈ l.pattern) :
    k = l := by
  rw [eq_ofText (mem_pattern_iff.mp hLeft),
    eq_ofText (mem_pattern_iff.mp hRight)]

/- The texts of tokens are not empty and start with no gap. -/
theorem not_isGap_of_mem_pattern
    {k : TokenKind}
    {text : List Char}
    (hMem : text ∈ k.pattern) :
    ∃ c cs, text = c :: cs ∧ Text.isGap c = false := by
  have hMatches := mem_pattern_iff.mp hMem
  cases k with
  | openParen | closeParen | semicolon | comma | bang =>
      cases hMatches
      exact ⟨_, [], rfl, by decide⟩
  | operator =>
      cases matches_operator_iff.mp hMatches with
      | named _ | notEqual =>
          exact ⟨_, _, rfl, by decide⟩
      | order hBracket | orderEqual hBracket =>
          refine ⟨_, _, rfl, ?_⟩
          rcases hBracket with rfl | rfl <;> decide
  | bare =>
      rcases hMatches with ⟨hSome, hPlain⟩
      rcases List.exists_cons_of_ne_nil hSome with
        ⟨c, cs, rfl⟩
      have hc := hPlain c List.mem_cons_self
      rw [Text.isPlain, Bool.and_eq_true,
        Bool.not_eq_true'] at hc
      exact ⟨c, cs, rfl, hc.1⟩
  | quoted =>
      rcases hMatches with ⟨q, body, _, rfl⟩
      refine ⟨q.char, _, rfl, ?_⟩
      cases q <;> decide

end TokenKind

end FilterQuery
