import LinearSystem.Proofs.Equation.Comparison
import LinearSystem.Proofs.Lexical.LineEnds
import LinearSystem.Proofs.Lexical.Refusal
import LinearSystem.Proofs.Lexical.Stream
/-!
Sources with line ends of any style.

A line end moves a cursor to the next line whatever it is made of, so a source and the same source
with unified line ends are at the same place all along, but for the bytes. They have the same tokens
but for bytes, and are parsed alike (`Source.parse_unifyLineEnds`).
-/
namespace LinearSystem

open Text

/-- A token without the bytes that it stands at. -/
def Token.withoutBytes (token : Token) : Token := { token with start := 0, stop := 0 }

/-- Refusals at one place, the second of the text with unified line ends. -/
structure LexicalError.Unified (error error' : LexicalError) : Prop where
  location : error.place.location = error'.place.location
  cause : error'.cause = error.cause.unify

/-- Refusals of one stage at one place with one message, unless the first message names a carriage
return and the second a line feed instead. -/
structure Diagnostic.Unified (refusal refusal' : Diagnostic) : Prop where
  stage : refusal.stage = refusal'.stage
  location : refusal.location = refusal'.location
  message : refusal.message = refusal'.message ∨ refusal.stage = .lexical ∧
    refusal.message = (LexicalCause.expectedDigit (some '\r')).message ∧
    refusal'.message = (LexicalCause.expectedDigit (some '\n')).message

/-! ### Layout -/

theorem skipLayout_unify {cursor cursor' : Cursor} (same : cursor.location = cursor'.location)
    (text : List Char) :
    (skipLayout cursor text).1.location = (skipLayout cursor' (unifyLineEnds text)).1.location ∧
      (skipLayout cursor' (unifyLineEnds text)).2 = unifyLineEnds (skipLayout cursor text).2 := by
  fun_induction skipLayout cursor text generalizing cursor' with
  | case1 => exact ⟨same, rfl⟩
  | case2 cursor rest ih =>
    -- Two characters become one: only the offsets tell the difference.
    rw [unifyLineEnds, skipLayout]
    exact ih (by simp [Cursor.nextLine, same])
  | case3 cursor rest noFeed ih =>
    rw [unifyLineEnds_return noFeed, skipLayout]
    exact ih (by simp [Cursor.nextLine, same])
  | case4 cursor rest ih =>
    rw [unifyLineEnds_cons (by decide), skipLayout]
    exact ih (by simp [Cursor.nextLine, same])
  | case5 cursor c rest noBoth noReturn noFeed blank ih =>
    rw [unifyLineEnds_cons noReturn, skipLayout_blank cursor' blank]
    exact ih (by simp [Cursor.past, same])
  | case6 cursor c rest noBoth noReturn noFeed noBlank =>
    have noLayout : isLayout c = false := by simp_all [isLayout]
    rw [unifyLineEnds_cons noReturn, skipLayout_of_isLayout_eq_false cursor' noLayout]
    exact ⟨same, rfl⟩

/-! ### Tokens -/

namespace Token

/-- The tokens at the fronts of two texts are the same but for the bytes, and so is what follows. -/
structure SameFront (front front' : Token × Cursor × List Char) : Prop where
  token : front.1.withoutBytes = front'.1.withoutBytes
  location : front.2.1.location = front'.2.1.location
  rest : front'.2.2 = unifyLineEnds front.2.2

theorem read_unify {cursor cursor' : Cursor} (same : cursor.location = cursor'.location)
    (text : List Char) :
    Corresponds LexicalError.Unified SameFront (read cursor text)
      (read cursor' (unifyLineEnds text)) := by
  obtain ⟨place, left⟩ := skipLayout_unify same text
  have halts : Halts isLayout (skipLayout cursor text).2 := by
    rw [skipLayout_eq]
    exact (span_iff.mp ⟨rfl, rfl⟩).2.2
  unfold read
  generalize skipLayout cursor text = skipped at place left halts ⊢
  generalize skipLayout cursor' (unifyLineEnds text) = skipped' at place left ⊢
  obtain ⟨here, text⟩ := skipped
  obtain ⟨here', text'⟩ := skipped'
  dsimp only at place left halts ⊢
  subst left
  cases text with
  | nil => exact .ok ⟨by simp [withoutBytes, unlinked, place], place, rfl⟩
  | cons first rest =>
    -- After layout comes no carriage return.
    have noReturn : first ≠ '\r' := by
      rintro rfl
      simp [isLayout] at halts
    rw [unifyLineEnds_cons noReturn]
    dsimp only
    have reads := Lexeme.read_unify first rest
    cases lexemeRead : Lexeme.read first rest with
    | error refusal =>
      rw [lexemeRead] at reads
      rw [reads]
      refine .error ⟨?_, rfl⟩
      -- The place of a refusal is in both texts, so both columns are as far on.
      have bound := Lexeme.after_le_of_read lexemeRead
      have bound' := Lexeme.after_le_of_read reads
      simp only [Refusal.unify] at bound' ⊢
      simp only [Cursor.past, List.length_take, List.length_cons, place]
      rw [Nat.min_eq_left bound, Nat.min_eq_left bound']
    | ok part =>
      rw [lexemeRead] at reads
      rw [reads]
      exact .ok ⟨by simp [withoutBytes, unlinked, place], by simp [Cursor.past, place], rfl⟩

theorem eq_of_withoutBytes {token token' : Token}
    (same : token.withoutBytes = token'.withoutBytes) :
    token.kind = token'.kind ∧ token.value = token'.value ∧ token.location = token'.location := by
  simp only [withoutBytes, mk.injEq] at same
  exact ⟨same.1, same.2.1, same.2.2.2.2.1⟩

/-- All tokens of two texts are the same but for the bytes, and so is what is refused. -/
theorem readAll_unify {cursor cursor' : Cursor} (same : cursor.location = cursor'.location)
    (text : List Char) :
    (readAll cursor text).1.map withoutBytes =
        (readAll cursor' (unifyLineEnds text)).1.map withoutBytes ∧
      Option.Rel LexicalError.Unified (readAll cursor text).2
        (readAll cursor' (unifyLineEnds text)).2 := by
  -- Token by token the two cursors are at one line and column, each before its own rest.
  fun_induction readAll cursor text generalizing cursor' with
  | case1 cursor text error refused =>
    have both := read_unify same text
    rw [refused] at both
    obtain ⟨error', refused', unified⟩ := both.exists_error
    rw [readAll_eq cursor', refused']
    exact ⟨rfl, .some unified⟩
  | case2 cursor text token after rest success last =>
    have both := read_unify same text
    rw [success] at both
    obtain ⟨⟨token', after', rest'⟩, success', front⟩ := both.exists_ok
    obtain ⟨kind, -⟩ := eq_of_withoutBytes front.token
    rw [readAll_eq cursor', success']
    dsimp only at kind ⊢
    rw [if_pos (kind.symm.trans last)]
    exact ⟨congrArg (fun token => [token]) front.token, .none⟩
  | case3 cursor text token after rest success notLast tokens error all ih =>
    have both := read_unify same text
    rw [success] at both
    obtain ⟨⟨token', after', rest'⟩, success', front⟩ := both.exists_ok
    obtain ⟨kind, -⟩ := eq_of_withoutBytes front.token
    obtain ⟨tokensSame, errorsSame⟩ := ih front.location
    rw [all, ← front.rest] at tokensSame errorsSame
    rw [readAll_eq cursor', success']
    dsimp only at kind tokensSame errorsSame ⊢
    rw [if_neg (fun last => notLast (kind.trans last))]
    exact ⟨congrArg₂ List.cons front.token tokensSame, errorsSame⟩

end Token

/-! ### Sources -/

namespace Chain

/-- The links of a token are those of its place, whatever bytes it stands at. -/
theorem map_withoutBytes_link (tokens : List Token) :
    (link tokens).toList.map Token.withoutBytes =
      (tokens.map Token.withoutBytes).mapIdx (linkedAt (tokens.map Token.withoutBytes).length) := by
  rw [toList_link, List.length_map]
  apply List.ext_getElem?
  intro place
  rw [List.getElem?_map, List.getElem?_mapIdx, List.getElem?_mapIdx, List.getElem?_map]
  cases tokens[place]? <;> rfl

theorem ofSource_unifyLineEnds (source : String) :
    Corresponds LexicalError.Unified
      (fun chain chain' =>
        chain.toList.map Token.withoutBytes = chain'.toList.map Token.withoutBytes)
      (ofSource source) (ofSource (String.ofList (unifyLineEnds source.toList))) := by
  have both := Token.readAll_unify (rfl : Cursor.start.location = _) source.toList
  rw [ofSource_eq, ofSource_eq, String.toList_ofList]
  generalize Token.readAll .start source.toList = all at both ⊢
  generalize Token.readAll .start (unifyLineEnds source.toList) = all' at both ⊢
  obtain ⟨tokens, error⟩ := all
  obtain ⟨tokens', error'⟩ := all'
  obtain ⟨tokensSame, errorsSame⟩ := both
  cases errorsSame with
  | some unified => exact .error unified
  | none =>
    refine .ok ?_
    rw [map_withoutBytes_link, map_withoutBytes_link, List.map_cons, List.map_cons, tokensSame]

end Chain

theorem LexicalCause.unify_cases (cause : LexicalCause) :
    cause.unify = cause ∨
      cause = .expectedDigit (some '\r') ∧ cause.unify = .expectedDigit (some '\n') := by
  cases cause with
  | expectedDigit found =>
    by_cases isReturn : found = some '\r'
    · subst isReturn
      exact .inr ⟨rfl, rfl⟩
    · left
      cases found with
      | none => rfl
      | some c =>
        have other : c ≠ '\r' := by simpa using isReturn
        simp [unify, unifyReturn, other]
  | digitAfterZero | danglingCharacter | outOfRange | lessThan | greaterThan | invalidCharacter =>
    exact .inl rfl

theorem LexicalError.Unified.diagnostic {error error' : LexicalError} (same : Unified error error')
    (source source' : String) :
    (error.diagnostic source).Unified (error'.diagnostic source') := by
  refine ⟨rfl, same.location, ?_⟩
  simp only [LexicalError.diagnostic, same.cause]
  rcases error.cause.unify_cases with unchanged | ⟨isReturn, isFeed⟩
  · exact .inl (by rw [unchanged])
  · exact .inr ⟨trivial, by rw [isReturn], by rw [isFeed]⟩

namespace Source

/-- The style of line ends does not show. A source and the same source with a line feed for every
line end are both read or both refused. If they are read, their tokens are the same but for the
bytes, with their lines and columns and their links. They are parsed to the same equations, or
refused by the same stage, at the same line and column and with the same message; only where a
spelling is refused for a carriage return, the message names a line feed instead. -/
theorem parse_unifyLineEnds (source : String) :
    let unified := String.ofList (unifyLineEnds source.toList)
    Corresponds LexicalError.Unified
        (fun chain chain' =>
          chain.toList.map Token.withoutBytes = chain'.toList.map Token.withoutBytes)
        (Chain.ofSource source) (Chain.ofSource unified) ∧
      ParsesAlike Diagnostic.Unified source unified := by
  intro unified
  have read := Chain.ofSource_unifyLineEnds source
  refine ⟨read, parsesAlike_of_chain ?_⟩
  have tokens := read.imp (fun _ _ same => same) fun chain chain' same => by
    rw [← List.forall₂_eq_eq_eq, List.forall₂_map_left_iff, List.forall₂_map_right_iff] at same
    exact same
  refine (chain_corresponds (fun _ _ same => (Token.eq_of_withoutBytes same).1) tokens
    (fun _ _ same => same.diagnostic _ _) ?_).imp (fun _ _ same => same) ?_
  · rintro _ _ ⟨violation, same⟩
    exact ⟨rfl, (Token.eq_of_withoutBytes same).2.2, .inl rfl⟩
  · intro chain chain' same
    apply Chain.forall₂_items.mpr
    refine same.imp fun token token' same => ?_
    obtain ⟨kind, value, -⟩ := Token.eq_of_withoutBytes same
    exact ⟨kind, fun _ => value⟩

end Source

end LinearSystem
