import LinearSystem.Proofs.Lexical.Calls
/-!
How tokens are listed.

A number or a name is listed with its text between quotes. This text is made of letters, digits,
underscores, points and signs, none of which is written otherwise between quotes
(`Lexeme.Spells.quote_eq`). So a token that is read from a source is listed with its line and its
column, the spelling of its kind and, for a number or a name, the text that stands in the source
(`Token.render_eq`, with `TokenStream.spells_ahead`).
-/
namespace LinearSystem

namespace Text

/-! ### Quotes -/

theorem isPrintable_of_val {c : Char} (above : ' '.toNat ≤ c.val.toNat)
    (below : c.val.toNat ≤ '~'.toNat) : isPrintable c = true := by
  rw [isPrintable, Bool.and_eq_true, decide_eq_true_eq, decide_eq_true_eq]
  exact ⟨above, below⟩

/-- No range of the table has a printable character in it. -/
theorem outside_unprintableRanges :
    (unprintableRanges.toList.all fun range =>
      range.2 < ' '.toNat || '~'.toNat < range.1) = true := by
  decide +kernel

theorem isUnprintable_of_isPrintable {c : Char} (printable : isPrintable c = true) :
    isUnprintable c = false := by
  simp only [isPrintable, Bool.and_eq_true, decide_eq_true_eq] at printable
  rw [isUnprintable, ← Array.any_toList, List.any_eq_false]
  intro range member
  have apart := List.all_eq_true.mp outside_unprintableRanges range member
  simp only [Bool.and_eq_true, Bool.or_eq_true, decide_eq_true_eq] at apart ⊢
  omega

/-- A printable character stands for itself, unless it ends or escapes a quotation. -/
theorem quoteChar_of_isPrintable {c : Char} (printable : isPrintable c = true) (noQuote : c ≠ '"')
    (noBackslash : c ≠ '\\') : quoteChar c = String.singleton c := by
  unfold quoteChar
  split
  · cases printable
  · cases printable
  · cases printable
  · cases printable
  · exact absurd rfl noQuote
  · exact absurd rfl noBackslash
  · rw [isUnprintable_of_isPrintable printable, if_neg Bool.false_ne_true]

theorem quote_of_forall {text : String}
    (plain : ∀ c ∈ text.toList, quoteChar c = String.singleton c) :
    quote text = "\"" ++ text ++ "\"" := by
  have same : String.join (text.toList.map quoteChar) = text := by
    -- Joined again, the single characters are the text that they were taken from.
    rw [List.map_congr_left plain, ← String.toList_inj, String.toList_join]
    simp [List.flatMap_map]
  rw [quote, same]

/-! ### The characters of numbers and names -/

theorem quoteChar_of_isDigit {c : Char} (digit : c.isDigit = true) :
    quoteChar c = String.singleton c := by
  obtain ⟨above, below⟩ := Lexeme.val_of_isDigit digit
  apply quoteChar_of_isPrintable
  · exact isPrintable_of_val (above.trans' (by decide)) (below.trans (by decide))
  · rintro rfl
    cases digit
  · rintro rfl
    cases digit

theorem quoteChar_of_startsName {c : Char} (name : startsName c = true) :
    quoteChar c = String.singleton c := by
  simp only [startsName, Bool.or_eq_true, beq_iff_eq] at name
  rcases name with letter | rfl
  · -- The backslash stands between the capital and the small letters.
    obtain ⟨above, below⟩ := Lexeme.val_of_isAlpha letter
    apply quoteChar_of_isPrintable
    · exact isPrintable_of_val (above.trans' (by decide)) (below.trans (by decide))
    · rintro rfl
      cases letter
    · rintro rfl
      cases letter
  · exact quoteChar_of_isPrintable rfl (by decide) (by decide)

theorem quoteChar_of_continuesName {c : Char} (name : continuesName c = true) :
    quoteChar c = String.singleton c := by
  rcases Bool.or_eq_true_iff.mp name with starts | digit
  · exact quoteChar_of_startsName starts
  · exact quoteChar_of_isDigit digit

theorem quoteChar_of_inNumeral {c : Char} (numeral : Literal.inNumeral c = true) :
    quoteChar c = String.singleton c := by
  simp only [Literal.inNumeral, Literal.marksExponent, Bool.or_eq_true, beq_iff_eq] at numeral
  rcases numeral with (((digit | rfl) | rfl | rfl) | rfl) | rfl
  · exact quoteChar_of_isDigit digit
  all_goals exact quoteChar_of_isPrintable rfl (by decide) (by decide)

end Text

/-! ### Tokens -/

/-- The text of a number or a name stands between quotes as it is. -/
theorem Lexeme.Spells.quote_eq {kind : Kind} {text : String} (spelled : Spells kind text.toList)
    (shown : kind = .coefficient ∨ kind = .name) : Text.quote text = "\"" ++ text ++ "\"" := by
  apply Text.quote_of_forall
  rcases shown with rfl | rfl
  · obtain ⟨⟨whole, fraction, exponent, same, parts⟩, -⟩ := spelled
    rw [same]
    exact fun c member => Text.quoteChar_of_inNumeral (parts.inNumeral c member)
  · obtain ⟨first, rest, same, starts, continues⟩ := spelled
    rw [same]
    exact List.forall_mem_cons.mpr ⟨Text.quoteChar_of_startsName starts,
      fun c member => Text.quoteChar_of_continuesName (continues c member)⟩

theorem Token.render_eq {token : Token}
    (spelled : token.kind = .endOfInput ∨ Lexeme.Spells token.kind token.value.toList) :
    token.render =
      toString token.location.line ++ ":" ++ toString token.location.column ++ " " ++
        token.kind.spelling ++
          if token.kind = .coefficient ∨ token.kind = .name then " \"" ++ token.value ++ "\""
          else "" := by
  -- A number or a name is not the end of the source, so its text is spelled as its kind asks for.
  have text (shown : token.kind = .coefficient ∨ token.kind = .name) :
      " " ++ Text.quote token.value = " \"" ++ token.value ++ "\"" := by
    have more : token.kind ≠ .endOfInput := by
      rcases shown with kind | kind <;> rw [kind] <;> decide
    rw [(spelled.resolve_left more).quote_eq shown, ← String.append_assoc, ← String.append_assoc]
    rfl
  rw [render, Location.render]
  split
  next coefficient => rw [if_pos (.inl coefficient), String.append_assoc, text (.inl coefficient)]
  next name => rw [if_pos (.inr name), String.append_assoc, text (.inr name)]
  next noNumber noName => rw [if_neg (not_or.mpr ⟨noNumber, noName⟩), String.append_empty]

example : (Token.unlinked .name ['x'] .start .start).render = "1:1 Variable \"x\"" := by
  refine (Token.render_eq (.inr ?_)).trans (by decide +kernel)
  exact ⟨'x', [], rfl, rfl, List.forall_mem_nil _⟩

/-- What is read from a source is spelled as its kind asks for, up to the end. -/
theorem TokenStream.spells_ahead (stream : TokenStream) : ∀ token ∈ stream.ahead.1,
    token.kind = .endOfInput ∨ Lexeme.Spells token.kind token.value.toList := by
  induction stream using ahead_induction with
  | ended stream isEnded =>
    rw [ahead_of_ended isEnded]
    exact List.forall_mem_nil _
  | refused stream error _ ahead _ =>
    rw [ahead]
    exact List.forall_mem_nil _
  | read stream after token more ahead advance _ _ _ ih =>
    rw [ahead]
    refine List.forall_mem_cons.mpr ⟨?_, ih⟩
    rw [stream.advance_eq more] at advance
    split at advance
    · cases advance
    next plain cursor rest read =>
      -- Linking the token changes neither its kind nor its text.
      cases advance
      dsimp only
      rcases Token.read_eq_ok read with ⟨ended, -⟩ | ⟨gap, lexeme, -, -, spelled, -, kind, value⟩
      · exact .inl ended
      · right
        rw [kind, value, String.toList_ofList]
        exact spelled

end LinearSystem
