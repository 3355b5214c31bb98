import LinearSystem.Proofs.Command.Status
import LinearSystem.Proofs.Lexical.Listing
/-!
What the tasks answer on one source.

A source can be asked for its equations, for a check or for its tokens, and each task goes its own
way: the equations are parsed, the check reads a chain and walks along it, and the tokens are taken
one by one and written as they come. Still their answers fit together (`Command.tasks_agree`): the
equations and the check are refused together and in the same words, and where the tokens are refused
these are the words too.
-/
namespace LinearSystem

namespace TokenStream

/-- Advancing often enough brings a stream to the end of its source or to a refusal, and its chain
has all tokens by then. -/
theorem exists_advanced (stream : TokenStream) :
    ∃ steps, let last := stream.afterCalls (List.replicate steps .advance)
      last.chain = stream.ahead.1.foldl Chain.append stream.chain ∧
        ∀ error, stream.ahead.2 = some error → last.advance = (.error error, last) := by
  induction stream using ahead_induction with
  | ended stream isEnded =>
    refine ⟨0, ?_⟩
    rw [ahead_of_ended isEnded]
    exact ⟨rfl, by simp⟩
  | refused stream found _ ahead advance =>
    refine ⟨0, ?_⟩
    rw [ahead]
    refine ⟨rfl, ?_⟩
    rintro error ⟨⟩
    exact advance
  | read stream after token _ ahead advance _ chain _ ih =>
    obtain ⟨steps, whole, refused⟩ := ih
    refine ⟨steps + 1, ?_⟩
    have first : stream.afterCalls (List.replicate (steps + 1) .advance) =
        after.afterCalls (List.replicate steps .advance) := by
      rw [List.replicate_succ, afterCalls, List.foldl_cons, call, advance]
      rfl
    rw [first, ahead]
    exact ⟨by rw [whole, chain]; rfl, refused⟩

/-- A source is refused by what stops its tokens. -/
theorem stops_eq (source : String) :
    (ofSource source).ahead.2 =
      match Chain.ofSource source with
      | .ok _ => none
      | .error error => some error := by
  rw [Chain.ofSource, finish_eq_ahead (more_ofSource source)]
  cases (ofSource source).ahead.2 <;> rfl

end TokenStream

namespace Source

/-- A source is parsed as its chain is, where it has one. -/
theorem fst_parse (table : SymbolTable) (source : String) :
    (parse table source).1 =
      (chain source).map fun chain => (chain.equations Numeral.readFloat? table).1 := by
  rw [parse, parseWith]
  cases chain source <;> rfl

/-- What has no tokens to its end has no chain, for the same reason. -/
theorem chain_eq_error {source : String} {error : LexicalError}
    (refused : Chain.ofSource source = .error error) :
    chain source = .error (error.diagnostic source) := by
  rw [chain, refused]

end Source

namespace Command

open TokenStream

theorem unlines_map_render (tokens : List Token) :
    unlines (tokens.map Token.render) =
      String.join (tokens.map fun token => token.render ++ "\n") := by
  rw [unlines, List.map_map]
  rfl

/-- The tokens that are written are those ahead of the start, up to the end of the source or up to
the refusal. -/
theorem listTokens_eq (source : String) :
    listTokens source =
      let written := String.join ((ofSource source).ahead.1.map fun token => token.render ++ "\n")
      match Chain.ofSource source with
      | .ok _ => .success written
      | .error error => .refused written (error.diagnostic source) := by
  have items := @toList_eq_ahead (ofSource source) rfl (more_ofSource source)
  rw [stops_eq] at items
  rw [listTokens, ← unlines_map_render, items, List.filterMap_append, List.filterMap_map,
    List.findSome?_append, List.findSome?_map]
  have noRefusal : (ofSource source).ahead.1.findSome?
      (fun _ => (none : Option LexicalError)) = none :=
    List.findSome?_eq_none_iff.mpr fun _ _ => rfl
  cases Chain.ofSource source with
  | ok chain => simp [Function.comp_def, Except.toOption, noRefusal]
  | error error => simp [Function.comp_def, Except.toOption, noRefusal]

section

variable {source : String} {last : TokenStream}
  (whole : last.chain = (ofSource source).ahead.1.foldl Chain.append (ofSource source).chain)

include whole

/-- The chain of a stream that has read all tokens has them behind the start, but for their
links. -/
theorem map_tail_chain {α : Type} {field : Token → α}
    (kept : ∀ token : Token, field token.content = field token) :
    last.chain.toList.tail.map field = (ofSource source).ahead.1.map field := by
  have linked : last.chain = Chain.link ((ofSource source).current :: (ofSource source).ahead.1) :=
    whole
  rw [linked, List.map_tail, Chain.map_link kept]
  rfl

theorem spells_tail_chain : ∀ token ∈ last.chain.toList.tail,
    token.kind = .endOfInput ∨ Lexeme.Spells token.kind token.value.toList := by
  intro token member
  have item : (token.kind, token.value) ∈
      last.chain.toList.tail.map fun other => (other.kind, other.value) :=
    List.mem_map_of_mem member
  rw [map_tail_chain whole fun _ => rfl] at item
  obtain ⟨other, among, same⟩ := List.mem_map.mp item
  obtain ⟨kind, value⟩ := Prod.mk.inj same
  rw [← kind, ← value]
  exact (ofSource source).spells_ahead other among

end

theorem normalize_of_ok {source : String} {chain : Chain}
    (read : Source.chain source = .ok chain) (format : Format) :
    (normalize format source).exitCode = 0 := by
  have parsed := Source.fst_parse .empty source
  rw [read] at parsed
  rw [normalize]
  split
  next refused =>
    rw [refused] at parsed
    cases parsed
  next => cases format <;> rfl

theorem normalize_of_error {source : String} {diagnostic : Diagnostic}
    (refused : Source.chain source = .error diagnostic) (format : Format) :
    normalize format source = .refused "" diagnostic := by
  have parsed := Source.fst_parse .empty source
  rw [refused] at parsed
  rw [normalize]
  split
  next found =>
    rw [found] at parsed
    cases parsed
    rfl
  next found =>
    rw [found] at parsed
    cases parsed

/-- The equations of a source and its check succeed together, which they do where the source can be
parsed. -/
theorem verdicts_agree (format : Format) (source : String) :
    (∃ chain, Source.chain source = .ok chain ∧ (normalize format source).exitCode = 0 ∧
      checkSource source = .success "ok\n") ∨
    ∃ diagnostic, Source.chain source = .error diagnostic ∧
      normalize format source = ⟨1, "", diagnostic.report⟩ ∧
      checkSource source = ⟨1, "", diagnostic.report⟩ := by
  cases lexed : Source.chain source with
  | ok chain =>
    left
    exact ⟨chain, rfl, normalize_of_ok lexed format, by rw [checkSource, lexed]⟩
  | error diagnostic =>
    right
    have refused : Outcome.refused "" diagnostic = ⟨1, "", diagnostic.report⟩ := by
      simp [Outcome.refused, Source.blamesInput_of_chain lexed]
    refine ⟨diagnostic, rfl, ?_, ?_⟩
    · rw [normalize_of_error lexed, refused]
    · rw [checkSource, lexed]
      exact refused

/-- The tokens are given to their end, or else refused as everything about the source is. -/
theorem listing_agrees (format : Format) (source : String) :
    let written := String.join ((ofSource source).ahead.1.map fun token => token.render ++ "\n")
    (∃ chain, Chain.ofSource source = .ok chain ∧ listTokens source = .success written) ∨
    ∃ error, Chain.ofSource source = .error error ∧
      listTokens source = ⟨1, written, (error.diagnostic source).report⟩ ∧
      normalize format source = ⟨1, "", (error.diagnostic source).report⟩ := by
  intro written
  have listed := listTokens_eq source
  cases read : Chain.ofSource source with
  | ok chain =>
    left
    rw [read] at listed
    exact ⟨chain, rfl, listed⟩
  | error error =>
    right
    rw [read] at listed
    refine ⟨error, rfl, listed, ?_⟩
    exact normalize_of_error (Source.chain_eq_error read) format

/-- The tokens that are written can be found in the chain of a stream that has been advanced. -/
theorem exists_listed (source : String) :
    ∃ steps, let last := (ofSource source).afterCalls (List.replicate steps .advance)
      String.join ((ofSource source).ahead.1.map fun token => token.render ++ "\n") =
          String.join (last.chain.toList.tail.map fun token => token.render ++ "\n") ∧
        (∀ token ∈ last.chain.toList.tail,
          token.kind = .endOfInput ∨ Lexeme.Spells token.kind token.value.toList) ∧
        match Chain.ofSource source with
        | .ok chain => last.chain = chain
        | .error error => last.advance = (.error error, last) := by
  obtain ⟨steps, whole, refused⟩ := (ofSource source).exists_advanced
  refine ⟨steps, by rw [map_tail_chain whole fun _ => rfl], spells_tail_chain whole, ?_⟩
  have finished := finish_eq_ahead (more_ofSource source)
  rw [← Chain.ofSource, ← whole] at finished
  rw [finished]
  cases stops : (ofSource source).ahead.2 with
  | none => rfl
  | some error => exact refused error stops

/-- The tasks answer alike on every source, whatever the format is. Its equations are given exactly
if it can be parsed, and exactly then the check says so and nothing else; otherwise both exit with
one, without output and with the report of the reason. The tokens are given up to the end exactly if
the source has a chain, and up to the refusal otherwise, which is then the reason that the other two
tasks report. What is written are the tokens behind the start that a stream has in its chain after
advancing to that point, on a line each: the place, the spelling of the kind and, for a number or a
name, the text between quotes. -/
theorem tasks_agree (settings : Settings) (source : String) :
    let plain := { settings with tokens := false, lintOnly := false }.task.run source
    let check := { settings with tokens := false, lintOnly := true }.task.run source
    let listing := { settings with tokens := true, lintOnly := false }.task.run source
    (∀ table, plain.exitCode = 0 ↔ ∃ equations, (Source.parse table source).1 = .ok equations) ∧
    (check.exitCode = 0 ↔ plain.exitCode = 0) ∧
    (check.exitCode = 0 → check.output = "ok\n") ∧
    (plain.exitCode ≠ 0 → ∃ diagnostic, plain = ⟨1, "", diagnostic.report⟩ ∧ check = plain ∧
      ∀ table, (Source.parse table source).1 = .error diagnostic) ∧
    (listing.exitCode = 0 ↔ ∃ chain, Chain.ofSource source = .ok chain) ∧
    (listing.exitCode ≠ 0 → listing.exitCode = 1 ∧ plain.exitCode = 1 ∧
      listing.errors = plain.errors) ∧
    ∃ steps, let last := (ofSource source).afterCalls (List.replicate steps .advance)
      listing.output =
          String.join (last.chain.toList.tail.map fun token => token.render ++ "\n") ∧
        (∀ token ∈ last.chain.toList.tail, token.render =
          toString token.location.line ++ ":" ++ toString token.location.column ++ " " ++
            token.kind.spelling ++
              if token.kind = .coefficient ∨ token.kind = .name then " \"" ++ token.value ++ "\""
              else "") ∧
        match Chain.ofSource source with
        | .ok chain => last.chain = chain
        | .error error => last.advance = (.error error, last) := by
  intro plain check listing
  have runs : plain = normalize (settings.format.getD .text) source ∧
      check = checkSource source ∧ listing = listTokens source := ⟨rfl, rfl, rfl⟩
  clear_value plain check listing
  obtain ⟨rfl, rfl, rfl⟩ := runs
  obtain ⟨steps, written, spelled, stops⟩ := exists_listed source
  have parsed (table : SymbolTable) := Source.fst_parse table source
  have verdicts := verdicts_agree (settings.format.getD .text) source
  have listings := listing_agrees (settings.format.getD .text) source
  refine ⟨?_, ?_, ?_, ?_, ?_, ?_, steps, ?_, fun token member => ?_, stops⟩
  · intro table
    rw [parsed]
    rcases verdicts with ⟨chain, lexed, success, -⟩ | ⟨diagnostic, refused, plain, -⟩
    · simp [lexed, success, Except.map]
    · simp [refused, plain, Except.map]
  · rcases verdicts with ⟨chain, -, success, ok⟩ | ⟨diagnostic, -, plain, check⟩
    · simp [success, ok, Outcome.success]
    · simp [plain, check]
  · rcases verdicts with ⟨chain, -, -, ok⟩ | ⟨diagnostic, -, -, check⟩
    · simp [ok, Outcome.success]
    · simp [check]
  · intro failed
    rcases verdicts with ⟨chain, -, success, -⟩ | ⟨diagnostic, refused, plain, check⟩
    · exact absurd success failed
    · refine ⟨diagnostic, plain, check.trans plain.symm, fun table => ?_⟩
      rw [parsed, refused]
      rfl
  · rcases listings with ⟨chain, read, listed⟩ | ⟨error, refused, listed, -⟩
    · simp [read, listed, Outcome.success]
    · simp [refused, listed]
  · intro failed
    rcases listings with ⟨chain, read, listed⟩ | ⟨error, refused, listed, plain⟩
    · simp [listed, Outcome.success] at failed
    · simp [listed, plain]
  · rw [← written]
    rcases listings with ⟨chain, read, listed⟩ | ⟨error, refused, listed, -⟩
    · simp [listed, Outcome.success]
    · simp [listed]
  · exact Token.render_eq (spelled token member)

/-- What stands in front of a refusal is written. -/
example : (listTokens "<= +\n,<").output = "1:1 <=\n1:4 +\n2:1 ,\n" := by
  decide +kernel

end Command

end LinearSystem
