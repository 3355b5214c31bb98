import LinearSystem.Proofs.Chain.Linked
/-!
Reading a text between its commas.

Only a comma has a comma in it, and it runs into nothing and nothing runs into it. So a text can be
read if and only if the texts between its commas can be (`readsAs_append_comma`), and what is read
between two commas is what the text between them is read as by itself (`ReadsAs.splitOn`).
-/
namespace LinearSystem

open Text

/-! ### What a text is read as -/

/-- The kinds and texts of lexemes. -/
def Spaced.items (body : Spaced) : List (Kind × String) :=
  body.map fun spaced => (spaced.1.kind, String.ofList spaced.1.text)

/-- A text can be cut into layout and lexemes with these kinds and texts. -/
def ReadsAs (text : List Char) (items : List (Kind × String)) : Prop :=
  ∃ gap, ∃ body : Spaced, (∀ c ∈ gap, isLayout c = true) ∧ body.WellFormed ∧
    text = gap ++ body.text ∧ items = body.items

theorem Spaced.map_item_tokens (cursor : Cursor) (gap : List Char) (body : Spaced) :
    (body.tokens cursor gap).map (fun token => (token.kind, token.value)) =
      body.items ++ [(.endOfInput, "")] := by
  induction body generalizing cursor gap with
  | nil => simp [tokens, items, Token.unlinked]
  | cons spaced rest ih =>
    rw [tokens, List.map_cons, ih]
    rfl

/-- The chain of a source holds what its text is read as, between the two ends. -/
theorem Chain.exists_readsAs {source : String} {chain : Chain}
    (read : ofSource source = .ok chain) :
    ∃ items, ReadsAs source.toList items ∧
      chain.items = (.startOfInput, "") :: (items ++ [(.endOfInput, "")]) := by
  obtain ⟨reading, rfl⟩ := ofSource_eq_ok.mp read
  refine ⟨reading.body.items, ⟨reading.lead, reading.body, reading.layout, reading.formed,
    reading.whole, rfl⟩, ?_⟩
  rw [items_link, List.map_cons, Spaced.map_item_tokens]
  rfl

theorem ReadsAs.exists_chain {source : String} {items : List (Kind × String)}
    (reads : ReadsAs source.toList items) :
    ∃ chain, Chain.ofSource source = .ok chain ∧
      chain.items = (.startOfInput, "") :: (items ++ [(.endOfInput, "")]) := by
  obtain ⟨gap, body, layout, formed, whole, rfl⟩ := reads
  refine ⟨_, Chain.ofSource_eq_ok.mpr ⟨⟨gap, body, layout, formed, whole⟩, rfl⟩, ?_⟩
  rw [Chain.items_link, List.map_cons, Spaced.map_item_tokens]
  rfl

/-- Nothing is read only where there is nothing but layout. -/
theorem ReadsAs.isLayout {text : List Char} (reads : ReadsAs text []) :
    ∀ c ∈ text, isLayout c = true := by
  obtain ⟨gap, body, layout, -, rfl, nothing⟩ := reads
  obtain rfl : body = [] := List.map_eq_nil_iff.mp nothing.symm
  simpa [Spaced.text] using layout

theorem ReadsAs.spells {text : List Char} {items : List (Kind × String)}
    (reads : ReadsAs text items) : ∀ item ∈ items, Lexeme.Spells item.1 item.2.toList := by
  obtain ⟨gap, body, -, formed, -, rfl⟩ := reads
  intro item member
  obtain ⟨spaced, among, rfl⟩ := List.mem_map.mp member
  rw [String.toList_ofList]
  exact formed.spelled spaced among

theorem ReadsAs.unique {text : List Char} {first second : List (Kind × String)}
    (one : ReadsAs text first) (two : ReadsAs text second) : first = second := by
  obtain ⟨gap, body, layout, formed, rfl, rfl⟩ := one
  obtain ⟨gap', body', layout', formed', same, rfl⟩ := two
  obtain ⟨-, bodies⟩ := layout_unique layout layout' formed.halts formed'.halts same
  rw [Spaced.text_injective formed formed' bodies]

/-! ### Where commas stand -/

/-- No lexeme but a comma has a comma in it. -/
theorem Lexeme.comma_notMem {kind : Kind} {text : List Char} (spelled : Spells kind text)
    (other : kind ≠ .comma) : ',' ∉ text :=
  notMem_of_symbol rfl rfl rfl rfl spelled other

theorem comma_notMem_of_isLayout {gap : List Char} (layout : ∀ c ∈ gap, isLayout c = true) :
    ',' ∉ gap :=
  notMem_of_class rfl layout

theorem Lexeme.runsInto_comma (lexeme : Lexeme) : lexeme.runsInto ',' = false := by
  unfold Lexeme.runsInto
  split
  · cases Literal.hasExponent lexeme.text <;> rfl
  · rfl
  · simp
  · rfl

/-! ### Texts beside a comma -/

namespace Spaced

def comma (gap : List Char) : Lexeme × List Char := (⟨.comma, [',']⟩, gap)

@[simp] theorem text_append (first second : Spaced) :
    text (first ++ second) = text first ++ text second := by
  induction first with
  | nil => rfl
  | cons spaced rest ih => simp [text, ih]

@[simp] theorem text_comma (gap : List Char) (rest : Spaced) :
    text (comma gap :: rest) = ',' :: (gap ++ text rest) := rfl

/-- Lexemes before a comma and after it are well formed by themselves. -/
theorem wellFormed_append_comma {first second : Spaced} {gap : List Char} :
    WellFormed (first ++ comma gap :: second) ↔
      first.WellFormed ∧ (∀ c ∈ gap, isLayout c = true) ∧ second.WellFormed := by
  induction first with
  | nil =>
    have halts : Halts (Lexeme.runsInto ⟨.comma, [',']⟩) (text second) :=
      halts_of_never (fun _ => rfl) _
    simp [WellFormed, comma, Lexeme.IsSpelled, Lexeme.Spells, halts]
  | cons spaced rest ih =>
    obtain ⟨lexeme, next⟩ := spaced
    -- What stands directly after a lexeme is the same, or it is the comma.
    have same : Halts lexeme.runsInto (text (rest ++ comma gap :: second)) ↔
        Halts lexeme.runsInto (text rest) := by
      rw [text_append, text_comma]
      cases text rest with
      | nil => simp [lexeme.runsInto_comma]
      | cons c others => simp
    rw [List.cons_append, WellFormed, WellFormed, ih, same]
    simp only [and_assoc]

/-- A comma in the text of lexemes is one of them. -/
theorem exists_comma {body : Spaced} (formed : body.WellFormed) {seen front back : List Char}
    (noSeen : ',' ∉ seen) (noFront : ',' ∉ front)
    (whole : seen ++ body.text = front ++ ',' :: back) :
    ∃ first : Spaced, ∃ gap, ∃ second : Spaced, body = first ++ comma gap :: second ∧
      front = seen ++ first.text ∧ back = gap ++ second.text := by
  -- The first comma of a text is found in one way.
  have cut {other others : List Char} (noOther : ',' ∉ other)
      (same : other ++ ',' :: others = front ++ ',' :: back) : other = front ∧ others = back := by
    have parts := congrArg (List.splitOn ',') same
    rw [List.splitOn_append_cons_self_of_not_mem noOther,
      List.splitOn_append_cons_self_of_not_mem noFront] at parts
    obtain rfl := (List.cons.inj parts).1
    exact ⟨rfl, (List.cons.inj (List.append_cancel_left same)).2⟩
  induction body generalizing seen with
  | nil =>
    have absent : ',' ∉ seen ++ text [] := by simpa [text] using noSeen
    simp [whole] at absent
  | cons spaced rest ih =>
    obtain ⟨lexeme, gap⟩ := spaced
    by_cases isComma : lexeme.kind = .comma
    · have spelled := formed.1
      obtain ⟨kind, characters⟩ := lexeme
      subst isComma
      obtain rfl : characters = [','] := spelled
      obtain ⟨rfl, rfl⟩ := cut noSeen whole
      exact ⟨[], gap, rest, rfl, by simp [text], rfl⟩
    · have noLexeme := Lexeme.comma_notMem formed.1 isComma
      have noGap := comma_notMem_of_isLayout formed.2.1
      have noFurther : ',' ∉ seen ++ (lexeme.text ++ gap) := by simp [noSeen, noLexeme, noGap]
      obtain ⟨first, next, second, rfl, rfl, rfl⟩ :=
        ih formed.2.2.2 noFurther (by simpa [text] using whole)
      exact ⟨(lexeme, gap) :: first, next, second, rfl, by simp [text], rfl⟩

end Spaced

theorem ReadsAs.append_comma {front back : List Char} {first second : List (Kind × String)}
    (frontReads : ReadsAs front first) (backReads : ReadsAs back second) :
    ReadsAs (front ++ ',' :: back) (first ++ (.comma, ",") :: second) := by
  obtain ⟨gap, before, layout, formed, rfl, rfl⟩ := frontReads
  obtain ⟨next, later, nextLayout, laterFormed, rfl, rfl⟩ := backReads
  refine ⟨gap, before ++ Spaced.comma next :: later, layout, ?_, by simp, ?_⟩
  · exact Spaced.wellFormed_append_comma.mpr ⟨formed, nextLayout, laterFormed⟩
  · simp [Spaced.items, Spaced.comma]

/-- A text is read beside a comma as its two sides are. -/
theorem readsAs_append_comma {front back : List Char} {items : List (Kind × String)}
    (noFront : ',' ∉ front) :
    ReadsAs (front ++ ',' :: back) items ↔
      ∃ first second, ReadsAs front first ∧ ReadsAs back second ∧
        items = first ++ (.comma, ",") :: second := by
  constructor
  · rintro ⟨gap, body, layout, formed, whole, rfl⟩
    obtain ⟨before, next, later, rfl, rfl, rfl⟩ := Spaced.exists_comma formed
      (comma_notMem_of_isLayout layout) noFront whole.symm
    obtain ⟨beforeFormed, nextLayout, laterFormed⟩ := Spaced.wellFormed_append_comma.mp formed
    exact ⟨before.items, later.items, ⟨gap, before, layout, beforeFormed, rfl, rfl⟩,
      ⟨next, later, nextLayout, laterFormed, rfl, rfl⟩, by simp [Spaced.items, Spaced.comma]⟩
  · rintro ⟨first, second, frontReads, backReads, rfl⟩
    exact frontReads.append_comma backReads

/-! ### Texts between all commas -/

/-- Whether an item is a comma. -/
def isCommaItem (item : Kind × String) : Bool := item.1 == .comma

theorem Spaced.mem_text {body : Spaced} {spaced : Lexeme × List Char} (among : spaced ∈ body)
    {c : Char} (member : c ∈ spaced.1.text) : c ∈ body.text := by
  induction body with
  | nil => cases among
  | cons first rest ih =>
    rw [text, List.mem_append, List.mem_append]
    rcases List.mem_cons.mp among with rfl | among
    · exact .inl member
    · exact .inr (.inr (ih among))

theorem ReadsAs.isCommaItem_eq_false {text : List Char} {items : List (Kind × String)}
    (reads : ReadsAs text items) (noComma : ',' ∉ text) :
    ∀ item ∈ items, isCommaItem item = false := by
  obtain ⟨gap, body, -, formed, rfl, rfl⟩ := reads
  intro item member
  obtain ⟨spaced, among, rfl⟩ := List.mem_map.mp member
  apply beq_eq_false_iff_ne.mpr
  intro isComma
  -- The text of a comma would put one into the whole text.
  have spelled : Lexeme.Spells .comma spaced.1.text := isComma ▸ formed.spelled spaced among
  have comma : ',' ∈ spaced.1.text := by
    rw [show spaced.1.text = [','] from spelled]
    exact List.mem_singleton_self ','
  exact noComma (List.mem_append_right gap (Spaced.mem_text among comma))

/-- To show something of every text, show it of those without a comma and carry it over a text
before a first comma. -/
theorem comma_induction {motive : List Char → Prop} (single : ∀ text, ',' ∉ text → motive text)
    (cons : ∀ front back, ',' ∉ front → motive back → motive (front ++ ',' :: back))
    (text : List Char) : motive text := by
  induction size : text.length using Nat.strong_induction_on generalizing text with
  | _ size ih =>
    by_cases comma : ',' ∈ text
    · obtain ⟨front, back, rfl, noFront⟩ := List.eq_append_cons_of_mem comma
      apply cons front back noFront
      apply ih back.length _ back rfl
      simp only [List.length_append, List.length_cons] at size
      omega
    · exact single text comma

/-- What is read between the commas of a text is what the texts between its commas are read as. -/
theorem ReadsAs.splitOn {text : List Char} {items : List (Kind × String)}
    (reads : ReadsAs text items) :
    List.Forall₂ ReadsAs (text.splitOn ',') (items.splitOnP isCommaItem) := by
  induction text using comma_induction generalizing items with
  | single text noComma =>
    rw [List.splitOn_eq_singleton noComma,
      List.splitOnP_eq_singleton (reads.isCommaItem_eq_false noComma)]
    exact .cons reads .nil
  | cons front back noFront ih =>
    obtain ⟨first, second, frontReads, backReads, rfl⟩ := (readsAs_append_comma noFront).mp reads
    rw [List.splitOn_append_cons_self_of_not_mem noFront,
      List.splitOnP_append_cons_of_forall_mem (frontReads.isCommaItem_eq_false noFront) _ rfl]
    exact .cons frontReads (ih backReads)

/-- A text can be read if the texts between its commas can. -/
theorem exists_readsAs_of_splitOn {text : List Char}
    (each : ∀ piece ∈ text.splitOn ',', ∃ items, ReadsAs piece items) :
    ∃ items, ReadsAs text items := by
  induction text using comma_induction with
  | single text noComma =>
    apply each
    rw [List.splitOn_eq_singleton noComma]
    exact List.mem_singleton_self text
  | cons front back noFront ih =>
    rw [List.splitOn_append_cons_self_of_not_mem noFront] at each
    obtain ⟨⟨first, frontReads⟩, others⟩ := List.forall_mem_cons.mp each
    obtain ⟨second, backReads⟩ := ih others
    exact ⟨_, frontReads.append_comma backReads⟩

end LinearSystem
