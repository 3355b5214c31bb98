import LinearSystem.Grammar.Check
/-!
What checking a chain comes to once its links are trusted.

A chain that is accepted is integral (`integral_of_check`): following the links under the local
checks leaves no way to skip, to repeat or to leave out a token. On an integral chain the check is
a walk over the tokens as they are stored (`Integral.check_eq_walk`), which asks the rules about
each token and the one before it and looks at no link. On a chain that lacks nothing but its end, it
is such a walk up to the last token (`Unbroken.check_eq`).
-/
namespace LinearSystem

open Grammar

namespace Chain

/-- Asks the rules about a token that comes after another. -/
def follow (seen : Seen) (previous token : Token) : Except CheckError Seen :=
  match seen.step previous.kind token.kind with
  | .ok seen => .ok seen
  | .error violation =>
    .error (.grammar violation (if violation.blamesPrevious then previous else token))

/-- Asks the rules about tokens that come one after the other. -/
def walk (seen : Seen) (previous : Token) : List Token → Except CheckError Seen
  | [] => .ok seen
  | token :: rest =>
    match follow seen previous token with
    | .error error => .error error
    | .ok seen => walk seen token rest

/-- Asks the rules about the first tokens of a chain; the first of all is asked nothing. -/
def ruled : List Token → Except CheckError Seen
  | [] => .ok .nothing
  | first :: rest => walk .nothing first rest

theorem walk_cons (seen : Seen) (previous token : Token) (rest : List Token) :
    walk seen previous (token :: rest) =
      follow seen previous token >>= fun after => walk after token rest := by
  rw [walk]
  cases follow seen previous token <;> rfl

theorem walk_append (seen : Seen) (previous : Token) (first second : List Token) :
    walk seen previous (first ++ second) =
      walk seen previous first >>= fun after => walk after (first.getLastD previous) second := by
  induction first generalizing seen previous with
  | nil => rfl
  | cons token rest ih =>
    rw [List.cons_append, walk_cons, walk_cons, bind_assoc]
    simp only [ih, List.getLastD_cons]

/-! ### Places -/

@[simp] theorem length_toList (chain : Chain) : chain.toList.length = chain.size := by
  simp [size, toList]

theorem get?_eq_getElem? (chain : Chain) (place : Nat) :
    chain.get? place = chain.toList[place]? := by
  simp [get?, toList]

theorem lt_size_of_get? {chain : Chain} {place : Nat} {token : Token}
    (stored : chain.get? place = some token) : place < chain.size := by
  rw [get?_eq_getElem?] at stored
  obtain ⟨bound, _⟩ := List.getElem?_eq_some_iff.mp stored
  simpa using bound

theorem exists_get? {chain : Chain} {place : Nat} (bound : place < chain.size) :
    ∃ token, chain.get? place = some token := by
  rw [← length_toList] at bound
  exact ⟨chain.toList[place], by simp [get?_eq_getElem?]⟩

theorem get?_of_listed {chain : Chain} {before after : List Token} {token : Token}
    (listed : chain.toList = before ++ token :: after) :
    chain.get? before.length = some token := by
  simp [get?_eq_getElem?, listed]

theorem size_of_listed {chain : Chain} {before after : List Token} {token : Token}
    (listed : chain.toList = before ++ token :: after) :
    chain.size = before.length + after.length + 1 := by
  simp [← length_toList, listed, Nat.add_assoc]

instance (size place : Nat) (token : Token) : Decidable (PlacedAt size place token) :=
  inferInstanceAs (Decidable (_ ∧ _ ∧ _ ∧ (_ ↔ _) ∧ (_ ↔ _)))

theorem integral_iff (chain : Chain) :
    chain.Integral ↔ 0 < chain.size ∧
      ∀ place : Fin chain.tokens.size, PlacedAt chain.size place chain.tokens[place] := by
  -- The places of the array are enough: nothing is stored anywhere else.
  refine and_congr_right fun _ => ⟨fun placed place => placed place _ (by simp [get?]), ?_⟩
  intro placed place token stored
  obtain ⟨bound, rfl⟩ := Array.getElem?_eq_some_iff.mp stored
  exact placed ⟨place, bound⟩

instance (chain : Chain) : Decidable chain.Integral := decidable_of_iff _ chain.integral_iff.symm

/-! ### Accepted chains are integral -/

theorem holdsTogetherAt_iff {chain : Chain} {token : Token} :
    chain.holdsTogetherAt token = true ↔ chain.get? token.index = some token ∧
      chain.linkedBack token = true ∧ chain.linkedForward token = true := by
  simp [holdsTogetherAt, and_assoc]

theorem holdsTogetherAt_of_checkToken {chain : Chain} {seen after : Seen} {token : Token}
    (checked : chain.checkToken seen token = .ok after) : chain.holdsTogetherAt token = true := by
  unfold checkToken at checked
  split at checked
  next together => exact together
  · cases checked

/-- A token at its own place whose neighbours agree with its links, and that has the end of the
source or its stored successor after it. -/
structure Visited (chain : Chain) (place : Nat) (token : Token) : Prop where
  stored : chain.get? place = some token
  index : token.index = place
  back : chain.linkedBack token = true
  forward : chain.linkedForward token = true
  last : token.kind = .endOfInput ↔ place + 1 = chain.size
  next : place + 1 < chain.size → token.next = some (place + 1)

/-- A link that leads to the place after it is a link to that place: the token that it leads to
links back here, and what that token names as its predecessor names it as its successor. -/
theorem next_eq_of_linked {chain : Chain} {place : Nat} {token successor : Token}
    (stored : chain.get? place = some token) (index : token.index = place)
    (forward : chain.linkedForward token = true) (linked : chain.next? token = some successor)
    (here : chain.Visited (place + 1) successor) : token.next = some (place + 1) := by
  cases named : token.next with
  | none => simp [next?, named] at linked
  | some target =>
    have agrees : successor.prev = some place := by
      simp only [linkedForward, named, linked, Option.any_some, Bool.and_eq_true,
        decide_eq_true_eq, index] at forward
      exact forward.2
    have back := here.back
    simp only [linkedBack, agrees, prev?, Option.bind_some, stored, Option.any_some,
      Bool.and_eq_true, decide_eq_true_eq, here.index] at back
    rw [← named]
    exact back.2

/-- Following the links to an accepted end visits every place from there on. -/
theorem visited_of_checkFrom {chain : Chain} {tokens place : Nat} {seen : Seen} {token : Token}
    (accepted : chain.checkFrom tokens place seen token = .ok ()) :
    chain.Visited place token ∧
      ∀ later, place < later → later < chain.size → ∃ other, chain.Visited later other := by
  -- The number of steps left bounds the walk; where it is used up nothing is accepted.
  induction tokens generalizing place seen token with
  | zero => cases accepted
  | succ tokens ih =>
    unfold checkFrom at accepted
    split at accepted
    · cases accepted
    next inPlace =>
      have index : token.index = place := by simpa using inPlace
      split at accepted
      · cases accepted
      next after checked =>
        have together := holdsTogetherAt_iff.mp (holdsTogetherAt_of_checkToken checked)
        rw [index] at together
        obtain ⟨stored, back, forward⟩ := together
        split at accepted
        next ended =>
          split at accepted
          next full =>
            refine ⟨⟨stored, index, back, forward, by simp [ended, full], ?_⟩, ?_⟩
            · intro more; omega
            · intro later after bound; omega
          · cases accepted
        next notEnded =>
          split at accepted
          · cases accepted
          next successor linked =>
            obtain ⟨here, rest⟩ := ih accepted
            have bound := lt_size_of_get? here.stored
            have next := next_eq_of_linked stored index forward linked here
            refine ⟨⟨stored, index, back, forward, ?_, fun _ => next⟩, ?_⟩
            · simp only [notEnded, false_iff]
              omega
            · intro later after within
              by_cases same : later = place + 1
              · subst same; exact ⟨successor, here⟩
              · exact rest later (by omega) within

theorem visited_of_get? {chain : Chain} {place : Nat} {token : Token}
    (visited : ∀ place < chain.size, ∃ other, chain.Visited place other)
    (stored : chain.get? place = some token) : chain.Visited place token := by
  obtain ⟨other, here⟩ := visited place (lt_size_of_get? stored)
  have same : other = token := Option.some.inj (here.stored.symm.trans stored)
  exact same ▸ here

theorem Visited.next_eq {chain : Chain} {place : Nat} {token : Token}
    (here : chain.Visited place token) :
    token.next = if place + 1 < chain.size then some (place + 1) else none := by
  split
  next more => exact here.next more
  next noMore =>
    -- At the last place stands the end of the source, which may name no successor.
    have bound := lt_size_of_get? here.stored
    have ended : token.kind = .endOfInput := here.last.mpr (by omega)
    cases named : token.next with
    | none => rfl
    | some target =>
      have forward := here.forward
      simp [linkedForward, named, ended] at forward

/-- Every token names the one before it as its predecessor, and the first names none. -/
theorem prev_eq_of_visited {chain : Chain} {place : Nat} {token : Token}
    (visited : ∀ place < chain.size, ∃ other, chain.Visited place other)
    (here : chain.Visited place token) : token.prev = before? place := by
  cases place with
  | zero =>
    cases named : token.prev with
    | none => rfl
    | some origin =>
      have back := here.back
      simp only [linkedBack, named, prev?, Option.bind_some, Bool.and_eq_true, Option.any_eq_true,
        decide_eq_true_eq, here.index] at back
      -- No place is before the first, so whatever is named leads elsewhere.
      obtain ⟨-, other, stored, returns⟩ := back
      have leads := (visited_of_get? visited stored).next_eq
      rw [returns] at leads
      split at leads
      · simp at leads
      · cases leads
  | succ place =>
    -- The token before this one names it, and was checked to be named back.
    have bound := lt_size_of_get? here.stored
    obtain ⟨previous, before⟩ := visited place (by omega)
    have forward := before.forward
    simp only [linkedForward, before.next bound, next?, Option.bind_some, here.stored,
      Option.any_some, Bool.and_eq_true, decide_eq_true_eq, before.index] at forward
    exact forward.2

theorem integral_of_visited {chain : Chain} (nonempty : 0 < chain.size)
    (visited : ∀ place < chain.size, ∃ other, chain.Visited place other) : chain.Integral := by
  refine ⟨nonempty, ?_⟩
  intro place token stored
  have here := visited_of_get? visited stored
  have prev := prev_eq_of_visited visited here
  refine ⟨here.index, prev, here.next_eq, ?_, here.last⟩
  -- Whether a token starts the source is checked where its predecessor is.
  have back := here.back
  cases place with
  | zero =>
    simp only [before?] at prev
    simpa [linkedBack, prev] using back
  | succ place =>
    simp only [before?] at prev
    simp only [linkedBack, prev, Bool.and_eq_true, decide_eq_true_eq] at back
    simpa using back.1

theorem integral_of_check {chain : Chain} (accepted : chain.check = .ok ()) : chain.Integral := by
  unfold check at accepted
  split at accepted
  · cases accepted
  next first headed =>
    obtain ⟨here, rest⟩ := visited_of_checkFrom accepted
    apply integral_of_visited (lt_size_of_get? here.stored)
    intro place bound
    cases place with
    | zero => exact ⟨first, here⟩
    | succ place => exact rest (place + 1) (by omega) bound

/-! ### Unbroken chains are walked -/

/-- The token at a place of a chain of so many tokens has the links that its place asks for, and is
no end of the source that stands elsewhere. -/
structure FitsAt (size place : Nat) (token : Token) : Prop where
  index : token.index = place
  prev : token.prev = before? place
  next : token.next = if place + 1 < size then some (place + 1) else none
  starts : token.kind = .startOfInput ↔ place = 0
  ends : token.kind = .endOfInput → place + 1 = size

/-- Each token of the chain is where it says; the end of the source may be missing. -/
def Unbroken (chain : Chain) : Prop :=
  ∀ place token, chain.get? place = some token → FitsAt chain.size place token

namespace Unbroken

variable {chain : Chain} {place : Nat} {token : Token}

theorem next?_eq (unbroken : chain.Unbroken) (stored : chain.get? place = some token) :
    chain.next? token = chain.get? (place + 1) := by
  have next := (unbroken place token stored).next
  by_cases more : place + 1 < chain.size
  · simp [next?, next, more]
  · cases other : chain.get? (place + 1) with
    | none => simp [next?, next, more]
    | some token => exact absurd (lt_size_of_get? other) more

theorem prev?_eq (unbroken : chain.Unbroken) (stored : chain.get? (place + 1) = some token) :
    chain.prev? token = chain.get? place := by
  have prev := (unbroken (place + 1) token stored).prev
  simp [prev?, prev, before?]

/-- A token that something follows holds together with its neighbours, and a last token does so
exactly if it is the end of the source. -/
theorem holdsTogetherAt_iff (unbroken : chain.Unbroken) (stored : chain.get? place = some token) :
    chain.holdsTogetherAt token = true ↔ place + 1 < chain.size ∨ token.kind = .endOfInput := by
  -- Either link is checked at the neighbour it leads to, which is at its place as well.
  obtain ⟨index, prev, next, starts, ends⟩ := unbroken place token stored
  have back : chain.linkedBack token = true := by
    cases place with
    | zero => simp [linkedBack, prev, before?, starts.mpr rfl]
    | succ place =>
      have bound := lt_size_of_get? stored
      obtain ⟨previous, before⟩ := exists_get? (show place < chain.size by omega)
      have linked := (unbroken place previous before).next
      simp [linkedBack, prev, before?, prev?, before, linked, bound, index, starts]
  have forward : chain.linkedForward token = true ↔
      place + 1 < chain.size ∨ token.kind = .endOfInput := by
    by_cases more : place + 1 < chain.size
    · obtain ⟨successor, after⟩ := exists_get? more
      have linked := (unbroken (place + 1) successor after).prev
      have going : token.kind ≠ .endOfInput := fun ended => by
        have := ends ended
        omega
      simp [linkedForward, next, more, next?, after, linked, before?, index, going]
    · simp [linkedForward, next, more]
  rw [Chain.holdsTogetherAt_iff, index, ← forward]
  simp [stored, back]

/-- The first token is asked nothing. -/
theorem checkToken_first (unbroken : chain.Unbroken) (stored : chain.get? 0 = some token)
    (more : 1 < chain.size ∨ token.kind = .endOfInput) (seen : Seen) :
    chain.checkToken seen token = .ok seen := by
  have prev := (unbroken 0 token stored).prev
  have together := (unbroken.holdsTogetherAt_iff stored).mpr (by simpa using more)
  simp [checkToken, together, prev?, prev, before?]

/-- Every other token follows the one that is stored before it. -/
theorem checkToken_next (unbroken : chain.Unbroken) {previous : Token}
    (before : chain.get? place = some previous) (stored : chain.get? (place + 1) = some token)
    (more : place + 1 + 1 < chain.size ∨ token.kind = .endOfInput) (seen : Seen) :
    chain.checkToken seen token = follow seen previous token := by
  have found : chain.prev? token = some previous := (unbroken.prev?_eq stored).trans before
  have together := (unbroken.holdsTogetherAt_iff stored).mpr more
  cases asked : seen.step previous.kind token.kind with
  | ok after => simp [checkToken, follow, together, found, asked]
  | error violation => simp [checkToken, follow, together, found, asked]

/-- A token that something follows is checked, and then its successor. -/
theorem checkFrom_step (unbroken : chain.Unbroken) {next : Token} (tokens : Nat)
    (stored : chain.get? place = some token) (successor : chain.get? (place + 1) = some next)
    (seen : Seen) :
    chain.checkFrom (tokens + 1) place seen token =
      chain.checkToken seen token >>= fun after =>
        chain.checkFrom tokens (place + 1) after next := by
  have fits := unbroken place token stored
  have bound := lt_size_of_get? successor
  have more : token.kind ≠ .endOfInput := fun ended => by
    have := fits.ends ended
    omega
  rw [checkFrom, if_neg (by simpa using fits.index)]
  cases chain.checkToken seen token with
  | error error => rfl
  | ok after => simp [more, unbroken.next?_eq stored, successor, bind, Except.bind]

/-- From a token that is not the last the check walks up to the last. -/
theorem checkFrom_eq (unbroken : chain.Unbroken) (before : List Token) {rest : List Token}
    {last : Token} (listed : chain.toList = before ++ token :: (rest ++ [last])) (seen : Seen) :
    chain.checkFrom (rest.length + 2) before.length seen token = (do
      let after ← chain.checkToken seen token
      let final ← walk after token rest
      chain.checkFrom 1 (before.length + rest.length + 1) final last) := by
  induction rest generalizing before token seen with
  | nil =>
    have further : chain.toList = (before ++ [token]) ++ last :: [] := by simp [listed]
    have successor : chain.get? (before.length + 1) = some last := by
      simpa using get?_of_listed further
    exact unbroken.checkFrom_step 1 (get?_of_listed listed) successor seen
  | cons next rest ih =>
    -- The successor stands one place further, so the list is cut once more after the token.
    have further : chain.toList = (before ++ [token]) ++ next :: (rest ++ [last]) := by
      simp [listed]
    have size := size_of_listed further
    have successor : chain.get? (before.length + 1) = some next := by
      simpa using get?_of_listed further
    have followed (after : Seen) : chain.checkToken after next = follow after token next := by
      apply unbroken.checkToken_next (get?_of_listed listed) successor
      left
      simp only [List.length_append, List.length_singleton] at size
      omega
    rw [List.length_cons, unbroken.checkFrom_step _ (get?_of_listed listed) successor]
    congr 1
    funext after
    have rest' := ih _ further after
    rw [List.length_append, List.length_singleton, followed] at rest'
    rw [rest', walk_cons, bind_assoc, show before.length + 1 + rest.length + 1 =
      before.length + (rest.length + 1) + 1 by omega]

/-- The check asks the rules about all tokens before the last, and then comes to the last. -/
theorem check_eq (unbroken : chain.Unbroken) {front : List Token} {last : Token}
    (listed : chain.toList = front ++ [last]) :
    chain.check = ruled front >>= fun seen => chain.checkFrom 1 front.length seen last := by
  have size : chain.size = front.length + 1 := by simpa using size_of_listed listed
  cases front with
  | nil =>
    have stored : chain.get? 0 = some last := get?_of_listed listed
    rw [check, head?, stored, size]
    rfl
  | cons first rest =>
    have stored : chain.get? 0 = some first := @get?_of_listed chain [] _ first listed
    have whole := unbroken.checkFrom_eq [] listed .nothing
    rw [unbroken.checkToken_first stored (by simp [size])] at whole
    simp only [List.length_nil, Nat.zero_add] at whole
    rw [check, head?, stored, size]
    exact whole

end Unbroken

/-! ### Integral chains are walked -/

namespace Integral

variable {chain : Chain}

theorem placed (integral : chain.Integral) {place : Nat} {token : Token}
    (stored : chain.get? place = some token) : PlacedAt chain.size place token :=
  integral.2 place token stored

theorem unbroken (integral : chain.Integral) : chain.Unbroken := by
  intro place token stored
  obtain ⟨index, prev, next, starts, ends⟩ := integral.placed stored
  exact ⟨index, prev, next, starts, ends.mp⟩

/-- The last token of an integral chain is its end, so something follows every other token. -/
theorem settled (integral : chain.Integral) {place : Nat} {token : Token}
    (stored : chain.get? place = some token) :
    place + 1 < chain.size ∨ token.kind = .endOfInput := by
  have bound := lt_size_of_get? stored
  rw [(integral.placed stored).2.2.2.2]
  omega

theorem next?_eq (integral : chain.Integral) {place : Nat} {token : Token}
    (stored : chain.get? place = some token) : chain.next? token = chain.get? (place + 1) :=
  integral.unbroken.next?_eq stored

theorem prev?_eq (integral : chain.Integral) {place : Nat} {token : Token}
    (stored : chain.get? (place + 1) = some token) : chain.prev? token = chain.get? place :=
  integral.unbroken.prev?_eq stored

/-- The first token is asked nothing. -/
theorem checkToken_first (integral : chain.Integral) {first : Token}
    (stored : chain.get? 0 = some first) (seen : Seen) :
    chain.checkToken seen first = .ok seen :=
  integral.unbroken.checkToken_first stored (integral.settled stored) seen

/-- Every other token follows the one that is stored before it. -/
theorem checkToken_next (integral : chain.Integral) {place : Nat} {previous token : Token}
    (before : chain.get? place = some previous) (stored : chain.get? (place + 1) = some token)
    (seen : Seen) : chain.checkToken seen token = follow seen previous token :=
  integral.unbroken.checkToken_next before stored (integral.settled stored) seen

theorem ne_end_of_before (integral : chain.Integral) {before after : List Token} {token : Token}
    (listed : chain.toList = before ++ token :: after) :
    ∀ earlier ∈ before, earlier.kind ≠ .endOfInput := by
  intro earlier member ended
  obtain ⟨place, bound, rfl⟩ := List.getElem_of_mem member
  have stored : chain.get? place = some before[place] := by
    simp [get?_eq_getElem?, listed, List.getElem?_append_left bound]
  have size := size_of_listed listed
  have last := (integral.placed stored).2.2.2.2.mp ended
  omega

/-- The tokens of an integral chain: the start of the source, the end, and others between. -/
theorem exists_between (integral : chain.Integral) :
    ∃ first between last, chain.toList = first :: (between ++ [last]) ∧
      first.kind = .startOfInput ∧ last.kind = .endOfInput ∧
      ∀ token ∈ between, token.kind ≠ .startOfInput ∧ token.kind ≠ .endOfInput := by
  have placed (place : Nat) (token : Token) (stored : chain.toList[place]? = some token) :=
    integral.placed ((get?_eq_getElem? chain place).trans stored)
  cases listed : chain.toList with
  | nil =>
    have nonempty := integral.1
    simp [← length_toList, listed] at nonempty
  | cons first rest =>
    have starts : first.kind = .startOfInput :=
      (placed 0 first (by simp [listed])).2.2.2.1.mpr rfl
    rcases List.eq_nil_or_concat rest with rfl | ⟨between, last, rfl⟩
    · -- A single token would be the start and the end of the source at once.
      have ended := (placed 0 first (by simp [listed])).2.2.2.2.mpr (by
        simp [← length_toList, listed])
      rw [starts] at ended
      cases ended
    · have size : chain.size = between.length + 2 := by simp [← length_toList, listed]
      refine ⟨first, between, last, by simp, starts, ?_, ?_⟩
      · apply (placed (between.length + 1) last (by simp [listed])).2.2.2.2.mpr
        omega
      · intro token member
        obtain ⟨place, bound, rfl⟩ := List.getElem_of_mem member
        obtain ⟨-, -, -, atStart, atEnd⟩ :=
          placed (place + 1) between[place] (by simp [listed, List.getElem?_append_left bound])
        constructor
        · intro same
          have first := atStart.mp same
          omega
        · intro same
          have last := atEnd.mp same
          omega

/-- On an integral chain the check is a walk over the tokens after the first. -/
theorem check_eq_walk (integral : chain.Integral) {first : Token} {rest : List Token}
    (listed : chain.toList = first :: rest) :
    chain.check = (walk .nothing first rest).map fun _ => () := by
  obtain ⟨start, between, last, whole, -, ended, -⟩ := integral.exists_between
  obtain ⟨rfl, rfl⟩ := List.cons.inj (whole.symm.trans listed)
  have front : chain.toList = (start :: between) ++ [last] := by simp [whole]
  have stored := get?_of_listed front
  have previous : chain.get? between.length = some (between.getLastD start) := by
    rw [get?_eq_getElem?, whole]
    rcases List.eq_nil_or_concat between with rfl | ⟨others, previous, rfl⟩
    · rfl
    · simp
  -- The last token is the end of the source, and there the check is done.
  have final (seen : Seen) : chain.checkFrom 1 (between.length + 1) seen last =
      (follow seen (between.getLastD start) last).map fun _ => () := by
    have index := (integral.placed stored).1
    have size := size_of_listed front
    rw [checkFrom, if_neg (by simpa using index), integral.checkToken_next previous stored]
    cases follow seen (between.getLastD start) last with
    | error error => rfl
    | ok after => simp [ended, size, Except.map]
  rw [integral.unbroken.check_eq front, walk_append]
  unfold ruled
  simp only [List.length_cons, final]
  cases walk .nothing start between with
  | error error => rfl
  | ok seen =>
    simp only [bind, Except.bind, walk]
    cases follow seen (between.getLastD start) last <;> rfl

end Integral

end Chain

end LinearSystem
