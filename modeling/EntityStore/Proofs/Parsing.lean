/-
What single steps of the parser do, forwards and backwards: which tokens a step takes when
they are there, and what was there when it succeeded. The tokens of a text end with a mark
that no step takes.
-/

import EntityStore.Proofs.Grammar

set_option autoImplicit false

namespace EntityStore

namespace Token

private theorem number_ne_finish {negative : Bool} {first : Char} {tail rest : List Char}
    {kind : TokenKind} (found : number negative first tail = .ok (kind, rest)) :
    kind ≠ .finish := by
  unfold number at found
  dsimp only at found
  split at found
  · cases found
    simp
  split at found
  · cases found
    simp
  · cases found

private theorem symbol?_ne_finish {character : Char} {kind : TokenKind}
    (found : symbol? character = some kind) : kind ≠ .finish := by
  unfold symbol? at found
  split at found <;> cases found <;> simp

private theorem lexeme_ne_finish {first : Char} {tail rest : List Char} {kind : TokenKind}
    (found : lexeme first tail = .ok (kind, rest)) : kind ≠ .finish := by
  unfold lexeme at found
  split at found
  · rename_i isSymbol
    cases found
    exact symbol?_ne_finish isSymbol
  split at found
  · unfold exclamationLexeme at found
    split at found <;> cases found
    simp
  split at found
  · unfold lessLexeme at found
    split at found <;> cases found <;> simp
  split at found
  · unfold greaterLexeme at found
    split at found <;> cases found <;> simp
  split at found
  · unfold namedLexeme at found
    split at found
    · cases found
    split at found
    · cases found
    · cases found
      simp
  split at found
  · unfold stringLexeme at found
    split at found <;> cases found
    simp
  split at found
  · unfold negativeLexeme at found
    split at found
    · cases found
    split at found
    · exact number_ne_finish found
    · cases found
  split at found
  · exact number_ne_finish found
  split at found
  · cases found
    simp
  · cases found

/-- Of the tokens of a text the last one, and only that, marks the end. -/
theorem scan_ok {position : Nat} {text : List Char} {tokens : List Token}
    (scanned : scan position text = .ok tokens) :
    ∃ words last, tokens = words ++ [last] ∧ last.kind = .finish ∧
      ∀ word ∈ words, word.kind ≠ .finish := by
  fun_induction scan position text generalizing tokens with
  | case1 position =>
      cases scanned
      exact ⟨[], _, rfl, rfl, by simp⟩
  | case2 position first tail isBlank ih => exact ih scanned
  | case3 position first tail notBlank cause found => cases scanned
  | case4 position first tail notBlank kind rest found _ fault failed => cases scanned
  | case5 =>
      rename_i found _ _ _ rested ih
      cases scanned
      obtain ⟨words, last, rfl, isEnd, inner⟩ := ih rested
      refine ⟨_ :: words, last, rfl, isEnd, ?_⟩
      intro word member
      rcases List.mem_cons.mp member with rfl | isLater
      · exact lexeme_ne_finish found
      · exact inner word isLater

end Token
namespace QueryParser

open Grammar (positionals)

variable {α β : Type}

/-! ### Tokens up to the end -/

def Closed (tokens : List Token) : Prop :=
  ∃ front last, tokens = front ++ [last] ∧ last.kind = .finish

theorem Closed.exists_head {tokens : List Token} (closed : Closed tokens) :
    ∃ token rest, tokens = token :: rest := by
  obtain ⟨front, last, rfl, _⟩ := closed
  cases front with
  | nil => exact ⟨last, [], rfl⟩
  | cons token rest => exact ⟨token, rest ++ [last], rfl⟩

/-- Only the mark of the end is last. -/
theorem Closed.tail {token : Token} {rest : List Token} (closed : Closed (token :: rest))
    (more : token.kind ≠ .finish) : Closed rest := by
  obtain ⟨front, last, same, isEnd⟩ := closed
  cases front with
  | nil =>
      cases same
      exact absurd isEnd more
  | cons first others =>
      cases same
      exact ⟨others, last, rfl, isEnd⟩

theorem Closed.append {rest : List Token} (closed : Closed rest) (tokens : List Token) :
    Closed (tokens ++ rest) := by
  obtain ⟨front, last, rfl, isEnd⟩ := closed
  exact ⟨tokens ++ front, last, (List.append_assoc _ _ _).symm, isEnd⟩

theorem Closed.cons {rest : List Token} (closed : Closed rest) (token : Token) :
    Closed (token :: rest) :=
  closed.append [token]

/-! ### Single steps -/

section Steps

variable {token : Token} {rest : List Token} {scope : List Mapping} {positional : Nat}

theorem run_bind_of {parser : Parser α} {next : α → Parser β} {state between : State}
    {first : α} (ran : parser.run state = .ok (first, between)) :
    (parser >>= next).run state = (next first).run between := by
  rw [StateT.run_bind, ran]
  rfl

theorem run_peek : peek.run ⟨token :: rest, scope, positional⟩
    = .ok (token, ⟨token :: rest, scope, positional⟩) := rfl

theorem run_get {state : State} : (get : Parser State).run state = .ok (state, state) := rfl

theorem run_advance (closed : Closed (token :: rest)) (more : token.kind ≠ .finish) :
    advance.run ⟨token :: rest, scope, positional⟩ = .ok ((), ⟨rest, scope, positional⟩) := by
  obtain ⟨next, later, rfl⟩ := (closed.tail more).exists_head
  rfl

theorem run_takeKeyword (closed : Closed (token :: rest)) {keyword : String}
    (isKeyword : token.kind.isKeyword keyword = true) :
    (takeKeyword keyword).run ⟨token :: rest, scope, positional⟩
      = .ok (true, ⟨rest, scope, positional⟩) := by
  unfold takeKeyword
  rw [run_bind_of run_peek, if_pos isKeyword,
    run_bind_of (run_advance closed (TokenKind.ne_of_isKeyword isKeyword rfl))]
  rfl

theorem run_takeKeyword_other {keyword : String}
    (other : token.kind.isKeyword keyword = false) :
    (takeKeyword keyword).run ⟨token :: rest, scope, positional⟩
      = .ok (false, ⟨token :: rest, scope, positional⟩) := by
  unfold takeKeyword
  rw [run_bind_of run_peek, if_neg (by simp [other])]
  rfl

theorem run_expectKeyword (closed : Closed (token :: rest)) {keyword : String}
    (isKeyword : token.kind.isKeyword keyword = true) :
    (expectKeyword keyword).run ⟨token :: rest, scope, positional⟩
      = .ok ((), ⟨rest, scope, positional⟩) := by
  unfold expectKeyword
  rw [run_bind_of (run_takeKeyword closed isKeyword)]
  rfl

theorem run_takeSymbol (closed : Closed (token :: rest)) {symbol : TokenKind}
    (isSymbol : token.kind = symbol) (more : symbol ≠ .finish) :
    (takeSymbol symbol).run ⟨token :: rest, scope, positional⟩
      = .ok (true, ⟨rest, scope, positional⟩) := by
  unfold takeSymbol
  rw [run_bind_of run_peek, if_pos isSymbol,
    run_bind_of (run_advance closed (isSymbol ▸ more))]
  rfl

theorem run_takeSymbol_other {symbol : TokenKind} (other : token.kind ≠ symbol) :
    (takeSymbol symbol).run ⟨token :: rest, scope, positional⟩
      = .ok (false, ⟨token :: rest, scope, positional⟩) := by
  unfold takeSymbol
  rw [run_bind_of run_peek, if_neg other]
  rfl

theorem run_word (closed : Closed (token :: rest)) {name : String}
    (isWord : token.kind = .word name) (expected : Expectation) :
    (word expected).run ⟨token :: rest, scope, positional⟩
      = .ok ((name, token.position), ⟨rest, scope, positional⟩) := by
  unfold word
  rw [run_bind_of run_peek]
  simp only [isWord]
  rw [run_bind_of (run_advance closed (by simp [isWord]))]
  rfl

end Steps

/-! ### What a step has read -/

theorem run_bind_ok {parser : Parser α} {next : α → Parser β} {state final : State} {result : β}
    (parsed : (parser >>= next).run state = .ok (result, final)) :
    ∃ first between, parser.run state = .ok (first, between) ∧
      (next first).run between = .ok (result, final) := by
  rw [StateT.run_bind] at parsed
  cases ran : parser.run state with
  | error fault =>
      rw [ran] at parsed
      cases parsed
  | ok pair =>
      rw [ran] at parsed
      exact ⟨pair.1, pair.2, rfl, parsed⟩

structure Reads (state : State) (tokens : List Token) (final : State) : Prop where
  tokens_eq : state.tokens = tokens ++ final.tokens
  closed : Closed final.tokens
  scope_eq : final.scope = state.scope
  positional_eq : final.positional = state.positional + positionals tokens

theorem Reads.refl {state : State} (closed : Closed state.tokens) : Reads state [] state :=
  ⟨rfl, closed, rfl, rfl⟩

theorem Reads.trans {state between final : State} {first second : List Token}
    (before : Reads state first between) (after : Reads between second final) :
    Reads state (first ++ second) final where
  tokens_eq := by rw [before.tokens_eq, after.tokens_eq, List.append_assoc]
  closed := after.closed
  scope_eq := after.scope_eq.trans before.scope_eq
  positional_eq := by
    rw [after.positional_eq, before.positional_eq, Grammar.positionals_append, Nat.add_assoc]

/-- Reading one more token behind others. -/
theorem Reads.one {token : Token} {rest : List Token} {scope : List Mapping} {positional : Nat}
    (closed : Closed (token :: rest)) (more : token.kind ≠ .finish)
    (other : token.kind ≠ .positional) :
    Reads ⟨token :: rest, scope, positional⟩ [token] ⟨rest, scope, positional⟩ where
  tokens_eq := rfl
  closed := closed.tail more
  scope_eq := rfl
  positional_eq := by simp [other]

theorem exists_view {state : State} (closed : Closed state.tokens) :
    ∃ token rest, state = ⟨token :: rest, state.scope, state.positional⟩ := by
  obtain ⟨token, rest, same⟩ := closed.exists_head
  exact ⟨token, rest, by cases state; cases same; rfl⟩

theorem peek_ok {state final : State} {token : Token} (closed : Closed state.tokens)
    (parsed : peek.run state = .ok (token, final)) :
    final = state ∧ ∃ rest, state.tokens = token :: rest := by
  obtain ⟨head, rest, view⟩ := exists_view closed
  rw [view] at parsed ⊢
  rw [run_peek] at parsed
  cases parsed
  exact ⟨rfl, rest, rfl⟩

/-- Either the keyword is there and is read, or another token is there. -/
theorem takeKeyword_ok {state final : State} {keyword : String} {taken : Bool}
    (closed : Closed state.tokens)
    (parsed : (takeKeyword keyword).run state = .ok (taken, final)) :
    (taken = true ∧ ∃ token, token.kind.isKeyword keyword = true ∧
      Reads state [token] final) ∨
    (taken = false ∧ final = state ∧ ∃ token rest, state.tokens = token :: rest ∧
      token.kind.isKeyword keyword = false) := by
  obtain ⟨head, rest, view⟩ := exists_view closed
  rw [view] at parsed closed ⊢
  cases isKeyword : head.kind.isKeyword keyword with
  | true =>
      rw [run_takeKeyword closed isKeyword] at parsed
      cases parsed
      exact Or.inl ⟨rfl, head, isKeyword, Reads.one closed
        (TokenKind.ne_of_isKeyword isKeyword rfl) (TokenKind.ne_positional_of_isKeyword isKeyword)⟩
  | false =>
      rw [run_takeKeyword_other isKeyword] at parsed
      cases parsed
      exact Or.inr ⟨rfl, rfl, head, rest, rfl, isKeyword⟩

theorem expectKeyword_ok {state final : State} {keyword : String} {read : Unit}
    (closed : Closed state.tokens)
    (parsed : (expectKeyword keyword).run state = .ok (read, final)) :
    ∃ token, token.kind.isKeyword keyword = true ∧ Reads state [token] final := by
  obtain ⟨taken, between, parsedKeyword, parsedRest⟩ := run_bind_ok parsed
  rcases takeKeyword_ok closed parsedKeyword with ⟨rfl, token, isKeyword, reads⟩ | ⟨rfl, rfl, _⟩
  · cases parsedRest
    exact ⟨token, isKeyword, reads⟩
  · obtain ⟨head, rest, view⟩ := exists_view closed
    rw [view] at parsedRest
    cases parsedRest

theorem takeSymbol_ok {state final : State} {symbol : TokenKind} {taken : Bool}
    (closed : Closed state.tokens) (more : symbol ≠ .finish) (other : symbol ≠ .positional)
    (parsed : (takeSymbol symbol).run state = .ok (taken, final)) :
    (taken = true ∧ ∃ token, token.kind = symbol ∧ Reads state [token] final) ∨
    (taken = false ∧ final = state) := by
  obtain ⟨head, rest, view⟩ := exists_view closed
  rw [view] at parsed closed ⊢
  by_cases isSymbol : head.kind = symbol
  · rw [run_takeSymbol closed isSymbol more] at parsed
    cases parsed
    exact Or.inl ⟨rfl, head, isSymbol,
      Reads.one closed (isSymbol ▸ more) (isSymbol ▸ other)⟩
  · rw [run_takeSymbol_other isSymbol] at parsed
    cases parsed
    exact Or.inr ⟨rfl, rfl⟩

theorem word_ok {state final : State} {expected : Expectation} {name : String}
    {position : Nat} (closed : Closed state.tokens)
    (parsed : (word expected).run state = .ok ((name, position), final)) :
    ∃ token, token.kind = .word name ∧ Reads state [token] final := by
  obtain ⟨head, rest, view⟩ := exists_view closed
  rw [view] at parsed closed ⊢
  cases isWord : head.kind with
  | word content =>
      rw [run_word closed isWord] at parsed
      cases parsed
      exact ⟨head, isWord, Reads.one closed (by simp [isWord]) (by simp [isWord])⟩
  | _ =>
      unfold word at parsed
      rw [run_bind_of run_peek] at parsed
      simp only [isWord] at parsed
      cases parsed

theorem unexpected_ok {expected : Expectation} {state final : State} {result : α}
    (parsed : (unexpected expected).run state = .ok (result, final)) : False := by
  obtain ⟨_, _, _, failed⟩ := run_bind_ok parsed
  cases failed

/-- A keyword that has been read counts for no parameter. -/
theorem Reads.beside {state between : State} {token : Token} {keyword : String}
    (reads : Reads state [token] between) (isKeyword : token.kind.isKeyword keyword = true) :
    between.positional = state.positional := by
  have counted := reads.positional_eq
  simpa [TokenKind.ne_positional_of_isKeyword isKeyword] using counted

/-! ### The parts of a query -/

def filterClause (depth : Nat) : Parser (Option Expression) := do
  if ← takeKeyword "where" then pure (some (← condition depth))
  else pure none

def orderClause (steps : Nat) : Parser (List OrderKey) := do
  if ← takeKeyword "order" then
    expectKeyword "by"
    orderKeys steps
  else pure []

theorem query_eq (lookup : String → Option Mapping) (tokens : Nat) :
    query lookup tokens = (do
      expectKeyword "from"
      let root ← entity lookup
      let joined ← joins lookup (depthFor tokens) (tokens + 1)
      let filter ← filterClause (depthFor tokens)
      let order ← orderClause (tokens + 1)
      if (← peek).kind = .finish then
        return ⟨root, joined, filter, order, (← get).positional⟩
      else unexpected .endOfQuery) := by
  unfold query filterClause orderClause
  simp only [bind_assoc, pure_bind]
  congr
  funext _
  congr
  funext root
  congr
  funext joined
  congr
  funext filtered
  cases filtered
  · simp
    congr
    funext ordered
    cases ordered <;> simp
  · simp
    congr
    funext filter
    congr
    funext ordered
    cases ordered <;> simp

end QueryParser
end EntityStore
