/-
Whatever the parser accepts has a derivation. Each function of the parser is inverted along
its steps; the loops over the conditions carry the derivation of what they have read.
-/

import EntityStore.Proofs.Parsing

set_option autoImplicit false

namespace EntityStore
namespace QueryParser

open Grammar (positionals)

/-! ### References -/

private theorem resolve_ok {number : Nat} {mapping : Mapping} {property : String}
    {reference : ColumnRef} (resolved : resolve number mapping property = .ok reference) :
    ∃ column, mapping.columnOf? property = some column ∧ reference = ⟨number, column⟩ := by
  unfold resolve at resolved
  unfold Mapping.columnOf?
  split at resolved
  · rename_i isId
    cases resolved
    exact ⟨_, if_pos isId, rfl⟩
  · rename_i notId
    rw [if_neg notId]
    split at resolved
    · cases resolved
    · rename_i found isFound
      split at resolved
      · cases resolved
      · rename_i column hasColumn
        cases resolved
        exact ⟨column, by rw [isFound, Option.bind_some, hasColumn], rfl⟩

private theorem resolved_ok {outcome : Except ReferenceFault ColumnRef} {state final : State}
    {column : ColumnRef} (parsed : (resolved outcome).run state = .ok (column, final)) :
    outcome = .ok column ∧ final = state := by
  cases outcome with
  | error fault => cases parsed
  | ok found =>
      cases parsed
      exact ⟨rfl, rfl⟩

/-- The entity type with a name that stands first under a number. -/
theorem getElem?_of_find?_zipIdx {scope : List Mapping} {name : String} {mapping : Mapping}
    {number : Nat}
    (found : scope.zipIdx.find? (fun entry => entry.1.entity == name) = some (mapping, number)) :
    scope[number]? = some mapping ∧ mapping.entity = name := by
  have member := List.mem_of_find?_eq_some found
  constructor
  · exact List.mem_zipIdx_iff_getElem?.mp member
  · simpa using List.find?_some found

private theorem reference_ok {state final : State} {first : Token} {name : String} {position : Nat}
    {column : ColumnRef} (closed : Closed state.tokens) (isWord : first.kind = .word name)
    (parsed : (reference name position).run state = .ok (column, final)) :
    ∃ tokens, Reads state tokens final ∧
      Grammar.Reference state.scope (first :: tokens) column := by
  obtain ⟨taken, between, parsedPoint, parsedRest⟩ := run_bind_ok parsed
  rcases takeSymbol_ok closed (by simp) (by simp) parsedPoint with
    ⟨rfl, point, isPoint, readsPoint⟩ | ⟨rfl, rfl⟩
  · rw [if_pos rfl] at parsedRest
    obtain ⟨⟨property, place⟩, after, parsedWord, parsedRest⟩ := run_bind_ok parsedRest
    obtain ⟨token, isProperty, readsWord⟩ := word_ok readsPoint.closed parsedWord
    obtain ⟨current, same, parsedState, parsedRest⟩ := run_bind_ok parsedRest
    cases parsedState
    dsimp only at parsedRest
    have sameScope : after.scope = state.scope := readsWord.scope_eq.trans readsPoint.scope_eq
    split at parsedRest
    · cases parsedRest
    · rename_i mapping number found
      obtain ⟨resolves, rfl⟩ := resolved_ok parsedRest
      obtain ⟨content, hasColumn, rfl⟩ := resolve_ok resolves
      obtain ⟨introduced, named⟩ := getElem?_of_find?_zipIdx (sameScope ▸ found)
      exact ⟨[point, token], readsPoint.trans readsWord,
        .qualified (named ▸ isWord) introduced isPoint isProperty hasColumn⟩
  · rw [if_neg (by simp)] at parsedRest
    obtain ⟨current, same, parsedState, parsedRest⟩ := run_bind_ok parsedRest
    cases parsedState
    split at parsedRest
    · cases parsedRest
    · rename_i root others isScope
      obtain ⟨resolves, rfl⟩ := resolved_ok parsedRest
      obtain ⟨content, hasColumn, rfl⟩ := resolve_ok resolves
      exact ⟨[], Reads.refl closed, .bare isWord (by rw [isScope]; rfl) hasColumn⟩

/-! ### Conditions -/

private theorem isLiteralWord_of_literalWord? {name : String} (none' : literalWord? name = none) :
    Grammar.isLiteralWord (.word name) = false := by
  unfold literalWord? at none'
  split at none'
  · cases none'
  split at none'
  · cases none'
  split at none'
  · cases none'
  rename_i notNull notTrue notFalse
  simp [Grammar.isLiteralWord, TokenKind.isKeyword, notNull, notTrue, notFalse]

private theorem literalWord?_ok {scope : List Mapping} {before : Nat} {token : Token}
    {name : String}
    {value : Value} (isWord : token.kind = .word name) (some' : literalWord? name = some value) :
    Grammar.Operand scope before [token] (.bound (.literal value)) := by
  unfold literalWord? at some'
  split at some'
  · rename_i isNull
    cases some'
    exact .nullWord (by rw [isWord]; exact isNull)
  split at some'
  · rename_i isTrue
    cases some'
    exact .trueWord (by rw [isWord]; exact isTrue)
  split at some'
  · rename_i isFalse
    cases some'
    exact .falseWord (by rw [isWord]; exact isFalse)
  · cases some'

private theorem operand_ok {state final : State} {result : Operand} (closed : Closed state.tokens)
    (parsed : operand.run state = .ok (result, final)) :
    ∃ tokens, Reads state tokens final ∧
      Grammar.Operand state.scope state.positional tokens result := by
  obtain ⟨head, rest, view⟩ := exists_view closed
  rw [view] at parsed closed ⊢
  unfold operand at parsed
  rw [run_bind_of run_peek] at parsed
  cases kind : head.kind with
  | integer number =>
      simp only [kind] at parsed
      rw [run_bind_of (run_advance closed (by simp [kind]))] at parsed
      cases parsed
      exact ⟨[head], Reads.one closed (by simp [kind]) (by simp [kind]), .integer kind⟩
  | float number =>
      simp only [kind] at parsed
      rw [run_bind_of (run_advance closed (by simp [kind]))] at parsed
      cases parsed
      exact ⟨[head], Reads.one closed (by simp [kind]) (by simp [kind]), .float kind⟩
  | string content =>
      simp only [kind] at parsed
      rw [run_bind_of (run_advance closed (by simp [kind]))] at parsed
      cases parsed
      exact ⟨[head], Reads.one closed (by simp [kind]) (by simp [kind]), .string kind⟩
  | named name =>
      simp only [kind] at parsed
      rw [run_bind_of (run_advance closed (by simp [kind]))] at parsed
      cases parsed
      exact ⟨[head], Reads.one closed (by simp [kind]) (by simp [kind]), .named kind⟩
  | positional =>
      simp only [kind] at parsed
      rw [run_bind_of (run_advance closed (by simp [kind]))] at parsed
      cases parsed
      exact ⟨[head], ⟨rfl, closed.tail (by simp [kind]), rfl, by simp [kind]⟩, .positional kind⟩
  | word name =>
      simp only [kind] at parsed
      rw [run_bind_of (run_advance closed (by simp [kind]))] at parsed
      have reads : Reads ⟨head :: rest, state.scope, state.positional⟩ [head]
          ⟨rest, state.scope, state.positional⟩ :=
        Reads.one closed (by simp [kind]) (by simp [kind])
      cases isLiteral : literalWord? name with
      | some value =>
          simp only [isLiteral] at parsed
          cases parsed
          exact ⟨[head], reads, literalWord?_ok kind isLiteral⟩
      | none =>
          simp only [isLiteral] at parsed
          obtain ⟨column, between, parsedReference, returned⟩ := run_bind_ok parsed
          cases returned
          obtain ⟨tokens, readsRest, refers⟩ := reference_ok reads.closed kind parsedReference
          refine ⟨head :: tokens, reads.trans readsRest, .reference ?_ refers⟩
          rw [kind]
          exact isLiteralWord_of_literalWord? isLiteral
  | _ =>
      simp only [kind] at parsed
      cases parsed

private theorem comparison?_ok {kind : TokenKind} {comparison : Comparison}
    (compares : comparison? kind = some comparison) : Grammar.Sign kind comparison := by
  cases kind with
  | word name =>
      simp only [comparison?] at compares
      split at compares
      · rename_i isLike
        cases compares
        exact .like isLike
      · cases compares
  | equal => cases compares; exact .equal
  | unequal => cases compares; exact .unequal
  | less => cases compares; exact .less
  | atMost => cases compares; exact .atMost
  | greater => cases compares; exact .greater
  | atLeast => cases compares; exact .atLeast
  | _ => cases compares

theorem ne_of_sign {kind : TokenKind} {comparison : Comparison}
    (sign : Grammar.Sign kind comparison) : kind ≠ .finish ∧ kind ≠ .positional := by
  cases sign with
  | like isLike => exact ⟨TokenKind.ne_of_isKeyword isLike rfl, TokenKind.ne_positional_of_isKeyword isLike⟩
  | _ => simp

private theorem predicate_ok {state final : State} {left : Operand} {result : Expression}
    (closed : Closed state.tokens)
    (parsed : (predicate left).run state = .ok (result, final)) :
    ∃ tokens, Reads state tokens final ∧
      Grammar.Predicate state.scope state.positional left tokens result := by
  obtain ⟨isTaken, afterIs, parsedIs, parsedBranch⟩ := run_bind_ok parsed
  rcases takeKeyword_ok closed parsedIs with ⟨rfl, verb, isVerb, readsVerb⟩ | ⟨rfl, rfl, _⟩
  · rw [if_pos rfl] at parsedBranch
    obtain ⟨negated, afterNot, parsedNot, parsedRest⟩ := run_bind_ok parsedBranch
    obtain ⟨_, afterNull, parsedNull, returned⟩ := run_bind_ok parsedRest
    rcases takeKeyword_ok readsVerb.closed parsedNot with
      ⟨rfl, no, isNo, readsNo⟩ | ⟨rfl, rfl, _⟩
    · obtain ⟨null, isNull, readsNull⟩ := expectKeyword_ok readsNo.closed parsedNull
      cases returned
      exact ⟨[verb, no, null], readsVerb.trans (readsNo.trans readsNull),
        .isNotNull isVerb isNo isNull⟩
    · obtain ⟨null, isNull, readsNull⟩ := expectKeyword_ok readsVerb.closed parsedNull
      cases returned
      exact ⟨[verb, null], readsVerb.trans readsNull, .isNull isVerb isNull⟩
  rw [if_neg (by simp)] at parsedBranch
  obtain ⟨notTaken, afterNot, parsedNot, parsedCase⟩ := run_bind_ok parsedBranch
  rcases takeKeyword_ok closed parsedNot with ⟨rfl, no, isNo, readsNo⟩ | ⟨rfl, rfl, _⟩
  · rw [if_pos rfl] at parsedCase
    obtain ⟨_, afterLike, parsedLike, parsedRest⟩ := run_bind_ok parsedCase
    obtain ⟨right, afterRight, parsedRight, returned⟩ := run_bind_ok parsedRest
    obtain ⟨like, isLike, readsLike⟩ := expectKeyword_ok readsNo.closed parsedLike
    obtain ⟨tokens, readsRight, operates⟩ := operand_ok readsLike.closed parsedRight
    cases returned
    have reads := readsNo.trans readsLike
    refine ⟨no :: like :: tokens, reads.trans readsRight, .notLike isNo isLike ?_⟩
    have counted := reads.positional_eq
    rw [List.singleton_append, Grammar.positionals_cons, Grammar.positionals_cons,
      if_neg (TokenKind.ne_positional_of_isKeyword isNo), if_neg (TokenKind.ne_positional_of_isKeyword isLike)]
      at counted
    rw [counted, reads.scope_eq] at operates
    exact operates
  rw [if_neg (by simp)] at parsedCase
  obtain ⟨token, between, parsedPeek, parsedSign⟩ := run_bind_ok parsedCase
  obtain ⟨rfl, rest, isHead⟩ := peek_ok closed parsedPeek
  cases compares : comparison? token.kind with
  | none =>
      simp only [compares] at parsedSign
      obtain ⟨_, _, _, failed⟩ := run_bind_ok parsedSign
      cases failed
  | some comparison =>
      simp only [compares] at parsedSign
      have sign := comparison?_ok compares
      obtain ⟨more, other⟩ := ne_of_sign sign
      obtain ⟨head, others, view⟩ := exists_view closed
      rw [view] at isHead parsedSign closed ⊢
      cases isHead
      rw [run_bind_of (run_advance closed more)] at parsedSign
      obtain ⟨right, afterRight, parsedRight, returned⟩ := run_bind_ok parsedSign
      cases returned
      obtain ⟨tokens, readsRight, operates⟩ := operand_ok (closed.tail more) parsedRight
      exact ⟨token :: tokens, (Reads.one closed more other).trans readsRight,
        .compare sign operates⟩

/-- What the functions that descend into conditions have read, when they have at most
this many steps. A loop has read its left side before. -/
structure Descends (steps : Nat) : Prop where
  condition : ∀ {state final : State} {result : Expression}, Closed state.tokens →
    (condition steps).run state = .ok (result, final) →
    ∃ tokens, Reads state tokens final ∧
      Grammar.Condition state.scope .disjunction state.positional tokens result
  alternatives : ∀ {start state final : State} {first : List Token} {left result : Expression},
    Reads start first state →
    Grammar.Condition start.scope .disjunction start.positional first left →
    (alternatives steps left).run state = .ok (result, final) →
    ∃ tokens, Reads start tokens final ∧
      Grammar.Condition start.scope .disjunction start.positional tokens result
  conjunction : ∀ {state final : State} {result : Expression}, Closed state.tokens →
    (conjunction steps).run state = .ok (result, final) →
    ∃ tokens, Reads state tokens final ∧
      Grammar.Condition state.scope .conjunction state.positional tokens result
  conjuncts : ∀ {start state final : State} {first : List Token} {left result : Expression},
    Reads start first state →
    Grammar.Condition start.scope .conjunction start.positional first left →
    (conjuncts steps left).run state = .ok (result, final) →
    ∃ tokens, Reads start tokens final ∧
      Grammar.Condition start.scope .conjunction start.positional tokens result
  unary : ∀ {state final : State} {result : Expression}, Closed state.tokens →
    (unary steps).run state = .ok (result, final) →
    ∃ tokens, Reads state tokens final ∧
      Grammar.Condition state.scope .unary state.positional tokens result

section Steps

variable {steps : Nat} {start state final : State} {first : List Token}
  {left result : Expression}

private theorem reads_condition (below : Descends steps) (closed : Closed state.tokens)
    (parsed : (condition (steps + 1)).run state = .ok (result, final)) :
    ∃ tokens, Reads state tokens final ∧
      Grammar.Condition state.scope .disjunction state.positional tokens result := by
  obtain ⟨left, between, parsedLeft, parsedRest⟩ := run_bind_ok parsed
  obtain ⟨first, reads, derived⟩ := below.conjunction closed parsedLeft
  exact below.alternatives reads (.conjunction derived) parsedRest

private theorem reads_alternatives (below : Descends steps) (reads : Reads start first state)
    (derived : Grammar.Condition start.scope .disjunction start.positional first left)
    (parsed : (alternatives (steps + 1) left).run state = .ok (result, final)) :
    ∃ tokens, Reads start tokens final ∧
      Grammar.Condition start.scope .disjunction start.positional tokens result := by
  obtain ⟨taken, between, parsedOr, parsedBranch⟩ := run_bind_ok parsed
  rcases takeKeyword_ok reads.closed parsedOr with
    ⟨rfl, joint, isOr, readsOr⟩ | ⟨rfl, rfl, _⟩
  · rw [if_pos rfl] at parsedBranch
    obtain ⟨right, after, parsedRight, parsedRest⟩ := run_bind_ok parsedBranch
    obtain ⟨second, readsRight, derivedRight⟩ := below.conjunction readsOr.closed parsedRight
    rw [readsOr.scope_eq, reads.scope_eq, readsOr.beside isOr, reads.positional_eq]
      at derivedRight
    exact below.alternatives (reads.trans (readsOr.trans readsRight))
      (.or derived isOr derivedRight) parsedRest
  · rw [if_neg (by simp)] at parsedBranch
    cases parsedBranch
    exact ⟨first, reads, derived⟩

private theorem reads_conjunction (below : Descends steps) (closed : Closed state.tokens)
    (parsed : (conjunction (steps + 1)).run state = .ok (result, final)) :
    ∃ tokens, Reads state tokens final ∧
      Grammar.Condition state.scope .conjunction state.positional tokens result := by
  obtain ⟨left, between, parsedLeft, parsedRest⟩ := run_bind_ok parsed
  obtain ⟨first, reads, derived⟩ := below.unary closed parsedLeft
  exact below.conjuncts reads (.unary derived) parsedRest

private theorem reads_conjuncts (below : Descends steps) (reads : Reads start first state)
    (derived : Grammar.Condition start.scope .conjunction start.positional first left)
    (parsed : (conjuncts (steps + 1) left).run state = .ok (result, final)) :
    ∃ tokens, Reads start tokens final ∧
      Grammar.Condition start.scope .conjunction start.positional tokens result := by
  obtain ⟨taken, between, parsedAnd, parsedBranch⟩ := run_bind_ok parsed
  rcases takeKeyword_ok reads.closed parsedAnd with
    ⟨rfl, joint, isAnd, readsAnd⟩ | ⟨rfl, rfl, _⟩
  · rw [if_pos rfl] at parsedBranch
    obtain ⟨right, after, parsedRight, parsedRest⟩ := run_bind_ok parsedBranch
    obtain ⟨second, readsRight, derivedRight⟩ := below.unary readsAnd.closed parsedRight
    rw [readsAnd.scope_eq, reads.scope_eq, readsAnd.beside isAnd, reads.positional_eq]
      at derivedRight
    exact below.conjuncts (reads.trans (readsAnd.trans readsRight))
      (.and derived isAnd derivedRight) parsedRest
  · rw [if_neg (by simp)] at parsedBranch
    cases parsedBranch
    exact ⟨first, reads, derived⟩

private theorem reads_group (below : Descends steps) {opening : Token}
    (isOpening : opening.kind = .leftParenthesis) (readsOpening : Reads start [opening] state)
    (parsed : ((do
        let inner ← condition steps
        if ← takeSymbol .rightParenthesis then return inner
        else unexpected .closingParenthesis) : Parser Expression).run state
      = .ok (result, final)) :
    ∃ tokens, Reads start tokens final ∧
      Grammar.Condition start.scope .unary start.positional tokens result := by
  obtain ⟨inner, after, parsedInner, parsedClosing⟩ := run_bind_ok parsed
  obtain ⟨tokens, readsInner, derived⟩ := below.condition readsOpening.closed parsedInner
  obtain ⟨shut, last, parsedEnd, returned⟩ := run_bind_ok parsedClosing
  rcases takeSymbol_ok readsInner.closed (by simp) (by simp) parsedEnd with
    ⟨rfl, closing, isClosing, readsClosing⟩ | ⟨rfl, rfl⟩
  · rw [if_pos rfl] at returned
    cases returned
    have counted := readsOpening.positional_eq
    simp only [Grammar.positionals_cons, isOpening, Grammar.positionals_nil] at counted
    rw [readsOpening.scope_eq, counted] at derived
    exact ⟨opening :: (tokens ++ [closing]),
      readsOpening.trans (readsInner.trans readsClosing),
      .parentheses isOpening derived isClosing⟩
  · rw [if_neg (by simp)] at returned
    exact (unexpected_ok returned).elim

private theorem reads_test {head : Token} {rest : List Token} (closed : Closed state.tokens)
    (isHead : state.tokens = head :: rest) (notNot : head.kind.isKeyword "not" = false)
    (parsed : (operand >>= predicate).run state = .ok (result, final)) :
    ∃ tokens, Reads state tokens final ∧
      Grammar.Condition state.scope .unary state.positional tokens result := by
  obtain ⟨left, after, parsedLeft, parsedPredicate⟩ := run_bind_ok parsed
  obtain ⟨first, readsLeft, operates⟩ := operand_ok closed parsedLeft
  obtain ⟨tokens, readsRest, tests⟩ := predicate_ok readsLeft.closed parsedPredicate
  rw [readsLeft.scope_eq, readsLeft.positional_eq] at tests
  obtain ⟨token, others, rfl⟩ := operates.exists_head
  have same : head = token := by
    have split := readsLeft.tokens_eq
    rw [isHead] at split
    exact (List.cons.inj split).1
  subst same
  exact ⟨_, readsLeft.trans readsRest, .predicate notNot operates tests⟩

private theorem reads_unary (below : Descends steps) (closed : Closed state.tokens)
    (parsed : (unary (steps + 1)).run state = .ok (result, final)) :
    ∃ tokens, Reads state tokens final ∧
      Grammar.Condition state.scope .unary state.positional tokens result := by
  obtain ⟨taken, between, parsedNot, parsedBranch⟩ := run_bind_ok parsed
  rcases takeKeyword_ok closed parsedNot with
    ⟨rfl, no, isNot, readsNot⟩ | ⟨rfl, rfl, head, rest, isHead, notNot⟩
  · rw [if_pos rfl] at parsedBranch
    obtain ⟨inner, after, parsedInner, returned⟩ := run_bind_ok parsedBranch
    cases returned
    obtain ⟨tokens, readsInner, derived⟩ := below.unary readsNot.closed parsedInner
    rw [readsNot.scope_eq, readsNot.beside isNot] at derived
    exact ⟨no :: tokens, readsNot.trans readsInner, .not isNot derived⟩
  rw [if_neg (by simp)] at parsedBranch
  obtain ⟨opened, afterOpening, parsedOpening, parsedCase⟩ := run_bind_ok parsedBranch
  rcases takeSymbol_ok closed (by simp) (by simp) parsedOpening with
    ⟨rfl, opening, isOpening, readsOpening⟩ | ⟨rfl, rfl⟩
  · rw [if_pos rfl] at parsedCase
    exact reads_group below isOpening readsOpening parsedCase
  · rw [if_neg (by simp)] at parsedCase
    exact reads_test closed isHead notNot parsedCase

end Steps

private theorem descends (steps : Nat) : Descends steps := by
  induction steps with
  | zero =>
      constructor
      · intro state final result _ parsed
        exact (unexpected_ok parsed).elim
      · intro start state final first left result _ _ parsed
        exact (unexpected_ok parsed).elim
      · intro state final result _ parsed
        exact (unexpected_ok parsed).elim
      · intro start state final first left result _ _ parsed
        exact (unexpected_ok parsed).elim
      · intro state final result _ parsed
        exact (unexpected_ok parsed).elim
  | succ steps below =>
      exact {
        condition := reads_condition below
        alternatives := reads_alternatives below
        conjunction := reads_conjunction below
        conjuncts := reads_conjuncts below
        unary := reads_unary below }

/-! ### Clauses -/

structure Introduces (lookup : String → Option Mapping) (state : State) (token : Token)
    (mapping : Mapping) (final : State) : Prop where
  tokens_eq : state.tokens = token :: final.tokens
  closed : Closed final.tokens
  scope_eq : final.scope = state.scope ++ [mapping]
  positional_eq : final.positional = state.positional
  derived : Grammar.Entity lookup state.scope token mapping

private theorem entity_reads {lookup : String → Option Mapping} {state final : State}
    {mapping : Mapping} (closed : Closed state.tokens)
    (parsed : (entity lookup).run state = .ok (mapping, final)) :
    ∃ token, Introduces lookup state token mapping final := by
  obtain ⟨⟨name, position⟩, between, parsedWord, parsedRest⟩ := run_bind_ok parsed
  obtain ⟨token, isWord, reads⟩ := word_ok closed parsedWord
  cases found : lookup name with
  | none =>
      simp only [found] at parsedRest
      cases parsedRest
  | some other =>
      simp only [found] at parsedRest
      obtain ⟨current, same, parsedState, parsedLast⟩ := run_bind_ok parsedRest
      cases parsedState
      split at parsedLast
      · cases parsedLast
      · rename_i fresh
        obtain ⟨_, after, changed, returned⟩ := run_bind_ok parsedLast
        cases changed
        cases returned
        refine ⟨token, reads.tokens_eq, reads.closed, congrArg (· ++ [mapping]) reads.scope_eq,
          ?_, ⟨name, isWord, found⟩, ?_⟩
        · have counted := reads.positional_eq
          simpa [isWord] using counted
        · rw [reads.scope_eq] at fresh
          simpa using fresh

private theorem joinKind_ok {state final : State} {result : Option JoinKind}
    (closed : Closed state.tokens) (parsed : joinKind.run state = .ok (result, final)) :
    (result = none ∧ final = state) ∨
    ∃ kind tokens, result = some kind ∧ Grammar.Joining tokens kind ∧
      Reads state tokens final := by
  obtain ⟨innerTaken, afterInner, parsedInner, parsedBranch⟩ := run_bind_ok parsed
  rcases takeKeyword_ok closed parsedInner with ⟨rfl, inner, isInner, readsInner⟩ | ⟨rfl, rfl, _⟩
  · rw [if_pos rfl] at parsedBranch
    obtain ⟨_, after, parsedJoin, returned⟩ := run_bind_ok parsedBranch
    obtain ⟨join, isJoin, readsJoin⟩ := expectKeyword_ok readsInner.closed parsedJoin
    cases returned
    exact Or.inr ⟨_, [inner, join], rfl, .inner isInner isJoin, readsInner.trans readsJoin⟩
  rw [if_neg (by simp)] at parsedBranch
  obtain ⟨outerTaken, afterOuter, parsedOuter, parsedCase⟩ := run_bind_ok parsedBranch
  rcases takeKeyword_ok closed parsedOuter with ⟨rfl, outer, isOuter, readsOuter⟩ | ⟨rfl, rfl, _⟩
  · rw [if_pos rfl] at parsedCase
    obtain ⟨_, after, parsedJoin, returned⟩ := run_bind_ok parsedCase
    obtain ⟨join, isJoin, readsJoin⟩ := expectKeyword_ok readsOuter.closed parsedJoin
    cases returned
    exact Or.inr ⟨_, [outer, join], rfl, .outer isOuter isJoin, readsOuter.trans readsJoin⟩
  rw [if_neg (by simp)] at parsedCase
  obtain ⟨leftTaken, afterLeft, parsedLeft, parsedLast⟩ := run_bind_ok parsedCase
  rcases takeKeyword_ok closed parsedLeft with ⟨rfl, side, isLeft, readsLeft⟩ | ⟨rfl, rfl, _⟩
  · rw [if_pos rfl] at parsedLast
    obtain ⟨outerWord, afterWord, parsedWord, parsedRest⟩ := run_bind_ok parsedLast
    obtain ⟨_, after, parsedJoin, returned⟩ := run_bind_ok parsedRest
    rcases takeKeyword_ok readsLeft.closed parsedWord with
      ⟨rfl, outer, isOuter, readsOuter⟩ | ⟨rfl, rfl, _⟩
    · obtain ⟨join, isJoin, readsJoin⟩ := expectKeyword_ok readsOuter.closed parsedJoin
      cases returned
      exact Or.inr ⟨_, [side, outer, join], rfl, .leftOuter isLeft isOuter isJoin,
        readsLeft.trans (readsOuter.trans readsJoin)⟩
    · obtain ⟨join, isJoin, readsJoin⟩ := expectKeyword_ok readsLeft.closed parsedJoin
      cases returned
      exact Or.inr ⟨_, [side, join], rfl, .left isLeft isJoin, readsLeft.trans readsJoin⟩
  rw [if_neg (by simp)] at parsedLast
  obtain ⟨joinTaken, afterJoin, parsedJoin, returned⟩ := run_bind_ok parsedLast
  rcases takeKeyword_ok closed parsedJoin with ⟨rfl, join, isJoin, readsJoin⟩ | ⟨rfl, rfl, _⟩
  · rw [if_pos rfl] at returned
    cases returned
    exact Or.inr ⟨_, [join], rfl, .plain isJoin, readsJoin⟩
  · rw [if_neg (by simp)] at returned
    cases returned
    exact Or.inl ⟨rfl, rfl⟩

structure ReadsJoins (lookup : String → Option Mapping) (state : State)
    (tokens : List Token) (joins : List Join) (final : State) : Prop where
  tokens_eq : state.tokens = tokens ++ final.tokens
  closed : Closed final.tokens
  scope_eq : final.scope = state.scope ++ joins.map Join.target
  positional_eq : final.positional = state.positional + positionals tokens
  derived : Grammar.Joins lookup state.scope state.positional tokens joins

private theorem joins_ok {lookup : String → Option Mapping} {depth steps : Nat}
    {state final : State} {result : List Join} (closed : Closed state.tokens)
    (parsed : (joins lookup depth steps).run state = .ok (result, final)) :
    ∃ tokens, ReadsJoins lookup state tokens result final := by
  induction steps generalizing state result with
  | zero => exact (unexpected_ok parsed).elim
  | succ steps ih =>
      obtain ⟨outcome, afterKind, parsedKind, parsedCase⟩ := run_bind_ok parsed
      rcases joinKind_ok closed parsedKind with
        ⟨rfl, rfl⟩ | ⟨kind, joining, rfl, isJoining, readsKind⟩
      · cases parsedCase
        exact ⟨[], rfl, closed, (List.append_nil _).symm, rfl, .none⟩
      · obtain ⟨target, afterEntity, parsedEntity, parsedOn⟩ := run_bind_ok parsedCase
        obtain ⟨_, afterOn, parsedWord, parsedCondition⟩ := run_bind_ok parsedOn
        obtain ⟨condition, afterCondition, parsedInner, parsedMore⟩ :=
          run_bind_ok parsedCondition
        obtain ⟨others, afterOthers, parsedOthers, returned⟩ := run_bind_ok parsedMore
        cases returned
        obtain ⟨token, introduces⟩ := entity_reads readsKind.closed parsedEntity
        obtain ⟨on, isOn, readsOn⟩ := expectKeyword_ok introduces.closed parsedWord
        obtain ⟨inside, readsInside, derived⟩ :=
          (descends depth).condition readsOn.closed parsedInner
        obtain ⟨rest, readsRest⟩ := ih readsInside.closed parsedOthers
        have scopeOn : afterOn.scope = state.scope ++ [target] := by
          rw [readsOn.scope_eq, introduces.scope_eq, readsKind.scope_eq]
        have countOn : afterOn.positional = state.positional := by
          rw [readsOn.beside isOn, introduces.positional_eq, readsKind.positional_eq,
            (Grammar.plain_of_joining isJoining).positionals_eq, Nat.add_zero]
        have scopeRest : afterCondition.scope = state.scope ++ [target] := by
          rw [readsInside.scope_eq, scopeOn]
        have countRest :
            afterCondition.positional = state.positional + positionals inside := by
          rw [readsInside.positional_eq, countOn]
        have isEntity := introduces.derived
        have derivedRest := readsRest.derived
        rw [readsKind.scope_eq] at isEntity
        rw [scopeOn, countOn] at derived
        rw [scopeRest, countRest] at derivedRest
        refine ⟨joining ++ token :: on :: (inside ++ rest), ?_, readsRest.closed, ?_, ?_,
          .join isJoining isEntity isOn derived derivedRest⟩
        · rw [readsKind.tokens_eq, introduces.tokens_eq, readsOn.tokens_eq,
            readsInside.tokens_eq, readsRest.tokens_eq]
          simp
        · rw [readsRest.scope_eq, scopeRest]
          simp
        · rw [readsRest.positional_eq, countRest]
          simp [(Grammar.plain_of_joining isJoining).positionals_eq,
            TokenKind.ne_positional_of_plain (Grammar.plain_of_entity isEntity),
            TokenKind.ne_positional_of_isKeyword isOn, Nat.add_assoc]

private theorem orderKey_ok {state final : State} {result : OrderKey} (closed : Closed state.tokens)
    (parsed : orderKey.run state = .ok (result, final)) :
    ∃ tokens, Reads state tokens final ∧ Grammar.Key state.scope tokens result := by
  obtain ⟨⟨name, position⟩, afterWord, parsedWord, parsedRest⟩ := run_bind_ok parsed
  obtain ⟨column, afterColumn, parsedColumn, parsedBranch⟩ := run_bind_ok parsedRest
  obtain ⟨token, isWord, readsWord⟩ := word_ok closed parsedWord
  obtain ⟨others, readsOthers, refers⟩ := reference_ok readsWord.closed isWord parsedColumn
  rw [readsWord.scope_eq] at refers
  have reads := readsWord.trans readsOthers
  obtain ⟨taken, afterDesc, parsedDesc, parsedCase⟩ := run_bind_ok parsedBranch
  rcases takeKeyword_ok reads.closed parsedDesc with ⟨rfl, word, isDesc, readsDesc⟩ | ⟨rfl, rfl, _⟩
  · rw [if_pos rfl] at parsedCase
    cases parsedCase
    exact ⟨_, reads.trans readsDesc, .descending refers isDesc⟩
  rw [if_neg (by simp)] at parsedCase
  obtain ⟨ascending, afterAsc, parsedAsc, returned⟩ := run_bind_ok parsedCase
  rcases takeKeyword_ok reads.closed parsedAsc with ⟨rfl, word, isAsc, readsAsc⟩ | ⟨rfl, rfl, _⟩
  · cases returned
    exact ⟨_, reads.trans readsAsc, .ascending refers isAsc⟩
  · cases returned
    exact ⟨_, reads, .plain refers⟩

private theorem orderKeys_ok {steps : Nat} {state final : State} {result : List OrderKey}
    (closed : Closed state.tokens)
    (parsed : (orderKeys steps).run state = .ok (result, final)) :
    ∃ tokens, Reads state tokens final ∧ Grammar.Keys state.scope tokens result := by
  induction steps generalizing state result with
  | zero => exact (unexpected_ok parsed).elim
  | succ steps ih =>
      obtain ⟨key, afterKey, parsedKey, parsedRest⟩ := run_bind_ok parsed
      obtain ⟨first, readsFirst, isKey⟩ := orderKey_ok closed parsedKey
      obtain ⟨taken, afterComma, parsedComma, parsedCase⟩ := run_bind_ok parsedRest
      rcases takeSymbol_ok readsFirst.closed (by simp) (by simp) parsedComma with
        ⟨rfl, comma, isComma, readsComma⟩ | ⟨rfl, rfl⟩
      · rw [if_pos rfl] at parsedCase
        obtain ⟨others, afterOthers, parsedOthers, returned⟩ := run_bind_ok parsedCase
        cases returned
        obtain ⟨rest, readsRest, areKeys⟩ := ih readsComma.closed parsedOthers
        rw [readsComma.scope_eq, readsFirst.scope_eq] at areKeys
        exact ⟨_, readsFirst.trans (readsComma.trans readsRest), .more isKey isComma areKeys⟩
      · rw [if_neg (by simp)] at parsedCase
        cases parsedCase
        exact ⟨first, readsFirst, .last isKey⟩

private theorem filterClause_ok {depth : Nat} {state final : State} {result : Option Expression}
    (closed : Closed state.tokens)
    (parsed : (filterClause depth).run state = .ok (result, final)) :
    ∃ tokens, Reads state tokens final ∧
      Grammar.Filter state.scope state.positional tokens result := by
  obtain ⟨taken, between, parsedWhere, parsedCase⟩ := run_bind_ok parsed
  rcases takeKeyword_ok closed parsedWhere with ⟨rfl, word, isWhere, readsWord⟩ | ⟨rfl, rfl, _⟩
  · rw [if_pos rfl] at parsedCase
    obtain ⟨condition, after, parsedCondition, returned⟩ := run_bind_ok parsedCase
    cases returned
    obtain ⟨tokens, reads, derived⟩ :=
      (descends depth).condition readsWord.closed parsedCondition
    rw [readsWord.scope_eq, readsWord.beside isWhere] at derived
    exact ⟨word :: tokens, readsWord.trans reads, .condition isWhere derived⟩
  · rw [if_neg (by simp)] at parsedCase
    cases parsedCase
    exact ⟨[], Reads.refl closed, .none⟩

private theorem orderClause_ok {steps : Nat} {state final : State} {result : List OrderKey}
    (closed : Closed state.tokens)
    (parsed : (orderClause steps).run state = .ok (result, final)) :
    ∃ tokens, Reads state tokens final ∧ Grammar.Order state.scope tokens result := by
  obtain ⟨taken, between, parsedOrder, parsedCase⟩ := run_bind_ok parsed
  rcases takeKeyword_ok closed parsedOrder with ⟨rfl, word, isOrder, readsWord⟩ | ⟨rfl, rfl, _⟩
  · rw [if_pos rfl] at parsedCase
    obtain ⟨_, after, parsedBy, parsedKeys⟩ := run_bind_ok parsedCase
    obtain ⟨by', isBy, readsBy⟩ := expectKeyword_ok readsWord.closed parsedBy
    obtain ⟨tokens, reads, areKeys⟩ := orderKeys_ok readsBy.closed parsedKeys
    rw [readsBy.scope_eq, readsWord.scope_eq] at areKeys
    exact ⟨word :: by' :: tokens, readsWord.trans (readsBy.trans reads),
      .keys isOrder isBy areKeys⟩
  · rw [if_neg (by simp)] at parsedCase
    cases parsedCase
    exact ⟨[], Reads.refl closed, .none⟩

/-- Whatever the parser accepts is derived, up to a mark of the end. -/
theorem query_derived {lookup : String → Option Mapping} {all : List Token} {steps : Nat}
    {final : State} {result : Query} (closed : Closed all)
    (parsed : (query lookup steps).run ⟨all, [], 0⟩ = .ok (result, final)) :
    ∃ words last rest, all = words ++ last :: rest ∧ last.kind = .finish ∧
      Grammar lookup words result := by
  rw [query_eq] at parsed
  obtain ⟨_, afterFrom, parsedFrom, parsedRoot⟩ := run_bind_ok parsed
  obtain ⟨root, afterRoot, parsedEntity, parsedJoined⟩ := run_bind_ok parsedRoot
  obtain ⟨joined, afterJoins, parsedJoins, parsedFiltered⟩ := run_bind_ok parsedJoined
  obtain ⟨filter, afterFilter, parsedFilter, parsedOrdered⟩ := run_bind_ok parsedFiltered
  obtain ⟨keys, afterOrder, parsedOrder, parsedEnd⟩ := run_bind_ok parsedOrdered
  obtain ⟨last, _, parsedPeek, parsedReturn⟩ := run_bind_ok parsedEnd
  obtain ⟨word, isFrom, readsFrom⟩ := expectKeyword_ok closed parsedFrom
  obtain ⟨token, introduces⟩ := entity_reads readsFrom.closed parsedEntity
  obtain ⟨joining, readsJoins⟩ := joins_ok introduces.closed parsedJoins
  obtain ⟨filtering, readsFilter, isFilter⟩ := filterClause_ok readsJoins.closed parsedFilter
  obtain ⟨ordering, readsOrder, isOrder⟩ := orderClause_ok readsFilter.closed parsedOrder
  obtain ⟨rfl, rest, isLast⟩ := peek_ok readsOrder.closed parsedPeek
  have isEntity := introduces.derived
  rw [readsFrom.scope_eq] at isEntity
  have scopeRoot : afterRoot.scope = [root] := by
    rw [introduces.scope_eq, readsFrom.scope_eq]
    rfl
  have countRoot : afterRoot.positional = 0 := by
    rw [introduces.positional_eq, readsFrom.beside isFrom]
  have joinsDerived := readsJoins.derived
  rw [scopeRoot, countRoot] at joinsDerived
  have scopeJoins : afterJoins.scope = root :: joined.map Join.target := by
    rw [readsJoins.scope_eq, scopeRoot]
    rfl
  have countJoins : afterJoins.positional = positionals joining := by
    rw [readsJoins.positional_eq, countRoot, Nat.zero_add]
  rw [scopeJoins, countJoins] at isFilter
  rw [readsFilter.scope_eq, scopeJoins] at isOrder
  split at parsedReturn
  · rename_i isEnd
    obtain ⟨current, same, parsedState, returned⟩ := run_bind_ok parsedReturn
    cases parsedState
    cases returned
    refine ⟨word :: token :: (joining ++ filtering ++ ordering), last, rest, ?_, isEnd, ?_⟩
    · have split := readsFrom.tokens_eq
      rw [introduces.tokens_eq, readsJoins.tokens_eq, readsFilter.tokens_eq,
        readsOrder.tokens_eq, isLast] at split
      simpa using split
    · have counted : final.positional = positionals (joining ++ filtering) := by
        rw [readsOrder.positional_eq, readsFilter.positional_eq, countJoins,
          (Grammar.plain_of_order isOrder).positionals_eq, Grammar.positionals_append, Nat.add_zero]
      rw [counted]
      exact .query isFrom isEntity joinsDerived isFilter isOrder
  · exact (unexpected_ok parsedReturn).elim

end QueryParser

/-- The tokens of a query text that is read have a derivation. -/
theorem Query.exists_derivation {lookup : String → Option Mapping} {text : String}
    {query : Query} (parsed : Query.parse lookup text = .ok query) :
    ∃ words last, Token.ofText text = .ok (words ++ [last]) ∧ last.kind = .finish ∧
      Grammar lookup words query := by
  unfold Query.parse at parsed
  split at parsed
  · cases parsed
  rename_i tokens scanned
  split at parsed
  · cases parsed
  rename_i result final ran
  cases parsed
  obtain ⟨front, mark, rfl, isMark, inner⟩ := Token.scan_ok scanned
  obtain ⟨words, last, rest, same, isEnd, derived⟩ :=
    QueryParser.query_derived ⟨front, mark, rfl, isMark⟩ ran
  obtain rfl | ⟨others, final, rfl⟩ := List.eq_nil_or_concat rest
  · exact ⟨words, last, same ▸ scanned, isEnd, derived⟩
  · have split : front ++ [mark] = (words ++ last :: others) ++ [final] := by simpa using same
    have inFront : front = words ++ last :: others := List.append_inj_left' split rfl
    exact absurd isEnd (inner last (by simp [inFront]))

end EntityStore
