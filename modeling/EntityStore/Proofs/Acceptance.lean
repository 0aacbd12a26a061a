/-
Whatever has a derivation the parser accepts, with the meaning that the derivation gives. A
function of the parser stops in front of any token that cannot go on with what it reads, so
each lemma is about all tokens that can stand behind.
-/

import EntityStore.Proofs.Derivations

set_option autoImplicit false

namespace EntityStore
namespace QueryParser

open Grammar (positionals)

variable {scope : List Mapping} {before : Nat} {next : Token} {later tokens : List Token}

/-! ### References -/

private theorem resolve_of_columnOf? {number : Nat} {mapping : Mapping} {property column : String}
    (hasColumn : mapping.columnOf? property = some column) :
    resolve number mapping property = .ok ⟨number, column⟩ := by
  unfold Mapping.columnOf? at hasColumn
  unfold resolve
  by_cases isId : property = idProperty
  · rw [if_pos isId] at hasColumn ⊢
    cases hasColumn
    rfl
  · rw [if_neg isId] at hasColumn ⊢
    obtain ⟨found, isFound, isColumn⟩ := Option.bind_eq_some_iff.mp hasColumn
    simp only [isFound, isColumn]

private theorem find?_zipIdx_of_distinct (distinct : (scope.map Mapping.entity).Nodup)
    {number : Nat} {mapping : Mapping} (introduced : scope[number]? = some mapping) :
    scope.zipIdx.find? (fun entry => entry.1.entity == mapping.entity)
      = some (mapping, number) := by
  cases found : scope.zipIdx.find? (fun entry => entry.1.entity == mapping.entity) with
  | none =>
      have member : (mapping, number) ∈ scope.zipIdx :=
        List.mem_zipIdx_iff_getElem?.mpr introduced
      have differs := List.find?_eq_none.mp found _ member
      simp at differs
  | some entry =>
      obtain ⟨other, place⟩ := entry
      obtain ⟨isThere, named⟩ := getElem?_of_find?_zipIdx found
      have placed : (scope.map Mapping.entity)[place]? = some mapping.entity := by
        rw [List.getElem?_map, isThere, Option.map_some, named]
      have numbered : (scope.map Mapping.entity)[number]? = some mapping.entity := by
        rw [List.getElem?_map, introduced, Option.map_some]
      have same : place = number := by
        obtain ⟨inside, _⟩ := List.getElem?_eq_some_iff.mp placed
        exact (List.getElem?_inj inside distinct).mp (placed.trans numbered.symm)
      subst same
      rw [isThere] at introduced
      cases introduced
      rfl

private theorem run_reference (distinct : (scope.map Mapping.entity).Nodup) {first : Token}
    {name : String} {column : ColumnRef} (isWord : first.kind = .word name)
    (refers : Grammar.Reference scope (first :: tokens) column)
    (closed : Closed (next :: later)) (bounded : next.kind ≠ .dot) (position : Nat) :
    (reference name position).run ⟨tokens ++ next :: later, scope, before⟩
      = .ok (column, ⟨next :: later, scope, before⟩) := by
  unfold reference
  cases refers with
  | @qualified _ point property content number mapping _ isEntity introduced isPoint isProperty hasColumn =>
      rw [isWord] at isEntity
      cases isEntity
      have closedProperty : Closed (property :: next :: later) := closed.cons property
      simp only [List.cons_append, List.nil_append]
      rw [run_bind_of (run_takeSymbol (closedProperty.cons point) isPoint (by simp)),
        if_pos rfl, run_bind_of (run_word closedProperty isProperty _)]
      dsimp only
      rw [run_bind_of run_get]
      simp only [find?_zipIdx_of_distinct distinct introduced, resolve_of_columnOf? hasColumn]
      rfl
  | bare isProperty introduced hasColumn =>
      rw [isWord] at isProperty
      cases isProperty
      simp only [List.nil_append]
      rw [run_bind_of (run_takeSymbol_other bounded), if_neg (by simp), run_bind_of run_get]
      cases scope with
      | nil => cases introduced
      | cons root others =>
          cases introduced
          simp only [resolve_of_columnOf? hasColumn]
          rfl

/-! ### Operands and predicates -/

private theorem literalWord?_of_isKeyword {name : String} :
    (TokenKind.isKeyword (.word name) "null" = true → literalWord? name = some .null) ∧
    (TokenKind.isKeyword (.word name) "true" = true →
      literalWord? name = some (.boolean true)) ∧
    (TokenKind.isKeyword (.word name) "false" = true →
      literalWord? name = some (.boolean false)) := by
  have apart {keyword other : String} (isKeyword : TokenKind.isKeyword (.word name) keyword = true)
      (differ : keyword.toList.map Text.lowerChar ≠ other.toList.map Text.lowerChar) :
      Text.sameIgnoringCase name other = false := TokenKind.isKeyword_eq_false isKeyword differ
  refine ⟨fun isNull => ?_, fun isTrue => ?_, fun isFalse => ?_⟩
  · exact if_pos isNull
  · unfold literalWord?
    rw [apart isTrue (by decide)]
    exact if_pos isTrue
  · unfold literalWord?
    rw [apart isFalse (by decide), apart isFalse (by decide)]
    exact if_pos isFalse

private theorem literalWord?_eq_none {name : String}
    (free : Grammar.isLiteralWord (.word name) = false) : literalWord? name = none := by
  simp only [Grammar.isLiteralWord, TokenKind.isKeyword, Bool.or_eq_false_iff] at free
  simp [literalWord?, free]

private theorem run_operand_word {token : Token} {rest : List Token} {name : String} {value : Value}
    (closed : Closed (token :: rest)) (isWord : token.kind = .word name)
    (isLiteral : literalWord? name = some value) :
    operand.run ⟨token :: rest, scope, before⟩
      = .ok (.bound (.literal value), ⟨rest, scope, before⟩) := by
  unfold operand
  rw [run_bind_of run_peek]
  simp only [isWord]
  rw [run_bind_of (run_advance closed (by simp [isWord]))]
  simp only [isLiteral]
  rfl

private theorem run_operand (distinct : (scope.map Mapping.entity).Nodup) {operand' : Operand}
    (operates : Grammar.Operand scope before tokens operand')
    (closed : Closed (next :: later)) (bounded : next.kind ≠ .dot) :
    operand.run ⟨tokens ++ next :: later, scope, before⟩
      = .ok (operand', ⟨next :: later, scope, before + positionals tokens⟩) := by
  cases operates with
  | @integer token _ kind | @float token _ kind | @string token _ kind | @named token _ kind
  | @positional token kind =>
      unfold operand
      rw [List.singleton_append, run_bind_of run_peek]
      simp only [kind]
      rw [run_bind_of (run_advance (closed.cons token) (by simp [kind]))]
      simp [kind]
      rfl
  | @nullWord token isNull =>
      obtain ⟨name, isWord⟩ := TokenKind.exists_word_of_isKeyword isNull
      have isLiteral := literalWord?_of_isKeyword.1 (isWord ▸ isNull)
      rw [List.singleton_append, run_operand_word (closed.cons token) isWord isLiteral]
      simp [isWord]
  | @trueWord token isTrue =>
      obtain ⟨name, isWord⟩ := TokenKind.exists_word_of_isKeyword isTrue
      have isLiteral := literalWord?_of_isKeyword.2.1 (isWord ▸ isTrue)
      rw [List.singleton_append, run_operand_word (closed.cons token) isWord isLiteral]
      simp [isWord]
  | @falseWord token isFalse =>
      obtain ⟨name, isWord⟩ := TokenKind.exists_word_of_isKeyword isFalse
      have isLiteral := literalWord?_of_isKeyword.2.2 (isWord ▸ isFalse)
      rw [List.singleton_append, run_operand_word (closed.cons token) isWord isLiteral]
      simp [isWord]
  | @reference first others column free refers =>
      have count := (Grammar.plain_of_reference refers).positionals_eq
      obtain ⟨name, isWord⟩ : ∃ name, first.kind = .word name := by
        cases refers with
        | qualified isEntity => exact ⟨_, isEntity⟩
        | bare isProperty => exact ⟨_, isProperty⟩
      unfold operand
      rw [List.cons_append, run_bind_of run_peek]
      simp only [isWord]
      rw [run_bind_of (run_advance ((closed.append others).cons first) (by simp [isWord]))]
      simp only [literalWord?_eq_none (isWord ▸ free)]
      rw [run_bind_of (run_reference distinct isWord refers closed bounded _), count]
      rfl

private theorem comparison?_of_sign {kind : TokenKind} {comparison : Comparison}
    (sign : Grammar.Sign kind comparison) : comparison? kind = some comparison := by
  cases sign with
  | like isLike =>
      obtain ⟨name, rfl⟩ := TokenKind.exists_word_of_isKeyword isLike
      exact if_pos isLike
  | _ => rfl

private theorem isKeyword_of_sign {kind : TokenKind} {comparison : Comparison}
    (sign : Grammar.Sign kind comparison) :
    kind.isKeyword "is" = false ∧ kind.isKeyword "not" = false := by
  cases sign with
  | like isLike =>
      constructor
      · exact TokenKind.isKeyword_eq_false isLike (by decide)
      · exact TokenKind.isKeyword_eq_false isLike (by decide)
  | _ => exact ⟨rfl, rfl⟩

private theorem run_predicate (distinct : (scope.map Mapping.entity).Nodup) {left : Operand}
    {whole : Expression} (tests : Grammar.Predicate scope before left tokens whole)
    (closed : Closed (next :: later)) (bounded : next.kind ≠ .dot) :
    (predicate left).run ⟨tokens ++ next :: later, scope, before⟩
      = .ok (whole, ⟨next :: later, scope, before + positionals tokens⟩) := by
  unfold predicate
  cases tests with
  | @compare sign comparison tokens right isSign operates =>
      obtain ⟨notIs, notNot⟩ := isKeyword_of_sign isSign
      obtain ⟨more, other⟩ := ne_of_sign isSign
      rw [List.cons_append, run_bind_of (run_takeKeyword_other notIs), if_neg (by simp),
        run_bind_of (run_takeKeyword_other notNot), if_neg (by simp), run_bind_of run_peek]
      simp only [comparison?_of_sign isSign]
      rw [run_bind_of (run_advance ((closed.append tokens).cons sign) more),
        run_bind_of (run_operand distinct operates closed bounded)]
      simp [other]
      rfl
  | @notLike no like tokens right isNot isLike operates =>
      have closedLike := (closed.append tokens).cons like
      rw [List.cons_append, List.cons_append,
        run_bind_of (run_takeKeyword_other (TokenKind.isKeyword_eq_false isNot (by decide))),
        if_neg (by simp), run_bind_of (run_takeKeyword (closedLike.cons no) isNot), if_pos rfl,
        run_bind_of (run_expectKeyword closedLike isLike),
        run_bind_of (run_operand distinct operates closed bounded)]
      simp [TokenKind.ne_positional_of_isKeyword isNot, TokenKind.ne_positional_of_isKeyword isLike]
      rfl
  | @isNull verb null isVerb isNull =>
      have closedNull := closed.cons null
      simp only [List.cons_append, List.nil_append]
      rw [run_bind_of (run_takeKeyword (closedNull.cons verb) isVerb), if_pos rfl,
        run_bind_of (run_takeKeyword_other (TokenKind.isKeyword_eq_false isNull (by decide))),
        run_bind_of (run_expectKeyword closedNull isNull)]
      simp [TokenKind.ne_positional_of_isKeyword isVerb, TokenKind.ne_positional_of_isKeyword isNull]
      rfl
  | @isNotNull verb no null isVerb isNot isNull =>
      have closedNull := closed.cons null
      simp only [List.cons_append, List.nil_append]
      rw [run_bind_of (run_takeKeyword ((closedNull.cons no).cons verb) isVerb), if_pos rfl,
        run_bind_of (run_takeKeyword (closedNull.cons no) isNot),
        run_bind_of (run_expectKeyword closedNull isNull)]
      simp [TokenKind.ne_positional_of_isKeyword isVerb, TokenKind.ne_positional_of_isKeyword isNot,
        TokenKind.ne_positional_of_isKeyword isNull]
      rfl

private theorem exists_head_of_predicate {left : Operand} {whole : Expression}
    (tests : Grammar.Predicate scope before left tokens whole) :
    ∃ head rest, tokens = head :: rest ∧ head.kind ≠ .dot := by
  have ne_dot {kind : TokenKind} {keyword : String} (isKeyword : kind.isKeyword keyword = true) :
      kind ≠ .dot := by
    rintro rfl
    cases isKeyword
  cases tests with
  | compare sign =>
      refine ⟨_, _, rfl, ?_⟩
      intro isDot
      rw [isDot] at sign
      cases sign with
      | like isLike => cases isLike
  | notLike isNot => exact ⟨_, _, rfl, ne_dot isNot⟩
  | isNull isVerb => exact ⟨_, _, rfl, ne_dot isVerb⟩
  | isNotNull isVerb => exact ⟨_, _, rfl, ne_dot isVerb⟩

private theorem ne_leftParenthesis_of_operand {first : Token} {others : List Token}
    {operand' : Operand} (operates : Grammar.Operand scope before (first :: others) operand') :
    first.kind ≠ .leftParenthesis := by
  have apart {keyword : String} (isKeyword : first.kind.isKeyword keyword = true) :
      first.kind ≠ .leftParenthesis := by
    intro isParenthesis
    rw [isParenthesis] at isKeyword
    cases isKeyword
  cases operates with
  | nullWord isNull => exact apart isNull
  | trueWord isTrue => exact apart isTrue
  | falseWord isFalse => exact apart isFalse
  | reference _ refers =>
      cases refers with
      | qualified isEntity => simp [isEntity]
      | bare isProperty => simp [isProperty]
  | integer kind => simp [kind]
  | float kind => simp [kind]
  | string kind => simp [kind]
  | named kind => simp [kind]
  | positional kind => simp [kind]

/-! ### Conditions -/

/-- What the parser does with the tokens of a condition of a rank. The steps that it
needs grow with their number; a loop is left with as many as were to spare. -/
def Accepts (scope : List Mapping) :
    Grammar.Rank → Nat → List Token → Expression → Prop
  | .unary, before, tokens, whole =>
      ∀ steps next later, Closed (next :: later) → next.kind ≠ .dot →
        4 * tokens.length ≤ steps →
        (unary steps).run ⟨tokens ++ next :: later, scope, before⟩
          = .ok (whole, ⟨next :: later, scope, before + positionals tokens⟩)
  | .conjunction, before, tokens, whole =>
      ∀ steps spare next later, Closed (next :: later) → next.kind ≠ .dot →
        4 * tokens.length + spare + 1 ≤ steps →
        ∃ left, spare ≤ left ∧
          (conjunction steps).run ⟨tokens ++ next :: later, scope, before⟩
            = (conjuncts left whole).run ⟨next :: later, scope, before + positionals tokens⟩
  | .disjunction, before, tokens, whole =>
      ∀ steps spare next later, Closed (next :: later) → next.kind ≠ .dot →
        next.kind.isKeyword "and" = false → 4 * tokens.length + spare + 3 ≤ steps →
        ∃ left, spare ≤ left ∧
          (condition steps).run ⟨tokens ++ next :: later, scope, before⟩
            = (alternatives left whole).run ⟨next :: later, scope, before + positionals tokens⟩

private theorem run_conjuncts_last {steps : Nat} {whole : Expression}
    (notAnd : next.kind.isKeyword "and" = false) :
    (conjuncts (steps + 1) whole).run ⟨next :: later, scope, before⟩
      = .ok (whole, ⟨next :: later, scope, before⟩) := by
  unfold conjuncts
  rw [run_bind_of (run_takeKeyword_other notAnd)]
  rfl

private theorem run_alternatives_last {steps : Nat} {whole : Expression}
    (notOr : next.kind.isKeyword "or" = false) :
    (alternatives (steps + 1) whole).run ⟨next :: later, scope, before⟩
      = .ok (whole, ⟨next :: later, scope, before⟩) := by
  unfold alternatives
  rw [run_bind_of (run_takeKeyword_other notOr)]
  rfl

/-- The conjuncts that a conjunction reads are all of it where no further one follows. -/
theorem Accepts.run_conjunction {whole : Expression}
    (accepts : Accepts scope .conjunction before tokens whole) {steps : Nat}
    (closed : Closed (next :: later)) (bounded : next.kind ≠ .dot)
    (notAnd : next.kind.isKeyword "and" = false) (enough : 4 * tokens.length + 2 ≤ steps) :
    (conjunction steps).run ⟨tokens ++ next :: later, scope, before⟩
      = .ok (whole, ⟨next :: later, scope, before + positionals tokens⟩) := by
  obtain ⟨left, spare, ran⟩ := accepts steps 1 next later closed bounded (by omega)
  obtain ⟨less, rfl⟩ : ∃ less, left = less + 1 :=
    Nat.exists_eq_add_one_of_ne_zero (by omega)
  rw [ran, run_conjuncts_last notAnd]

theorem Accepts.run_condition {whole : Expression}
    (accepts : Accepts scope .disjunction before tokens whole) {steps : Nat}
    (closed : Closed (next :: later)) (bounded : next.kind ≠ .dot)
    (notAnd : next.kind.isKeyword "and" = false) (notOr : next.kind.isKeyword "or" = false)
    (enough : 4 * tokens.length + 4 ≤ steps) :
    (condition steps).run ⟨tokens ++ next :: later, scope, before⟩
      = .ok (whole, ⟨next :: later, scope, before + positionals tokens⟩) := by
  obtain ⟨left, spare, ran⟩ := accepts steps 1 next later closed bounded notAnd (by omega)
  obtain ⟨less, rfl⟩ : ∃ less, left = less + 1 :=
    Nat.exists_eq_add_one_of_ne_zero (by omega)
  rw [ran, run_alternatives_last notOr]

section Conditions

variable {first second : List Token} {joint : Token} {inner left right : Expression}

private theorem accepts_single (accepts : Accepts scope .conjunction before tokens inner) :
    Accepts scope .disjunction before tokens inner := by
  intro steps spare next later closed bounded notAnd enough
  obtain ⟨less, rfl⟩ : ∃ less, steps = less + 1 :=
    Nat.exists_eq_add_one_of_ne_zero (by omega)
  refine ⟨less, by omega, ?_⟩
  rw [condition, run_bind_of (accepts.run_conjunction closed bounded notAnd (by omega))]

private theorem accepts_or (acceptsLeft : Accepts scope .disjunction before first left)
    (isOr : joint.kind.isKeyword "or")
    (acceptsRight : Accepts scope .conjunction (before + positionals first) second right) :
    Accepts scope .disjunction before (first ++ joint :: second) (.disjunction left right) := by
  intro steps spare next later closed bounded notAnd enough
  rw [List.length_append, List.length_cons] at enough
  have closedSecond := closed.append second
  obtain ⟨some', room, ran⟩ := acceptsLeft steps (4 * second.length + spare + 3) joint
    (second ++ next :: later) (closedSecond.cons joint) (TokenKind.ne_of_isKeyword isOr rfl)
    (TokenKind.isKeyword_eq_false isOr (by decide)) (by omega)
  obtain ⟨less, rfl⟩ : ∃ less, some' = less + 1 :=
    Nat.exists_eq_add_one_of_ne_zero (by omega)
  refine ⟨less, by omega, ?_⟩
  rw [List.append_assoc, List.cons_append, ran, alternatives,
    run_bind_of (run_takeKeyword (closedSecond.cons joint) isOr), if_pos rfl,
    run_bind_of (acceptsRight.run_conjunction closed bounded notAnd (by omega))]
  simp [TokenKind.ne_positional_of_isKeyword isOr, Nat.add_assoc]

private theorem accepts_lone (accepts : Accepts scope .unary before tokens inner) :
    Accepts scope .conjunction before tokens inner := by
  intro steps spare next later closed bounded enough
  obtain ⟨less, rfl⟩ : ∃ less, steps = less + 1 :=
    Nat.exists_eq_add_one_of_ne_zero (by omega)
  refine ⟨less, by omega, ?_⟩
  rw [conjunction, run_bind_of (accepts less next later closed bounded (by omega))]

private theorem accepts_and (acceptsLeft : Accepts scope .conjunction before first left)
    (isAnd : joint.kind.isKeyword "and")
    (acceptsRight : Accepts scope .unary (before + positionals first) second right) :
    Accepts scope .conjunction before (first ++ joint :: second) (.conjunction left right) := by
  intro steps spare next later closed bounded enough
  rw [List.length_append, List.length_cons] at enough
  have closedSecond := closed.append second
  obtain ⟨some', room, ran⟩ := acceptsLeft steps (4 * second.length + spare + 1) joint
    (second ++ next :: later) (closedSecond.cons joint) (TokenKind.ne_of_isKeyword isAnd rfl)
    (by omega)
  obtain ⟨less, rfl⟩ : ∃ less, some' = less + 1 :=
    Nat.exists_eq_add_one_of_ne_zero (by omega)
  refine ⟨less, by omega, ?_⟩
  rw [List.append_assoc, List.cons_append, ran, conjuncts,
    run_bind_of (run_takeKeyword (closedSecond.cons joint) isAnd), if_pos rfl,
    run_bind_of (acceptsRight less next later closed bounded (by omega))]
  simp [TokenKind.ne_positional_of_isKeyword isAnd, Nat.add_assoc]

private theorem accepts_not {no : Token} (isNot : no.kind.isKeyword "not")
    (accepts : Accepts scope .unary before tokens inner) :
    Accepts scope .unary before (no :: tokens) (.negation inner) := by
  intro steps next later closed bounded enough
  rw [List.length_cons] at enough
  obtain ⟨less, rfl⟩ : ∃ less, steps = less + 1 :=
    Nat.exists_eq_add_one_of_ne_zero (by omega)
  rw [unary, List.cons_append,
    run_bind_of (run_takeKeyword ((closed.append tokens).cons no) isNot), if_pos rfl,
    run_bind_of (accepts less next later closed bounded (by omega))]
  simp [TokenKind.ne_positional_of_isKeyword isNot]
  rfl

private theorem accepts_parentheses {opening closing : Token}
    (isOpening : opening.kind = .leftParenthesis)
    (accepts : Accepts scope .disjunction before tokens inner)
    (isClosing : closing.kind = .rightParenthesis) :
    Accepts scope .unary before (opening :: (tokens ++ [closing])) inner := by
  intro steps next later closed bounded enough
  simp only [List.length_cons, List.length_append, List.length_nil] at enough
  obtain ⟨less, rfl⟩ : ∃ less, steps = less + 1 :=
    Nat.exists_eq_add_one_of_ne_zero (by omega)
  have closedEnd := closed.cons closing
  have notNot : opening.kind.isKeyword "not" = false := by rw [isOpening]; rfl
  rw [unary, List.cons_append, List.append_assoc, List.singleton_append,
    run_bind_of (run_takeKeyword_other notNot), if_neg (by simp),
    run_bind_of (run_takeSymbol ((closedEnd.append tokens).cons opening) isOpening
      (by simp)), if_pos rfl,
    run_bind_of (accepts.run_condition closedEnd (by simp [isClosing])
      (by rw [isClosing]; rfl) (by rw [isClosing]; rfl) (by omega)),
    run_bind_of (run_takeSymbol closedEnd isClosing (by simp)), if_pos rfl]
  simp [isOpening, isClosing]
  rfl

private theorem accepts_predicate (distinct : (scope.map Mapping.entity).Nodup) {head : Token}
    {others : List Token} {operand' : Operand} {whole : Expression}
    (notNot : head.kind.isKeyword "not" = false)
    (operates : Grammar.Operand scope before (head :: others) operand')
    (tests : Grammar.Predicate scope (before + positionals (head :: others)) operand' tokens
      whole) :
    Accepts scope .unary before (head :: others ++ tokens) whole := by
  intro steps next later closed bounded enough
  simp only [List.length_cons, List.length_append] at enough
  obtain ⟨less, rfl⟩ : ∃ less, steps = less + 1 :=
    Nat.exists_eq_add_one_of_ne_zero (by omega)
  obtain ⟨behind, rest, rfl, notDot⟩ := exists_head_of_predicate tests
  rw [unary, List.append_assoc, List.cons_append,
    run_bind_of (run_takeKeyword_other notNot), if_neg (by simp),
    run_bind_of (run_takeSymbol_other (ne_leftParenthesis_of_operand operates)),
    if_neg (by simp)]
  have ranLeft := run_operand distinct operates ((closed.append rest).cons behind) notDot
  refine (run_bind_of ranLeft).trans ?_
  rw [← List.cons_append, run_predicate distinct tests closed bounded,
    Grammar.positionals_append, Nat.add_assoc]

end Conditions

private theorem accepts_condition (distinct : (scope.map Mapping.entity).Nodup)
    {rank : Grammar.Rank}
    {whole : Expression} (derived : Grammar.Condition scope rank before tokens whole) :
    Accepts scope rank before tokens whole := by
  induction derived with
  | conjunction _ ih => exact accepts_single ih
  | or _ isOr _ ihLeft ihRight => exact accepts_or ihLeft isOr ihRight
  | unary _ ih => exact accepts_lone ih
  | and _ isAnd _ ihLeft ihRight => exact accepts_and ihLeft isAnd ihRight
  | not isNot _ ih => exact accepts_not isNot ih
  | parentheses isOpening _ isClosing ih => exact accepts_parentheses isOpening ih isClosing
  | predicate notNot operates tests => exact accepts_predicate distinct notNot operates tests

/-! ### Clauses -/

structure Ends (token : Token) : Prop where
  notDot : token.kind ≠ .dot
  notAnd : token.kind.isKeyword "and" = false
  notOr : token.kind.isKeyword "or" = false

structure EndsJoins (token : Token) : Prop extends Ends token where
  notInner : token.kind.isKeyword "inner" = false
  notOuter : token.kind.isKeyword "outer" = false
  notLeft : token.kind.isKeyword "left" = false
  notJoin : token.kind.isKeyword "join" = false

theorem Ends.of_isKeyword {token : Token} {keyword : String}
    (isKeyword : token.kind.isKeyword keyword = true)
    (notAnd : keyword.toList.map Text.lowerChar ≠ "and".toList.map Text.lowerChar)
    (notOr : keyword.toList.map Text.lowerChar ≠ "or".toList.map Text.lowerChar) :
    Ends token where
  notDot := TokenKind.ne_of_isKeyword isKeyword rfl
  notAnd := TokenKind.isKeyword_eq_false isKeyword notAnd
  notOr := TokenKind.isKeyword_eq_false isKeyword notOr

theorem EndsJoins.of_finish {token : Token} (isEnd : token.kind = .finish) :
    EndsJoins token := by
  constructor
  · constructor <;> rw [isEnd] <;> first | rfl | simp
  all_goals
    rw [isEnd]
    rfl

private theorem run_condition (distinct : (scope.map Mapping.entity).Nodup) {whole : Expression}
    (derived : Grammar.Condition scope .disjunction before tokens whole)
    (closed : Closed (next :: later)) (ends : Ends next) (steps : Nat)
    (enough : 4 * tokens.length + 4 ≤ steps) :
    (condition steps).run ⟨tokens ++ next :: later, scope, before⟩
      = .ok (whole, ⟨next :: later, scope, before + positionals tokens⟩) :=
  (accepts_condition distinct derived).run_condition closed ends.notDot ends.notAnd
    ends.notOr enough

private theorem run_entity {lookup : String → Option Mapping} {token : Token} {mapping : Mapping}
    (isEntity : Grammar.Entity lookup scope token mapping) (closed : Closed later) :
    (entity lookup).run ⟨token :: later, scope, before⟩
      = .ok (mapping, ⟨later, scope ++ [mapping], before⟩) := by
  obtain ⟨name, isWord, known⟩ := isEntity.known
  have fresh : (scope.any fun other => other.entity == mapping.entity) = false := by
    rw [List.any_eq_false]
    intro other member same
    exact isEntity.fresh (List.mem_map.mpr ⟨other, member, by simpa using same⟩)
  unfold entity
  rw [run_bind_of (run_word (closed.cons token) isWord _)]
  simp only [known]
  rw [run_bind_of run_get, fresh, if_neg (by simp)]
  rfl

private theorem run_joinKind {kind : JoinKind} (joining : Grammar.Joining tokens kind)
    (closed : Closed (next :: later)) :
    joinKind.run ⟨tokens ++ next :: later, scope, before⟩
      = .ok (some kind, ⟨next :: later, scope, before⟩) := by
  unfold joinKind
  cases joining with
  | @plain join isJoin =>
      rw [List.singleton_append,
        run_bind_of (run_takeKeyword_other (TokenKind.isKeyword_eq_false isJoin (by decide))),
        if_neg (by simp),
        run_bind_of (run_takeKeyword_other (TokenKind.isKeyword_eq_false isJoin (by decide))),
        if_neg (by simp),
        run_bind_of (run_takeKeyword_other (TokenKind.isKeyword_eq_false isJoin (by decide))),
        if_neg (by simp), run_bind_of (run_takeKeyword (closed.cons join) isJoin)]
      rfl
  | @inner word join isInner isJoin =>
      simp only [List.cons_append, List.nil_append]
      rw [run_bind_of (run_takeKeyword ((closed.cons join).cons word) isInner), if_pos rfl,
        run_bind_of (run_expectKeyword (closed.cons join) isJoin)]
      rfl
  | @outer word join isOuter isJoin =>
      simp only [List.cons_append, List.nil_append]
      rw [run_bind_of (run_takeKeyword_other (TokenKind.isKeyword_eq_false isOuter (by decide))),
        if_neg (by simp),
        run_bind_of (run_takeKeyword ((closed.cons join).cons word) isOuter), if_pos rfl,
        run_bind_of (run_expectKeyword (closed.cons join) isJoin)]
      rfl
  | @left side join isLeft isJoin =>
      simp only [List.cons_append, List.nil_append]
      rw [run_bind_of (run_takeKeyword_other (TokenKind.isKeyword_eq_false isLeft (by decide))),
        if_neg (by simp),
        run_bind_of (run_takeKeyword_other (TokenKind.isKeyword_eq_false isLeft (by decide))),
        if_neg (by simp),
        run_bind_of (run_takeKeyword ((closed.cons join).cons side) isLeft), if_pos rfl,
        run_bind_of (run_takeKeyword_other (TokenKind.isKeyword_eq_false isJoin (by decide))),
        run_bind_of (run_expectKeyword (closed.cons join) isJoin)]
      rfl
  | @leftOuter side word join isLeft isOuter isJoin =>
      simp only [List.cons_append, List.nil_append]
      rw [run_bind_of (run_takeKeyword_other (TokenKind.isKeyword_eq_false isLeft (by decide))),
        if_neg (by simp),
        run_bind_of (run_takeKeyword_other (TokenKind.isKeyword_eq_false isLeft (by decide))),
        if_neg (by simp),
        run_bind_of (run_takeKeyword (((closed.cons join).cons word).cons side) isLeft),
        if_pos rfl, run_bind_of (run_takeKeyword ((closed.cons join).cons word) isOuter),
        run_bind_of (run_expectKeyword (closed.cons join) isJoin)]
      rfl

private theorem run_joinKind_none (ends : EndsJoins next) :
    joinKind.run ⟨next :: later, scope, before⟩
      = .ok (none, ⟨next :: later, scope, before⟩) := by
  unfold joinKind
  rw [run_bind_of (run_takeKeyword_other ends.notInner), if_neg (by simp),
    run_bind_of (run_takeKeyword_other ends.notOuter), if_neg (by simp),
    run_bind_of (run_takeKeyword_other ends.notLeft), if_neg (by simp),
    run_bind_of (run_takeKeyword_other ends.notJoin)]
  rfl

private theorem ends_of_joining {kind : JoinKind} (joining : Grammar.Joining tokens kind) :
    ∃ head rest, tokens = head :: rest ∧ Ends head := by
  cases joining with
  | plain isJoin => exact ⟨_, _, rfl, .of_isKeyword isJoin (by decide) (by decide)⟩
  | inner isInner => exact ⟨_, _, rfl, .of_isKeyword isInner (by decide) (by decide)⟩
  | outer isOuter => exact ⟨_, _, rfl, .of_isKeyword isOuter (by decide) (by decide)⟩
  | left isLeft => exact ⟨_, _, rfl, .of_isKeyword isLeft (by decide) (by decide)⟩
  | leftOuter isLeft => exact ⟨_, _, rfl, .of_isKeyword isLeft (by decide) (by decide)⟩

private theorem ends_of_joins {lookup : String → Option Mapping} {joins : List Join}
    (derived : Grammar.Joins lookup scope before tokens joins) (ends : Ends next)
    (later : List Token) :
    ∃ head rest, tokens ++ next :: later = head :: rest ∧ Ends head := by
  cases derived with
  | none => exact ⟨next, later, rfl, ends⟩
  | join joining =>
      obtain ⟨head, rest, rfl, ends'⟩ := ends_of_joining joining
      exact ⟨head, _, rfl, ends'⟩

private theorem run_joins {lookup : String → Option Mapping} {joined : List Join}
    (distinct : (scope.map Mapping.entity).Nodup)
    (derived : Grammar.Joins lookup scope before tokens joined)
    (closed : Closed (next :: later)) (ends : EndsJoins next) (depth steps : Nat)
    (deep : 4 * tokens.length + 4 ≤ depth) (enough : tokens.length + 1 ≤ steps) :
    (joins lookup depth steps).run ⟨tokens ++ next :: later, scope, before⟩
      = .ok (joined, ⟨next :: later, scope ++ joined.map Join.target,
          before + positionals tokens⟩) := by
  induction derived generalizing steps with
  | @none scope before =>
      obtain ⟨less, rfl⟩ : ∃ less, steps = less + 1 :=
        Nat.exists_eq_add_one_of_ne_zero (by omega)
      rw [List.nil_append, joins, run_bind_of (run_joinKind_none ends)]
      simp
      rfl
  | @join scope before joining inside rest token on kind target condition' others isJoining
      isEntity isOn derivedOn derivedRest ih =>
      simp only [List.length_append, List.length_cons] at deep enough
      obtain ⟨less, rfl⟩ : ∃ less, steps = less + 1 :=
        Nat.exists_eq_add_one_of_ne_zero (by omega)
      obtain ⟨head, behind, same, endsCondition⟩ :=
        ends_of_joins derivedRest ends.toEnds later
      have distinctOn : ((scope ++ [target]).map Mapping.entity).Nodup := by
        rw [List.map_append, List.nodup_append]
        refine ⟨distinct, by simp, ?_⟩
        intro name member other isTarget equal
        rw [List.map_singleton, List.mem_singleton] at isTarget
        exact isEntity.fresh (isTarget ▸ equal ▸ member)
      have closedRest : Closed (head :: behind) := same ▸ closed.append rest
      have closedOn := (closedRest.append inside).cons on
      have ranCondition := run_condition distinctOn derivedOn closedRest endsCondition depth
        (by omega)
      have ranRest := ih distinctOn less (by omega) (by omega)
      rw [same] at ranRest
      rw [joins, List.append_assoc, List.cons_append, List.cons_append, List.append_assoc, same,
        run_bind_of (run_joinKind isJoining (closedOn.cons token))]
      dsimp only
      rw [run_bind_of (run_entity isEntity closedOn),
        run_bind_of (run_expectKeyword closedOn isOn), run_bind_of ranCondition,
        run_bind_of ranRest]
      simp [(Grammar.plain_of_joining isJoining).positionals_eq,
        TokenKind.ne_positional_of_plain (Grammar.plain_of_entity isEntity),
        TokenKind.ne_positional_of_isKeyword isOn, Nat.add_assoc]
      rfl

def EndsKey (token : Token) : Prop := token.kind = .comma ∨ token.kind = .finish

theorem EndsKey.other {token : Token} (ends : EndsKey token) :
    token.kind ≠ .dot ∧ ∀ keyword, token.kind.isKeyword keyword = false := by
  rcases ends with isComma | isEnd
  · rw [isComma]
    exact ⟨by simp, fun _ => rfl⟩
  · rw [isEnd]
    exact ⟨by simp, fun _ => rfl⟩

private theorem run_orderKey (distinct : (scope.map Mapping.entity).Nodup) {key : OrderKey}
    (isKey : Grammar.Key scope tokens key) (closed : Closed (next :: later))
    (ends : EndsKey next) :
    orderKey.run ⟨tokens ++ next :: later, scope, before⟩
      = .ok (key, ⟨next :: later, scope, before⟩) := by
  obtain ⟨notDot, noKeyword⟩ := ends.other
  have ne_dot {token : Token} {keyword : String}
      (isKeyword : token.kind.isKeyword keyword = true) : token.kind ≠ .dot := by
    intro isDot
    rw [isDot] at isKeyword
    cases isKeyword
  unfold orderKey
  cases isKey with
  | @plain tokens column refers =>
      obtain ⟨first, others, name, rfl, isWord⟩ := Grammar.exists_word_of_reference refers
      rw [List.cons_append,
        run_bind_of (run_word ((closed.append others).cons first) isWord _)]
      dsimp only
      rw [run_bind_of (run_reference distinct isWord refers closed notDot _),
        run_bind_of (run_takeKeyword_other (noKeyword _)), if_neg (by simp),
        run_bind_of (run_takeKeyword_other (noKeyword _))]
      rfl
  | @ascending tokens column word refers isAsc =>
      obtain ⟨first, others, name, rfl, isWord⟩ := Grammar.exists_word_of_reference refers
      have closedWord := closed.cons word
      rw [List.append_assoc, List.singleton_append, List.cons_append,
        run_bind_of (run_word ((closedWord.append others).cons first) isWord _)]
      dsimp only
      rw [run_bind_of (run_reference distinct isWord refers closedWord (ne_dot isAsc) _),
        run_bind_of (run_takeKeyword_other (TokenKind.isKeyword_eq_false isAsc (by decide))),
        if_neg (by simp), run_bind_of (run_takeKeyword closedWord isAsc)]
      rfl
  | @descending tokens column word refers isDesc =>
      obtain ⟨first, others, name, rfl, isWord⟩ := Grammar.exists_word_of_reference refers
      have closedWord := closed.cons word
      rw [List.append_assoc, List.singleton_append, List.cons_append,
        run_bind_of (run_word ((closedWord.append others).cons first) isWord _)]
      dsimp only
      rw [run_bind_of (run_reference distinct isWord refers closedWord (ne_dot isDesc) _),
        run_bind_of (run_takeKeyword closedWord isDesc)]
      rfl

private theorem run_orderKeys (distinct : (scope.map Mapping.entity).Nodup) {keys : List OrderKey}
    (areKeys : Grammar.Keys scope tokens keys) (closed : Closed (next :: later))
    (isEnd : next.kind = .finish) {steps : Nat} (enough : tokens.length + 1 ≤ steps) :
    (orderKeys steps).run ⟨tokens ++ next :: later, scope, before⟩
      = .ok (keys, ⟨next :: later, scope, before⟩) := by
  induction areKeys generalizing steps with
  | @last tokens key isKey =>
      obtain ⟨less, rfl⟩ : ∃ less, steps = less + 1 :=
        Nat.exists_eq_add_one_of_ne_zero (by omega)
      have notComma : next.kind ≠ .comma := by simp [isEnd]
      rw [orderKeys, run_bind_of (run_orderKey distinct isKey closed (Or.inr isEnd)),
        run_bind_of (run_takeSymbol_other notComma)]
      rfl
  | @more tokens rest comma key keys isKey isComma _ ih =>
      rw [List.length_append, List.length_cons] at enough
      obtain ⟨less, rfl⟩ : ∃ less, steps = less + 1 :=
        Nat.exists_eq_add_one_of_ne_zero (by omega)
      have closedComma := (closed.append rest).cons comma
      rw [orderKeys, List.append_assoc, List.cons_append,
        run_bind_of (run_orderKey distinct isKey closedComma (Or.inl isComma)),
        run_bind_of (run_takeSymbol closedComma isComma (by simp)), if_pos rfl,
        run_bind_of (ih (by omega))]
      rfl

private theorem run_orderClause (distinct : (scope.map Mapping.entity).Nodup) {keys : List OrderKey}
    (isOrder : Grammar.Order scope tokens keys) (before : Nat) (closed : Closed (next :: later))
    (isEnd : next.kind = .finish) (steps : Nat) (enough : tokens.length + 1 ≤ steps) :
    (orderClause steps).run ⟨tokens ++ next :: later, scope, before⟩
      = .ok (keys, ⟨next :: later, scope, before⟩) := by
  unfold orderClause
  cases isOrder with
  | none =>
      have notOrder : next.kind.isKeyword "order" = false := by
        rw [isEnd]
        rfl
      rw [List.nil_append, run_bind_of (run_takeKeyword_other notOrder)]
      rfl
  | @keys word by' tokens keys isWord isBy areKeys =>
      simp only [List.length_cons] at enough
      have closedBy := (closed.append tokens).cons by'
      rw [List.cons_append, List.cons_append,
        run_bind_of (run_takeKeyword (closedBy.cons word) isWord), if_pos rfl,
        run_bind_of (run_expectKeyword closedBy isBy)]
      exact run_orderKeys distinct areKeys closed isEnd (by omega)

private theorem run_filterClause (distinct : (scope.map Mapping.entity).Nodup)
    {filter : Option Expression} (isFilter : Grammar.Filter scope before tokens filter)
    (closed : Closed (next :: later)) (ends : Ends next)
    (notWhere : next.kind.isKeyword "where" = false) (depth : Nat)
    (deep : 4 * tokens.length + 4 ≤ depth) :
    (filterClause depth).run ⟨tokens ++ next :: later, scope, before⟩
      = .ok (filter, ⟨next :: later, scope, before + positionals tokens⟩) := by
  unfold filterClause
  cases isFilter with
  | none =>
      rw [List.nil_append, run_bind_of (run_takeKeyword_other notWhere)]
      rfl
  | @condition word tokens condition' isWhere derived =>
      rw [List.length_cons] at deep
      rw [List.cons_append,
        run_bind_of (run_takeKeyword ((closed.append tokens).cons word) isWhere), if_pos rfl,
        run_bind_of (run_condition distinct derived closed ends _ (by omega))]
      simp [TokenKind.ne_positional_of_isKeyword isWhere]
      rfl

private theorem endsJoins_of_order {keys : List OrderKey}
    (isOrder : Grammar.Order scope tokens keys) (isEnd : next.kind = .finish) (later : List Token) :
    ∃ head rest, tokens ++ next :: later = head :: rest ∧ EndsJoins head ∧
      head.kind.isKeyword "where" = false := by
  cases isOrder with
  | none => exact ⟨next, later, rfl, .of_finish isEnd, by rw [isEnd]; rfl⟩
  | @keys word by' tokens keys isWord =>
      refine ⟨word, _, rfl, ⟨.of_isKeyword isWord (by decide) (by decide), ?_, ?_, ?_, ?_⟩, ?_⟩
      all_goals exact TokenKind.isKeyword_eq_false isWord (by decide)

private theorem endsJoins_of_filter {filter : Option Expression}
    (isFilter : Grammar.Filter scope before tokens filter) (ends : EndsJoins next)
    (later : List Token) :
    ∃ head rest, tokens ++ next :: later = head :: rest ∧ EndsJoins head := by
  cases isFilter with
  | none => exact ⟨next, later, rfl, ends⟩
  | @condition word tokens condition' isWhere =>
      refine ⟨word, _, rfl, .of_isKeyword isWhere (by decide) (by decide), ?_, ?_, ?_, ?_⟩
      all_goals exact TokenKind.isKeyword_eq_false isWhere (by decide)

private theorem distinct_of_joins {lookup : String → Option Mapping} {joins : List Join}
    (distinct : (scope.map Mapping.entity).Nodup)
    (derived : Grammar.Joins lookup scope before tokens joins) :
    ((scope ++ joins.map Join.target).map Mapping.entity).Nodup := by
  induction derived with
  | none => simpa using distinct
  | @join scope before joining inside rest token on kind target condition' others isJoining
      isEntity isOn derivedOn derivedRest ih =>
      have distinctOn : ((scope ++ [target]).map Mapping.entity).Nodup := by
        rw [List.map_append, List.nodup_append]
        refine ⟨distinct, by simp, ?_⟩
        intro name member other isTarget equal
        rw [List.map_singleton, List.mem_singleton] at isTarget
        exact isEntity.fresh (isTarget ▸ equal ▸ member)
      simpa using ih distinctOn

/-- Whatever is derived, with a mark of the end behind it, the parser accepts. -/
theorem run_query {lookup : String → Option Mapping} {words : List Token} {last : Token}
    {result : Query} (derived : Grammar lookup words result) (isEnd : last.kind = .finish)
    {steps : Nat} (enough : words.length ≤ steps) :
    (query lookup steps).run ⟨words ++ [last], [], 0⟩
      = .ok (result, ⟨[last], result.scope, result.positional⟩) := by
  have closed : Closed [last] := ⟨[], last, rfl, isEnd⟩
  cases derived with
  | @query word token joining filtering ordering root joined filter keys isFrom isEntity
      derivedJoins isFilter isOrder =>
      simp only [List.length_cons, List.length_append] at enough
      obtain ⟨keyHead, keyRest, sameKeys, endsFilter, notWhere⟩ :=
        endsJoins_of_order isOrder isEnd []
      obtain ⟨filterHead, filterRest, sameFilter, endsJoins⟩ :=
        endsJoins_of_filter isFilter endsFilter keyRest
      have closedKeys : Closed (keyHead :: keyRest) := sameKeys ▸ closed.append ordering
      have closedFilter : Closed (filterHead :: filterRest) :=
        sameFilter ▸ closedKeys.append filtering
      have distinctRoot : ([root].map Mapping.entity).Nodup := by simp
      have distinct : ((root :: joined.map Join.target).map Mapping.entity).Nodup :=
        distinct_of_joins distinctRoot derivedJoins
      have ranJoins := run_joins distinctRoot derivedJoins closedFilter endsJoins
        (depthFor steps) (steps + 1) (by unfold depthFor; omega) (by omega)
      have ranFilter := run_filterClause distinct isFilter closedKeys endsFilter.toEnds notWhere
        (depthFor steps) (by unfold depthFor; omega)
      have ranOrder := run_orderClause distinct isOrder (positionals (joining ++ filtering))
        closed isEnd (steps + 1) (by omega)
      rw [sameKeys] at ranOrder
      have closedJoins := closedFilter.append joining
      rw [query_eq, List.cons_append, List.cons_append, List.append_assoc, List.append_assoc,
        sameKeys, sameFilter,
        run_bind_of (run_expectKeyword ((closedJoins.cons token).cons word) isFrom),
        run_bind_of (run_entity isEntity closedJoins), List.nil_append, run_bind_of ranJoins,
        ← sameFilter, List.singleton_append, Nat.zero_add, run_bind_of ranFilter,
        ← Grammar.positionals_append, run_bind_of ranOrder, run_bind_of run_peek, if_pos isEnd]
      rfl

end QueryParser

/-- The tokens of a query mean one query. -/
theorem Grammar.unique {lookup : String → Option Mapping} {words : List Token}
    {first second : Query} (left : Grammar lookup words first)
    (right : Grammar lookup words second) : first = second := by
  have isEnd : (⟨.finish, 0⟩ : Token).kind = .finish := rfl
  have ranFirst := QueryParser.run_query left isEnd (Nat.le_refl _)
  have ranSecond := QueryParser.run_query right isEnd (Nat.le_refl _)
  rw [ranFirst] at ranSecond
  cases ranSecond
  rfl

/-- A query text is read exactly when its tokens have a derivation, and as the query that
they mean. This is so for every way of looking up entity types, such as the mappings of a
registry. -/
theorem Query.parse_eq_ok_iff (lookup : String → Option Mapping) (text : String)
    (query : Query) :
    Query.parse lookup text = .ok query ↔
      ∃ words last, Token.ofText text = .ok (words ++ [last]) ∧ last.kind = .finish ∧
        Grammar lookup words query := by
  constructor
  · exact Query.exists_derivation
  · rintro ⟨words, last, scanned, isEnd, derived⟩
    have ran := QueryParser.run_query derived isEnd (Nat.le_add_right words.length 1)
    unfold Query.parse
    simp [scanned, ran]

end EntityStore
