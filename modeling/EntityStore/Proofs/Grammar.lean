/-
The grammar of queries as a relation between tokens and what they mean, apart from any
way of reading them.

    query     := FROM entity join* [WHERE cond] [ORDER BY key (',' key)*]
    join      := [INNER | OUTER | LEFT [OUTER]] JOIN entity ON cond
    cond      := conj | cond OR conj
    conj      := unary | conj AND unary
    unary     := NOT unary | '(' cond ')' | operand predicate
    predicate := cmp operand | [NOT] LIKE operand | IS [NOT] NULL
    operand   := reference | literal | ':' name | '?'
    reference := entity '.' property | property
    key       := reference [ASC | DESC]

Each relation has the entity types introduced so far, and where operands can stand the
number of positional parameters in front of its tokens.
-/

import EntityStore.Query.Parser

set_option autoImplicit false

namespace EntityStore

namespace TokenKind

variable {kind : TokenKind} {keyword : String}

theorem exists_word_of_isKeyword (isKeyword : kind.isKeyword keyword = true) :
    ∃ name, kind = .word name := by
  cases kind with
  | word name => exact ⟨name, rfl⟩
  | _ => cases isKeyword

/-- A keyword is no other kind of token. -/
theorem ne_of_isKeyword {symbol : TokenKind} (isKeyword : kind.isKeyword keyword = true)
    (other : symbol.isKeyword keyword = false) : kind ≠ symbol := by
  rintro rfl
  rw [isKeyword] at other
  cases other

theorem ne_positional_of_isKeyword (isKeyword : kind.isKeyword keyword = true) :
    kind ≠ .positional :=
  ne_of_isKeyword isKeyword rfl

def isParameter : TokenKind → Bool
  | named _ => true
  | positional => true
  | _ => false

theorem ne_positional_of_plain (plain : kind.isParameter = false) : kind ≠ .positional := by
  rintro rfl
  cases plain

theorem plain_of_isKeyword (isKeyword : kind.isKeyword keyword = true) :
    kind.isParameter = false := by
  obtain ⟨name, rfl⟩ := exists_word_of_isKeyword isKeyword
  rfl

/-- Different keywords are different words. -/
theorem isKeyword_eq_false {other : String} (isKeyword : kind.isKeyword keyword = true)
    (differ : keyword.toList.map Text.lowerChar ≠ other.toList.map Text.lowerChar) :
    kind.isKeyword other = false := by
  obtain ⟨name, rfl⟩ := exists_word_of_isKeyword isKeyword
  have same : name.toList.map Text.lowerChar = keyword.toList.map Text.lowerChar := by
    simpa [TokenKind.isKeyword, Text.sameIgnoringCase] using isKeyword
  simp [TokenKind.isKeyword, Text.sameIgnoringCase, same, differ]

end TokenKind

namespace Grammar

/-- How many positional parameters stand among tokens. -/
def positionals (tokens : List Token) : Nat :=
  tokens.countP fun token => token.kind == .positional

@[simp] theorem positionals_nil : positionals [] = 0 := rfl

@[simp] theorem positionals_cons (token : Token) (tokens : List Token) :
    positionals (token :: tokens)
      = positionals tokens + if token.kind = .positional then 1 else 0 := by
  simp [positionals, List.countP_cons]

@[simp] theorem positionals_append (left right : List Token) :
    positionals (left ++ right) = positionals left + positionals right :=
  List.countP_append

def isLiteralWord (kind : TokenKind) : Bool :=
  kind.isKeyword "null" || kind.isKeyword "true" || kind.isKeyword "false"

/-! ### Names -/

inductive Reference (scope : List Mapping) : List Token → ColumnRef → Prop where
  | qualified {entity point property : Token} {name : String} {number : Nat}
      {mapping : Mapping} {column : String} :
      entity.kind = .word mapping.entity → scope[number]? = some mapping →
      point.kind = .dot → property.kind = .word name →
      mapping.columnOf? name = some column →
      Reference scope [entity, point, property] ⟨number, column⟩
  | bare {property : Token} {name : String} {root : Mapping} {column : String} :
      property.kind = .word name → scope[0]? = some root →
      root.columnOf? name = some column → Reference scope [property] ⟨0, column⟩

structure Entity (lookup : String → Option Mapping) (scope : List Mapping) (token : Token)
    (mapping : Mapping) : Prop where
  known : ∃ name, token.kind = .word name ∧ lookup name = some mapping
  fresh : mapping.entity ∉ scope.map Mapping.entity

/-! ### Conditions -/

/-- An operand behind `before` positional parameters. -/
inductive Operand (scope : List Mapping) (before : Nat) :
    List Token → EntityStore.Operand → Prop where
  | integer {token : Token} {number : Int64} : token.kind = .integer number →
      Operand scope before [token] (.bound (.literal (.integer number)))
  | float {token : Token} {number : Double} : token.kind = .float number →
      Operand scope before [token] (.bound (.literal (.float number)))
  | string {token : Token} {content : String} : token.kind = .string content →
      Operand scope before [token] (.bound (.literal (.text content)))
  | nullWord {token : Token} : token.kind.isKeyword "null" →
      Operand scope before [token] (.bound (.literal .null))
  | trueWord {token : Token} : token.kind.isKeyword "true" →
      Operand scope before [token] (.bound (.literal (.boolean true)))
  | falseWord {token : Token} : token.kind.isKeyword "false" →
      Operand scope before [token] (.bound (.literal (.boolean false)))
  | named {token : Token} {name : String} : token.kind = .named name →
      Operand scope before [token] (.bound (.named name))
  | positional {token : Token} : token.kind = .positional →
      Operand scope before [token] (.bound (.positional before))
  | reference {first : Token} {others : List Token} {column : ColumnRef} :
      isLiteralWord first.kind = false → Reference scope (first :: others) column →
      Operand scope before (first :: others) (.column column)

inductive Sign : TokenKind → Comparison → Prop where
  | equal : Sign .equal .equal
  | unequal : Sign .unequal .unequal
  | less : Sign .less .less
  | atMost : Sign .atMost .atMost
  | greater : Sign .greater .greater
  | atLeast : Sign .atLeast .atLeast
  | like {kind : TokenKind} : kind.isKeyword "like" → Sign kind .like

inductive Predicate (scope : List Mapping) (before : Nat) (left : EntityStore.Operand) :
    List Token → Expression → Prop where
  | compare {sign : Token} {comparison : Comparison} {tokens : List Token}
      {right : EntityStore.Operand} :
      Sign sign.kind comparison → Operand scope before tokens right →
      Predicate scope before left (sign :: tokens) (.compare left comparison right)
  | notLike {no like : Token} {tokens : List Token} {right : EntityStore.Operand} :
      no.kind.isKeyword "not" → like.kind.isKeyword "like" →
      Operand scope before tokens right →
      Predicate scope before left (no :: like :: tokens)
        (.negation (.compare left .like right))
  | isNull {verb null : Token} : verb.kind.isKeyword "is" → null.kind.isKeyword "null" →
      Predicate scope before left [verb, null] (.nullTest left false)
  | isNotNull {verb no null : Token} : verb.kind.isKeyword "is" →
      no.kind.isKeyword "not" → null.kind.isKeyword "null" →
      Predicate scope before left [verb, no, null] (.nullTest left true)

inductive Rank where
  | disjunction
  | conjunction
  | unary

inductive Condition (scope : List Mapping) :
    Rank → Nat → List Token → Expression → Prop where
  | conjunction {before : Nat} {tokens : List Token} {inner : Expression} :
      Condition scope .conjunction before tokens inner →
      Condition scope .disjunction before tokens inner
  | or {before : Nat} {first second : List Token} {joint : Token} {left right : Expression} :
      Condition scope .disjunction before first left → joint.kind.isKeyword "or" →
      Condition scope .conjunction (before + positionals first) second right →
      Condition scope .disjunction before (first ++ joint :: second) (.disjunction left right)
  | unary {before : Nat} {tokens : List Token} {inner : Expression} :
      Condition scope .unary before tokens inner →
      Condition scope .conjunction before tokens inner
  | and {before : Nat} {first second : List Token} {joint : Token}
      {left right : Expression} :
      Condition scope .conjunction before first left → joint.kind.isKeyword "and" →
      Condition scope .unary (before + positionals first) second right →
      Condition scope .conjunction before (first ++ joint :: second) (.conjunction left right)
  | not {before : Nat} {no : Token} {tokens : List Token} {inner : Expression} :
      no.kind.isKeyword "not" → Condition scope .unary before tokens inner →
      Condition scope .unary before (no :: tokens) (.negation inner)
  | parentheses {before : Nat} {opening closing : Token} {tokens : List Token}
      {inner : Expression} :
      opening.kind = .leftParenthesis → Condition scope .disjunction before tokens inner →
      closing.kind = .rightParenthesis →
      Condition scope .unary before (opening :: (tokens ++ [closing])) inner
  | predicate {before : Nat} {first : Token} {others tokens : List Token}
      {left : EntityStore.Operand} {whole : Expression} :
      first.kind.isKeyword "not" = false → Operand scope before (first :: others) left →
      Predicate scope (before + positionals (first :: others)) left tokens whole →
      Condition scope .unary before (first :: others ++ tokens) whole

/-! ### Clauses -/

inductive Joining : List Token → JoinKind → Prop where
  | plain {join : Token} : join.kind.isKeyword "join" → Joining [join] .inner
  | inner {kind join : Token} : kind.kind.isKeyword "inner" → join.kind.isKeyword "join" →
      Joining [kind, join] .inner
  | outer {kind join : Token} : kind.kind.isKeyword "outer" → join.kind.isKeyword "join" →
      Joining [kind, join] .outer
  | left {side join : Token} : side.kind.isKeyword "left" → join.kind.isKeyword "join" →
      Joining [side, join] .outer
  | leftOuter {side kind join : Token} : side.kind.isKeyword "left" →
      kind.kind.isKeyword "outer" → join.kind.isKeyword "join" →
      Joining [side, kind, join] .outer

/-- Joins behind the entity types of a scope. The condition of a join can name its own
entity type. -/
inductive Joins (lookup : String → Option Mapping) :
    List Mapping → Nat → List Token → List Join → Prop where
  | none {scope : List Mapping} {before : Nat} : Joins lookup scope before [] []
  | join {scope : List Mapping} {before : Nat} {joining tokens rest : List Token}
      {entity on : Token} {kind : JoinKind} {target : Mapping} {condition : Expression}
      {joins : List Join} :
      Joining joining kind → Entity lookup scope entity target → on.kind.isKeyword "on" →
      Condition (scope ++ [target]) .disjunction before tokens condition →
      Joins lookup (scope ++ [target]) (before + positionals tokens) rest joins →
      Joins lookup scope before (joining ++ entity :: on :: (tokens ++ rest))
        (⟨kind, target, condition⟩ :: joins)

inductive Filter (scope : List Mapping) (before : Nat) :
    List Token → Option Expression → Prop where
  | none : Filter scope before [] none
  | condition {word : Token} {tokens : List Token} {condition : Expression} :
      word.kind.isKeyword "where" →
      Condition scope .disjunction before tokens condition →
      Filter scope before (word :: tokens) (some condition)

inductive Key (scope : List Mapping) : List Token → OrderKey → Prop where
  | plain {tokens : List Token} {column : ColumnRef} :
      Reference scope tokens column → Key scope tokens ⟨column, .ascending⟩
  | ascending {tokens : List Token} {column : ColumnRef} {word : Token} :
      Reference scope tokens column → word.kind.isKeyword "asc" →
      Key scope (tokens ++ [word]) ⟨column, .ascending⟩
  | descending {tokens : List Token} {column : ColumnRef} {word : Token} :
      Reference scope tokens column → word.kind.isKeyword "desc" →
      Key scope (tokens ++ [word]) ⟨column, .descending⟩

inductive Keys (scope : List Mapping) : List Token → List OrderKey → Prop where
  | last {tokens : List Token} {key : OrderKey} : Key scope tokens key →
      Keys scope tokens [key]
  | more {tokens rest : List Token} {comma : Token} {key : OrderKey} {keys : List OrderKey} :
      Key scope tokens key → comma.kind = .comma → Keys scope rest keys →
      Keys scope (tokens ++ comma :: rest) (key :: keys)

inductive Order (scope : List Mapping) : List Token → List OrderKey → Prop where
  | none : Order scope [] []
  | keys {word by' : Token} {tokens : List Token} {keys : List OrderKey} :
      word.kind.isKeyword "order" → by'.kind.isKeyword "by" → Keys scope tokens keys →
      Order scope (word :: by' :: tokens) keys

/-! ### What the tokens are -/

theorem exists_word_of_reference {scope : List Mapping} {tokens : List Token}
    {column : ColumnRef}
    (refers : Reference scope tokens column) :
    ∃ first others name, tokens = first :: others ∧ first.kind = .word name := by
  cases refers with
  | qualified isEntity => exact ⟨_, _, _, rfl, isEntity⟩
  | bare isProperty => exact ⟨_, _, _, rfl, isProperty⟩

theorem Operand.exists_head {scope : List Mapping} {before : Nat} {tokens : List Token}
    {operand : EntityStore.Operand} (operates : Operand scope before tokens operand) :
    ∃ first others, tokens = first :: others := by
  cases operates with
  | reference => exact ⟨_, _, rfl⟩
  | _ => exact ⟨_, [], rfl⟩

/-! ### Parameters stand in conditions only -/

def Plain (tokens : List Token) : Prop := ∀ token ∈ tokens, token.kind.isParameter = false

@[simp] theorem plain_nil : Plain [] := by simp [Plain]

@[simp] theorem plain_cons {token : Token} {tokens : List Token} :
    Plain (token :: tokens) ↔ token.kind.isParameter = false ∧ Plain tokens := by
  simp [Plain]

@[simp] theorem plain_append {left right : List Token} :
    Plain (left ++ right) ↔ Plain left ∧ Plain right := by
  simp [Plain, or_imp, forall_and]

theorem Plain.positionals_eq {tokens : List Token} (plain : Plain tokens) :
    positionals tokens = 0 := by
  apply List.countP_eq_zero.mpr
  intro token member isPositional
  have other := plain token member
  rw [beq_iff_eq.mp isPositional] at other
  cases other

theorem Plain.parameterNames_eq {tokens : List Token} (plain : Plain tokens) :
    Token.parameterNames tokens = [] := by
  apply List.filterMap_eq_nil_iff.mpr
  intro token member
  have other := plain token member
  split
  · rename_i isNamed
    rw [isNamed] at other
    cases other
  · rfl

theorem plain_of_reference {scope : List Mapping} {tokens : List Token} {column : ColumnRef}
    (refers : Reference scope tokens column) : Plain tokens := by
  cases refers with
  | qualified isEntity _ isPoint isProperty =>
      simp [isEntity, isPoint, isProperty, TokenKind.isParameter]
  | bare isProperty => simp [isProperty, TokenKind.isParameter]

theorem plain_of_joining {tokens : List Token} {kind : JoinKind}
    (joining : Joining tokens kind) : Plain tokens := by
  cases joining with
  | plain isJoin => simp [TokenKind.plain_of_isKeyword isJoin]
  | inner isInner isJoin =>
      simp [TokenKind.plain_of_isKeyword isInner, TokenKind.plain_of_isKeyword isJoin]
  | outer isOuter isJoin =>
      simp [TokenKind.plain_of_isKeyword isOuter, TokenKind.plain_of_isKeyword isJoin]
  | left isLeft isJoin =>
      simp [TokenKind.plain_of_isKeyword isLeft, TokenKind.plain_of_isKeyword isJoin]
  | leftOuter isLeft isOuter isJoin =>
      simp [TokenKind.plain_of_isKeyword isLeft, TokenKind.plain_of_isKeyword isOuter,
        TokenKind.plain_of_isKeyword isJoin]

theorem plain_of_entity {lookup : String → Option Mapping} {scope : List Mapping}
    {token : Token} {mapping : Mapping} (isEntity : Entity lookup scope token mapping) :
    token.kind.isParameter = false := by
  obtain ⟨name, isWord, _⟩ := isEntity.known
  rw [isWord]
  rfl

private theorem plain_of_key {scope : List Mapping} {tokens : List Token} {key : OrderKey}
    (isKey : Key scope tokens key) : Plain tokens := by
  cases isKey with
  | plain refers => exact plain_of_reference refers
  | ascending refers isAsc =>
      simp [plain_of_reference refers, TokenKind.plain_of_isKeyword isAsc]
  | descending refers isDesc =>
      simp [plain_of_reference refers, TokenKind.plain_of_isKeyword isDesc]

private theorem plain_of_keys {scope : List Mapping} {tokens : List Token} {keys : List OrderKey}
    (areKeys : Keys scope tokens keys) : Plain tokens := by
  induction areKeys with
  | last isKey => exact plain_of_key isKey
  | more isKey isComma _ ih =>
      simp [plain_of_key isKey, isComma, ih, TokenKind.isParameter]

theorem plain_of_order {scope : List Mapping} {tokens : List Token} {keys : List OrderKey}
    (isOrder : Order scope tokens keys) : Plain tokens := by
  cases isOrder with
  | none => exact plain_nil
  | keys isWord isBy areKeys =>
      simp [TokenKind.plain_of_isKeyword isWord, TokenKind.plain_of_isKeyword isBy,
        plain_of_keys areKeys]

end Grammar

inductive Grammar (lookup : String → Option Mapping) : List Token → Query → Prop where
  | query {word entity : Token} {joining filtering ordering : List Token} {root : Mapping}
      {joins : List Join} {filter : Option Expression} {keys : List OrderKey} :
      word.kind.isKeyword "from" → Grammar.Entity lookup [] entity root →
      Grammar.Joins lookup [root] 0 joining joins →
      Grammar.Filter (root :: joins.map Join.target) (Grammar.positionals joining) filtering
        filter →
      Grammar.Order (root :: joins.map Join.target) ordering keys →
      Grammar lookup (word :: entity :: (joining ++ filtering ++ ordering))
        ⟨root, joins, filter, keys, Grammar.positionals (joining ++ filtering)⟩

end EntityStore
