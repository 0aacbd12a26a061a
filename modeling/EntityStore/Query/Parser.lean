/-
The grammar of queries. Names are resolved while the text is read from the left, so
the first problem in text order is the one reported.

    query     := FROM entity join* [WHERE cond] [ORDER BY key (',' key)*]
    join      := [INNER | OUTER | LEFT [OUTER]] JOIN entity ON cond
    cond      := conj (OR conj)*
    conj      := unary (AND unary)*
    unary     := NOT unary | '(' cond ')' | operand predicate
    predicate := cmp operand | [NOT] LIKE operand | IS [NOT] NULL
    operand   := entity '.' property | property | literal | ':' name | '?'
    key       := reference [ASC | DESC]

A bare property belongs to the first entity type of the query. The words NULL, TRUE
and FALSE are literals where an operand begins; other keywords can be names.
-/

import EntityStore.Query.Syntax

set_option autoImplicit false

namespace EntityStore
namespace QueryParser

/-- The tokens not yet read, the entity types introduced so far, and the number of
positional parameters so far. -/
structure State where
  tokens : List Token
  scope : List Mapping
  positional : Nat

abbrev Parser (α : Type) := StateT State (Except QueryFault) α

/-- The next token; a text that has been read to its end shows the end again. -/
def peek : Parser Token := do
  match (← get).tokens with
  | token :: _ => return token
  | [] => return ⟨.finish, 0⟩

/-- Moves past the next token. The mark of the end stays. -/
def advance : Parser Unit :=
  modify fun state =>
    match state.tokens with
    | _ :: next :: rest => { state with tokens := next :: rest }
    | _ => state

def unexpected {α : Type} (expected : Expectation) : Parser α := do
  let token ← peek
  throw (.unexpected token.position expected token.kind)

def takeKeyword (keyword : String) : Parser Bool := do
  if (← peek).kind.isKeyword keyword then
    advance
    return true
  else return false

def expectKeyword (keyword : String) : Parser Unit := do
  if ← takeKeyword keyword then return ()
  else unexpected (.keyword keyword)

def takeSymbol (symbol : TokenKind) : Parser Bool := do
  if (← peek).kind = symbol then
    advance
    return true
  else return false

def word (expected : Expectation) : Parser (String × Nat) := do
  let token ← peek
  match token.kind with
  | .word name =>
      advance
      return (name, token.position)
  | _ => unexpected expected

def reject {α : Type} (fault : ReferenceFault) : Parser α :=
  throw (.reference fault)

def entity (lookup : String → Option Mapping) : Parser Mapping := do
  let (name, position) ← word .entityName
  match lookup name with
  | none => reject (.unknownEntity name position)
  | some mapping =>
      if (← get).scope.any fun known => known.entity == mapping.entity then
        reject (.repeatedEntity name)
      else
        modify fun state => { state with scope := state.scope ++ [mapping] }
        return mapping

/-- The column of a property of one of the entity types. -/
def resolve (scope : Nat) (mapping : Mapping) (property : String) :
    Except ReferenceFault ColumnRef :=
  if property = idProperty then .ok ⟨scope, mapping.id.column⟩
  else
    match mapping.property? property with
    | none => .error (.unknownProperty mapping.entity property)
    | some found =>
        match found.column? with
        | none => .error (.collectionInCondition mapping.entity property)
        | some column => .ok ⟨scope, column⟩

def resolved (outcome : Except ReferenceFault ColumnRef) : Parser ColumnRef :=
  match outcome with
  | .ok column => return column
  | .error fault => reject fault

/-- The rest of a reference whose first word has been read. -/
def reference (first : String) (position : Nat) : Parser ColumnRef := do
  if ← takeSymbol .dot then
    let (property, _) ← word .propertyName
    let scope := (← get).scope
    match scope.zipIdx.find? fun entry => entry.1.entity == first with
    | none => reject (.outsideQuery first position)
    | some (mapping, number) => resolved (resolve number mapping property)
  else
    match (← get).scope with
    | [] => reject (.outsideQuery first position)
    | root :: _ => resolved (resolve 0 root first)

def literalWord? (name : String) : Option Value :=
  if Text.sameIgnoringCase name "null" then some .null
  else if Text.sameIgnoringCase name "true" then some (.boolean true)
  else if Text.sameIgnoringCase name "false" then some (.boolean false)
  else none

def operand : Parser Operand := do
  let token ← peek
  match token.kind with
  | .integer number => do
      advance
      return .bound (.literal (.integer number))
  | .float number => do
      advance
      return .bound (.literal (.float number))
  | .string content => do
      advance
      return .bound (.literal (.text content))
  | .named name => do
      advance
      return .bound (.named name)
  | .positional => do
      advance
      let index := (← get).positional
      modify fun state => { state with positional := index + 1 }
      return .bound (.positional index)
  | .word name => do
      advance
      match literalWord? name with
      | some value => return .bound (.literal value)
      | none => return .column (← reference name token.position)
  | _ => unexpected .operand

def comparison? : TokenKind → Option Comparison
  | .equal => some .equal
  | .unequal => some .unequal
  | .less => some .less
  | .atMost => some .atMost
  | .greater => some .greater
  | .atLeast => some .atLeast
  | .word name => if Text.sameIgnoringCase name "like" then some .like else none
  | _ => none

def predicate (left : Operand) : Parser Expression := do
  if ← takeKeyword "is" then
    let negated ← takeKeyword "not"
    expectKeyword "null"
    return .nullTest left negated
  else if ← takeKeyword "not" then
    expectKeyword "like"
    let right ← operand
    return .negation (.compare left .like right)
  else
    match comparison? (← peek).kind with
    | none => unexpected .comparison
    | some comparison =>
        advance
        let right ← operand
        return .compare left comparison right

mutual

/-- A condition. In this and the next functions the first argument bounds the
depth of the descent, which the number of tokens limits. -/
def condition : Nat → Parser Expression
  | 0 => unexpected .operand
  | steps + 1 => do
      let left ← conjunction steps
      alternatives steps left

/-- The disjuncts behind a first one, joined from the left. -/
def alternatives : Nat → Expression → Parser Expression
  | 0, _ => unexpected .operand
  | steps + 1, left => do
      if ← takeKeyword "or" then
        let right ← conjunction steps
        alternatives steps (.disjunction left right)
      else return left

def conjunction : Nat → Parser Expression
  | 0 => unexpected .operand
  | steps + 1 => do
      let left ← unary steps
      conjuncts steps left

def conjuncts : Nat → Expression → Parser Expression
  | 0, _ => unexpected .operand
  | steps + 1, left => do
      if ← takeKeyword "and" then
        let right ← unary steps
        conjuncts steps (.conjunction left right)
      else return left

def unary : Nat → Parser Expression
  | 0 => unexpected .operand
  | steps + 1 => do
      if ← takeKeyword "not" then
        return .negation (← unary steps)
      else if ← takeSymbol .leftParenthesis then
        let inner ← condition steps
        if ← takeSymbol .rightParenthesis then return inner
        else unexpected .closingParenthesis
      else predicate (← operand)

end

/-- A depth that no text with this many tokens exceeds. -/
def depthFor (tokens : Nat) : Nat := 4 * tokens + 4

def joinKind : Parser (Option JoinKind) := do
  if ← takeKeyword "inner" then
    expectKeyword "join"
    return some .inner
  else if ← takeKeyword "outer" then
    expectKeyword "join"
    return some .outer
  else if ← takeKeyword "left" then
    let _ ← takeKeyword "outer"
    expectKeyword "join"
    return some .outer
  else if ← takeKeyword "join" then
    return some .inner
  else return none

/-- The joins in order; the first argument bounds their number. -/
def joins (lookup : String → Option Mapping) (depth : Nat) : Nat → Parser (List Join)
  | 0 => unexpected .endOfQuery
  | steps + 1 => do
      match ← joinKind with
      | none => return []
      | some kind => do
          let target ← entity lookup
          expectKeyword "on"
          let on ← condition depth
          return ⟨kind, target, on⟩ :: (← joins lookup depth steps)

def orderKey : Parser OrderKey := do
  let (name, position) ← word .propertyReference
  let column ← reference name position
  if ← takeKeyword "desc" then return ⟨column, .descending⟩
  else
    let _ ← takeKeyword "asc"
    return ⟨column, .ascending⟩

def orderKeys : Nat → Parser (List OrderKey)
  | 0 => unexpected .propertyReference
  | steps + 1 => do
      let key ← orderKey
      if ← takeSymbol .comma then return key :: (← orderKeys steps)
      else return [key]

/-- A whole query. The argument bounds its length. -/
def query (lookup : String → Option Mapping) (tokens : Nat) : Parser Query := do
  let depth := depthFor tokens
  expectKeyword "from"
  let root ← entity lookup
  let joined ← joins lookup depth (tokens + 1)
  let filter ← do
    if ← takeKeyword "where" then pure (some (← condition depth))
    else pure none
  let order ← do
    if ← takeKeyword "order" then
      expectKeyword "by"
      orderKeys (tokens + 1)
    else pure []
  if (← peek).kind = .finish then
    return ⟨root, joined, filter, order, (← get).positional⟩
  else unexpected .endOfQuery

end QueryParser

/-- Reads a query; `lookup` gives the mappings of the entity types. -/
def Query.parse (lookup : String → Option Mapping) (text : String) :
    Except QueryFault Query :=
  match Token.ofText text with
  | .error fault => .error (.lexical fault)
  | .ok tokens =>
      match (QueryParser.query lookup tokens.length).run ⟨tokens, [], 0⟩ with
      | .error fault => .error fault
      | .ok (query, _) => .ok query

end EntityStore
