/-
Tokens, queries and parameters as documents. An expression is an array that begins
with its operator, an operand one that begins with its kind.
-/

import EntityStore.Document.Values
import EntityStore.Paging
import EntityStore.Query.Parameters

set_option autoImplicit false

namespace EntityStore

/-! ### Tokens -/

def TokenKind.document : TokenKind → String × List Json
  | .word name => ("ident", [.string name])
  | .integer number => ("integer", [Json.integer number.toInt])
  | .float number => ("float", [number.toDocument])
  | .string content => ("str", [.string content])
  | .named name => ("named", [.string name])
  | .positional => ("?", [])
  | .dot => (".", [])
  | .comma => (",", [])
  | .leftParenthesis => ("(", [])
  | .rightParenthesis => (")", [])
  | .equal => ("=", [])
  | .unequal => ("<>", [])
  | .less => ("<", [])
  | .atMost => ("<=", [])
  | .greater => (">", [])
  | .atLeast => (">=", [])
  | .finish => ("eof", [])

def Token.toDocument (token : Token) : Json :=
  let (name, content) := token.kind.document
  .array (Json.ofNat token.position :: .string name :: content)

/-! ### Queries -/

namespace Slot

def toDocument : Slot → Json
  | literal content => .tagged "lit" [content.toDocument]
  | named name => .tagged "named" [.string name]
  | positional index => .tagged "pos" [.ofNat index]

def ofDocument (document : Json) : Slot :=
  match (document.item 0).text with
  | "named" => named (document.item 1).text
  | "pos" => positional (document.item 1).natural
  | _ => literal (Value.ofDocument (document.item 1))

end Slot

def ColumnRef.toDocument (reference : ColumnRef) : Json :=
  .tagged "col" [.ofNat reference.scope, .string reference.column]

def Operand.toDocument : Operand → Json
  | column reference => reference.toDocument
  | bound slot => slot.toDocument

def Expression.toDocument : Expression → Json
  | compare left comparison right =>
      .tagged comparison.sql [left.toDocument, right.toDocument]
  | nullTest operand negated =>
      .tagged (if negated then "notnull" else "isnull") [operand.toDocument]
  | conjunction left right => .tagged "and" [left.toDocument, right.toDocument]
  | disjunction left right => .tagged "or" [left.toDocument, right.toDocument]
  | negation inner => .tagged "not" [inner.toDocument]

def Join.toDocument (join : Join) : Json :=
  .tagged (if join.kind = .inner then "inner" else "outer")
    [.string join.target.entity, join.on.toDocument]

def OrderKey.toDocument (key : OrderKey) : Json := .array [key.column.toDocument,
  .string (if key.direction = .ascending then "asc" else "desc")]

def Query.members (query : Query) : List (String × Json) := [
  ("joins", .ofList Join.toDocument query.joins),
  ("where", .ofOption Expression.toDocument query.predicate),
  ("order", .ofList OrderKey.toDocument query.order),
  ("positional", .ofNat query.positional)]

def CompiledQuery.members (compiled : CompiledQuery) : List (String × Json) := [
  ("sql", .string compiled.text), ("root", .string compiled.root.entity),
  ("slots", .ofList Slot.toDocument compiled.slots),
  ("named", .ofList .string compiled.namedParameters)]

/-! ### Parameters and pages -/

/-- Parameters, by name in an object or by position in an array, under a name that says
which. -/
def Parameters.ofDocument (document : Json) : Parameters :=
  match document.members with
  | [(_, .array content)] => positional (content.map Value.ofDocument)
  | [(_, content)] =>
      named (content.members.map fun member => (member.1, Value.ofDocument member.2))
  | _ => none

def Page.ofDocument (document : Json) : Page :=
  let count (name : String) : Option UInt64 :=
    (document.field name).natural?.map Nat.toUInt64
  ⟨count "limit", count "offset"⟩

end EntityStore
