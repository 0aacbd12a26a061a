/-
Queries of a database: their trees, how a tree is written in lexemes, and a reader that
knows the ranks of SQL: `NOT` binds tighter than `AND`, and `AND` tighter than `OR`. A tree
that is written with parentheses around what joins two conditions is read back as it was.
-/

import EntityStore.Proofs.Lexemes
import EntityStore.Query.Syntax

set_option autoImplicit false

namespace EntityStore
namespace Sql

structure Column where
  table : String
  name : String
  deriving DecidableEq, Repr

/-- What stands for a value; `μ` is what is known of a marker. -/
inductive Term (μ : Type) where
  | column (column : Column)
  | marker (marker : μ)
  deriving DecidableEq, Repr

inductive Condition (μ : Type) where
  | compare (left : Term μ) (comparison : Comparison) (right : Term μ)
  | nullTest (term : Term μ) (negated : Bool)
  | conjunction (left right : Condition μ)
  | disjunction (left right : Condition μ)
  | negation (inner : Condition μ)
  deriving DecidableEq, Repr

structure Table where
  schema : Option String
  name : String
  label : String
  deriving DecidableEq, Repr

structure Joined (μ : Type) where
  kind : JoinKind
  table : Table
  on : Condition μ
  deriving DecidableEq, Repr

structure Select (μ : Type) where
  /-- The columns of the result, each with its name there. -/
  columns : List (Column × String)
  table : Table
  joins : List (Joined μ)
  filter : Option (Condition μ)
  order : List (Column × Direction)
  deriving DecidableEq, Repr

/-! ### Markers -/

section Markers

variable {μ ν : Type}

def Term.map (change : μ → ν) : Term μ → Term ν
  | column named => .column named
  | marker known => .marker (change known)

def Term.markers : Term μ → List μ
  | column _ => []
  | marker known => [known]

namespace Condition

def map (change : μ → ν) : Condition μ → Condition ν
  | compare left comparison right => .compare (left.map change) comparison (right.map change)
  | nullTest term negated => .nullTest (term.map change) negated
  | conjunction left right => .conjunction (left.map change) (right.map change)
  | disjunction left right => .disjunction (left.map change) (right.map change)
  | negation inner => .negation (inner.map change)

def markers : Condition μ → List μ
  | compare left _ right => left.markers ++ right.markers
  | nullTest term _ => term.markers
  | conjunction left right => left.markers ++ right.markers
  | disjunction left right => left.markers ++ right.markers
  | negation inner => inner.markers

end Condition

def Joined.map (change : μ → ν) (joined : Joined μ) : Joined ν :=
  ⟨joined.kind, joined.table, joined.on.map change⟩

namespace Select

def map (change : μ → ν) (select : Select μ) : Select ν where
  columns := select.columns
  table := select.table
  joins := select.joins.map (Joined.map change)
  filter := select.filter.map (Condition.map change)
  order := select.order

def markers (select : Select μ) : List μ :=
  select.joins.flatMap (fun joined => joined.on.markers)
    ++ (select.filter.toList.flatMap Condition.markers)

end Select

end Markers

/-! ### Writing -/

def Column.lexemes (column : Column) : List Lexeme :=
  [.word column.table, .symbol ".", .quoted column.name]

def Term.lexemes : Term String → List Lexeme
  | column named => named.lexemes
  | marker text => [.marker text]

def sign : Comparison → Lexeme
  | .equal => .symbol "="
  | .unequal => .symbol "<>"
  | .less => .symbol "<"
  | .atMost => .symbol "<="
  | .greater => .symbol ">"
  | .atLeast => .symbol ">="
  | .like => .word "LIKE"

namespace Condition

def lexemes : Condition String → List Lexeme
  | compare left comparison right => left.lexemes ++ sign comparison :: right.lexemes
  | nullTest term negated =>
      term.lexemes ++ .word "IS" :: ((if negated then [.word "NOT"] else []) ++ [.word "NULL"])
  | conjunction left right =>
      .symbol "(" :: (left.lexemes ++ .word "AND" :: (right.lexemes ++ [.symbol ")"]))
  | disjunction left right =>
      .symbol "(" :: (left.lexemes ++ .word "OR" :: (right.lexemes ++ [.symbol ")"]))
  | negation inner => .word "NOT" :: .symbol "(" :: (inner.lexemes ++ [.symbol ")"])

end Condition

def Table.lexemes (table : Table) : List Lexeme :=
  match table.schema with
  | some schema => [.quoted schema, .symbol ".", .quoted table.name, .word table.label]
  | none => [.quoted table.name, .word table.label]

def joining : JoinKind → List Lexeme
  | .inner => [.word "INNER", .word "JOIN"]
  | .outer => [.word "LEFT", .word "OUTER", .word "JOIN"]

def Joined.lexemes (joined : Joined String) : List Lexeme :=
  joining joined.kind ++ joined.table.lexemes ++ .word "ON" :: joined.on.lexemes

def labelled (entry : Column × String) : List Lexeme :=
  entry.1.lexemes ++ [.word "AS", .quoted entry.2]

def direction : Direction → Lexeme
  | .ascending => .word "ASC"
  | .descending => .word "DESC"

def ordered (entry : Column × Direction) : List Lexeme :=
  entry.1.lexemes ++ [direction entry.2]

def commas (parts : List (List Lexeme)) : List Lexeme := [.symbol ","].intercalate parts

namespace Select

def filterLexemes : Option (Condition String) → List Lexeme
  | none => []
  | some condition => .word "WHERE" :: condition.lexemes

def orderLexemes : List (Column × Direction) → List Lexeme
  | [] => []
  | entries => .word "ORDER" :: .word "BY" :: commas (entries.map ordered)

def lexemes (select : Select String) : List Lexeme :=
  .word "SELECT" :: (commas (select.columns.map labelled)
    ++ .word "FROM" :: (select.table.lexemes ++ select.joins.flatMap Joined.lexemes
      ++ filterLexemes select.filter ++ orderLexemes select.order))

end Select

/-! ### Reading -/

section Reading

def takeWord? (text : String) : List Lexeme → Option (List Lexeme)
  | .word other :: rest => if other = text then some rest else none
  | _ => none

def takeSymbol? (text : String) : List Lexeme → Option (List Lexeme)
  | .symbol other :: rest => if other = text then some rest else none
  | _ => none

def readColumn : List Lexeme → Option (Column × List Lexeme)
  | .word table :: .symbol "." :: .quoted name :: rest => some (⟨table, name⟩, rest)
  | _ => none

def readTerm : List Lexeme → Option (Term String × List Lexeme)
  | .marker text :: rest => some (.marker text, rest)
  | lexemes => do
      let (column, rest) ← readColumn lexemes
      return (.column column, rest)

def readSign : Lexeme → Option Comparison
  | .symbol "=" => some .equal
  | .symbol "<>" => some .unequal
  | .symbol "<" => some .less
  | .symbol "<=" => some .atMost
  | .symbol ">" => some .greater
  | .symbol ">=" => some .atLeast
  | .word "LIKE" => some .like
  | _ => none

def readPredicate (left : Term String) :
    List Lexeme → Option (Condition String × List Lexeme)
  | .word "IS" :: .word "NULL" :: rest => some (.nullTest left false, rest)
  | .word "IS" :: .word "NOT" :: .word "NULL" :: rest => some (.nullTest left true, rest)
  | lexeme :: rest => do
      let comparison ← readSign lexeme
      let (right, rest) ← readTerm rest
      return (.compare left comparison right, rest)
  | [] => none

mutual

/-- A condition. The first argument bounds the depth of the descent. -/
def readCondition : Nat → List Lexeme → Option (Condition String × List Lexeme)
  | 0, _ => none
  | depth + 1, lexemes => do
      let (first, rest) ← readConjunction depth lexemes
      readDisjuncts depth first rest

def readDisjuncts : Nat → Condition String → List Lexeme →
    Option (Condition String × List Lexeme)
  | 0, _, _ => none
  | depth + 1, left, lexemes =>
      match takeWord? "OR" lexemes with
      | none => some (left, lexemes)
      | some rest => do
          let (right, rest) ← readConjunction depth rest
          readDisjuncts depth (.disjunction left right) rest

def readConjunction : Nat → List Lexeme → Option (Condition String × List Lexeme)
  | 0, _ => none
  | depth + 1, lexemes => do
      let (first, rest) ← readUnary depth lexemes
      readConjuncts depth first rest

def readConjuncts : Nat → Condition String → List Lexeme →
    Option (Condition String × List Lexeme)
  | 0, _, _ => none
  | depth + 1, left, lexemes =>
      match takeWord? "AND" lexemes with
      | none => some (left, lexemes)
      | some rest => do
          let (right, rest) ← readUnary depth rest
          readConjuncts depth (.conjunction left right) rest

def readUnary : Nat → List Lexeme → Option (Condition String × List Lexeme)
  | 0, _ => none
  | depth + 1, lexemes =>
      match takeWord? "NOT" lexemes, takeSymbol? "(" lexemes with
      | some rest, _ => do
          let (inner, rest) ← readUnary depth rest
          return (.negation inner, rest)
      | none, some rest => do
          let (inner, rest) ← readCondition depth rest
          let rest ← takeSymbol? ")" rest
          return (inner, rest)
      | none, none => do
          let (left, rest) ← readTerm lexemes
          readPredicate left rest

end

def readTable : List Lexeme → Option (Table × List Lexeme)
  | .quoted schema :: .symbol "." :: .quoted name :: .word label :: rest =>
      some (⟨some schema, name, label⟩, rest)
  | .quoted name :: .word label :: rest => some (⟨none, name, label⟩, rest)
  | _ => none

def readJoining : List Lexeme → Option (JoinKind × List Lexeme)
  | .word "INNER" :: .word "JOIN" :: rest => some (.inner, rest)
  | .word "LEFT" :: .word "OUTER" :: .word "JOIN" :: rest => some (.outer, rest)
  | _ => none

/-- Joins as long as there are any; the second argument bounds their number. -/
def readJoins (depth : Nat) : Nat → List Lexeme → Option (List (Joined String) × List Lexeme)
  | 0, _ => none
  | steps + 1, lexemes =>
      match readJoining lexemes with
      | none => some ([], lexemes)
      | some (kind, rest) => do
          let (table, rest) ← readTable rest
          let rest ← takeWord? "ON" rest
          let (on, rest) ← readCondition depth rest
          let (others, rest) ← readJoins depth steps rest
          return (⟨kind, table, on⟩ :: others, rest)

def readLabelled (lexemes : List Lexeme) : Option ((Column × String) × List Lexeme) := do
  let (column, rest) ← readColumn lexemes
  match ← takeWord? "AS" rest with
  | .quoted label :: rest => return ((column, label), rest)
  | _ => none

def readOrdered (lexemes : List Lexeme) : Option ((Column × Direction) × List Lexeme) := do
  let (column, rest) ← readColumn lexemes
  match rest with
  | .word "ASC" :: rest => return ((column, .ascending), rest)
  | .word "DESC" :: rest => return ((column, .descending), rest)
  | _ => none

def readCommas {α : Type} (read : List Lexeme → Option (α × List Lexeme)) :
    Nat → List Lexeme → Option (List α × List Lexeme)
  | 0, _ => none
  | steps + 1, lexemes => do
      let (first, rest) ← read lexemes
      match takeSymbol? "," rest with
      | none => return ([first], rest)
      | some rest => do
          let (others, rest) ← readCommas read steps rest
          return (first :: others, rest)

def readFilter (depth : Nat) (lexemes : List Lexeme) :
    Option (Option (Condition String) × List Lexeme) :=
  match takeWord? "WHERE" lexemes with
  | none => some (none, lexemes)
  | some rest => do
      let (condition, rest) ← readCondition depth rest
      return (some condition, rest)

def readOrder (steps : Nat) (lexemes : List Lexeme) :
    Option (List (Column × Direction) × List Lexeme) :=
  match takeWord? "ORDER" lexemes with
  | none => some ([], lexemes)
  | some rest => do
      let rest ← takeWord? "BY" rest
      readCommas readOrdered steps rest

def readSelect (lexemes : List Lexeme) : Option (Select String) := do
  let depth := 4 * lexemes.length
  let rest ← takeWord? "SELECT" lexemes
  let (columns, rest) ← readCommas readLabelled depth rest
  let rest ← takeWord? "FROM" rest
  let (table, rest) ← readTable rest
  let (joins, rest) ← readJoins depth depth rest
  let (filter, rest) ← readFilter depth rest
  let (order, rest) ← readOrder depth rest
  if rest = [] then return ⟨columns, table, joins, filter, order⟩ else none

def read (text : String) : Option (Select String) := do
  readSelect (← lexemes text.toList)

end Reading

/-! ### What is written is read -/

def Term.Plain {μ : Type} : Term μ → Prop
  | column named => named.table ≠ "NOT"
  | marker _ => True

def Condition.Plain {μ : Type} : Condition μ → Prop
  | compare left _ right => left.Plain ∧ right.Plain
  | nullTest term _ => term.Plain
  | conjunction left right => left.Plain ∧ right.Plain
  | disjunction left right => left.Plain ∧ right.Plain
  | negation inner => inner.Plain

structure Ends (rest : List Lexeme) : Prop where
  notAnd : takeWord? "AND" rest = none
  notOr : takeWord? "OR" rest = none

private theorem readTerm_lexemes (term : Term String) (rest : List Lexeme) :
    readTerm (term.lexemes ++ rest) = some (term, rest) := by
  cases term with
  | column named => rfl
  | marker text => rfl

private theorem readPredicate_compare (left right : Term String) (comparison : Comparison)
    (rest : List Lexeme) :
    readPredicate left (sign comparison :: (right.lexemes ++ rest))
      = some (.compare left comparison right, rest) := by
  cases comparison <;> simp [sign, readPredicate, readSign, readTerm_lexemes]

private theorem readPredicate_nullTest (left : Term String) (negated : Bool) (rest : List Lexeme) :
    readPredicate left (.word "IS" :: ((if negated then [.word "NOT"] else []) ++ [.word "NULL"]
      ++ rest)) = some (.nullTest left negated, rest) := by
  cases negated <;> rfl

private theorem readUnary_term {term : Term String} (plain : term.Plain) (depth : Nat)
    (rest : List Lexeme) :
    readUnary (depth + 1) (term.lexemes ++ rest) = readPredicate term rest := by
  have notNot : takeWord? "NOT" (term.lexemes ++ rest) = none := by
    cases term with
    | column named => exact if_neg plain
    | marker text => rfl
  have notOpening : takeSymbol? "(" (term.lexemes ++ rest) = none := by
    cases term <;> rfl
  simp [readUnary, notNot, notOpening, readTerm_lexemes]

private theorem readConjunction_single {depth : Nat} {lexemes rest : List Lexeme}
    {condition : Condition String}
    (read : readUnary (depth + 1) lexemes = some (condition, rest))
    (notAnd : takeWord? "AND" rest = none) :
    readConjunction (depth + 2) lexemes = some (condition, rest) := by
  simp [readConjunction, read, readConjuncts, notAnd]

private theorem readCondition_single {depth : Nat} {lexemes rest : List Lexeme}
    {condition : Condition String}
    (read : readUnary (depth + 1) lexemes = some (condition, rest)) (ends : Ends rest) :
    readCondition (depth + 3) lexemes = some (condition, rest) := by
  simp [readCondition, readConjunction_single read ends.notAnd, readDisjuncts, ends.notOr]

private theorem readCondition_and {depth : Nat} {lexemes between rest : List Lexeme}
    {left right : Condition String}
    (readLeft : readUnary (depth + 2) lexemes = some (left, .word "AND" :: between))
    (readRight : readUnary (depth + 1) between = some (right, rest)) (ends : Ends rest) :
    readCondition (depth + 4) lexemes = some (.conjunction left right, rest) := by
  have goesOn : takeWord? "AND" (.word "AND" :: between) = some between := rfl
  simp [readCondition, readConjunction, readLeft, readConjuncts, goesOn, readRight,
    ends.notAnd, readDisjuncts, ends.notOr]

private theorem readCondition_or {depth : Nat} {lexemes between rest : List Lexeme}
    {left right : Condition String}
    (readLeft : readUnary (depth + 2) lexemes = some (left, .word "OR" :: between))
    (readRight : readUnary (depth + 1) between = some (right, rest)) (ends : Ends rest) :
    readCondition (depth + 4) lexemes = some (.disjunction left right, rest) := by
  have notAnd : takeWord? "AND" (.word "OR" :: between) = none := rfl
  have goesOn : takeWord? "OR" (.word "OR" :: between) = some between := rfl
  have readFirst := readConjunction_single readLeft notAnd
  have readSecond := readConjunction_single readRight ends.notAnd
  simp [readCondition, readFirst, readDisjuncts, goesOn, readSecond, ends.notOr]

private theorem ends_closing (rest : List Lexeme) : Ends (.symbol ")" :: rest) := ⟨rfl, rfl⟩

private theorem readUnary_parentheses {depth : Nat} {lexemes rest : List Lexeme}
    {condition : Condition String}
    (read : readCondition depth lexemes = some (condition, .symbol ")" :: rest)) :
    readUnary (depth + 1) (.symbol "(" :: lexemes) = some (condition, rest) := by
  have notNot : takeWord? "NOT" (.symbol "(" :: lexemes) = none := rfl
  have opens : takeSymbol? "(" (.symbol "(" :: lexemes) = some lexemes := rfl
  have closes : takeSymbol? ")" (.symbol ")" :: rest) = some rest := rfl
  simp [readUnary, notNot, opens, read, closes]

private theorem readUnary_not {depth : Nat} {lexemes rest : List Lexeme}
    {condition : Condition String} (read : readUnary depth lexemes = some (condition, rest)) :
    readUnary (depth + 1) (.word "NOT" :: lexemes) = some (.negation condition, rest) := by
  have isNot : takeWord? "NOT" (.word "NOT" :: lexemes) = some lexemes := rfl
  rw [readUnary]
  simp [isNot, read]

/-- A condition that is written reads as itself, whatever follows. -/
theorem readUnary_lexemes {condition : Condition String} (plain : condition.Plain) (depth : Nat)
    (enough : 4 * condition.lexemes.length ≤ depth) (rest : List Lexeme) :
    readUnary depth (condition.lexemes ++ rest) = some (condition, rest) := by
  induction condition generalizing depth rest with
  | compare left comparison right =>
      simp only [Condition.lexemes, List.length_append, List.length_cons] at enough
      obtain ⟨less, rfl⟩ : ∃ less, depth = less + 1 :=
        Nat.exists_eq_add_one_of_ne_zero (by omega)
      rw [Condition.lexemes, List.append_assoc, readUnary_term plain.1, List.cons_append,
        readPredicate_compare]
  | nullTest term negated =>
      simp only [Condition.lexemes, List.length_append, List.length_cons] at enough
      obtain ⟨less, rfl⟩ : ∃ less, depth = less + 1 :=
        Nat.exists_eq_add_one_of_ne_zero (by omega)
      rw [Condition.lexemes, List.append_assoc, readUnary_term plain, List.cons_append,
        readPredicate_nullTest]
  | conjunction left right ihLeft ihRight =>
      simp only [Condition.lexemes, List.length_append, List.length_cons, List.length_nil]
        at enough
      obtain ⟨less, rfl⟩ : ∃ less, depth = less + 5 := ⟨depth - 5, by omega⟩
      have readLeft := ihLeft plain.1 (less + 2) (by omega)
        (.word "AND" :: (right.lexemes ++ .symbol ")" :: rest))
      have readRight := ihRight plain.2 (less + 1) (by omega) (.symbol ")" :: rest)
      have read := readCondition_and readLeft readRight (ends_closing rest)
      simpa [Condition.lexemes] using readUnary_parentheses read
  | disjunction left right ihLeft ihRight =>
      simp only [Condition.lexemes, List.length_append, List.length_cons, List.length_nil]
        at enough
      obtain ⟨less, rfl⟩ : ∃ less, depth = less + 5 := ⟨depth - 5, by omega⟩
      have readLeft := ihLeft plain.1 (less + 2) (by omega)
        (.word "OR" :: (right.lexemes ++ .symbol ")" :: rest))
      have readRight := ihRight plain.2 (less + 1) (by omega) (.symbol ")" :: rest)
      have read := readCondition_or readLeft readRight (ends_closing rest)
      simpa [Condition.lexemes] using readUnary_parentheses read
  | negation inner ih =>
      simp only [Condition.lexemes, List.length_append, List.length_cons, List.length_nil]
        at enough
      obtain ⟨less, rfl⟩ : ∃ less, depth = less + 5 := ⟨depth - 5, by omega⟩
      have readInner := ih plain (less + 1) (by omega) (.symbol ")" :: rest)
      have read := readUnary_parentheses (readCondition_single readInner (ends_closing rest))
      simpa [Condition.lexemes] using readUnary_not read

private theorem readCondition_lexemes {condition : Condition String} (plain : condition.Plain)
    (depth : Nat) (enough : 4 * condition.lexemes.length + 3 ≤ depth) {rest : List Lexeme}
    (ends : Ends rest) :
    readCondition depth (condition.lexemes ++ rest) = some (condition, rest) := by
  obtain ⟨less, rfl⟩ : ∃ less, depth = less + 3 := ⟨depth - 3, by omega⟩
  exact readCondition_single (readUnary_lexemes plain (less + 1) (by omega) rest) ends

private theorem readTable_lexemes (table : Table) (rest : List Lexeme) :
    readTable (table.lexemes ++ rest) = some (table, rest) := by
  obtain ⟨schema, name, label⟩ := table
  cases schema <;> rfl

private theorem readLabelled_lexemes (entry : Column × String) (rest : List Lexeme) :
    readLabelled (labelled entry ++ rest) = some (entry, rest) := rfl

private theorem readOrdered_lexemes (entry : Column × Direction) (rest : List Lexeme) :
    readOrdered (ordered entry ++ rest) = some (entry, rest) := by
  obtain ⟨column, direction⟩ := entry
  cases direction <;> rfl

theorem readCommas_commas {α : Type} {read : List Lexeme → Option (α × List Lexeme)}
    {write : α → List Lexeme} (readsBack : ∀ item rest, read (write item ++ rest) = some (item, rest))
    (rest : List Lexeme) (notComma : takeSymbol? "," rest = none) (first : α) (others : List α)
    (steps : Nat) (enough : others.length + 1 ≤ steps) :
    readCommas read steps (commas ((first :: others).map write) ++ rest)
      = some (first :: others, rest) := by
  induction others generalizing first steps with
  | nil =>
      obtain ⟨less, rfl⟩ : ∃ less, steps = less + 1 :=
        Nat.exists_eq_add_one_of_ne_zero (by omega)
      simp [commas, readCommas, readsBack, notComma]
  | cons second others ih =>
      rw [List.length_cons] at enough
      obtain ⟨less, rfl⟩ : ∃ less, steps = less + 1 :=
        Nat.exists_eq_add_one_of_ne_zero (by omega)
      have split : commas ((first :: second :: others).map write) ++ rest
          = write first ++ .symbol "," :: (commas ((second :: others).map write) ++ rest) := by
        simp [commas]
      have goesOn (later : List Lexeme) :
          takeSymbol? "," (.symbol "," :: later) = some later := rfl
      rw [split, readCommas, readsBack]
      simp only [Option.bind_eq_bind, Option.bind_some, goesOn]
      rw [ih second less (by omega)]
      rfl

private theorem readJoining_joining (kind : JoinKind) (rest : List Lexeme) :
    readJoining (joining kind ++ rest) = some (kind, rest) := by
  cases kind <;> rfl

structure Select.Plain {μ : Type} (select : Select μ) : Prop where
  columns : select.columns ≠ []
  joins : ∀ joined ∈ select.joins, joined.on.Plain
  filter : ∀ condition ∈ select.filter, condition.Plain

private theorem ends_order (entries : List (Column × Direction)) :
    Ends (Select.orderLexemes entries) := by
  cases entries <;> exact ⟨rfl, rfl⟩

private theorem ends_filter (filter : Option (Condition String)) {rest : List Lexeme}
    (ends : Ends rest) : Ends (Select.filterLexemes filter ++ rest) := by
  cases filter with
  | none => exact ends
  | some condition => exact ⟨rfl, rfl⟩

private theorem ends_joins (joins : List (Joined String)) {rest : List Lexeme} (ends : Ends rest) :
    Ends (joins.flatMap Joined.lexemes ++ rest) := by
  cases joins with
  | nil => exact ends
  | cons joined others =>
      obtain ⟨kind, table, on⟩ := joined
      cases kind <;> exact ⟨rfl, rfl⟩

private theorem readJoins_lexemes {joins : List (Joined String)}
    (plain : ∀ joined ∈ joins, joined.on.Plain) (depth steps : Nat)
    (deep : 4 * (joins.flatMap Joined.lexemes).length + 3 ≤ depth)
    (enough : (joins.flatMap Joined.lexemes).length + 1 ≤ steps) {rest : List Lexeme}
    (ends : Ends rest) (noJoin : readJoining rest = none) :
    readJoins depth steps (joins.flatMap Joined.lexemes ++ rest) = some (joins, rest) := by
  induction joins generalizing steps with
  | nil =>
      obtain ⟨less, rfl⟩ : ∃ less, steps = less + 1 :=
        Nat.exists_eq_add_one_of_ne_zero (by omega)
      simp [readJoins, noJoin]
  | cons joined others ih =>
      rw [List.flatMap_cons, List.length_append] at deep enough
      have length : joined.on.lexemes.length + 1 ≤ joined.lexemes.length := by
        simp [Joined.lexemes]
        omega
      obtain ⟨less, rfl⟩ : ∃ less, steps = less + 1 :=
        Nat.exists_eq_add_one_of_ne_zero (by omega)
      have readOthers := ih (fun other member => plain other (List.mem_cons_of_mem joined member))
        less (by omega) (by omega)
      have readOn := readCondition_lexemes (plain joined List.mem_cons_self) depth (by omega)
        (ends_joins others ends)
      have isOn (later : List Lexeme) : takeWord? "ON" (.word "ON" :: later) = some later := rfl
      have split : (joined :: others).flatMap Joined.lexemes ++ rest
          = joining joined.kind ++ (joined.table.lexemes ++ .word "ON" :: (joined.on.lexemes
            ++ (others.flatMap Joined.lexemes ++ rest))) := by
        simp [Joined.lexemes]
      rw [split, readJoins, readJoining_joining]
      simp [readTable_lexemes, isOn, readOn, readOthers]

private theorem readFilter_lexemes {filter : Option (Condition String)}
    (plain : ∀ condition ∈ filter, condition.Plain) (depth : Nat)
    (deep : 4 * (Select.filterLexemes filter).length ≤ depth) {rest : List Lexeme}
    (ends : Ends rest) (notWhere : takeWord? "WHERE" rest = none) :
    readFilter depth (Select.filterLexemes filter ++ rest) = some (filter, rest) := by
  cases filter with
  | none => simp [Select.filterLexemes, readFilter, notWhere]
  | some condition =>
      simp only [Select.filterLexemes, List.length_cons] at deep
      have read := readCondition_lexemes (plain condition rfl) depth (by omega) ends
      have isWhere (later : List Lexeme) :
          takeWord? "WHERE" (.word "WHERE" :: later) = some later := rfl
      simp [Select.filterLexemes, readFilter, isWhere, read]

/-- There is a comma in front of every item but the first. -/
theorem length_le_commas {α : Type} (write : α → List Lexeme) (first : α) (others : List α) :
    others.length ≤ (commas ((first :: others).map write)).length := by
  induction others generalizing first with
  | nil => simp
  | cons second others ih =>
      have more := ih second
      simp [commas] at more ⊢
      omega

private theorem readOrder_lexemes (entries : List (Column × Direction)) (steps : Nat)
    (enough : (Select.orderLexemes entries).length ≤ steps) :
    readOrder steps (Select.orderLexemes entries) = some (entries, []) := by
  cases entries with
  | nil => rfl
  | cons first others =>
      have isOrder (later : List Lexeme) :
          takeWord? "ORDER" (.word "ORDER" :: later) = some later := rfl
      have isBy (later : List Lexeme) : takeWord? "BY" (.word "BY" :: later) = some later := rfl
      have length := length_le_commas ordered first others
      simp only [Select.orderLexemes, List.length_cons] at enough
      have read := readCommas_commas readOrdered_lexemes [] rfl first others steps (by omega)
      rw [List.append_nil] at read
      simpa [Select.orderLexemes, readOrder, isOrder, isBy] using read

/-- A query that is written reads as itself. -/
theorem readSelect_lexemes {select : Select String} (plain : select.Plain) :
    readSelect select.lexemes = some select := by
  obtain ⟨columns, table, joins, filter, order⟩ := select
  cases columns with
  | nil => exact absurd rfl plain.columns
  | cons first others =>
      have plainJoins : ∀ joined ∈ joins, joined.on.Plain := plain.joins
      have plainFilter : ∀ condition ∈ filter, condition.Plain := plain.filter
      have endsOrder := ends_order order
      have endsFilter := ends_filter filter endsOrder
      have notWhere : takeWord? "WHERE" (Select.orderLexemes order) = none := by
        cases order <;> rfl
      have noJoin : readJoining (Select.filterLexemes filter ++ Select.orderLexemes order)
          = none := by
        cases filter with
        | some condition => rfl
        | none => cases order <;> rfl
      have length := length_le_commas labelled first others
      have split : (Select.mk (first :: others) table joins filter order).lexemes
          = .word "SELECT" :: (commas ((first :: others).map labelled)
            ++ .word "FROM" :: (table.lexemes ++ (joins.flatMap Joined.lexemes
              ++ (Select.filterLexemes filter ++ Select.orderLexemes order)))) := by
        simp [Select.lexemes]
      have counted := congrArg List.length split
      simp only [List.length_cons, List.length_append] at counted
      unfold readSelect
      generalize isDepth : 4 * (Select.mk (first :: others) table joins filter order).lexemes.length
        = depth
      have isSelect (later : List Lexeme) :
          takeWord? "SELECT" (.word "SELECT" :: later) = some later := rfl
      have isFrom (later : List Lexeme) :
          takeWord? "FROM" (.word "FROM" :: later) = some later := rfl
      have readColumns := readCommas_commas readLabelled_lexemes
        (.word "FROM" :: (table.lexemes ++ (joins.flatMap Joined.lexemes
          ++ (Select.filterLexemes filter ++ Select.orderLexemes order))))
        rfl first others depth (by omega)
      have readJoined := readJoins_lexemes plainJoins depth depth (by omega) (by omega)
        endsFilter noJoin
      have readFiltered := readFilter_lexemes plainFilter depth (by omega) endsOrder notWhere
      have readOrdered := readOrder_lexemes order depth (by omega)
      rw [split]
      simp only [Option.bind_eq_bind, Option.bind_some, isSelect, readColumns, isFrom,
        readTable_lexemes, readJoined, readFiltered, readOrdered]
      rfl

/-! ### Markers of what is written -/

section Markers

variable {μ ν : Type}

theorem Term.markers_map (change : μ → ν) (term : Term μ) :
    (term.map change).markers = term.markers.map change := by
  cases term <;> rfl

theorem Condition.markers_map (change : μ → ν) (condition : Condition μ) :
    (condition.map change).markers = condition.markers.map change := by
  induction condition with
  | compare left comparison right => simp [map, markers, Term.markers_map]
  | nullTest term negated => exact term.markers_map change
  | conjunction left right ihLeft ihRight => simp [map, markers, ihLeft, ihRight]
  | disjunction left right ihLeft ihRight => simp [map, markers, ihLeft, ihRight]
  | negation inner ih => exact ih

theorem Select.markers_map (change : μ → ν) (select : Select μ) :
    (select.map change).markers = select.markers.map change := by
  obtain ⟨columns, table, joins, filter, order⟩ := select
  cases filter with
  | none =>
      simp [map, markers, Joined.map, Condition.markers_map, List.flatMap_map, List.map_flatMap]
  | some condition =>
      simp [map, markers, Joined.map, Condition.markers_map, List.flatMap_map, List.map_flatMap]

end Markers

theorem Term.filterMap_lexemes (term : Term String) :
    term.lexemes.filterMap Lexeme.marker? = term.markers := by
  cases term <;> rfl

private theorem sign_marker? (comparison : Comparison) : (sign comparison).marker? = none := by
  cases comparison <;> rfl

theorem Condition.filterMap_lexemes (condition : Condition String) :
    condition.lexemes.filterMap Lexeme.marker? = condition.markers := by
  induction condition with
  | compare left comparison right =>
      simp [lexemes, markers, Term.filterMap_lexemes, sign_marker?]
  | nullTest term negated =>
      cases negated <;> simp [lexemes, markers, Term.filterMap_lexemes, Lexeme.marker?]
  | conjunction left right ihLeft ihRight =>
      simp [lexemes, markers, List.filterMap_cons, Lexeme.marker?, ihLeft, ihRight]
  | disjunction left right ihLeft ihRight =>
      simp [lexemes, markers, List.filterMap_cons, Lexeme.marker?, ihLeft, ihRight]
  | negation inner ih => simp [lexemes, markers, List.filterMap_cons, Lexeme.marker?, ih]

private theorem filterMap_commas {α : Type} {write : α → List Lexeme}
    (noMarkers : ∀ item, (write item).filterMap Lexeme.marker? = []) (items : List α) :
    (commas (items.map write)).filterMap Lexeme.marker? = [] := by
  induction items with
  | nil => rfl
  | cons first others ih =>
      cases others with
      | nil => simpa [commas] using noMarkers first
      | cons second rest =>
          have split : commas ((first :: second :: rest).map write)
              = write first ++ .symbol "," :: commas ((second :: rest).map write) := by
            simp [commas]
          rw [split, List.filterMap_append, noMarkers, List.filterMap_cons_none rfl, ih]
          rfl

theorem Joined.filterMap_lexemes (joined : Joined String) :
    joined.lexemes.filterMap Lexeme.marker? = joined.on.markers := by
  obtain ⟨kind, ⟨schema, name, label⟩, on⟩ := joined
  cases kind <;> cases schema <;>
    simp [lexemes, joining, Table.lexemes, List.filterMap_cons, Lexeme.marker?,
      Condition.filterMap_lexemes]

private theorem filterMap_joins (joins : List (Joined String)) :
    (joins.flatMap Joined.lexemes).filterMap Lexeme.marker?
      = joins.flatMap fun joined => joined.on.markers := by
  induction joins with
  | nil => rfl
  | cons joined others ih => simp [Joined.filterMap_lexemes, ih]

private theorem filterMap_order (entries : List (Column × Direction)) :
    (Select.orderLexemes entries).filterMap Lexeme.marker? = [] := by
  have noMarkers (entry : Column × Direction) :
      (ordered entry).filterMap Lexeme.marker? = [] := by
    obtain ⟨column, direction⟩ := entry
    cases direction <;> rfl
  cases entries with
  | nil => rfl
  | cons first others => exact filterMap_commas noMarkers (first :: others)

/-- Only what stands for a value is written as a marker. -/
theorem Select.filterMap_lexemes (select : Select String) :
    select.lexemes.filterMap Lexeme.marker? = select.markers := by
  obtain ⟨columns, ⟨schema, name, label⟩, joins, filter, order⟩ := select
  have noMarkers (entry : Column × String) : (labelled entry).filterMap Lexeme.marker? = [] := rfl
  have ofColumns := filterMap_commas noMarkers columns
  cases schema <;> cases filter <;>
    simp [lexemes, markers, Table.lexemes, filterLexemes, List.filterMap_cons, Lexeme.marker?,
      ofColumns, filterMap_joins, filterMap_order, Condition.filterMap_lexemes]

end Sql
end EntityStore
