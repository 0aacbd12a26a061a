/-
The text of a compiled query is the query. A database that reads the text finds the columns
of the first entity type under their own names, the tables with their labels, the conditions
as they were written, except that nothing is compared with a literal null, and the order. The
markers stand in the order of the slots, each where the operand of its slot was.
-/

import EntityStore.Dialect.Shipped
import EntityStore.Proofs.Selects
import EntityStore.Query.Compiled
import Mathlib.Data.List.Forall2

set_option autoImplicit false

namespace EntityStore

open Sql (Lexeme Spells Follows Separates)

/-! ### What a query shows -/

def tableLabel (number : Nat) : String := "t" ++ toString number

def ColumnRef.named (reference : ColumnRef) : Sql.Column :=
  ⟨tableLabel reference.scope, reference.column⟩

inductive Operand.ShownAs : Operand → Sql.Term Slot → Prop where
  | column (reference : ColumnRef) : ShownAs (.column reference) (.column reference.named)
  | bound (slot : Slot) : ShownAs (.bound slot) (.marker slot)

/-- The comparisons that a literal null turns into a null test, and whether into a negated
one. -/
inductive Comparison.TestsNull : Comparison → Bool → Prop where
  | equal : TestsNull .equal false
  | unequal : TestsNull .unequal true

/-- Conditions show as they are, except that nothing shows as equal or unequal to a literal
null. -/
inductive Expression.ShownAs : Expression → Sql.Condition Slot → Prop where
  | compare {left right : Operand} {comparison : Comparison} {first second : Sql.Term Slot} :
      (∀ negated, comparison.TestsNull negated →
        left.isNullLiteral = false ∧ right.isNullLiteral = false) →
      left.ShownAs first → right.ShownAs second →
      ShownAs (.compare left comparison right) (.compare first comparison second)
  | nullRight {left right : Operand} {comparison : Comparison} {negated : Bool}
      {tested : Sql.Term Slot} :
      comparison.TestsNull negated → right.isNullLiteral → left.ShownAs tested →
      ShownAs (.compare left comparison right) (.nullTest tested negated)
  | nullLeft {left right : Operand} {comparison : Comparison} {negated : Bool}
      {tested : Sql.Term Slot} :
      comparison.TestsNull negated → left.isNullLiteral → right.ShownAs tested →
      ShownAs (.compare left comparison right) (.nullTest tested negated)
  | nullTest {operand : Operand} {tested : Sql.Term Slot} {negated : Bool} :
      operand.ShownAs tested → ShownAs (.nullTest operand negated) (.nullTest tested negated)
  | conjunction {left right : Expression} {first second : Sql.Condition Slot} :
      left.ShownAs first → right.ShownAs second →
      ShownAs (.conjunction left right) (.conjunction first second)
  | disjunction {left right : Expression} {first second : Sql.Condition Slot} :
      left.ShownAs first → right.ShownAs second →
      ShownAs (.disjunction left right) (.disjunction first second)
  | negation {inner : Expression} {shown : Sql.Condition Slot} :
      inner.ShownAs shown → ShownAs (.negation inner) (.negation shown)

def Mapping.labelled (mapping : Mapping) (number : Nat) : Sql.Table :=
  ⟨mapping.schema, mapping.table, tableLabel number⟩

structure Join.ShownAs (join : Join × Nat) (joined : Sql.Joined Slot) : Prop where
  kind : joined.kind = join.1.kind
  table : joined.table = join.1.target.labelled join.2
  on : join.1.on.ShownAs joined.on

/-- A query over tables that are numbered in the order of the text, from zero. -/
structure Query.ShownAs (query : Query) (select : Sql.Select Slot) : Prop where
  columns : select.columns = query.root.columns.map fun column => (⟨tableLabel 0, column⟩, column)
  table : select.table = query.root.labelled 0
  joins : List.Forall₂ Join.ShownAs (query.joins.zipIdx 1) select.joins
  filter : Option.Rel Expression.ShownAs query.predicate select.filter
  order : select.order = query.order.map fun key => (key.column.named, key.direction)

/-! ### The tree of a compiled query -/

def Operand.term (next : Nat) : Operand → Sql.Term (Slot × Nat)
  | column reference => .column reference.named
  | bound slot => .marker (slot, next)

def Expression.tree (next : Nat) : Expression → Sql.Condition (Slot × Nat)
  | compare left comparison right =>
      .compare (left.term next) comparison (right.term (next + left.slots.length))
  | nullTest operand negated => .nullTest (operand.term next) negated
  | conjunction left right =>
      .conjunction (left.tree next) (right.tree (next + left.slots.length))
  | disjunction left right =>
      .disjunction (left.tree next) (right.tree (next + left.slots.length))
  | negation inner => .negation (inner.tree next)

namespace Query

def joinTrees : Nat → Nat → List Join → List (Sql.Joined (Slot × Nat))
  | _, _, [] => []
  | number, next, join :: rest =>
      ⟨join.kind, join.target.labelled number, join.on.withNullTests.tree next⟩
        :: joinTrees (number + 1) (next + join.on.withNullTests.slots.length) rest

def tree (query : Query) : Sql.Select (Slot × Nat) where
  columns := query.root.columns.map fun column => (⟨tableLabel 0, column⟩, column)
  table := query.root.labelled 0
  joins := joinTrees 1 0 query.joins
  filter := query.predicate.map fun expression =>
    expression.withNullTests.tree (joinsSlots query.joins).length
  order := query.order.map fun key => (key.column.named, key.direction)

end Query

/-! ### Markers and slots -/

theorem Operand.markers_term (operand : Operand) (next : Nat) :
    (operand.term next).markers = operand.slots.zipIdx next := by
  cases operand <;> rfl

theorem Expression.markers_tree (expression : Expression) (next : Nat) :
    (expression.tree next).markers = expression.slots.zipIdx next := by
  induction expression generalizing next with
  | compare left comparison right =>
      simp [tree, slots, Sql.Condition.markers, Operand.markers_term, List.zipIdx_append]
  | nullTest operand negated => exact operand.markers_term next
  | conjunction left right ihLeft ihRight =>
      simp [tree, slots, Sql.Condition.markers, ihLeft, ihRight, List.zipIdx_append]
  | disjunction left right ihLeft ihRight =>
      simp [tree, slots, Sql.Condition.markers, ihLeft, ihRight, List.zipIdx_append]
  | negation inner ih => exact ih next

namespace Query

private theorem markers_joinTrees (joins : List Join) (number next : Nat) :
    (joinTrees number next joins).flatMap (fun joined => joined.on.markers)
      = (joinsSlots joins).zipIdx next := by
  induction joins generalizing number next with
  | nil => rfl
  | cons join rest ih =>
      simp [joinTrees, joinsSlots, Expression.markers_tree, ih, List.zipIdx_append]

private theorem markers_tree (query : Query) : query.tree.markers = query.slots.zipIdx := by
  unfold Sql.Select.markers slots
  rw [List.zipIdx_append, tree, markers_joinTrees]
  cases query.predicate with
  | none => simp [predicateSlots]
  | some expression => simp [predicateSlots, Expression.markers_tree]

end Query

/-! ### The tree shows the query -/

theorem Operand.shownAs_term (operand : Operand) (next : Nat) :
    operand.ShownAs ((operand.term next).map Prod.fst) := by
  cases operand with
  | column reference => exact .column reference
  | bound slot => exact .bound slot

theorem Comparison.testsNull_of {comparison : Comparison}
    (tests : (comparison = .equal || comparison = .unequal) = true) :
    comparison.TestsNull (comparison = .unequal) := by
  cases comparison with
  | equal => exact .equal
  | unequal => exact .unequal
  | _ => cases tests

theorem Expression.shownAs_tree (expression : Expression) (next : Nat) :
    expression.ShownAs ((expression.withNullTests.tree next).map Prod.fst) := by
  induction expression generalizing next with
  | compare left comparison right =>
      unfold withNullTests
      split
      · rename_i tests
        have testsNull := Comparison.testsNull_of tests
        split
        · rename_i isNull
          exact .nullRight testsNull isNull (left.shownAs_term next)
        split
        · rename_i isNull
          exact .nullLeft testsNull isNull (right.shownAs_term next)
        · rename_i notRight notLeft
          have notNull : left.isNullLiteral = false ∧ right.isNullLiteral = false := by
            simp [notLeft, notRight]
          exact .compare (fun _ _ => notNull) (left.shownAs_term _) (right.shownAs_term _)
      · rename_i other
        refine .compare ?_ (left.shownAs_term _) (right.shownAs_term _)
        intro negated testsNull
        cases testsNull <;> simp at other
  | nullTest operand negated => exact .nullTest (operand.shownAs_term next)
  | conjunction left right ihLeft ihRight => exact .conjunction (ihLeft _) (ihRight _)
  | disjunction left right ihLeft ihRight => exact .disjunction (ihLeft _) (ihRight _)
  | negation inner ih => exact .negation (ih next)

namespace Query

private theorem shownAs_joinTrees (joins : List Join) (number next : Nat) :
    List.Forall₂ Join.ShownAs (joins.zipIdx number)
      ((joinTrees number next joins).map (Sql.Joined.map Prod.fst)) := by
  induction joins generalizing number next with
  | nil => exact .nil
  | cons join rest ih =>
      exact .cons ⟨rfl, rfl, join.on.shownAs_tree next⟩ (ih (number + 1) _)

private theorem shownAs_tree (query : Query) : query.ShownAs (query.tree.map Prod.fst) where
  columns := rfl
  table := rfl
  joins := shownAs_joinTrees query.joins 1 0
  filter := by
    unfold tree Sql.Select.map
    cases query.predicate with
    | none => exact .none
    | some expression => exact .some (expression.shownAs_tree _)
  order := rfl

end Query

/-! ### The text spells the tree -/

private theorem toList_tableLabel (number : Nat) :
    (tableLabel number).toList = 't' :: Nat.toDigits 10 number := by
  simp [tableLabel, Nat.toString_eq_repr, Nat.toList_repr]

private theorem spells_tableLabel (number : Nat) :
    Spells (tableLabel number) [.word (tableLabel number)] := by
  have same : tableLabel number = String.ofList ('t' :: Nat.toDigits 10 number) := by
    rw [← toList_tableLabel, String.ofList_toList]
  have areWordChars : ∀ character ∈ 't' :: Nat.toDigits 10 number,
      Text.isWordChar character = true := by
    intro character member
    rcases List.mem_cons.mp member with rfl | isDigit
    · rfl
    · exact Sql.isWordChar_of_mem_toDigits isDigit
  rw [same]
  exact Sql.spells_word areWordChars

private theorem tableLabel_ne_not (number : Nat) : tableLabel number ≠ "NOT" := by
  intro same
  have heads := congrArg String.toList same
  rw [toList_tableLabel] at heads
  cases heads

def Dialect.Marks (dialect : Dialect) : Prop :=
  ∀ number, Spells (dialect.placeholder number) [.marker (dialect.placeholder number)]

private theorem spells_numbered {text : String} {mark : Char} (isMark : mark = ':' ∨ mark = '$')
    (isText : text.toList = [mark]) (number : Nat) :
    Spells (text ++ toString number) [.marker (text ++ toString number)] := by
  have same : text ++ toString number = String.ofList (mark :: Nat.toDigits 10 number) := by
    apply String.toList_injective
    simp [isText, Nat.toString_eq_repr, Nat.toList_repr]
  rw [same]
  exact Sql.spells_marker isMark fun character => Sql.isWordChar_of_mem_toDigits

theorem Dialect.marks_sqlite : Dialect.sqlite.Marks := by
  intro number
  have spells : Spells "?" [.marker "?"] := rfl
  exact spells

theorem Dialect.marks_postgres : Dialect.postgres.Marks := by
  intro number
  have isText : "$".toList = ['$'] := rfl
  exact spells_numbered (Or.inr rfl) isText (number + 1)

theorem Dialect.marks_oracle : Dialect.oracle.Marks := by
  intro number
  have isText : ":".toList = [':'] := rfl
  exact spells_numbered (Or.inl rfl) isText (number + 1)

theorem Dialect.marks_of_ofName? {name : String} {dialect : Dialect}
    (isShipped : Dialect.ofName? name = some dialect) : dialect.Marks := by
  unfold Dialect.ofName? at isShipped
  dsimp only at isShipped
  split at isShipped
  · cases isShipped
    exact Dialect.marks_sqlite
  split at isShipped
  · cases isShipped
    exact Dialect.marks_postgres
  split at isShipped
  · cases isShipped
    exact Dialect.marks_oracle
  · cases isShipped

def Dialect.place (dialect : Dialect) (marker : Slot × Nat) : String :=
  dialect.placeholder marker.2

section Texts

variable {dialect : Dialect}

private theorem spells_columnText (number : Nat) (column : String) :
    Spells (columnText number column) (Sql.Column.mk (tableLabel number) column).lexemes := by
  have follows := Sql.separates_point.follows (Sql.spells_quote column)
  have spells := follows _ _ (spells_tableLabel number)
  rw [← String.append_assoc] at spells
  exact spells

theorem Operand.spells (marks : dialect.Marks) (operand : Operand) (next : Nat) :
    Spells (operand.text dialect next) ((operand.term next).map dialect.place).lexemes := by
  cases operand with
  | column reference => exact spells_columnText reference.scope reference.column
  | bound slot => exact marks next

theorem Comparison.spells_sql (comparison : Comparison) :
    Spells comparison.sql [Sql.sign comparison] := by
  cases comparison <;> rfl

private theorem follows_isNull : Follows " IS NULL" [.word "IS", .word "NULL"] := by
  have spells : Spells "IS NULL" [.word "IS", .word "NULL"] := rfl
  have split : " IS NULL" = " " ++ "IS NULL" := rfl
  rw [split]
  exact Sql.separates_space.follows spells

private theorem follows_isNotNull :
    Follows " IS NOT NULL" [.word "IS", .word "NOT", .word "NULL"] := by
  have spells : Spells "IS NOT NULL" [.word "IS", .word "NOT", .word "NULL"] := rfl
  have split : " IS NOT NULL" = " " ++ "IS NOT NULL" := rfl
  rw [split]
  exact Sql.separates_space.follows spells

private theorem spells_opening : Sql.run .none "(".toList = some ([.symbol "("], .none) := rfl

private theorem spells_not :
    Sql.run .none "NOT (".toList = some ([.word "NOT", .symbol "("], .none) := rfl

private theorem separates_and : Separates " AND " [.word "AND"] :=
  ⟨' ', "AND ".toList, [], _, rfl, .space, rfl, rfl⟩

private theorem separates_or : Separates " OR " [.word "OR"] :=
  ⟨' ', "OR ".toList, [], _, rfl, .space, rfl, rfl⟩

theorem Expression.spells (marks : dialect.Marks) (expression : Expression) (next : Nat) :
    Spells (expression.text dialect next) ((expression.tree next).map dialect.place).lexemes := by
  induction expression generalizing next with
  | compare left comparison right =>
      have follows := (Sql.separates_space.follows comparison.spells_sql).append
        (Sql.separates_space.follows (right.spells marks (next + left.slots.length)))
      have spells := follows _ _ (left.spells marks next)
      simpa [text, tree, Sql.Condition.map, Sql.Condition.lexemes, String.append_assoc]
        using spells
  | nullTest operand negated =>
      have spells := operand.spells marks next
      cases negated with
      | true => exact follows_isNotNull _ _ spells
      | false => exact follows_isNull _ _ spells
  | conjunction left right ihLeft ihRight =>
      have opens := (ihLeft next).behind spells_opening
      have follows := (separates_and.follows (ihRight (next + left.slots.length))).append
        Sql.separates_closing.ends
      have spells := follows _ _ opens
      simpa [text, tree, Sql.Condition.map, Sql.Condition.lexemes, String.append_assoc]
        using spells
  | disjunction left right ihLeft ihRight =>
      have opens := (ihLeft next).behind spells_opening
      have follows := (separates_or.follows (ihRight (next + left.slots.length))).append
        Sql.separates_closing.ends
      have spells := follows _ _ opens
      simpa [text, tree, Sql.Condition.map, Sql.Condition.lexemes, String.append_assoc]
        using spells
  | negation inner ih =>
      have opens := (ih next).behind spells_not
      have spells := Sql.separates_closing.ends _ _ opens
      simpa [text, tree, Sql.Condition.map, Sql.Condition.lexemes, String.append_assoc]
        using spells

private theorem follows_tableLabel (number : Nat) :
    Follows (" t" ++ toString number) [.word (tableLabel number)] := by
  have split : " t" = " " ++ "t" := rfl
  rw [split, String.append_assoc]
  exact Sql.separates_space.follows (spells_tableLabel number)

private theorem spells_tableText (mapping : Mapping) (number : Nat) :
    Spells (Query.tableText mapping ++ (" t" ++ toString number))
      (mapping.labelled number).lexemes := by
  unfold Query.tableText Sql.qualified Mapping.labelled Sql.Table.lexemes
  cases mapping.schema with
  | none => exact follows_tableLabel number _ _ (Sql.spells_quote mapping.table)
  | some schema =>
      have follows := (Sql.separates_point.follows (Sql.spells_quote mapping.table)).append
        (follows_tableLabel number)
      have spells := follows _ _ (Sql.spells_quote schema)
      simpa [String.append_assoc] using spells

private theorem separates_joining (kind : JoinKind) : Separates kind.sql (Sql.joining kind) := by
  cases kind with
  | inner => exact ⟨' ', "INNER JOIN ".toList, [], _, rfl, .space, rfl, rfl⟩
  | outer => exact ⟨' ', "LEFT OUTER JOIN ".toList, [], _, rfl, .space, rfl, rfl⟩

private theorem separates_on : Separates " ON " [.word "ON"] :=
  ⟨' ', "ON ".toList, [], _, rfl, .space, rfl, rfl⟩

theorem separates_where : Separates " WHERE " [.word "WHERE"] :=
  ⟨' ', "WHERE ".toList, [], _, rfl, .space, rfl, rfl⟩

private theorem separates_orderBy : Separates " ORDER BY " [.word "ORDER", .word "BY"] :=
  ⟨' ', "ORDER BY ".toList, [], _, rfl, .space, rfl, rfl⟩

private theorem separates_as : Separates " AS " [.word "AS"] :=
  ⟨' ', "AS ".toList, [], _, rfl, .space, rfl, rfl⟩

theorem separates_from : Separates " FROM " [.word "FROM"] :=
  ⟨' ', "FROM ".toList, [], _, rfl, .space, rfl, rfl⟩

theorem spells_select : Sql.run .none "SELECT ".toList = some ([.word "SELECT"], .none) := rfl

private theorem follows_joinsText (marks : dialect.Marks) (joins : List Join) (number next : Nat) :
    Follows (Query.joinsText dialect number next joins)
      (((Query.joinTrees number next joins).map (Sql.Joined.map dialect.place)).flatMap
        Sql.Joined.lexemes) := by
  induction joins generalizing number next with
  | nil => exact .empty
  | cons join rest ih =>
      have joined := (separates_joining join.kind).follows (spells_tableText join.target number)
      have on := separates_on.follows (join.on.withNullTests.spells marks next)
      have follows := (joined.append on).append
        (ih (number + 1) (next + join.on.withNullTests.slots.length))
      simpa [Query.joinsText, Query.joinTrees, Sql.Joined.map, Sql.Joined.lexemes,
        String.append_assoc] using follows

private theorem follows_predicateText (marks : dialect.Marks) (predicate : Option Expression)
    (next : Nat) :
    Follows (Query.predicateText dialect next predicate)
      (Sql.Select.filterLexemes ((predicate.map fun expression =>
        expression.withNullTests.tree next).map (Sql.Condition.map dialect.place))) := by
  cases predicate with
  | none => exact .empty
  | some expression =>
      exact separates_where.follows (expression.withNullTests.spells marks next)

theorem spells_commaSeparated {α : Type} {write : α → String} {written : α → List Lexeme}
    (each : ∀ item, Spells (write item) (written item)) (first : α) (others : List α) :
    Spells (Sql.commaSeparated ((first :: others).map write))
      (Sql.commas ((first :: others).map written)) := by
  induction others generalizing first with
  | nil => simpa [Sql.commaSeparated, Sql.commas] using each first
  | cons second others ih =>
      have follows := Sql.separates_comma.follows (ih second)
      have spells := follows _ _ (each first)
      simpa [Sql.commaSeparated, Sql.commas, String.append_assoc] using spells

private theorem spells_key (key : OrderKey) :
    Spells (key.column.text ++ " " ++ key.direction.sql)
      (Sql.ordered (key.column.named, key.direction)) := by
  have spellsDirection : Spells key.direction.sql [Sql.direction key.direction] := by
    cases key.direction <;> rfl
  have follows := Sql.separates_space.follows spellsDirection
  rw [String.append_assoc]
  exact follows _ _ (spells_columnText key.column.scope key.column.column)

private theorem follows_orderText (keys : List OrderKey) :
    Follows (Query.orderText keys)
      (Sql.Select.orderLexemes (keys.map fun key => (key.column.named, key.direction))) := by
  cases keys with
  | nil => exact .empty
  | cons first others =>
      have follows := separates_orderBy.follows (spells_commaSeparated spells_key first others)
      simpa [Query.orderText, Sql.Select.orderLexemes, Function.comp_def] using follows

private theorem spells_labelled (column : String) :
    Spells (columnText 0 column ++ " AS " ++ Sql.quote column)
      (Sql.labelled (⟨tableLabel 0, column⟩, column)) := by
  have follows := separates_as.follows (Sql.spells_quote column)
  rw [String.append_assoc]
  exact follows _ _ (spells_columnText 0 column)

/-- The text of a query spells its tree, with the markers of the dialect. -/
theorem Query.spells_text (marks : dialect.Marks) (query : Query) :
    Spells (query.text dialect) (query.tree.map dialect.place).lexemes := by
  have columns : Spells (Query.selectText query.root) (.word "SELECT" :: Sql.commas
      (query.root.columns.map fun column => Sql.labelled (⟨tableLabel 0, column⟩, column))) :=
    (spells_commaSeparated spells_labelled _ _).behind spells_select
  have zero : " t0" = " t" ++ toString 0 := rfl
  have follows := (((separates_from.follows (spells_tableText query.root 0)).append
    (follows_joinsText marks query.joins 1 0)).append
    (follows_predicateText marks query.predicate (Query.joinsSlots query.joins).length)).append
    (follows_orderText query.order)
  have spells := follows _ _ columns
  rw [← zero] at spells
  simpa [Query.text, Query.tree, Sql.Select.map, Sql.Select.lexemes, String.append_assoc,
    Function.comp_def] using spells

end Texts

/-! ### Reading the text -/

theorem Operand.plain_term (operand : Operand) (next : Nat) (change : Slot × Nat → String) :
    ((operand.term next).map change).Plain := by
  cases operand with
  | column reference => exact tableLabel_ne_not reference.scope
  | bound slot => trivial

theorem Expression.plain_tree (expression : Expression) (next : Nat)
    (change : Slot × Nat → String) : ((expression.tree next).map change).Plain := by
  induction expression generalizing next with
  | compare left comparison right => exact ⟨left.plain_term _ _, right.plain_term _ _⟩
  | nullTest operand negated => exact operand.plain_term _ _
  | conjunction left right ihLeft ihRight => exact ⟨ihLeft _, ihRight _⟩
  | disjunction left right ihLeft ihRight => exact ⟨ihLeft _, ihRight _⟩
  | negation inner ih => exact ih next

theorem Query.plain_joinTrees (joins : List Join) (number next : Nat)
    (change : Slot × Nat → String) :
    ∀ joined ∈ (joinTrees number next joins).map (Sql.Joined.map change), joined.on.Plain := by
  induction joins generalizing number next with
  | nil => simp [joinTrees]
  | cons join rest ih =>
      rw [joinTrees, List.map_cons, List.forall_mem_cons]
      exact ⟨join.on.withNullTests.plain_tree next change, ih _ _⟩

theorem Query.plain_tree (query : Query) (change : Slot × Nat → String) :
    (query.tree.map change).Plain where
  columns := by simp [tree, Sql.Select.map, Mapping.columns]
  joins := plain_joinTrees query.joins 1 0 change
  filter := by
    unfold tree Sql.Select.map
    cases query.predicate with
    | none => simp
    | some expression =>
        intro condition isFilter
        cases isFilter
        exact expression.withNullTests.plain_tree _ change

/-- Read as a database reads it, the text of a compiled query is a query that shows what was
compiled. Its markers stand for the slots in order, and outside quotes the text has no other
markers than theirs. -/
theorem Query.compiled_reads_back (query : Query) {name : String} {dialect : Dialect}
    (isShipped : Dialect.ofName? name = some dialect) :
    ∃ select : Sql.Select (Slot × Nat),
      Sql.read (query.compile dialect).text
        = some (select.map fun marker => dialect.placeholder marker.2) ∧
      query.ShownAs (select.map Prod.fst) ∧
      select.markers = (query.compile dialect).slots.zipIdx ∧
      ∃ found, Sql.lexemes (query.compile dialect).text.toList = some found ∧
        found.filterMap Lexeme.marker?
          = (List.range (query.compile dialect).slots.length).map dialect.placeholder := by
  have spells := query.spells_text (Dialect.marks_of_ofName? isShipped)
  have markers : (query.tree.map dialect.place).lexemes.filterMap Lexeme.marker?
      = (List.range query.slots.length).map dialect.placeholder := by
    have numbers : query.slots.zipIdx.map Prod.snd = List.range query.slots.length := by
      rw [List.zipIdx_map_snd, List.range_eq_range']
    rw [Sql.Select.filterMap_lexemes, Sql.Select.markers_map, query.markers_tree, ← numbers,
      List.map_map]
    rfl
  refine ⟨query.tree, ?_, query.shownAs_tree, query.markers_tree, _, spells, markers⟩
  have reads := Sql.readSelect_lexemes (query.plain_tree dialect.place)
  have isText : Sql.lexemes (query.compile dialect).text.toList
      = some (query.tree.map dialect.place).lexemes := spells
  unfold Sql.read
  rw [isText, Option.bind_eq_bind, Option.bind_some]
  exact reads

namespace Samples

/-- A type whose names hold all that could be mistaken. -/
def puzzling : Mapping where
  entity := "Puzzle"
  table := "a \"b\" t1 ON (?"
  schema := some "x.y"
  id := ⟨"id, ?", none⟩
  properties := []

def puzzles : Query where
  root := puzzling
  joins := []
  predicate := some (.disjunction
    (.compare (.column ⟨0, "id, ?"⟩) .equal (.bound (.literal .null)))
    (.negation (.compare (.bound (.positional 0)) .equal (.column ⟨0, "id, ?"⟩))))
  order := [⟨⟨0, "id, ?"⟩, .descending⟩]
  positional := 1

end Samples

theorem Query.compiled_reads_back_puzzles :
    Dialect.ofName? "postgres" = some Dialect.postgres ∧
    ∃ select : Sql.Select (Slot × Nat),
      Sql.read (Samples.puzzles.compile .postgres).text
        = some (select.map fun marker => Dialect.postgres.placeholder marker.2) ∧
      Samples.puzzles.ShownAs (select.map Prod.fst) ∧
      select.markers = (Samples.puzzles.compile .postgres).slots.zipIdx := by
  have isShipped : Dialect.ofName? "postgres" = some Dialect.postgres := rfl
  obtain ⟨select, reads, shows, markers, _⟩ :=
    Query.compiled_reads_back Samples.puzzles isShipped
  exact ⟨isShipped, select, reads, shows, markers⟩

end EntityStore
