/-
Inverse queries: `from M where M.relation = :owner` asks for the instances of a type that refer
to an owner. A database that answers in full gives the rows of exactly those ids whose column
of the relation holds the id of the owner.
-/

import Mathlib.Data.List.Forall2
import Mathlib.Data.List.Perm.Basic
import EntityStore.Proofs.Acceptance
import EntityStore.Proofs.Binding
import EntityStore.Proofs.FaithfulTables
import EntityStore.Proofs.References
import EntityStore.Query.Meaning

set_option autoImplicit false

namespace EntityStore

/-! ### More entity types -/

namespace Grammar

variable {first second : String → Option Mapping}
  (more : ∀ name mapping, first name = some mapping → second name = some mapping)
include more

theorem Entity.mono {scope : List Mapping} {token : Token} {mapping : Mapping}
    (isEntity : Entity first scope token mapping) : Entity second scope token mapping := by
  obtain ⟨name, isWord, known⟩ := isEntity.known
  exact ⟨⟨name, isWord, more name mapping known⟩, isEntity.fresh⟩

theorem Joins.mono {scope : List Mapping} {before : Nat} {tokens : List Token}
    {joins : List Join} (derived : Joins first scope before tokens joins) :
    Joins second scope before tokens joins := by
  induction derived with
  | none => exact .none
  | join joining isEntity isOn condition _ ih =>
      exact .join joining (isEntity.mono more) isOn condition ih

end Grammar

/-- A query text means the same when more entity types are known. -/
theorem Query.parse_mono {first second : String → Option Mapping}
    (more : ∀ name mapping, first name = some mapping → second name = some mapping)
    {text : String} {query : Query} (parsed : Query.parse first text = .ok query) :
    Query.parse second text = .ok query := by
  obtain ⟨words, last, scanned, isEnd, derived⟩ := Query.exists_derivation parsed
  have derivedAgain : Grammar second words query := by
    cases derived with
    | query isFrom isEntity joins filters orders =>
        exact .query isFrom (isEntity.mono more) (joins.mono more) filters orders
  have ran := QueryParser.run_query derivedAgain isEnd (Nat.le_add_right words.length 1)
  unfold Query.parse
  simp [scanned, ran]

/-! ### Rows and ids -/

namespace Layout

/-- A row reads as the one that a type has under an id; what it does not have is null. -/
def ReadsRow (layout : Layout) (contents : Contents) (mapping : Mapping) (id : Int64)
    (row : Row) : Prop :=
  ∃ fields, contents (layout.tableOf mapping) id = some fields ∧
    ∀ column ∈ mapping.columns, (row.get? column).getD .null = fields (layout.column column)

def ShowsRow (layout : Layout) (contents : Contents) (mapping : Mapping) (id : Int64)
    (row : Row) : Prop :=
  ∃ fields, contents (layout.tableOf mapping) id = some fields ∧
    layout.Shows mapping.columns fields row

def Lists (layout : Layout) (contents : Contents) (mapping : Mapping) (rows : List Row) : Prop :=
  ∃ ids : List Int64, ids.Nodup ∧
    (∀ id, contents (layout.tableOf mapping) id ≠ none → id ∈ ids) ∧
    List.Forall₂ (layout.ReadsRow contents mapping) ids rows

def equals (layout : Layout) (column : String) (value : Value) (fields : Fields) : Bool :=
  Comparison.equal.truth (fields (layout.column column)) value == some true

structure Selects (layout : Layout) (contents : Contents) (mapping : Mapping) (column : String)
    (value : Value) (ids : List Int64) : Prop where
  distinct : ids.Nodup
  mem_iff : ∀ id, id ∈ ids ↔ ∃ fields, contents (layout.tableOf mapping) id = some fields ∧
    layout.equals column value fields = true

private theorem equals_integer_iff {layout : Layout} {column : String} {owner : Int64}
    {fields : Fields} (link : (fields (layout.column column)).IsLink) :
    layout.equals column (.integer owner) fields = true
      ↔ (fields (layout.column column)).integer? = some owner := by
  unfold equals
  rcases link with isNull | ⟨id, isId⟩
  · rw [isNull]
    simp [Comparison.truth, Value.isNull, Value.integer?]
  · rw [isId]
    simp [Comparison.truth, Comparison.holds, Value.isNull, Value.integer?, Value.order,
      Value.ratio?, Int64.toInt_inj]

/-- The columns of a result show what a row reads as. -/
theorem ReadsRow.project {layout : Layout} {contents : Contents} {mapping : Mapping} {id : Int64}
    {row : Row} (wellFormed : mapping.WellFormed) (reads : layout.ReadsRow contents mapping id row) :
    layout.ShowsRow contents mapping id (Query.project mapping row) := by
  obtain ⟨fields, found, reads⟩ := reads
  refine ⟨fields, found, fun column member => ?_⟩
  rw [← reads column member]
  exact Row.get?_ofList_of_mem (wellFormed.distinct_columns fun column =>
    (row.get? column).getD .null) (List.mem_map.mpr ⟨column, member, rfl⟩)

end Layout

theorem Mapping.Hydrates.key_eq {layout : Layout} {contents : Contents} {mapping : Mapping}
    {id : Int64} {row : Row} {entry : Key × Row} (hydrates : mapping.Hydrates row entry)
    (fits : layout.Fits mapping) (keyed : layout.Keyed contents)
    (isShown : layout.ShowsRow contents mapping id row) :
    entry.1 = Key.withId mapping.entity id := by
  obtain ⟨fields, found, shown⟩ := isShown
  obtain ⟨other, isOther, isKey⟩ := hydrates.key
  have held := keyed _ _ _ found
  rw [← fits.keyed] at held
  rw [shown _ List.mem_cons_self, held] at isOther
  cases isOther
  exact isKey

/-- What is made of the rows that show those under ids has the keys of these ids. -/
theorem Mapping.keys_of_hydrates {layout : Layout} {contents : Contents} {mapping : Mapping}
    {ids : List Int64} {rows : List Row} {entries : List (Key × Row)} (fits : layout.Fits mapping)
    (keyed : layout.Keyed contents)
    (shown : List.Forall₂ (layout.ShowsRow contents mapping) ids rows)
    (hydrates : List.Forall₂ mapping.Hydrates rows entries) :
    entries.map Prod.fst = ids.map (Key.withId mapping.entity) := by
  induction shown generalizing entries with
  | nil =>
      cases hydrates
      rfl
  | cons showsRow _ ih =>
      obtain _ | ⟨hydratesRow, hydratesRest⟩ := hydrates
      rw [List.map_cons, List.map_cons, ih hydratesRest, hydratesRow.key_eq fits keyed showsRow]

namespace Layout

/-- Rows that refer to an owner as before are selected as before. -/
theorem Selects.refers {layout : Layout} {before after : Contents} {mapping : Mapping}
    {relation : ObjectRelation} {owner : Int64} {ids : List Int64}
    (selects : layout.Selects before mapping relation.column (.integer owner) ids)
    (declared : relation ∈ mapping.objectRelations)
    (linked : ∀ id, layout.Linked before mapping id) (linkedAfter : ∀ id, layout.Linked after mapping id)
    (same : ∀ id, layout.Refers after mapping relation id owner
      ↔ layout.Refers before mapping relation id owner) :
    layout.Selects after mapping relation.column (.integer owner) ids := by
  have equals (contents : Contents) (links : ∀ id, layout.Linked contents mapping id) (id : Int64) :
      (∃ fields, contents (layout.tableOf mapping) id = some fields ∧
        layout.equals relation.column (.integer owner) fields = true)
        ↔ layout.Refers contents mapping relation id owner :=
    exists_congr fun fields => and_congr_right fun found =>
      equals_integer_iff (links id relation declared fields found)
  refine ⟨selects.distinct, fun id => ?_⟩
  rw [selects.mem_iff, equals before linked, equals after linkedAfter, same]

end Layout

/-! ### Inverse queries -/

namespace Query

structure Inverts (query : Query) (relation : ObjectRelation) (parameter : String) : Prop where
  declared : relation ∈ query.root.objectRelations
  alone : query.joins = []
  predicate : query.predicate =
    some (.compare (.column ⟨0, relation.column⟩) .equal (.bound (.named parameter)))

def asks (column : String) (value : Value) (row : Row) : Bool :=
  Comparison.equal.truth ((row.get? column).getD .null) value == some true

variable {query : Query} {relation : ObjectRelation} {parameter : String}

namespace Inverts

variable (inverts : query.Inverts relation parameter)
include inverts

/-- The one value of an inverse query is the id of the owner. -/
theorem values {dialect : Dialect} {name : String} {owner : Int64} {values : List Value}
    (bound : (query.compile dialect).bind (.named [(name, .integer owner)]) dialect
      = .ok values) : values = [.integer owner] := by
  have slots : (query.compile dialect).slots = [.named parameter] := by
    unfold Query.compile Query.slots
    simp [inverts.alone, inverts.predicate, joinsSlots, predicateSlots, Expression.withNullTests,
      Operand.isNullLiteral, Expression.slots, Operand.slots]
  unfold CompiledQuery.bind at bound
  split at bound
  · cases bound
  rw [slots] at bound
  unfold CompiledQuery.slotValues CompiledQuery.slotValue at bound
  simp only [List.lookup_cons, List.lookup_nil] at bound
  by_cases same : parameter = name
  · simp only [same, beq_self_eq_true] at bound
    cases bound
    rfl
  · simp only [beq_eq_false_iff_ne.mpr same] at bound
    cases bound

private theorem accepts (owner : Value) (row : Row) :
    query.accepts [owner] [some row] = asks relation.column owner row := by
  unfold Query.accepts
  rw [inverts.predicate, inverts.alone]
  rfl

private theorem rows_perm (source : Mapping → List Row) (owner : Value) :
    (query.rows source [owner]).Perm
      (((source query.root).filter (asks relation.column owner)).map (project query.root)) := by
  unfold Query.rows Query.combinations
  rw [inverts.alone]
  simp only [joinAll]
  refine ((List.mergeSort_perm _ _).filterMap _).trans ?_
  rw [List.filter_map, List.filterMap_map]
  have same : (query.accepts [owner] ∘ fun row : Row => [some row]) = asks relation.column owner :=
    funext (inverts.accepts owner)
  rw [same, ← List.filterMap_eq_map]
  exact List.Perm.refl _

private theorem selects {layout : Layout} {contents : Contents} {source : Mapping → List Row}
    (owner : Value) (wellFormed : query.root.WellFormed)
    (lists : layout.Lists contents query.root (source query.root)) :
    ∃ ids, layout.Selects contents query.root relation.column owner ids ∧
      List.Forall₂ (layout.ShowsRow contents query.root) ids (query.rows source [owner]) := by
  obtain ⟨all, distinct, complete, listed⟩ := lists
  have isColumn := Mapping.column_mem_of_relation inverts.declared
  have kept : List.Forall₂ (layout.ReadsRow contents query.root)
      (all.filter fun id =>
        (contents (layout.tableOf query.root) id).any (layout.equals relation.column owner))
      ((source query.root).filter (asks relation.column owner)) := by
    refine List.rel_filter ?_ listed
    rintro id row ⟨fields, found, reads⟩
    simp only [asks, found, reads _ isColumn, Option.any_some, Layout.equals]
  have shown := List.forall₂_map_right_iff.mpr
    (kept.imp fun id row => Layout.ReadsRow.project wellFormed)
  obtain ⟨ids, shownRows, same⟩ :=
    List.perm_comp_forall₂ (inverts.rows_perm source owner) shown.flip
  refine ⟨ids, ⟨same.nodup_iff.mpr (distinct.filter _), fun id => ?_⟩, shownRows.flip⟩
  rw [same.mem_iff, List.mem_filter, Option.any_eq_true]
  refine ⟨And.right, fun isSelected => ⟨complete id fun absent => ?_, isSelected⟩⟩
  obtain ⟨fields, found, _⟩ := isSelected
  rw [absent] at found
  cases found

/-- What is made of the result of an inverse query has the keys of the ids that are selected. -/
theorem keys {layout : Layout} {contents : Contents} {source : Mapping → List Row}
    {owner : Value} {entries : List (Key × Row)} (fits : layout.Fits query.root)
    (keyed : layout.Keyed contents)
    (lists : layout.Lists contents query.root (source query.root))
    (hydrated : query.root.hydrateAll (query.rows source [owner]) = .ok entries) :
    ∃ ids, layout.Selects contents query.root relation.column owner ids ∧
      entries.map Prod.fst = ids.map (Key.withId query.root.entity) := by
  obtain ⟨ids, selects, shown⟩ := inverts.selects owner fits.wellFormed lists
  have hydrates := Mapping.hydrateAll_forall₂ fits.wellFormed hydrated
  exact ⟨ids, selects, Mapping.keys_of_hydrates fits keyed shown hydrates⟩

end Inverts

end Query

/-! ### Databases that answer in full -/

/-- A query that is no page is answered with the rows that it means on all rows of its types. -/
def Faithful.AnswersInFull {World : Type} {layout : Layout} {database : Database World}
    (faithful : Faithful layout database) : Prop :=
  ∀ connection world dialect (query : Query) values rows, faithful.Valid world →
    (∀ mapping ∈ query.scope, layout.Fits mapping) →
    (database.query connection (Statement.select dialect query {} values) world).1 = .ok rows →
    ∃ source : Mapping → List Row,
      (∀ mapping ∈ query.scope,
        layout.Lists (faithful.seen world connection) mapping (source mapping)) ∧
      rows = query.rows source (values.map layout.stored)

namespace Tables

variable {tables : Tables} {key : String → String} {mapping : Mapping} {table : Table}

private theorem lists_rowsOf (sane : tables.Sane key)
    (found : tables.find (Statement.tableOf mapping) = .ok table) :
    (layout key).Lists tables.contents mapping (tables.rowsOf mapping) := by
  have saneTable := sane.each table (find_ok found).1
  refine ⟨table.rows.map Prod.fst, saneTable.ids, fun id present => ?_, ?_⟩
  · rw [contents_tableOf sane found, Table.row?, ne_eq, Option.map_eq_none_iff] at present
    obtain ⟨row, isRow⟩ := Option.ne_none_iff_exists'.mp present
    exact List.mem_map.mpr ⟨(id, row), mem_of_lookup isRow, rfl⟩
  · unfold rowsOf
    rw [found]
    refine List.forall₂_map_left_iff.mpr (List.forall₂_map_right_iff.mpr
      (List.forall₂_same.mpr fun entry member => ?_))
    refine ⟨(table.fullRow entry).fields, ?_, fun column _ =>
      (Row.fields_lower (saneTable.distinct (saneTable.shaped entry member)) column).symm⟩
    rw [contents_tableOf sane found, Table.row?, (lookup_eq_some_iff_mem saneTable.ids).mpr member]
    rfl

private theorem exists_of_mapM {α β ε : Type} {search : α → Except ε β} {list : List α}
    {found : List β}
    (searched : list.mapM search = .ok found) : ∀ one ∈ list, ∃ result, search one = .ok result := by
  induction list generalizing found with
  | nil =>
      intro one member
      cases member
  | cons first rest ih =>
      rw [List.mapM_cons] at searched
      simp only [bind, Except.bind, pure, Except.pure] at searched
      split at searched
      · cases searched
      rename_i result isResult
      split at searched
      · cases searched
      rename_i results areResults
      intro one member
      rcases List.mem_cons.mp member with rfl | isLater
      · exact ⟨result, isResult⟩
      · exact ih areResults one isLater

private theorem answer_select {dialect : Dialect} {query : Query} {values : List Value}
    {rows : List Row}
    (answered : tables.answer (Statement.select dialect query {} values) = .ok rows) :
    (∀ mapping ∈ query.scope, ∃ table, tables.find (Statement.tableOf mapping) = .ok table) ∧
      rows = query.rows tables.rowsOf (values.map Value.stored) := by
  unfold answer at answered
  simp only [bind, Except.bind, pure, Except.pure, Statement.select] at answered
  split at answered
  · cases answered
  split at answered
  · cases answered
  rename_i checked
  split at answered
  · cases answered
  refine ⟨?_, ?_⟩
  · unfold checkQuery at checked
    simp only [bind, Except.bind] at checked
    split at checked
    · cases checked
    rename_i found
    exact exists_of_mapM found
  · cases answered
    rfl

theorem answersInFull (key : String → String) (description : String) :
    (faithful key description).AnswersInFull := by
  intro connection world dialect query values rows valid _ answered
  obtain ⟨seen, sane⟩ := seen_eq valid connection
  simp only [database, queryOn, reply] at answered
  cases answer : (world.seenBy connection).answer (Statement.select dialect query {} values) with
  | error fault =>
      rw [answer] at answered
      cases answered
  | ok found =>
      rw [answer] at answered
      cases answered
      obtain ⟨tables, rfl⟩ := answer_select answer
      refine ⟨(world.seenBy connection).rowsOf, fun mapping member => ?_, rfl⟩
      obtain ⟨table, found⟩ := tables mapping member
      have lists := lists_rowsOf sane found
      rw [← seen] at lists
      exact lists

end Tables

end EntityStore
