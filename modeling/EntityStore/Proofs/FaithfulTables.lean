/-
The tables in memory are a faithful database: what statements do to them is what they mean,
what they answer is true, and connections see what they should.
-/

import EntityStore.Proofs.Faithful
import EntityStore.Proofs.TableContents

set_option autoImplicit false

namespace EntityStore
namespace Tables

def contents (tables : Tables) : Contents := fun name id =>
  (tables.list.find? fun table => Text.lower table.name == name).bind fun table => table.row? id

structure Sane (key : String → String) (tables : Tables) : Prop where
  distinct : (tables.list.map fun table => Text.lower table.name).Nodup
  each : ∀ table ∈ tables.list, table.Sane
  keyed : ∀ table ∈ tables.list,
    Text.lower table.idColumn = Text.lower (key (Text.lower table.name))

variable {key : String → String} {tables : Tables} {table after : Table}

private theorem contents_of_mem (sane : tables.Sane key) (member : table ∈ tables.list)
    (id : Int64) : tables.contents (Text.lower table.name) id = table.row? id := by
  unfold contents
  cases found : tables.list.find? fun other => Text.lower other.name == Text.lower table.name with
  | none =>
      have missing := List.find?_eq_none.mp found table member
      simp at missing
  | some other =>
      have finds := List.find?_some found
      have sameName : Text.lower other.name = Text.lower table.name := beq_iff_eq.mp finds
      have same : other = table := List.inj_on_of_nodup_map sane.distinct
        (List.mem_of_find?_eq_some found) member sameName
      rw [same]
      rfl

theorem find_ok {name : QualifiedName} (found : tables.find name = .ok table) :
    table ∈ tables.list ∧ Text.lower table.name = Text.lower name.name := by
  unfold find at found
  split at found
  · rename_i isFound
    cases found
    refine ⟨List.mem_of_find?_eq_some isFound, ?_⟩
    have finds := List.find?_some isFound
    exact Text.sameIgnoringCase_iff.mp finds
  · cases found

private theorem keyed_of_find {mapping : Mapping} (sane : tables.Sane key)
    (fits : (layout key).Fits mapping)
    (found : tables.find (Statement.tableOf mapping) = .ok table) :
    Text.lower mapping.id.column = Text.lower table.idColumn := by
  obtain ⟨member, same⟩ := find_ok found
  rw [sane.keyed table member, same]
  exact fits.keyed

private theorem mem_replace {other : Table} (member : other ∈ (tables.replace after).list) :
    other = after ∨ other ∈ tables.list := by
  obtain ⟨old, isOld, rfl⟩ := List.mem_map.mp member
  split
  · exact Or.inl rfl
  · exact Or.inr isOld

/-- Looking for a name finds what replaces a table exactly where it would find the table. -/
theorem find?_replace (name : String) :
    ((tables.replace after).list.find? fun other => Text.lower other.name == name) =
      (tables.list.find? fun other => Text.lower other.name == name).map fun other =>
        if other.name == after.name then after else other := by
  unfold replace
  rw [List.find?_map]
  have sameNames : ((fun other : Table => Text.lower other.name == name) ∘ fun other : Table =>
      if other.name == after.name then after else other)
        = fun other : Table => Text.lower other.name == name := by
    funext other
    dsimp only [Function.comp_apply]
    split
    · rename_i isNamed
      rw [beq_iff_eq.mp isNamed]
    · rfl
  rw [sameNames]

theorem Sane.replace (sane : tables.Sane key) (member : table ∈ tables.list)
    (saneAfter : after.Sane) (name : after.name = table.name)
    (idColumn : after.idColumn = table.idColumn) : (tables.replace after).Sane key := by
  have names : (tables.replace after).list.map (fun other => Text.lower other.name)
      = tables.list.map fun other => Text.lower other.name := by
    unfold Tables.replace
    rw [List.map_map]
    refine List.map_congr_left fun other _ => ?_
    dsimp only [Function.comp_apply]
    split
    · rename_i same
      rw [beq_iff_eq.mp same]
    · rfl
  refine ⟨names ▸ sane.distinct, ?_, ?_⟩
  · intro other isOther
    rcases mem_replace isOther with rfl | isOld
    · exact saneAfter
    · exact sane.each other isOld
  · intro other isOther
    rcases mem_replace isOther with rfl | isOld
    · rw [idColumn, name]
      exact sane.keyed table member
    · exact sane.keyed other isOld

private theorem replace_ok (sane : tables.Sane key) (member : table ∈ tables.list)
    (saneAfter : after.Sane) (name : after.name = table.name)
    (idColumn : after.idColumn = table.idColumn) :
    (tables.replace after).Sane key ∧ ∀ other id, (tables.replace after).contents other id =
      if other = Text.lower table.name then after.row? id else tables.contents other id := by
  have saneReplaced := sane.replace member saneAfter name idColumn
  refine ⟨saneReplaced, fun other id => ?_⟩
  by_cases same : other = Text.lower table.name
  · have isAfter : after ∈ (tables.replace after).list :=
      List.mem_map.mpr ⟨table, member, by rw [if_pos (by simp [name])]⟩
    rw [if_pos same, same, ← name, contents_of_mem saneReplaced isAfter]
  · rw [if_neg same]
    unfold contents
    rw [find?_replace]
    cases found : tables.list.find? fun one => Text.lower one.name == other with
    | none => rfl
    | some one =>
        have finds := List.find?_some found
        have isOther : Text.lower one.name = other := beq_iff_eq.mp finds
        have apart : (one.name == after.name) = false := by
          rw [beq_eq_false_iff_ne]
          intro isNamed
          apply same
          rw [← isOther, isNamed, name]
        simp only [Option.map_some, apart, Bool.false_eq_true, ↓reduceIte]

/-! ### Statements -/

private theorem contents_eq_set (sane : tables.Sane key) (member : table ∈ tables.list)
    (saneAfter : after.Sane) (name : after.name = table.name)
    (idColumn : after.idColumn = table.idColumn) {id : Int64} {row : Option Fields}
    (rows : ∀ other, after.row? other = if other = id then row else table.row? other) :
    (tables.replace after).Sane key ∧ (tables.replace after).contents
      = tables.contents.set (Text.lower table.name) id row := by
  obtain ⟨saneReplaced, same⟩ := replace_ok sane member saneAfter name idColumn
  refine ⟨saneReplaced, ?_⟩
  funext other number
  rw [same, rows]
  unfold Contents.set
  by_cases isTable : other = Text.lower table.name
  · rw [if_pos isTable, isTable, contents_of_mem sane member]
    by_cases isId : number = id
    · rw [if_pos isId, if_pos ⟨rfl, isId⟩]
    · rw [if_neg isId, if_neg (fun both => isId both.2)]
  · rw [if_neg isTable, if_neg (fun both => isTable both.1)]

private theorem given_columns (columns : List (String × Value)) (more : List Value) :
    (Statement.given (columns.map Prod.fst) (columns.map Prod.snd ++ more)).1 = ⟨columns⟩ := by
  unfold Statement.given
  rw [Layout.zip_columns]

section Rows

variable {mapping : Mapping} {dialect : Dialect} (sane : tables.Sane key)
  (fits : (layout key).Fits mapping)
  (found : tables.find (Statement.tableOf mapping) = .ok table)
include sane fits found

omit fits in
theorem contents_tableOf (id : Int64) :
    tables.contents ((layout key).tableOf mapping) id = table.row? id := by
  obtain ⟨member, same⟩ := find_ok found
  rw [← contents_of_mem sane member, same]
  rfl

private theorem executes_insert {columns : List (String × Value)} (distinct : Row.Distinct columns)
    (known : ∀ entry ∈ columns, entry.1 ∈ mapping.columns)
    (integral : ∀ entry ∈ columns, entry.1 = mapping.id.column → ∃ id, entry.2 = .integer id)
    {id : Int64} (inserted : table.insert ⟨columns⟩ = .ok (id, after)) :
    (tables.replace after).Sane key ∧
      (layout key).Executes (Statement.insert dialect mapping columns) tables.contents
        (tables.replace after).contents (some id) := by
  obtain ⟨member, name⟩ := find_ok found
  have keyed := keyed_of_find sane fits found
  have integers : ∀ entry ∈ columns, Text.lower entry.1 = Text.lower table.idColumn →
      ∃ id, entry.2 = .integer id := by
    intro entry isEntry same
    refine integral entry isEntry (List.inj_on_of_nodup_map fits.wellFormed.distinctColumns
      (known entry isEntry) List.mem_cons_self (same.trans keyed.symm))
  obtain ⟨missing, saneAfter, sameName, sameColumn, fields, rows, idField, sets⟩ :=
    Table.insert_ok (sane.each table member) distinct integers inserted
  obtain ⟨saneReplaced, same⟩ := contents_eq_set sane member saneAfter sameName sameColumn rows
  refine ⟨saneReplaced, Layout.executes_insert.mpr ⟨id, fields, ?_, ?_, sets, ?_, rfl⟩⟩
  · rw [contents_tableOf sane found, missing]
  · show fields (Text.lower mapping.id.column) = _
    rw [keyed]
    exact idField
  · rw [same, name]
    rfl

private theorem executes_update {columns : List (String × Value)} (distinct : Row.Distinct columns)
    (known : ∀ entry ∈ columns, entry.1 ∈ mapping.properties.filterMap Property.column?)
    {id : Int64} {affected : Nat}
    (updated : table.update ⟨columns⟩ mapping.id.column (.integer id) = .ok (affected, after)) :
    (tables.replace after).Sane key ∧
      (layout key).Executes (Statement.update dialect mapping columns id) tables.contents
        (tables.replace after).contents none := by
  obtain ⟨member, name⟩ := find_ok found
  have keyed := keyed_of_find sane fits found
  have plain : ∀ entry ∈ columns, Text.lower entry.1 ≠ Text.lower table.idColumn := by
    intro entry isEntry same
    have columnsDistinct := fits.wellFormed.distinctColumns
    unfold Mapping.columns at columnsDistinct
    rw [List.map_cons, List.nodup_cons] at columnsDistinct
    refine columnsDistinct.1 ?_
    rw [keyed, ← same]
    exact List.mem_map_of_mem (known entry isEntry)
  obtain ⟨saneAfter, sameName, sameColumn, rows⟩ :=
    Table.update_ok (sane.each table member) keyed key distinct plain updated
  obtain ⟨saneReplaced, same⟩ := contents_eq_set sane member saneAfter sameName sameColumn rows
  refine ⟨saneReplaced, Layout.executes_update.mpr ⟨?_, rfl⟩⟩
  unfold Contents.change
  rw [same, contents_tableOf sane found, name]
  rfl

private theorem executes_delete {id : Int64} {affected : Nat}
    (deleted : table.delete mapping.id.column (.integer id) = .ok (affected, after)) :
    (tables.replace after).Sane key ∧
      (layout key).Executes (Statement.delete dialect mapping id) tables.contents
        (tables.replace after).contents none := by
  obtain ⟨member, name⟩ := find_ok found
  obtain ⟨saneAfter, sameName, sameColumn, rows⟩ :=
    Table.delete_ok (sane.each table member) (keyed_of_find sane fits found) deleted
  obtain ⟨saneReplaced, same⟩ := contents_eq_set sane member saneAfter sameName sameColumn rows
  refine ⟨saneReplaced, Layout.executes_delete.mpr ⟨?_, rfl⟩⟩
  rw [same, name]
  rfl

end Rows

/-- A table that is created is new to the tables, and empty. -/
theorem create_eq {name : QualifiedName} {idColumn : String} {columns : List ColumnSpec}
    {created : Tables} (creates : tables.create name idColumn columns = .ok created) :
    (∀ table ∈ tables.list, Text.lower table.name ≠ Text.lower name.name) ∧
      created = ⟨tables.list ++
        [{ name := name.name, idColumn := idColumn, columns := columns }]⟩ := by
  unfold create at creates
  simp only [bind, Except.bind, pure, Except.pure, throw, throwThe, MonadExceptOf.throw] at creates
  split at creates
  · cases creates
  split at creates
  · cases creates
  split at creates
  · cases creates
  rename_i absent
  cases creates
  refine ⟨fun table member same => ?_, rfl⟩
  exact List.find?_eq_none.mp (Option.not_isSome_iff_eq_none.mp absent) table member
    (Text.sameIgnoringCase_iff.mpr same)

theorem Sane.append (sane : tables.Sane key)
    (fresh : ∀ table ∈ tables.list, Text.lower table.name ≠ Text.lower after.name)
    (saneAfter : after.Sane)
    (keyed : Text.lower after.idColumn = Text.lower (key (Text.lower after.name))) :
    Tables.Sane key ⟨tables.list ++ [after]⟩ := by
  refine ⟨?_, ?_, ?_⟩
  · rw [List.map_append, List.nodup_append]
    refine ⟨sane.distinct, by simp, ?_⟩
    intro name isName other isOther same
    obtain ⟨table, member, rfl⟩ := List.mem_map.mp isName
    obtain rfl : other = Text.lower after.name := by simpa using isOther
    exact fresh table member same
  · intro table member
    rcases List.mem_append.mp member with isOld | isNew
    · exact sane.each table isOld
    · exact List.mem_singleton.mp isNew ▸ saneAfter
  · intro table member
    rcases List.mem_append.mp member with isOld | isNew
    · exact sane.keyed table isOld
    · exact List.mem_singleton.mp isNew ▸ keyed

private theorem create_ok (sane : tables.Sane key) {mapping : Mapping}
    (fits : (layout key).Fits mapping) {created : Tables}
    (creates : tables.create (Statement.tableOf mapping) mapping.id.column
      (mapping.properties.filterMap Statement.columnSpec?) = .ok created) :
    created.Sane key ∧ created.contents = tables.contents := by
  have columns : (mapping.properties.filterMap Statement.columnSpec?).map ColumnSpec.name
      = mapping.properties.filterMap Property.column? := by
    rw [List.map_filterMap]
    refine List.filterMap_congr fun property _ => ?_
    cases property <;> rfl
  obtain ⟨fresh, rfl⟩ := create_eq creates
  constructor
  · refine sane.append fresh ?_ fits.keyed
    refine ⟨?_, List.nodup_nil, fun _ isRow => (by cases isRow), fun _ isRow => (by cases isRow)⟩
    unfold Table.columnNames
    simp only [columns]
    exact fits.wellFormed.distinctColumns
  · -- The new table is the last one and empty: what is not found before is not found in it.
    funext name id
    unfold contents
    rw [List.find?_append]
    cases found : tables.list.find? fun table => Text.lower table.name == name with
    | some table => rfl
    | none =>
        simp only [Option.none_or, Option.bind_none, List.find?_cons, List.find?_nil]
        split
        · rfl
        · rfl

private theorem drop_ok (sane : tables.Sane key) {name : QualifiedName} {dropped : Tables}
    (drops : tables.drop name = .ok dropped) :
    dropped.Sane key ∧ dropped.contents = tables.contents.clear (Text.lower name.name) := by
  unfold drop at drops
  simp only [bind, Except.bind, pure, Except.pure] at drops
  split at drops
  · cases drops
  rename_i table found
  cases drops
  obtain ⟨member, isName⟩ := find_ok found
  have others : ∀ other ∈ tables.list, (other.name != table.name) = true ↔
      Text.lower other.name ≠ Text.lower name.name := by
    intro other isOther
    rw [bne_iff_ne, ← isName]
    refine ⟨fun different same => different ?_, fun different same => different (by rw [same])⟩
    rw [List.inj_on_of_nodup_map sane.distinct isOther member same]
  have saneDropped : Sane key ⟨tables.list.filter fun other => other.name != table.name⟩ :=
    ⟨(List.filter_sublist.map _).nodup sane.distinct,
      fun other isOther => sane.each other (List.mem_filter.mp isOther).1,
      fun other isOther => sane.keyed other (List.mem_filter.mp isOther).1⟩
  refine ⟨saneDropped, ?_⟩
  funext other id
  unfold Contents.clear
  split
  · rename_i same
    unfold contents
    rw [List.find?_eq_none.mpr]
    · rfl
    · intro one isOne
      obtain ⟨isKept, different⟩ := List.mem_filter.mp isOne
      rw [beq_iff_eq, same]
      exact (others one isKept).mp different
  · rename_i different
    cases found : tables.list.find? fun one => Text.lower one.name == other with
    | some one =>
        have finds := List.find?_some found
        obtain rfl : Text.lower one.name = other := beq_iff_eq.mp finds
        have isOld := List.mem_of_find?_eq_some found
        rw [contents_of_mem sane isOld]
        exact contents_of_mem saneDropped (List.mem_filter.mpr ⟨isOld, (others one isOld).mpr different⟩) id
    | none =>
        have missing := List.find?_eq_none.mp found
        unfold contents
        rw [found, List.find?_eq_none.mpr fun one isOne => missing one (List.mem_filter.mp isOne).1]

private theorem execute_ok (sane : tables.Sane key) {statement : Statement}
    (conforms : statement.Conforms (layout key).Fits) {change : Change}
    (executed : tables.execute statement = .ok change) :
    change.tables.Sane key ∧ (layout key).Executes statement tables.contents
      change.tables.contents change.generated := by
  unfold execute at executed
  simp only [bind, Except.bind, pure, Except.pure] at executed
  split at executed
  · cases executed
  cases conforms with
  | @insert dialect mapping columns fits distinct known integral =>
      simp only [Statement.insert] at executed
      split at executed
      · cases executed
      rename_i table found
      split at executed
      · cases executed
      rename_i inserted insertedIs
      obtain ⟨id, after⟩ := inserted
      cases executed
      have given := given_columns columns []
      rw [List.append_nil] at given
      rw [given] at insertedIs
      exact executes_insert sane fits found distinct known integral insertedIs
  | @update dialect mapping columns id fits distinct known =>
      simp only [Statement.update] at executed
      split at executed
      · cases executed
      rename_i table found
      split at executed
      · cases executed
      rename_i updated updatedIs
      obtain ⟨affected, after⟩ := updated
      cases executed
      have last : (Statement.given (columns.map Prod.fst)
          (columns.map Prod.snd ++ [.integer id])).2 = .integer id := by
        simp [Statement.given]
      rw [given_columns, last] at updatedIs
      exact executes_update sane fits found distinct known updatedIs
  | @delete dialect mapping id fits =>
      simp only [Statement.delete] at executed
      split at executed
      · cases executed
      rename_i table found
      split at executed
      · cases executed
      rename_i deleted deletedIs
      obtain ⟨affected, after⟩ := deleted
      cases executed
      exact executes_delete sane fits found deletedIs
  | selectById dialect id fits => simp only [Statement.selectById] at executed; cases executed
  | select dialect page values fits => simp only [Statement.select] at executed; cases executed
  | @createTable dialect mapping statement fits created =>
      have isCreation := Statement.request_of_createTable created
      rw [isCreation] at executed
      simp only at executed
      split at executed
      · cases executed
      rename_i after creates
      cases executed
      obtain ⟨saneAfter, same⟩ := create_ok sane fits creates
      refine ⟨saneAfter, ?_⟩
      unfold Layout.Executes
      rw [isCreation]
      exact ⟨same, rfl⟩
  | dropTable mapping =>
      simp only [Statement.dropTable] at executed
      split at executed
      · cases executed
      rename_i after drops
      cases executed
      obtain ⟨saneAfter, same⟩ := drop_ok sane drops
      exact ⟨saneAfter, same, rfl⟩
  | createSequence sequence same => rw [same] at executed; cases executed
  | dropSequence sequence same => rw [same] at executed; cases executed
  | nextValue sequence same => rw [same] at executed; cases executed
  | defaultSchema same => rw [same] at executed; cases executed

/-! ### Answers -/

private theorem mem_of_page {α : Type} {paging : Paging} {rows page : List α}
    (paged : paging.rows? rows = some page) : ∀ row ∈ page, row ∈ rows := by
  have numbered : ∀ entry ∈ Paging.numbered rows, entry.2 ∈ rows := by
    intro entry member
    obtain ⟨indexed, isIndexed, rfl⟩ := List.mem_map.mp member
    exact List.fst_mem_of_mem_zipIdx isIndexed
  intro row member
  unfold Paging.rows? at paged
  cases paging with
  | whole => cases paged; exact member
  | limit count => cases paged; exact List.mem_of_mem_take member
  | offset skipped => cases paged; exact List.mem_of_mem_drop member
  | unlimitedOffset skipped => cases paged; exact List.mem_of_mem_drop member
  | limitOffset count skipped =>
      cases paged
      exact List.mem_of_mem_drop (List.mem_of_mem_take member)
  | firstNumbered last =>
      cases paged
      obtain ⟨entry, isEntry, rfl⟩ := List.mem_map.mp member
      exact numbered entry (List.mem_filter.mp isEntry).1
  | afterNumber skipped =>
      cases paged
      obtain ⟨entry, isEntry, rfl⟩ := List.mem_map.mp member
      exact numbered entry (List.mem_filter.mp isEntry).1
  | betweenNumbers skipped last =>
      cases paged
      obtain ⟨entry, isEntry, rfl⟩ := List.mem_map.mp member
      exact numbered entry (List.mem_filter.mp (List.mem_filter.mp isEntry).1).1
  | custom write => cases paged

private theorem head_of_joinAll {source : Mapping → List Row} {values : List Value}
    {heads : List Row} {joins : List Join} {next : Nat} {combinations : List Combination}
    (headed : ∀ combination ∈ combinations, ∃ row ∈ heads, combination.head? = some (some row)) :
    ∀ combination ∈ Query.joinAll source values next joins combinations,
      ∃ row ∈ heads, combination.head? = some (some row) := by
  induction joins generalizing next combinations with
  | nil => exact headed
  | cons join rest ih =>
      unfold Query.joinAll
      refine ih fun combination member => ?_
      obtain ⟨shorter, isShorter, isExtension⟩ := List.mem_flatMap.mp member
      obtain ⟨row, isHead, same⟩ := headed shorter isShorter
      refine ⟨row, isHead, ?_⟩
      have extends' : ∃ more, combination = shorter ++ more := by
        unfold Query.extend at isExtension
        dsimp only at isExtension
        split at isExtension
        · exact ⟨_, List.mem_singleton.mp isExtension⟩
        · obtain ⟨joined, _, rfl⟩ := List.mem_map.mp (List.mem_filter.mp isExtension).1
          exact ⟨_, rfl⟩
      obtain ⟨more, rfl⟩ := extends'
      rw [List.head?_append, same]
      rfl

private theorem mem_rows {query : Query} {source : Mapping → List Row} {values : List Value}
    {row : Row} (member : row ∈ query.rows source values) :
    ∃ whole ∈ source query.root, row = Query.project query.root whole := by
  unfold Query.rows at member
  obtain ⟨combination, isCombination, projected⟩ := List.mem_filterMap.mp member
  unfold Query.combinations at isCombination
  have isJoined := (List.mem_filter.mp (List.mem_mergeSort.mp isCombination)).1
  obtain ⟨whole, isWhole, same⟩ := @head_of_joinAll _ _ (source query.root) _ _ _
    (fun one isOne => by
      obtain ⟨first, isFirst, rfl⟩ := List.mem_map.mp isOne
      exact ⟨first, isFirst, rfl⟩) combination isJoined
  rw [same] at projected
  exact ⟨whole, isWhole, (Option.some.inj projected).symm⟩

private theorem answer_ok (sane : tables.Sane key) {statement : Statement}
    (conforms : statement.Conforms (layout key).Fits) {rows : List Row}
    (answered : tables.answer statement = .ok rows) :
    (layout key).Answers tables.contents statement rows := by
  unfold answer at answered
  simp only [bind, Except.bind, pure, Except.pure] at answered
  split at answered
  · cases answered
  cases conforms with
  | insert dialect fits distinct known integral => exact trivial
  | update dialect id fits distinct known => exact trivial
  | delete dialect id fits => exact trivial
  | @selectById dialect mapping id fits =>
      simp only [Statement.selectById] at answered
      split at answered
      · cases answered
      rename_i table found
      have selected := Table.selectById_ok (sane.each table (find_ok found).1)
        (keyed_of_find sane fits found) key fits.wellFormed.distinctColumns answered
      refine ⟨id, rfl, ?_⟩
      rw [show tables.contents ((layout key).table (Statement.tableOf mapping)) id = table.row? id
        from contents_tableOf sane found id]
      exact selected
  | @select dialect query page values fits =>
      simp only [Statement.select] at answered
      split at answered
      · cases answered
      split at answered
      · cases answered
      split at answered
      · rename_i paged paging
        cases answered
        intro row member
        obtain ⟨whole, isWhole, rfl⟩ := mem_rows (mem_of_page paging row member)
        unfold rowsOf at isWhole
        split at isWhole
        · rename_i table found
          obtain ⟨entry, isEntry, rfl⟩ := List.mem_map.mp isWhole
          have saneTable := sane.each table (find_ok found).1
          refine ⟨entry.1, (table.fullRow entry).fields, ?_,
            Table.shows_fullRow saneTable isEntry fits.wellFormed.distinctColumns key⟩
          rw [contents_tableOf sane found, Table.row?,
            (lookup_eq_some_iff_mem saneTable.ids).mpr isEntry]
          rfl
        · cases isWhole
      · cases answered
  | @createTable dialect mapping statement fits created =>
      rw [Statement.request_of_createTable created] at answered
      cases answered
  | dropTable mapping => exact trivial
  | createSequence sequence same => rw [same] at answered; cases answered
  | dropSequence sequence same => rw [same] at answered; cases answered
  | nextValue sequence same => rw [same] at answered; cases answered
  | defaultSchema same => rw [same] at answered; cases answered

/-! ### Connections -/

structure Valid (key : String → String) (world : World) : Prop where
  published : world.published.Sane key
  writing : ∀ writer own, world.writing = some (writer, own) →
    own.Sane key ∧ writer ∈ world.inTransaction

def standing (world : World) (connection : ConnectionId) : Standing :=
  if connection ∈ world.inTransaction then
    match world.writing with
    | some (writer, own) => if writer = connection then .writing own.contents else .reading
    | none => .reading
  else .outside

def perspective : Perspective World where
  published world := world.published.contents
  standing := standing
  lastId world connection := (world.generated.lookup connection).getD 0

variable {world : World} {connection other : ConnectionId}

private theorem standing_eq_outside (outside : connection ∉ world.inTransaction) :
    standing world connection = .outside := if_neg outside

private theorem inside_of_standing (inside : standing world connection ≠ .outside) :
    connection ∈ world.inTransaction := by
  by_contra outside
  exact inside (standing_eq_outside outside)

private theorem writing_of_standing {own : Contents}
    (writes : standing world connection = .writing own) :
    ∃ tables, world.writing = some (connection, tables) ∧ own = tables.contents := by
  unfold standing at writes
  split at writes
  · split at writes
    · rename_i writer tables isWriting
      split at writes
      · rename_i same
        cases writes
        exact ⟨tables, by rw [isWriting, same], rfl⟩
      · cases writes
    · cases writes
  · cases writes

/-- What a connection sees are the tables that its statements work on. -/
theorem seen_eq (valid : Valid key world) (connection : ConnectionId) :
    perspective.seen world connection = (world.seenBy connection).contents ∧
      (world.seenBy connection).Sane key := by
  unfold Perspective.seen perspective World.seenBy standing
  dsimp only
  cases isWriting : world.writing with
  | none =>
      dsimp only
      refine ⟨?_, valid.published⟩
      by_cases member : connection ∈ world.inTransaction <;> simp only [member, ↓reduceIte]
  | some entry =>
      obtain ⟨writer, own⟩ := entry
      obtain ⟨sane, inside⟩ := valid.writing writer own isWriting
      dsimp only
      by_cases same : writer = connection
      · subst same
        simp only [inside, ↓reduceIte, beq_self_eq_true]
        exact ⟨trivial, sane⟩
      · simp only [if_neg same, beq_eq_false_iff_ne.mpr same, Bool.false_eq_true, ↓reduceIte]
        refine ⟨?_, valid.published⟩
        by_cases member : connection ∈ world.inTransaction <;> simp only [member, ↓reduceIte]

private theorem leave_ok (valid : Valid key world) (connection : ConnectionId) :
    Valid key (world.leave connection) ∧
      perspective.Besides connection world (world.leave connection) ∧
      standing (world.leave connection) connection = .outside := by
  refine ⟨⟨valid.published, ?_⟩, ⟨?_, fun _ _ => rfl⟩, ?_⟩
  · intro writer own isWriting
    obtain ⟨kept, apart⟩ := Option.filter_eq_some_iff.mp isWriting
    obtain ⟨sane, inside⟩ := valid.writing writer own kept
    exact ⟨sane, List.mem_filter.mpr ⟨inside, apart⟩⟩
  · intro other different
    have member : other ∈ (world.leave connection).inTransaction ↔ other ∈ world.inTransaction := by
      simp [World.leave, different]
    show standing _ other = standing world other
    unfold standing
    simp only [member]
    by_cases inside : other ∈ world.inTransaction
    · simp only [inside, ↓reduceIte]
      unfold World.leave
      cases isWriting : world.writing with
      | none => rfl
      | some entry =>
          by_cases same : entry.1 = connection
          · simp [Option.filter, same, different.symm]
          · simp [Option.filter, same]
    · simp only [inside, ↓reduceIte]
  · exact standing_eq_outside fun member => by
      have apart := (List.mem_filter.mp member).2
      simp at apart

private theorem begin_ok (valid : Valid key world)
    (outside : standing world connection = .outside) :
    let after := (beginOn connection world).2
    Valid key after ∧ perspective.published after = perspective.published world ∧
      perspective.Besides connection world after ∧
      standing after connection = match (beginOn connection world).1 with
        | .ok () => .reading
        | .error _ => .outside := by
  unfold beginOn
  split
  · exact ⟨valid, rfl, (Perspective.Same.refl world).besides connection, outside⟩
  · rename_i absent
    have notInside : connection ∉ world.inTransaction := by simpa using absent
    refine ⟨⟨valid.published, fun writer own isWriting => ?_⟩, rfl, ⟨fun other different => ?_,
      fun _ _ => rfl⟩, ?_⟩
    · obtain ⟨sane, inside⟩ := valid.writing writer own isWriting
      exact ⟨sane, List.mem_cons_of_mem connection inside⟩
    · show standing _ other = standing world other
      unfold standing
      simp only [List.mem_cons, different, false_or]
    · unfold standing
      simp only [List.mem_cons_self, ↓reduceIte]
      cases isWriting : world.writing with
      | none => rfl
      | some entry =>
          have apart : entry.1 ≠ connection :=
            fun same => notInside (same ▸ (valid.writing entry.1 entry.2 isWriting).2)
          simp only [if_neg apart]

private theorem commit_ok (valid : Valid key world)
    (inside : standing world connection ≠ .outside) :
    let after := (commitOn connection world).2
    Valid key after ∧ perspective.Besides connection world after ∧
      match (commitOn connection world).1 with
      | .ok () => perspective.published after = perspective.seen world connection ∧
          standing after connection = .outside
      | .error _ => perspective.published after = perspective.published world := by
  have contains : world.inTransaction.contains connection = true := by
    simpa using inside_of_standing inside
  obtain ⟨seen, sane⟩ := seen_eq valid connection
  unfold commitOn
  rw [contains, if_pos rfl]
  have validSeen : Valid key { world with published := world.seenBy connection } :=
    ⟨sane, valid.writing⟩
  obtain ⟨validAfter, besides, outside⟩ := leave_ok validSeen connection
  refine ⟨validAfter, ⟨fun other different => ?_, besides.lastId⟩, seen.symm, outside⟩
  exact besides.standing other different

private theorem rollback_ok (valid : Valid key world) (connection : ConnectionId) :
    let after := (rollbackOn connection world).2
    Valid key after ∧ perspective.published after = perspective.published world ∧
      perspective.Besides connection world after := by
  unfold rollbackOn
  split
  · obtain ⟨validAfter, besides, _⟩ := leave_ok valid connection
    exact ⟨validAfter, rfl, besides⟩
  · exact ⟨valid, rfl, (Perspective.Same.refl world).besides connection⟩

section Generated

variable (world : World) (connection : ConnectionId) (id : Option Int64)

theorem published_noteGenerated :
    (world.noteGenerated connection id).published = world.published := by
  cases id <;> rfl

theorem writing_noteGenerated : (world.noteGenerated connection id).writing = world.writing := by
  cases id <;> rfl

theorem inTransaction_noteGenerated :
    (world.noteGenerated connection id).inTransaction = world.inTransaction := by
  cases id <;> rfl

private theorem lastId_noteGenerated_self :
    perspective.lastId (world.noteGenerated connection id) connection
      = id.getD (perspective.lastId world connection) := by
  cases id with
  | none => rfl
  | some number =>
      show ((Row.place connection number world.generated).lookup connection).getD 0 = number
      rw [Row.lookup_place_self]
      rfl

private theorem lastId_noteGenerated_of_ne (different : other ≠ connection) :
    perspective.lastId (world.noteGenerated connection id) other
      = perspective.lastId world other := by
  cases id with
  | none => rfl
  | some number =>
      show ((Row.place connection number world.generated).lookup other).getD 0 = _
      rw [Row.lookup_place_of_ne number world.generated different]
      rfl

end Generated

section Kept

variable {tables : Tables} (member : connection ∈ world.inTransaction)
include member

theorem keep_of_inside : world.keep connection tables
    = { world with writing := some (connection, tables) } := by
  unfold World.keep
  rw [if_pos (by simpa using member)]

private theorem standing_keep_self :
    standing (world.keep connection tables) connection = .writing tables.contents := by
  rw [keep_of_inside member]
  unfold standing
  simp only [member, ↓reduceIte]

private theorem standing_keep_of_ne (free : ¬world.isLockedFor connection = true)
    (different : other ≠ connection) :
    standing (world.keep connection tables) other = standing world other := by
  rw [keep_of_inside member]
  unfold standing
  by_cases isInside : other ∈ world.inTransaction
  · simp only [isInside, ↓reduceIte, if_neg different.symm]
    cases isWriting : world.writing with
    | none => rfl
    | some entry =>
        have same : entry.1 = connection := by
          unfold World.isLockedFor at free
          rw [isWriting] at free
          simpa using free
        simp only [same, if_neg different.symm]
  · simp only [isInside, ↓reduceIte]

end Kept

private theorem standing_noteGenerated (id : Option Int64) (connection other : ConnectionId) :
    standing (world.noteGenerated connection id) other = standing world other := by
  unfold standing
  rw [inTransaction_noteGenerated, writing_noteGenerated]

private theorem executeOn_ok (valid : Valid key world)
    (inside : standing world connection ≠ .outside)
    {statement : Statement} (conforms : statement.Conforms (layout key).Fits) :
    let after := (executeOn connection statement world).2
    Valid key after ∧ perspective.published after = perspective.published world ∧
      perspective.Besides connection world after ∧
      match (executeOn connection statement world).1 with
      | .ok _ => ∃ contents generated,
          (layout key).Executes statement (perspective.seen world connection) contents generated ∧
          standing after connection = .writing contents ∧
          perspective.lastId after connection
            = generated.getD (perspective.lastId world connection)
      | .error _ => perspective.Same world after := by
  obtain ⟨seen, sane⟩ := seen_eq valid connection
  have refused (fault : TableFault) :
      let after := (reply (.error fault : Except TableFault Nat) world).2
      Valid key after ∧ perspective.published after = perspective.published world ∧
        perspective.Besides connection world after ∧ perspective.Same world after :=
    ⟨valid, rfl, (Perspective.Same.refl world).besides connection, .refl world⟩
  unfold executeOn
  split
  · exact refused .locked
  · rename_i free
    cases executed : (world.seenBy connection).execute statement with
    | error fault => exact refused fault
    | ok change =>
        obtain ⟨saneAfter, executes⟩ := execute_ok sane conforms executed
        have member := inside_of_standing inside
        have kept := @keep_of_inside _ _ change.tables member
        dsimp only
        refine ⟨⟨?_, ?_⟩, ?_, ⟨fun other different => ?_, fun other different => ?_⟩, _, _,
          seen ▸ executes, ?_, ?_⟩
        · rw [published_noteGenerated, kept]
          exact valid.published
        · intro writer own isWriting
          rw [writing_noteGenerated, kept] at isWriting
          rw [inTransaction_noteGenerated, kept]
          cases isWriting
          exact ⟨saneAfter, member⟩
        · show Tables.contents _ = _
          rw [published_noteGenerated, kept]
          rfl
        · exact (standing_noteGenerated _ _ _).trans (standing_keep_of_ne member free different)
        · rw [lastId_noteGenerated_of_ne _ connection _ different, kept]
          rfl
        · exact (standing_noteGenerated _ _ _).trans (standing_keep_self member)
        · rw [lastId_noteGenerated_self, kept]
          rfl

def faithful (key : String → String) (description : String) :
    Faithful (layout key) (database description) where
  toPerspective := perspective
  Valid := Valid key
  single world first second _ one other writesFirst writesSecond := by
    obtain ⟨tables, isWriting, _⟩ := writing_of_standing writesFirst
    obtain ⟨others, alsoWriting, _⟩ := writing_of_standing writesSecond
    rw [isWriting] at alsoWriting
    cases alsoWriting
    rfl
  connect _ world valid := ⟨valid, .refl world⟩
  isValid connection world valid := by
    refine ⟨valid, .refl world, fun isValid => standing_eq_outside fun member => ?_⟩
    simp [database, member] at isValid
  close connection world valid := by
    obtain ⟨validAfter, besides, outside⟩ := leave_ok valid connection
    exact ⟨validAfter, rfl, besides, outside⟩
  begin connection world valid outside := begin_ok valid outside
  commit connection world valid inside := commit_ok valid inside
  rollback connection world valid := rollback_ok valid connection
  execute connection world statement valid inside conforms :=
    executeOn_ok valid inside conforms
  query connection world statement valid conforms := by
    refine ⟨valid, .refl world, fun rows answered => ?_⟩
    obtain ⟨seen, sane⟩ := seen_eq valid connection
    rw [seen]
    refine answer_ok sane conforms ?_
    simp only [database, queryOn, reply] at answered
    cases answer : (world.seenBy connection).answer statement with
    | error fault =>
        rw [answer] at answered
        cases answered
    | ok found =>
        rw [answer] at answered
        cases answered
        rfl
  lastInsertId connection world valid := by
    refine ⟨valid, .refl world, fun id answered => ?_⟩
    simp only [database, lastInsertIdOn, reply, Except.mapError] at answered
    exact (Except.ok.inj answered).symm
  tableExists connection world table valid := by
    have same : ((database description).tableExists connection table world).2 = world := by
      simp only [database, tableExistsOn]
      split <;> rfl
    rw [same]
    exact ⟨valid, .refl world⟩

theorem atRest_empty (key : String → String) (description : String) :
    (faithful key description).AtRest {} := by
  have outside (connection : ConnectionId) : standing {} connection = .outside :=
    if_neg (List.not_mem_nil (a := connection))
  refine ⟨⟨⟨List.nodup_nil, ?_, ?_⟩, ?_⟩, outside⟩
  · intro table member
    cases member
  · intro table member
    cases member
  · intro writer own impossible
    cases impossible

end Tables
end EntityStore
