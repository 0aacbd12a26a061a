/-
Tables in memory as contents. A table in order has rows of one shape under ids that
differ, and every change of a table is described by the row that it concerns.
-/

import EntityStore.Proofs.Contents
import EntityStore.Proofs.Lookups
import EntityStore.Tables.Connections

set_option autoImplicit false

namespace EntityStore

namespace Row

def fields (row : Row) : Fields := fun column =>
  ((row.columns.find? fun entry => Text.lower entry.1 == column).map Prod.snd).getD .null

theorem fields_lower {columns : List (String × Value)} (distinct : Distinct columns)
    (name : String) :
    (Row.mk columns).fields (Text.lower name) = ((Row.mk columns).get? name).getD .null := by
  unfold fields
  cases found : columns.find? fun entry => Text.lower entry.1 == Text.lower name with
  | none =>
      have missing : (Row.mk columns).get? name = none :=
        get?_eq_none_iff.mpr fun entry member => by
          simpa using List.find?_eq_none.mp found entry member
      rw [missing]
      rfl
  | some entry =>
      have same : Text.lower entry.1 = Text.lower name := by simpa using List.find?_some found
      rw [get?_eq_some_of_mem distinct (List.mem_of_find?_eq_some found) same]
      rfl

end Row

def Tables.layout (key : String → String) : Layout where
  table name := Text.lower name.name
  column := Text.lower
  stored := Value.stored
  key := key
  lower_of_column same := same
  stored_integer _ := rfl
  stored_same := by
    intro left right same
    rcases Value.alike_iff.mp (.of_same same) with rfl | ⟨first, second, rfl, rfl, equal⟩
    · exact Value.Alike.refl _
    · have numbers : first.isNaN = false ∧ second.isNaN = false := by
        unfold Double.equal at equal
        simp only [Bool.and_eq_true, Bool.not_eq_true'] at equal
        exact equal.1
      simp only [Value.stored, numbers.1, numbers.2, Bool.false_eq_true, ↓reduceIte]
      exact .of_same same

namespace Table

structure Sane (table : Table) : Prop where
  columns : (table.columnNames.map Text.lower).Nodup
  ids : (table.rows.map Prod.fst).Nodup
  bounded : ∀ entry ∈ table.rows, entry.1 ≤ table.lastId
  shaped : ∀ entry ∈ table.rows, entry.2.names = table.columns.map ColumnSpec.name

def row? (table : Table) (id : Int64) : Option Fields :=
  (table.rows.lookup id).map fun row => (table.fullRow (id, row)).fields

variable {table : Table}

theorem Sane.distinct (sane : table.Sane) {entry : Int64 × Row}
    (shaped : entry.2.names = table.columns.map ColumnSpec.name) :
    Row.Distinct (table.fullRow entry).columns := by
  have columns := sane.columns
  unfold columnNames at columns
  rw [← shaped] at columns
  unfold Row.Distinct fullRow
  simp only [List.map_cons, Row.names, List.map_map] at columns ⊢
  exact columns

private theorem holds_iff (sane : table.Sane) {column : String}
    (keyed : Text.lower column = Text.lower table.idColumn) {entry : Int64 × Row}
    (member : entry ∈ table.rows) (id : Int64) :
    table.holds column (.integer id) entry = true ↔ entry.1 = id := by
  have found : (table.fullRow entry).get? column = some (.integer entry.1) :=
    @Row.get?_eq_some_of_mem _ (sane.distinct (sane.shaped entry member))
      (table.idColumn, .integer entry.1) List.mem_cons_self _ keyed.symm
  unfold holds
  rw [found]
  simp [Value.isNull, Value.order, Value.ratio?, Int64.toInt_inj]

/-! ### Inserting -/

private theorem place_perm (id : Int64) (row : Row) (rows : List (Int64 × Row)) :
    (place id row rows).Perm ((id, row) :: rows) := by
  induction rows with
  | nil => exact List.Perm.refl _
  | cons entry rest ih =>
      unfold place
      split
      · exact List.Perm.refl _
      · exact (ih.cons entry).trans (List.Perm.swap _ _ _)

private theorem lookup_place_rows {id : Int64} {row : Row} {rows : List (Int64 × Row)}
    (distinct : (rows.map Prod.fst).Nodup) (fresh : rows.lookup id = none) (other : Int64) :
    (place id row rows).lookup other = if other = id then some row else rows.lookup other := by
  have perm := place_perm id row rows
  have missing : id ∉ rows.map Prod.fst := by
    intro member
    obtain ⟨content, found⟩ := exists_lookup member
    rw [fresh] at found
    cases found
  have distinctPlaced : ((place id row rows).map Prod.fst).Nodup :=
    (perm.map Prod.fst).nodup_iff.mpr (List.nodup_cons.mpr ⟨missing, distinct⟩)
  refine Option.ext fun content => ?_
  rw [lookup_eq_some_iff_mem distinctPlaced, perm.mem_iff, List.mem_cons]
  by_cases same : other = id
  · subst same
    rw [if_pos rfl]
    constructor
    · rintro (isNew | isOld)
      · cases isNew
        rfl
      · exact absurd (List.mem_map_of_mem (f := Prod.fst) isOld) missing
    · intro isRow
      exact Or.inl (by rw [Option.some.inj isRow])
  · rw [if_neg same, lookup_eq_some_iff_mem distinct]
    refine ⟨fun either => either.resolve_left fun isNew => same (congrArg Prod.fst isNew), Or.inr⟩

private theorem hasColumn_of_check {names : List String}
    (checked : table.checkColumns names = .ok ()) {name : String} (member : name ∈ names) :
    ∃ column ∈ table.columnNames, Text.lower column = Text.lower name := by
  unfold checkColumns at checked
  cases missing : names.find? fun name => !table.hasColumn name with
  | some other =>
      rw [missing] at checked
      cases checked
  | none =>
      have has := List.find?_eq_none.mp missing name member
      simp only [Bool.not_eq_true, Bool.not_eq_false', hasColumn, List.any_eq_true] at has
      obtain ⟨column, isColumn, same⟩ := has
      exact ⟨column, isColumn, (Text.sameIgnoringCase_iff.mp same).symm⟩

private theorem toInt_next {number : Int64} (room : number ≠ Int64.maxValue) :
    (number + 1).toInt = number.toInt + 1 := by
  have different : number.toInt ≠ 2 ^ 63 - 1 := fun same => room (Int64.toInt_inj.mp same)
  have above := number.toInt_lt
  have low := number.le_toInt
  rw [Int64.toInt_add, show (1 : Int64).toInt = 1 from rfl]
  exact Int.bmod_eq_of_le (by omega) (by omega)

private theorem newId_ok (sane : table.Sane) {given : Row} {id : Int64}
    (numbered : table.newId given = .ok id) :
    table.rows.lookup id = none ∧
      ∀ other, given.get? table.idColumn = some (.integer other) → other = id := by
  unfold newId at numbered
  cases asked : (given.get? table.idColumn).getD .null with
  | integer other =>
      simp only [asked] at numbered
      split at numbered
      · cases numbered
      · rename_i absent
        cases numbered
        refine ⟨Option.not_isSome_iff_eq_none.mp absent, fun same isSame => ?_⟩
        rw [isSame] at asked
        exact Value.integer.inj asked
  | null =>
      simp only [asked] at numbered
      split at numbered
      · cases numbered
      · rename_i room
        cases numbered
        refine ⟨?_, fun other isOther => ?_⟩
        · rw [List.lookup_eq_none_iff]
          intro entry member
          have below := Int64.le_iff_toInt_le.mp (sane.bounded entry member)
          have next := toInt_next room
          rw [bne_iff_ne]
          intro same
          rw [← same, next] at below
          omega
        · rw [isOther] at asked
          cases asked
  | _ =>
      simp only [asked] at numbered
      cases numbered

private theorem names_newRow (table : Table) (given : Row) :
    (table.newRow given).names = table.columns.map ColumnSpec.name := by
  unfold newRow Row.names
  simp only [List.map_map]
  rfl

private theorem le_lastId_after {lastId id number : Int64} (below : number ≤ lastId ∨ number = id) :
    number ≤ if lastId < id then id else lastId := by
  rw [Int64.le_iff_toInt_le]
  split
  · rename_i grown
    have above := Int64.lt_iff_toInt_lt.mp grown
    rcases below with isOld | rfl
    · have old := Int64.le_iff_toInt_le.mp isOld
      omega
    · exact Int.le_refl _
  · rename_i kept
    rcases below with isOld | rfl
    · exact Int64.le_iff_toInt_le.mp isOld
    · rw [Int64.lt_iff_toInt_lt] at kept
      omega

theorem Sane.place (sane : table.Sane) {id : Int64} {row : Row}
    (fresh : table.rows.lookup id = none)
    (shaped : row.names = table.columns.map ColumnSpec.name) :
    Sane { table with
      rows := Table.place id row table.rows
      lastId := if table.lastId < id then id else table.lastId } := by
  have perm := place_perm id row table.rows
  refine ⟨sane.columns, ?_, fun entry member => ?_, fun entry member => ?_⟩
  · rw [(perm.map Prod.fst).nodup_iff, List.map_cons, List.nodup_cons]
    refine ⟨fun member => ?_, sane.ids⟩
    obtain ⟨content, found⟩ := exists_lookup member
    rw [fresh] at found
    cases found
  · rcases List.mem_cons.mp (perm.mem_iff.mp member) with rfl | isOld
    · exact le_lastId_after (Or.inr rfl)
    · exact le_lastId_after (Or.inl (sane.bounded entry isOld))
  · rcases List.mem_cons.mp (perm.mem_iff.mp member) with rfl | isOld
    · exact shaped
    · exact sane.shaped entry isOld

private theorem get?_newRow (sane : table.Sane) {given : Row}
    (distinct : Row.Distinct given.columns)
    (checked : table.checkColumns given.names = .ok ()) {entry : String × Value}
    (member : entry ∈ given.columns) (plain : Text.lower entry.1 ≠ Text.lower table.idColumn)
    (id : Int64) :
    (table.fullRow (id, table.newRow given)).get? entry.1 = some entry.2.stored := by
  obtain ⟨column, isColumn, same⟩ := hasColumn_of_check checked
    (List.mem_map_of_mem (f := Prod.fst) member)
  rcases List.mem_cons.mp isColumn with rfl | isPlain
  · exact absurd same.symm plain
  · obtain ⟨spec, isSpec, rfl⟩ := List.mem_map.mp isPlain
    have asked : given.get? spec.name = some entry.2 :=
      Row.get?_eq_some_of_mem distinct member same.symm
    have placed : (spec.name, ((given.get? spec.name).getD (spec.default.getD .null)).stored)
        ∈ (table.fullRow (id, table.newRow given)).columns :=
      List.mem_cons_of_mem _ (List.mem_map.mpr ⟨spec, isSpec, rfl⟩)
    have found := Row.get?_eq_some_of_mem
      (@sane.distinct _ (id, table.newRow given) (names_newRow table given)) placed same
    rw [asked] at found
    exact found

theorem insert_ok (sane : table.Sane) {given : Row} (distinct : Row.Distinct given.columns)
    (integral : ∀ entry ∈ given.columns, Text.lower entry.1 = Text.lower table.idColumn →
      ∃ id, entry.2 = .integer id) {id : Int64} {after : Table}
    (inserted : table.insert given = .ok (id, after)) :
    table.row? id = none ∧ after.Sane ∧ after.name = table.name ∧
      after.idColumn = table.idColumn ∧ ∃ fields : Fields,
        (∀ other, after.row? other = if other = id then some fields else table.row? other) ∧
        fields (Text.lower table.idColumn) = .integer id ∧
        ∀ entry ∈ given.columns, fields (Text.lower entry.1) = entry.2.stored := by
  unfold insert at inserted
  simp only [bind, Except.bind, pure, Except.pure] at inserted
  split at inserted
  · cases inserted
  rename_i checked
  split at inserted
  · cases inserted
  rename_i number numbered
  split at inserted
  · cases inserted
  cases inserted
  obtain ⟨fresh, same⟩ := newId_ok sane numbered
  have shaped := names_newRow table given
  have distinctRow := @sane.distinct _ (id, table.newRow given) shaped
  have idOfRow {name : String} (isId : Text.lower table.idColumn = Text.lower name) :
      (table.fullRow (id, table.newRow given)).get? name = some (.integer id) :=
    @Row.get?_eq_some_of_mem _ distinctRow (table.idColumn, .integer id) List.mem_cons_self _ isId
  refine ⟨by rw [row?, fresh]; rfl, sane.place fresh shaped, rfl, rfl,
    (table.fullRow (id, table.newRow given)).fields, fun other => ?_, ?_, fun entry member => ?_⟩
  · unfold row?
    rw [lookup_place_rows sane.ids fresh]
    by_cases isNew : other = id
    · rw [if_pos isNew, if_pos isNew, isNew]
      rfl
    · rw [if_neg isNew, if_neg isNew]
      rfl
  · rw [Row.fields_lower distinctRow]
    exact congrArg (fun value => value.getD .null) (idOfRow rfl)
  · rw [Row.fields_lower distinctRow]
    by_cases isId : Text.lower entry.1 = Text.lower table.idColumn
    · -- An id that is given is the id of the row.
      obtain ⟨number, isNumber⟩ := integral entry member isId
      obtain rfl : number = id :=
        same number (isNumber ▸ Row.get?_eq_some_of_mem distinct member isId)
      rw [isNumber]
      exact congrArg (fun value => value.getD .null) (idOfRow isId.symm)
    · exact congrArg (fun value => value.getD .null)
        (get?_newRow sane distinct checked member isId id)

/-! ### Changing -/

private theorem names_changedRow (given row : Row) : (changedRow given row).names = row.names := by
  unfold changedRow Row.names
  rw [List.map_map]
  rfl

private theorem get?_changedRow (sane : table.Sane) {given row : Row} {name : String}
    {value : Value} (distinct : Row.Distinct given.columns)
    (known : ∃ column ∈ table.columnNames, Text.lower column = Text.lower name)
    (plain : Text.lower name ≠ Text.lower table.idColumn)
    (shaped : row.names = table.columns.map ColumnSpec.name)
    (member : (name, value) ∈ given.columns) (id : Int64) :
    (table.fullRow (id, changedRow given row)).get? name = some value.stored := by
  obtain ⟨column, isColumn, same⟩ := known
  rcases List.mem_cons.mp isColumn with rfl | isPlain
  · exact absurd same.symm plain
  · rw [← shaped] at isPlain
    obtain ⟨old, isOld, rfl⟩ := List.mem_map.mp isPlain
    have asked : given.get? old.1 = some value :=
      Row.get?_eq_some_of_mem distinct member same.symm
    have changed : (old.1, value.stored) ∈ (table.fullRow (id, changedRow given row)).columns := by
      refine List.mem_cons_of_mem _ (List.mem_map.mpr ⟨old, isOld, ?_⟩)
      rw [asked]
    exact Row.get?_eq_some_of_mem
      (@sane.distinct _ (id, changedRow given row) ((names_changedRow given row).trans shaped))
      changed same

private theorem fields_changedRow_of_missing {given : Row} {column : String}
    (missing : ∀ entry ∈ given.columns, Text.lower entry.1 ≠ column) (row : Row) (id : Int64) :
    (table.fullRow (id, changedRow given row)).fields column
      = (table.fullRow (id, row)).fields column := by
  have unchanged (old : String × Value) (isColumn : Text.lower old.1 = column) :
      given.get? old.1 = none :=
    Row.get?_eq_none_iff.mpr fun entry member same => missing entry member (same.trans isColumn)
  unfold Row.fields fullRow changedRow
  simp only [List.find?_cons]
  split
  · rfl
  · rw [List.find?_map]
    refine congrArg (fun value : Option Value => value.getD .null) ?_
    rw [Option.map_map]
    show (row.columns.find? fun old => Text.lower old.1 == column).map _ = _
    cases found : row.columns.find? fun old => Text.lower old.1 == column with
    | none => rfl
    | some old =>
        have finds := List.find?_some found
        have isColumn : Text.lower old.1 = column := beq_iff_eq.mp finds
        simp only [Option.map_some, Function.comp_apply, unchanged old isColumn]

private theorem fields_changedRow (sane : table.Sane) {given row : Row} {key : String → String}
    (distinct : Row.Distinct given.columns)
    (plain : ∀ entry ∈ given.columns, Text.lower entry.1 ≠ Text.lower table.idColumn)
    (known : ∀ entry ∈ given.columns,
      ∃ column ∈ table.columnNames, Text.lower column = Text.lower entry.1)
    (shaped : row.names = table.columns.map ColumnSpec.name) (id : Int64) :
    (table.fullRow (id, changedRow given row)).fields =
      (Tables.layout key).write given.columns (table.fullRow (id, row)).fields := by
  funext column
  unfold Layout.write
  cases found : given.columns.find? fun entry => (Tables.layout key).column entry.1 == column with
  | some entry =>
      have member := List.mem_of_find?_eq_some found
      have finds := List.find?_some found
      obtain rfl : Text.lower entry.1 = column := beq_iff_eq.mp finds
      rw [Row.fields_lower (@sane.distinct _ (id, changedRow given row)
          ((names_changedRow given row).trans shaped)),
        get?_changedRow sane distinct (known entry member) (plain entry member) shaped member]
      rfl
  | none =>
      refine fields_changedRow_of_missing (fun entry member same => ?_) row id
      exact List.find?_eq_none.mp found entry member (beq_iff_eq.mpr same)

private theorem rows_update (sane : table.Sane) {given : Row} {column : String}
    (keyed : Text.lower column = Text.lower table.idColumn) (id : Int64) :
    (table.rows.map fun entry =>
      if table.holds column (.integer id) entry then (entry.1, changedRow given entry.2) else entry)
      = table.rows.map fun entry =>
        (entry.1, if entry.1 = id then changedRow given entry.2 else entry.2) := by
  refine List.map_congr_left fun entry member => ?_
  have holds := holds_iff sane keyed member id
  by_cases isId : entry.1 = id
  · rw [if_pos (holds.mpr isId), if_pos isId]
  · rw [if_neg (fun held => isId (holds.mp held)), if_neg isId]

theorem Sane.map_rows (sane : table.Sane) {change : Int64 → Row → Row}
    (names : ∀ id row, (change id row).names = row.names) :
    Sane { table with rows := table.rows.map fun entry => (entry.1, change entry.1 entry.2) } := by
  refine ⟨sane.columns, ?_, ?_, ?_⟩
  · rw [List.map_map]
    exact sane.ids
  · intro entry member
    obtain ⟨old, isOld, rfl⟩ := List.mem_map.mp member
    exact sane.bounded old isOld
  · intro entry member
    obtain ⟨old, isOld, rfl⟩ := List.mem_map.mp member
    exact (names old.1 old.2).trans (sane.shaped old isOld)

theorem update_ok (sane : table.Sane) {given : Row} {column : String}
    (keyed : Text.lower column = Text.lower table.idColumn) (key : String → String)
    (distinct : Row.Distinct given.columns)
    (plain : ∀ entry ∈ given.columns, Text.lower entry.1 ≠ Text.lower table.idColumn)
    {id : Int64} {affected : Nat} {after : Table}
    (updated : table.update given column (.integer id) = .ok (affected, after)) :
    after.Sane ∧ after.name = table.name ∧ after.idColumn = table.idColumn ∧
      ∀ other, after.row? other = if other = id
        then (table.row? id).map ((Tables.layout key).write given.columns)
        else table.row? other := by
  unfold update at updated
  simp only [bind, Except.bind, pure, Except.pure] at updated
  split at updated
  · cases updated
  rename_i checked
  split at updated
  · cases updated
  cases updated
  have known : ∀ entry ∈ given.columns,
      ∃ name ∈ table.columnNames, Text.lower name = Text.lower entry.1 := fun entry member =>
    hasColumn_of_check checked (List.mem_cons_of_mem _ (List.mem_map_of_mem (f := Prod.fst) member))
  rw [rows_update sane keyed]
  refine ⟨@Sane.map_rows _ sane (fun number row => if number = id then changedRow given row else row)
    fun number row => ?_, rfl, rfl, fun other => ?_⟩
  · split
    · exact names_changedRow given row
    · rfl
  · unfold row?
    rw [lookup_map_content (fun number row => if number = id then changedRow given row else row)]
    by_cases isId : other = id
    · subst isId
      rw [if_pos rfl]
      cases found : table.rows.lookup other with
      | none => rfl
      | some row =>
          simp only [Option.map_some, ↓reduceIte]
          exact congrArg some (fields_changedRow sane distinct plain known
            (sane.shaped _ (mem_of_lookup found)) other)
    · simp only [if_neg isId, Option.map_map]
      rfl

/-! ### Deleting and selecting -/

theorem delete_ok (sane : table.Sane) {column : String}
    (keyed : Text.lower column = Text.lower table.idColumn) {id : Int64} {affected : Nat}
    {after : Table} (deleted : table.delete column (.integer id) = .ok (affected, after)) :
    after.Sane ∧ after.name = table.name ∧ after.idColumn = table.idColumn ∧
      ∀ other, after.row? other = if other = id then none else table.row? other := by
  unfold delete at deleted
  simp only [bind, Except.bind, pure, Except.pure] at deleted
  split at deleted
  · cases deleted
  cases deleted
  have rows : (table.rows.filter fun entry => !table.holds column (.integer id) entry)
      = withoutName id table.rows := by
    refine List.filter_congr fun entry member => ?_
    have holds := holds_iff sane keyed member id
    rw [Bool.eq_iff_iff]
    simp only [Bool.not_eq_true', bne_iff_ne, ne_eq, ← holds, Bool.not_eq_true]
  rw [rows]
  refine ⟨⟨sane.columns, (List.filter_sublist.map _).nodup sane.ids, ?_, ?_⟩, rfl, rfl, ?_⟩
  · exact fun entry member => sane.bounded entry (List.mem_filter.mp member).1
  · exact fun entry member => sane.shaped entry (List.mem_filter.mp member).1
  · intro other
    unfold row?
    by_cases isId : other = id
    · rw [if_pos isId, isId, lookup_withoutName_self]
      rfl
    · rw [if_neg isId, lookup_withoutName_of_ne _ isId]
      rfl

theorem shows_fullRow (sane : table.Sane) {entry : Int64 × Row} (member : entry ∈ table.rows)
    {columns : List String} (distinct : (columns.map Text.lower).Nodup) (key : String → String) :
    (Tables.layout key).Shows columns (table.fullRow entry).fields
      (Row.ofList (columns.map fun name =>
        (name, ((table.fullRow entry).get? name).getD .null))) := by
  intro column isColumn
  have distinctColumns : Row.Distinct (columns.map fun name =>
      (name, ((table.fullRow entry).get? name).getD .null)) := by
    unfold Row.Distinct
    rw [List.map_map]
    exact distinct
  rw [Row.get?_ofList_of_mem distinctColumns (List.mem_map.mpr ⟨column, isColumn, rfl⟩)]
  exact congrArg some
    (Row.fields_lower (sane.distinct (sane.shaped entry member)) column).symm

theorem selectById_ok (sane : table.Sane) {column : String}
    (keyed : Text.lower column = Text.lower table.idColumn) (key : String → String) {id : Int64}
    {columns : List String} (distinct : (columns.map Text.lower).Nodup) {rows : List Row}
    (selected : table.selectById columns column (.integer id) = .ok rows) :
    match table.row? id with
    | none => rows = []
    | some fields => ∃ row, rows = [row] ∧ (Tables.layout key).Shows columns fields row := by
  unfold selectById at selected
  simp only [bind, Except.bind, pure, Except.pure] at selected
  split at selected
  · cases selected
  cases selected
  have held : table.rows.filter (table.holds column (.integer id))
      = (table.rows.lookup id).toList.map (Prod.mk id) := by
    rw [← filter_eq_lookup sane.ids id]
    refine List.filter_congr fun entry member => ?_
    rw [Bool.eq_iff_iff, holds_iff sane keyed member id, beq_iff_eq]
  unfold row?
  rw [held]
  cases found : table.rows.lookup id with
  | none => rfl
  | some row => exact ⟨_, rfl, shows_fullRow sane (mem_of_lookup found) distinct key⟩

end Table

end EntityStore
