/-
Rows of results as rows in memory. A row in memory has the columns of its mapping, in the order
of the table, so that to make it once more changes nothing. What it is made of is found in
whatever case the names of a result are, in whatever order they stand, and whatever else the
result has.
-/

import EntityStore.Proofs.Queries
import EntityStore.Samples

set_option autoImplicit false

namespace EntityStore

namespace Row

/-! ### Rows built from distinct columns -/

private theorem place_of_fresh {ν α : Type} [DecidableEq ν] {name : ν} (value : α)
    {entries : List (ν × α)} (fresh : ∀ entry ∈ entries, entry.1 ≠ name) :
    place name value entries = entries ++ [(name, value)] := by
  induction entries with
  | nil => rfl
  | cons entry rest ih =>
      have later := ih fun other member => fresh other (List.mem_cons_of_mem entry member)
      unfold place
      rw [if_neg (fresh entry List.mem_cons_self), later, List.cons_append]

private theorem columns_update (row : Row) {columns : List (String × Value)}
    (distinct : Distinct (row.columns ++ columns)) :
    (row.update columns).columns = row.columns ++ columns := by
  induction columns generalizing row with
  | nil => exact (List.append_nil _).symm
  | cons entry rest ih =>
      have fresh : ∀ other ∈ row.columns, other.1 ≠ entry.1 := by
        intro other member same
        unfold Distinct at distinct
        rw [List.map_append, List.nodup_append] at distinct
        apply distinct.2.2 _ (List.mem_map_of_mem member) _ (List.mem_map_of_mem List.mem_cons_self)
        rw [same]
      have inserted : (row.insert entry.1 entry.2).columns = row.columns ++ [entry] :=
        place_of_fresh entry.2 fresh
      rw [update_cons, ih, inserted, List.append_assoc, List.singleton_append]
      rw [inserted, List.append_assoc]
      exact distinct

private theorem columns_ofList {columns : List (String × Value)} (distinct : Distinct columns) :
    (ofList columns).columns = columns := by
  rw [ofList_eq_update]
  exact columns_update empty distinct

/-! ### Columns in any case -/

/-- Where all columns of a name have one value, it is found, in whatever case they are. -/
theorem get?_eq_some_of_agree {columns : List (String × Value)} {name : String} {value : Value}
    (present : ∃ entry ∈ columns, Text.lower entry.1 = Text.lower name)
    (agree : ∀ entry ∈ columns, Text.lower entry.1 = Text.lower name → entry.2 = value) :
    (Row.mk columns).get? name = some value := by
  cases found : (Row.mk columns).get? name with
  | none =>
      obtain ⟨entry, member, same⟩ := present
      exact absurd same (get?_eq_none_iff.mp found entry member)
  | some other =>
      obtain ⟨entry, member, same, rfl⟩ := exists_of_get? found
      rw [agree entry member same]

/-- The same columns in the same order, with letters of their names in another case. -/
def Recased (columns renamed : List (String × Value)) : Prop :=
  List.Forall₂ (fun entry other => Text.lower entry.1 = Text.lower other.1 ∧ entry.2 = other.2)
    columns renamed

namespace Recased

variable {columns renamed : List (String × Value)} (recased : Recased columns renamed)
include recased

private theorem exists_renamed {entry : String × Value} (member : entry ∈ columns) :
    ∃ other ∈ renamed, Text.lower entry.1 = Text.lower other.1 ∧ entry.2 = other.2 :=
  exists_of_forall₂ recased member

private theorem symm : Recased renamed columns := by
  apply List.Forall₂.flip
  exact List.Forall₂.imp (fun _ _ same => ⟨same.1.symm, same.2.symm⟩) recased

private theorem exists_original {other : String × Value} (member : other ∈ renamed) :
    ∃ entry ∈ columns, Text.lower other.1 = Text.lower entry.1 ∧ other.2 = entry.2 :=
  recased.symm.exists_renamed member

end Recased
end Row

namespace Mapping

variable {mapping : Mapping} {row other : Row}

/-- The other row has the columns of the row, in any order and with names in any case, and
beside them none that the mapping has in any case. -/
def Rearranges (mapping : Mapping) (row other : Row) : Prop :=
  ∃ renamed extra, Row.Recased row.columns renamed ∧ other.columns.Perm (renamed ++ extra) ∧
    ∀ entry ∈ extra, ∀ column ∈ mapping.columns, Text.lower entry.1 ≠ Text.lower column

def CoveredBy (mapping : Mapping) (row : Row) : Prop :=
  ∀ column ∈ mapping.columns, ∃ entry ∈ row.columns, Text.lower entry.1 = Text.lower column

theorem Rearranges.get?_eq (rearranges : mapping.Rearranges row other)
    (distinct : Row.Distinct row.columns) (covered : mapping.CoveredBy row) {column : String}
    (isColumn : column ∈ mapping.columns) : other.get? column = row.get? column := by
  obtain ⟨renamed, extra, recased, same, apart⟩ := rearranges
  obtain ⟨entry, member, named⟩ := covered column isColumn
  have found : row.get? column = some entry.2 := Row.get?_eq_some_of_mem distinct member named
  rw [found]
  apply Row.get?_eq_some_of_agree
  · obtain ⟨twin, isTwin, sameName, _⟩ := recased.exists_renamed member
    exact ⟨twin, same.mem_iff.mpr (List.mem_append_left _ isTwin), sameName.symm.trans named⟩
  · intro twin isTwin twinNamed
    rcases List.mem_append.mp (same.mem_iff.mp isTwin) with isRenamed | isExtra
    · obtain ⟨original, isOriginal, sameName, sameValue⟩ := recased.exists_original isRenamed
      have isEntry : original = entry := List.inj_on_of_nodup_map distinct isOriginal member
        ((sameName.symm.trans twinNamed).trans named.symm)
      rw [sameValue, isEntry]
    · exact absurd twinNamed (apart twin isExtra column isColumn)

def valuesIn (mapping : Mapping) (row : Row) : List (String × Value) :=
  mapping.columns.map fun column => (column, (row.get? column).getD .null)

private theorem names_valuesIn (mapping : Mapping) (row : Row) :
    (mapping.valuesIn row).map Prod.fst = mapping.columns := by
  unfold valuesIn
  rw [List.map_map]
  exact List.map_id _

private theorem valuesIn_congr
    (same : ∀ column ∈ mapping.columns, other.get? column = row.get? column) :
    mapping.valuesIn other = mapping.valuesIn row := by
  apply List.map_congr_left
  intro column isColumn
  rw [same column isColumn]

namespace WellFormed

variable (wellFormed : mapping.WellFormed)
include wellFormed

private theorem distinct_valuesIn (row : Row) : Row.Distinct (mapping.valuesIn row) :=
  wellFormed.distinct_columns fun column => (row.get? column).getD .null

/-- A row is made into memory exactly if it has an integer for its id, and then with the columns
of the mapping and nothing else. -/
theorem hydrate_eq_ok_iff {key : Key} {hydrated : Row} :
    mapping.hydrate row = .ok (key, hydrated) ↔
      ∃ id, row.get? mapping.id.column = some (.integer id) ∧
        key = Key.withId mapping.entity id ∧ hydrated = ⟨mapping.valuesIn row⟩ := by
  have made : Row.ofList (mapping.valuesIn row) = ⟨mapping.valuesIn row⟩ := by
    have columns := Row.columns_ofList (wellFormed.distinct_valuesIn row)
    exact congrArg Row.mk columns
  constructor
  · intro hydrates
    obtain ⟨⟨id, found, isKey⟩, _⟩ := hydrate_ok wellFormed hydrates
    refine ⟨id, found, isKey, ?_⟩
    rw [← made]
    simp only [hydrate, found, Option.bind_some, Value.integer?, Except.ok.injEq,
      Prod.mk.injEq] at hydrates
    exact hydrates.2.symm
  · rintro ⟨id, found, rfl, rfl⟩
    rw [← made]
    simp [hydrate, found, Value.integer?, valuesIn]

private theorem get?_valuesIn {column : String} (isColumn : column ∈ mapping.columns) :
    (Row.mk (mapping.valuesIn row)).get? column = some ((row.get? column).getD .null) :=
  Row.get?_eq_some_of_mem (wellFormed.distinct_valuesIn row)
    (List.mem_map.mpr ⟨column, isColumn, rfl⟩) rfl

private theorem valuesIn_valuesIn (row : Row) :
    mapping.valuesIn ⟨mapping.valuesIn row⟩ = mapping.valuesIn row := by
  apply List.map_congr_left
  intro column isColumn
  rw [wellFormed.get?_valuesIn isColumn, Option.getD_some]

end WellFormed

/-- A row in memory has exactly the columns of its mapping, in the order of the table, each with
the value that the row of the result had for it, and made into memory again it stays what it is.
Of a row with an integer id and every column of the mapping, whose names differ beyond letter
case, neither the case nor the order of the names counts, nor do further columns. -/
theorem hydrate_stable {entity : String} {spec : MappingSpec} {isKnown : String → Bool}
    (built : build entity spec isKnown = .ok mapping) :
    (∀ row key hydrated, mapping.hydrate row = .ok (key, hydrated) →
      hydrated.names = mapping.columns ∧
      (∀ column ∈ mapping.columns, hydrated.get? column = some ((row.get? column).getD .null)) ∧
      mapping.hydrate hydrated = .ok (key, hydrated)) ∧
    ∀ row id, row.get? mapping.id.column = some (.integer id) →
      Row.Distinct row.columns → mapping.CoveredBy row →
      ∀ other, mapping.Rearranges row other → ∃ hydrated,
        mapping.hydrate row = .ok (Key.withId mapping.entity id, hydrated) ∧
        mapping.hydrate other = .ok (Key.withId mapping.entity id, hydrated) := by
  have wellFormed := (build_ok built).2
  constructor
  · intro row key hydrated hydrates
    obtain ⟨id, found, rfl, rfl⟩ := wellFormed.hydrate_eq_ok_iff.mp hydrates
    refine ⟨mapping.names_valuesIn row, fun column => wellFormed.get?_valuesIn, ?_⟩
    apply wellFormed.hydrate_eq_ok_iff.mpr
    refine ⟨id, ?_, rfl, ?_⟩
    · rw [wellFormed.get?_valuesIn List.mem_cons_self, found, Option.getD_some]
    · rw [wellFormed.valuesIn_valuesIn]
  · intro row id found distinct covered other rearranges
    have same : ∀ column ∈ mapping.columns, other.get? column = row.get? column :=
      fun column => rearranges.get?_eq distinct covered
    refine ⟨⟨mapping.valuesIn row⟩, wellFormed.hydrate_eq_ok_iff.mpr ⟨id, found, rfl, rfl⟩, ?_⟩
    apply wellFormed.hydrate_eq_ok_iff.mpr
    refine ⟨id, (same _ List.mem_cons_self).trans found, rfl, ?_⟩
    rw [valuesIn_congr same]

/-- An editor, numbered by a page and with its columns turned around and in lower case. -/
theorem hydrate_numbered_editor :
    ∃ mapping, build "Editor" Samples.editor (fun _ => false) = .ok mapping ∧
      ∃ hydrated,
        mapping.hydrate ⟨[("ID", .integer 3), ("NAME", .text "Ada")]⟩ =
          .ok (Key.withId mapping.entity 3, hydrated) ∧
        mapping.hydrate ⟨[("rnum", .integer 7), ("name", .text "Ada"), ("id", .integer 3)]⟩ =
          .ok (Key.withId mapping.entity 3, hydrated) := by
  have built : build "Editor" Samples.editor (fun _ => false) = .ok ⟨"Editor", "editor", none,
      ⟨"id", none⟩, [.scalar ⟨"name", .string, "name", true, none, none⟩]⟩ := by
    decide +kernel
  refine ⟨_, built, (hydrate_stable built).2 ⟨[("ID", .integer 3), ("NAME", .text "Ada")]⟩ 3 ?_
    ?_ ?_ _ ?_⟩
  · decide +kernel
  · unfold Row.Distinct
    decide +kernel
  · unfold CoveredBy
    decide +kernel
  · refine ⟨[("id", .integer 3), ("name", .text "Ada")], [("rnum", .integer 7)], ?_, ?_, ?_⟩
    · exact .cons (by decide +kernel) (.cons (by decide +kernel) .nil)
    · decide +kernel
    · decide +kernel

end Mapping

end EntityStore
