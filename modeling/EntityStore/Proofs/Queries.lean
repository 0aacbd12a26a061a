/-
What reading relies on: the first entity type of a query is a defined one, and a row of a
result becomes a row in memory under the key of its id, with the same values in the
columns of the mapping.
-/

import EntityStore.Proofs.Derivations
import EntityStore.Proofs.Replays
import EntityStore.Store.Reading

set_option autoImplicit false

namespace EntityStore

/-- The first entity type of a query that was read is one of those to be looked up. -/
theorem Query.parse_ok {lookup : String → Option Mapping} {text : String} {query : Query}
    (parsed : Query.parse lookup text = .ok query) : ∃ name, lookup name = some query.root := by
  obtain ⟨words, last, _, _, derived⟩ := Query.exists_derivation parsed
  cases derived with
  | query _ isEntity =>
      obtain ⟨name, _, known⟩ := isEntity.known
      exact ⟨name, known⟩

/-- Where two lists are related member by member, a member of the first has its counterpart. -/
theorem exists_of_forall₂ {α β : Type} {relation : α → β → Prop} {left : List α} {right : List β}
    (related : List.Forall₂ relation left right) {one : α} (member : one ∈ left) :
    ∃ other ∈ right, relation one other := by
  induction related with
  | nil => cases member
  | cons first _ ih =>
      rcases List.mem_cons.mp member with rfl | isLater
      · exact ⟨_, List.mem_cons_self, first⟩
      · obtain ⟨other, isOther, relates⟩ := ih isLater
        exact ⟨other, List.mem_cons_of_mem _ isOther, relates⟩

namespace Mapping

variable {mapping : Mapping}

theorem WellFormed.distinct_columns (wellFormed : mapping.WellFormed) (value : String → Value) :
    Row.Distinct (mapping.columns.map fun column => (column, value column)) := by
  unfold Row.Distinct
  rw [List.map_map]
  exact wellFormed.distinctColumns

structure Hydrates (mapping : Mapping) (row : Row) (entry : Key × Row) : Prop where
  key : ∃ id, row.get? mapping.id.column = some (.integer id) ∧
    entry.1 = Key.withId mapping.entity id
  columns : ∀ column ∈ mapping.columns,
    entry.2.get? column = some ((row.get? column).getD .null)

theorem hydrate_ok (wellFormed : mapping.WellFormed) {row : Row} {entry : Key × Row}
    (hydrated : mapping.hydrate row = .ok entry) : mapping.Hydrates row entry := by
  unfold hydrate at hydrated
  split at hydrated
  · cases hydrated
  rename_i id found
  cases hydrated
  obtain ⟨value, isValue, isInteger⟩ := Option.bind_eq_some_iff.mp found
  refine ⟨⟨id, ?_, rfl⟩, ?_⟩
  · rw [isValue]
    cases value with
    | integer number =>
        cases isInteger
        rfl
    | _ => cases isInteger
  · intro column member
    exact Row.get?_ofList_of_mem (wellFormed.distinct_columns fun column =>
      (row.get? column).getD .null) (List.mem_map.mpr ⟨column, member, rfl⟩)

/-- A result has an entry for each of its rows, in order. -/
theorem hydrateAll_forall₂ (wellFormed : mapping.WellFormed) {rows : List Row}
    {entries : List (Key × Row)} (hydrated : mapping.hydrateAll rows = .ok entries) :
    List.Forall₂ mapping.Hydrates rows entries := by
  induction rows generalizing entries with
  | nil =>
      cases hydrated
      exact .nil
  | cons row rest ih =>
      unfold hydrateAll at hydrated
      simp only [bind, Except.bind, pure, Except.pure] at hydrated
      split at hydrated
      · cases hydrated
      rename_i first hydratedFirst
      split at hydrated
      · cases hydrated
      rename_i others hydratedRest
      cases hydrated
      exact .cons (hydrate_ok wellFormed hydratedFirst) (ih hydratedRest)

/-- Every entry of a result comes from one of its rows. -/
theorem hydrateAll_ok (wellFormed : mapping.WellFormed) {rows : List Row}
    {entries : List (Key × Row)} (hydrated : mapping.hydrateAll rows = .ok entries) :
    ∀ entry ∈ entries, ∃ row ∈ rows, mapping.Hydrates row entry := by
  have hydrates := hydrateAll_forall₂ wellFormed hydrated
  clear hydrated
  induction hydrates with
  | nil =>
      intro entry member
      cases member
  | cons first _ ih =>
      intro entry member
      rcases List.mem_cons.mp member with rfl | isLater
      · exact ⟨_, List.mem_cons_self, first⟩
      · obtain ⟨other, isOther, hydrates⟩ := ih entry isLater
        exact ⟨other, List.mem_cons_of_mem _ isOther, hydrates⟩

/-- A row in memory shows what the row of the result showed. -/
theorem Hydrates.shows {layout : Layout} {row : Row} {entry : Key × Row} {fields : Fields}
    (hydrates : mapping.Hydrates row entry) (shown : layout.Shows mapping.columns fields row) :
    layout.Shows mapping.columns fields entry.2 := by
  intro column member
  rw [hydrates.columns column member, shown column member]
  rfl

end Mapping

end EntityStore
