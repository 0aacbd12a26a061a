/-
Which tables a database has. Names mean places at which there is a table or not; a name without a
schema means the one in the default schema. What a connection creates and drops inside a
transaction is seen by it, and by everybody once it is committed. A look for a table tells the
truth. Of calls that are refused nothing is assumed.

What is created of a list of types are those whose table is missing at their turn, and what is
dropped those whose table is there at their turn; types may share a table.
-/

import EntityStore.Proofs.Traces
import EntityStore.Proofs.Units
import Mathlib.Order.BooleanAlgebra.Set

set_option autoImplicit false

namespace EntityStore

/-! ### Places -/

structure Inventory (World : Type) where
  Place : Type
  place : QualifiedName → Place
  Valid : World → Prop
  /-- The tables that are there for everybody. -/
  published : World → Set Place
  /-- The tables as a connection inside a transaction sees them. -/
  seen : World → ConnectionId → Set Place

/-- What a request that is granted changes of the tables. What is dropped is one that is there; of
a text whose meaning is not known nothing is said. -/
def Request.Changes {Place : Type} (place : QualifiedName → Place) (request : Request)
    (before after : Set Place) : Prop :=
  match request with
  | .createTable table _ _ => after = before ∪ {place table}
  | .dropTable table => place table ∈ before → after = before \ {place table}
  | .unread => True
  | _ => after = before

namespace Inventory

variable {World : Type} (inventory : Inventory World)

def home (mapping : Mapping) : inventory.Place := inventory.place (Statement.tableOf mapping)

def homes (mappings : List Mapping) : Set inventory.Place :=
  {place | ∃ mapping ∈ mappings, inventory.home mapping = place}

/-- Names without a schema mean what they mean in the default one, if it is known. -/
def IsDefault (default : Option String) : Prop :=
  ∀ mapping : Mapping,
    inventory.place ⟨mapping.schema <|> default, mapping.table⟩ = inventory.home mapping

open Classical in
/-- The types whose table is missing at their turn, where each of these creates it. -/
noncomputable def missing (tables : Set inventory.Place) : List Mapping → List Mapping
  | [] => []
  | mapping :: rest =>
      if inventory.home mapping ∈ tables then missing tables rest
      else mapping :: missing (tables ∪ {inventory.home mapping}) rest

open Classical in
/-- The types whose table is there at their turn, where each of these drops it. -/
noncomputable def found (tables : Set inventory.Place) : List Mapping → List Mapping
  | [] => []
  | mapping :: rest =>
      if inventory.home mapping ∈ tables then
        mapping :: found (tables \ {inventory.home mapping}) rest
      else found tables rest

variable {inventory} {tables : Set inventory.Place} {mapping : Mapping} {mappings : List Mapping}

theorem homes_nil : inventory.homes [] = ∅ := by
  ext place
  simp [homes]

theorem homes_cons : inventory.homes (mapping :: mappings)
    = {inventory.home mapping} ∪ inventory.homes mappings := by
  ext place
  simp [homes, eq_comm]

theorem homes_reverse : inventory.homes mappings.reverse = inventory.homes mappings := by
  ext place
  simp [homes]

theorem home_mem_homes (member : mapping ∈ mappings) :
    inventory.home mapping ∈ inventory.homes mappings := ⟨mapping, member, rfl⟩

theorem missing_of_mem (there : inventory.home mapping ∈ tables) :
    inventory.missing tables (mapping :: mappings) = inventory.missing tables mappings :=
  if_pos there

theorem missing_of_not_mem (absent : inventory.home mapping ∉ tables) :
    inventory.missing tables (mapping :: mappings)
      = mapping :: inventory.missing (tables ∪ {inventory.home mapping}) mappings := if_neg absent

theorem found_of_mem (there : inventory.home mapping ∈ tables) :
    inventory.found tables (mapping :: mappings)
      = mapping :: inventory.found (tables \ {inventory.home mapping}) mappings := if_pos there

theorem found_of_not_mem (absent : inventory.home mapping ∉ tables) :
    inventory.found tables (mapping :: mappings) = inventory.found tables mappings := if_neg absent

theorem missing_sublist : (inventory.missing tables mappings).Sublist mappings := by
  induction mappings generalizing tables with
  | nil => exact List.Sublist.slnil
  | cons mapping rest ih =>
      by_cases there : inventory.home mapping ∈ tables
      · rw [missing_of_mem there]
        exact ih.cons mapping
      · rw [missing_of_not_mem there]
        exact ih.cons_cons mapping

/-- Where every table is there, none is missing. -/
theorem missing_of_subset (there : inventory.homes mappings ⊆ tables) :
    inventory.missing tables mappings = [] := by
  induction mappings with
  | nil => rfl
  | cons mapping rest ih =>
      rw [homes_cons, Set.union_subset_iff, Set.singleton_subset_iff] at there
      rw [missing_of_mem there.1, ih there.2]

/-- The missing tables are created, and no table twice. -/
theorem homes_missing : ((inventory.missing tables mappings).map inventory.home).Nodup ∧
    inventory.homes (inventory.missing tables mappings) = inventory.homes mappings \ tables := by
  induction mappings generalizing tables with
  | nil =>
      rw [homes_nil, Set.empty_sdiff]
      exact ⟨List.nodup_nil, homes_nil⟩
  | cons mapping rest ih =>
      by_cases there : inventory.home mapping ∈ tables
      · rw [missing_of_mem there, homes_cons, Set.union_sdiff_distrib]
        have none : ({inventory.home mapping} : Set inventory.Place) \ tables = ∅ :=
          Set.sdiff_eq_empty.mpr (Set.singleton_subset_iff.mpr there)
        rw [none, Set.empty_union]
        exact ih
      · rw [missing_of_not_mem there, homes_cons, homes_cons]
        obtain ⟨distinct, members⟩ := @ih (tables ∪ {inventory.home mapping})
        constructor
        · rw [List.map_cons, List.nodup_cons]
          refine ⟨fun again => ?_, distinct⟩
          obtain ⟨other, member, same⟩ := List.mem_map.mp again
          have isMissing := members ▸ home_mem_homes member
          exact isMissing.2 (Or.inr same)
        · rw [members]
          ext place
          by_cases same : place = inventory.home mapping
          · simp [same, there]
          · simp [same]

/-- Where no two types share a table, all are found whose tables are there. -/
theorem mem_found (distinct : (mappings.map inventory.home).Nodup) (member : mapping ∈ mappings)
    (there : inventory.home mapping ∈ tables) : mapping ∈ inventory.found tables mappings := by
  induction mappings generalizing tables with
  | nil => cases member
  | cons first rest ih =>
      rw [List.map_cons, List.nodup_cons] at distinct
      by_cases firstThere : inventory.home first ∈ tables
      · rw [found_of_mem firstThere]
        rcases List.mem_cons.mp member with rfl | later
        · exact List.mem_cons_self
        · have apart : inventory.home mapping ≠ inventory.home first :=
            fun same => distinct.1 (same ▸ List.mem_map_of_mem later)
          exact List.mem_cons_of_mem first (ih distinct.2 later ⟨there, apart⟩)
      · rw [found_of_not_mem firstThere]
        rcases List.mem_cons.mp member with rfl | later
        · exact absurd there firstThere
        · exact ih distinct.2 later there

end Inventory

/-! ### Databases with tables -/

structure Catalogue {World : Type} (database : Database World) extends Inventory World where
  connect : ∀ connection world, Valid world →
    Valid (database.connect connection world).2 ∧
      published (database.connect connection world).2 = published world
  isValid : ∀ connection world, Valid world →
    Valid (database.isValid connection world).2 ∧
      published (database.isValid connection world).2 = published world
  close : ∀ connection world, Valid world →
    Valid (database.close connection world).2 ∧
      published (database.close connection world).2 = published world
  begin : ∀ connection world after, Valid world →
    database.begin connection world = (.ok (), after) →
    Valid after ∧ database.inTransaction connection after = true ∧
      seen after connection = published world
  commit : ∀ connection world after, Valid world →
    database.inTransaction connection world = true →
    database.commit connection world = (.ok (), after) →
    Valid after ∧ published after = seen world connection
  execute : ∀ connection world statement affected after, Valid world →
    database.inTransaction connection world = true →
    database.execute connection statement world = (.ok affected, after) →
    Valid after ∧ database.inTransaction connection after = true ∧
      statement.request.Changes place (seen world connection) (seen after connection)
  /-- The schema that is told to be the default one is the one of names without a schema. -/
  query : ∀ connection world statement rows after, Valid world →
    database.inTransaction connection world = true →
    database.query connection statement world = (.ok rows, after) →
    Valid after ∧ database.inTransaction connection after = true ∧
      seen after connection = seen world connection ∧
      (statement.request = .defaultSchema →
        toInventory.IsDefault (do (← (← rows.head?).at? 0).text?))
  tableExists : ∀ connection world table there after, Valid world →
    database.inTransaction connection world = true →
    database.tableExists connection table world = (.ok there, after) →
    Valid after ∧ database.inTransaction connection after = true ∧
      seen after connection = seen world connection ∧
      (there = true ↔ place table ∈ seen world connection)

namespace Catalogue

variable {World : Type} {database : Database World} (catalogue : Catalogue database)

def Within (connection : ConnectionId) (world : World) : Prop :=
  catalogue.Valid world ∧ database.inTransaction connection world = true

end Catalogue

end EntityStore
