/-
Instances: entities in memory. Several instances may have the same key. An instance
holds the row it was last read or written with, the values assigned since, and the
collections read through it. Instances are named by their number in memory, so that
values can refer to them.
-/

import EntityStore.Key
import EntityStore.Mapping.Basic
import EntityStore.Row

set_option autoImplicit false

namespace EntityStore

/-- The number of an instance in memory, in the order of creation. -/
abbrev InstanceId := Nat

/-- The number that tells stores apart. -/
abbrev StoreId := Nat

inductive Lifecycle where
  /-- Created in memory and never saved. -/
  | transient
  /-- Without changes since it was last read or saved. -/
  | clean
  /-- With assigned values that are not saved. -/
  | dirty
  /-- Removed, for good. -/
  | removed
  deriving DecidableEq, Repr

def Lifecycle.describe : Lifecycle → String
  | transient => "Transient"
  | clean => "Clean"
  | dirty => "Dirty"
  | removed => "Removed"

inductive LoadState where
  | new
  | unloaded
  | loaded
  deriving DecidableEq, Repr

def LoadState.describe : LoadState → String
  | new => "new"
  | unloaded => "unloaded"
  | loaded => "loaded"

/-- A value assigned to a property. Nothing is checked until it is saved. -/
inductive PropertyValue where
  | value (content : Value)
  | entity (target : InstanceId)
  | cleared
  deriving DecidableEq, Repr

namespace PropertyValue

def isNull : PropertyValue → Bool
  | value .null => true
  | cleared => true
  | _ => false

def value? : PropertyValue → Option Value
  | value content => some content
  | _ => none

def entity? : PropertyValue → Option InstanceId
  | entity target => some target
  | _ => none

def ofOption : Option InstanceId → PropertyValue
  | some target => entity target
  | none => cleared

end PropertyValue

structure Instance where
  store : StoreId
  mapping : Mapping
  key : Key
  state : Lifecycle
  row : Option Row := none
  /-- Assigned values by property, in the order of first assignment. -/
  pending : List (String × PropertyValue) := []
  /-- The members of collections that have been read. -/
  collections : List (String × List InstanceId) := []
  /-- Whether the row was found missing. -/
  vanished : Bool := false
  deriving DecidableEq, Repr

namespace Instance

def transient (store : StoreId) (mapping : Mapping) : Instance :=
  { store := store, mapping := mapping, key := Key.fresh mapping.entity, state := .transient }

def reference (store : StoreId) (mapping : Mapping) (id : Int64) : Instance :=
  { store := store, mapping := mapping, key := Key.withId mapping.entity id, state := .clean }

def loaded (store : StoreId) (mapping : Mapping) (key : Key) (row : Row) : Instance :=
  { store := store, mapping := mapping, key := key, state := .clean, row := some row }

/-- What stands for an instance that is not in memory. -/
def absent : Instance :=
  { store := 0
    mapping := ⟨"", "", none, ⟨idProperty, none⟩, []⟩
    key := Key.fresh ""
    state := .removed }

def entity (subject : Instance) : String := subject.mapping.entity

def loadState (subject : Instance) : LoadState :=
  match subject.state, subject.row with
  | .transient, _ => .new
  | _, some _ => .loaded
  | _, none => .unloaded

def needsWrite (subject : Instance) : Bool :=
  subject.state = .transient || subject.state = .dirty

/-- The instances that assigned values refer to, in order of assignment. -/
def targets (subject : Instance) : List InstanceId :=
  subject.pending.filterMap fun entry => entry.2.entity?

/-- Assigns a value to a property; a clean instance becomes dirty. -/
def assign (subject : Instance) (property : String) (value : PropertyValue) : Instance :=
  { subject with
    pending := Row.place property value subject.pending
    state := if subject.state = .clean then .dirty else subject.state }

def settle (subject : Instance) (id : Int64) (row : Row) : Instance :=
  { subject with
    key := if subject.key.hasId then subject.key else { subject.key with id := some id }
    state := .clean
    row := some row
    pending := [] }

def withdraw (subject : Instance) : Instance :=
  { subject with state := .removed, row := none, pending := [], collections := [] }

def peek (subject : Instance) (property : String) : Option PropertyValue :=
  match subject.pending.lookup property with
  | some value => some value
  | none => do
      let column ← subject.mapping.columnOf? property
      let row ← subject.row
      let stored ← row.get? column
      match subject.mapping.property? property with
      | some (.scalar scalar) => return .value (scalar.type.normalize stored)
      | _ => return .value stored

def summary (subject : Instance) : String :=
  subject.key.display ++ " " ++ Text.lower subject.state.describe ++ " "
    ++ subject.loadState.describe

def describe (subject : Instance) : String :=
  "Entity \x7b key: " ++ subject.key.describe ++ ", state: " ++ subject.state.describe
    ++ ", loaded: " ++ toString subject.row.isSome ++ " \x7d"

end Instance

end EntityStore
