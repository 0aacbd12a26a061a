/-
Seeds: instances to be created and saved one after the other, before something is
tried on them. A value may be an instance seeded earlier, by its number.
-/

import EntityStore.Store.Properties
import EntityStore.Store.Save

set_option autoImplicit false

namespace EntityStore

inductive SeedValue where
  | value (content : Value)
  | seeded (index : Nat)
  deriving DecidableEq, Repr

/-- The value to assign; an instance that was never seeded is none. -/
def SeedValue.resolve (instances : List InstanceId) : SeedValue → PropertyValue
  | value content => .value content
  | seeded index => .ofOption instances[index]?

structure Seed where
  entity : String
  values : List (String × SeedValue)
  deriving DecidableEq, Repr

namespace Store

variable {World : Type}

def saveWith (session : Session World) (instances : List InstanceId) (subject : InstanceId)
    (values : List (String × SeedValue)) : Operation World Unit := do
  assignAll subject (values.map fun entry => (entry.1, entry.2.resolve instances))
  save session subject

def seedAll (session : Session World) :
    List Seed → List InstanceId → Operation World (List InstanceId)
  | [], instances => return instances
  | seed :: rest, instances => do
      let subject ← createInstance (← entityType seed.entity) []
      saveWith session instances subject seed.values
      seedAll session rest (instances ++ [subject])

end Store

end EntityStore
