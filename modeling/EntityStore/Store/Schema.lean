/-
Types and their tables. Types are defined in the registry alone; synchronising creates
the missing tables, in the order of definition, and dropping removes those that exist,
in the opposite order. Either is one unit of work.
-/

import EntityStore.Store.Unit

set_option autoImplicit false

namespace EntityStore

namespace Store

variable {World : Type}

def define (batch : List Definition) : Operation World (List Mapping) := do
  ensureOpen
  let store ← get
  let (mappings, registry) ← settleOutcome (store.registry.define batch)
  set { store with registry := registry }
  return mappings

def defaultSchema (session : Session World) (lease : LeaseId) :
    Operation World (Option String) := do
  match Statement.defaultSchema? session.dialect with
  | none => return none
  | some statement =>
      let rows ← query session lease statement
      return do (← (← rows.head?).at? 0).text?

def tableExists (session : Session World) (lease : LeaseId) (default : Option String)
    (mapping : Mapping) : Operation World Bool :=
  call lease fun connection =>
    session.database.tableExists connection ⟨mapping.schema <|> default, mapping.table⟩

def executeAll (session : Session World) (lease : LeaseId) :
    List Statement → Operation World Unit
  | [] => return ()
  | statement :: rest => do
      let _ ← execute session lease statement
      executeAll session lease rest

/-- Creates the tables of the mappings that have none, in order; gives the names of
their types. -/
def createMissing (session : Session World) (lease : LeaseId) (default : Option String) :
    List Mapping → Operation World (List String)
  | [] => return []
  | mapping :: rest => do
      if ← tableExists session lease default mapping then
        createMissing session lease default rest
      else
        let statements ← settleOutcome
          ((Statement.creation session.dialect mapping).mapError (.mapping session.dialect.name))
        executeAll session lease statements
        let names ← createMissing session lease default rest
        return mapping.entity :: names

/-- Drops the tables of the mappings that have one, in order; gives the names of their
types. -/
def dropExisting (session : Session World) (lease : LeaseId) (default : Option String) :
    List Mapping → Operation World (List String)
  | [] => return []
  | mapping :: rest => do
      if ← tableExists session lease default mapping then
        executeAll session lease (Statement.removal session.dialect mapping)
        let names ← dropExisting session lease default rest
        return mapping.entity :: names
      else dropExisting session lease default rest

/-- Creates the missing tables and sequences of the defined types; gives the names of
the types that had none. -/
def sync (session : Session World) : Operation World (List String) := do
  let mappings := (← get).registry.mappings
  unit session true fun lease => do
    let default ← defaultSchema session lease
    let names ← createMissing session lease default mappings
    return (names, {})

/-- Drops the tables and sequences of the defined types and empties the cache; gives
the names of the types that had a table. -/
def drop (session : Session World) : Operation World (List String) := do
  let mappings := (← get).registry.mappings.reverse
  let names ← unit session true fun lease => do
    let default ← defaultSchema session lease
    let names ← dropExisting session lease default mappings
    return (names, {})
  clearCache
  return names

end Store

end EntityStore
