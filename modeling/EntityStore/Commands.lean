/-
The commands on mapping files and databases: printing the statements that create the
tables of a file, creating them, and running a query. A command gets the content of
the mapping file, if it can be read, and the tables; it gives the text it prints.
-/

import EntityStore.Dialect.Shipped
import EntityStore.Error.Description
import EntityStore.Json.Access
import EntityStore.Json.Printer
import EntityStore.Mapping.SpecReader
import EntityStore.Seeding
import EntityStore.Store.Schema
import EntityStore.Tables.Connections

set_option autoImplicit false

namespace EntityStore

inductive CommandError where
  /-- The mapping file cannot be read. -/
  | mappingFile
  | parameter (argument : String)
  | format (name : String)
  | store (error : Error)
  deriving DecidableEq, Repr

namespace CommandError

def message : CommandError → String
  | mappingFile => "cannot read mapping file"
  | parameter argument => "invalid parameter '" ++ argument ++ "', expected name=value"
  | format name => "unknown output format '" ++ name ++ "', expected text or json"
  | store error => error.message

def describe : CommandError → String
  | mappingFile => "MappingFile"
  | parameter argument => "Parameter(" ++ Text.quoted argument ++ ")"
  | format name => "Format(" ++ Text.quoted name ++ ")"
  | store error => "Store(" ++ error.describe ++ ")"

end CommandError

namespace Commands

abbrev File := Option String

def definitions (file : File) : Except CommandError (List Definition) :=
  match file with
  | none => .error .mappingFile
  | some content =>
      (MappingSpec.setOfJson content).mapError fun fault => .store (.specification fault)

/-! ### Statements -/

/-- The statements that create what a mapping needs. -/
def creationTexts (dialect : Dialect) (mapping : Mapping) : Except Error (List String) := do
  let statements ← (Statement.creation dialect mapping).mapError (.mapping dialect.name)
  return statements.map Statement.text

/-- Builds the mappings of definitions one by one and gives the statements that create
what they need. Only the names are known to the others; collections are not checked. -/
def creationOf (dialect : Dialect) (isKnown : String → Bool) :
    List Definition → Except Error (List String)
  | [] => return []
  | definition :: rest => do
      let mapping ← (Mapping.build definition.1 definition.2 isKnown).mapError
        (.mapping definition.1)
      let texts ← creationTexts dialect mapping
      let others ← creationOf dialect isKnown rest
      return texts ++ others

def statements (dialect : String) (file : File) : Except CommandError (List String) := do
  let dialect ← (Dialect.named dialect).mapError .store
  let batch ← definitions file
  (creationOf dialect (batch.map Prod.fst).contains batch).mapError .store

def lines (texts : List String) : String :=
  String.join (texts.map fun content => content ++ "\n")

def ddl (dialect : String) (file : File) : Except CommandError String := do
  return lines ((← statements dialect file).map fun content => content ++ ";")

/-! ### Stores -/

abbrev Work (α : Type) := Session Tables.World → Operation Tables.World α

/-- Opens a store over tables, defines types, works with the store and closes it; what
was published stays, also after a failure. -/
def withStore {α : Type} (batch : List Definition) (work : Work α) (tables : Tables) :
    Except Error α × Tables :=
  let session : Session Tables.World :=
    { database := Tables.database "sqlite", dialect := Dialect.sqlite }
  match Store.create session.database {} 0 #[] { published := tables } with
  | (.error error, world) => (.error error, world.published)
  | (.ok store, _) =>
      let whole : Operation Tables.World α := do
        let _ ← Store.define batch
        let result ← work session
        Store.close session
        return result
      let (outcome, after) := whole.run store
      (outcome, after.pool.world.published)

/-- Reads the mapping file before a store is opened. -/
def withFile {α : Type} (file : File) (work : Work α) (tables : Tables) :
    Except CommandError α × Tables :=
  match definitions file with
  | .error error => (.error error, tables)
  | .ok batch =>
      let (outcome, after) := withStore batch work tables
      (outcome.mapError .store, after)

/-! ### Creating tables -/

def syncText (created : List String) : String :=
  match created with
  | [] => lines ["All tables already exist."]
  | _ => lines (created.map fun name => "created " ++ name)

def sync (recreate : Bool) (file : File) (tables : Tables) : Except CommandError String × Tables :=
  withFile file (fun session => do
    if recreate then
      let _ ← Store.drop session
    return syncText (← Store.sync session)) tables

/-- Creates the tables and saves instances in them. -/
def seed (seeds : List Seed) (file : File) (tables : Tables) : Except CommandError Unit × Tables :=
  withFile file (fun session => do
    let _ ← Store.sync session
    let _ ← Store.seedAll session seeds []) tables

/-! ### Queries -/

structure QueryOptions where
  /-- Named parameters in the form `name=value`. -/
  parameters : List String := []
  page : Page := {}
  format : String := "text"
  deriving DecidableEq, Repr

/-- The value of a parameter: what its text stands for in a document, if it is not an
array or an object there, and else the text itself. -/
def parameterValue (content : List Char) : Value :=
  let whole := String.ofList content
  match Json.read whole with
  | .ok document => (Value.ofJson? document).getD (.text whole)
  | .error _ => .text whole

/-- A parameter with its value; the name must not be empty. -/
def parameter (argument : String) : Except CommandError (String × Value) :=
  match argument.toList.span (· != '=') with
  | ([], _) => .error (.parameter argument)
  | (_, []) => .error (.parameter argument)
  | (name, _ :: content) => .ok (String.ofList name, parameterValue content)

def parameters (arguments : List String) : Except CommandError Parameters := do
  match arguments with
  | [] => return .none
  | _ =>
      let given ← arguments.mapM parameter
      return .named (given.foldl (fun current entry => Row.place entry.1 entry.2 current) [])

/-- A value as a part of a document: bytes are an array of numbers. -/
def valueJson : Value → Json
  | .null => .null
  | .boolean flag => .boolean flag
  | .integer number => Json.integer number.toInt
  | .float number => if number.isFinite then .number (.float number) else .null
  | .text content => .string content
  | .bytes content => .ofList (fun byte => Json.ofNat byte.toNat) content

def idJson (id : Option Int64) : Json := .ofOption (fun id => Json.integer id.toInt) id

/-- The members for properties in order; collections are left out, and a relation is
the id of its target. -/
def propertyMembers (session : Session Tables.World) (subject : InstanceId) :
    List Property → Operation Tables.World (List (String × Json))
  | [] => return []
  | .collection _ :: rest => propertyMembers session subject rest
  | .scalar property :: rest => do
      let value ← Store.read session subject property.name
      let members ← propertyMembers session subject rest
      return (property.name, valueJson value) :: members
  | .object relation :: rest => do
      let target ← Store.readObject session subject relation.name
      let store ← get
      let id := target.bind fun target => (store.instanceAt target).key.id
      let members ← propertyMembers session subject rest
      return (relation.name, idJson id) :: members

/-- The id and the properties of an instance, sorted by name. -/
def rowJson (session : Session Tables.World) (subject : InstanceId) :
    Operation Tables.World Json := do
  let content := (← get).instanceAt subject
  let members ← propertyMembers session subject content.mapping.properties
  return .object (Json.sortMembers (("id", idJson content.key.id) :: members))

def rowsJson (session : Session Tables.World) :
    List InstanceId → Operation Tables.World (List Json)
  | [] => return []
  | subject :: rest => do
      let row ← rowJson session subject
      let rows ← rowsJson session rest
      return row :: rows

structure QueryResult where
  entity : String
  rows : List Json

namespace QueryResult

def json (result : QueryResult) : String :=
  (Json.object [("entity", .string result.entity), ("rows", .array result.rows)]).pretty 0

def rowLine (row : Json) : String :=
  "  " ++ " ".intercalate (row.members.map fun member => member.1 ++ "=" ++ member.2.compact)

def text (result : QueryResult) : String :=
  lines ((result.entity ++ " (" ++ toString result.rows.length ++ " rows)")
    :: result.rows.map rowLine)

end QueryResult

/-- Runs a query and reads all properties of what it finds. -/
def runQuery (text : String) (page : Page) (parameters : Parameters) : Work QueryResult :=
  fun session => do
    let prepared ← Store.prepare text
    let subjects ← Store.run session prepared parameters page
    return ⟨prepared.root.entity, ← rowsJson session subjects⟩

def query (text : String) (options : QueryOptions) (file : File) (tables : Tables) :
    Except CommandError String × Tables :=
  if options.format != "text" && options.format != "json" then
    (.error (.format options.format), tables)
  else
    match parameters options.parameters with
    | .error error => (.error error, tables)
    | .ok given =>
        let (outcome, after) := withFile file (runQuery text options.page given) tables
        let write (result : QueryResult) : String :=
          if options.format = "json" then lines [result.json] else result.text
        (outcome.map write, after)

end Commands

end EntityStore
