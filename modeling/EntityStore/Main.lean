/-
The command line program. A database is a file that holds its tables as a document; a
file that does not exist yet holds none.
-/

import EntityStore.Document.Tables
import EntityStore.Program

set_option autoImplicit false

namespace EntityStore
namespace Main

def readFile? (path : String) : IO (Option String) := do
  try
    return some (← IO.FS.readFile path)
  catch _ => return none

def readTables (path : Option String) : IO Tables := do
  let content ← match path with
    | none => pure none
    | some path => readFile? path
  match content.map Json.read with
  | some (.ok document) => return Tables.ofDocument document
  | _ => return {}

def perform (invocation : CommandLine.Invocation) : IO RunOutcome := do
  let tables ← readTables invocation.database
  let file ← match invocation.mapping with
    | none => pure none
    | some path => readFile? path
  let (outcome, after) := invocation.run { file := file, tables := tables }
  if after != tables then
    if let some path := invocation.database then
      IO.FS.writeFile path after.toDocument.compact
  return outcome

end Main
end EntityStore

def main (arguments : List String) : IO UInt32 := do
  let outcome ← match EntityStore.CommandLine.read arguments with
    | .error stop => pure stop.outcome
    | .ok invocation => EntityStore.Main.perform invocation
  IO.print outcome.output
  if let some error := outcome.error then IO.eprintln ("Error: " ++ error)
  return outcome.status.toUInt32
