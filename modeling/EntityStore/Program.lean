/-
The program as a function: what a command line prints, with which status it ends, and
how it leaves the tables of the database that it names.
-/

import EntityStore.CommandLine

set_option autoImplicit false

namespace EntityStore

/-- What a run of the program leaves behind besides tables. The error is shown to
programmers, not written for users. -/
structure RunOutcome where
  status : Nat
  output : String := ""
  error : Option String := none
  deriving DecidableEq, Repr

namespace RunOutcome

def succeeded (output : String) : RunOutcome := { status := 0, output := output }

def failed (error : String) : RunOutcome := { status := 1, error := some error }

def ofResult : Except CommandError String → RunOutcome
  | .ok output => succeeded output
  | .error error => failed error.describe

def ofMessage (message : String) : RunOutcome := failed (Text.quoted message)

end RunOutcome

namespace CommandLine

def programVersion : String := "0.4.0"

def helpText : String :=
  Commands.lines ["Usage: sqlstore [OPTIONS] <COMMAND>", "",
    "Commands: sync, query, ddl, version, help",
    "Options: -d, --db <DB>  -m, --mapping <MAPPING>  -v, --verbose  -h, --help  -V, --version"]

/-- What a line that is not followed any further leads to. -/
def Stop.outcome : Stop → RunOutcome
  | misuse => { status := 2 }
  | help => .succeeded helpText
  | version => .succeeded ("sqlstore " ++ programVersion ++ "\n")

namespace Invocation

structure Surroundings where
  file : Commands.File := none
  tables : Tables := {}

/-- Does a command that needs a mapping file. -/
def withMapping (invocation : Invocation) (command : String) (tables : Tables)
    (run : RunOutcome × Tables) : RunOutcome × Tables :=
  match invocation.mapping with
  | none => (.ofMessage ("Mapping file required for " ++ command), tables)
  | some _ => run

/-- Does a command that needs a database and a mapping file. -/
def withDatabase (invocation : Invocation) (command : String) (tables : Tables)
    (run : Except CommandError String × Tables) : RunOutcome × Tables :=
  match invocation.database with
  | none => (.ofMessage ("Database path required for " ++ command), tables)
  | some _ => invocation.withMapping command tables (.ofResult run.1, run.2)

def perform (invocation : Invocation) (file : Commands.File) (tables : Tables) :
    RunOutcome × Tables :=
  match invocation.command with
  | .sync recreate =>
      invocation.withDatabase "sync" tables (Commands.sync recreate file tables)
  | .query text options =>
      invocation.withDatabase "query" tables (Commands.query text options file tables)
  | .ddl dialect =>
      invocation.withMapping "ddl" tables (.ofResult (Commands.ddl dialect file), tables)
  | .version =>
      (.succeeded (Commands.lines ["SQLStore CLI v" ++ programVersion]), tables)

def memoryDatabase : String := ":memory:"

/-- Runs a command on its surroundings. A database in memory starts without tables and
leaves none behind. -/
def run (invocation : Invocation) (around : Surroundings) : RunOutcome × Tables :=
  if invocation.database = some memoryDatabase then
    ((invocation.perform around.file {}).1, around.tables)
  else invocation.perform around.file around.tables

end Invocation

end CommandLine

end EntityStore
