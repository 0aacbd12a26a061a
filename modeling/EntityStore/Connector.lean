/-
Settings of a connector to a database file: the path, how long a connection waits on
a locked file, and whether foreign keys are enforced.
-/

import EntityStore.Text.Quoted

set_option autoImplicit false

namespace EntityStore

/-- The waiting time is in milliseconds. -/
structure FileConnector where
  path : String
  busyTimeout : Nat := 5000
  foreignKeys : Bool := true
  deriving DecidableEq, Repr

namespace FileConnector

def withBusyTimeout (connector : FileConnector) (milliseconds : Nat) : FileConnector :=
  { connector with busyTimeout := milliseconds }

def withForeignKeys (connector : FileConnector) (enabled : Bool) : FileConnector :=
  { connector with foreignKeys := enabled }

def target (connector : FileConnector) : String := "sqlite:" ++ connector.path

/-- Three digits without trailing zeros, behind a point; nothing for zero. -/
def thousandths (number : Nat) : List Char :=
  let digits := [number / 100, number / 10 % 10, number % 10].map fun digit =>
    Char.ofNat (digit + 48)
  match (digits.reverse.dropWhile (· == '0')).reverse with
  | [] => []
  | kept => '.' :: kept

/-- A time in seconds, in milliseconds when it is shorter than one second. -/
def durationText (milliseconds : Nat) : String :=
  if milliseconds = 0 then "0ns"
  else if milliseconds < 1000 then toString milliseconds ++ "ms"
  else
    toString (milliseconds / 1000) ++ String.ofList (thousandths (milliseconds % 1000)) ++ "s"

def describe (connector : FileConnector) : String :=
  "SqliteConnector \x7b path: " ++ Text.quoted connector.path ++ ", busy_timeout: "
    ++ durationText connector.busyTimeout ++ ", foreign_keys: "
    ++ toString connector.foreignKeys ++ " \x7d"

end FileConnector

end EntityStore
