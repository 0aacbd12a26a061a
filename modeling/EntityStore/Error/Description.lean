/-
Errors with everything they carry, in the form in which values are shown to
programmers: the name of the cause, then its parts in braces, texts in quotes.
-/

import EntityStore.Error
import EntityStore.Text.Quoted

set_option autoImplicit false

namespace EntityStore

def described (cause : String) (parts : List (String × String)) : String :=
  let shown := parts.map fun part => part.1 ++ ": " ++ Text.quoted part.2
  cause ++ " \x7b " ++ Sql.commaSeparated shown ++ " \x7d"

def Refusal.describe : Refusal → String
  | statement => "Error \x7b code: Unknown, extended_code: 1 \x7d"
  | busy => "Error \x7b code: DatabaseBusy, extended_code: 5 \x7d"
  | full => "Error \x7b code: DiskFull, extended_code: 13 \x7d"
  | unfitting => "Error \x7b code: TypeMismatch, extended_code: 20 \x7d"

def DatabaseError.describe : DatabaseError → String
  | engine refusal message =>
      "Sqlite(SqliteFailure(" ++ refusal.describe ++ ", Some(" ++ Text.quoted message ++ ")))"
  | constraint message => described "Constraint" [("message", message)]
  | conversion column message =>
      described "Conversion" [("column", column), ("message", message)]
  | closed => "Closed"

def QueryFault.describe (fault : QueryFault) : String :=
  match fault.position? with
  | some position =>
      "QueryParse \x7b position: " ++ toString position ++ ", message: "
        ++ Text.quoted fault.detail ++ " \x7d"
  | none => described "Reference" [("message", fault.detail)]

namespace Error

def describe : Error → String
  | database fault => "Driver(" ++ fault.describe ++ ")"
  | specification _ => "Json"
  | mapping entity fault =>
      described "Mapping" [("entity", entity), ("message", fault.message)]
  | typeMismatch entity property expected actual =>
      described "TypeMismatch" [("entity", entity), ("property", property),
        ("expected", expected), ("actual", actual)]
  | integrity fault => described "Integrity" [("message", fault.message)]
  | poolExhausted => "PoolExhausted"
  | poolClosed => "PoolClosed"
  | notFound key => described "NotFound" [("key", key.display)]
  | query fault => fault.describe
  | parameter fault => described "Parameter" [("message", fault.message)]
  | immutableKey key => described "ImmutableKey" [("key", key.display)]
  | transaction fault => described "Transaction" [("message", fault.message)]
  | invalidState fault => described "InvalidState" [("message", fault.message)]
  | unknownProperty entity property =>
      described "UnknownProperty" [("entity", entity), ("property", property)]
  | storeClosed => "StoreClosed"

end Error

end EntityStore
