/-
Values for the markers of a compiled query. Parameters are given by name or by
position, never both; every parameter needs a value and every value a parameter.
-/

import EntityStore.Query.Compiled

set_option autoImplicit false

namespace EntityStore

/-- Values given when a query runs. Named values have distinct names. -/
inductive Parameters where
  | none
  | named (values : List (String × Value))
  | positional (values : List Value)
  deriving DecidableEq, Repr

inductive ParameterFault where
  | missingNamed (name : String)
  | noneGiven (expected : Nat)
  | namedForPositional
  | unusedNamed (names : List String)
  | positionalForNamed
  | tooFew (expected given : Nat)
  | tooMany (expected given : Nat)
  | missingPositional (index : Nat)
  | styleMismatch
  deriving DecidableEq, Repr

def quotedName (name : String) : String := "':" ++ name ++ "'"

def ParameterFault.message : ParameterFault → String
  | missingNamed name => "missing value for " ++ quotedName name
  | noneGiven expected =>
      "query expects " ++ toString expected ++ " positional value(s), none given"
  | namedForPositional => "query uses positional placeholders but named values were given"
  | unusedNamed names => "unused value(s) for " ++ Sql.commaSeparated (names.map quotedName)
  | positionalForNamed => "query uses named placeholders but positional values were given"
  | tooFew expected given =>
      "missing positional value: query expects " ++ toString expected ++ ", got "
        ++ toString given
  | tooMany expected given =>
      "unused positional value(s): query expects " ++ toString expected ++ ", got "
        ++ toString given
  | missingPositional index => "missing positional value " ++ toString index
  | styleMismatch => "parameter style mismatch"

namespace CompiledQuery

def sortedNames (names : List String) : List String :=
  names.mergeSort fun left right => !(right < left)

def checkParameters (named : List String) (positional : Nat) :
    Parameters → Except ParameterFault Unit
  | .none =>
      match named with
      | name :: _ => .error (.missingNamed name)
      | [] => if 0 < positional then .error (.noneGiven positional) else .ok ()
  | .named values =>
      if 0 < positional then .error .namedForPositional
      else
        let given := values.map Prod.fst
        match named.find? fun name => !given.contains name with
        | some name => .error (.missingNamed name)
        | none =>
            match given.filter fun name => !named.contains name with
            | [] => .ok ()
            | unused => .error (.unusedNamed (sortedNames unused))
  | .positional values =>
      if !named.isEmpty then .error .positionalForNamed
      else if values.length < positional then .error (.tooFew positional values.length)
      else if positional < values.length then .error (.tooMany positional values.length)
      else .ok ()

def slotValue (parameters : Parameters) : Slot → Except ParameterFault Value
  | .literal value => .ok value
  | .named name =>
      match parameters with
      | .named values =>
          match values.lookup name with
          | some value => .ok value
          | none => .error (.missingNamed name)
      | _ => .error .styleMismatch
  | .positional index =>
      match parameters with
      | .positional values =>
          match values[index]? with
          | some value => .ok value
          | none => .error (.missingPositional index)
      | _ => .error .styleMismatch

/-- The values of slots in order, as the database stores them. -/
def slotValues (dialect : Dialect) (parameters : Parameters) :
    List Slot → Except ParameterFault (List Value)
  | [] => .ok []
  | slot :: rest =>
      match slotValue parameters slot with
      | .error fault => .error fault
      | .ok value =>
          match slotValues dialect parameters rest with
          | .error fault => .error fault
          | .ok values => .ok (dialect.stored value :: values)

def bind (compiled : CompiledQuery) (parameters : Parameters) (dialect : Dialect) :
    Except ParameterFault (List Value) :=
  match checkParameters compiled.namedParameters compiled.positional parameters with
  | .error fault => .error fault
  | .ok () => slotValues dialect parameters compiled.slots

end CompiledQuery

end EntityStore
