/-
Identity of stored things: the name of a type and, once it is known, an id. An id
is written at most once.
-/

set_option autoImplicit false

namespace EntityStore

structure Key where
  entityType : String
  id : Option Int64
  deriving DecidableEq, Repr

namespace Key

def fresh (entityType : String) : Key := ⟨entityType, none⟩

def withId (entityType : String) (id : Int64) : Key := ⟨entityType, some id⟩

def hasId (key : Key) : Bool := key.id.isSome

def display (key : Key) : String :=
  key.entityType ++ "#" ++ (match key.id with
    | some id => toString id.toInt
    | none => "?")

def describe (key : Key) : String :=
  "Key(" ++ key.display ++ ")"

def assignId? (key : Key) (id : Int64) : Option Key :=
  match key.id with
  | some _ => none
  | none => some { key with id := some id }

end Key

end EntityStore
