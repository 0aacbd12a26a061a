/-
JSON documents. An object keeps its members in the order of the text, repeated
names included, so that a reader of a document can reject repetition; where a
document is shown, members are sorted by name and the last of a name counts.
-/

import EntityStore.Double.Text

set_option autoImplicit false

namespace EntityStore

/-- A JSON number: an integer of sixty-four bits, signed or unsigned, or a double. -/
inductive JsonNumber where
  | integer (number : Int)
  | float (number : Double)
  deriving DecidableEq, Repr

inductive Json where
  | null
  | boolean (flag : Bool)
  | number (value : JsonNumber)
  | string (content : String)
  | array (items : List Json)
  | object (members : List (String × Json))
  deriving Repr

namespace Json

instance : Inhabited Json := ⟨null⟩

def integer (number : Int) : Json := .number (.integer number)

def insertMember {α : Type} (name : String) (value : α) :
    List (String × α) → List (String × α)
  | [] => [(name, value)]
  | member :: rest =>
      if name < member.1 then (name, value) :: member :: rest
      else if name = member.1 then (name, value) :: rest
      else member :: insertMember name value rest

/-- Members sorted by name, the last of each name. -/
def sortMembers {α : Type} (members : List (String × α)) : List (String × α) :=
  members.foldl (fun sorted member => insertMember member.1 member.2 sorted) []

end Json

end EntityStore
