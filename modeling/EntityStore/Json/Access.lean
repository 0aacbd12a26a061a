/-
Looking into documents and putting them together. Whatever is missing or of another
kind counts as empty, so that a reader of a document states only what it expects.
-/

import EntityStore.Json.Basic

set_option autoImplicit false

namespace EntityStore
namespace Json

/-! ### Looking in -/

def field (document : Json) (name : String) : Json :=
  match document with
  | .object members => (members.reverse.lookup name).getD .null
  | _ => .null

def items : Json → List Json
  | .array content => content
  | _ => []

def item (document : Json) (index : Nat) : Json := (items document).getD index .null

def members : Json → List (String × Json)
  | .object content => sortMembers content
  | _ => []

def text? : Json → Option String
  | .string content => some content
  | _ => none

def text (document : Json) : String := document.text?.getD ""

def integer? : Json → Option Int
  | .number (.integer whole) => some whole
  | _ => none

def natural? (document : Json) : Option Nat := document.integer?.map Int.toNat

def natural (document : Json) : Nat := document.natural?.getD 0

def flag : Json → Bool
  | .boolean content => content
  | _ => false

/-- The pairs of an array of arrays: a name, and what is read of the rest. -/
def pairs {α : Type} (read : Json → α) (document : Json) : List (String × α) :=
  document.items.map fun pair => ((pair.item 0).text, read (pair.item 1))

/-! ### Putting together -/

def ofNat (number : Nat) : Json := integer number

def ofOption {α : Type} (write : α → Json) : Option α → Json
  | some content => write content
  | none => .null

def ofList {α : Type} (write : α → Json) (content : List α) : Json :=
  .array (content.map write)

/-- An array that begins with a name. -/
def tagged (name : String) (content : List Json) : Json := .array (.string name :: content)

def ofPair {α : Type} (write : α → Json) (pair : String × α) : Json :=
  tagged pair.1 [write pair.2]

end Json
end EntityStore
