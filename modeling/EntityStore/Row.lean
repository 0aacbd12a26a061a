/-
Rows of results. A row lists columns with their values in the order in which the
database gave them; a look-up prefers the exact name and falls back to the first
column whose name differs only in the case of ASCII letters.
-/

import EntityStore.Text
import EntityStore.Value

set_option autoImplicit false

namespace EntityStore

structure Row where
  columns : List (String × Value)
  deriving DecidableEq, Repr

namespace Row

def empty : Row := ⟨[]⟩

instance : Inhabited Row := ⟨empty⟩

def size (row : Row) : Nat := row.columns.length

def isEmpty (row : Row) : Bool := row.columns.isEmpty

def names (row : Row) : List String := row.columns.map Prod.fst

/-- Puts a value under a name in a list of named values: the first entry of that
name is replaced in place, a new name goes to the end. -/
def place {ν α : Type} [DecidableEq ν] (name : ν) (value : α) : List (ν × α) → List (ν × α)
  | [] => [(name, value)]
  | entry :: rest =>
      if entry.1 = name then (name, value) :: rest else entry :: place name value rest

/-- Sets a column. A column that is already there keeps its position. -/
def insert (row : Row) (column : String) (value : Value) : Row :=
  ⟨place column value row.columns⟩

def named? (row : Row) (column : String) : Option Value :=
  row.columns.lookup column

/-- The value of a column, by its exact name or else by its name in another case. -/
def get? (row : Row) (column : String) : Option Value :=
  match row.named? column with
  | some value => some value
  | none =>
      (row.columns.find? fun entry => Text.sameIgnoringCase entry.1 column).map Prod.snd

def at? (row : Row) (index : Nat) : Option Value :=
  (row.columns[index]?).map Prod.snd

def ofList (columns : List (String × Value)) : Row :=
  columns.foldl (fun row entry => row.insert entry.1 entry.2) empty

end Row

end EntityStore
