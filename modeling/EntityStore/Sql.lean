/-
Pieces of statements that all databases share: quoted identifiers, qualified names
and text literals.
-/

set_option autoImplicit false

namespace EntityStore
namespace Sql

def doubled (mark : Char) : List Char → List Char
  | [] => []
  | character :: rest =>
      if character = mark then mark :: mark :: doubled mark rest
      else character :: doubled mark rest

def quote (identifier : String) : String :=
  String.ofList ('"' :: doubled '"' identifier.toList ++ ['"'])

def textLiteral (content : String) : String :=
  String.ofList ('\'' :: doubled '\'' content.toList ++ ['\''])

def qualified (schema : Option String) (name : String) : String :=
  match schema with
  | some schema => quote schema ++ "." ++ quote name
  | none => quote name

def commaSeparated (parts : List String) : String :=
  ", ".intercalate parts

end Sql
end EntityStore
