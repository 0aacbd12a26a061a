/-
Sample mappings: a library in which authors and books refer to each other, authors and
books that a third type joins, and two types whose instances need each other.
-/

import EntityStore.Mapping.SpecWriter
import EntityStore.Registry

set_option autoImplicit false

namespace EntityStore
namespace Samples

def plain (kind : String) : PropertyOptions := { kind := kind }

def author : MappingSpec :=
  (({} : MappingSpec).withTable "author")
    |>.withProperty "name" (.detailed ((plain "string").withNullable false))
    |>.withProperty "latestBook"
      (.detailed ((PropertyOptions.object "Book").withColumn "latest_book_id"))
    |>.withProperty "books"
      (.detailed (.collection "from Book where Book.author = :id order by Book.id"))

def book : MappingSpec :=
  (({} : MappingSpec).withTable "book")
    |>.withProperty "title" (.detailed ((plain "string").withLength 200))
    |>.withProperty "pages" (.bare "integer")
    |>.withProperty "available" (.detailed ((plain "boolean").withDefault (.boolean true)))
    |>.withProperty "author" (.detailed ((PropertyOptions.object "Author").withColumn "author_id"))
    |>.withProperty "editor" (.detailed ((PropertyOptions.object "Editor").withColumn "editor_id"))

def editor : MappingSpec :=
  (({} : MappingSpec).withTable "editor").withProperty "name" (.bare "string")

/-- Authors and books refer to each other by relations that may be empty; the books of
an author are a collection. -/
def library : List Definition :=
  [("Author", author), ("Book", book), ("Editor", editor)]

def libraryText : String := MappingSpec.fileText library

/-- A relation that cannot be empty, stored under a column of its own. -/
def required (entity column : String) : PropertySpec :=
  .detailed (((PropertyOptions.object entity).withColumn column).withNullable false)

/-- Authors and books, joined by relations that need both. -/
def relations : List Definition := [
  ("Author", ({} : MappingSpec)
    |>.withProperty "name" (.bare "string")
    |>.withProperty "relations"
      (.detailed (.collection "from Relation where Relation.author = :author"))),
  ("Book", ({} : MappingSpec).withProperty "title" (.bare "string")),
  ("Relation", ({} : MappingSpec)
    |>.withProperty "author" (required "Author" "author_id")
    |>.withProperty "book" (required "Book" "book_id"))]

/-- A type whose instances need one of the other type. -/
def needing (property target : String) : MappingSpec :=
  ({} : MappingSpec)
    |>.withProperty "name" (.bare "string")
    |>.withProperty property (.detailed ((PropertyOptions.object target).withNullable false))

/-- New instances that refer to each other cannot be inserted in any order. -/
def strictCycle : List Definition :=
  [("Chicken", needing "egg" "Egg"), ("Egg", needing "chicken" "Chicken")]

end Samples
end EntityStore
