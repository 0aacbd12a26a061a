/-
Pages of a result. A dialect restricts a statement to a page by one of a few forms;
a form has a text, written around or behind the statement, and a meaning, which is
what it leaves of a list of rows.
-/

set_option autoImplicit false

namespace EntityStore

/-- How a statement is restricted to some of its rows. Numbers are unsigned
integers of sixty-four bits. -/
inductive Paging where
  /-- No restriction. -/
  | whole
  /-- `LIMIT n` -/
  | limit (count : UInt64)
  /-- `OFFSET n` -/
  | offset (skipped : UInt64)
  /-- `LIMIT -1 OFFSET n`, a negative limit being none. -/
  | unlimitedOffset (skipped : UInt64)
  /-- `LIMIT n OFFSET m` -/
  | limitOffset (count skipped : UInt64)
  /-- The rows of a subquery whose number is at most `last`. -/
  | firstNumbered (last : UInt64)
  /-- The rows of a subquery whose number is above `skipped`. -/
  | afterNumber (skipped : UInt64)
  /-- The rows of a subquery whose number is above `skipped` and at most `last`. -/
  | betweenNumbers (skipped last : UInt64)
  /-- A form of a dialect's own, of which only the text is known. -/
  | custom (write : String → String)

namespace Paging

def numberText (number : UInt64) : String := toString number.toNat

def text (paging : Paging) (statement : String) : String :=
  match paging with
  | whole => statement
  | limit count => statement ++ " LIMIT " ++ numberText count
  | offset skipped => statement ++ " OFFSET " ++ numberText skipped
  | unlimitedOffset skipped => statement ++ " LIMIT -1 OFFSET " ++ numberText skipped
  | limitOffset count skipped =>
      statement ++ " LIMIT " ++ numberText count ++ " OFFSET " ++ numberText skipped
  | firstNumbered last =>
      "SELECT * FROM ( " ++ statement ++ ") WHERE ROWNUM <= " ++ numberText last
  | afterNumber skipped =>
      "SELECT * FROM (SELECT r.*, ROWNUM rnum FROM (" ++ statement
        ++ ") r ) where rnum > " ++ numberText skipped
  | betweenNumbers skipped last =>
      "SELECT * FROM (SELECT r.*, ROWNUM rnum FROM (" ++ statement
        ++ ") r WHERE ROWNUM <= " ++ numberText last ++ ") WHERE rnum > " ++ numberText skipped
  | custom write => write statement

def numbered {α : Type} (rows : List α) : List (Nat × α) :=
  rows.zipIdx.map fun entry => (entry.2 + 1, entry.1)

/-- The rows left of a result, where the form has a meaning here. -/
def rows? {α : Type} (paging : Paging) (rows : List α) : Option (List α) :=
  match paging with
  | whole => some rows
  | limit count => some (rows.take count.toNat)
  | offset skipped => some (rows.drop skipped.toNat)
  | unlimitedOffset skipped => some (rows.drop skipped.toNat)
  | limitOffset count skipped => some ((rows.drop skipped.toNat).take count.toNat)
  | firstNumbered last =>
      some (((numbered rows).filter fun entry => entry.1 ≤ last.toNat).map Prod.snd)
  | afterNumber skipped =>
      some (((numbered rows).filter fun entry => skipped.toNat < entry.1).map Prod.snd)
  | betweenNumbers skipped last =>
      some ((((numbered rows).filter fun entry => entry.1 ≤ last.toNat).filter
        fun entry => skipped.toNat < entry.1).map Prod.snd)
  | custom _ => none

def saturatingSum (left right : UInt64) : UInt64 :=
  if left.toNat + right.toNat < 0x10000000000000000 then left + right else 0xffffffffffffffff

end Paging

/-- At most `limit` rows behind the first `offset`. -/
structure Page where
  limit : Option UInt64 := none
  offset : Option UInt64 := none
  deriving DecidableEq, Repr

end EntityStore
