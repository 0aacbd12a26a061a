/-
Commands of a database: tables that are created, and rows that are inserted, updated, deleted
or selected by a key. They are read from lexemes, so that what stands between quotes is a name
or a literal, whatever it contains. The parts of a table's definition end at the commas that
stand outside parentheses; within a part the type comes first, then the default, then what
else is said of the column.
-/

import EntityStore.Proofs.Selects
import EntityStore.Statement

set_option autoImplicit false

namespace EntityStore
namespace Sql

inductive ColumnConstraint where
  | optional
  | mandatory
  /-- The primary key; the flag tells whether the table generates it. -/
  | key (generated : Bool)
  deriving DecidableEq, Repr

structure ColumnDefinition where
  name : String
  type : List Lexeme
  default : Option (List Lexeme)
  constraint : ColumnConstraint
  deriving DecidableEq, Repr

/-- Where a column is compared or set, it stands with the marker of its value. -/
inductive Command where
  | create (table : QualifiedName) (columns : List ColumnDefinition)
  | insert (table : QualifiedName) (columns markers : List String)
  | update (table : QualifiedName) (columns : List (String × String)) (key : String × String)
  | delete (table : QualifiedName) (key : String × String)
  | select (table : QualifiedName) (columns : List String) (key : String × String)
  deriving DecidableEq, Repr

/-- The columns that take values, in order, each with the marker of its value. -/
def Command.slots : Command → List (String × String)
  | create _ _ => []
  | insert _ columns markers => columns.zip markers
  | update _ columns key => columns ++ [key]
  | delete _ key => [key]
  | select _ _ key => [key]

/-! ### Writing -/

def nameLexemes (table : QualifiedName) : List Lexeme :=
  match table.schema with
  | some schema => [.quoted schema, .symbol ".", .quoted table.name]
  | none => [.quoted table.name]

def ColumnConstraint.lexemes : ColumnConstraint → List Lexeme
  | optional => []
  | mandatory => [.word "NOT", .word "NULL"]
  | key generated =>
      [.word "PRIMARY", .word "KEY"] ++ (if generated then [.word "AUTOINCREMENT"] else [])

def defaultLexemes : Option (List Lexeme) → List Lexeme
  | some content => .word "DEFAULT" :: content
  | none => []

def ColumnDefinition.lexemes (column : ColumnDefinition) : List Lexeme :=
  .quoted column.name
    :: (column.type ++ (defaultLexemes column.default ++ column.constraint.lexemes))

def equation (slot : String × String) : List Lexeme :=
  [.quoted slot.1, .symbol "=", .marker slot.2]

def Command.lexemes : Command → List Lexeme
  | create table columns =>
      .word "CREATE" :: .word "TABLE" :: (nameLexemes table
        ++ .symbol "(" :: (commas (columns.map ColumnDefinition.lexemes) ++ [.symbol ")"]))
  | insert table [] _ =>
      .word "INSERT" :: .word "INTO" :: (nameLexemes table ++ [.word "DEFAULT", .word "VALUES"])
  | insert table columns markers =>
      .word "INSERT" :: .word "INTO" :: (nameLexemes table
        ++ .symbol "(" :: (commas (columns.map fun column => [.quoted column])
          ++ .symbol ")" :: .word "VALUES" :: .symbol "("
            :: (commas (markers.map fun marker => [.marker marker]) ++ [.symbol ")"])))
  | update table columns key =>
      .word "UPDATE" :: (nameLexemes table
        ++ .word "SET" :: (commas (columns.map equation) ++ .word "WHERE" :: equation key))
  | delete table key =>
      .word "DELETE" :: .word "FROM" :: (nameLexemes table ++ .word "WHERE" :: equation key)
  | select table columns key =>
      .word "SELECT" :: (commas (columns.map fun column => [.quoted column])
        ++ .word "FROM" :: (nameLexemes table ++ .word "WHERE" :: equation key))

/-! ### Reading -/

def readName : List Lexeme → Option (QualifiedName × List Lexeme)
  | .quoted schema :: .symbol "." :: .quoted name :: rest => some (⟨some schema, name⟩, rest)
  | .quoted name :: rest => some (⟨none, name⟩, rest)
  | _ => none

def readQuoted : List Lexeme → Option (String × List Lexeme)
  | .quoted name :: rest => some (name, rest)
  | _ => none

def readMarker : List Lexeme → Option (String × List Lexeme)
  | .marker text :: rest => some (text, rest)
  | _ => none

def readEquation : List Lexeme → Option ((String × String) × List Lexeme)
  | .quoted column :: .symbol "=" :: .marker text :: rest => some ((column, text), rest)
  | _ => none

def readKey (lexemes : List Lexeme) : Option (String × String) := do
  let (key, rest) ← readEquation (← takeWord? "WHERE" lexemes)
  if rest = [] then return key else none

/-- The parts between commas up to the parenthesis that closes, and what follows it. The first
argument counts the parentheses that are open, the second holds the part so far. -/
def readParts : Nat → List Lexeme → List Lexeme → Option (List (List Lexeme) × List Lexeme)
  | _, _, [] => none
  | depth, part, .symbol "(" :: rest => readParts (depth + 1) (part ++ [.symbol "("]) rest
  | 0, part, .symbol ")" :: rest => some ([part], rest)
  | depth + 1, part, .symbol ")" :: rest => readParts depth (part ++ [.symbol ")"]) rest
  | 0, part, .symbol "," :: rest => do
      let (others, rest) ← readParts 0 [] rest
      return (part :: others, rest)
  | depth, part, lexeme :: rest => readParts depth (part ++ [lexeme]) rest

def beginsConstraint (lexeme : Lexeme) : Bool :=
  lexeme = .word "NOT" || lexeme = .word "PRIMARY"

def readConstraint : List Lexeme → Option ColumnConstraint
  | [] => some .optional
  | [.word "NOT", .word "NULL"] => some .mandatory
  | [.word "PRIMARY", .word "KEY"] => some (.key false)
  | [.word "PRIMARY", .word "KEY", .word "AUTOINCREMENT"] => some (.key true)
  | _ => none

/-- A type goes up to the default or the constraint, a default up to the constraint. -/
def readColumnDefinition : List Lexeme → Option ColumnDefinition
  | .quoted name :: rest => do
      let isInside := fun lexeme => !beginsConstraint lexeme
      let isType := fun lexeme => isInside lexeme && lexeme != .word "DEFAULT"
      let rest' := rest.dropWhile isType
      match takeWord? "DEFAULT" rest' with
      | some content =>
          return ⟨name, rest.takeWhile isType, some (content.takeWhile isInside),
            ← readConstraint (content.dropWhile isInside)⟩
      | none => return ⟨name, rest.takeWhile isType, none, ← readConstraint rest'⟩
  | _ => none

def readColumnDefinitions : List (List Lexeme) → Option (List ColumnDefinition)
  | [] => some []
  | part :: rest => do
      let column ← readColumnDefinition part
      let columns ← readColumnDefinitions rest
      return column :: columns

def readValues (steps : Nat) (lexemes : List Lexeme) : Option (List String × List String) :=
  if lexemes = [.word "DEFAULT", .word "VALUES"] then some ([], []) else do
    let rest ← takeSymbol? "(" lexemes
    let (columns, rest) ← readCommas readQuoted steps rest
    let rest ← takeSymbol? "(" (← takeWord? "VALUES" (← takeSymbol? ")" rest))
    let (markers, rest) ← readCommas readMarker steps rest
    if rest = [.symbol ")"] then return (columns, markers) else none

def readCommand : List Lexeme → Option Command
  | .word "CREATE" :: .word "TABLE" :: rest => do
      let (table, rest) ← readName rest
      let (parts, rest) ← readParts 0 [] (← takeSymbol? "(" rest)
      if rest = [] then return .create table (← readColumnDefinitions parts) else none
  | .word "INSERT" :: .word "INTO" :: rest => do
      let (table, rest) ← readName rest
      let (columns, markers) ← readValues rest.length rest
      return .insert table columns markers
  | .word "UPDATE" :: rest => do
      let (table, rest) ← readName rest
      let rest ← takeWord? "SET" rest
      let (columns, rest) ← readCommas readEquation rest.length rest
      return .update table columns (← readKey rest)
  | .word "DELETE" :: .word "FROM" :: rest => do
      let (table, rest) ← readName rest
      return .delete table (← readKey rest)
  | .word "SELECT" :: rest => do
      let (columns, rest) ← readCommas readQuoted rest.length rest
      let (table, rest) ← readName (← takeWord? "FROM" rest)
      return .select table columns (← readKey rest)
  | _ => none

def command? (text : String) : Option Command := do
  readCommand (← Sql.lexemes text.toList)

/-! ### Literals -/

def readDigits (word : String) : Option Nat :=
  if word.toList.all Text.isDigit then some (Nat.ofDigitChars 10 word.toList 0) else none

/-- The value that a literal stands for. Numbers with a fraction are left out. -/
def readLiteral : List Lexeme → Option Value
  | [.word word] =>
      match readDigits word with
      | some number => some (.integer (Int64.ofInt number))
      | none =>
          if word = "NULL" then some .null
          else if word = "TRUE" then some (.boolean true)
          else if word = "FALSE" then some (.boolean false)
          else none
  | [.symbol "-", .word word] =>
      (readDigits word).map fun (number : Nat) => .integer (Int64.ofInt (-(number : Int)))
  | [.literal content] => some (.text content)
  | _ => none

/-! ### Parts between commas -/

def Stays (part : List Lexeme) : Prop :=
  ∀ front rest, readParts 0 front (part ++ rest) = readParts 0 (front ++ part) rest

def isClosed : Nat → List Lexeme → Bool
  | depth, [] => depth == 0
  | depth, .symbol "(" :: rest => isClosed (depth + 1) rest
  | 0, .symbol ")" :: _ => false
  | depth + 1, .symbol ")" :: rest => isClosed depth rest
  | 0, .symbol "," :: _ => false
  | depth, _ :: rest => isClosed depth rest

private theorem readParts_of_isClosed {depth : Nat} {part : List Lexeme}
    (closed : isClosed depth part = true) (front rest : List Lexeme) :
    readParts depth front (part ++ rest) = readParts 0 (front ++ part) rest := by
  fun_induction isClosed depth part generalizing front with
  | case1 depth =>
      rw [eq_of_beq closed, List.append_nil, List.nil_append]
  | case2 depth part ih =>
      rw [List.cons_append, readParts, ih closed, List.append_assoc]
      rfl
  | case3 => cases closed
  | case4 part depth ih =>
      rw [List.cons_append, readParts, ih closed, List.append_assoc]
      rfl
  | case5 => cases closed
  | case6 depth lexeme part notOpening notClosing notDeeper notComma ih =>
      rw [List.cons_append, readParts, ih closed, List.append_assoc]
      · rfl
      all_goals assumption

theorem stays_of_isClosed {part : List Lexeme} (closed : isClosed 0 part = true) : Stays part :=
  fun front rest => readParts_of_isClosed closed front rest

theorem stays_nil : Stays [] := by
  intro front rest
  rw [List.append_nil, List.nil_append]

theorem Stays.append {first second : List Lexeme} (left : Stays first) (right : Stays second) :
    Stays (first ++ second) := by
  intro front rest
  rw [List.append_assoc, left, right, List.append_assoc]

theorem stays_word (text : String) : Stays [.word text] := fun _ _ => rfl

private theorem stays_quoted (name : String) : Stays [.quoted name] := fun _ _ => rfl

theorem stays_literal (content : String) : Stays [.literal content] := fun _ _ => rfl

private theorem readParts_commas {first : List Lexeme} {others : List (List Lexeme)}
    (stay : ∀ part ∈ first :: others, Stays part) (rest : List Lexeme) :
    readParts 0 [] (commas (first :: others) ++ .symbol ")" :: rest)
      = some (first :: others, rest) := by
  induction others generalizing first with
  | nil =>
      have stays := stay first List.mem_cons_self
      simp [commas, stays [], readParts]
  | cons second others ih =>
      have stays := stay first List.mem_cons_self
      have split : commas (first :: second :: others) ++ .symbol ")" :: rest
          = first ++ .symbol "," :: (commas (second :: others) ++ .symbol ")" :: rest) := by
        simp [commas]
      rw [split, stays [], List.nil_append, readParts,
        ih fun part member => stay part (List.mem_cons_of_mem first member)]
      rfl

/-! ### What is written is read -/

private theorem readName_lexemes (table : QualifiedName) {rest : List Lexeme}
    (ends : takeSymbol? "." rest = none) :
    readName (nameLexemes table ++ rest) = some (table, rest) := by
  obtain ⟨schema, name⟩ := table
  cases schema with
  | some schema => rfl
  | none =>
      simp only [nameLexemes, List.singleton_append]
      unfold readName
      split
      · rename_i same
        cases same
        cases ends
      · rename_i same
        cases same
        rfl
      · rename_i other
        exact absurd rfl (other _ _)

structure ColumnDefinition.Plain (column : ColumnDefinition) : Prop where
  type : ∀ lexeme ∈ column.type, beginsConstraint lexeme = false ∧ lexeme ≠ .word "DEFAULT"
  default : ∀ content ∈ column.default, ∀ lexeme ∈ content, beginsConstraint lexeme = false
  typeStays : Stays column.type
  defaultStays : ∀ content ∈ column.default, Stays content

theorem ColumnConstraint.begins (constraint : ColumnConstraint) :
    constraint.lexemes = [] ∨ ∃ first rest, constraint.lexemes = first :: rest ∧
      beginsConstraint first = true ∧ first ≠ .word "DEFAULT" := by
  cases constraint with
  | optional => exact Or.inl rfl
  | mandatory => exact Or.inr ⟨_, _, rfl, rfl, by decide⟩
  | key generated => exact Or.inr ⟨_, _, rfl, rfl, by decide⟩

private theorem readConstraint_lexemes (constraint : ColumnConstraint) :
    readConstraint constraint.lexemes = some constraint := by
  cases constraint with
  | key generated => cases generated <;> rfl
  | optional | mandatory => rfl

theorem ColumnConstraint.stays (constraint : ColumnConstraint) : Stays constraint.lexemes := by
  cases constraint with
  | optional => exact stays_nil
  | mandatory => exact (stays_word _).append (stays_word _)
  | key generated => cases generated <;> exact fun _ _ => by simp [lexemes, readParts]

private theorem takeWhile_dropWhile_append {α : Type} {passes : α → Bool} {front rest : List α}
    (pass : ∀ element ∈ front, passes element = true)
    (fails : ∀ element ∈ rest.head?, passes element = false) :
    (front ++ rest).takeWhile passes = front ∧ (front ++ rest).dropWhile passes = rest := by
  rw [List.takeWhile_append_of_pos pass, List.dropWhile_append_of_pos pass]
  cases rest with
  | nil => simp
  | cons first rest => simp [fails first rfl]

private theorem readColumnDefinition_lexemes {column : ColumnDefinition} (plain : column.Plain) :
    readColumnDefinition column.lexemes = some column := by
  obtain ⟨name, type, default, constraint⟩ := column
  have constraintFails : ∀ lexeme ∈ constraint.lexemes.head?,
      (!beginsConstraint lexeme) = false := by
    rcases constraint.begins with none' | ⟨first, rest, same, begins, _⟩
    · simp [none']
    · simp [same, begins]
  have typePasses : ∀ lexeme ∈ type,
      (!beginsConstraint lexeme && lexeme != .word "DEFAULT") = true := by
    intro lexeme member
    simp [plain.type lexeme member]
  unfold readColumnDefinition ColumnDefinition.lexemes
  dsimp only
  cases default with
  | none =>
      have noDefault : takeWord? "DEFAULT" constraint.lexemes = none := by
        rcases constraint.begins with none' | ⟨first, rest, same, _, other⟩
        · rw [none']
          rfl
        · rw [same]
          cases first with
          | word text => exact if_neg fun isDefault => other (congrArg Lexeme.word isDefault)
          | _ => rfl
      have typeFails : ∀ lexeme ∈ constraint.lexemes.head?,
          (!beginsConstraint lexeme && lexeme != .word "DEFAULT") = false := by
        intro lexeme member
        simp [constraintFails lexeme member]
      obtain ⟨taken, dropped⟩ := takeWhile_dropWhile_append typePasses typeFails
      rw [defaultLexemes, List.nil_append, taken, dropped, noDefault, readConstraint_lexemes]
      rfl
  | some content =>
      have contentPasses : ∀ lexeme ∈ content, (!beginsConstraint lexeme) = true := by
        intro lexeme member
        simp [plain.default content rfl lexeme member]
      have typeFails : ∀ lexeme ∈ (Lexeme.word "DEFAULT" :: (content ++ constraint.lexemes)).head?,
          (!beginsConstraint lexeme && lexeme != .word "DEFAULT") = false := by simp
      obtain ⟨taken, dropped⟩ := takeWhile_dropWhile_append typePasses typeFails
      obtain ⟨takenDefault, droppedDefault⟩ :=
        takeWhile_dropWhile_append contentPasses constraintFails
      have isDefault : takeWord? "DEFAULT" (.word "DEFAULT" :: (content ++ constraint.lexemes))
          = some (content ++ constraint.lexemes) := rfl
      rw [defaultLexemes, List.cons_append, taken, dropped, isDefault]
      simp only [takenDefault, droppedDefault, readConstraint_lexemes]
      rfl

theorem ColumnDefinition.Plain.stays {column : ColumnDefinition} (plain : column.Plain) :
    Stays column.lexemes := by
  have default : Stays (defaultLexemes column.default) := by
    cases given : column.default with
    | none => exact stays_nil
    | some content => exact (stays_word "DEFAULT").append (plain.defaultStays content given)
  exact (stays_quoted column.name).append
    (plain.typeStays.append (default.append column.constraint.stays))

private theorem readColumnDefinitions_lexemes {columns : List ColumnDefinition}
    (plain : ∀ column ∈ columns, column.Plain) :
    readColumnDefinitions (columns.map ColumnDefinition.lexemes) = some columns := by
  induction columns with
  | nil => rfl
  | cons column rest ih =>
      rw [List.map_cons, readColumnDefinitions,
        readColumnDefinition_lexemes (plain column List.mem_cons_self),
        ih fun other member => plain other (List.mem_cons_of_mem column member)]
      rfl

def Command.Plain : Command → Prop
  | create _ columns => columns ≠ [] ∧ ∀ column ∈ columns, column.Plain
  | insert _ columns markers => columns.length = markers.length
  | update _ columns _ => columns ≠ []
  | delete _ _ => True
  | select _ columns _ => columns ≠ []

private theorem readCommas_all {α : Type} {read : List Lexeme → Option (α × List Lexeme)}
    {write : α → List Lexeme}
    (readsBack : ∀ item rest, read (write item ++ rest) = some (item, rest))
    {items : List α} (some' : items ≠ []) {rest : List Lexeme}
    (notComma : takeSymbol? "," rest = none) {steps : Nat}
    (enough : (commas (items.map write)).length < steps) :
    readCommas read steps (commas (items.map write) ++ rest) = some (items, rest) := by
  obtain ⟨first, others, rfl⟩ := List.exists_cons_of_ne_nil some'
  have fewer := length_le_commas write first others
  exact readCommas_commas readsBack rest notComma first others steps (by omega)

private theorem readValues_lexemes {columns markers : List String} (some' : columns ≠ [])
    (same : columns.length = markers.length) {steps : Nat}
    (enough : (commas (columns.map fun column => [.quoted column])).length
      + (commas (markers.map fun marker => [.marker marker])).length < steps) :
    readValues steps (.symbol "(" :: (commas (columns.map fun column => [.quoted column])
      ++ .symbol ")" :: .word "VALUES" :: .symbol "("
        :: (commas (markers.map fun marker => [.marker marker]) ++ [.symbol ")"])))
      = some (columns, markers) := by
  have someMarkers : markers ≠ [] := by
    intro none'
    rw [none', List.length_nil] at same
    exact some' (List.length_eq_zero_iff.mp same)
  have columnsRead := @readCommas_all _ readQuoted (fun column => [.quoted column])
    (fun _ _ => rfl) columns some' (.symbol ")" :: .word "VALUES" :: .symbol "("
      :: (commas (markers.map fun marker => [.marker marker]) ++ [.symbol ")"])) rfl steps
    (by omega)
  have markersRead := @readCommas_all _ readMarker (fun marker => [.marker marker])
    (fun _ _ => rfl) markers someMarkers [.symbol ")"] rfl steps (by omega)
  have opens (rest : List Lexeme) : takeSymbol? "(" (.symbol "(" :: rest) = some rest := rfl
  have closes (rest : List Lexeme) : takeSymbol? ")" (.symbol ")" :: rest) = some rest := rfl
  have isValues (rest : List Lexeme) :
      takeWord? "VALUES" (.word "VALUES" :: rest) = some rest := rfl
  simp only [readValues, List.cons.injEq, reduceCtorEq, false_and, if_false, opens, closes,
    isValues, columnsRead, markersRead, Option.bind_eq_bind, Option.bind_some]
  rfl

/-- A command that is written reads as itself. -/
theorem readCommand_lexemes {command : Command} (plain : command.Plain) :
    readCommand command.lexemes = some command := by
  cases command with
  | create table columns =>
      obtain ⟨some', each⟩ := plain
      obtain ⟨first, others, rfl⟩ := List.exists_cons_of_ne_nil some'
      have stay : ∀ part ∈ first.lexemes :: others.map ColumnDefinition.lexemes, Stays part := by
        intro part member
        obtain ⟨column, isColumn, rfl⟩ := List.mem_map.mp
          (show part ∈ (first :: others).map ColumnDefinition.lexemes from member)
        exact (each column isColumn).stays
      have named (rest : List Lexeme) : readName (nameLexemes table ++ .symbol "(" :: rest)
          = some (table, .symbol "(" :: rest) := readName_lexemes table rfl
      have opens (rest : List Lexeme) : takeSymbol? "(" (.symbol "(" :: rest) = some rest := rfl
      have parts := readParts_commas stay []
      have columnsRead := readColumnDefinitions_lexemes each
      rw [List.map_cons] at columnsRead
      simp only [Command.lexemes, readCommand, List.map_cons, named, opens, parts, columnsRead,
        Option.bind_eq_bind, Option.bind_some]
      rfl
  | insert table columns markers =>
      cases columns with
      | nil =>
          have noMarkers : markers = [] := List.length_eq_zero_iff.mp plain.symm
          have named : readName (nameLexemes table ++ [.word "DEFAULT", .word "VALUES"])
              = some (table, [.word "DEFAULT", .word "VALUES"]) := readName_lexemes table rfl
          simp only [noMarkers, Command.lexemes, readCommand, named, Option.bind_eq_bind,
            Option.bind_some]
          rfl
      | cons column columns =>
          have named (rest : List Lexeme) : readName (nameLexemes table ++ .symbol "(" :: rest)
              = some (table, .symbol "(" :: rest) := readName_lexemes table rfl
          simp only [Command.lexemes, readCommand, named, Option.bind_eq_bind, Option.bind_some]
          rw [readValues_lexemes (List.cons_ne_nil column columns) plain]
          · rfl
          · simp only [List.length_cons, List.length_append, List.length_nil]
            omega
  | update table columns key =>
      have named (rest : List Lexeme) : readName (nameLexemes table ++ .word "SET" :: rest)
          = some (table, .word "SET" :: rest) := readName_lexemes table rfl
      have isSet (rest : List Lexeme) : takeWord? "SET" (.word "SET" :: rest) = some rest := rfl
      simp only [Command.lexemes, readCommand, named, isSet, Option.bind_eq_bind, Option.bind_some]
      rw [@readCommas_all _ readEquation equation (fun _ _ => rfl) columns plain
        (.word "WHERE" :: equation key) rfl]
      · rfl
      · simp only [List.length_append, List.length_cons]
        omega
  | delete table key =>
      have named (rest : List Lexeme) : readName (nameLexemes table ++ .word "WHERE" :: rest)
          = some (table, .word "WHERE" :: rest) := readName_lexemes table rfl
      simp only [Command.lexemes, readCommand, named, Option.bind_eq_bind, Option.bind_some]
      rfl
  | select table columns key =>
      have named (rest : List Lexeme) : readName (nameLexemes table ++ .word "WHERE" :: rest)
          = some (table, .word "WHERE" :: rest) := readName_lexemes table rfl
      have isFrom (rest : List Lexeme) : takeWord? "FROM" (.word "FROM" :: rest) = some rest := rfl
      simp only [Command.lexemes, readCommand]
      rw [@readCommas_all _ readQuoted (fun column => [.quoted column]) (fun _ _ => rfl) columns
        plain (.word "FROM" :: (nameLexemes table ++ .word "WHERE" :: equation key)) rfl]
      · simp only [isFrom, named, Option.bind_eq_bind, Option.bind_some]
        rfl
      · simp only [List.length_append, List.length_cons]
        omega

/-- A text that spells a command is that command. -/
theorem command?_of_spells {text : String} {command : Command} (plain : command.Plain)
    (spells : Spells text command.lexemes) : command? text = some command := by
  have read : Sql.lexemes text.toList = some command.lexemes := spells
  unfold command?
  rw [read, Option.bind_eq_bind, Option.bind_some]
  exact readCommand_lexemes plain

end Sql
end EntityStore
