/-
Command lines. Options may stand before and behind the command; `--` ends them. A line
is read from left to right, and the first thing that is wrong, or the first request for
help or the version, decides.
-/

import EntityStore.Commands

set_option autoImplicit false

namespace EntityStore
namespace CommandLine

/-! ### What can be said -/

inductive OptionName where
  | database
  | mapping
  | verbose
  | help
  | version
  | recreate
  | parameter
  | limit
  | offset
  | format
  | dialect
  deriving DecidableEq, Repr

inductive Expects where
  | nothing
  | path
  | text
  /-- An unsigned integer of sixty-four bits. -/
  | count
  deriving DecidableEq, Repr

structure OptionForm where
  name : OptionName
  long : String
  short : Option Char := none
  expects : Expects := .nothing
  repeatable : Bool := false
  deriving DecidableEq, Repr

/-- The options that may stand on both sides of the command. -/
def commonOptions : List OptionForm := [
  { name := .database, long := "db", short := some 'd', expects := .path },
  { name := .mapping, long := "mapping", short := some 'm', expects := .path },
  { name := .verbose, long := "verbose", short := some 'v' },
  { name := .help, long := "help", short := some 'h' }]

def frontOptions : List OptionForm :=
  { name := .version, long := "version", short := some 'V' } :: commonOptions

inductive CommandName where
  | sync
  | query
  | ddl
  | version
  | help
  deriving DecidableEq, Repr

def CommandName.ofText? : String → Option CommandName
  | "sync" => some sync
  | "query" => some query
  | "ddl" => some ddl
  | "version" => some version
  | "help" => some help
  | _ => none

def CommandName.options : CommandName → List OptionForm
  | sync => [{ name := .recreate, long := "recreate" }]
  | query => [
      { name := .parameter, long := "param", short := some 'p', expects := .text
        repeatable := true },
      { name := .limit, long := "limit", short := some 'l', expects := .count },
      { name := .offset, long := "offset", short := some 'o', expects := .count },
      { name := .format, long := "format", short := some 'f', expects := .text }]
  | ddl => [{ name := .dialect, long := "dialect", expects := .text }]
  | _ => []

/-- The number of texts that a command takes besides its options. -/
def CommandName.capacity : CommandName → Nat
  | query => 1
  | _ => 0

inductive Stop where
  | misuse
  | help
  | version
  deriving DecidableEq, Repr

/-! ### Reading one side of the command -/

structure Side where
  options : List (OptionName × String) := []
  texts : List String := []
  deriving DecidableEq, Repr

def digitsNumber (digits : List Char) : Nat :=
  digits.foldl (fun total digit => total * 10 + (digit.toNat - 48)) 0

/-- An unsigned integer of sixty-four bits; a plus sign may stand in front. -/
def count? (content : String) : Option UInt64 :=
  let digits := match content.toList with
    | '+' :: rest => rest
    | other => other
  let number := digitsNumber digits
  if !digits.isEmpty && digits.all Text.isDigit && number < 0x10000000000000000 then some number.toUInt64
  else none

def Expects.accepts (expects : Expects) (content : String) : Bool :=
  match expects with
  | nothing => true
  | text => true
  | path => !content.isEmpty
  | count => (count? content).isSome

namespace Side

/-- Adds an option with its value. Only some options may be repeated. -/
def addOption (side : Side) (form : OptionForm) (value : String) : Except Stop Side :=
  match form.name with
  | .help => .error .help
  | .version => .error .version
  | name =>
      let repeated := !form.repeatable && (side.options.lookup name).isSome
      if repeated || !form.expects.accepts value then .error .misuse
      else .ok { side with options := side.options ++ [(name, value)] }

def addTexts (capacity : Nat) (added : List String) (side : Side) : Except Stop Side :=
  if side.texts.length + added.length ≤ capacity then
    .ok { side with texts := side.texts ++ added }
  else .error .misuse

/-- Reads options of one letter behind a dash. Whatever follows one that expects a value
is that value; if nothing follows, the value is still to come. -/
def addLetters (forms : List OptionForm) :
    List Char → Side → Except Stop (Side × Option OptionForm)
  | [], side => .ok (side, none)
  | letter :: rest, side =>
      match forms.find? fun form => form.short == some letter with
      | none => .error .misuse
      | some form =>
          if form.expects = .nothing then do
            let added ← side.addOption form ""
            addLetters forms rest added
          else
            match rest with
            | [] => .ok (side, some form)
            | '=' :: value => do return (← side.addOption form (String.ofList value), none)
            | value => do return (← side.addOption form (String.ofList value), none)

/-- Reads an option with a long name, which a value may follow behind an equality
sign. -/
def addLong (forms : List OptionForm) (content : List Char) (side : Side) :
    Except Stop (Side × Option OptionForm) :=
  let (name, rest) := content.span (· != '=')
  match forms.find? fun form => form.long == String.ofList name with
  | none => .error .misuse
  | some form =>
      match form.expects, rest with
      | .nothing, [] => do return (← side.addOption form "", none)
      | .nothing, _ => .error .misuse
      | _, [] => .ok (side, some form)
      | _, _ :: value => do return (← side.addOption form (String.ofList value), none)

end Side

inductive ArgumentForm where
  /-- Everything behind it is a text. -/
  | ending
  | long (content : List Char)
  | letters (content : List Char)
  | text
  deriving DecidableEq, Repr

def ArgumentForm.ofText (argument : String) : ArgumentForm :=
  match argument.toList with
  | ['-', '-'] => ending
  | '-' :: '-' :: content => long content
  | ['-'] => text
  | '-' :: content => letters content
  | _ => text

/-- Reads arguments up to the end or, where one may stand, up to the name of a command;
gives that name and the arguments behind it. An option that expects a value takes the
next argument, which must be a text. -/
def readSide (forms : List OptionForm) (isCommand : String → Bool) (capacity : Nat) :
    List String → Option OptionForm → Side → Except Stop (Side × List String)
  | [], none, side => .ok (side, [])
  | [], some _, _ => .error .misuse
  | argument :: rest, some form, side => do
      if ArgumentForm.ofText argument != .text then throw .misuse
      let added ← side.addOption form argument
      readSide forms isCommand capacity rest none added
  | argument :: rest, none, side =>
      if isCommand argument then .ok (side, argument :: rest)
      else
        match ArgumentForm.ofText argument with
        | .ending => do return (← side.addTexts capacity rest, [])
        | .long content => do
            let (added, awaiting) ← side.addLong forms content
            readSide forms isCommand capacity rest awaiting added
        | .letters content => do
            let (added, awaiting) ← side.addLetters forms content
            readSide forms isCommand capacity rest awaiting added
        | .text => do
            let added ← side.addTexts capacity [argument]
            readSide forms isCommand capacity rest none added

/-! ### The whole line -/

inductive Command where
  | sync (recreate : Bool)
  | query (text : String) (options : Commands.QueryOptions)
  | ddl (dialect : String)
  | version
  deriving DecidableEq, Repr

structure Invocation where
  database : Option String
  mapping : Option String
  verbose : Bool
  command : Command
  deriving DecidableEq, Repr

namespace Side

def value? (side : Side) (name : OptionName) : Option String := side.options.lookup name

def has (side : Side) (name : OptionName) : Bool := (side.value? name).isSome

def values (side : Side) (name : OptionName) : List String :=
  (side.options.filter fun entry => entry.1 == name).map Prod.snd

/-- The command that was named, from what stands behind it. -/
def command (side : Side) : CommandName → Except Stop Command
  | .sync => .ok (.sync (side.has .recreate))
  | .query =>
      match side.texts with
      | [] => .error .misuse
      | text :: _ => .ok (.query text {
          parameters := side.values .parameter
          page := ⟨(side.value? .limit).bind count?, (side.value? .offset).bind count?⟩
          format := (side.value? .format).getD "text" })
  | .ddl => .ok (.ddl ((side.value? .dialect).getD "sqlite"))
  | .version => .ok .version
  | .help => .error .help

end Side

def readHelp : List String → Stop
  | [] => .help
  | [topic] => if (CommandName.ofText? topic).isSome then .help else .misuse
  | _ => .misuse

/-- Reads a command line; what is said behind the command counts more than what is said
before it. -/
def read (arguments : List String) : Except Stop Invocation := do
  let isCommand (argument : String) : Bool := (CommandName.ofText? argument).isSome
  let (front, rest) ← readSide frontOptions isCommand 0 arguments none {}
  match rest with
  | [] => throw .misuse
  | word :: others =>
      match CommandName.ofText? word with
      | none => throw .misuse
      | some .help => throw (readHelp others)
      | some name =>
          let (back, _) ← readSide (commonOptions ++ name.options) (fun _ => false)
            name.capacity others none {}
          let command ← back.command name
          return {
            database := back.value? .database <|> front.value? .database
            mapping := back.value? .mapping <|> front.value? .mapping
            verbose := back.has .verbose || front.has .verbose
            command := command }

end CommandLine

end EntityStore
