/-
Statements read as a database reads them, first in pieces: words and numbers, names in double
quotes, literals in single quotes, markers of parameters, and symbols. A quote inside quotes
is doubled. Nothing between quotes is a word, a marker or a symbol, whatever it contains.
-/

import EntityStore.Sql
import EntityStore.Text

set_option autoImplicit false

namespace EntityStore
namespace Sql

inductive Lexeme where
  | word (text : String)
  | quoted (name : String)
  | literal (content : String)
  | marker (text : String)
  | symbol (text : String)
  deriving DecidableEq, Repr

def Lexeme.marker? : Lexeme → Option String
  | marker text => some text
  | _ => none

inductive Piece where
  | none
  | word (text : List Char)
  | marker (text : List Char)
  | angle (first : Char)
  /-- Behind an opening quote. -/
  | inside (mark : Char) (content : List Char)
  /-- Behind a quote that closes, unless another one follows. -/
  | ended (mark : Char) (content : List Char)
  deriving DecidableEq

def isSymbol (character : Char) : Bool :=
  character == '.' || character == ',' || character == '(' || character == ')'
    || character == '=' || character == '*' || character == '-'

/-- What a character that continues no piece begins, and what it already is. -/
def start (character : Char) : Option (List Lexeme × Piece) :=
  if character = ' ' then some ([], .none)
  else if isSymbol character then some ([.symbol character.toString], .none)
  else if character = '?' then some ([.marker "?"], .none)
  else if character = ':' ∨ character = '$' then some ([], .marker [character])
  else if character = '<' ∨ character = '>' then some ([], .angle character)
  else if character = '"' ∨ character = '\'' then some ([], .inside character [])
  else if Text.isWordChar character then some ([], .word [character])
  else none

/-- What a piece is when nothing continues it. -/
def close : Piece → Option (List Lexeme)
  | .none => some []
  | .word text => some [.word (String.ofList text)]
  | .marker text => some [.marker (String.ofList text)]
  | .angle first => some [.symbol first.toString]
  | .inside _ _ => none
  | .ended mark content =>
      if mark = '"' then some [.quoted (String.ofList content)]
      else if mark = '\'' then some [.literal (String.ofList content)]
      else none

/-- The piece that goes on with a character, if it can. -/
def continue? (piece : Piece) (character : Char) : Option (List Lexeme × Piece) :=
  match piece with
  | .none => none
  | .word text => if Text.isWordChar character then some ([], .word (text ++ [character])) else none
  | .marker text =>
      if Text.isWordChar character then some ([], .marker (text ++ [character])) else none
  | .angle first =>
      if character = '=' ∨ first = '<' ∧ character = '>' then
        some ([.symbol (String.ofList [first, character])], .none)
      else none
  | .inside mark content =>
      if character = mark then some ([], .ended mark content)
      else some ([], .inside mark (content ++ [character]))
  | .ended mark content =>
      if character = mark then some ([], .inside mark (content ++ [character])) else none

def step (piece : Piece) (character : Char) : Option (List Lexeme × Piece) :=
  match continue? piece character with
  | some outcome => some outcome
  | none =>
      match close piece, start character with
      | some closed, some (begun, next) => some (closed ++ begun, next)
      | _, _ => none

/-- The lexemes that end within a text, and the piece at its end. -/
def run (piece : Piece) : List Char → Option (List Lexeme × Piece)
  | [] => some ([], piece)
  | character :: rest =>
      match step piece character with
      | none => none
      | some (found, next) =>
          match run next rest with
          | none => none
          | some (others, last) => some (found ++ others, last)

def lexemes (text : List Char) : Option (List Lexeme) :=
  match run .none text with
  | none => none
  | some (found, last) =>
      match close last with
      | none => none
      | some closed => some (found ++ closed)

/-! ### Texts in parts -/

private theorem run_append {piece between last : Piece} {left right : List Char}
    {found others : List Lexeme} (first : run piece left = some (found, between))
    (second : run between right = some (others, last)) :
    run piece (left ++ right) = some (found ++ others, last) := by
  induction left generalizing piece found with
  | nil =>
      cases first
      exact second
  | cons character rest ih =>
      unfold run at first
      split at first
      · cases first
      rename_i begun next stepped
      split at first
      · cases first
      rename_i later end' ran
      cases first
      rw [List.cons_append, run, stepped]
      simp [ih ran]

theorem lexemes_eq_some_iff {text : List Char} {all : List Lexeme} :
    lexemes text = some all ↔ ∃ found last closed,
      run .none text = some (found, last) ∧ close last = some closed ∧ found ++ closed = all := by
  constructor
  · intro read
    unfold lexemes at read
    split at read
    · cases read
    rename_i found last ran
    split at read
    · cases read
    rename_i closed closes
    cases read
    exact ⟨found, last, closed, ran, closes, rfl⟩
  · rintro ⟨found, last, closed, ran, closes, rfl⟩
    simp [lexemes, ran, closes]

inductive Delimits : Char → List Lexeme → Prop where
  | space : Delimits ' ' []
  | point : Delimits '.' [.symbol "."]
  | comma : Delimits ',' [.symbol ","]
  | opening : Delimits '(' [.symbol "("]
  | closing : Delimits ')' [.symbol ")"]

private theorem step_delimiter {piece : Piece} {character : Char} {own closed : List Lexeme}
    (delimits : Delimits character own) (closes : close piece = some closed) :
    step piece character = some (closed ++ own, .none) := by
  have ends : continue? piece character = none := by
    cases piece with
    | none => rfl
    | word text => cases delimits <;> rfl
    | marker text => cases delimits <;> rfl
    | angle first => cases delimits <;> simp [continue?]
    | inside mark content => cases closes
    | ended mark content =>
        simp only [close] at closes
        split at closes
        · rename_i isQuote
          subst isQuote
          cases delimits <;> rfl
        split at closes
        · rename_i isQuote
          subst isQuote
          cases delimits <;> rfl
        · cases closes
  have begins : start character = some (own, .none) := by
    cases delimits <;> rfl
  simp [step, ends, closes, begins]

def Spells (text : String) (found : List Lexeme) : Prop := lexemes text.toList = some found

/-- A text that can stand behind any text of whole lexemes. -/
def Follows (text : String) (found : List Lexeme) : Prop :=
  ∀ front before, Spells front before → Spells (front ++ text) (before ++ found)

/-- A text between delimiters that no piece goes beyond. -/
structure Separates (text : String) (found : List Lexeme) : Prop where
  split : ∃ first rest own others, text.toList = first :: rest ∧ Delimits first own ∧
    run .none rest = some (others, .none) ∧ own ++ others = found

theorem Follows.empty : Follows "" [] := by
  intro front before spells
  simpa using spells

theorem Follows.append {first second : String} {found others : List Lexeme}
    (left : Follows first found) (right : Follows second others) :
    Follows (first ++ second) (found ++ others) := by
  intro front before spells
  rw [← String.append_assoc, ← List.append_assoc]
  exact right _ _ (left _ _ spells)

/-- What stands on both sides of a separator is read apart. -/
theorem Separates.follows {text behind : String} {found others : List Lexeme}
    (separates : Separates text found) (spells : Spells behind others) :
    Follows (text ++ behind) (found ++ others) := by
  intro front before spellsFront
  obtain ⟨first, rest, own, inner, same, delimits, ran, rfl⟩ := separates.split
  obtain ⟨begun, last, closed, ranFront, closes, rfl⟩ := lexemes_eq_some_iff.mp spellsFront
  obtain ⟨later, final, shut, ranBehind, closesBehind, rfl⟩ := lexemes_eq_some_iff.mp spells
  have stepped := step_delimiter delimits closes
  have ranRest := run_append ran ranBehind
  have ranText : run last (first :: (rest ++ behind.toList))
      = some (closed ++ own ++ (inner ++ later), final) := by
    simp [run, stepped, ranRest]
  have ranAll : run .none (front ++ (text ++ behind)).toList
      = some (begun ++ (closed ++ own ++ (inner ++ later)), final) := by
    rw [String.toList_append, String.toList_append, same, List.cons_append]
    exact run_append ranFront ranText
  exact lexemes_eq_some_iff.mpr ⟨_, final, shut, ranAll, closesBehind, by simp⟩

theorem Separates.ends {text : String} {found : List Lexeme} (separates : Separates text found) :
    Follows text found := by
  have nothing : Spells "" [] := rfl
  have follows := separates.follows nothing
  rwa [String.append_empty, List.append_nil] at follows

/-- A text that leaves no piece behind, in front of any other. -/
theorem Spells.behind {front text : String} {before found : List Lexeme}
    (ran : run .none front.toList = some (before, .none)) (spells : Spells text found) :
    Spells (front ++ text) (before ++ found) := by
  obtain ⟨begun, last, closed, ranText, closes, rfl⟩ := lexemes_eq_some_iff.mp spells
  have ranAll : run .none (front ++ text).toList = some (before ++ begun, last) := by
    rw [String.toList_append]
    exact run_append ran ranText
  exact lexemes_eq_some_iff.mpr ⟨_, last, closed, ranAll, closes, List.append_assoc _ _ _⟩

theorem separates_point : Separates "." [.symbol "."] :=
  ⟨'.', [], _, [], rfl, .point, rfl, rfl⟩

theorem separates_comma : Separates ", " [.symbol ","] :=
  ⟨',', [' '], _, _, rfl, .comma, rfl, rfl⟩

theorem separates_space : Separates " " [] := ⟨' ', [], _, [], rfl, .space, rfl, rfl⟩

theorem separates_closing : Separates ")" [.symbol ")"] :=
  ⟨')', [], _, [], rfl, .closing, rfl, rfl⟩

/-! ### Words, markers and quotes -/

theorem start_of_isWordChar {character : Char} (isWordChar : Text.isWordChar character = true) :
    start character = some ([], .word [character]) := by
  have other (symbol : Char) (no : Text.isWordChar symbol = false) : character ≠ symbol := by
    rintro rfl
    rw [isWordChar] at no
    cases no
  simp [start, isSymbol, isWordChar, other ' ' rfl, other '.' rfl, other ',' rfl, other '(' rfl,
    other ')' rfl, other '=' rfl, other '*' rfl, other '-' rfl, other '?' rfl, other ':' rfl,
    other '$' rfl, other '<' rfl, other '>' rfl, other '"' rfl, other '\'' rfl]

private theorem run_wordChars {make : List Char → Piece}
    (goesOn : ∀ text character, Text.isWordChar character = true →
      continue? (make text) character = some ([], make (text ++ [character])))
    (text : List Char) {rest : List Char}
    (areWordChars : ∀ character ∈ rest, Text.isWordChar character = true) :
    run (make text) rest = some ([], make (text ++ rest)) := by
  induction rest generalizing text with
  | nil => simp [run]
  | cons character rest ih =>
      have stepped : step (make text) character = some ([], make (text ++ [character])) := by
        simp [step, goesOn text character (areWordChars character List.mem_cons_self)]
      have ranRest := ih (text ++ [character])
        fun other member => areWordChars other (List.mem_cons_of_mem character member)
      simp [run, stepped, ranRest]

theorem spells_word {first : Char} {rest : List Char}
    (areWordChars : ∀ character ∈ first :: rest, Text.isWordChar character = true) :
    Spells (String.ofList (first :: rest)) [.word (String.ofList (first :: rest))] := by
  have begins := start_of_isWordChar (areWordChars first List.mem_cons_self)
  have goesOn := @run_wordChars .word (fun text character isWordChar => by
    simp [continue?, isWordChar]) [first] rest
    fun other member => areWordChars other (List.mem_cons_of_mem first member)
  apply lexemes_eq_some_iff.mpr
  refine ⟨[], .word (first :: rest), _, ?_, rfl, rfl⟩
  simp [run, step, continue?, close, begins, goesOn]

theorem spells_marker {mark : Char} (isMark : mark = ':' ∨ mark = '$') {rest : List Char}
    (areWordChars : ∀ character ∈ rest, Text.isWordChar character = true) :
    Spells (String.ofList (mark :: rest)) [.marker (String.ofList (mark :: rest))] := by
  have begins : start mark = some ([], .marker [mark]) := by
    rcases isMark with rfl | rfl <;> rfl
  have goesOn := @run_wordChars .marker (fun text character isWordChar => by
    simp [continue?, isWordChar]) [mark] rest areWordChars
  apply lexemes_eq_some_iff.mpr
  refine ⟨[], .marker (mark :: rest), _, ?_, rfl, rfl⟩
  simp [run, step, continue?, close, begins, goesOn]

theorem isWordChar_of_mem_toDigits {number : Nat} {character : Char}
    (member : character ∈ Nat.toDigits 10 number) : Text.isWordChar character = true := by
  have isDigit := Nat.isDigit_of_mem_toDigits (by decide) (by decide) member
  have same : Text.isDigit character = true := by
    simpa [Char.isDigit, Text.isDigit, Char.le_def] using isDigit
  simp [Text.isWordChar, same]

private theorem run_doubled (mark : Char) (content rest : List Char) :
    run (.inside mark content) (doubled mark rest)
      = some ([], .inside mark (content ++ rest)) := by
  induction rest generalizing content with
  | nil => simp [doubled, run]
  | cons character rest ih =>
      have ranRest := ih (content ++ [character])
      unfold doubled
      split
      · rename_i isMark
        subst isMark
        simp [run, step, continue?, ranRest]
      · rename_i other
        simp [run, step, continue?, other, ranRest]

theorem run_enclosed {mark : Char} (isQuote : mark = '"' ∨ mark = '\'') (content : List Char) :
    run .none (mark :: doubled mark content ++ [mark]) = some ([], .ended mark content) := by
  have begins : run .none [mark] = some ([], .inside mark []) := by
    rcases isQuote with rfl | rfl <;> rfl
  have ends : run (.inside mark content) [mark] = some ([], .ended mark content) := by
    simp [run, step, continue?]
  have ran := run_append (run_append begins (run_doubled mark [] content)) ends
  simpa using ran

theorem spells_quote (identifier : String) : Spells (quote identifier) [.quoted identifier] := by
  have ran := run_enclosed (Or.inl rfl) identifier.toList
  apply lexemes_eq_some_iff.mpr
  refine ⟨[], .ended '"' identifier.toList, [.quoted identifier], ?_, ?_, rfl⟩
  · simpa [quote] using ran
  · simp [close]

example : lexemes "t0.\"a?\"\"b\" <= $1".toList
    = some [.word "t0", .symbol ".", .quoted "a?\"b", .symbol "<=", .marker "$1"] := by decide

end Sql
end EntityStore
