/-
The text that creates a table. A database that reads it finds the columns of the mapping in
their order, each once: the primary key first, then a column for each property that has one,
mandatory where it may not be null, and with the default that was mapped. Names and defaults
that contain quotes, commas or parentheses are read as what they are.
-/

import EntityStore.Dialect.Shipped
import EntityStore.Proofs.CacheHistories
import EntityStore.Proofs.Commands
import EntityStore.Proofs.MinimalUpdates
import EntityStore.Proofs.ReadingBack
import EntityStore.Proofs.Specifications

set_option autoImplicit false

namespace EntityStore

open Sql (Lexeme Spells Follows Separates Stays ColumnDefinition)

/-! ### Numbers -/

namespace Sql

def isNumeral (character : Char) : Bool :=
  Text.isDigit character || ['i', 'n', 'f', 'N', 'a'].contains character

def Lexeme.IsNumeric : Lexeme → Prop
  | word text => ∀ character ∈ text.toList, isNumeral character = true
  | symbol text => text = "." ∨ text = "-"
  | _ => False

theorem Lexeme.IsNumeric.begins {lexeme : Lexeme} (isNumeric : lexeme.IsNumeric) :
    beginsConstraint lexeme = false := by
  cases lexeme with
  | word text =>
      have noNot : text ≠ "NOT" := by
        rintro rfl
        exact absurd (isNumeric 'T' (by decide)) (by decide)
      have noPrimary : text ≠ "PRIMARY" := by
        rintro rfl
        exact absurd (isNumeric 'P' (by decide)) (by decide)
      simp [beginsConstraint, noNot, noPrimary]
  | symbol text => simp [beginsConstraint]
  | _ => exact isNumeric.elim

theorem Lexeme.IsNumeric.stays {lexeme : Lexeme} (isNumeric : lexeme.IsNumeric) :
    Stays [lexeme] := by
  cases lexeme with
  | word text => exact stays_word text
  | symbol text =>
      rcases isNumeric with rfl | rfl
      · exact fun _ _ => rfl
      · exact fun _ _ => rfl
  | _ => exact isNumeric.elim

private theorem stays_numeric {found : List Lexeme}
    (areNumeric : ∀ lexeme ∈ found, lexeme.IsNumeric) : Stays found := by
  induction found with
  | nil => exact stays_nil
  | cons lexeme rest ih =>
      exact (areNumeric lexeme List.mem_cons_self).stays.append
        (ih fun other member => areNumeric other (List.mem_cons_of_mem lexeme member))

private theorem isWordChar_of_isNumeral {character : Char}
    (isNumeral' : isNumeral character = true) : Text.isWordChar character = true := by
  unfold isNumeral at isNumeral'
  rw [Bool.or_eq_true, List.contains_iff_mem] at isNumeral'
  rcases isNumeral' with isDigit | isLetter
  · simp [Text.isWordChar, isDigit]
  · simp only [List.mem_cons, List.not_mem_nil, or_false] at isLetter
    rcases isLetter with rfl | rfl | rfl | rfl | rfl <;> decide

inductive Piece.IsNumeric : Piece → Prop where
  | none : IsNumeric .none
  | word {text : List Char} : (∀ character ∈ text, isNumeral character = true) →
      IsNumeric (.word text)

private theorem close_numeric {piece : Piece} (isNumeric : piece.IsNumeric) :
    ∃ closed, close piece = some closed ∧ ∀ lexeme ∈ closed, lexeme.IsNumeric := by
  cases isNumeric with
  | none => exact ⟨[], rfl, fun _ impossible => nomatch impossible⟩
  | @word text areNumerals =>
      refine ⟨_, rfl, List.forall_mem_singleton.mpr fun character member => ?_⟩
      exact areNumerals character (by simpa using member)

private theorem step_numeric {piece : Piece} (isNumeric : piece.IsNumeric) {character : Char}
    (isPart : isNumeral character = true ∨ character = '.' ∨ character = '-') :
    ∃ found next, step piece character = some (found, next) ∧ next.IsNumeric ∧
      ∀ lexeme ∈ found, lexeme.IsNumeric := by
  rcases isPart with isNumeral' | isSymbol'
  · have isWordChar := isWordChar_of_isNumeral isNumeral'
    have begins := start_of_isWordChar isWordChar
    cases isNumeric with
    | none =>
        refine ⟨[], .word [character], ?_, .word (by simpa using isNumeral'), by simp⟩
        simp [step, continue?, close, begins]
    | @word text areNumerals =>
        refine ⟨[], .word (text ++ [character]), ?_, .word ?_, by simp⟩
        · simp [step, continue?, isWordChar]
        · intro other member
          rcases List.mem_append.mp member with isEarlier | isLast
          · exact areNumerals other isEarlier
          · rw [List.mem_singleton.mp isLast]
            exact isNumeral'
  · obtain ⟨closed, closes, areNumeric⟩ := close_numeric isNumeric
    have begins : start character = some ([.symbol character.toString], .none) := by
      rcases isSymbol' with rfl | rfl <;> rfl
    have ends : continue? piece character = none := by
      cases isNumeric with
      | none => rfl
      | word _ => rcases isSymbol' with rfl | rfl <;> rfl
    refine ⟨closed ++ [.symbol character.toString], .none, ?_, .none, ?_⟩
    · simp [step, ends, closes, begins]
    · intro lexeme member
      rcases List.mem_append.mp member with isClosed | isSymbol''
      · exact areNumeric lexeme isClosed
      · rw [List.mem_singleton.mp isSymbol'']
        rcases isSymbol' with rfl | rfl
        · exact Or.inl rfl
        · exact Or.inr rfl

private theorem run_numeric {piece : Piece} (isNumeric : piece.IsNumeric) {text : List Char}
    (areParts : ∀ character ∈ text,
      isNumeral character = true ∨ character = '.' ∨ character = '-') :
    ∃ found last, run piece text = some (found, last) ∧ last.IsNumeric ∧
      ∀ lexeme ∈ found, lexeme.IsNumeric := by
  induction text generalizing piece with
  | nil => exact ⟨[], piece, rfl, isNumeric, fun _ impossible => nomatch impossible⟩
  | cons character rest ih =>
      obtain ⟨found, next, stepped, isNext, areFound⟩ :=
        step_numeric isNumeric (areParts character List.mem_cons_self)
      obtain ⟨others, last, ran, isLast, areOthers⟩ :=
        ih isNext fun other member => areParts other (List.mem_cons_of_mem character member)
      refine ⟨found ++ others, last, by simp [run, stepped, ran], isLast, ?_⟩
      intro lexeme member
      rcases List.mem_append.mp member with isFirst | isLater
      · exact areFound lexeme isFirst
      · exact areOthers lexeme isLater

private theorem spells_numeric {text : String} (areParts : ∀ character ∈ text.toList,
    isNumeral character = true ∨ character = '.' ∨ character = '-') :
    ∃ found, Spells text found ∧ ∀ lexeme ∈ found, lexeme.IsNumeric := by
  obtain ⟨found, last, ran, isLast, areFound⟩ := run_numeric .none areParts
  obtain ⟨closed, closes, areClosed⟩ := close_numeric isLast
  refine ⟨found ++ closed, lexemes_eq_some_iff.mpr ⟨found, last, closed, ran, closes, rfl⟩, ?_⟩
  intro lexeme member
  rcases List.mem_append.mp member with isFound | isClosed
  · exact areFound lexeme isFound
  · exact areClosed lexeme isClosed

private theorem isNumeral_of_mem_toDigits {number : Nat} {character : Char}
    (member : character ∈ Nat.toDigits 10 number) : isNumeral character = true := by
  have isDigit := Key.isDigit_of_mem member
  have same : Text.isDigit character = true := by
    simpa [Char.isDigit, Text.isDigit, Char.le_def] using isDigit
  simp [isNumeral, same]

private theorem spells_digits (number : Nat) :
    ∃ word, word = String.ofList (Nat.toDigits 10 number) ∧ Spells word [.word word] ∧
      readDigits word = some number ∧ (Lexeme.word word).IsNumeric := by
  refine ⟨_, rfl, ?_, ?_, ?_⟩
  · obtain ⟨first, rest, same⟩ := List.exists_cons_of_ne_nil
      (@Nat.toDigits_ne_nil number 10)
    rw [same]
    refine spells_word fun character member => ?_
    exact isWordChar_of_mem_toDigits (same ▸ member)
  · unfold readDigits
    rw [String.toList_ofList, if_pos, Nat.ofDigitChars_ten_toDigits]
    rw [List.all_eq_true]
    intro character member
    have isDigit := Key.isDigit_of_mem member
    simpa [Char.isDigit, Text.isDigit, Char.le_def] using isDigit
  · intro character member
    rw [String.toList_ofList] at member
    exact isNumeral_of_mem_toDigits member

end Sql

theorem Double.isNumeral_of_positional {digits : List Char}
    (areNumerals : ∀ character ∈ digits, Sql.isNumeral character = true) (point : Int) :
    ∀ character ∈ positional digits point false,
      Sql.isNumeral character = true ∨ character = '.' := by
  have zeros (count : Nat) : ∀ character ∈ List.replicate count '0',
      Sql.isNumeral character = true := by
    intro character member
    rw [List.eq_of_mem_replicate member]
    decide
  intro character member
  unfold positional at member
  dsimp only at member
  split at member
  · simp only [List.mem_append, List.mem_cons, List.not_mem_nil, or_false] at member
    rcases member with ((rfl | rfl) | isZero) | isDigit
    · exact Or.inl (by decide)
    · exact Or.inr rfl
    · exact Or.inl (zeros _ character isZero)
    · exact Or.inl (areNumerals character isDigit)
  split at member
  · simp only [Bool.false_eq_true, if_false, List.append_nil, List.mem_append] at member
    rcases member with isDigit | isZero
    · exact Or.inl (areNumerals character isDigit)
    · exact Or.inl (zeros _ character isZero)
  · simp only [List.mem_append, List.mem_singleton] at member
    rcases member with (isTaken | isPoint) | isDropped
    · exact Or.inl (areNumerals character (List.mem_of_mem_take isTaken))
    · exact Or.inr isPoint
    · exact Or.inl (areNumerals character (List.mem_of_mem_drop isDropped))

theorem Double.isNumeral_of_plain (number : Double) :
    ∀ character ∈ (number.text .plain).toList,
      Sql.isNumeral character = true ∨ character = '.' ∨ character = '-' := by
  have magnitude : ∀ character ∈ number.magnitudeText .plain,
      Sql.isNumeral character = true ∨ character = '.' := by
    have always (point : Int) : Layout.plain.isPositional point = true := rfl
    unfold magnitudeText
    split
    · exact fun character member => Or.inl (by rw [List.mem_singleton.mp member]; decide)
    · dsimp only
      rw [if_pos (always _)]
      exact isNumeral_of_positional (fun _ => Sql.isNumeral_of_mem_toDigits) _
  have numerals {text : List Char} (are : text.all Sql.isNumeral = true) :
      ∀ character ∈ text, Sql.isNumeral character = true := List.all_eq_true.mp are
  unfold text
  split
  · exact fun character member =>
      Or.inl (numerals (by decide : "NaN".toList.all Sql.isNumeral = true) character member)
  · dsimp only
    have unsigned : ∀ character ∈
        (if number.isInfinite then ['i', 'n', 'f'] else number.magnitudeText .plain),
        Sql.isNumeral character = true ∨ character = '.' := by
      split
      · exact fun character member => Or.inl (numerals (by decide) character member)
      · exact magnitude
    intro character member
    rw [String.toList_ofList] at member
    split at member
    · rcases List.mem_cons.mp member with isSign | isLater
      · exact Or.inr (Or.inr isSign)
      · exact (unsigned character isLater).imp_right Or.inl
    · exact (unsigned character member).imp_right Or.inl

/-! ### Defaults -/

structure Sql.SpellsLiteral (text : String) (content : List Lexeme) : Prop where
  spells : Spells text content
  plain : ∀ lexeme ∈ content, Sql.beginsConstraint lexeme = false
  stays : Stays content

theorem Sql.spellsLiteral_numeric {text : String} {found : List Lexeme} (spells : Spells text found)
    (areNumeric : ∀ lexeme ∈ found, lexeme.IsNumeric) : SpellsLiteral text found :=
  ⟨spells, fun lexeme member => (areNumeric lexeme member).begins, stays_numeric areNumeric⟩

theorem Sql.spellsLiteral_integer (number : Int64) :
    ∃ content, SpellsLiteral (toString number.toInt) content ∧
      readLiteral content = some (.integer number) := by
  have text := Key.toList_repr number.toInt
  split at text
  · rename_i isNatural
    obtain ⟨word, rfl, spells, reads, isNumeric⟩ := spells_digits number.toInt.toNat
    have same : toString number.toInt = String.ofList (Nat.toDigits 10 number.toInt.toNat) :=
      String.toList_injective (text.trans String.toList_ofList.symm)
    refine ⟨_, spellsLiteral_numeric (same ▸ spells) (List.forall_mem_singleton.mpr isNumeric), ?_⟩
    simp only [readLiteral, reads]
    rw [Int.toNat_of_nonneg isNatural, Int64.ofInt_toInt]
  · rename_i isNegative
    obtain ⟨word, rfl, spells, reads, isNumeric⟩ := spells_digits (-number.toInt).toNat
    have same : toString number.toInt
        = "-" ++ String.ofList (Nat.toDigits 10 (-number.toInt).toNat) := by
      apply String.toList_injective
      rw [String.toList_append, String.toList_ofList, String.toList_ofList]
      exact text
    have sign : Sql.run .none "-".toList = some ([.symbol "-"], .none) := rfl
    refine ⟨_, spellsLiteral_numeric (same ▸ spells.behind sign) ?_, ?_⟩
    · exact List.forall_mem_cons.mpr ⟨Or.inr rfl, List.forall_mem_singleton.mpr isNumeric⟩
    · simp only [List.singleton_append, readLiteral, reads, Option.map_some]
      have value : -(((-number.toInt).toNat : Nat) : Int) = number.toInt := by omega
      rw [value, Int64.ofInt_toInt]

theorem Sql.spells_textLiteral (content : String) :
    Spells (textLiteral content) [.literal content] := by
  have ran := run_enclosed (Or.inr rfl) content.toList
  apply lexemes_eq_some_iff.mpr
  refine ⟨[], .ended '\'' content.toList, [.literal content], ?_, ?_, rfl⟩
  · simpa [textLiteral] using ran
  · simp [close]

/-- A literal is read as the value that it was written for. -/
theorem Dialect.spellsLiteral (value : Value) (noBytes : ∀ content, value ≠ .bytes content) :
    ∃ content, Sql.SpellsLiteral (plainLiteral value) content ∧
      ((∀ number, value ≠ .float number) → Sql.readLiteral content = some value) := by
  cases value with
  | null => exact ⟨[.word "NULL"], ⟨rfl, by decide, Sql.stays_word _⟩, fun _ => rfl⟩
  | boolean flag =>
      cases flag with
      | true => exact ⟨[.word "TRUE"], ⟨rfl, by decide, Sql.stays_word _⟩, fun _ => rfl⟩
      | false => exact ⟨[.word "FALSE"], ⟨rfl, by decide, Sql.stays_word _⟩, fun _ => rfl⟩
  | integer number =>
      obtain ⟨content, spells, reads⟩ := Sql.spellsLiteral_integer number
      exact ⟨content, spells, fun _ => reads⟩
  | float number =>
      obtain ⟨found, spells, areNumeric⟩ := Sql.spells_numeric number.isNumeral_of_plain
      exact ⟨found, Sql.spellsLiteral_numeric spells areNumeric,
        fun noFloat => absurd rfl (noFloat number)⟩
  | text content =>
      exact ⟨[.literal content], ⟨Sql.spells_textLiteral content, by simp [Sql.beginsConstraint],
        Sql.stays_literal content⟩, fun _ => rfl⟩
  | bytes content => exact absurd rfl (noBytes content)

/-! ### Types -/

structure Sql.SpellsType (text : String) (type : List Lexeme) : Prop where
  spells : Spells text type
  plain : ∀ lexeme ∈ type, Sql.beginsConstraint lexeme = false ∧ lexeme ≠ .word "DEFAULT"
  stays : Stays type

def Sql.isTypeText (text : String) : Bool :=
  match lexemes text.toList with
  | none => false
  | some type => isClosed 0 type &&
      type.all fun lexeme => !beginsConstraint lexeme && lexeme != .word "DEFAULT"

theorem Sql.spellsType_of_isTypeText {text : String} (isType : isTypeText text = true) :
    ∃ type, SpellsType text type := by
  unfold isTypeText at isType
  split at isType
  · cases isType
  rename_i type read
  rw [Bool.and_eq_true, List.all_eq_true] at isType
  exact ⟨type, read, fun lexeme member => by simpa using isType.2 lexeme member,
    stays_of_isClosed isType.1⟩

theorem Sql.spellsType_sized {text : String} {type : List Lexeme} (spells : SpellsType text type)
    (size : Nat) : ∃ sized, SpellsType (text ++ "(" ++ toString size ++ ")") sized := by
  obtain ⟨word, rfl, spellsSize, _, isNumeric⟩ := spells_digits size
  have digits : toString size = String.ofList (Nat.toDigits 10 size) :=
    String.toList_injective ((Nat.toList_repr).trans String.toList_ofList.symm)
  generalize String.ofList (Nat.toDigits 10 size) = word at spellsSize isNumeric digits
  have separates : Separates "(" [.symbol "("] := ⟨'(', [], _, [], rfl, .opening, rfl, rfl⟩
  have follows := (separates.follows spellsSize).append separates_closing.ends
  have whole := follows _ _ spells.spells
  refine ⟨type ++ [.symbol "(", .word word, .symbol ")"], ?_, ?_,
    spells.stays.append (stays_of_isClosed rfl)⟩
  · rw [digits]
    simpa [String.append_assoc] using whole
  · intro lexeme member
    rcases List.mem_append.mp member with isType | isSize
    · exact spells.plain lexeme isType
    · simp only [List.mem_cons, List.not_mem_nil, or_false] at isSize
      rcases isSize with rfl | rfl | rfl
      · exact ⟨rfl, by decide⟩
      · refine ⟨isNumeric.begins, fun isDefault => ?_⟩
        have noDigit := isNumeric 'D' (by rw [Lexeme.word.inj isDefault]; decide)
        exact absurd noDigit (by decide)
      · exact ⟨rfl, by decide⟩

structure Dialect.Defines (dialect : Dialect) : Prop where
  types : ∀ type, ∃ column, dialect.columnType type = some column ∧
    Sql.isTypeText column.sqlName = true
  key : ∀ (column : String) (draws : Bool), ∃ (type : String) (generated : Bool),
    Sql.isTypeText type = true ∧
    dialect.idColumn column draws = Sql.quote column ++ (" " ++ type) ++ " PRIMARY KEY"
      ++ (if generated then " AUTOINCREMENT" else "")
  booleans : ∀ flag, (∃ same, dialect.booleanValue flag = .boolean same) ∨
    ∃ number, dialect.booleanValue flag = .integer number

theorem Dialect.defines_sqlite : Dialect.sqlite.Defines := by
  refine ⟨fun type => ?_, fun column draws => ⟨"INTEGER", true, by decide, ?_⟩,
    fun flag => Or.inr ⟨_, rfl⟩⟩
  · cases type <;> exact ⟨_, rfl, by decide⟩
  · simp only [Dialect.sqlite, if_true, String.append_assoc]
    rfl

theorem Dialect.defines_postgres : Dialect.postgres.Defines := by
  refine ⟨fun type => ?_, fun column draws => ?_, fun flag => Or.inl ⟨_, rfl⟩⟩
  · cases type <;> exact ⟨_, rfl, by decide⟩
  · cases draws with
    | true =>
        refine ⟨"bigint", false, by decide, ?_⟩
        simp only [Dialect.postgres, if_true, String.append_assoc]
        rfl
    | false =>
        refine ⟨"bigserial", false, by decide, ?_⟩
        simp only [Dialect.postgres, String.append_assoc]
        rfl

theorem Dialect.defines_oracle : Dialect.oracle.Defines := by
  refine ⟨fun type => ?_, fun column draws => ⟨"number(19,0)", false, by decide, ?_⟩,
    fun flag => Or.inr ⟨_, rfl⟩⟩
  · cases type <;> exact ⟨_, rfl, by decide⟩
  · simp only [Dialect.oracle, String.append_assoc]
    rfl

theorem Dialect.defines_of_ofName? {name : String} {dialect : Dialect}
    (isShipped : Dialect.ofName? name = some dialect) : dialect.Defines := by
  unfold Dialect.ofName? at isShipped
  dsimp only at isShipped
  split at isShipped
  · cases isShipped
    exact Dialect.defines_sqlite
  split at isShipped
  · cases isShipped
    exact Dialect.defines_postgres
  split at isShipped
  · cases isShipped
    exact Dialect.defines_oracle
  · cases isShipped

/-! ### Columns -/

/-- What belongs to the columns of a mapping one by one is named as they are. -/
theorem Mapping.names_of_columnProperties {α : Type} {mapping : Mapping}
    {relates : Property → α → Prop} {name : α → String} {images : List α}
    (named : ∀ property image, relates property image → property.column? = some (name image))
    (related : List.Forall₂ relates mapping.columnProperties images) :
    images.map name = mapping.properties.filterMap Property.column? := by
  have owned : mapping.properties.filterMap Property.column?
      = mapping.columnProperties.filterMap Property.column? := by
    unfold columnProperties
    rw [List.filterMap_filter]
    refine List.filterMap_congr fun property _ => ?_
    cases property <;> rfl
  rw [owned]
  generalize mapping.columnProperties = properties at related
  induction related with
  | nil => rfl
  | cons relatedFirst _ ih =>
      rw [List.map_cons, List.filterMap_cons_some (named _ _ relatedFirst), ih]

namespace Dialect

/-- The default of a column as a database reads it. Of fractions no more is said than that they
are a default. -/
inductive DefaultAs (dialect : Dialect) : Option Value → Option (List Lexeme) → Prop where
  | none : DefaultAs dialect none none
  | some {value : Value} {content : List Lexeme} :
      ((∀ number, value ≠ .float number) →
        Sql.readLiteral content = some (dialect.stored value)) →
      DefaultAs dialect (some value) (some content)

inductive DefinedAs (dialect : Dialect) : Property → ColumnDefinition → Prop where
  | scalar {property : ScalarProperty} {text : String} {type : List Lexeme}
      {default : Option (List Lexeme)} :
      dialect.columnDefinition property.type property.length = .ok text →
      Sql.lexemes text.toList = some type → dialect.DefaultAs property.default default →
      DefinedAs dialect (.scalar property) ⟨property.column, type, default,
        if property.nullable then .optional else .mandatory⟩
  | object {relation : ObjectRelation} {text : String} {type : List Lexeme} :
      dialect.columnDefinition .long none = .ok text → Sql.lexemes text.toList = some type →
      DefinedAs dialect (.object relation) ⟨relation.column, type, none,
        if relation.nullable then .optional else .mandatory⟩

theorem DefinedAs.named {dialect : Dialect} {property : Property} {column : ColumnDefinition}
    (defined : dialect.DefinedAs property column) : property.column? = some column.name := by
  cases defined <;> rfl

variable {dialect : Dialect}

theorem Defines.columnDefinition (defines : dialect.Defines) (type : ScalarType)
    (length : Option Nat) : ∃ text found, dialect.columnDefinition type length = .ok text ∧
      Sql.SpellsType text found := by
  obtain ⟨column, isColumn, isType⟩ := defines.types type
  obtain ⟨found, spells⟩ := Sql.spellsType_of_isTypeText isType
  unfold Dialect.columnDefinition
  rw [isColumn]
  dsimp only
  cases length <|> column.defaultLength with
  | none => exact ⟨_, found, rfl, spells⟩
  | some size =>
      obtain ⟨sized, spellsSized⟩ := Sql.spellsType_sized spells size
      exact ⟨_, sized, rfl, spellsSized⟩

theorem Defines.stored_cases (defines : dialect.Defines) (value : Value) :
    dialect.stored value = value ∨ (∃ flag, dialect.stored value = .boolean flag) ∨
      ∃ number, dialect.stored value = .integer number := by
  cases value with
  | boolean flag => exact Or.inr (defines.booleans flag)
  | _ => exact Or.inl rfl

theorem Defines.follows_default (defines : dialect.Defines) {default : Option Value}
    (noBytes : ∀ content, default ≠ some (.bytes content)) :
    ∃ found, Follows (match default with
        | some value => " DEFAULT " ++ dialect.literal value
        | none => "") (Sql.defaultLexemes found) ∧
      (∀ content ∈ found, (∀ lexeme ∈ content, Sql.beginsConstraint lexeme = false) ∧
        Stays content) ∧
      dialect.DefaultAs default found := by
  cases default with
  | none => exact ⟨none, .empty, by simp, .none⟩
  | some value =>
      have storedKind := defines.stored_cases value
      have noStoredBytes : ∀ content, dialect.stored value ≠ .bytes content := by
        intro content same
        rw [same] at storedKind
        rcases storedKind with isBytes | ⟨_, impossible⟩ | ⟨_, impossible⟩
        · exact noBytes content (congrArg some isBytes.symm)
        · cases impossible
        · cases impossible
      obtain ⟨content, spells, reads⟩ :=
        Dialect.spellsLiteral (dialect.stored value) noStoredBytes
      have separates : Separates " DEFAULT " [.word "DEFAULT"] :=
        ⟨' ', "DEFAULT ".toList, [], _, rfl, .space, rfl, rfl⟩
      refine ⟨some content, separates.follows spells.spells, ?_,
        .some fun noFloat => reads fun number same => ?_⟩
      · rintro _ ⟨⟩
        exact ⟨spells.plain, spells.stays⟩
      · rw [same] at storedKind
        rcases storedKind with isFloat | ⟨_, impossible⟩ | ⟨_, impossible⟩
        · exact noFloat number isFloat.symm
        · cases impossible
        · cases impossible

private theorem follows_constraint (nullable : Bool) :
    Follows (if nullable then "" else " NOT NULL")
      (if nullable then Sql.ColumnConstraint.optional else .mandatory).lexemes := by
  cases nullable with
  | true => exact .empty
  | false =>
      have spells : Spells "NOT NULL" [.word "NOT", .word "NULL"] := rfl
      have split : " NOT NULL" = " " ++ "NOT NULL" := rfl
      have follows := Sql.separates_space.follows spells
      rw [← split] at follows
      exact follows

theorem Defines.propertyColumn (defines : dialect.Defines) (property : Property)
    (noBytes : ∀ plain content, property = .scalar plain → plain.default ≠ some (.bytes content)) :
    (property.column? = none ∧ dialect.propertyColumn property = .ok none) ∨
      ∃ text column, dialect.propertyColumn property = .ok (some text) ∧
        Spells text column.lexemes ∧ column.Plain ∧ dialect.DefinedAs property column := by
  cases property with
  | collection relation => exact Or.inl ⟨rfl, rfl⟩
  | scalar property =>
      obtain ⟨text, type, isType, spellsType⟩ :=
        defines.columnDefinition property.type property.length
      obtain ⟨found, followsDefault, plainDefault, isDefault⟩ :=
        defines.follows_default fun content => noBytes property content rfl
      have follows := ((Sql.separates_space.follows spellsType.spells).append
        followsDefault).append (follows_constraint property.nullable)
      have spells := follows _ _ (Sql.spells_quote property.column)
      refine Or.inr ⟨_, _, by simp only [Dialect.propertyColumn, isType]; rfl, ?_,
        ⟨spellsType.plain, fun content given => (plainDefault content given).1,
          spellsType.stays, fun content given => (plainDefault content given).2⟩,
        .scalar isType spellsType.spells isDefault⟩
      simp only [ColumnDefinition.lexemes, List.nil_append, List.singleton_append,
        List.append_assoc, String.append_assoc] at spells ⊢
      exact spells
  | object relation =>
      obtain ⟨text, type, isType, spellsType⟩ := defines.columnDefinition .long none
      have follows := (Sql.separates_space.follows spellsType.spells).append
        (follows_constraint relation.nullable)
      have spells := follows _ _ (Sql.spells_quote relation.column)
      refine Or.inr ⟨_, _, by simp only [Dialect.propertyColumn, isType]; rfl, ?_,
        ⟨spellsType.plain, by simp, spellsType.stays, by simp⟩,
        .object isType spellsType.spells⟩
      simpa only [ColumnDefinition.lexemes, Sql.defaultLexemes, List.nil_append,
        List.singleton_append, List.append_assoc, String.append_assoc] using spells

theorem Defines.propertyColumns (defines : dialect.Defines) {properties : List Property}
    (noBytes : ∀ plain content, .scalar plain ∈ properties →
      plain.default ≠ some (.bytes content)) :
    ∃ texts columns, dialect.propertyColumns properties = .ok texts ∧
      List.Forall₂ (fun text (column : ColumnDefinition) => Spells text column.lexemes)
        texts columns ∧
      (∀ column ∈ columns, column.Plain) ∧
      List.Forall₂ dialect.DefinedAs
        (properties.filter fun property => property.column?.isSome) columns := by
  induction properties with
  | nil => exact ⟨[], [], rfl, .nil, by simp, .nil⟩
  | cons property rest ih =>
      obtain ⟨texts, columns, written, spells, plain, defined⟩ :=
        ih fun plain content member => noBytes plain content (List.mem_cons_of_mem property member)
      rcases defines.propertyColumn property fun plain content same =>
        noBytes plain content (same ▸ List.mem_cons_self) with
        ⟨noColumn, isNone⟩ | ⟨text, column, isText, spellsText, isPlain, isDefined⟩
      · refine ⟨texts, columns, ?_, spells, plain, ?_⟩
        · simp only [Dialect.propertyColumns, isNone, written]
          rfl
        · rw [List.filter_cons_of_neg (by simp [noColumn])]
          exact defined
      · refine ⟨text :: texts, column :: columns, ?_, .cons spellsText spells,
          List.forall_mem_cons.mpr ⟨isPlain, plain⟩, ?_⟩
        · simp only [Dialect.propertyColumns, isText, written]
          rfl
        · rw [List.filter_cons_of_pos (by simp [isDefined.named])]
          exact .cons isDefined defined

end Dialect

/-! ### Tables -/

private theorem spells_commas {texts : List String} {found : List (List Lexeme)}
    (spell : List.Forall₂ Spells texts found) (some' : texts ≠ []) :
    Spells (Sql.commaSeparated texts) (Sql.commas found) := by
  induction spell with
  | nil => exact absurd rfl some'
  | @cons text first texts others spells rest ih =>
      cases rest with
      | nil => simpa [Sql.commaSeparated, Sql.commas] using spells
      | @cons second _ _ _ spellsSecond later =>
          have follows := Sql.separates_comma.follows (ih (List.cons_ne_nil _ _))
          have whole := follows _ _ spells
          simpa [Sql.commaSeparated, Sql.commas, String.append_assoc] using whole

theorem Statement.tableLexemes_eq (mapping : Mapping) :
    tableLexemes mapping = Sql.nameLexemes (tableOf mapping) := by
  unfold tableLexemes Sql.nameLexemes tableOf
  cases mapping.schema <;> rfl

theorem Statement.spells_name (mapping : Mapping) :
    Spells (Query.tableText mapping) (Sql.nameLexemes (tableOf mapping)) :=
  tableLexemes_eq mapping ▸ spells_table mapping

theorem Dialect.Defines.idColumn {dialect : Dialect} (defines : dialect.Defines) (column : String)
    (draws : Bool) : ∃ type generated,
      Spells (dialect.idColumn column draws)
        (⟨column, type, none, .key generated⟩ : ColumnDefinition).lexemes ∧
      (⟨column, type, none, .key generated⟩ : ColumnDefinition).Plain := by
  obtain ⟨text, generated, isType, written⟩ := defines.key column draws
  obtain ⟨type, spellsType⟩ := Sql.spellsType_of_isTypeText isType
  have key : Follows (" PRIMARY KEY" ++ (if generated then " AUTOINCREMENT" else ""))
      (Sql.ColumnConstraint.key generated).lexemes := by
    have spells : Spells "PRIMARY KEY" [.word "PRIMARY", .word "KEY"] := rfl
    have isKey := Sql.separates_space.follows spells
    have split : " PRIMARY KEY" = " " ++ "PRIMARY KEY" := rfl
    rw [← split] at isKey
    cases generated with
    | false => exact isKey.append .empty
    | true =>
        have spellsGenerated : Spells "AUTOINCREMENT" [.word "AUTOINCREMENT"] := rfl
        have splitGenerated : " AUTOINCREMENT" = " " ++ "AUTOINCREMENT" := rfl
        have follows := Sql.separates_space.follows spellsGenerated
        rw [← splitGenerated] at follows
        exact isKey.append follows
  have follows := (Sql.separates_space.follows spellsType.spells).append key
  have spells := follows _ _ (Sql.spells_quote column)
  refine ⟨type, generated, ?_, ⟨spellsType.plain, by simp, spellsType.stays, by simp⟩⟩
  rw [written]
  simpa only [ColumnDefinition.lexemes, Sql.defaultLexemes, List.nil_append, List.singleton_append,
    List.append_assoc, String.append_assoc] using spells

/-- The table of a mapping as a database reads the text that creates it: the key, and then a
column for each property that has one, in order. -/
theorem Dialect.Defines.createTable {dialect : Dialect} (defines : dialect.Defines)
    {mapping : Mapping} (noBytes : ∀ plain content, .scalar plain ∈ mapping.properties →
      plain.default ≠ some (.bytes content)) :
    ∃ statement key columns, Statement.createTable dialect mapping = .ok statement ∧
      statement.values = [] ∧
      Sql.command? statement.text
        = some (.create (Statement.tableOf mapping) (key :: columns)) ∧
      key.name = mapping.id.column ∧ key.default = none ∧
      (∃ generated, key.constraint = .key generated) ∧
      List.Forall₂ dialect.DefinedAs mapping.columnProperties columns := by
  obtain ⟨texts, columns, written, spells, plain, defined⟩ := defines.propertyColumns noBytes
  obtain ⟨type, generated, spellsKey, plainKey⟩ :=
    defines.idColumn mapping.id.column (dialect.drawsIds mapping)
  generalize isKey : (⟨mapping.id.column, type, none, .key generated⟩ : ColumnDefinition) = key
    at spellsKey plainKey
  have all : List.Forall₂ Spells
      (dialect.idColumn mapping.id.column (dialect.drawsIds mapping) :: texts)
      ((key :: columns).map ColumnDefinition.lexemes) :=
    .cons spellsKey (List.forall₂_map_right_iff.mpr spells)
  have creates : Sql.run .none "CREATE TABLE ".toList
      = some ([.word "CREATE", .word "TABLE"], .none) := rfl
  have opens : Separates " (" [.symbol "("] := ⟨' ', ['('], [], _, rfl, .space, rfl, rfl⟩
  have follows := (opens.follows (spells_commas all (List.cons_ne_nil _ _))).append
    Sql.separates_closing.ends
  have whole := follows _ _ ((Statement.spells_name mapping).behind creates)
  obtain ⟨text, isText, spellsText⟩ : ∃ text,
      dialect.createTable mapping mapping.schema = .ok text ∧
      Spells text (Sql.Command.create (Statement.tableOf mapping) (key :: columns)).lexemes := by
    refine ⟨_, by simp only [Dialect.createTable, written]; rfl, ?_⟩
    simpa [Query.tableText, Sql.Command.lexemes, String.append_assoc] using whole
  refine ⟨⟨text, [], .createTable (Statement.tableOf mapping) mapping.id.column
    (mapping.properties.filterMap Statement.columnSpec?)⟩, key, columns, ?_, rfl,
    Sql.command?_of_spells ⟨List.cons_ne_nil _ _, List.forall_mem_cons.mpr ⟨plainKey, plain⟩⟩
      spellsText, ?_, ?_, ?_, defined⟩
  · simp only [Statement.createTable, isText]
    rfl
  · rw [← isKey]
  · rw [← isKey]
  · rw [← isKey]
    exact ⟨generated, rfl⟩

end EntityStore
