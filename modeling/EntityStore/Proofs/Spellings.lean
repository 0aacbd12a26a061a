/-
How tokens are spelled. Where a text does not begin with a blank, the token that is taken there
is the one that is spelled there and does not go on behind. So tokens that are written one
after the other with blanks between them are read as they were written, each with the byte
offset at which it stands.
-/

import EntityStore.Proofs.CacheHistories
import EntityStore.Proofs.CharacterBytes
import EntityStore.Sql

set_option autoImplicit false

namespace EntityStore

/-! ### Runs of characters -/

/-- The longest run of characters of a kind is followed by none of them. -/
theorem takeWhile_dropWhile_iff {p : Char → Bool} {text inner rest : List Char} :
    text.takeWhile p = inner ∧ text.dropWhile p = rest ↔
      text = inner ++ rest ∧ (∀ character ∈ inner, p character = true) ∧
        rest.head?.any p = false := by
  constructor
  · rintro ⟨rfl, rfl⟩
    refine ⟨List.takeWhile_append_dropWhile.symm, List.all_eq_true.mp List.all_takeWhile, ?_⟩
    have stops := List.head?_dropWhile_not p text
    cases ahead : (text.dropWhile p).head? with
    | none => rfl
    | some next => simpa [ahead] using stops
  · rintro ⟨rfl, inside, stops⟩
    rw [List.takeWhile_append_of_pos inside, List.dropWhile_append_of_pos inside]
    cases rest with
    | nil => simp
    | cons next rest =>
        have other : p next = false := stops
        simp [other]

namespace Token

/-! ### Spellings -/

inductive IsName : List Char → Prop where
  | name {first : Char} {rest : List Char} : Text.isDigit first = false →
      (∀ character ∈ first :: rest, Text.isWordChar character = true) → IsName (first :: rest)

/-- How a token other than a float is written: integers in decimal, strings in single quotes
with each quote inside doubled. -/
inductive Written : TokenKind → List Char → Prop where
  | word {name : String} : IsName name.toList → Written (.word name) name.toList
  | integer (number : Int64) : Written (.integer number) (toString number.toInt).toList
  | string (content : String) : Written (.string content) (Sql.textLiteral content).toList
  | named {name : String} : IsName name.toList → Written (.named name) (':' :: name.toList)
  | positional : Written .positional ['?']
  | dot : Written .dot ['.']
  | comma : Written .comma [',']
  | leftParenthesis : Written .leftParenthesis ['(']
  | rightParenthesis : Written .rightParenthesis [')']
  | equal : Written .equal ['=']
  | unequal : Written .unequal ['!', '=']
  | lessOrGreater : Written .unequal ['<', '>']
  | less : Written .less ['<']
  | atMost : Written .atMost ['<', '=']
  | greater : Written .greater ['>']
  | atLeast : Written .atLeast ['>', '=']

def signed (negative : Bool) (text : List Char) : List Char :=
  if negative then '-' :: text else text

def AreDigits (digits : List Char) : Prop :=
  digits ≠ [] ∧ ∀ digit ∈ digits, Text.isDigit digit = true

inductive Spelling : TokenKind → List Char → Prop where
  | written {kind : TokenKind} {text : List Char} : Written kind text → Spelling kind text
  | integer {negative : Bool} {digits : List Char} {number : Int64} : AreDigits digits →
      integerOf? negative digits = some number →
      Spelling (.integer number) (signed negative digits)
  | float {negative : Bool} {whole fraction : List Char} : AreDigits whole →
      AreDigits fraction →
      Spelling (.float (Double.ofDecimal negative (digitsValue (whole ++ fraction))
        (-fraction.length))) (signed negative (whole ++ '.' :: fraction))

/-- What stands behind a token belongs to a longer one. -/
def goesOn (kind : TokenKind) (behind : List Char) : Bool :=
  match kind with
  | .word _ | .named _ => behind.head?.any Text.isWordChar
  | .integer _ => behind.head?.any Text.isDigit || (fraction? behind).isSome
  | .float _ => behind.head?.any Text.isDigit
  | .string _ => behind.head? == some '\''
  | .less => behind.head? == some '=' || behind.head? == some '>'
  | .greater => behind.head? == some '='
  | _ => false

private theorem goesOn_integer (number : Int64) (behind : List Char) :
    goesOn (.integer number) behind
      = (behind.head?.any Text.isDigit || (fraction? behind).isSome) := rfl

private theorem goesOn_string (content : String) (behind : List Char) :
    goesOn (.string content) behind = (behind.head? == some '\'') := rfl

private theorem goesOn_less (behind : List Char) :
    goesOn .less behind = (behind.head? == some '=' || behind.head? == some '>') := rfl

private theorem goesOn_greater (behind : List Char) :
    goesOn .greater behind = (behind.head? == some '=') := rfl

/-- No token goes on with a blank. -/
theorem goesOn_eq_false_of_blank (kind : TokenKind) {behind : List Char}
    (blank : ∀ next ∈ behind.head?, isBlank next = true) : goesOn kind behind = false := by
  cases behind with
  | nil => cases kind <;> rfl
  | cons next behind =>
      have isBlank := blank next rfl
      simp only [Token.isBlank, Bool.or_eq_true, beq_iff_eq] at isBlank
      obtain (((rfl | rfl) | rfl) | rfl) | rfl := isBlank <;> cases kind <;> rfl

/-! ### Numbers -/

private theorem digitsValue_toDigits (number : Nat) :
    digitsValue (Nat.toDigits 10 number) = number := by
  have same : digitsValue (Nat.toDigits 10 number)
      = Nat.ofDigitChars 10 (Nat.toDigits 10 number) 0 := by
    unfold digitsValue Nat.ofDigitChars
    congr 1
    funext total digit
    rw [Nat.mul_comm]
    rfl
  rw [same, Nat.ofDigitChars_ten_toDigits]

private theorem areDigits_toDigits (number : Nat) : AreDigits (Nat.toDigits 10 number) := by
  refine ⟨Nat.toDigits_ne_nil, fun digit member => ?_⟩
  have isDigit := Key.isDigit_of_mem member
  simpa [Char.isDigit, Text.isDigit, Char.le_def] using isDigit

private theorem integerOf?_eq_some {negative : Bool} {digits : List Char} {number : Int64}
    (value : (if negative then -(digitsValue digits : Int) else digitsValue digits)
      = number.toInt) : integerOf? negative digits = some number := by
  have lower := number.le_toInt
  have upper := number.toInt_lt
  unfold integerOf?
  dsimp only
  rw [value, if_pos, Int64.ofInt_toInt]
  simp only [Bool.and_eq_true, decide_eq_true_eq]
  omega

/-- An integer in decimal has the digits of its value, behind a sign if it is negative. -/
theorem exists_digits (number : Int64) : ∃ negative digits, AreDigits digits ∧
    integerOf? negative digits = some number ∧
    (toString number.toInt).toList = signed negative digits := by
  have text := Key.toList_repr number.toInt
  split at text
  · rename_i isNatural
    refine ⟨false, _, areDigits_toDigits number.toInt.toNat, integerOf?_eq_some ?_, text⟩
    rw [digitsValue_toDigits]
    exact Int.toNat_of_nonneg isNatural
  · rename_i isNegative
    refine ⟨true, _, areDigits_toDigits (-number.toInt).toNat, integerOf?_eq_some ?_, text⟩
    rw [digitsValue_toDigits]
    simp only [↓reduceIte]
    omega

theorem fraction?_eq_some_iff {text digits rest : List Char} :
    fraction? text = some (digits, rest) ↔
      text = '.' :: (digits ++ rest) ∧ AreDigits digits ∧ rest.head?.any Text.isDigit = false := by
  constructor
  · intro found
    unfold fraction? at found
    split at found
    · rename_i digit more
      split at found
      · rename_i isDigit
        cases found
        obtain ⟨same, inside, stops⟩ := takeWhile_dropWhile_iff.mp
          ⟨rfl, @rfl _ (more.dropWhile Text.isDigit)⟩
        refine ⟨?_, ⟨List.cons_ne_nil _ _, ?_⟩, stops⟩
        · rw [List.cons_append, ← same]
        · exact List.forall_mem_cons.mpr ⟨isDigit, inside⟩
      · cases found
    · cases found
  · rintro ⟨rfl, ⟨nonempty, inside⟩, stops⟩
    obtain ⟨digit, more, rfl⟩ := List.exists_cons_of_ne_nil nonempty
    obtain ⟨isDigit, insideMore⟩ := List.forall_mem_cons.mp inside
    obtain ⟨taken, left⟩ := takeWhile_dropWhile_iff.mpr ⟨@rfl _ (more ++ rest), insideMore, stops⟩
    simp only [fraction?, List.cons_append, isDigit, ↓reduceIte, taken, left]

private theorem number_sound {negative : Bool} {first : Char} {tail rest : List Char}
    {kind : TokenKind} (isDigit : Text.isDigit first = true)
    (found : number negative first tail = .ok (kind, rest)) :
    ∃ eaten, tail = eaten ++ rest ∧ Spelling kind (signed negative (first :: eaten)) ∧
      goesOn kind rest = false := by
  obtain ⟨same, inside, stops⟩ := takeWhile_dropWhile_iff.mp
    ⟨rfl, @rfl _ (tail.dropWhile Text.isDigit)⟩
  have areDigits : AreDigits (first :: tail.takeWhile Text.isDigit) :=
    ⟨List.cons_ne_nil _ _, List.forall_mem_cons.mpr ⟨isDigit, inside⟩⟩
  unfold number at found
  dsimp only at found
  split at found
  · rename_i fraction after isFraction
    cases found
    obtain ⟨behind, areFraction, ends⟩ := fraction?_eq_some_iff.mp isFraction
    refine ⟨tail.takeWhile Text.isDigit ++ '.' :: fraction, ?_, .float areDigits areFraction, ends⟩
    rw [List.append_assoc, List.cons_append, ← behind, ← same]
  · rename_i noFraction
    split at found
    · rename_i number inRange
      cases found
      refine ⟨_, same, .integer areDigits inRange, ?_⟩
      simp only [goesOn_integer, stops, noFraction]
      rfl
    · cases found

private theorem number_integer {negative : Bool} {first : Char} {digits rest : List Char}
    {number : Int64} (areDigits : AreDigits (first :: digits))
    (inRange : integerOf? negative (first :: digits) = some number)
    (ends : goesOn (.integer number) rest = false) :
    Token.number negative first (digits ++ rest) = .ok (.integer number, rest) := by
  obtain ⟨stops, noFraction⟩ := Bool.or_eq_false_iff.mp ends
  obtain ⟨taken, left⟩ := takeWhile_dropWhile_iff.mpr
    ⟨@rfl _ (digits ++ rest), (List.forall_mem_cons.mp areDigits.2).2, stops⟩
  have none' : fraction? rest = none := by simpa using noFraction
  simp only [Token.number, taken, left, none', inRange]

private theorem number_float {negative : Bool} {first : Char} {digits fraction rest : List Char}
    (areDigits : AreDigits (first :: digits)) (areFraction : AreDigits fraction)
    (ends : rest.head?.any Text.isDigit = false) :
    number negative first (digits ++ '.' :: (fraction ++ rest))
      = .ok (.float (Double.ofDecimal negative (digitsValue (first :: digits ++ fraction))
          (-fraction.length)), rest) := by
  have stops : ('.' :: (fraction ++ rest)).head?.any Text.isDigit = false := rfl
  obtain ⟨taken, left⟩ := takeWhile_dropWhile_iff.mpr
    ⟨@rfl _ (digits ++ '.' :: (fraction ++ rest)), (List.forall_mem_cons.mp areDigits.2).2, stops⟩
  have some' := fraction?_eq_some_iff.mpr ⟨rfl, areFraction, ends⟩
  simp only [number, taken, left, some']

/-! ### Strings -/

private theorem stringBody_cons_of_ne {first : Char} (other : first ≠ '\'') (text : List Char) :
    stringBody (first :: text)
      = (stringBody text).map fun (content, rest) => (first :: content, rest) := by
  rw [stringBody.eq_3 _ _ (fun _ isQuote _ => other isQuote), if_neg other]
  cases stringBody text <;> rfl

private theorem stringBody_eq_some_iff {text content rest : List Char} :
    stringBody text = some (content, rest) ↔
      text = Sql.doubled '\'' content ++ '\'' :: rest ∧ rest.head? ≠ some '\'' := by
  constructor
  · intro found
    fun_induction stringBody text generalizing content rest with
    | case1 => cases found
    | case2 after missing ih => cases found
    | case3 after inner tail matched ih =>
        cases found
        obtain ⟨same, ends⟩ := ih matched
        exact ⟨by simp [Sql.doubled, same], ends⟩
    | case4 after notDoubled =>
        cases found
        refine ⟨rfl, fun isQuote => ?_⟩
        obtain ⟨more, same⟩ := List.head?_eq_some_iff.mp isQuote
        exact notDoubled more rfl same
    | case5 character after notDoubled notQuote missing ih => cases found
    | case6 character after notDoubled notQuote inner tail matched ih =>
        cases found
        obtain ⟨same, ends⟩ := ih matched
        exact ⟨by simp [Sql.doubled, notQuote, same], ends⟩
  · rintro ⟨rfl, ends⟩
    induction content with
    | nil =>
        rw [Sql.doubled, List.nil_append,
          stringBody.eq_3 _ _ (fun more _ same => ends (by rw [same]; rfl)), if_pos rfl]
    | cons first content ih =>
        unfold Sql.doubled
        split
        · rename_i isQuote
          subst isQuote
          simp only [List.cons_append, stringBody, ih]
        · rename_i other
          rw [List.cons_append, stringBody_cons_of_ne other, ih]
          rfl

/-! ### Which token begins -/

private theorem ne_of_isWordChar {first other : Char} (isWordChar : Text.isWordChar first = true)
    (no : Text.isWordChar other = false) : first ≠ other := by
  rintro rfl
  rw [isWordChar] at no
  cases no

private theorem symbol?_of_isWordChar {first : Char} (isWordChar : Text.isWordChar first = true) :
    symbol? first = none := by
  unfold symbol?
  split
  case h_7 => rfl
  all_goals cases isWordChar

private theorem isWordChar_of_isDigit {character : Char} (isDigit : Text.isDigit character = true) :
    Text.isWordChar character = true := by
  simp [Text.isWordChar, isDigit]

private theorem lexeme_of_isWordChar {first : Char} (isWordChar : Text.isWordChar first = true)
    (tail : List Char) :
    lexeme first tail = if Text.isDigit first then number false first tail
      else .ok (wordLexeme first tail) := by
  have other (character : Char) (no : Text.isWordChar character = false) : first ≠ character :=
    ne_of_isWordChar isWordChar no
  simp [lexeme, symbol?_of_isWordChar isWordChar, isWordChar, other '!' rfl, other '<' rfl,
    other '>' rfl, other ':' rfl, other '\'' rfl, other '-' rfl]

private theorem lexeme_sign {first : Char} (isDigit : Text.isDigit first = true)
    (tail : List Char) : lexeme '-' (first :: tail) = number true first tail := by
  simp [lexeme, symbol?, negativeLexeme, isDigit]

/-! ### What is taken is spelled there -/

private theorem spelling_word {name : List Char} (isName : IsName name) :
    Spelling (.word (String.ofList name)) name := by
  have written : Written (.word (String.ofList name)) (String.ofList name).toList :=
    .word (by rwa [String.toList_ofList])
  rw [String.toList_ofList] at written
  exact .written written

section Sound

variable {tail rest : List Char} {kind : TokenKind}

private theorem exclamationLexeme_sound (found : exclamationLexeme tail = .ok (kind, rest)) :
    ∃ eaten, tail = eaten ++ rest ∧ Spelling kind ('!' :: eaten) ∧ goesOn kind rest = false := by
  unfold exclamationLexeme at found
  split at found
  · cases found
    exact ⟨['='], rfl, .written .unequal, rfl⟩
  · cases found

private theorem lessLexeme_sound (found : lessLexeme tail = (kind, rest)) :
    ∃ eaten, tail = eaten ++ rest ∧ Spelling kind ('<' :: eaten) ∧ goesOn kind rest = false := by
  unfold lessLexeme at found
  split at found
  · cases found
    exact ⟨['='], rfl, .written .atMost, rfl⟩
  · cases found
    exact ⟨['>'], rfl, .written .lessOrGreater, rfl⟩
  · rename_i notEqual notGreater
    cases found
    refine ⟨[], rfl, .written .less, ?_⟩
    cases tail with
    | nil => rfl
    | cons next more =>
        have apart : next ≠ '=' ∧ next ≠ '>' :=
          ⟨fun same => notEqual more (by rw [same]), fun same => notGreater more (by rw [same])⟩
        simp [goesOn_less, apart]

private theorem greaterLexeme_sound (found : greaterLexeme tail = (kind, rest)) :
    ∃ eaten, tail = eaten ++ rest ∧ Spelling kind ('>' :: eaten) ∧ goesOn kind rest = false := by
  unfold greaterLexeme at found
  split at found
  · cases found
    exact ⟨['='], rfl, .written .atLeast, rfl⟩
  · rename_i notEqual
    cases found
    refine ⟨[], rfl, .written .greater, ?_⟩
    cases tail with
    | nil => rfl
    | cons next more =>
        have apart : next ≠ '=' := fun same => notEqual more (by rw [same])
        simp [goesOn_greater, apart]

private theorem namedLexeme_sound (found : namedLexeme tail = .ok (kind, rest)) :
    ∃ eaten, tail = eaten ++ rest ∧ Spelling kind (':' :: eaten) ∧ goesOn kind rest = false := by
  unfold namedLexeme at found
  split at found
  · cases found
  rename_i initial name taken
  split at found
  · cases found
  rename_i notDigit
  cases found
  obtain ⟨same, inside, stops⟩ := takeWhile_dropWhile_iff.mp
    ⟨taken, @rfl _ (tail.dropWhile Text.isWordChar)⟩
  have isName : IsName (String.ofList (initial :: name)).toList := by
    rw [String.toList_ofList]
    exact .name (Bool.eq_false_iff.mpr notDigit) inside
  have written := Written.named isName
  rw [String.toList_ofList] at written
  exact ⟨_, same, .written written, stops⟩

private theorem stringLexeme_sound (found : stringLexeme tail = .ok (kind, rest)) :
    ∃ eaten, tail = eaten ++ rest ∧ Spelling kind ('\'' :: eaten) ∧ goesOn kind rest = false := by
  unfold stringLexeme at found
  split at found
  · cases found
  rename_i content after body
  cases found
  obtain ⟨same, ends⟩ := stringBody_eq_some_iff.mp body
  have written := Written.string (String.ofList content)
  unfold Sql.textLiteral at written
  rw [String.toList_ofList, String.toList_ofList] at written
  refine ⟨Sql.doubled '\'' content ++ ['\''], by simp [same], .written written, ?_⟩
  simpa [goesOn_string] using ends

private theorem negativeLexeme_sound (found : negativeLexeme tail = .ok (kind, rest)) :
    ∃ eaten, tail = eaten ++ rest ∧ Spelling kind ('-' :: eaten) ∧ goesOn kind rest = false := by
  unfold negativeLexeme at found
  split at found
  · cases found
  split at found
  · rename_i first after isDigit
    obtain ⟨eaten, same, spelling, ends⟩ := number_sound isDigit found
    exact ⟨first :: eaten, by rw [same, List.cons_append], spelling, ends⟩
  · cases found

end Sound

/-- The token at the start of a text is spelled there and does not go on behind. -/
theorem lexeme_sound {first : Char} {tail rest : List Char} {kind : TokenKind}
    (found : lexeme first tail = .ok (kind, rest)) :
    ∃ eaten, tail = eaten ++ rest ∧ Spelling kind (first :: eaten) ∧ goesOn kind rest = false := by
  unfold lexeme at found
  split at found
  · rename_i isSymbol
    cases found
    refine ⟨[], rfl, ?_⟩
    unfold symbol? at isSymbol
    split at isSymbol <;> cases isSymbol
    · exact ⟨.written .dot, rfl⟩
    · exact ⟨.written .comma, rfl⟩
    · exact ⟨.written .leftParenthesis, rfl⟩
    · exact ⟨.written .rightParenthesis, rfl⟩
    · exact ⟨.written .equal, rfl⟩
    · exact ⟨.written .positional, rfl⟩
  split at found
  · rename_i isExclamation
    subst isExclamation
    exact exclamationLexeme_sound found
  split at found
  · rename_i isLess
    subst isLess
    exact lessLexeme_sound (Except.ok.inj found)
  split at found
  · rename_i isGreater
    subst isGreater
    exact greaterLexeme_sound (Except.ok.inj found)
  split at found
  · rename_i isColon
    subst isColon
    exact namedLexeme_sound found
  split at found
  · rename_i isQuote
    subst isQuote
    exact stringLexeme_sound found
  split at found
  · rename_i isMinus
    subst isMinus
    exact negativeLexeme_sound found
  split at found
  · rename_i isDigit
    exact number_sound isDigit found
  split at found
  · rename_i notDigit isWordChar
    obtain ⟨same, inside, stops⟩ := takeWhile_dropWhile_iff.mp
      ⟨rfl, @rfl _ (tail.dropWhile Text.isWordChar)⟩
    cases found
    have isName : IsName (first :: tail.takeWhile Text.isWordChar) :=
      .name (Bool.eq_false_iff.mpr notDigit) (List.forall_mem_cons.mpr ⟨isWordChar, inside⟩)
    exact ⟨_, same, spelling_word isName, stops⟩
  · cases found

/-! ### What is spelled is taken -/

private theorem isBlank_of_isWordChar {first : Char} (isWordChar : Text.isWordChar first = true) :
    isBlank first = false := by
  have other (character : Char) (no : Text.isWordChar character = false) : first ≠ character :=
    ne_of_isWordChar isWordChar no
  simp [isBlank, other ' ' rfl, other '\t' rfl, other '\n' rfl, other '\x0c' rfl, other '\r' rfl]

/-- A text begins with a token, which is taken in front of what stands behind it. -/
def Begins (kind : TokenKind) (text rest : List Char) : Prop :=
  ∃ first eaten, text = first :: eaten ∧ isBlank first = false ∧
    lexeme first (eaten ++ rest) = .ok (kind, rest)

private theorem begins_name {name : List Char} (isName : IsName name) {rest : List Char}
    (ends : rest.head?.any Text.isWordChar = false) :
    Begins (.word (String.ofList name)) name rest ∧
      Begins (.named (String.ofList name)) (':' :: name) rest := by
  obtain @⟨first, more, notDigit, inside⟩ := isName
  obtain ⟨isWordChar, insideMore⟩ := List.forall_mem_cons.mp inside
  obtain ⟨taken, left⟩ := takeWhile_dropWhile_iff.mpr ⟨@rfl _ (more ++ rest), insideMore, ends⟩
  obtain ⟨takenAll, leftAll⟩ :=
    takeWhile_dropWhile_iff.mpr ⟨@rfl _ (first :: more ++ rest), inside, ends⟩
  constructor
  · refine ⟨first, more, rfl, isBlank_of_isWordChar isWordChar, ?_⟩
    rw [lexeme_of_isWordChar isWordChar, notDigit]
    simp only [wordLexeme, taken, left]
    rfl
  · refine ⟨':', first :: more, rfl, rfl, ?_⟩
    have isNamed : namedLexeme (first :: more ++ rest)
        = .ok (.named (String.ofList (first :: more)), rest) := by
      simp only [namedLexeme, takenAll, leftAll, notDigit]
      rfl
    exact isNamed

private theorem begins_string (content : String) {rest : List Char}
    (ends : rest.head? ≠ some '\'') :
    Begins (.string content) (Sql.textLiteral content).toList rest := by
  have body := stringBody_eq_some_iff.mpr ⟨@rfl _ (Sql.doubled '\'' content.toList ++ '\'' :: rest),
    ends⟩
  refine ⟨'\'', Sql.doubled '\'' content.toList ++ ['\''], ?_, rfl, ?_⟩
  · unfold Sql.textLiteral
    rw [String.toList_ofList, List.cons_append]
  · simp [lexeme, symbol?, stringLexeme, body]

private theorem begins_signed {negative : Bool} {first : Char} {eaten rest : List Char}
    {kind : TokenKind} (isDigit : Text.isDigit first = true)
    (found : number negative first (eaten ++ rest) = .ok (kind, rest)) :
    Begins kind (signed negative (first :: eaten)) rest := by
  cases negative with
  | true => exact ⟨'-', first :: eaten, rfl, rfl, (lexeme_sign isDigit _).trans found⟩
  | false =>
      have isWordChar := isWordChar_of_isDigit isDigit
      refine ⟨first, eaten, rfl, isBlank_of_isWordChar isWordChar, ?_⟩
      rw [lexeme_of_isWordChar isWordChar, if_pos isDigit, found]

private theorem begins_integer {negative : Bool} {digits rest : List Char} {number : Int64}
    (areDigits : AreDigits digits) (inRange : integerOf? negative digits = some number)
    (ends : goesOn (.integer number) rest = false) :
    Begins (.integer number) (signed negative digits) rest := by
  obtain ⟨first, more, rfl⟩ := List.exists_cons_of_ne_nil areDigits.1
  exact begins_signed (areDigits.2 first List.mem_cons_self)
    (number_integer areDigits inRange ends)

private theorem begins_less {rest : List Char} (ends : goesOn .less rest = false) :
    Begins .less ['<'] rest := by
  refine ⟨'<', [], rfl, rfl, ?_⟩
  cases rest with
  | nil => rfl
  | cons next rest =>
      have apart : next ≠ '=' ∧ next ≠ '>' := by simpa [goesOn_less] using ends
      simp [lexeme, symbol?, lessLexeme, apart]

private theorem begins_greater {rest : List Char} (ends : goesOn .greater rest = false) :
    Begins .greater ['>'] rest := by
  refine ⟨'>', [], rfl, rfl, ?_⟩
  cases rest with
  | nil => rfl
  | cons next rest =>
      have apart : next ≠ '=' := by simpa [goesOn_greater] using ends
      simp [lexeme, symbol?, greaterLexeme, apart]

theorem begins_written {kind : TokenKind} {text rest : List Char} (written : Written kind text)
    (ends : goesOn kind rest = false) : Begins kind text rest := by
  cases written with
  | @word name isName =>
      have begins := (begins_name isName ends).1
      rwa [String.ofList_toList] at begins
  | integer number =>
      obtain ⟨negative, digits, areDigits, inRange, same⟩ := exists_digits number
      rw [same]
      exact begins_integer areDigits inRange ends
  | string content => exact begins_string content (by simpa [goesOn_string] using ends)
  | @named name isName =>
      have begins := (begins_name isName ends).2
      rwa [String.ofList_toList] at begins
  | less => exact begins_less ends
  | greater => exact begins_greater ends
  | positional | dot | comma | leftParenthesis | rightParenthesis | equal | unequal
  | lessOrGreater | atMost | atLeast => exact ⟨_, _, rfl, rfl, rfl⟩

theorem begins_spelling {kind : TokenKind} {text rest : List Char}
    (spelling : Spelling kind text) (ends : goesOn kind rest = false) :
    Begins kind text rest := by
  cases spelling with
  | written written => exact begins_written written ends
  | integer areDigits inRange => exact begins_integer areDigits inRange ends
  | @float negative whole fraction areDigits areFraction =>
      obtain ⟨first, more, rfl⟩ := List.exists_cons_of_ne_nil areDigits.1
      have found := @number_float negative _ _ _ _ areDigits areFraction ends
      rw [← List.cons_append, ← List.append_assoc] at found
      exact begins_signed (areDigits.2 first List.mem_cons_self) found

/-- The token that is taken at the start of a text is the one that is spelled there and does
not go on behind. -/
theorem lexeme_eq_ok_iff {first : Char} {tail rest : List Char} {kind : TokenKind} :
    lexeme first tail = .ok (kind, rest) ↔
      ∃ eaten, tail = eaten ++ rest ∧ Spelling kind (first :: eaten) ∧
        goesOn kind rest = false := by
  constructor
  · exact lexeme_sound
  · rintro ⟨eaten, rfl, spelling, ends⟩
    obtain ⟨_, _, same, _, found⟩ := begins_spelling spelling ends
    cases same
    exact found

/-! ### Tokens one after the other -/

/-- Blanks only move what stands behind them. -/
theorem scan_blanks {blanks : List Char} (areBlank : ∀ blank ∈ blanks, isBlank blank = true)
    (position : Nat) (rest : List Char) :
    scan position (blanks ++ rest) = scan (position + Text.byteLength blanks) rest := by
  induction blanks generalizing position with
  | nil => rfl
  | cons first blanks ih =>
      obtain ⟨firstBlank, othersBlank⟩ := List.forall_mem_cons.mp areBlank
      rw [List.cons_append, scan, if_pos firstBlank, ih othersBlank, Text.byteLength,
        Nat.add_assoc]

theorem scan_begins {kind : TokenKind} {text rest : List Char} (begins : Begins kind text rest)
    (position : Nat) :
    scan position (text ++ rest)
      = (scan (position + Text.byteLength text) rest).map (⟨kind, position⟩ :: ·) := by
  obtain ⟨first, eaten, rfl, notBlank, found⟩ := begins
  have length : Text.byteLength (first :: (eaten ++ rest)) - Text.byteLength rest
      = Text.byteLength (first :: eaten) := by
    rw [← List.cons_append, Text.byteLength_append, Nat.add_sub_cancel]
  rw [List.cons_append, scan, if_neg (by simp [notBlank])]
  split
  · rename_i failed
    rw [found] at failed
    cases failed
  · rename_i same
    rw [found] at same
    cases same
    dsimp only
    rw [length]
    cases scan (position + Text.byteLength (first :: eaten)) rest <;> rfl

theorem scan_fault {first : Char} {tail : List Char} {cause : LexicalCause}
    (notBlank : isBlank first = false) (found : lexeme first tail = .error cause)
    (position : Nat) : scan position (first :: tail) = .error ⟨position, cause⟩ := by
  rw [scan, if_neg (by simp [notBlank])]
  split
  · rename_i same
    rw [found] at same
    cases same
    rfl
  · rename_i taken
    rw [found] at taken
    cases taken

/-- A text is read from the left: blanks go by, and what is not blank begins a token or is a
fault. -/
theorem text_induction {motive : List Char → Prop} (nil : motive [])
    (blank : ∀ first tail, isBlank first = true → motive tail → motive (first :: tail))
    (fault : ∀ first tail cause, isBlank first = false → lexeme first tail = .error cause →
      motive (first :: tail))
    (token : ∀ kind eaten rest, Spelling kind eaten → goesOn kind rest = false → motive rest →
      motive (eaten ++ rest))
    (text : List Char) : motive text := by
  fun_induction scan 0 text with
  | case1 => exact nil
  | case2 position first tail isBlank ih => exact blank first tail isBlank ih
  | case3 position first tail notBlank cause found =>
      exact fault first tail cause (Bool.eq_false_iff.mpr notBlank) found
  | case4 position first tail notBlank kind rest found _ length later failed ih =>
      obtain ⟨eaten, rfl, spelling, ends⟩ := lexeme_sound found
      exact token kind _ rest spelling ends ih
  | case5 position first tail notBlank kind rest found =>
      rename_i ih
      obtain ⟨eaten, rfl, spelling, ends⟩ := lexeme_sound found
      exact token kind _ rest spelling ends ih

end Token
end EntityStore
