/-
Values for the parameters of a query. Reading and compiling neither lose, double nor move a
parameter: the slots of the compiled query have the names and the numbers of the parameters
of the text, in the order in which they stand there. So values can be bound exactly when
they fit the text, and each slot gets its own.
-/

import EntityStore.Dialect.Shipped
import EntityStore.Proofs.Derivations
import EntityStore.Query.Parameters
import Mathlib.Data.List.Forall2

set_option autoImplicit false

namespace EntityStore

open Grammar (positionals Plain)

namespace Slot

def name? : Slot → Option String
  | named name => some name
  | _ => none

def index? : Slot → Option Nat
  | positional index => some index
  | _ => none

end Slot

/-! ### Tokens and their slots -/

/-- Slots are those of the parameters among tokens that stand behind `before` positional
parameters. Literals have slots as well. -/
structure Carries (before : Nat) (tokens : List Token) (slots : List Slot) : Prop where
  names : slots.filterMap Slot.name? = Token.parameterNames tokens
  indices : slots.filterMap Slot.index? = List.range' before (positionals tokens)

namespace Token

private theorem parameterNames_append (left right : List Token) :
    parameterNames (left ++ right) = parameterNames left ++ parameterNames right :=
  List.filterMap_append

private theorem mem_foldl_distinct (name : String) (names known : List String) :
    name ∈ names.foldl (fun known name => if known.contains name then known else known ++ [name])
        known ↔ name ∈ known ∨ name ∈ names := by
  induction names generalizing known with
  | nil => simp
  | cons first rest ih =>
      rw [List.foldl_cons, ih]
      split
      · rename_i isKnown
        have member : first ∈ known := by simpa using isKnown
        constructor
        · rintro (isOld | isNew)
          · exact Or.inl isOld
          · exact Or.inr (List.mem_cons_of_mem first isNew)
        · rintro (isOld | isNew)
          · exact Or.inl isOld
          · rcases List.mem_cons.mp isNew with rfl | isNew
            · exact Or.inl member
            · exact Or.inr isNew
      · simp [or_assoc]

theorem mem_distinct {name : String} {names : List String} :
    name ∈ distinct names ↔ name ∈ names :=
  (mem_foldl_distinct name names []).trans (by simp)

end Token

namespace Carries

variable {before : Nat} {tokens first second : List Token} {slots left right : List Slot}

private theorem append (start : Carries before first left)
    (rest : Carries (before + positionals first) second right) :
    Carries before (first ++ second) (left ++ right) where
  names := by
    rw [List.filterMap_append, start.names, rest.names, Token.parameterNames_append]
  indices := by
    rw [List.filterMap_append, start.indices, rest.indices, Grammar.positionals_append,
      List.range'_append_1]

private theorem of_plain (plain : Plain tokens) : Carries before tokens [] where
  names := plain.parameterNames_eq.symm
  indices := by
    rw [plain.positionals_eq]
    rfl

private theorem append_plain (carries : Carries before tokens slots) (plain : Plain second) :
    Carries before (tokens ++ second) slots := by
  simpa using carries.append (of_plain plain)

private theorem plain_append (plain : Plain first) (carries : Carries before tokens slots) :
    Carries before (first ++ tokens) slots := by
  have start : Carries before first [] := of_plain plain
  have behind : Carries (before + positionals first) tokens slots := by
    rwa [plain.positionals_eq]
  exact start.append behind

private theorem plain_cons {token : Token} (plain : token.kind.isParameter = false)
    (carries : Carries before tokens slots) : Carries before (token :: tokens) slots := by
  have plainFirst : Plain [token] := by simpa using plain
  exact carries.plain_append plainFirst

private theorem of_literal {token : Token} (plain : token.kind.isParameter = false)
    (value : Value) : Carries before [token] [.literal value] := by
  have plainTokens : Plain [token] := by simpa using plain
  have carries : Carries before [token] [] := of_plain plainTokens
  exact ⟨carries.names, carries.indices⟩

end Carries

namespace Grammar

variable {scope : List Mapping} {before : Nat} {tokens : List Token}

theorem Operand.carries {operand : EntityStore.Operand}
    (operates : Operand scope before tokens operand) :
    Carries before tokens operand.slots := by
  cases operates with
  | integer kind => exact .of_literal (by rw [kind]; rfl) _
  | float kind => exact .of_literal (by rw [kind]; rfl) _
  | string kind => exact .of_literal (by rw [kind]; rfl) _
  | nullWord isNull => exact .of_literal (TokenKind.plain_of_isKeyword isNull) _
  | trueWord isTrue => exact .of_literal (TokenKind.plain_of_isKeyword isTrue) _
  | falseWord isFalse => exact .of_literal (TokenKind.plain_of_isKeyword isFalse) _
  | named kind =>
      constructor
      · simp [EntityStore.Operand.slots, Slot.name?, Token.parameterNames, kind]
      · simp [EntityStore.Operand.slots, Slot.index?, kind]
  | positional kind =>
      constructor
      · simp [EntityStore.Operand.slots, Slot.name?, Token.parameterNames, kind]
      · simp [EntityStore.Operand.slots, Slot.index?, kind]
  | reference _ refers => exact .of_plain (plain_of_reference refers)

theorem Sign.plain {kind : TokenKind} {comparison : Comparison} (sign : Sign kind comparison) :
    kind.isParameter = false := by
  cases sign with
  | like isLike => exact TokenKind.plain_of_isKeyword isLike
  | _ => rfl

/-- A predicate has the slots of its left operand, which stands in front of it, and those
of its own tokens. -/
theorem Predicate.carries {first : List Token} {left : EntityStore.Operand}
    {whole : Expression} (start : Carries before first left.slots)
    (tests : Predicate scope (before + positionals first) left tokens whole) :
    Carries before (first ++ tokens) whole.slots := by
  cases tests with
  | compare sign operates => exact start.append (operates.carries.plain_cons sign.plain)
  | notLike isNot isLike operates =>
      have carries := operates.carries.plain_cons (TokenKind.plain_of_isKeyword isLike)
      exact start.append (carries.plain_cons (TokenKind.plain_of_isKeyword isNot))
  | isNull isVerb isNull =>
      refine start.append_plain ?_
      simp [TokenKind.plain_of_isKeyword isVerb, TokenKind.plain_of_isKeyword isNull]
  | isNotNull isVerb isNot isNull =>
      refine start.append_plain ?_
      simp [TokenKind.plain_of_isKeyword isVerb, TokenKind.plain_of_isKeyword isNot,
        TokenKind.plain_of_isKeyword isNull]

theorem Condition.carries {rank : Rank} {whole : Expression}
    (derived : Condition scope rank before tokens whole) :
    Carries before tokens whole.slots := by
  induction derived with
  | conjunction _ ih => exact ih
  | or _ isOr _ ihLeft ihRight =>
      exact ihLeft.append (ihRight.plain_cons (TokenKind.plain_of_isKeyword isOr))
  | unary _ ih => exact ih
  | and _ isAnd _ ihLeft ihRight =>
      exact ihLeft.append (ihRight.plain_cons (TokenKind.plain_of_isKeyword isAnd))
  | not isNot _ ih => exact ih.plain_cons (TokenKind.plain_of_isKeyword isNot)
  | @parentheses _ _ closing _ _ isOpening _ isClosing ih =>
      have plainClosing : Plain [closing] := by simp [isClosing, TokenKind.isParameter]
      exact (ih.append_plain plainClosing).plain_cons (by rw [isOpening]; rfl)
  | predicate _ operates tests => exact tests.carries operates.carries

end Grammar

/-- Null tests take the place of comparisons without losing a slot other than that of the
literal null. -/
theorem Expression.filterMap_withNullTests {α : Type} {select : Slot → Option α}
    (literal : select (.literal .null) = none) (expression : Expression) :
    expression.withNullTests.slots.filterMap select = expression.slots.filterMap select := by
  have slots_of_null {operand : Operand} (isNull : operand.isNullLiteral = true) :
      operand.slots.filterMap select = [] := by
    unfold Operand.isNullLiteral at isNull
    split at isNull
    · simp [Operand.slots, literal]
    · cases isNull
  induction expression with
  | compare left comparison right =>
      unfold withNullTests
      split
      · split
        · rename_i isNull
          simp [slots, slots_of_null isNull]
        split
        · rename_i isNull
          simp [slots, slots_of_null isNull]
        · rfl
      · rfl
  | nullTest => rfl
  | conjunction left right ihLeft ihRight => simp [withNullTests, slots, ihLeft, ihRight]
  | disjunction left right ihLeft ihRight => simp [withNullTests, slots, ihLeft, ihRight]
  | negation inner ih => exact ih

theorem Carries.withNullTests {before : Nat} {tokens : List Token} {expression : Expression}
    (carries : Carries before tokens expression.slots) :
    Carries before tokens expression.withNullTests.slots where
  names := by rw [Expression.filterMap_withNullTests rfl, carries.names]
  indices := by rw [Expression.filterMap_withNullTests rfl, carries.indices]

namespace Grammar

variable {lookup : String → Option Mapping} {scope : List Mapping} {before : Nat}
  {tokens : List Token}

theorem Joins.carries {joins : List Join} (derived : Joins lookup scope before tokens joins) :
    Carries before tokens (Query.joinsSlots joins) := by
  induction derived with
  | none => exact .of_plain plain_nil
  | join isJoining isEntity isOn derived _ ih =>
      have behind := derived.carries.withNullTests.append ih
      have fromOn := behind.plain_cons (TokenKind.plain_of_isKeyword isOn)
      exact (fromOn.plain_cons (plain_of_entity isEntity)).plain_append
        (plain_of_joining isJoining)

theorem Filter.carries {filter : Option Expression}
    (isFilter : Filter scope before tokens filter) :
    Carries before tokens (Query.predicateSlots filter) := by
  cases isFilter with
  | none => exact .of_plain plain_nil
  | condition isWhere derived =>
      exact derived.carries.withNullTests.plain_cons (TokenKind.plain_of_isKeyword isWhere)

end Grammar

theorem Grammar.carries {lookup : String → Option Mapping} {words : List Token}
    {query : Query} (derived : Grammar lookup words query) :
    Carries 0 words query.slots ∧ query.positional = positionals words := by
  cases derived with
  | query isFrom isEntity joins filter order =>
      have clauses := joins.carries.append (by simpa using filter.carries)
      have plainOrder := plain_of_order order
      constructor
      · have all := clauses.append_plain plainOrder
        exact (all.plain_cons (plain_of_entity isEntity)).plain_cons
          (TokenKind.plain_of_isKeyword isFrom)
      · simp [TokenKind.ne_positional_of_isKeyword isFrom, plainOrder.positionals_eq,
          TokenKind.ne_positional_of_plain (plain_of_entity isEntity)]

/-! ### Binding -/

def Parameters.Fits (names : List String) (positional : Nat) : Parameters → Prop
  | .none => names = [] ∧ positional = 0
  | .named values => positional = 0 ∧ ∀ name, name ∈ values.map Prod.fst ↔ name ∈ names
  | .positional values => names = [] ∧ values.length = positional

/-- The value of a slot: a literal is its own, a parameter has the one given under its name
or at its place. -/
inductive Slot.Gives (dialect : Dialect) (parameters : Parameters) : Slot → Value → Prop where
  | literal (value : Value) : Gives dialect parameters (.literal value) (dialect.stored value)
  | named {values : List (String × Value)} {name : String} {value : Value} :
      parameters = .named values → values.lookup name = some value →
      Gives dialect parameters (.named name) (dialect.stored value)
  | positional {values : List Value} {index : Nat} {value : Value} :
      parameters = .positional values → values[index]? = some value →
      Gives dialect parameters (.positional index) (dialect.stored value)

namespace CompiledQuery

theorem mem_namedParameters {compiled : CompiledQuery} {name : String} :
    name ∈ compiled.namedParameters ↔ name ∈ compiled.slots.filterMap Slot.name? :=
  Token.mem_distinct

variable {parameters : Parameters} {names : List String} {positional : Nat}

/-- Named values pass exactly when no place is left open and the names are the same. -/
theorem checkParameters_named_iff {named : List String} {values : List (String × Value)}
    (same : ∀ name, name ∈ named ↔ name ∈ names) :
    checkParameters named positional (.named values) = .ok ()
      ↔ (Parameters.named values).Fits names positional := by
  unfold checkParameters Parameters.Fits
  dsimp only
  split
  · rename_i some'
    simp [Nat.ne_of_gt some']
  · rename_i none'
    rw [and_iff_right (Nat.eq_zero_of_not_pos none')]
    split
    · rename_i name missing
      have isNamed := List.mem_of_find?_eq_some missing
      have notGiven : name ∉ values.map Prod.fst := by
        simpa using List.find?_some missing
      constructor
      · intro passed
        cases passed
      · intro fits
        exact absurd ((fits name).mpr ((same name).mp isNamed)) notGiven
    · rename_i all
      have given : ∀ name ∈ named, name ∈ values.map Prod.fst := by
        simpa using List.find?_eq_none.mp all
      split
      · rename_i noneUnused
        have used : ∀ name ∈ values.map Prod.fst, name ∈ named := by
          simpa using List.filter_eq_nil_iff.mp noneUnused
        constructor
        · intro _ name
          exact ⟨fun isGiven => (same name).mp (used name isGiven),
            fun isNamed => given name ((same name).mpr isNamed)⟩
        · exact fun _ => rfl
      · rename_i someUnused
        constructor
        · intro passed
          cases passed
        · intro fits
          apply absurd (List.filter_eq_nil_iff.mpr ?_) someUnused
          intro name isGiven
          simpa [same] using (fits name).mp isGiven

/-- Values in order pass exactly when no name is left open and there are enough of them. -/
theorem checkParameters_positional_iff {named : List String} {values : List Value} :
    checkParameters named positional (.positional values) = .ok ()
      ↔ (Parameters.positional values).Fits named positional := by
  unfold checkParameters Parameters.Fits
  cases named with
  | nil =>
      dsimp only [List.isEmpty_nil, Bool.not_true]
      rw [if_neg (by simp), and_iff_right rfl]
      split
      · rename_i fewer
        simp [Nat.ne_of_lt fewer]
      split
      · rename_i more
        simp [Nat.ne_of_gt more]
      · have equal : values.length = positional := by omega
        simp [equal]
  | cons name rest => simp

/-- Values pass the checks of a query exactly when they fit its parameters. -/
theorem checkParameters_eq_ok_iff {named : List String}
    (same : ∀ name, name ∈ named ↔ name ∈ names) :
    checkParameters named positional parameters = .ok ()
      ↔ parameters.Fits names positional := by
  have empty_iff : named = [] ↔ names = [] := by
    simp [List.eq_nil_iff_forall_not_mem, same]
  cases parameters with
  | none =>
      unfold checkParameters Parameters.Fits
      rw [← empty_iff]
      cases named with
      | nil => simp
      | cons name rest => simp
  | named values => exact checkParameters_named_iff same
  | positional values =>
      rw [checkParameters_positional_iff]
      unfold Parameters.Fits
      rw [empty_iff]

/-- The checks find other faults than the slots can. -/
theorem checkParameters_error {named : List String} {fault : ParameterFault}
    (failed : checkParameters named positional parameters = .error fault) :
    fault ≠ .styleMismatch ∧ ∀ index, fault ≠ .missingPositional index := by
  cases parameters with
  | none =>
      simp only [checkParameters] at failed
      split at failed
      · cases failed
        simp
      split at failed <;> cases failed
      simp
  | named values =>
      simp only [checkParameters] at failed
      split at failed
      · cases failed
        simp
      split at failed
      · cases failed
        simp
      split at failed <;> cases failed
      simp
  | positional values =>
      simp only [checkParameters] at failed
      split at failed
      · cases failed
        simp
      split at failed
      · cases failed
        simp
      split at failed <;> cases failed
      simp

/-- Where values fit, no slot of a parameter is without its value. -/
theorem slotValue_of_fits {slots : List Slot}
    (fits : parameters.Fits (slots.filterMap Slot.name?) positional)
    (numbered : slots.filterMap Slot.index? = List.range' 0 positional) :
    ∀ slot ∈ slots, ∃ value, slotValue parameters slot = .ok value := by
  intro slot member
  cases slot with
  | literal value => exact ⟨value, rfl⟩
  | named name =>
      have isNamed : name ∈ slots.filterMap Slot.name? :=
        List.mem_filterMap.mpr ⟨_, member, rfl⟩
      cases parameters with
      | none =>
          rw [fits.1] at isNamed
          cases isNamed
      | positional values =>
          rw [fits.1] at isNamed
          cases isNamed
      | named values =>
          obtain ⟨entry, isEntry, sameName⟩ := List.mem_map.mp ((fits.2 name).mpr isNamed)
          have isSome : (values.lookup name).isSome :=
            List.lookup_isSome_iff.mpr ⟨entry, isEntry, by simp [sameName]⟩
          obtain ⟨value, found⟩ := Option.isSome_iff_exists.mp isSome
          exact ⟨value, by simp [slotValue, found]⟩
  | positional index =>
      have isNumbered : index ∈ slots.filterMap Slot.index? :=
        List.mem_filterMap.mpr ⟨_, member, rfl⟩
      rw [numbered, List.mem_range'_1] at isNumbered
      cases parameters with
      | none =>
          have noneAsked : positional = 0 := fits.2
          omega
      | named values =>
          have noneAsked : positional = 0 := fits.1
          omega
      | positional values =>
          have inside : index < values.length := by
            have enough : values.length = positional := fits.2
            omega
          exact ⟨values[index], by simp [slotValue, inside]⟩

theorem slotValues_ok_iff {dialect : Dialect} {slots : List Slot} :
    (∃ values, slotValues dialect parameters slots = .ok values) ↔
      ∀ slot ∈ slots, ∃ value, slotValue parameters slot = .ok value := by
  induction slots with
  | nil => simp [slotValues]
  | cons slot rest ih =>
      rw [List.forall_mem_cons, ← ih]
      simp only [slotValues]
      cases slotValue parameters slot with
      | error fault => simp
      | ok value =>
          cases slotValues dialect parameters rest with
          | error fault => simp
          | ok values => simp

private theorem gives_of_slotValue {dialect : Dialect} {slot : Slot} {value : Value}
    (found : slotValue parameters slot = .ok value) :
    slot.Gives dialect parameters (dialect.stored value) := by
  cases slot with
  | literal content =>
      cases found
      exact .literal value
  | named name =>
      cases parameters with
      | named values =>
          unfold slotValue at found
          dsimp only at found
          split at found
          · rename_i other isGiven
            cases found
            exact .named rfl isGiven
          · cases found
      | _ => cases found
  | positional index =>
      cases parameters with
      | positional values =>
          unfold slotValue at found
          dsimp only at found
          split at found
          · rename_i other isGiven
            cases found
            exact .positional rfl isGiven
          · cases found
      | _ => cases found

theorem gives_of_slotValues {dialect : Dialect} {slots : List Slot} {values : List Value}
    (found : slotValues dialect parameters slots = .ok values) :
    List.Forall₂ (Slot.Gives dialect parameters) slots values := by
  induction slots generalizing values with
  | nil =>
      cases found
      exact .nil
  | cons slot rest ih =>
      unfold slotValues at found
      split at found
      · cases found
      rename_i value ofSlot
      split at found
      · cases found
      rename_i others ofRest
      cases found
      exact .cons (gives_of_slotValue ofSlot) (ih ofRest)

end CompiledQuery

/-- The slots of a compiled query text are those of the parameters of its tokens. -/
theorem Query.carries_of_parse {lookup : String → Option Mapping} {text : String}
    {query : Query} {tokens : List Token} (parsed : Query.parse lookup text = .ok query)
    (scanned : Token.ofText text = .ok tokens) :
    Carries 0 tokens query.slots ∧ query.positional = positionals tokens := by
  obtain ⟨words, last, split, isEnd, derived⟩ := Query.exists_derivation parsed
  obtain rfl : words ++ [last] = tokens := Except.ok.inj (split.symm.trans scanned)
  obtain ⟨carries, counted⟩ := derived.carries
  have plainEnd : Plain [last] := by simp [isEnd, TokenKind.isParameter]
  constructor
  · exact carries.append_plain plainEnd
  · rw [counted, Grammar.positionals_append, plainEnd.positionals_eq, Nat.add_zero]

/-- Values can be bound to a query text that is read exactly when they fit the parameters of
the text. Then every slot gets its value, in order; and what the checks let pass fails at no
slot. -/
theorem Query.bind_compiled {lookup : String → Option Mapping} {text : String}
    {query : Query} {tokens : List Token} (parsed : Query.parse lookup text = .ok query)
    (scanned : Token.ofText text = .ok tokens) (dialect : Dialect) (parameters : Parameters) :
    ((∃ values, (query.compile dialect).bind parameters dialect = .ok values) ↔
      parameters.Fits (Token.parameterNames tokens) (positionals tokens)) ∧
    (∀ values, (query.compile dialect).bind parameters dialect = .ok values →
      List.Forall₂ (Slot.Gives dialect parameters) (query.compile dialect).slots values) ∧
    (CompiledQuery.checkParameters (query.compile dialect).namedParameters
        (query.compile dialect).positional parameters = .ok () →
      ∀ slot ∈ (query.compile dialect).slots,
        ∃ value, CompiledQuery.slotValue parameters slot = .ok value) ∧
    (query.compile dialect).bind parameters dialect ≠ .error .styleMismatch ∧
    ∀ index, (query.compile dialect).bind parameters dialect
      ≠ .error (.missingPositional index) := by
  obtain ⟨carries, counted⟩ := Query.carries_of_parse parsed scanned
  have passes_iff : CompiledQuery.checkParameters (query.compile dialect).namedParameters
      (query.compile dialect).positional parameters = .ok () ↔
      parameters.Fits (Token.parameterNames tokens) (positionals tokens) := by
    rw [← counted, ← carries.names]
    exact CompiledQuery.checkParameters_eq_ok_iff fun name => CompiledQuery.mem_namedParameters
  have granted (passes : CompiledQuery.checkParameters (query.compile dialect).namedParameters
      (query.compile dialect).positional parameters = .ok ()) :
      ∀ slot ∈ (query.compile dialect).slots,
        ∃ value, CompiledQuery.slotValue parameters slot = .ok value := by
    have fits := passes_iff.mp passes
    rw [← carries.names] at fits
    exact CompiledQuery.slotValue_of_fits fits carries.indices
  unfold CompiledQuery.bind
  cases checked : CompiledQuery.checkParameters (query.compile dialect).namedParameters
      (query.compile dialect).positional parameters with
  | error fault =>
      rw [checked] at passes_iff
      obtain ⟨noMismatch, noMissing⟩ := CompiledQuery.checkParameters_error checked
      simpa [noMismatch, noMissing] using passes_iff
  | ok passed =>
      obtain ⟨values, bound⟩ := CompiledQuery.slotValues_ok_iff.mpr (granted checked)
      rw [checked] at passes_iff
      refine ⟨⟨fun _ => passes_iff.mp rfl, fun _ => ⟨values, bound⟩⟩, ?_, fun _ => granted checked,
        ?_, ?_⟩
      · intro others found
        exact CompiledQuery.gives_of_slotValues found
      · simp [bound]
      · simp [bound]

namespace Samples

def citizen : Mapping where
  entity := "Citizen"
  table := "citizen"
  schema := none
  id := ⟨"id", none⟩
  properties := [.scalar ⟨"name", .string, "name", true, none, none⟩]

def citizens (name : String) : Option Mapping :=
  if name = "Citizen" then some citizen else none

def nameText : String := "FROM Citizen WHERE name = NULL OR :name = name"

def ada : Parameters := .named [("name", .text "Ada")]

end Samples

theorem Query.bind_compiled_name :
    ∃ query tokens,
      Query.parse Samples.citizens Samples.nameText = .ok query ∧
      Token.ofText Samples.nameText = .ok tokens ∧
      ∃ values, (query.compile .sqlite).bind Samples.ada .sqlite = .ok values ∧
        List.Forall₂ (Slot.Gives .sqlite Samples.ada) (query.compile .sqlite).slots values := by
  have reads : (Query.parse Samples.citizens Samples.nameText).toOption.isSome := by
    decide +kernel
  have asks : (Token.ofText Samples.nameText).toOption.map
      (fun tokens => (Token.parameterNames tokens, positionals tokens)) = some (["name"], 0) := by
    decide +kernel
  cases parsed : Query.parse Samples.citizens Samples.nameText with
  | error fault =>
      rw [parsed] at reads
      cases reads
  | ok query =>
      cases scanned : Token.ofText Samples.nameText with
      | error fault =>
          rw [scanned] at asks
          cases asks
      | ok tokens =>
          obtain ⟨names, counted⟩ := Prod.mk.inj (Option.some.inj (scanned ▸ asks))
          obtain ⟨binds_iff, gives, _⟩ := Query.bind_compiled parsed scanned .sqlite Samples.ada
          rw [names, counted] at binds_iff
          obtain ⟨values, bound⟩ := binds_iff.mpr ⟨rfl, by simp⟩
          exact ⟨query, tokens, rfl, rfl, values, bound, gives values bound⟩

end EntityStore
