/-
Pages as slices. Each way in which a dialect restricts a statement is read as databases read
it, from the text alone: `LIMIT` keeps the first rows of what `OFFSET` has left, and `ROWNUM`
counts the rows that have passed. Read in this way every page of every dialect is the same
slice of the rows of the statement, and it can be read in no other way.
-/

import EntityStore.Proofs.CacheHistories
import EntityStore.Dialect.Shipped

set_option autoImplicit false

namespace EntityStore

def Page.slice {α : Type} (page : Page) (rows : List α) : List α :=
  let left := rows.drop (page.offset.getD 0).toNat
  match page.limit with
  | some limit => left.take limit.toNat
  | none => left

namespace Sql

variable {α : Type}

/-! ### What restrictions mean -/

/-- The rows that a condition on `ROWNUM` lets pass, each with its number. While the condition
is tried a row has the next number; one that does not pass leaves it to the row behind. -/
def rownum (passes : Nat → Bool) : Nat → List α → List (α × Nat)
  | _, [] => []
  | next, row :: rest =>
      if passes next then (row, next) :: rownum passes (next + 1) rest
      else rownum passes next rest

/-- How many rows a bound leaves; a negative one leaves them all. -/
inductive Bounds : String → (List α → List α) → Prop
  | negative : Bounds "-1" id
  | count (limit : UInt64) : Bounds (Paging.numberText limit) fun rows => rows.take limit.toNat

inductive Limits : String → (List α → List α) → Prop
  | absent : Limits "" id
  | bounded {bound : String} {keep : List α → List α} (bounds : Bounds bound keep) :
      Limits (" LIMIT " ++ bound) keep

inductive Numbers (statement : String) (rows : List α) : String → List (α × Nat) → Prop
  | all : Numbers statement rows
      ("SELECT r.*, ROWNUM rnum FROM (" ++ statement ++ ") r ") (rownum (fun _ => true) 1 rows)
  | upTo (last : UInt64) : Numbers statement rows
      ("SELECT r.*, ROWNUM rnum FROM (" ++ statement ++ ") r WHERE ROWNUM <= "
        ++ Paging.numberText last)
      (rownum (fun number => number ≤ last.toNat) 1 rows)

/-- The rows that a text gives, where the statement gives those rows. The limit counts from
where the offset ends, though it is written in front. -/
inductive Denotes (statement : String) (rows : List α) : String → List α → Prop
  | limited {clause : String} {keep : List α → List α} (limits : Limits clause keep) :
      Denotes statement rows (statement ++ clause) (keep rows)
  | offset {clause : String} {keep : List α → List α} (limits : Limits clause keep)
      (skipped : UInt64) :
      Denotes statement rows (statement ++ clause ++ " OFFSET " ++ Paging.numberText skipped)
        (keep (rows.drop skipped.toNat))
  | counted (last : UInt64) :
      Denotes statement rows
        ("SELECT * FROM ( " ++ statement ++ ") WHERE ROWNUM <= " ++ Paging.numberText last)
        ((rownum (fun number => number ≤ last.toNat) 1 rows).map Prod.fst)
  | above {inner keyword : String} {table : List (α × Nat)}
      (numbers : Numbers statement rows inner table)
      (isWhere : keyword = ") where" ∨ keyword = ") WHERE") (skipped : UInt64) :
      Denotes statement rows
        ("SELECT * FROM (" ++ inner ++ keyword ++ " rnum > " ++ Paging.numberText skipped)
        ((table.filter fun entry => skipped.toNat < entry.2).map Prod.fst)

/-! ### Numbered rows -/

private theorem rownum_all (next : Nat) (rows : List α) :
    rownum (fun _ => true) next rows = rows.zipIdx next := by
  induction rows generalizing next with
  | nil => rfl
  | cons row rest ih =>
      unfold rownum
      rw [if_pos rfl, ih, List.zipIdx_cons]

/-- Once a number is too large no further row passes. -/
theorem rownum_le (last next : Nat) (rows : List α) :
    rownum (fun number => number ≤ last) next rows =
      (rows.take (last + 1 - next)).zipIdx next := by
  induction rows generalizing next with
  | nil =>
      rw [List.take_nil]
      rfl
  | cons row rest ih =>
      unfold rownum
      by_cases passes : next ≤ last
      · have shift : last + 1 - next = last + 1 - (next + 1) + 1 := by omega
        rw [if_pos (decide_eq_true passes), ih, shift, List.take_succ_cons, List.zipIdx_cons]
      · have none : last + 1 - next = 0 := by omega
        rw [if_neg (by simpa using passes), ih, none, List.take_zero, List.take_zero]

private theorem map_fst_filter_zipIdx (skipped next : Nat) (rows : List α) :
    ((rows.zipIdx next).filter fun entry => skipped < entry.2).map Prod.fst =
      rows.drop (skipped + 1 - next) := by
  induction rows generalizing next with
  | nil =>
      rw [List.drop_nil]
      rfl
  | cons row rest ih =>
      rw [List.zipIdx_cons]
      by_cases passes : skipped < next
      · have all : skipped + 1 - next = 0 := by omega
        have later : skipped + 1 - (next + 1) = 0 := by omega
        rw [List.filter_cons_of_pos (by simpa using passes), List.map_cons, ih, all, later]
        rfl
      · have shift : skipped + 1 - next = skipped + 1 - (next + 1) + 1 := by omega
        rw [List.filter_cons_of_neg (by simpa using passes), ih, shift, List.drop_succ_cons]

private theorem filter_le_zipIdx (last next : Nat) (rows : List α) :
    (rows.zipIdx next).filter (fun entry => entry.2 ≤ last) =
      (rows.take (last + 1 - next)).zipIdx next := by
  induction rows generalizing next with
  | nil =>
      rw [List.take_nil]
      rfl
  | cons row rest ih =>
      rw [List.zipIdx_cons]
      by_cases passes : next ≤ last
      · have shift : last + 1 - next = last + 1 - (next + 1) + 1 := by omega
        rw [List.filter_cons_of_pos (by simpa using passes), ih, shift, List.take_succ_cons,
          List.zipIdx_cons]
      · have none : last + 1 - next = 0 := by omega
        have later : last + 1 - (next + 1) = 0 := by omega
        rw [List.filter_cons_of_neg (by simpa using passes), ih, none, later]
        rfl

private theorem map_fst_rownum_le (last : Nat) (rows : List α) :
    (rownum (fun number => number ≤ last) 1 rows).map Prod.fst = rows.take last := by
  rw [rownum_le, List.zipIdx_map_fst, Nat.add_sub_cancel]

/-! ### Texts that are read in one way -/

def spaced (word : String) : String := " " ++ word ++ " "

def IsWord (text : String) : Prop := ' ' ∉ text.toList

instance (text : String) : Decidable (IsWord text) := inferInstanceAs (Decidable (¬ _))

private theorem isWord_numberText (number : UInt64) : IsWord (Paging.numberText number) := by
  intro member
  have isDigit := @Key.isDigit_of_mem number.toNat ' ' (Nat.toList_repr ▸ member)
  cases isDigit

private theorem numberText_inj {number other : UInt64}
    (same : Paging.numberText number = Paging.numberText other) : number = other := by
  have digits := congrArg String.toList same
  have equal := Key.toDigits_inj (Nat.toList_repr.symm.trans (digits.trans Nat.toList_repr))
  exact UInt64.toNat.inj equal

private theorem last_blank_inj {front other word last : List Char} (isWord : ' ' ∉ word)
    (isLast : ' ' ∉ last) (same : front ++ ' ' :: word = other ++ ' ' :: last) :
    front = other ∧ word = last := by
  have nothing {word last between : List Char} (isWord : ' ' ∉ word)
      (rest : ' ' :: word = between ++ ' ' :: last) : between = [] := by
    cases between with
    | nil => rfl
    | cons head tail =>
        refine absurd ?_ isWord
        rw [(List.cons.inj rest).2]
        exact List.mem_append_right tail List.mem_cons_self
  rcases List.append_eq_append_iff.mp same with ⟨between, isOther, rest⟩ | ⟨between, isFront, rest⟩
  · rw [nothing isWord rest] at isOther rest
    exact ⟨(isOther.trans (List.append_nil _)).symm, (List.cons.inj rest).2⟩
  · rw [nothing isLast rest] at isFront rest
    exact ⟨isFront.trans (List.append_nil _), (List.cons.inj rest).2.symm⟩

structure EndsIn (text front word last : String) : Prop where
  text_eq : text = front ++ spaced word ++ last
  isWord : IsWord word
  isLast : IsWord last

theorem EndsIn.inj {text front word last front' word' last' : String}
    (first : EndsIn text front word last) (second : EndsIn text front' word' last') :
    front = front' ∧ word = word' ∧ last = last' := by
  have chars := congrArg String.toList (first.text_eq.symm.trans second.text_eq)
  unfold spaced at chars
  simp only [String.toList_append, List.append_assoc] at chars
  have outer : front.toList ++ ' ' :: word.toList = front'.toList ++ ' ' :: word'.toList ∧
      last.toList = last'.toList :=
    last_blank_inj first.isLast second.isLast (by simpa using chars)
  have inner := last_blank_inj first.isWord second.isWord outer.1
  exact ⟨String.toList_inj.mp inner.1, String.toList_inj.mp inner.2, String.toList_inj.mp outer.2⟩

theorem EndsIn.length_lt {text front word last : String} (ends : EndsIn text front word last) :
    front.length < text.length := by
  have blanks : 0 < (spaced word).length := by
    unfold spaced
    rw [String.length_append]
    exact Nat.lt_add_left _ (by decide)
  rw [ends.text_eq, String.length_append, String.length_append]
  omega

private theorem ends_number (front between word : String) (isWord : IsWord word) (number : UInt64) :
    EndsIn (front ++ (between ++ spaced word) ++ Paging.numberText number) (front ++ between) word
      (Paging.numberText number) where
  text_eq := by rw [← String.append_assoc]
  isWord := isWord
  isLast := isWord_numberText number

variable {statement text front word last clause : String} {rows : List α} {keep : List α → List α}

private theorem ends_offset (front : String) (skipped : UInt64) :
    EndsIn (front ++ " OFFSET " ++ Paging.numberText skipped) (front ++ "") "OFFSET"
      (Paging.numberText skipped) :=
  ends_number front "" "OFFSET" (by decide) skipped

private theorem ends_counted (front : String) (last : UInt64) :
    EndsIn (front ++ ") WHERE ROWNUM <= " ++ Paging.numberText last)
      (front ++ ") WHERE ROWNUM") "<=" (Paging.numberText last) :=
  ends_number front ") WHERE ROWNUM" "<=" (by decide) last

private theorem ends_above (front : String) (skipped : UInt64) :
    EndsIn (front ++ " rnum > " ++ Paging.numberText skipped) (front ++ " rnum") ">"
      (Paging.numberText skipped) :=
  ends_number front " rnum" ">" (by decide) skipped

private theorem ends_upTo (front : String) (last : UInt64) :
    EndsIn (front ++ ") r WHERE ROWNUM <= " ++ Paging.numberText last)
      (front ++ ") r WHERE ROWNUM") "<=" (Paging.numberText last) :=
  ends_number front ") r WHERE ROWNUM" "<=" (by decide) last

private theorem ends_all (front : String) : EndsIn (front ++ ") r ") (front ++ ")") "r" "" where
  text_eq := by
    rw [String.append_assoc, String.append_assoc]
    rfl
  isWord := by decide
  isLast := by decide

theorem Bounds.isWord {bound : String} (bounds : Bounds bound keep) : IsWord bound := by
  cases bounds with
  | negative => decide
  | count limit => exact isWord_numberText limit

private theorem ends_limit {bound : String} (bounds : Bounds bound keep) (statement : String) :
    EndsIn (statement ++ (" LIMIT " ++ bound)) statement "LIMIT" bound where
  text_eq := (String.append_assoc ..).symm
  isWord := by decide
  isLast := bounds.isWord

theorem Bounds.unique {bound other : String} {keep' : List α → List α}
    (first : Bounds bound keep) (second : Bounds other keep') (same : bound = other) :
    keep = keep' := by
  have positive (limit : UInt64) : "-1" ≠ Paging.numberText limit := by
    intro same
    have isDigit := @Key.isDigit_of_mem limit.toNat '-'
      (Nat.toList_repr ▸ (congrArg String.toList same) ▸ List.mem_cons_self)
    cases isDigit
  cases first with
  | negative =>
      cases second with
      | negative => rfl
      | count limit => exact absurd same (positive limit)
  | count limit =>
      cases second with
      | negative => exact absurd same.symm (positive limit)
      | count other => rw [numberText_inj same]

theorem Limits.unique {other : String} {keep' : List α → List α}
    (first : Limits clause keep) (second : Limits other keep') (same : clause = other) :
    keep = keep' := by
  cases first with
  | absent =>
      cases second with
      | absent => rfl
      | bounded bounds => simp at same
  | bounded bounds =>
      cases second with
      | absent => simp at same
      | bounded bounds' =>
          have ends := ends_limit bounds ""
          rw [same] at ends
          exact bounds.unique bounds' (ends.inj (ends_limit bounds' "")).2.2

theorem Numbers.unique {inner other : String} {table table' : List (α × Nat)}
    (first : Numbers statement rows inner table) (second : Numbers statement rows other table')
    (same : inner = other) : table = table' := by
  cases first with
  | all =>
      have ends := ends_all ("SELECT r.*, ROWNUM rnum FROM (" ++ statement)
      rw [same] at ends
      cases second with
      | all => rfl
      | upTo last => exact absurd (ends.inj (ends_upTo _ last)).2.1 (by decide)
  | upTo last =>
      have ends := ends_upTo ("SELECT r.*, ROWNUM rnum FROM (" ++ statement) last
      rw [same] at ends
      cases second with
      | all => exact absurd (ends.inj (ends_all _)).2.1 (by decide)
      | upTo other => rw [numberText_inj (ends.inj (ends_upTo _ other)).2.2]

theorem Numbers.length_le {inner : String} {table : List (α × Nat)}
    (numbers : Numbers statement rows inner table) : statement.length ≤ inner.length := by
  cases numbers <;> simp only [String.length_append] <;> omega

theorem EndsIn.ne {text' front' word' last' : String} (ends : EndsIn text front word last)
    (ends' : EndsIn text' front' word' last') (other : word ≠ word') : text ≠ text' := by
  intro same
  rw [same] at ends
  exact other (ends.inj ends').2.1

theorem Limits.ne (limits : Limits clause keep) (ends : EndsIn text front word last)
    (other : "LIMIT" ≠ word) (longer : statement.length ≤ front.length) :
    statement ++ clause ≠ text := by
  cases limits with
  | absent =>
      intro same
      have lengths := ends.length_lt
      rw [← same, String.append_empty] at lengths
      omega
  | bounded bounds => exact (ends_limit bounds statement).ne ends other

/-- No text gives two different lists of rows. -/
theorem Denotes.unique {text' : String} {result result' : List α}
    (first : Denotes statement rows text result) (second : Denotes statement rows text' result')
    (same : text = text') : result = result' := by
  have limited_offset {clause clause' : String} {keep : List α → List α}
      (limits : Limits clause keep) (skipped : UInt64) :
      statement ++ clause ≠ statement ++ clause' ++ " OFFSET " ++ Paging.numberText skipped := by
    apply limits.ne (ends_offset _ skipped) (by decide)
    simp only [String.length_append]
    omega
  have limited_counted {clause : String} {keep : List α → List α} (limits : Limits clause keep)
      (last : UInt64) : statement ++ clause ≠
        "SELECT * FROM ( " ++ statement ++ ") WHERE ROWNUM <= " ++ Paging.numberText last := by
    apply limits.ne (ends_counted _ last) (by decide)
    simp only [String.length_append]
    omega
  have limited_above {clause inner keyword : String} {keep : List α → List α}
      {table : List (α × Nat)} (limits : Limits clause keep)
      (numbers : Numbers statement rows inner table) (skipped : UInt64) : statement ++ clause ≠
        "SELECT * FROM (" ++ inner ++ keyword ++ " rnum > " ++ Paging.numberText skipped := by
    have long := numbers.length_le
    apply limits.ne (ends_above _ skipped) (by decide)
    simp only [String.length_append]
    omega
  cases first with
  | limited limits =>
      cases second with
      | limited limits' => rw [limits.unique limits' (String.append_right_inj _ |>.mp same)]
      | offset _ skipped => exact absurd same (limited_offset limits skipped)
      | counted last => exact absurd same (limited_counted limits last)
      | above numbers _ skipped => exact absurd same (limited_above limits numbers skipped)
  | @offset clause _ limits skipped =>
      have ends := ends_offset (statement ++ clause) skipped
      cases second with
      | limited limits' => exact absurd same.symm (limited_offset limits' skipped)
      | offset limits' skipped' =>
          rw [same] at ends
          obtain ⟨front, _, number⟩ := ends.inj (ends_offset _ skipped')
          rw [String.append_empty, String.append_empty] at front
          rw [limits.unique limits' (String.append_right_inj _ |>.mp front), numberText_inj number]
      | counted last => exact absurd same (ends.ne (ends_counted _ last) (by decide))
      | above _ _ skipped' => exact absurd same (ends.ne (ends_above _ skipped') (by decide))
  | counted last =>
      have ends := ends_counted ("SELECT * FROM ( " ++ statement) last
      cases second with
      | limited limits' => exact absurd same.symm (limited_counted limits' last)
      | offset _ skipped => exact absurd same (ends.ne (ends_offset _ skipped) (by decide))
      | counted last' =>
          rw [same] at ends
          rw [numberText_inj (ends.inj (ends_counted _ last')).2.2]
      | above _ _ skipped => exact absurd same (ends.ne (ends_above _ skipped) (by decide))
  | @above inner keyword _ numbers isWhere skipped =>
      have ends := ends_above ("SELECT * FROM (" ++ inner ++ keyword) skipped
      cases second with
      | limited limits' => exact absurd same.symm (limited_above limits' numbers skipped)
      | offset _ skipped' => exact absurd same (ends.ne (ends_offset _ skipped') (by decide))
      | counted last => exact absurd same (ends.ne (ends_counted _ last) (by decide))
      | above numbers' isWhere' skipped' =>
          rw [same] at ends
          obtain ⟨front, _, number⟩ := ends.inj (ends_above _ skipped')
          have chars := congrArg String.toList (String.append_left_inj _ |>.mp front)
          simp only [String.toList_append] at chars
          have inners := List.append_inj_left' chars (by
            rcases isWhere with rfl | rfl <;> rcases isWhere' with rfl | rfl <;> simp)
          have equal := String.toList_inj.mp (List.append_cancel_left inners)
          rw [numbers.unique numbers' equal, numberText_inj number]

end Sql

/-! ### The pages of dialects -/

namespace Paging

variable {α : Type}

private theorem numbered_eq_map_swap (rows : List α) :
    numbered rows = (rows.zipIdx 1).map Prod.swap := by
  unfold numbered
  rw [List.zipIdx_eq_map_add (i := 1), List.map_map]
  apply List.map_congr_left
  intro entry _
  exact Prod.ext (Nat.add_comm entry.2 1) rfl

private theorem filter_le_numbered (last : Nat) (rows : List α) :
    ((numbered rows).filter fun entry => entry.1 ≤ last) = numbered (rows.take last) := by
  have first := Sql.filter_le_zipIdx last 1 rows
  rw [Nat.add_sub_cancel] at first
  rw [numbered_eq_map_swap, numbered_eq_map_swap, List.filter_map, ← first]
  rfl

private theorem map_snd_filter_lt_numbered (skipped : Nat) (rows : List α) :
    ((numbered rows).filter fun entry => skipped < entry.1).map Prod.snd = rows.drop skipped := by
  have later := Sql.map_fst_filter_zipIdx skipped 1 rows
  rw [Nat.add_sub_cancel] at later
  rw [numbered_eq_map_swap, List.filter_map, List.map_map, ← later]
  rfl

private theorem map_snd_numbered (rows : List α) : (numbered rows).map Prod.snd = rows := by
  rw [numbered_eq_map_swap, List.map_map]
  exact List.zipIdx_map_fst 1 rows

/-! The texts of the forms, composed in the way in which they are read. -/

private theorem text_limit (count : UInt64) (statement : String) :
    (limit count).text statement = statement ++ (" LIMIT " ++ numberText count) := by
  rw [← String.append_assoc]
  rfl

private theorem text_offset (skipped : UInt64) (statement : String) :
    (offset skipped).text statement = statement ++ "" ++ " OFFSET " ++ numberText skipped := by
  rw [String.append_empty]
  rfl

private theorem text_unlimitedOffset (skipped : UInt64) (statement : String) :
    (unlimitedOffset skipped).text statement =
      statement ++ (" LIMIT " ++ "-1") ++ " OFFSET " ++ numberText skipped := by
  have joined : " LIMIT " ++ ("-1" ++ " OFFSET ") = " LIMIT -1 OFFSET " := rfl
  unfold text
  simp only [← joined, String.append_assoc]

private theorem text_limitOffset (count skipped : UInt64) (statement : String) :
    (limitOffset count skipped).text statement =
      statement ++ (" LIMIT " ++ numberText count) ++ " OFFSET " ++ numberText skipped := by
  rw [← String.append_assoc]
  rfl

private theorem opened_numbers : "SELECT * FROM (" ++ "SELECT r.*, ROWNUM rnum FROM (" =
    "SELECT * FROM (SELECT r.*, ROWNUM rnum FROM (" := rfl

private theorem text_afterNumber (skipped : UInt64) (statement : String) :
    (afterNumber skipped).text statement =
      "SELECT * FROM (" ++ ("SELECT r.*, ROWNUM rnum FROM (" ++ statement ++ ") r ")
        ++ ") where" ++ " rnum > " ++ numberText skipped := by
  have closed : ") r " ++ (") where" ++ " rnum > ") = ") r ) where rnum > " := rfl
  unfold text
  simp only [← opened_numbers, ← closed, String.append_assoc]

private theorem text_betweenNumbers (skipped last : UInt64) (statement : String) :
    (betweenNumbers skipped last).text statement =
      "SELECT * FROM (" ++ ("SELECT r.*, ROWNUM rnum FROM (" ++ statement
        ++ ") r WHERE ROWNUM <= " ++ numberText last)
        ++ ") WHERE" ++ " rnum > " ++ numberText skipped := by
  have closed : ") WHERE" ++ " rnum > " = ") WHERE rnum > " := rfl
  unfold text
  simp only [← opened_numbers, ← closed, String.append_assoc]

/-- What a form leaves of the rows is what its text denotes. -/
theorem denotes_text {paging : Paging} {rows page : List α} (paged : paging.rows? rows = some page)
    (statement : String) : Sql.Denotes statement rows (paging.text statement) page := by
  cases paging with
  | whole =>
      cases paged
      have denotes : Sql.Denotes statement rows (statement ++ "") rows := .limited .absent
      rw [String.append_empty] at denotes
      exact denotes
  | limit count =>
      cases paged
      rw [text_limit]
      exact .limited (.bounded (.count count))
  | offset skipped =>
      cases paged
      rw [text_offset]
      exact .offset .absent skipped
  | unlimitedOffset skipped =>
      cases paged
      rw [text_unlimitedOffset]
      exact .offset (.bounded .negative) skipped
  | limitOffset count skipped =>
      cases paged
      rw [text_limitOffset]
      exact .offset (.bounded (.count count)) skipped
  | firstNumbered last =>
      have denotes : Sql.Denotes statement rows _ _ := .counted last
      rw [Sql.map_fst_rownum_le] at denotes
      rw [rows?, filter_le_numbered, map_snd_numbered] at paged
      cases paged
      exact denotes
  | afterNumber skipped =>
      have denotes : Sql.Denotes statement rows _ _ := .above .all (Or.inl rfl) skipped
      rw [Sql.rownum_all, Sql.map_fst_filter_zipIdx, Nat.add_sub_cancel] at denotes
      rw [rows?, map_snd_filter_lt_numbered] at paged
      cases paged
      rw [text_afterNumber]
      exact denotes
  | betweenNumbers skipped last =>
      have denotes : Sql.Denotes statement rows _ _ := .above (.upTo last) (Or.inr rfl) skipped
      rw [Sql.rownum_le, Sql.map_fst_filter_zipIdx, Nat.add_sub_cancel,
        Nat.add_sub_cancel] at denotes
      rw [rows?, filter_le_numbered, map_snd_filter_lt_numbered] at paged
      cases paged
      rw [text_betweenNumbers]
      exact denotes
  | custom write => cases paged

end Paging

namespace Dialect

variable {α : Type}

structure Slices (dialect : Dialect) : Prop where
  limit : ∀ {α : Type} (count : UInt64) (rows : List α),
    (dialect.limit count).rows? rows = some (rows.take count.toNat)
  offset : ∀ {α : Type} (skipped : UInt64) (rows : List α),
    (dialect.offset skipped).rows? rows = some (rows.drop skipped.toNat)
  range : ∀ {α : Type} (skipped count : UInt64) (rows : List α), rows.length < UInt64.size →
    (dialect.range skipped count).rows? rows =
      some ((rows.drop skipped.toNat).take count.toNat)

private theorem drop_take_saturatingSum (skipped count : UInt64) {rows : List α}
    (few : rows.length < UInt64.size) :
    (rows.take (Paging.saturatingSum skipped count).toNat).drop skipped.toNat =
      (rows.drop skipped.toNat).take count.toNat := by
  rw [List.drop_take]
  unfold Paging.saturatingSum
  by_cases fits : skipped.toNat + count.toNat < 0x10000000000000000
  · have sum : (skipped + count).toNat = skipped.toNat + count.toNat := by
      rw [UInt64.toNat_add]
      exact Nat.mod_eq_of_lt fits
    rw [if_pos fits, sum, Nat.add_sub_cancel_left]
  · have most : (0xffffffffffffffff : UInt64).toNat = UInt64.size - 1 := rfl
    have left : (rows.drop skipped.toNat).length = rows.length - skipped.toNat :=
      List.length_drop
    unfold UInt64.size at few most
    rw [if_neg fits, most, List.take_of_length_le (by omega), List.take_of_length_le (by omega)]

private theorem slices_sqlite : sqlite.Slices where
  limit _ _ := rfl
  offset _ _ := rfl
  range _ _ _ _ := rfl

private theorem slices_postgres : postgres.Slices where
  limit _ _ := rfl
  offset _ _ := rfl
  range _ _ _ _ := rfl

private theorem slices_oracle : oracle.Slices where
  limit count rows := by
    show some _ = some _
    rw [Paging.filter_le_numbered, Paging.map_snd_numbered]
  offset skipped rows := congrArg some (Paging.map_snd_filter_lt_numbered skipped.toNat rows)
  range skipped count rows few := by
    show some _ = some _
    rw [Paging.filter_le_numbered, Paging.map_snd_filter_lt_numbered,
      drop_take_saturatingSum skipped count few]

private theorem slices_of_ofName? {name : String} {dialect : Dialect}
    (shipped : ofName? name = some dialect) : dialect.Slices := by
  unfold ofName? at shipped
  simp only at shipped
  split at shipped
  · cases shipped
    exact slices_sqlite
  split at shipped
  · cases shipped
    exact slices_postgres
  split at shipped
  · cases shipped
    exact slices_oracle
  · cases shipped

theorem Slices.rows?_paging {dialect : Dialect} (slices : dialect.Slices) (page : Page)
    {rows : List α} (few : rows.length < UInt64.size) :
    (dialect.paging page).rows? rows = some (page.slice rows) := by
  obtain ⟨limit, offset⟩ := page
  unfold paging Page.slice
  cases limit with
  | none =>
      cases offset with
      | none => rfl
      | some skipped =>
          by_cases skips : 0 < skipped
          · simp only [if_pos skips]
            exact slices.offset skipped rows
          · have zero : skipped = 0 := by simpa using skips
            subst zero
            rfl
  | some count =>
      cases offset with
      | none => exact slices.limit count rows
      | some skipped =>
          by_cases skips : 0 < skipped
          · simp only [if_pos skips]
            exact slices.range skipped count rows few
          · have zero : skipped = 0 := by simpa using skips
            subst zero
            exact slices.limit count rows

/-- Whichever limit and offset are given, the statement restricted to a page denotes the slice
of the rows of the statement, and nothing else. -/
theorem denotes_page {name : String} {dialect : Dialect} (shipped : ofName? name = some dialect)
    (statement : String) (page : Page) {rows : List α} (few : rows.length < UInt64.size)
    (result : List α) :
    Sql.Denotes statement rows ((dialect.paging page).text statement) result ↔
      result = page.slice rows := by
  have slice := Paging.denotes_text ((slices_of_ofName? shipped).rows?_paging page few) statement
  constructor
  · intro denotes
    exact denotes.unique slice rfl
  · rintro rfl
    exact slice

/-- An offset and a limit whose sum does not fit. -/
theorem denotes_saturated_page :
    Sql.Denotes "SELECT name FROM book" ["Emma", "Ivanhoe", "Walden"]
      ("SELECT * FROM (SELECT r.*, ROWNUM rnum FROM (SELECT name FROM book) r " ++
        "WHERE ROWNUM <= 18446744073709551615) WHERE rnum > 1") ["Ivanhoe", "Walden"] :=
  (@denotes_page _ "Oracle" oracle rfl "SELECT name FROM book"
    ⟨some 0xffffffffffffffff, some 1⟩ _ (by decide) _).mpr rfl

end Dialect
end EntityStore
