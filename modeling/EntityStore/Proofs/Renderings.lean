/-
Reading undoes writing. Tokens are written one after the other, with blanks in front of the
first, behind the last and between any two; what is read are these tokens, each with the byte
offset at which it was written.
-/

import EntityStore.Proofs.Spellings

set_option autoImplicit false

namespace EntityStore
namespace Token

structure Gap where
  blanks : List Char
  areBlank : ∀ blank ∈ blanks, isBlank blank = true

def noGap : Gap := ⟨[], List.forall_mem_nil _⟩

def oneBlank : Gap := ⟨[' '], List.forall_mem_singleton.mpr rfl⟩

structure Piece where
  gap : Gap
  kind : TokenKind
  text : List Char
  written : Written kind text

structure Layout where
  pieces : List Piece
  last : Gap
  apart : ∀ piece ∈ pieces.tail, piece.gap.blanks ≠ []

namespace Layout

def charsFrom (last : Gap) : List Piece → List Char
  | [] => last.blanks
  | piece :: pieces => piece.gap.blanks ++ (piece.text ++ charsFrom last pieces)

def tokensFrom (last : Gap) (position : Nat) : List Piece → List Token
  | [] => [⟨.finish, position + Text.byteLength last.blanks⟩]
  | piece :: pieces =>
      let start := position + Text.byteLength piece.gap.blanks
      ⟨piece.kind, start⟩ :: tokensFrom last (start + Text.byteLength piece.text) pieces

def text (layout : Layout) : String := String.ofList (charsFrom layout.last layout.pieces)

def tokens (layout : Layout) : List Token := tokensFrom layout.last 0 layout.pieces

end Layout

/-! ### Where tokens end -/

theorem Gap.head_blank (gap : Gap) {rest : List Char} (apart : gap.blanks ≠ []) :
    ∀ next ∈ (gap.blanks ++ rest).head?, isBlank next = true := by
  intro next isNext
  rw [List.head?_append_of_ne_nil _ apart] at isNext
  exact gap.areBlank next (List.mem_of_mem_head? isNext)

theorem Layout.goesOn_charsFrom (kind : TokenKind) (last : Gap) {pieces : List Piece}
    (apart : ∀ piece ∈ pieces, piece.gap.blanks ≠ []) :
    goesOn kind (charsFrom last pieces) = false := by
  refine goesOn_eq_false_of_blank kind ?_
  cases pieces with
  | nil => exact fun next isNext => last.areBlank next (List.mem_of_mem_head? isNext)
  | cons piece pieces => exact piece.gap.head_blank (apart piece List.mem_cons_self)

/-! ### What was written is read -/

/-- Pieces are read from any byte offset on; only the first may stand without a blank. -/
theorem Layout.scan_charsFrom (last : Gap) {pieces : List Piece}
    (apart : ∀ piece ∈ pieces.tail, piece.gap.blanks ≠ []) (position : Nat) :
    scan position (charsFrom last pieces) = .ok (tokensFrom last position pieces) := by
  induction pieces generalizing position with
  | nil =>
      have blanks := scan_blanks last.areBlank position []
      rw [List.append_nil] at blanks
      rw [charsFrom, blanks, scan, tokensFrom]
  | cons piece pieces ih =>
      rw [List.tail_cons] at apart
      have begins := begins_written piece.written (goesOn_charsFrom piece.kind last apart)
      have rest := ih fun other member => apart other (List.mem_of_mem_tail member)
      rw [charsFrom, scan_blanks piece.gap.areBlank, scan_begins begins, rest]
      rfl

/-- The text of a layout is read as its tokens. -/
theorem Layout.ofText_text (layout : Layout) : ofText layout.text = .ok layout.tokens := by
  unfold ofText text
  rw [String.toList_ofList]
  exact scan_charsFrom layout.last layout.apart 0

/-- A word, the least integer, operators of two characters, and a string with a quote and a
letter of two bytes. -/
def Samples.mixed : Layout where
  pieces := [
    ⟨noGap, .word "age", _, .word (.name rfl (List.all_eq_true.mp rfl))⟩,
    ⟨oneBlank, .atLeast, _, .atLeast⟩,
    ⟨⟨['\n'], List.all_eq_true.mp rfl⟩, .integer Int64.minValue, _, .integer _⟩,
    ⟨⟨[' ', '\t'], List.all_eq_true.mp rfl⟩, .unequal, _, .lessOrGreater⟩,
    ⟨oneBlank, .string "né'e", _, .string _⟩]
  last := oneBlank
  apart := by decide

example : Samples.mixed.text = "age >=\n-9223372036854775808 \t<> 'né''e' " ∧
    ofText Samples.mixed.text = .ok [⟨.word "age", 0⟩, ⟨.atLeast, 4⟩,
      ⟨.integer Int64.minValue, 7⟩, ⟨.unequal, 29⟩, ⟨.string "né'e", 32⟩, ⟨.finish, 41⟩] := by
  decide +kernel

end Token
end EntityStore
