/-
Where a text is cut. Each token of a text goes up to the next one, and what is between the two
positions is read on its own as that token. Where a text cannot be read, what stands in front
can, and no token begins there.
-/

import EntityStore.Proofs.ByteScanning
import Mathlib.Data.List.Chain

set_option autoImplicit false

namespace EntityStore
namespace Token

open Text (byteLength splitAt? slice?)

structure CutInto (text : List Char) (tokens : List Token) : Prop where
  increasing : tokens.Pairwise fun earlier later => earlier.position < later.position
  boundaries : ∀ token ∈ tokens, (splitAt? token.position text).isSome
  pieces : tokens.IsChain fun token next =>
    ∃ piece, slice? text token.position next.position = some piece ∧
      ofText (String.ofList piece) = .ok [⟨token.kind, 0⟩, ⟨.finish, byteLength piece⟩]

/-- A fault inside a text: what stands in front has tokens, and what stands behind begins with
none. -/
structure StopsAt (text : List Char) (fault : Fault) : Prop where
  inside : fault.position < byteLength text
  split : ∃ front behind, splitAt? fault.position text = some (front, behind) ∧
    (∃ tokens, ofText (String.ofList front) = .ok tokens) ∧
    ofText (String.ofList behind) = .error ⟨0, fault.cause⟩

/-! ### What is cut off behind a token -/

private theorem goesOn_eq_false_of_append {kind : TokenKind} {near far : List Char}
    (ends : goesOn kind (near ++ far) = false) : goesOn kind near = false := by
  cases near with
  | nil => exact goesOn_eq_false_of_blank kind (by simp)
  | cons next near =>
      cases kind with
      -- Only a fraction is looked for further than one character ahead.
      | integer number =>
          obtain ⟨noDigit, noFraction⟩ := Bool.or_eq_false_iff.mp ends
          refine Bool.or_eq_false_iff.mpr ⟨noDigit, Bool.eq_false_iff.mpr fun isFraction => ?_⟩
          obtain ⟨⟨digits, rest⟩, found⟩ := Option.isSome_iff_exists.mp isFraction
          obtain ⟨same, areDigits, _⟩ := fraction?_eq_some_iff.mp found
          obtain ⟨digit, more, rfl⟩ := List.exists_cons_of_ne_nil areDigits.1
          have isDigit := areDigits.2 digit List.mem_cons_self
          rw [same] at noFraction
          simp [fraction?, isDigit] at noFraction
      | _ => exact ends

inductive Cut : Nat → List Char → List Token → Prop where
  | finish {position : Nat} : Cut position [] [⟨.finish, position⟩]
  | token {position : Nat} {kind : TokenKind} {eaten gap rest : List Char} {tokens : List Token} :
      Begins kind eaten gap → (∀ blank ∈ gap, isBlank blank = true) →
      Cut (position + byteLength (eaten ++ gap)) rest tokens →
      Cut position (eaten ++ gap ++ rest) (⟨kind, position⟩ :: tokens)

private theorem exists_cut {position : Nat} {text : List Char} {tokens : List Token}
    (scanned : scan position text = .ok tokens) :
    ∃ gap rest, text = gap ++ rest ∧ (∀ blank ∈ gap, isBlank blank = true) ∧
      Cut (position + byteLength gap) rest tokens := by
  induction text using text_induction generalizing position tokens with
  | nil =>
      rw [scan] at scanned
      cases scanned
      exact ⟨[], [], rfl, by simp, .finish⟩
  | blank first tail isBlank ih =>
      rw [scan, if_pos isBlank] at scanned
      obtain ⟨gap, rest, rfl, blanks, cut⟩ := ih scanned
      refine ⟨first :: gap, rest, rfl, List.forall_mem_cons.mpr ⟨isBlank, blanks⟩, ?_⟩
      rwa [byteLength, ← Nat.add_assoc]
  | fault first tail cause notBlank found =>
      rw [scan_fault notBlank found] at scanned
      cases scanned
  | token kind eaten rest spelling ends ih =>
      rw [scan_begins (begins_spelling spelling ends)] at scanned
      cases scannedRest : scan (position + byteLength eaten) rest with
      | error fault =>
          rw [scannedRest] at scanned
          cases scanned
      | ok later =>
      rw [scannedRest] at scanned
      cases scanned
      -- The blanks in front of the later tokens belong to the piece of this one.
      obtain ⟨gap, behind, rfl, blanks, cut⟩ := ih scannedRest
      rw [Nat.add_assoc, ← Text.byteLength_append] at cut
      have begins := begins_spelling spelling (goesOn_eq_false_of_append ends)
      exact ⟨[], eaten ++ gap ++ behind, (List.append_assoc _ _ _).symm, by simp,
        .token begins blanks cut⟩

/-! ### Pieces -/

theorem Cut.head {position : Nat} {text : List Char} {tokens : List Token}
    (cut : Cut position text tokens) :
    ∃ first rest, tokens = first :: rest ∧ first.position = position := by
  cases cut <;> exact ⟨_, _, rfl, rfl⟩

theorem Cut.le_of_mem {position : Nat} {text : List Char} {tokens : List Token}
    (cut : Cut position text tokens) {token : Token} (member : token ∈ tokens) :
    position ≤ token.position := by
  induction cut with
  | finish =>
      rw [List.mem_singleton.mp member]
  | token begins blanks cut ih =>
      rcases List.mem_cons.mp member with rfl | isLater
      · exact Nat.le_refl _
      · exact Nat.le_trans (Nat.le_add_right _ _) (ih isLater)

private theorem byteLength_pos_of_begins {kind : TokenKind} {text rest : List Char}
    (begins : Begins kind text rest) : 0 < byteLength text := by
  obtain ⟨first, eaten, rfl, _, _⟩ := begins
  exact Nat.add_pos_left first.utf8Size_pos _

theorem Cut.increasing {position : Nat} {text : List Char} {tokens : List Token}
    (cut : Cut position text tokens) :
    tokens.Pairwise fun earlier later => earlier.position < later.position := by
  induction cut with
  | finish => exact List.pairwise_singleton _ _
  | token begins blanks cut ih =>
      refine List.pairwise_cons.mpr ⟨fun later member => ?_, ih⟩
      have positive := byteLength_pos_of_begins begins
      have bound := cut.le_of_mem member
      rw [Text.byteLength_append] at bound
      simp only
      omega

section Whole

variable {position : Nat} {whole done text : List Char} {tokens : List Token}

theorem Cut.boundaries (cut : Cut position text tokens) (same : whole = done ++ text)
    (atPosition : byteLength done = position) :
    ∀ token ∈ tokens, (splitAt? token.position whole).isSome := by
  induction cut generalizing done with
  | finish =>
      intro token member
      rw [List.mem_singleton.mp member, Text.splitAt?_eq_some_iff.mpr ⟨same, atPosition⟩]
      rfl
  | @token position kind eaten gap rest tokens begins blanks cut ih =>
      refine List.forall_mem_cons.mpr ⟨?_, ?_⟩
      · rw [Text.splitAt?_eq_some_iff.mpr ⟨same, atPosition⟩]
        rfl
      · refine @ih (done ++ (eaten ++ gap)) ?_ ?_
        · rw [same, List.append_assoc done]
        · rw [Text.byteLength_append, atPosition]

/-- A token with nothing but blanks behind it is read on its own. -/
theorem ofText_piece {kind : TokenKind} {eaten gap : List Char} (begins : Begins kind eaten gap)
    (blanks : ∀ blank ∈ gap, isBlank blank = true) :
    ofText (String.ofList (eaten ++ gap))
      = .ok [⟨kind, 0⟩, ⟨.finish, byteLength (eaten ++ gap)⟩] := by
  have rest := scan_blanks blanks (0 + byteLength eaten) []
  rw [List.append_nil, scan, Nat.zero_add, ← Text.byteLength_append] at rest
  rw [ofText, String.toList_ofList, scan_begins begins, Nat.zero_add, rest]
  rfl

theorem Cut.pieces (cut : Cut position text tokens) (same : whole = done ++ text)
    (atPosition : byteLength done = position) :
    tokens.IsChain fun token next =>
      ∃ piece, slice? whole token.position next.position = some piece ∧
        ofText (String.ofList piece) = .ok [⟨token.kind, 0⟩, ⟨.finish, byteLength piece⟩] := by
  induction cut generalizing done with
  | finish => exact .singleton _
  | @token position kind eaten gap rest tokens begins blanks cut ih =>
      have later := @ih (done ++ (eaten ++ gap)) (by rw [same, List.append_assoc done])
        (by rw [Text.byteLength_append, atPosition])
      obtain ⟨next, others, rfl, atNext⟩ := cut.head
      refine .cons_cons ⟨eaten ++ gap, ?_, ofText_piece begins blanks⟩ later
      rw [same, atNext, ← atPosition]
      exact Text.slice?_append done (eaten ++ gap) rest

end Whole

private theorem cutInto_of_ok {text : String} {tokens : List Token}
    (scanned : ofText text = .ok tokens) : CutInto text.toList tokens := by
  obtain ⟨gap, rest, same, _, cut⟩ := exists_cut scanned
  have atGap : byteLength gap = 0 + byteLength gap := (Nat.zero_add _).symm
  exact ⟨cut.increasing, cut.boundaries same atGap, cut.pieces same atGap⟩

/-! ### Faults -/

private theorem exists_split_of_error {position : Nat} {text : List Char} {fault : Fault}
    (failed : scan position text = .error fault) :
    ∃ front first tail, text = front ++ first :: tail ∧
      fault.position = position + byteLength front ∧
      (∃ tokens, scan position front = .ok tokens) ∧
      isBlank first = false ∧ lexeme first tail = .error fault.cause := by
  induction text using text_induction generalizing position with
  | nil =>
      rw [scan] at failed
      cases failed
  | blank first tail isBlank ih =>
      rw [scan, if_pos isBlank] at failed
      obtain ⟨front, next, behind, rfl, atFault, ⟨tokens, scanned⟩, begins⟩ := ih failed
      refine ⟨first :: front, next, behind, rfl, ?_, ⟨tokens, ?_⟩, begins⟩
      · rw [atFault, byteLength, Nat.add_assoc]
      · rw [scan, if_pos isBlank, scanned]
  | fault first tail cause notBlank found =>
      rw [scan_fault notBlank found] at failed
      cases failed
      exact ⟨[], first, tail, rfl, rfl, ⟨_, by rw [scan]⟩, notBlank, found⟩
  | token kind eaten rest spelling ends ih =>
      rw [scan_begins (begins_spelling spelling ends)] at failed
      cases failedRest : scan (position + byteLength eaten) rest with
      | ok tokens =>
          rw [failedRest] at failed
          cases failed
      | error inner =>
          rw [failedRest] at failed
          cases failed
          obtain ⟨front, next, behind, rfl, atFault, ⟨tokens, scanned⟩, begins⟩ := ih failedRest
          have beginsToken := begins_spelling spelling (goesOn_eq_false_of_append ends)
          refine ⟨eaten ++ front, next, behind, (List.append_assoc _ _ _).symm, ?_,
            ⟨⟨kind, position⟩ :: tokens, ?_⟩, begins⟩
          · rw [atFault, Text.byteLength_append, Nat.add_assoc]
          · rw [scan_begins beginsToken, scanned]
            rfl

private theorem stopsAt_of_error {text : String} {fault : Fault}
    (failed : ofText text = .error fault) : StopsAt text.toList fault := by
  obtain ⟨front, first, tail, same, atFault, ⟨tokens, scanned⟩, notBlank, found⟩ :=
    exists_split_of_error failed
  rw [Nat.zero_add] at atFault
  refine ⟨?_, front, first :: tail, ?_, ⟨tokens, ?_⟩, ?_⟩
  · have positive := first.utf8Size_pos
    rw [same, atFault, Text.byteLength_append, byteLength]
    omega
  · exact Text.splitAt?_eq_some_iff.mpr ⟨same, atFault.symm⟩
  · rw [ofText, String.toList_ofList, scanned]
  · rw [ofText, String.toList_ofList, scan_fault notBlank found]

/-- The scan of a text cuts no character. Either it gives tokens whose positions cut the text
into one piece for each of them, or it stops inside the text where no token begins. -/
theorem ofText_cuts (text : String) :
    scanBytes text.toList 0 (Text.bytes text.toList) = some (ofText text) ∧
      match ofText text with
      | .ok tokens => CutInto text.toList tokens
      | .error fault => StopsAt text.toList fault := by
  refine ⟨scanBytes_text text, ?_⟩
  cases scanned : ofText text with
  | ok tokens => exact cutInto_of_ok scanned
  | error fault => exact stopsAt_of_error scanned

end Token
end EntityStore
