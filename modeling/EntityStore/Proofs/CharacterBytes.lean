/-
Texts as bytes. An ASCII character is one byte, and no byte of another character looks like one.
So runs of ASCII characters can be found byte by byte, and they end between characters. A text
can only be split at a byte offset where no character is cut.
-/

import EntityStore.Text
import Mathlib.Data.List.Basic

set_option autoImplicit false

namespace EntityStore
namespace Text

def bytes (text : List Char) : List UInt8 := text.flatMap String.utf8EncodeChar

theorem bytes_cons (first : Char) (rest : List Char) :
    bytes (first :: rest) = String.utf8EncodeChar first ++ bytes rest := rfl

theorem exists_byte (first : Char) (rest : List Char) :
    ∃ byte more, bytes (first :: rest) = byte :: more := by
  have nonempty : bytes (first :: rest) ≠ [] :=
    List.append_ne_nil_of_left_ne_nil String.utf8EncodeChar_ne_nil _
  exact List.exists_cons_of_ne_nil nonempty

theorem bytes_append (front behind : List Char) :
    bytes (front ++ behind) = bytes front ++ bytes behind := List.flatMap_append

theorem length_bytes (text : List Char) : (bytes text).length = byteLength text := by
  induction text with
  | nil => rfl
  | cons first rest ih =>
      rw [bytes_cons, List.length_append, String.length_utf8EncodeChar, ih, byteLength]

theorem byteLength_append (front behind : List Char) :
    byteLength (front ++ behind) = byteLength front + byteLength behind := by
  simp only [← length_bytes, bytes_append, List.length_append]

/-! ### ASCII characters -/

def IsAscii (kind : Char → Bool) : Prop :=
  ∀ character, kind character = true → character.toNat < 128

def byteIs (kind : Char → Bool) (byte : UInt8) : Bool := kind (Char.ofUInt8 byte)

def nextIs (kind : Char → Bool) (bytes : List UInt8) : Bool := bytes.head?.any (byteIs kind)

private theorem toNat_ofUInt8 (byte : UInt8) : (Char.ofUInt8 byte).toNat = byte.toNat := rfl

theorem utf8EncodeChar_narrow {character : Char} (narrow : character.toNat < 128) :
    String.utf8EncodeChar character = [character.toUInt8] ∧
      Char.ofUInt8 character.toUInt8 = character := by
  have size : character.utf8Size = 1 := by
    rw [Char.utf8Size_eq_one_iff, UInt32.le_iff_toNat_le]
    exact Nat.le_of_lt_succ narrow
  refine ⟨String.utf8EncodeChar_eq_singleton size, Char.toNat_inj.mp ?_⟩
  have small : character.toUInt8.toNat = character.toNat % 256 := rfl
  rw [toNat_ofUInt8, small]
  omega

theorem utf8EncodeChar_wide {character : Char} (wide : 128 ≤ character.toNat) {byte : UInt8}
    (member : byte ∈ String.utf8EncodeChar character) : 128 ≤ byte.toNat := by
  have high {number modulus mark : Nat} (isHigh : 128 ≤ mark) (positive : 0 < modulus)
      (fits : modulus + mark ≤ 256) : 128 ≤ (UInt8.ofNat (number % modulus + mark)).toNat := by
    have below := Nat.mod_lt number positive
    rw [UInt8.toNat_ofNat']
    omega
  have notNarrow : ¬ character.val.toNat ≤ 0x7f := Nat.not_le_of_lt wide
  unfold String.utf8EncodeChar at member
  simp only [notNarrow, ↓reduceIte] at member
  split at member
  · simp only [List.mem_cons, List.not_mem_nil, or_false] at member
    obtain rfl | rfl := member <;> exact high (by decide) (by decide) (by decide)
  split at member
  · simp only [List.mem_cons, List.not_mem_nil, or_false] at member
    obtain rfl | rfl | rfl := member <;> exact high (by decide) (by decide) (by decide)
  · simp only [List.mem_cons, List.not_mem_nil, or_false] at member
    obtain rfl | rfl | rfl | rfl := member <;> exact high (by decide) (by decide) (by decide)

section Ascii

variable {kind : Char → Bool} (isAscii : IsAscii kind)
include isAscii

/-- Each byte of a character is of a kind if and only if the character is. -/
theorem byteIs_of_mem {character : Char} {byte : UInt8}
    (member : byte ∈ String.utf8EncodeChar character) : byteIs kind byte = kind character := by
  rcases Nat.lt_or_ge character.toNat 128 with narrow | wide
  · obtain ⟨single, back⟩ := utf8EncodeChar_narrow narrow
    rw [single, List.mem_singleton] at member
    rw [byteIs, member, back]
  · have high := utf8EncodeChar_wide wide member
    have noCharacter : kind character = false :=
      Bool.eq_false_iff.mpr fun holds => Nat.not_lt_of_le wide (isAscii _ holds)
    have noByte : byteIs kind byte = false :=
      Bool.eq_false_iff.mpr fun holds => Nat.not_lt_of_le high (isAscii _ holds)
    rw [noCharacter, noByte]

private theorem exists_byteIs (character : Char) :
    ∃ byte more, String.utf8EncodeChar character = byte :: more ∧
      byteIs kind byte = kind character := by
  obtain ⟨byte, more, encoded⟩ :=
    List.exists_cons_of_ne_nil (@String.utf8EncodeChar_ne_nil character)
  exact ⟨byte, more, encoded, byteIs_of_mem isAscii (encoded ▸ List.mem_cons_self)⟩

theorem nextIs_bytes (text : List Char) : nextIs kind (bytes text) = text.head?.any kind := by
  cases text with
  | nil => rfl
  | cons first rest =>
      obtain ⟨byte, more, encoded, same⟩ := exists_byteIs isAscii first
      rw [bytes_cons, encoded]
      exact same

/-- A run of bytes ends where the run of characters ends. -/
theorem span_bytes (text : List Char) :
    (bytes text).takeWhile (byteIs kind) = bytes (text.takeWhile kind) ∧
      (bytes text).dropWhile (byteIs kind) = bytes (text.dropWhile kind) := by
  induction text with
  | nil => exact ⟨rfl, rfl⟩
  | cons first rest ih =>
      obtain ⟨byte, more, encoded, same⟩ := exists_byteIs isAscii first
      cases holds : kind first with
      | true =>
          obtain ⟨single, _⟩ := utf8EncodeChar_narrow (isAscii first holds)
          obtain ⟨rfl, rfl⟩ := List.cons.inj (encoded.symm.trans single)
          rw [holds] at same
          simp [bytes_cons, single, same, holds, ih]
      | false =>
          rw [holds] at same
          simp [bytes_cons, encoded, same, holds]
          rfl

end Ascii

/-! ### Slices -/

/-- A text on both sides of a byte offset, if no character is cut there. -/
def splitAt? : Nat → List Char → Option (List Char × List Char)
  | 0, text => some ([], text)
  | _ + 1, [] => none
  | offset + 1, first :: rest =>
      if first.utf8Size ≤ offset + 1 then
        (splitAt? (offset + 1 - first.utf8Size) rest).map fun (front, behind) =>
          (first :: front, behind)
      else none

/-- The text between two byte offsets, if no character is cut at either. -/
def slice? (text : List Char) (start stop : Nat) : Option (List Char) :=
  if start ≤ stop then
    (splitAt? stop text).bind fun (front, _) => (splitAt? start front).map Prod.snd
  else none

theorem byteLength_eq_zero_iff {text : List Char} : byteLength text = 0 ↔ text = [] := by
  cases text with
  | nil => simp [byteLength]
  | cons first rest =>
      have positive := first.utf8Size_pos
      simp [byteLength]
      omega

theorem splitAt?_eq_some_iff {offset : Nat} {text front behind : List Char} :
    splitAt? offset text = some (front, behind) ↔
      text = front ++ behind ∧ byteLength front = offset := by
  fun_induction splitAt? offset text generalizing front behind with
  | case1 text =>
      rw [byteLength_eq_zero_iff]
      constructor
      · rintro ⟨⟩
        exact ⟨rfl, rfl⟩
      · rintro ⟨rfl, rfl⟩
        rfl
  | case2 offset =>
      constructor
      · rintro ⟨⟩
      · rintro ⟨same, length⟩
        obtain ⟨rfl, rfl⟩ := List.append_eq_nil_iff.mp same.symm
        cases length
  | case3 offset first rest fits ih =>
      constructor
      · intro found
        obtain ⟨⟨inner, _⟩, split, same⟩ := Option.map_eq_some_iff.mp found
        cases same
        obtain ⟨rfl, length⟩ := ih.mp split
        refine ⟨rfl, ?_⟩
        rw [byteLength]
        omega
      · rintro ⟨same, length⟩
        cases front with
        | nil => cases length
        | cons head inner =>
            cases same
            rw [byteLength] at length
            rw [ih.mpr ⟨rfl, by omega⟩]
            rfl
  | case4 offset first rest cut =>
      constructor
      · rintro ⟨⟩
      · rintro ⟨same, length⟩
        cases front with
        | nil => cases length
        | cons head inner =>
            cases same
            rw [byteLength] at length
            omega

theorem slice?_append (done inner rest : List Char) :
    slice? (done ++ (inner ++ rest)) (byteLength done) (byteLength done + byteLength inner)
      = some inner := by
  have outer := splitAt?_eq_some_iff.mpr
    ⟨(List.append_assoc done inner rest).symm, byteLength_append done inner⟩
  have within := splitAt?_eq_some_iff.mpr ⟨@rfl _ (done ++ inner), @rfl _ (byteLength done)⟩
  rw [slice?, if_pos (Nat.le_add_right _ _), outer]
  simp [within]

theorem slice?_rest (done rest : List Char) :
    slice? (done ++ rest) (byteLength done) (byteLength (done ++ rest)) = some rest := by
  have slice := slice?_append done rest []
  rwa [List.append_nil, ← byteLength_append] at slice

end Text
end EntityStore
