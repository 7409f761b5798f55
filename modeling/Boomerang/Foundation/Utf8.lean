import Mathlib.Data.UInt
import Mathlib.Data.List.Basic

/-!
# Strings as UTF-8 bytes

A string is a valid UTF-8 byte sequence, so it is determined by its bytes.
`fromUtf8` is the checked conversion back; `fromUtf8Unchecked` is the conversion
that skips the check and is meaningful on valid bytes only.
-/

namespace Boomerang.Foundation

/-- The bytes of a string. -/
def bytes (text : String) : List UInt8 := text.toByteArray.data.toList

/-- The length of a string in bytes. -/
def byteLength (text : String) : Nat := (bytes text).length

/-- The string with the given bytes, when they are valid UTF-8. -/
def fromUtf8 (raw : List UInt8) : Option String := String.fromUTF8? ⟨raw.toArray⟩

/-- The string with the given bytes, which the caller promises to be valid. On
other bytes the source has undefined behaviour; here the result is empty. -/
def fromUtf8Unchecked (raw : List UInt8) : String := (fromUtf8 raw).getD ""

/-- Strings with equal bytes are equal. -/
theorem bytes_injective : Function.Injective bytes := by
  intro left right same
  apply String.toByteArray_inj.mp
  apply ByteArray.ext
  exact Array.toList_inj.mp same

@[simp] theorem bytes_inj {left right : String} : bytes left = bytes right ↔ left = right :=
  bytes_injective.eq_iff

@[simp] theorem bytes_empty : bytes "" = [] := rfl

@[simp] theorem bytes_append (left right : String) :
    bytes (left ++ right) = bytes left ++ bytes right := by
  simp [bytes, String.toByteArray_append, ByteArray.data_append]

@[simp] theorem take_byteLength (text : String) :
    (bytes text).take (byteLength text) = bytes text :=
  List.take_length

/-- The checked conversion accepts exactly the bytes of a string. -/
theorem fromUtf8_eq_some {raw : List UInt8} {text : String} :
    fromUtf8 raw = some text ↔ bytes text = raw := by
  unfold fromUtf8 String.fromUTF8?
  constructor
  · intro converted
    split at converted
    · cases converted
      rfl
    · cases converted
  · rintro rfl
    have same : (⟨(bytes text).toArray⟩ : ByteArray) = text.toByteArray := by
      apply ByteArray.ext
      simp [bytes]
    rw [dif_pos (same ▸ text.isValidUTF8)]
    apply congrArg some
    apply String.toByteArray_inj.mp
    exact same

@[simp] theorem fromUtf8_bytes (text : String) : fromUtf8 (bytes text) = some text :=
  fromUtf8_eq_some.mpr rfl

@[simp] theorem fromUtf8Unchecked_bytes (text : String) :
    fromUtf8Unchecked (bytes text) = text := by
  simp [fromUtf8Unchecked]

/-- Bytes that do not start with the first byte of a character are no string. -/
theorem fromUtf8_cons_eq_none {byte : UInt8} (notFirst : ¬ byte.IsUTF8FirstByte)
    (rest : List UInt8) : fromUtf8 (byte :: rest) = none := by
  unfold fromUtf8 String.fromUTF8?
  rw [dif_neg]
  intro valid
  exact notFirst (valid.isUTF8FirstByte_getElem_zero (by simp [ByteArray.size]))

/-- The bytes of a string are the encodings of its characters, one after the other. -/
theorem bytes_eq_flatMap (text : String) :
    ∃ chars : List Char, bytes text = chars.flatMap String.utf8EncodeChar := by
  obtain ⟨chars, encoded⟩ := text.isValidUTF8
  refine ⟨chars, ?_⟩
  rw [bytes, encoded, List.utf8Encode, List.toList_data_toByteArray]

/-- The bytes of a list of characters. -/
theorem bytes_ofList (chars : List Char) :
    bytes (String.ofList chars) = chars.flatMap String.utf8EncodeChar := by
  rw [bytes, String.toByteArray_ofList, List.utf8Encode, List.toList_data_toByteArray]

/-- The bytes of a repeated character that is encoded in one byte. -/
theorem bytes_replicate {char : Char} {byte : UInt8}
    (single : String.utf8EncodeChar char = [byte]) (count : Nat) :
    bytes (String.ofList (List.replicate count char)) = List.replicate count byte := by
  rw [bytes_ofList]
  induction count with
  | zero => rfl
  | succ count ih =>
      rw [List.replicate_succ, List.flatMap_cons, ih, single, List.replicate_succ]
      rfl

/-- A string of one byte is one ASCII character. -/
theorem ascii_of_single {text : String} {byte : UInt8} (single : bytes text = [byte]) :
    byte.toNat < 128 := by
  obtain ⟨chars, encoded⟩ := bytes_eq_flatMap text
  rw [single] at encoded
  cases chars with
  | nil => simp at encoded
  | cons char rest =>
      rw [List.flatMap_cons, String.utf8EncodeChar] at encoded
      split at encoded
      · have headByte := (List.cons.inj encoded).1
        rw [headByte, UInt8.toNat_ofNat']
        omega
      · split at encoded
        · simp at encoded
        · split at encoded <;> simp at encoded

end Boomerang.Foundation
