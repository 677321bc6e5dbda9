import Mathlib.Algebra.GroupWithZero.Nat
import Mathlib.Algebra.Order.Group.Nat
import Mathlib.Algebra.Order.BigOperators.Group.List

/-!
# Compact JSON text

The text a compact JSON writer emits, as bytes. Every combinator takes the text of
its parts, so the text of a value is written by recursion over the value, and each
combinator has a size: what it adds to the sizes of its parts. Lower-case hexadecimal
is used for the escapes of control characters.
-/

namespace Splinterm.Lib.Json

open List

def utf8 (s : String) : List UInt8 := s.toByteArray.data.toList

theorem utf8_ofList (l : List Char) : utf8 (String.ofList l) = l.flatMap String.utf8EncodeChar := by
  rw [utf8, String.toByteArray_ofList, utf8Encode, data_toByteArray]

theorem length_utf8 (s : String) : (utf8 s).length = s.utf8ByteSize := rfl

/-! ## Scalars -/

def hexDigit (n : Nat) : UInt8 := if n < 10 then UInt8.ofNat (0x30 + n) else UInt8.ofNat (0x57 + n)

/-- One byte of a text between quotation marks. -/
def escape (b : UInt8) : List UInt8 :=
  if b = 0x22 then [0x5C, 0x22]
  else if b = 0x5C then [0x5C, 0x5C]
  else if b = 0x08 then [0x5C, 0x62]
  else if b = 0x09 then [0x5C, 0x74]
  else if b = 0x0A then [0x5C, 0x6E]
  else if b = 0x0C then [0x5C, 0x66]
  else if b = 0x0D then [0x5C, 0x72]
  else if b < 0x20 then [0x5C, 0x75, 0x30, 0x30, hexDigit (b.toNat / 16), hexDigit (b.toNat % 16)]
  else [b]

def escapeSize (b : UInt8) : Nat :=
  if b = 0x22 ∨ b = 0x5C ∨ b = 0x08 ∨ b = 0x09 ∨ b = 0x0A ∨ b = 0x0C ∨ b = 0x0D then 2
  else if b < 0x20 then 6
  else 1

theorem length_escape (b : UInt8) : (escape b).length = escapeSize b := by
  unfold escape escapeSize
  split_ifs <;> simp_all

def text (bytes : List UInt8) : List UInt8 := 0x22 :: bytes.flatMap escape ++ [0x22]

def textSize (bytes : List UInt8) : Nat := 2 + (bytes.map escapeSize).sum

theorem length_text (bytes : List UInt8) : (text bytes).length = textSize bytes := by
  have hbody : (bytes.flatMap escape).length = (bytes.map escapeSize).sum := by
    rw [length_flatMap]
    congr 1
    exact map_congr_left fun b _ => length_escape b
  rw [text, textSize, length_append, length_cons, length_singleton]
  omega

/-- The decimal digits of a number. -/
def natural (n : Nat) : List UInt8 := (Nat.toDigits 10 n).map fun c => UInt8.ofNat c.toNat

def integer : Int → List UInt8
  | .ofNat n => natural n
  | .negSucc n => 0x2D :: natural (n + 1)

def boolean : Bool → List UInt8
  | true => utf8 "true"
  | false => utf8 "false"

def null : List UInt8 := utf8 "null"

/-! ## Collections -/

/-- The parts with a comma between two of them. -/
def separated : List (List UInt8) → List UInt8
  | [] => []
  | [part] => part
  | part :: parts => part ++ 0x2C :: separated parts

/-- What the parts and the commas between them take. -/
def separatedSize (sizes : List Nat) : Nat := sizes.sum + (sizes.length - 1)

theorem length_separated (parts : List (List UInt8)) :
    (separated parts).length = separatedSize (parts.map List.length) := by
  induction parts with
  | nil => rfl
  | cons part parts ih =>
    cases parts with
    | nil => simp [separated, separatedSize]
    | cons next parts =>
      rw [separated, length_append, length_cons, ih]
      · simp only [separatedSize, map_cons, sum_cons, length_cons]
        omega
      · exact cons_ne_nil _ _

/-- An array or an object from the sizes of its parts. -/
def bracketSize (sizes : List Nat) : Nat := 2 + separatedSize sizes

def array (items : List (List UInt8)) : List UInt8 := 0x5B :: separated items ++ [0x5D]

theorem length_array (items : List (List UInt8)) : (array items).length = bracketSize (items.map List.length) := by
  rw [array, length_append, length_cons, length_separated, length_singleton, bracketSize]
  omega

def object (members : List (List UInt8)) : List UInt8 := 0x7B :: separated members ++ [0x7D]

theorem length_object (members : List (List UInt8)) :
    (object members).length = bracketSize (members.map List.length) := by
  rw [object, length_append, length_cons, length_separated, length_singleton, bracketSize]
  omega

def member (name : String) (value : List UInt8) : List UInt8 := text (utf8 name) ++ 0x3A :: value

def memberSize (name : String) (size : Nat) : Nat := textSize (utf8 name) + 1 + size

theorem length_member (name : String) (value : List UInt8) :
    (member name value).length = memberSize name value.length := by
  rw [member, length_append, length_text, length_cons, memberSize]
  omega

end Splinterm.Lib.Json
