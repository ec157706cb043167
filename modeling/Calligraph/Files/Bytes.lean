/-!
# Texts in bytes

The operating system has names, paths, arguments and the contents of files as bytes, which need not
be the code of a text. To be shown, bytes that are not are read as well as can be, with a mark in
the place of what is no character.
-/

namespace Calligraph

abbrev Bytes := List UInt8

namespace Bytes

@[match_pattern] def dash : UInt8 := 0x2D
@[match_pattern] def dot : UInt8 := 0x2E
@[match_pattern] def slash : UInt8 := 0x2F
@[match_pattern] def equals : UInt8 := 0x3D

def ofText (text : String) : Bytes :=
  text.toByteArray.data.toList

instance : Coe String Bytes := ⟨ofText⟩

/-- The text that the bytes are the code of. -/
def text? (bytes : Bytes) : Option String :=
  String.fromUTF8? bytes.toByteArray

def firstChar? (bytes : Bytes) : Option Char :=
  (bytes.take 4).toByteArray.utf8DecodeChar? 0

/-- The byte can stand in a character, but not at its start. -/
def isTail (b : UInt8) : Bool :=
  0x80 ≤ b && b ≤ 0xBF

/-- A character of three bytes can start with these two. -/
def startsThree (a b : UInt8) : Bool :=
  isTail b && ((a == 0xE0 && 0xA0 ≤ b) || (0xE1 ≤ a && a ≤ 0xEC) || (a == 0xED && b ≤ 0x9F) ||
    a == 0xEE || a == 0xEF)

/-- A character of four bytes can start with these two. -/
def startsFour (a b : UInt8) : Bool :=
  isTail b && ((a == 0xF0 && 0x90 ≤ b) || (0xF1 ≤ a && a ≤ 0xF3) || (a == 0xF4 && b ≤ 0x8F))

/-- How many bytes one mark stands for where no character starts: all that could have become a
character, and at least one. -/
def brokenSize : Bytes → Nat
  | a :: b :: rest =>
    if startsFour a b && rest.head?.any isTail then 3
    else if startsFour a b || startsThree a b then 2
    else 1
  | _ => 1

/-- The characters of bytes after `skip` of them, with marks for what is no character. -/
def marked : Nat → Bytes → List Char
  | _, [] => []
  | skip + 1, _ :: rest => marked skip rest
  | 0, b :: rest =>
    match firstChar? (b :: rest) with
    | some c => c :: marked (c.utf8Size - 1) rest
    | none => '�' :: marked (brokenSize (b :: rest) - 1) rest

/-- The text that bytes are shown as. -/
def display (bytes : Bytes) : String :=
  match bytes.text? with
  | some text => text
  | none => String.ofList (marked 0 bytes)

/-- What of the bytes has a place where there is room for so many. -/
def upTo (room : Option Nat) (bytes : Bytes) : Bytes :=
  match room with
  | some room => bytes.take room
  | none => bytes

theorem text?_ofText (text : String) : (ofText text).text? = some text := by
  have hcode : (ofText text).toByteArray = text.toByteArray := by
    apply ByteArray.ext
    simp [ofText]
  unfold text? String.fromUTF8?
  rw [hcode, dif_pos text.isValidUTF8]
  rfl

@[simp] theorem display_ofText (text : String) : (ofText text).display = text := by
  unfold display
  rw [text?_ofText]

/-- Different broken parts are shown alike. -/
example : display [0x61, 0xFF] = "a�" ∧ display [0x61, 0xF0, 0x90, 0x80] = "a�" := by
  decide +kernel

end Bytes

end Calligraph
