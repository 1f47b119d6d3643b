/-!
# Percent-encoding

A percent sign followed by two hexadecimal digits stands for the byte with that value. `decode` reads
bytes from left to right and once only: a byte produced by an escape is never read again, and a
percent sign without its two digits stands for itself. `decodeText?` decodes the bytes of a text and
refuses a result that is not UTF-8.
-/

namespace PathRouting.Text.Percent

/-- The percent sign. -/
def sign : UInt8 := 0x25

/-- The value of a hexadecimal digit of either case. -/
def hexValue? (b : UInt8) : Option UInt8 :=
  if 0x30 ≤ b ∧ b ≤ 0x39 then some (b - 0x30)
  else if 0x41 ≤ b ∧ b ≤ 0x46 then some (b - 0x37)
  else if 0x61 ≤ b ∧ b ≤ 0x66 then some (b - 0x57)
  else none

/-- The byte that three bytes stand for, if they form an escape. -/
def escaped? (mark high low : UInt8) : Option UInt8 :=
  if mark = sign then
    (hexValue? high).bind fun h => (hexValue? low).map fun l => 16 * h + l
  else none

/-- Replaces every escape by its byte. -/
def decode : List UInt8 → List UInt8
  | [] => []
  | [b] => [b]
  | [b, c] => [b, c]
  | mark :: high :: low :: rest =>
    match escaped? mark high low with
    | some byte => byte :: decode rest
    | none => mark :: decode (high :: low :: rest)

/-- The bytes of a text. -/
def bytesOf (text : String) : List UInt8 := text.toUTF8.data.toList

/-- The text with the given bytes, if they are UTF-8. -/
def textOf? (bytes : List UInt8) : Option String := String.fromUTF8? ⟨bytes.toArray⟩

/-- Replaces every escape of a text by its byte and reads the bytes as text again. -/
def decodeText? (text : String) : Option String := textOf? (decode (bytesOf text))

/-- The bytes of a text are read as this text again. -/
theorem textOf?_bytesOf (text : String) : textOf? (bytesOf text) = some text := by
  have valid : text.toUTF8.IsValidUTF8 := text.isValidUTF8
  simp only [textOf?, bytesOf, Array.toArray_toList]
  exact dif_pos valid

end PathRouting.Text.Percent
