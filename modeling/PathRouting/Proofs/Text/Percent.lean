import Mathlib.Tactic.Lemma
import PathRouting.Text.Percent

/-!
# What percent-encoding stands for

`Decodes` says which bytes an encoding stands for, without an order of reading: an escape stands for its byte,
and a byte that begins no escape stands for itself. Every list of bytes is the encoding of one other
(`decodes_iff`), and a text decodes to a text if that one is UTF-8 (`decodeText?_eq_some_iff`).
-/

namespace PathRouting.Text.Percent

/-- Two hexadecimal digits are those of a byte. -/
def Spells (high low byte : UInt8) : Prop :=
  ∃ h l, hexValue? high = some h ∧ hexValue? low = some l ∧ byte = 16 * h + l

/-- The bytes begin with an escape. -/
def Escapes (bytes : List UInt8) : Prop :=
  ∃ high low byte rest, bytes = sign :: high :: low :: rest ∧ Spells high low byte

/-- What the bytes of an encoding stand for. -/
inductive Decodes : List UInt8 → List UInt8 → Prop where
  | nil : Decodes [] []
  | escape {high low byte rest decoded} (spells : Spells high low byte) (behind : Decodes rest decoded) :
    Decodes (sign :: high :: low :: rest) (byte :: decoded)
  | plain {byte rest decoded} (plain : ¬Escapes (byte :: rest)) (behind : Decodes rest decoded) :
    Decodes (byte :: rest) (byte :: decoded)

/-- An escape is a percent sign and the two digits of a byte. -/
lemma escaped?_eq_some_iff {mark high low byte : UInt8} :
    escaped? mark high low = some byte ↔ mark = sign ∧ Spells high low byte := by
  rw [escaped?]
  split
  · rename_i marked
    simp [Option.bind_eq_some_iff, Spells, marked, eq_comm (a := byte)]
  · rename_i unmarked
    simp [unmarked]

/-- Bytes whose first three are no escape do not begin with one. -/
lemma not_escapes_of_escaped?_eq_none {mark high low : UInt8} (none : escaped? mark high low = none)
    (rest : List UInt8) : ¬Escapes (mark :: high :: low :: rest) := by
  rintro ⟨high, low, byte, rest, same, spells⟩
  cases same
  have escapes := escaped?_eq_some_iff.mpr ⟨rfl, spells⟩
  rw [none] at escapes
  cases escapes

/-- The bytes that are decoded stand for the result. -/
lemma decodes_decode (bytes : List UInt8) : Decodes bytes (decode bytes) := by
  fun_induction decode bytes with
  | case1 => exact .nil
  | case2 byte => exact .plain (by simp [Escapes]) .nil
  | case3 first last => exact .plain (by simp [Escapes]) (.plain (by simp [Escapes]) .nil)
  | case4 mark high low rest byte escaped ih =>
    obtain ⟨rfl, spells⟩ := escaped?_eq_some_iff.mp escaped
    exact .escape spells ih
  | case5 mark high low rest unescaped ih =>
    exact .plain (not_escapes_of_escaped?_eq_none unescaped rest) ih

/-- Two digits are those of one byte. -/
lemma Spells.unique {high low byte other : UInt8} (spells : Spells high low byte)
    (spells' : Spells high low other) : byte = other := by
  rw [← Option.some_inj, ← escaped?_eq_some_iff.mpr ⟨rfl, spells⟩,
    ← escaped?_eq_some_iff.mpr ⟨rfl, spells'⟩]

/-- An encoding stands for one list of bytes. -/
lemma Decodes.unique {bytes decoded other : List UInt8} (decodes : Decodes bytes decoded)
    (decodes' : Decodes bytes other) : decoded = other := by
  induction decodes generalizing other with
  | nil =>
    cases decodes'
    rfl
  | escape spells _ ih =>
    cases decodes' with
    | escape spells' behind => rw [spells.unique spells', ih behind]
    | plain plain => exact absurd ⟨_, _, _, _, rfl, spells⟩ plain
  | plain plain _ ih =>
    cases decodes' with
    | escape spells => exact absurd ⟨_, _, _, _, rfl, spells⟩ plain
    | plain _ behind => rw [ih behind]

/-- Every encoding stands for what it is decoded to, and for nothing else. -/
theorem decodes_iff {bytes decoded : List UInt8} : Decodes bytes decoded ↔ decode bytes = decoded := by
  constructor
  · exact (decodes_decode bytes).unique
  · rintro rfl
    exact decodes_decode bytes

/-- Bytes are a text exactly if they are the bytes of it. -/
lemma textOf?_eq_some_iff {bytes : List UInt8} {text : String} :
    textOf? bytes = some text ↔ bytesOf text = bytes := by
  constructor
  · intro h
    rw [textOf?, String.fromUTF8?] at h
    split at h
    · cases h
      rfl
    · cases h
  · rintro rfl
    exact textOf?_bytesOf text

/-- A text decodes to the text of the bytes that its own stand for. -/
theorem decodeText?_eq_some_iff {text decoded : String} :
    decodeText? text = some decoded ↔ Decodes (bytesOf text) (bytesOf decoded) := by
  rw [decodeText?, textOf?_eq_some_iff, decodes_iff, eq_comm]

end PathRouting.Text.Percent
