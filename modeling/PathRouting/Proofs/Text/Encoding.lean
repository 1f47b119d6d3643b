import PathRouting.Proofs.Text.Percent

/-!
# Encodings of a path

`Encodes` says how the bytes of a path may be written: each byte stands for itself or is written as an escape
(`escape`), whose digits may be of either case; the bytes that mean something else in a target are always
escaped. An encoding decodes to the bytes that it writes (`Encodes.decodes`): the bytes of an escape are never
read again, whatever they are.
-/

namespace PathRouting.Text.Percent

/-- The hexadecimal digit of a value below sixteen, in upper or lower case. -/
def digit (upper : Bool) (value : Nat) : UInt8 :=
  if value < 10 then .ofNat (0x30 + value) else .ofNat ((if upper then 0x41 else 0x61) + (value - 10))

/-- The escape of a byte: a percent sign and two digits, each in either case. -/
def escape (high low : Bool) (byte : UInt8) : List UInt8 :=
  [sign, digit high (byte.toNat / 16), digit low (byte.toNat % 16)]

/-- A percent sign begins an escape, and a question mark or a hash sign ends a path. -/
def IsReserved (byte : UInt8) : Prop := byte = sign ∨ byte = 0x3f ∨ byte = 0x23

/-- It is decided by three comparisons whether a byte is reserved. -/
instance : DecidablePred IsReserved := fun _ => inferInstanceAs (Decidable (_ ∨ _))

/-- The bytes and one way to write them. -/
inductive Encodes : List UInt8 → List UInt8 → Prop where
  | nil : Encodes [] []
  | raw {byte bytes encoded} (free : ¬IsReserved byte) (behind : Encodes bytes encoded) :
    Encodes (byte :: bytes) (byte :: encoded)
  | escaped {byte bytes encoded} (high low : Bool) (behind : Encodes bytes encoded) :
    Encodes (byte :: bytes) (escape high low byte ++ encoded)

/-- Each value below sixteen is read back from its digit, in either case. -/
lemma hexValue?_digit : ∀ (upper : Bool), ∀ value < 16, hexValue? (digit upper value) = some (.ofNat value) := by
  decide

/-- No digit ends a path. -/
lemma not_isReserved_digit : ∀ (upper : Bool), ∀ value < 16,
    digit upper value ≠ 0x3f ∧ digit upper value ≠ 0x23 := by
  decide

/-- The digits of a byte are those of its two halves. -/
lemma spells_digits (high low : Bool) (byte : UInt8) :
    Spells (digit high (byte.toNat / 16)) (digit low (byte.toNat % 16)) byte := by
  have below := byte.toNat_lt
  have first := hexValue?_digit high (byte.toNat / 16) (by omega)
  have second := hexValue?_digit low (byte.toNat % 16) (by omega)
  refine ⟨_, _, first, second, ?_⟩
  apply UInt8.toNat_inj.mp
  rw [UInt8.toNat_add, UInt8.toNat_mul, UInt8.toNat_ofNat', UInt8.toNat_ofNat',
    show (16 : UInt8).toNat = 16 from rfl]
  omega

/-- An encoding stands for the bytes that it writes. -/
lemma Encodes.decodes {bytes encoded : List UInt8} (encodes : Encodes bytes encoded) :
    Decodes encoded bytes := by
  induction encodes with
  | nil => exact .nil
  | raw free _ ih =>
    refine .plain ?_ ih
    rintro ⟨_, _, _, _, same, -⟩
    exact free (.inl (List.cons.inj same).1)
  | @escaped byte _ _ high low _ ih => exact .escape (spells_digits high low byte) ih

/-- No byte of an encoding ends the path. -/
lemma Encodes.ne_of_mem {bytes encoded : List UInt8} (encodes : Encodes bytes encoded) {byte : UInt8}
    (mem : byte ∈ encoded) : byte ≠ 0x3f ∧ byte ≠ 0x23 := by
  induction encodes with
  | nil => cases mem
  | raw free _ ih =>
    rcases List.mem_cons.mp mem with rfl | mem
    · exact ⟨fun e => free (.inr (.inl e)), fun e => free (.inr (.inr e))⟩
    · exact ih mem
  | @escaped written _ _ high low _ ih =>
    have below := written.toNat_lt
    rcases List.mem_append.mp mem with mem | mem
    · simp only [escape, List.mem_cons, List.not_mem_nil, or_false] at mem
      rcases mem with rfl | rfl | rfl
      · decide
      · exact not_isReserved_digit high _ (by omega)
      · exact not_isReserved_digit low _ (by omega)
    · exact ih mem

/-! ### The bytes of a text -/

/-- The bytes of a text are those of its characters, one after the other. -/
lemma bytesOf_eq (text : String) : bytesOf text = text.toList.flatMap String.utf8EncodeChar := by
  rw [bytesOf, String.toUTF8_eq_toByteArray, ← String.utf8Encode_toList, List.utf8Encode]
  simp

/-- A character that one byte writes is found among the bytes. -/
lemma mem_bytesOf {text : String} {c : Char} {byte : UInt8} (single : String.utf8EncodeChar c = [byte])
    (mem : c ∈ text.toList) : byte ∈ bytesOf text := by
  rw [bytesOf_eq, List.mem_flatMap]
  exact ⟨c, mem, by simp [single]⟩

end PathRouting.Text.Percent
