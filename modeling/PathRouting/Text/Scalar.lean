/-!
# Scalars

Reading a captured token as an integer, a truth value or plain text. Integers are decimal and bounded
by the width of their type. A token is read from left to right and the first fault is reported: at
each character a wrong digit comes before a value out of range, so a value that leaves its range is
reported even if wrong digits follow.
-/

namespace PathRouting.Text

/-- What a token is to be read as. -/
inductive ScalarType where
  /-- An integer of a number of bits, with or without a sign. -/
  | integer (signed : Bool) (bits : Nat)
  /-- `true` or `false`. -/
  | truth
  /-- Any text. -/
  | text
  deriving DecidableEq, Repr

/-- What a token is read as. -/
inductive Scalar where
  | integer (value : Int)
  | truth (value : Bool)
  | text (value : String)
  deriving DecidableEq, Repr

/-- Why a token has no value of the type asked for. -/
inductive ScalarFault where
  /-- There is no digit and no sign. -/
  | empty
  /-- A character is no digit, or a sign stands alone or has no place in the type. -/
  | invalidDigit
  /-- The value lies above the range. -/
  | tooLarge
  /-- The value lies below the range. -/
  | tooSmall
  /-- The token is neither `true` nor `false`. -/
  | notTruth
  deriving DecidableEq, Repr

/-- The wording of a fault. -/
def ScalarFault.message : ScalarFault → String
  | .empty => "cannot parse integer from empty string"
  | .invalidDigit => "invalid digit found in string"
  | .tooLarge => "number too large to fit in target type"
  | .tooSmall => "number too small to fit in target type"
  | .notTruth => "provided string was not `true` or `false`"

namespace Scalar

/-- The largest value of an integer type. -/
def greatest (signed : Bool) (bits : Nat) : Nat :=
  if signed then Nat.pow 2 (bits - 1) - 1 else Nat.pow 2 bits - 1

/-- The distance of the smallest value of an integer type from zero. -/
def depth (signed : Bool) (bits : Nat) : Nat :=
  if signed then Nat.pow 2 (bits - 1) else 0

/-- Reads digits behind a magnitude; one that exceeds the limit is the fault `beyond`. -/
def readDigits (limit : Nat) (beyond : ScalarFault) : List Char → Nat → Except ScalarFault Nat
  | [], magnitude => .ok magnitude
  | c :: cs, magnitude =>
    if c.isDigit then
      let next := 10 * magnitude + (c.toNat - '0'.toNat)
      if limit < next then .error beyond else readDigits limit beyond cs next
    else .error .invalidDigit

/-- Reads an integer; a plus sign may precede any, a minus sign only one whose type has signs. -/
def readInteger (signed : Bool) (bits : Nat) : List Char → Except ScalarFault Int
  | [] => .error .empty
  | c :: cs =>
    if c = '+' then
      if cs = [] then .error .invalidDigit
      else (readDigits (greatest signed bits) .tooLarge cs 0).map Int.ofNat
    else if c = '-' then
      if cs = [] ∨ signed = false then .error .invalidDigit
      else (readDigits (depth signed bits) .tooSmall cs 0).map fun magnitude => -(magnitude : Int)
    else (readDigits (greatest signed bits) .tooLarge (c :: cs) 0).map Int.ofNat

/-- Reads a token as a value of a type. -/
def read (type : ScalarType) (token : String) : Except ScalarFault Scalar :=
  match type with
  | .integer signed bits => (readInteger signed bits token.toList).map .integer
  | .truth =>
    if token = "true" then .ok (.truth true)
    else if token = "false" then .ok (.truth false)
    else .error .notTruth
  | .text => .ok (.text token)

end Scalar

end PathRouting.Text
