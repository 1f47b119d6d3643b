/-!
# Documents

Nested values as a settings file holds them. A number that is written as a whole one is kept apart from
a number that is written with a fraction or an exponent, whatever its value: only the first kind can be
a count.

A number is written as a sign, whole digits without a superfluous zero, and perhaps a fraction and an
exponent. A numeral without the last two is a whole number, but for the zero with a minus sign, which no
whole number is.
-/

namespace PathRouting

/-- A nested value. -/
inductive Document where
  | null
  | truth (value : Bool)
  /-- A number that is written as a whole one. -/
  | integer (value : Int)
  /-- Any other number: `mantissa` times ten to the power of `exponent`. -/
  | decimal (mantissa exponent : Int)
  | text (value : String)
  | list (items : List Document)
  | record (fields : List (String × Document))

namespace Document

/-- The content of the first field of a name; a document that is no record has no fields. -/
def field? : Document → String → Option Document
  | record fields, name => fields.lookup name
  | _, _ => none

/-- The items of a list; any other document has none. -/
def items : Document → List Document
  | list items => items
  | _ => []

/-- The value of a text; any other document has none. -/
def text? : Document → Option String
  | text value => some value
  | _ => none

/-- The value of a whole number; any other document has none. -/
def integer? : Document → Option Int
  | integer value => some value
  | _ => none

/-- The value of a truth value; any other document has none. -/
def truth? : Document → Option Bool
  | truth value => some value
  | _ => none

end Document

/-! ### Numerals -/

namespace Document

/-- The leading digits of a text, and what follows them. -/
def spanDigits (cs : List Char) : List Char × List Char :=
  (cs.takeWhile Char.isDigit, cs.dropWhile Char.isDigit)

/-- The number that some digits write, behind a number that was read before. -/
def digitsValue (digits : List Char) : Nat :=
  digits.foldl (fun value c => 10 * value + (c.toNat - '0'.toNat)) 0

/-- Takes one character off a text, if it comes first. -/
def skip? (c : Char) : List Char → Option (List Char)
  | [] => none
  | first :: rest => if first = c then some rest else none

/-- Reads whole digits: a zero alone, or digits that begin with another one. -/
def readWhole? (cs : List Char) : Option (List Char × List Char) :=
  let (digits, rest) := spanDigits cs
  match digits with
  | [] => none
  | ['0'] => some (digits, rest)
  | first :: _ => if first = '0' then none else some (digits, rest)

/-- Reads the digits of a fraction behind a point; without a point there is no fraction. -/
def readFraction? (cs : List Char) : Option (Option (List Char) × List Char) :=
  match skip? '.' cs with
  | none => some (none, cs)
  | some rest =>
    let (digits, rest) := spanDigits rest
    if digits = [] then none else some (some digits, rest)

/-- Reads an exponent behind its mark; without a mark there is no exponent. -/
def readExponent? (cs : List Char) : Option (Option Int × List Char) :=
  match (skip? 'e' cs).or (skip? 'E' cs) with
  | none => some (none, cs)
  | some rest =>
    let negative := (skip? '-' rest).isSome
    let (digits, rest) := spanDigits (((skip? '-' rest).or (skip? '+' rest)).getD rest)
    if digits = [] then none
    else
      let value : Int := digitsValue digits
      some (some (if negative then -value else value), rest)

/-- The number that a numeral writes: a whole one if there is neither a fraction nor an exponent, and a
decimal one otherwise. -/
def ofNumeral (negative : Bool) (whole : List Char) (fraction : Option (List Char))
    (exponent : Option Int) : Document :=
  let decimals := fraction.getD []
  let magnitude : Int := digitsValue (whole ++ decimals)
  let mantissa := if negative then -magnitude else magnitude
  if fraction = none ∧ exponent = none ∧ ¬(negative = true ∧ magnitude = 0) then .integer mantissa
  else .decimal mantissa (exponent.getD 0 - decimals.length)

/-- Reads a number, and returns it with what follows it. -/
def readNumber? (cs : List Char) : Option (Document × List Char) := do
  let negative := (skip? '-' cs).isSome
  let (whole, rest) ← readWhole? ((skip? '-' cs).getD cs)
  let (fraction, rest) ← readFraction? rest
  let (exponent, rest) ← readExponent? rest
  return (ofNumeral negative whole fraction exponent, rest)

end Document

end PathRouting
