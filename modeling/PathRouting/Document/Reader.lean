import PathRouting.Document.Basic

/-!
# Reading documents

A document is written as a JSON text. `Document.parse?` reads one value with blanks around it and nothing
else. A text escapes characters by their UTF-16 units, so a character beyond the first plane is
escaped as two of them; a unit of such a pair that stands alone is refused.
-/

namespace PathRouting

namespace Document

/-- Whether a character may stand between the parts of a document. -/
def isBlank (c : Char) : Bool := c == ' ' || c == '\t' || c == '\n' || c == '\r'

/-- Drops the blanks in front. -/
def skipBlanks (cs : List Char) : List Char := cs.dropWhile isBlank

/-- The value of a hexadecimal digit of either case. -/
def hexDigit? (c : Char) : Option Nat :=
  if c.isDigit then some (c.toNat - '0'.toNat)
  else if 'a' ≤ c ∧ c ≤ 'f' then some (c.toNat - 'a'.toNat + 10)
  else if 'A' ≤ c ∧ c ≤ 'F' then some (c.toNat - 'A'.toNat + 10)
  else none

/-- The unit that four hexadecimal digits write. -/
def unit? (a b c d : Char) : Option Nat := do
  let a ← hexDigit? a
  let b ← hexDigit? b
  let c ← hexDigit? c
  let d ← hexDigit? d
  return ((a * 16 + b) * 16 + c) * 16 + d

/-- The character that a backslash and one more character write. -/
def shortEscape? (c : Char) : Option Char :=
  if c = '"' ∨ c = '\\' ∨ c = '/' then some c
  else if c = 'b' then some '\x08'
  else if c = 'f' then some '\x0c'
  else if c = 'n' then some '\n'
  else if c = 'r' then some '\r'
  else if c = 't' then some '\t'
  else none

/-- Reads the inside of a text up to its closing quote, as code points and units of escapes. -/
def readUnits? : List Char → Option (List Nat × List Char)
  | [] => none
  | '"' :: rest => some ([], rest)
  | '\\' :: 'u' :: a :: b :: c :: d :: rest => do
    let unit ← unit? a b c d
    let (units, rest) ← readUnits? rest
    return (unit :: units, rest)
  | '\\' :: c :: rest => do
    let escaped ← shortEscape? c
    let (units, rest) ← readUnits? rest
    return (escaped.toNat :: units, rest)
  | c :: rest =>
    if c.toNat < 0x20 then none
    else do
      let (units, rest) ← readUnits? rest
      return (c.toNat :: units, rest)

/-- Whether a unit is the first one of a pair. -/
def isHighUnit (unit : Nat) : Bool := 0xd800 ≤ unit && unit < 0xdc00

/-- Whether a unit is the second one of a pair. -/
def isLowUnit (unit : Nat) : Bool := 0xdc00 ≤ unit && unit < 0xe000

/-- The characters of some code points and units; the two units of a pair write one character. -/
def charsOfUnits? : List Nat → Option (List Char)
  | [] => some []
  | [unit] => if isHighUnit unit || isLowUnit unit then none else some [Char.ofNat unit]
  | unit :: next :: rest =>
    if isHighUnit unit then
      if isLowUnit next then
        (charsOfUnits? rest).map fun chars =>
          Char.ofNat (0x10000 + (unit - 0xd800) * 0x400 + (next - 0xdc00)) :: chars
      else none
    else if isLowUnit unit then none
    else (charsOfUnits? (next :: rest)).map fun chars => Char.ofNat unit :: chars

/-- Reads a text behind its opening quote. -/
def readText? (cs : List Char) : Option (String × List Char) := do
  let (units, rest) ← readUnits? cs
  let chars ← charsOfUnits? units
  return (String.ofList chars, rest)

/-- Takes a word off a text, if it comes first. -/
def skipWord? : List Char → List Char → Option (List Char)
  | [], cs => some cs
  | c :: word, cs => (skip? c cs).bind (skipWord? word)

/-- Reads a word that stands for a value, or a number. -/
def readAtom? (cs : List Char) : Option (Document × List Char) :=
  match skipWord? ['n', 'u', 'l', 'l'] cs with
  | some rest => some (.null, rest)
  | none =>
    match skipWord? ['t', 'r', 'u', 'e'] cs with
    | some rest => some (.truth true, rest)
    | none =>
      match skipWord? ['f', 'a', 'l', 's', 'e'] cs with
      | some rest => some (.truth false, rest)
      | none => readNumber? cs

mutual

/-- Reads a value and returns it with what follows it. Each call takes one unit of fuel. -/
def readValue? : Nat → List Char → Option (Document × List Char)
  | 0, _ => none
  | fuel + 1, cs =>
    match skipBlanks cs with
    | [] => none
    | first :: rest =>
      if first = '"' then (readText? rest).map fun (value, rest) => (.text value, rest)
      else if first = '[' then
        match skip? ']' (skipBlanks rest) with
        | some rest => some (.list [], rest)
        | none => (readItems? fuel rest).map fun (items, rest) => (.list items, rest)
      else if first = '{' then
        match skip? '}' (skipBlanks rest) with
        | some rest => some (.record [], rest)
        | none => (readFields? fuel rest).map fun (fields, rest) => (.record fields, rest)
      else readAtom? (first :: rest)

/-- Reads the items of a list up to its closing bracket. -/
def readItems? : Nat → List Char → Option (List Document × List Char)
  | 0, _ => none
  | fuel + 1, cs => do
    let (item, rest) ← readValue? fuel cs
    match skip? ']' (skipBlanks rest) with
    | some rest => return ([item], rest)
    | none =>
      let rest ← skip? ',' (skipBlanks rest)
      let (items, rest) ← readItems? fuel rest
      return (item :: items, rest)

/-- Reads the fields of a record up to its closing brace. -/
def readFields? : Nat → List Char → Option (List (String × Document) × List Char)
  | 0, _ => none
  | fuel + 1, cs => do
    let rest ← skip? '"' (skipBlanks cs)
    let (name, rest) ← readText? rest
    let rest ← skip? ':' (skipBlanks rest)
    let (content, rest) ← readValue? fuel rest
    match skip? '}' (skipBlanks rest) with
    | some rest => return ([(name, content)], rest)
    | none =>
      let rest ← skip? ',' (skipBlanks rest)
      let (fields, rest) ← readFields? fuel rest
      return ((name, content) :: fields, rest)

end

/-- Reads a document. A call takes a character or is the first one behind such a call, so twice the
length of the text is fuel enough. -/
def parse? (text : String) : Option Document :=
  let cs := text.toList
  match readValue? (2 * cs.length + 2) cs with
  | some (value, rest) => if skipBlanks rest = [] then some value else none
  | none => none

end Document

end PathRouting
