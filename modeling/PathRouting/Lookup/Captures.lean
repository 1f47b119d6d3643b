import PathRouting.Pattern.Basic
import PathRouting.Text.Scalar

/-!
# Captures

What the placeholders of a pattern took from a request: the names with one token each, or with one or
more tokens for a greedy placeholder, in the order of the pattern. `Captures.ofTrail` names the tokens
of a match by the placeholders of the pattern that won.
-/

namespace PathRouting

/-- What one placeholder took. -/
inductive Capture where
  /-- The token of a named placeholder. -/
  | one (token : String)
  /-- The tokens of a greedy placeholder. -/
  | many (tokens : List String)
  deriving DecidableEq, Repr

namespace Capture

/-- The token of a named placeholder; a greedy one has none. -/
def one? : Capture → Option String
  | one token => some token
  | many _ => none

/-- The tokens of a greedy placeholder; a named one has none. -/
def many? : Capture → Option (List String)
  | one _ => none
  | many tokens => some tokens

end Capture

/-- One token that was given to a segment. -/
structure Taken where
  /-- The position of the segment in its pattern. -/
  position : Nat
  token : String
  deriving DecidableEq, Repr

/-- What the placeholders of a pattern took, in order. -/
structure Captures where
  entries : List (String × Capture)
  deriving DecidableEq, Repr

namespace Captures

/-- The captures of a pattern without placeholders. -/
def empty : Captures := ⟨[]⟩

/-- The number of placeholders. -/
def size (c : Captures) : Nat := c.entries.length

/-- Whether there are no placeholders. -/
def isEmpty (c : Captures) : Bool := c.entries.isEmpty

/-- What the first placeholder of a name took. -/
def get? (c : Captures) (name : String) : Option Capture := c.entries.lookup name

/-- The token that the named placeholder of a name took. -/
def getOne? (c : Captures) (name : String) : Option String := (c.get? name).bind Capture.one?

/-- The tokens that the greedy placeholder of a name took. -/
def getMany? (c : Captures) (name : String) : Option (List String) :=
  (c.get? name).bind Capture.many?

/-- Reads the token of a named placeholder as a value. -/
def read? (c : Captures) (name : String) (type : Text.ScalarType) :
    Option (Except Text.ScalarFault Text.Scalar) :=
  (c.getOne? name).map (Text.Scalar.read type)

/-- Adds what one more placeholder took. -/
def push (c : Captures) (name : String) (capture : Capture) : Captures :=
  ⟨c.entries ++ [(name, capture)]⟩

/-- Replaces what the first placeholder of a name took. -/
def replaceFirst (name : String) (capture : Capture) :
    List (String × Capture) → List (String × Capture)
  | [] => []
  | (other, kept) :: rest =>
    if other = name then (other, capture) :: rest
    else (other, kept) :: replaceFirst name capture rest

/-- Adds a token to what the greedy placeholder of a name took; the first token of a name begins a new
placeholder. -/
def extend (c : Captures) (name token : String) : Captures :=
  match c.get? name with
  | some (.many tokens) => ⟨replaceFirst name (.many (tokens ++ [token])) c.entries⟩
  | _ => c.push name (.many [token])

/-- Adds a token under the name of the placeholder that it was given to; a literal names nothing. -/
def take (segments : List Segment) (c : Captures) (taken : Taken) : Captures :=
  match segments[taken.position]? with
  | some (.named name) => c.push name (.one taken.token)
  | some (.greedy name) => c.extend name taken.token
  | _ => c

/-- The captures of a pattern from the tokens given to its segments, the last one first. -/
def ofTrail (pattern : Pattern) (trail : List Taken) : Captures :=
  trail.reverse.foldl (take pattern.segments) empty

end Captures

end PathRouting
