import PathRouting.Text.Quoted

/-!
# Segments

A segment is one token of a pattern: fixed text, a placeholder for one token of a request, or a
greedy placeholder for one or more of them. `Segment.parse` reads a token, and `Segment.display`
writes a segment as a token. `PatternError` says why a text or
a list of segments is no pattern.
-/

namespace PathRouting

/-- Why a text or a list of segments is no pattern. -/
inductive PatternError where
  /-- The token of a segment contains a slash. -/
  | slashInSegment (token : String)
  /-- A token opens or closes with a bracket, but not as a matching pair. -/
  | mismatchedBrackets (token : String)
  /-- Two placeholders of the pattern have the same name. -/
  | duplicateAlias (name : String)
  deriving DecidableEq, Repr

/-- The wording of an error, which quotes the token or the name. -/
def PatternError.message : PatternError → String
  | .slashInSegment token => "segment can not contain '/': " ++ Text.quote token
  | .mismatchedBrackets token =>
    "mismatched placeholder brackets in segment " ++ Text.quote token
  | .duplicateAlias name => "placeholder alias " ++ Text.quote name ++ " is used more than once"

/-- One token of a pattern. -/
inductive Segment where
  /-- Takes exactly the token that it spells. -/
  | literal (text : String)
  /-- Takes any one token, and binds it to the name. -/
  | named (name : String)
  /-- Takes one or more tokens, and binds them to the name. -/
  | greedy (name : String)
  deriving DecidableEq, Repr

namespace Segment

/-- The text of a literal, or the name of a placeholder. -/
def text : Segment → String
  | literal text => text
  | named name => name
  | greedy name => name

/-- The name that a segment binds; a literal binds none. -/
def name? : Segment → Option String
  | literal _ => none
  | named name => some name
  | greedy name => some name

/-- Whether a segment is greedy. -/
def isGreedy : Segment → Bool
  | greedy _ => true
  | _ => false

/-- Whether a character opens a placeholder. -/
def isOpening (c : Char) : Bool := c == '{' || c == '<'

/-- Whether a character closes a placeholder. -/
def isClosing (c : Char) : Bool := c == '}' || c == '>'

/-- Reads a token as a segment. A token of at most one character is a literal whatever it is; a longer
one that opens or closes with a bracket is a placeholder, and its brackets match. -/
def parse (token : String) : Except PatternError Segment :=
  if '/' ∈ token.toList then .error (.slashInSegment token)
  else
    match token.toList with
    | [] => .ok (.literal token)
    | [_] => .ok (.literal token)
    | first :: second :: rest =>
      let last := (second :: rest).getLast (List.cons_ne_nil second rest)
      let inner := String.ofList (second :: rest).dropLast
      if first = '{' ∧ last = '}' then .ok (.named inner)
      else if first = '<' ∧ last = '>' then .ok (.greedy inner)
      else if isOpening first || isClosing last then .error (.mismatchedBrackets token)
      else .ok (.literal token)

/-- Writes a segment as a token: a literal as it is, and a name between its brackets. -/
def display : Segment → String
  | literal text => text
  | named name => "\x7b" ++ name ++ "\x7d"
  | greedy name => "<" ++ name ++ ">"

/-- A literal binds no name. -/
@[simp] theorem name?_literal (text : String) : (literal text).name? = none := rfl

/-- A named segment binds its name. -/
@[simp] theorem name?_named (name : String) : (named name).name? = some name := rfl

/-- A greedy segment binds its name. -/
@[simp] theorem name?_greedy (name : String) : (greedy name).name? = some name := rfl

/-- The greedy segments are those that bind a name to one or more tokens. -/
theorem isGreedy_iff {s : Segment} : s.isGreedy = true ↔ ∃ name, s = greedy name := by
  cases s <;> simp [isGreedy]

end Segment

end PathRouting
