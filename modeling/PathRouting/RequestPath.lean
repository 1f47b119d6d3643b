/-!
# Request paths

Patterns and request paths are cut into tokens alike. The slashes at both ends of a text are dropped
(`Text.trimSlashes`) and the rest is cut at each slash (`Text.tokens`), so there is always at least one
token, possibly empty. Whether the text ended in a slash is kept apart (`Text.endsInSlash`). In a request
path every token stands for itself.
-/

namespace PathRouting

namespace Text

/-- Whether a character separates tokens. -/
def isSlash (c : Char) : Bool := c == '/'

/-- The characters between the leading and the trailing slashes. -/
def trimSlashes (cs : List Char) : List Char :=
  ((cs.dropWhile isSlash).reverse.dropWhile isSlash).reverse

/-- The tokens of a text, from left to right. -/
def tokens (text : String) : List String :=
  ((trimSlashes text.toList).splitOn '/').map String.ofList

/-- Whether a text is marked by a slash at its end; a lone slash is the root, which is not marked. -/
def endsInSlash (text : String) : Bool :=
  decide (1 < text.toList.length) && text.toList.getLast? == some '/'

/-- There is always a token. -/
theorem tokens_ne_nil (text : String) : tokens text ≠ [] := by
  simp [tokens, List.splitOn_ne_nil]

/-- Texts that agree after trimming have the same tokens. -/
theorem tokens_congr {a b : String} (h : trimSlashes a.toList = trimSlashes b.toList) :
    tokens a = tokens b := by
  simp [tokens, h]

end Text

/-- The tokens of a request path, and whether it ends in a slash. -/
structure RequestPath where
  tokens : List String
  endsWithSlash : Bool
  deriving DecidableEq, Repr

/-- Cuts a path into tokens. -/
def RequestPath.ofString (path : String) : RequestPath :=
  ⟨Text.tokens path, Text.endsInSlash path⟩

end PathRouting
