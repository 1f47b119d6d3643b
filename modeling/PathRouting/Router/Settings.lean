import PathRouting.Document.Reader
import PathRouting.Router.Basic

/-!
# Settings as documents

`Config.document` writes settings as a document, and `Config.ofDocument?` reads them from one. A document
has a field for each setting; a field that is missing leaves the setting as it is by default, and
fields of other names are passed over.
-/

namespace PathRouting

namespace Capacity

/-- Writes a capacity: a word, or a record of one bound. -/
def document : Capacity → Document
  | disabled => .text "disabled"
  | bounded limit => .record [("bounded", .integer limit.toNat)]
  | unbounded => .text "unbounded"

/-- Reads a bound: a whole number that 64 bits hold. -/
def ofBound? : Document → Option Capacity
  | .integer value =>
    if 0 ≤ value ∧ value < UInt64.size then some (bounded (UInt64.ofNat value.toNat)) else none
  | _ => none

/-- Reads a capacity without a bound from its word. -/
def ofWord? (word : String) : Option Capacity :=
  if word = "disabled" then some disabled
  else if word = "unbounded" then some unbounded
  else none

/-- Reads a capacity: the word of one without a bound, also as the one field of a record with nothing
in it, or a record of one bound. -/
def ofDocument? : Document → Option Capacity
  | .text word => ofWord? word
  | .record [(word, content)] =>
    if word = "bounded" then ofBound? content
    else
      match content with
      | .null => ofWord? word
      | _ => none
  | _ => none

end Capacity

namespace Config

/-- Writes settings. -/
def document (c : Config) : Document :=
  .record [("cache_capacity", c.capacity.document), ("strict", .truth c.strict)]

/-- Reads the field of the capacity, which is the default one if the field is missing. -/
def capacityOf? : Option Document → Option Capacity
  | none => some default.capacity
  | some content => Capacity.ofDocument? content

/-- Reads the field of a truth value, which is the default one if the field is missing. -/
def strictOf? : Option Document → Option Bool
  | none => some default.strict
  | some (.truth strict) => some strict
  | some _ => none

/-- Reads settings: by the names of the fields, or from a list in the order of the fields. -/
def ofDocument? : Document → Option Config
  | .record fields => do
    let capacity ← capacityOf? (fields.lookup "cache_capacity")
    let strict ← strictOf? (fields.lookup "strict")
    return ⟨capacity, strict⟩
  | .list items => do
    let capacity ← capacityOf? items[0]?
    let strict ← strictOf? items[1]?
    if items.length ≤ 2 then some ⟨capacity, strict⟩ else none
  | _ => none

/-- Reads settings from the text of a document. -/
def ofText? (text : String) : Option Config := (Document.parse? text).bind ofDocument?

end Config

end PathRouting
