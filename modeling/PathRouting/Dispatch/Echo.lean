import PathRouting.Dispatch.Basic

/-!
# Echo handlers

A handler that is known by its name alone, and reports the request that it was handed: the path and the
body, and each parameter in every form that a handler can ask for. A handler whose name begins with
`fail` fails instead.
-/

namespace PathRouting

/-- A parameter in every form that a handler can ask for. -/
structure ParameterReport where
  name : String
  value : Capture
  one : Option String
  many : Option (List String)
  /-- The token of the parameter, read as an integer of 32 bits without a sign. -/
  integer : Option (Except Text.ScalarFault Text.Scalar)

/-- What a handler reports of a request. -/
structure Report where
  handler : String
  path : String
  body : String
  size : Nat
  isEmpty : Bool
  /-- What was found under a name that no route uses. -/
  missing : Option String
  /-- The tokens that were found under a name that no route uses. -/
  missingMany : Option (List String)
  parameters : List ParameterReport

/-- A handler failed. -/
structure HandlerFailure where
  handler : String
  deriving DecidableEq, Repr

/-- The wording of a failure, which names the handler. -/
def HandlerFailure.message (failure : HandlerFailure) : String :=
  "handler failed: " ++ failure.handler

namespace Echo

/-- The name of the handler of last resort. -/
def fallback : String := "default"

/-- A name that is looked up among the parameters although no route is expected to use it. -/
def absentName : String := "no such alias"

/-- Whether a handler is one that fails: its name says so at the front. -/
def fails (handler : String) : Bool := "fail".toList.isPrefixOf handler.toList

/-- The report of a parameter that was handed over. -/
def reportParameter (params : Params) (entry : String × Capture) : ParameterReport where
  name := entry.1
  value := entry.2
  one := params.getOne? entry.1
  many := params.getMany? entry.1
  integer := params.parse (Text.Scalar.read (.integer false 32)) entry.1

/-- The answer of a handler to a request. -/
def respond (handler : String) (request : Request) (params : Params) :
    Except HandlerFailure Report :=
  if fails handler then .error ⟨handler⟩
  else
    .ok
      { handler := handler
        path := request.path
        body := request.body
        size := params.size
        isEmpty := params.isEmpty
        missing := params.getOne? absentName
        missingMany := params.getMany? absentName
        parameters := params.toList.map (reportParameter params) }

end Echo

end PathRouting
