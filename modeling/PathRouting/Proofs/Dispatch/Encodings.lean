import PathRouting.Proofs.Dispatch.Replies
import PathRouting.Proofs.Text.Encoding

/-!
# Encodings of the path of a request

A request whose target is an encoding of a path (`Request.Encodes`) is handed on as a lookup of this very path
decides (`Dispatcher.selected`). So it does not matter which bytes are escaped: runs whose requests differ in
nothing but the encoding of their paths come to the same (`Use.Respells`).
-/

namespace PathRouting

/-- The target of a request is an encoding of a path, and perhaps a query behind it. The slash that the path
begins with stands for itself. -/
def Request.Encodes (request : Request) (path : String) : Prop :=
  ∃ written query rest encoded, request.target = written ++ query ∧
    (query = "" ∨ query.toList.head? = some '?') ∧
    Text.Percent.bytesOf path = 0x2f :: rest ∧ Text.Percent.bytesOf written = 0x2f :: encoded ∧
    Text.Percent.Encodes rest encoded

/-- Such a request asks for the path. -/
lemma Request.Encodes.asks {request : Request} {path : String} (encodes : request.Encodes path) :
    request.Asks path := by
  obtain ⟨written, query, rest, encoded, target, ends, plain, bytes, encodes⟩ := encodes
  have whole : Text.Percent.Encodes (Text.Percent.bytesOf path) (Text.Percent.bytesOf written) := by
    rw [plain, bytes]
    exact .raw (by decide) encodes
  refine ⟨written.toList, query.toList, ?_, ?_, ?_, ?_⟩
  · rw [target, String.toList_append]
  · intro c mem
    -- a character that ends the path would be a byte of the encoding
    simp only [endsPath, Bool.or_eq_false_iff, beq_eq_false_iff_ne]
    constructor
    · rintro rfl
      exact (whole.ne_of_mem (Text.Percent.mem_bytesOf (by decide) mem)).1 rfl
    · rintro rfl
      exact (whole.ne_of_mem (Text.Percent.mem_bytesOf (by decide) mem)).2 rfl
  · intro c mem
    rcases ends with rfl | head
    · cases mem
    · rw [head] at mem
      cases mem
      rfl
  · rw [String.ofList_toList]
    exact whole.decodes

namespace Dispatcher

variable {η : Type}

/-- The handler and the parameters that a lookup of a path in the published router decides on. -/
def selected (d : Dispatcher η) (path : String) : η × Params :=
  match (d.publisher.current.find path).1 with
  | none => (d.fallback, .empty)
  | some found => (found.route.resource, .ofCaptures found.captures)

/-- The path of a request is decoded once, and then it is looked up. -/
lemma dispatch_of_asks {request : Request} {path : String} (asks : request.Asks path) (d : Dispatcher η) :
    d.dispatch request = (d.selected path, { d with publisher := (d.publisher.find path).2 }) := by
  rw [dispatch, Request.asks_iff.mp asks, selected]
  dsimp only [Publisher.find]
  generalize d.publisher.current.find path = lookup
  obtain ⟨result, next⟩ := lookup
  cases result <;> rfl

/-- One use or the other: they are the same, or requests for one path in two encodings. -/
inductive Use.Respells : Use η → Use η → Prop where
  | same (use : Use η) : Respells use use
  | request {asked other : Request} {path : String} (encodes : asked.Encodes path)
    (encodes' : other.Encodes path) : Respells (.request asked) (.request other)

/-- A dispatcher is used alike by a request and by one that spells its path another way. -/
lemma Use.Respells.use_eq {use other : Use η} (respells : use.Respells other) (d : Dispatcher η) :
    d.use use = d.use other := by
  cases respells with
  | same => rfl
  | request encodes encodes' =>
    rw [use_request, use_request, dispatch_of_asks encodes.asks, dispatch_of_asks encodes'.asks]

/-- So is it by two runs that respell each other's requests. -/
lemma useAll_eq_of_respells {uses others : List (Use η)} (respells : List.Forall₂ Use.Respells uses others)
    (d : Dispatcher η) : useAll uses d = useAll others d := by
  induction respells generalizing d with
  | nil => rfl
  | cons first _ ih => simp only [useAll, first.use_eq, ih]

/-- A request for an encoding of a path is handed to the handler that a lookup of the path selects, with the
parameters of this match, and the lookup is all that happens. Runs whose requests are for the same paths in
other encodings have the same outcomes and leave the same dispatcher. -/
theorem use_encoded (d : Dispatcher η) :
    (∀ request path, request.Encodes path → d.use (.request request) =
      (.handed (d.selected path).1 (d.selected path).2,
        { d with publisher := (d.publisher.find path).2 })) ∧
    ∀ uses others, List.Forall₂ Use.Respells uses others → useAll uses d = useAll others d := by
  refine ⟨?_, fun _ _ respells => useAll_eq_of_respells respells d⟩
  intro request path encodes
  rw [use_request, dispatch_of_asks encodes.asks]

/-- An escaped slash divides the path, and an escaped percent sign is none to decode. -/
theorem use_encoded_percent :
    let router := ((((Router.ofConfig .default).insert "/a/{x}/A" "letter").2).insert
      "/a/{x}/{y}" "any").2
    let d : Dispatcher String := ⟨.ofRouter router, "none"⟩
    let request : Request := ⟨"/a%2fb/%2541?y=%3F", ""⟩
    request.Encodes "/a/b/%41" ∧
    ∃ next, d.use (.request request) =
      (.handed "any" ⟨some ⟨[("x", .one "b"), ("y", .one "%41")]⟩⟩, next) := by
  intro router d request
  have encodes : request.Encodes "/a/b/%41" := by
    refine ⟨"/a%2fb/%2541", "?y=%3F", [0x61, 0x2f, 0x62, 0x2f, 0x25, 0x34, 0x31],
      [0x61, 0x25, 0x32, 0x66, 0x62, 0x2f, 0x25, 0x32, 0x35, 0x34, 0x31], by decide +kernel,
      .inr (by decide +kernel), by decide +kernel, by decide +kernel, ?_⟩
    exact .raw (by decide) <| .escaped false false <| .raw (by decide) <| .raw (by decide) <|
      .escaped true true <| .raw (by decide) <| .raw (by decide) .nil
  have chosen : d.selected "/a/b/%41" = ("any", ⟨some ⟨[("x", .one "b"), ("y", .one "%41")]⟩⟩) := by
    decide +kernel
  have handed := (use_encoded d).1 request _ encodes
  rw [chosen] at handed
  exact ⟨encodes, _, handed⟩

end Dispatcher

end PathRouting
