import PathRouting.Proofs.Publisher.Snapshots

/-!
# What a publisher publishes

An update that fails leaves a session as it is, whatever its edit did to the copy that it was given. One that
succeeds publishes what its edit made. So the published table comes of its lineage alone: of the router of the
last replacement, and of the edits that succeeded since, each of them run on a copy of what the one before it
made (`after_published`). Lookups have no part in it, because a copy has nothing of them.

Scripts are a special case. Their updates run steps up to the first error (`Edit.ofSteps`), and a script of a
publisher is a list of uses (`runSteps_eq_after`).
-/

namespace PathRouting

variable {α : Type}

/-- The error that a step answers with, if it failed with one. -/
def Router.Reply.error? : Router.Reply α → Option RouteError
  | .failed error => some error
  | _ => none

/-- A reply has an error if it is that of a failed step. -/
lemma Router.Reply.error?_eq_some_iff {reply : Router.Reply α} {error : RouteError} :
    reply.error? = some error ↔ reply = .failed error := by
  cases reply <;> simp [error?]

namespace Publisher

/-! ### Edits by steps -/

section Steps

variable {r : Router α}

/-- Of some steps the first that fails does so with an error. -/
def FailsAt (steps : List (Router.Step α)) (r : Router α) (error : RouteError) : Prop :=
  ∃ front step back, steps = front ++ step :: back ∧
    (∀ entry ∈ (Router.runSteps front r).1, entry.reply.error? = none) ∧
    (step.run (Router.runSteps front r).2).1.reply.error? = some error

/-- Nothing is run after a step that fails. -/
lemma runUntilError_cons_of_failed {step : Router.Step α} {error : RouteError}
    (failed : (step.run r).1.reply.error? = some error) (steps : List (Router.Step α)) :
    runUntilError (step :: steps) r = ([], .error error, (step.run r).2) := by
  rw [Router.Reply.error?_eq_some_iff] at failed
  rw [runUntilError]
  generalize step.run r = outcome at failed ⊢
  obtain ⟨entry, next⟩ := outcome
  dsimp only at failed ⊢
  rw [failed]

/-- A step that does not fail is followed by the others. -/
lemma snd_runUntilError_cons {step : Router.Step α}
    (passed : (step.run r).1.reply.error? = none) (steps : List (Router.Step α)) :
    (runUntilError (step :: steps) r).2 = (runUntilError steps (step.run r).2).2 := by
  rw [runUntilError]
  generalize step.run r = outcome at passed ⊢
  obtain ⟨entry, next⟩ := outcome
  dsimp only at passed ⊢
  split
  · rename_i error failed
    rw [failed] at passed
    cases passed
  · rfl

/-- Steps that are run up to the first error come to the error of the first step that fails. -/
lemma runUntilError_of_failsAt {steps : List (Router.Step α)} {error : RouteError}
    (fails : FailsAt steps r error) : (runUntilError steps r).2.1 = .error error := by
  obtain ⟨front, step, back, rfl, passed, failed⟩ := fails
  induction front generalizing r with
  | nil =>
    rw [List.nil_append, runUntilError_cons_of_failed (r := r) failed]
  | cons first front ih =>
    rw [Router.runSteps] at passed failed
    obtain ⟨here, passed⟩ := List.forall_mem_cons.mp passed
    rw [List.cons_append, snd_runUntilError_cons here]
    exact ih passed failed

/-- Without an error they are steps like others. -/
lemma runUntilError_of_ok {steps : List (Router.Step α)}
    (passed : (runUntilError steps r).2.1 = .ok ()) :
    (runUntilError steps r).2.2 = (Router.runSteps steps r).2 := by
  induction steps generalizing r with
  | nil => rfl
  | cons step steps ih =>
    cases here : (step.run r).1.reply.error? with
    | some error =>
      rw [runUntilError_cons_of_failed here] at passed
      cases passed
    | none =>
      rw [snd_runUntilError_cons here] at passed ⊢
      exact ih passed

/-- Steps up to the first error lead from a reachable router to a reachable one. -/
lemma reachable_runUntilError (reachable : r.Reachable) (steps : List (Router.Step α)) :
    (runUntilError steps r).2.2.Reachable := by
  induction steps generalizing r with
  | nil => exact reachable
  | cons step steps ih =>
    have next := reachable.step step
    cases here : (step.run r).1.reply.error? with
    | some error =>
      rw [runUntilError_cons_of_failed here]
      exact next
    | none =>
      rw [snd_runUntilError_cons here]
      exact ih next

end Steps

end Publisher

namespace Edit

/-- Runs steps up to the first error. -/
def ofSteps (steps : List (Router.Step α)) : Edit α where
  run r := (Publisher.runUntilError steps r).2
  reachable_run reachable := Publisher.reachable_runUntilError reachable steps

/-- Edits that succeed one after the other, each on a copy of what the one before it made. -/
inductive Chain (base : Router α) : List (Edit α) → Router α → Prop where
  | start : Chain base [] base
  | then {edits router edit next} (before : Chain base edits router)
      (succeeds : edit.run router.copy = (.ok (), next)) : Chain base (edits ++ [edit]) next

end Edit

namespace Publisher

/-! ### Lineages -/

/-- Where the published table comes from. -/
structure Lineage (α : Type) where
  /-- The router of the last replacement, or the first router. -/
  base : Router α
  /-- The edits that succeeded since. -/
  edits : List (Edit α)

/-- The lineage after a use and its answer. -/
def Lineage.note (l : Lineage α) : Use α × Reply α → Lineage α
  | (.update edit, .done) => ⟨l.base, l.edits ++ [edit]⟩
  | (.replace router _, _) => ⟨router, []⟩
  | _ => l

/-- The lineage of what is published after some uses of a publisher of one router. -/
def lineage (router : Router α) (uses : List (Use α)) : Lineage α :=
  (uses.zip (useAll uses (.ofPublisher (.ofRouter router))).1).foldl Lineage.note ⟨router, []⟩

/-- The published router is, but for its lookups, what a lineage makes. -/
def Session.Follows (s : Session α) (l : Lineage α) : Prop :=
  ∃ made, Edit.Chain l.base l.edits made ∧ s.publisher.current.copy = made.copy

namespace Session

variable {s : Session α} {l : Lineage α}

/-- A use that publishes nothing leaves the published router as it is but for a lookup. -/
lemma copy_current_of_none {u : Use α} (unpublished : s.publication? u = none) :
    (s.use u).2.publisher.current.copy = s.publisher.current.copy := by
  obtain ⟨generation, snapshots⟩ := snapshot?_use_of_none unpublished
  have published := snapshots (s.use u).2.publisher.generation
  rw [snapshot?_generation, generation, snapshot?_generation, Option.map_some,
    Option.some_inj] at published
  rw [published, touch]
  cases s.target? u with
  | none => rfl
  | some target =>
    obtain ⟨number, query⟩ := target
    dsimp only
    split
    · exact Router.copy_query query _
    · rfl

/-- Every use keeps what is published to its lineage. -/
lemma Follows.use (follows : s.Follows l) (u : Use α) :
    (s.use u).2.Follows (l.note (u, (s.use u).1)) := by
  obtain ⟨made, chain, copy⟩ := follows
  cases u with
  | update edit =>
    cases h : edit.run s.publisher.current.copy with
    | mk result next =>
      cases result with
      | ok _ =>
        rw [update_of_ok h]
        refine ⟨next, .then chain (copy ▸ h), ?_⟩
        rw [current_publish]
      | error error =>
        rw [update_of_error h]
        exact ⟨made, chain, copy⟩
  | replace router reachable =>
    refine ⟨router, .start, ?_⟩
    rw [Session.use, current_publish]
  | load name => exact ⟨made, chain, copy⟩
  | query query => exact ⟨made, chain, (copy_current_of_none rfl).trans copy⟩
  | on name query => exact ⟨made, chain, (copy_current_of_none rfl).trans copy⟩

/-- So does every run. -/
lemma Follows.useAll (follows : s.Follows l) (uses : List (Use α)) :
    (useAll uses s).2.Follows ((uses.zip (useAll uses s).1).foldl Lineage.note l) := by
  induction uses generalizing s l with
  | nil => exact follows
  | cons u uses ih => exact ih (follows.use u)

end Session

/-! ### Scripts -/

/-- The uses that a step of a script makes. -/
def Step.uses : Step α → List (Use α)
  | .update steps => [.update (.ofSteps steps)]
  | .replace config steps =>
    [.replace (Router.runSteps steps (.ofConfig config)).2
      ((Router.Reachable.ofConfig config).runSteps steps)]
  | .load name => [.load name]
  | .on name queries => queries.map (.on name)
  | .query q => [.query q]

/-- Putting a snapshot in its own place changes nothing. -/
lemma setSnapshot_self {p : Publisher α} {number : Nat} {router : Router α}
    (held : p.snapshot? number = some router) : p.setSnapshot number router = p := by
  obtain ⟨within, rfl⟩ := List.getElem?_eq_some_iff.mp held
  simp [setSnapshot]

/-- Of two snapshots put in one place the last one stays. -/
lemma setSnapshot_setSnapshot (p : Publisher α) (number : Nat) (first last : Router α) :
    (p.setSnapshot number first).setSnapshot number last = p.setSnapshot number last := by
  simp [setSnapshot]

/-- Two lists of uses are run after one another. -/
lemma snd_useAll_append (front back : List (Use α)) (s : Session α) :
    (useAll (front ++ back) s).2 = (useAll back (useAll front s).2).2 := by
  induction front generalizing s with
  | nil => rfl
  | cons use front ih => exact ih _

/-- Queries on a snapshot that has a name come to it one after the other. -/
lemma snd_useAll_on {s : Session α} {name : String} {number : Nat} {router : Router α}
    (named : s.named? name = some (number, router)) (queries : List (Router.Query α)) :
    (useAll (queries.map (.on name)) s).2 =
      { s with publisher := s.publisher.setSnapshot number (runQueries queries router).2 } := by
  induction queries generalizing s router with
  | nil =>
    have held := (Session.named?_eq_some_iff.mp named).2
    rw [runQueries, setSnapshot_self held]
    rfl
  | cons query queries ih =>
    obtain ⟨kept, held⟩ := Session.named?_eq_some_iff.mp named
    have first : (s.use (.on name query)).2 =
        { s with publisher := s.publisher.setSnapshot number (query.run router).2 } := by
      rw [Session.use, named]
    have next : (s.use (.on name query)).2.named? name = some (number, (query.run router).2) := by
      rw [first, Session.named?_eq_some_iff, snapshot?_setSnapshot, held]
      simp [kept]
    have rest := ih next
    rw [first, setSnapshot_setSnapshot] at rest
    show (useAll (queries.map (.on name)) (s.use (.on name query)).2).2 = _
    rw [first]
    exact rest

/-- Queries on a name that is not known change nothing. -/
lemma snd_useAll_on_of_unknown {s : Session α} {name : String} (unknown : s.named? name = none)
    (queries : List (Router.Query α)) : (useAll (queries.map (.on name)) s).2 = s := by
  induction queries with
  | nil => rfl
  | cons query queries ih =>
    have first : s.use (.on name query) = (.unknown, s) := by rw [Session.use, unknown]
    rw [List.map_cons, useAll, first]
    exact ih

/-- A step changes the session as its uses do. -/
lemma snd_run_eq (step : Step α) (s : Session α) : (step.run s).2 = (useAll step.uses s).2 := by
  cases step with
  | update steps =>
    show _ = (s.use (.update (.ofSteps steps))).2
    rw [Step.run, Session.use, Edit.ofSteps]
    generalize s.publisher.update _ = change
    obtain ⟨_ | _, next⟩ := change <;> rfl
  | replace config steps => rfl
  | load name => rfl
  | on name queries =>
    rw [Step.run]
    cases named : s.named? name with
    | none => exact (snd_useAll_on_of_unknown named queries).symm
    | some held => exact (snd_useAll_on named queries).symm
  | query query => rfl

/-- A script of a publisher is a list of uses. -/
theorem runSteps_eq_after (router : Router α) (steps : List (Step α)) :
    (runSteps steps (.ofPublisher (.ofRouter router))).2 = after router (steps.flatMap Step.uses) := by
  rw [after]
  generalize Session.ofPublisher (ofRouter router) = s
  induction steps generalizing s with
  | nil => rfl
  | cons step steps ih =>
    rw [runSteps, List.flatMap_cons, snd_useAll_append, ← snd_run_eq]
    exact ih _

/-! ### What is published -/

/-- After any uses the published table is what the lineage makes. An update is answered as its edit of a copy
of the published router, and one whose edit fails, at whatever step, leaves all snapshots as they are. -/
theorem after_published (router : Router α) (uses : List (Use α)) :
    let s := after router uses
    let l := lineage router uses
    (∃ made, Edit.Chain l.base l.edits made ∧ s.publisher.current.table = made.table ∧
      s.publisher.current.config = made.config) ∧
    (∀ edit next, edit.run s.publisher.current.copy = (.ok (), next) →
      s.use (.update edit) = (.done, { s with publisher := s.publisher.publish next })) ∧
    (∀ edit error next, edit.run s.publisher.current.copy = (.error error, next) →
      s.use (.update edit) = (.failed error, s)) ∧
    ∀ steps error, FailsAt steps s.publisher.current.copy error →
      s.use (.update (.ofSteps steps)) = (.failed error, s) := by
  intro s l
  -- the first router is made by the lineage without edits
  have start : (Session.ofPublisher (.ofRouter router)).Follows ⟨router, []⟩ := ⟨router, .start, rfl⟩
  obtain ⟨made, chain, copy⟩ := start.useAll uses
  have table := congrArg Router.table copy
  have config := congrArg Router.config copy
  refine ⟨⟨made, chain, table, config⟩, ?_, ?_, ?_⟩
  · intro edit next succeeds
    exact Session.update_of_ok succeeds
  · intro edit error next fails
    exact Session.update_of_error fails
  · intro steps error fails
    exact Session.update_of_error (Prod.ext (runUntilError_of_failsAt fails) rfl)

/-- An edit that has inserted a route, looked it up and cleared the table fails at its last step: what is
published is still there, with the path that it remembers. -/
theorem after_published_refused :
    let front : List (Router.Step Nat) := [.insert .checked "/b" 2, .query (.find "/b"), .clear]
    let last : Router.Step Nat := .insert .checked "/{x}/{x}" 3
    let s := after (Router.ofConfig .default)
      [.update (.ofSteps [.insert .checked "/a" 1]), .query (.find "/a")]
    let error := RouteError.pattern "/{x}/{x}" (.duplicateAlias "x")
    FailsAt (front ++ [last]) s.publisher.current.copy error ∧
      s.use (.update (.ofSteps (front ++ [last]))) = (.failed error, s) ∧
      s.publisher.current.isCached "/a" = true := by
  intro front last s error
  have passed : ∀ entry ∈ (Router.runSteps front s.publisher.current.copy).1,
      entry.reply.error? = none := by
    decide +kernel
  have failed : (last.run (Router.runSteps front s.publisher.current.copy).2).1.reply.error? =
      some error := by
    decide +kernel
  have remembered : s.publisher.current.isCached "/a" = true := by
    decide +kernel
  have fails : FailsAt (front ++ [last]) s.publisher.current.copy error :=
    ⟨front, last, [], rfl, passed, failed⟩
  exact ⟨fails, (after_published _ _).2.2.2 _ _ fails, remembered⟩

end Publisher

end PathRouting
