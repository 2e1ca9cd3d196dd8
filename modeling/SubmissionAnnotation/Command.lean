import SubmissionAnnotation.Batch
import SubmissionAnnotation.Command.Error

/-!
# Commands

A command asks for one document made from others: the parameters that a form calls for, a
schema with the shape of an action's data, the verdicts on a batch or the batch after a run, or
the engines of an action. How documents are named is left open: `execute` is given a way to
fetch them and fetches each one only when it is needed, so that the first thing that is wrong
is the one that is reported.
-/
namespace SubmissionAnnotation

universe u v

/-- A command over documents that are named by values of `δ`. -/
inductive Command (δ : Type u) where
  | params (form : δ)
  | schema (params document : δ)
  | check (params submissions : δ)
  | run (params submissions : δ)
  | engines (params : δ)

namespace Command

/-- The stored parameters that a form calls for. -/
def discover (registry : ActionRegistry) (action : String) (form : Json) :
    Except CommandError Json := do
  let form ← (FormDefinition.record.decode form).mapError .formDefinition
  let discovered ← (registry.buildParams action form).mapError .action
  return discovered.toJson

variable {δ : Type u} {m : Type → Type v} [Monad m]

/-- What a command over one action gives, once the action is loaded. -/
def withAction (registry : ActionRegistry) (action : String) (stored : Json)
    (next : AnyAction → ExceptT CommandError m Json) : ExceptT CommandError m Json :=
  match registry.load action stored with
  | .ok a => next a
  | .error e => throw (.loadingParameters e)

/-- The document that a command gives. -/
def execute (registry : ActionRegistry) (action : String)
    (fetch : δ → ExceptT CommandError m Json) : Command δ → ExceptT CommandError m Json
  | .params form => do
    liftExcept (discover registry action (← fetch form))
  | .schema stored document => do
    withAction registry action (← fetch stored) fun a => do
      liftExcept ((Action.modifySchema a (← fetch document)).mapError .action)
  | .check stored submissions => do
    withAction registry action (← fetch stored) fun a => do
      let outcomes := Batch.check a (Batch.submissionsOf (← fetch submissions))
      return .array (outcomes.map Batch.CheckOutcome.toJson)
  | .run stored submissions => do
    withAction registry action (← fetch stored) fun a => do
      return (Batch.run a (Batch.submissionsOf (← fetch submissions))).toJson
  | .engines stored => do
    withAction registry action (← fetch stored) fun a =>
      liftExcept ((Batch.capabilities a).mapError .action)
where
  /-- A result that needs no fetching. -/
  liftExcept (r : Except CommandError Json) : ExceptT CommandError m Json :=
    ExceptT.mk (pure r)

end Command

end SubmissionAnnotation
