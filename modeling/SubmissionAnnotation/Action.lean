import SubmissionAnnotation.Block
import SubmissionAnnotation.Capability
import SubmissionAnnotation.Config
import SubmissionAnnotation.Form
import SubmissionAnnotation.Params

/-!
# Actions

An action annotates submissions: it tracks slots in a supplementary block, decides whether a
submission needs it, and advances the slots. Schema changes and engine listings are capabilities
that an action may lack. The kind of an action says how it is discovered in a form and made from
stored parameters.
-/
namespace SubmissionAnnotation

universe u

class Action (α : Type u) where
  /-- The identifier, which is also the name of the property in field schemas. -/
  id : α → String
  /-- The submission key of the supplementary block. -/
  destination : α → String
  /-- The parameters that are loaded. -/
  params : α → ActionParams
  /-- Loads a stored record in place of the parameters: the outcome, and the action afterwards. -/
  loadParams : α → Json → Except ActionError Unit × α
  /-- The slots that the action tracks. -/
  matrix : α → FieldServiceMatrix
  /-- The submission with its slots advanced. -/
  runChange : α → Submission → Except ActionError Submission
  /-- The schema of a form with the shape of this action's data added. -/
  modifySchema : α → Json → Except ActionError Json := fun a _ =>
    .error (.abstractCapability (id a) "modify_jsonschema")
  /-- Whether a submission still needs the action. -/
  check : α → Submission → Except ActionError SubmissionStatus := fun a s =>
    evaluateBlock s (destination a) (matrix a)
  /-- The engines that can fulfil requests. -/
  engines : α → Except ActionError (List Engine) := fun a =>
    .error (.abstractCapability (id a) "engines")
  /-- The columns added to exports. -/
  additionalFields : α → List AdditionalField := fun _ => []

namespace Action

variable {α : Type u} [Action α] {a after : α} {record : Json} {e : ActionError}

/-- The action after a record was loaded, if the record is accepted. -/
def load (a : α) (record : Json) : Except ActionError α :=
  let (outcome, after) := loadParams a record
  outcome.map fun _ => after

theorem load_eq_ok_iff : load a record = .ok after ↔ loadParams a record = (.ok (), after) := by
  unfold load
  rcases loadParams a record with ⟨_ | _, _⟩ <;> simp [Except.map]

theorem load_eq_error_iff : load a record = .error e ↔ (loadParams a record).1 = .error e := by
  unfold load
  rcases loadParams a record with ⟨_ | _, _⟩ <;> simp [Except.map]

end Action

class ActionKind (α : Type u) extends Action α where
  /-- The identifier under which this kind is registered. -/
  kindId : String
  /-- An action with nothing loaded. -/
  unloaded : ActionConfig → α
  /-- The parameters that a form calls for. -/
  discover : FormDefinition → ActionConfig → ActionParams

/-- An action made from a stored parameter record. -/
def ActionKind.ofParams {α : Type u} [ActionKind α] (params : Json) (config : ActionConfig) :
    Except ActionError α :=
  Action.load (ActionKind.unloaded config : α) params

/-- An action of any type. -/
structure AnyAction where
  carrier : Type
  [action : Action carrier]
  value : carrier

instance : Action AnyAction where
  id a := a.action.id a.value
  destination a := a.action.destination a.value
  params a := a.action.params a.value
  loadParams a record :=
    let (outcome, value) := a.action.loadParams a.value record
    (outcome, { a with value })
  matrix a := a.action.matrix a.value
  runChange a := a.action.runChange a.value
  modifySchema a := a.action.modifySchema a.value
  check a := a.action.check a.value
  engines a := a.action.engines a.value
  additionalFields a := a.action.additionalFields a.value

end SubmissionAnnotation
