import SubmissionAnnotation.Action

/-!
# The registry of actions

A registry knows kinds of actions by identifier, so that stored configurations become actions again
without naming their types. Registering an identifier again replaces what it stood for.
-/
namespace SubmissionAnnotation

universe u

/-- How actions of one kind are discovered and made, under an identifier. -/
structure ActionDescriptor where
  id : String
  discover : FormDefinition → ActionConfig → ActionParams
  load : Json → ActionConfig → Except ActionError AnyAction

def ActionDescriptor.ofKind (α : Type) [ActionKind α] : ActionDescriptor where
  id := ActionKind.kindId α
  discover := ActionKind.discover α
  load params config := (ActionKind.ofParams (α := α) params config).map fun a => ⟨α, a⟩

structure ActionRegistry where
  config : ActionConfig
  descriptors : OrderedMap ActionDescriptor

namespace ActionRegistry

def ofConfig (config : ActionConfig) : ActionRegistry := ⟨config, .empty⟩

def register (r : ActionRegistry) (d : ActionDescriptor) : ActionRegistry :=
  { r with descriptors := r.descriptors.insert d.id d }

def contains (r : ActionRegistry) (id : String) : Bool :=
  r.descriptors.contains id

def get? (r : ActionRegistry) (id : String) : Option ActionDescriptor :=
  r.descriptors.get? id

/-- The registered identifiers, sorted. -/
def ids (r : ActionRegistry) : List String :=
  r.descriptors.keys.mergeSort fun a b => decide (a ≤ b)

def size (r : ActionRegistry) : Nat :=
  r.descriptors.entries.length

def isEmpty (r : ActionRegistry) : Bool :=
  r.descriptors.entries.isEmpty

def lookup (r : ActionRegistry) (id : String) : Except ActionError ActionDescriptor :=
  match r.get? id with
  | some d => .ok d
  | none => .error (.unknownAction id)

def buildParams (r : ActionRegistry) (id : String) (form : FormDefinition) :
    Except ActionError ActionParams :=
  match r.lookup id with
  | .ok d => .ok (d.discover form r.config)
  | .error e => .error e

def load (r : ActionRegistry) (id : String) (params : Json) : Except ActionError AnyAction :=
  match r.lookup id with
  | .ok d => d.load params r.config
  | .error e => .error e

end ActionRegistry

end SubmissionAnnotation
