import SubmissionAnnotation.Codec

/-!
# Statuses

A slot of a supplementary block is asked for, dispatched and completed. The three steps before
completion are stored as fixed texts, a result is stored as an object, and any other value is left
as it is. The verdict on a whole submission is whether some slot still needs the action.
-/
namespace SubmissionAnnotation

/-- The state of one slot, as its stored value tells it. -/
inductive FieldStatus where
  | notRequested
  | requestedByUser
  /-- Dispatched and waiting for its result. -/
  | pending
  /-- The result that was written. -/
  | completed (result : OrderedMap Json)
  /-- A stored value of no known form. -/
  | unrecognized (value : Json)

namespace FieldStatus

def notRequestedText : String := "NOT_REQUESTED"

def requestedByUserText : String := "REQUESTED_BY_USER"

def pendingText : String := "PENDING"

def ofValue : Json → FieldStatus
  | .string s =>
    if s = notRequestedText then .notRequested
    else if s = requestedByUserText then .requestedByUser
    else if s = pendingText then .pending
    else .unrecognized (.string s)
  | .object result => .completed result
  | v => .unrecognized v

def toValue : FieldStatus → Json
  | .notRequested => .string notRequestedText
  | .requestedByUser => .string requestedByUserText
  | .pending => .string pendingText
  | .completed result => .object result
  | .unrecognized v => v

/-- Whether a change run would dispatch this slot. -/
def needsAction : FieldStatus → Bool
  | .requestedByUser => true
  | _ => false

def isCompleted : FieldStatus → Bool
  | .completed _ => true
  | _ => false

/-- The state as messages show it. -/
def display : FieldStatus → String
  | .notRequested => notRequestedText
  | .requestedByUser => requestedByUserText
  | .pending => pendingText
  | .completed _ => "COMPLETED"
  | .unrecognized v => "UNRECOGNIZED(" ++ v.compact ++ ")"

@[simp] theorem toValue_ofValue (v : Json) : (ofValue v).toValue = v := by
  cases v with
  | string s =>
    simp only [ofValue]
    split
    · simp [toValue, *]
    · split
      · simp [toValue, *]
      · split <;> simp [toValue, *]
  | _ => rfl

theorem needsAction_iff {s : FieldStatus} : s.needsAction = true ↔ s = .requestedByUser := by
  cases s <;> simp [needsAction]

end FieldStatus

/-- The verdict on a whole submission. -/
inductive SubmissionStatus where
  /-- Some slot is missing or was requested by a user. -/
  | actionNeeded
  | passes
  deriving DecidableEq, Repr

namespace SubmissionStatus

def text : SubmissionStatus → String
  | .actionNeeded => "ACTION_NEEDED"
  | .passes => "PASSES"

def isActionNeeded : SubmissionStatus → Bool
  | .actionNeeded => true
  | .passes => false

def all : List SubmissionStatus := [.actionNeeded, .passes]

def ofText (s : String) : Except DecodeError SubmissionStatus :=
  match all.find? fun status => status.text = s with
  | some status => .ok status
  | none => .error (.unknownVariant s (all.map text))

/-- A verdict is stored as its text, and also read from an object whose one member has
that name and no value. -/
def codec : Codec SubmissionStatus where
  decode
    | .string s => ofText s
    | .object ⟨[(name, value)]⟩ => do
      let status ← ofText name
      match value with
      | .null => return status
      | v => throw (.wrongKind v "unit")
    | .object _ => .error .notOneMember
    | v => .error (.wrongKind v "string or map")
  encode status := .string status.text

theorem lawful_codec : codec.Lawful := by
  intro status
  cases status <;> rfl

end SubmissionStatus

end SubmissionAnnotation
