import SubmissionAnnotation.ActionError
import SubmissionAnnotation.Codec

/-!
# Submissions

A submission is the record of one filled-in form, a map from field names to values. Actions read it
and hand back a copy in which only the supplementary block at their destination key was replaced.
-/
namespace SubmissionAnnotation

/-- The slots of one submission: from slot keys to statuses and results. -/
abbrev SupplementalBlock := OrderedMap Json

structure Submission where
  members : OrderedMap Json

namespace Submission

def empty : Submission := ⟨.empty⟩

/-- Only objects are submissions. -/
def ofJson : Json → Except ActionError Submission
  | .object members => .ok ⟨members⟩
  | v => .error (.invalidSubmission ("expected an object, got " ++ v.kind))

def toJson (s : Submission) : Json :=
  .object s.members

def get? (s : Submission) (key : String) : Option Json :=
  s.members.get? key

/-- The submission with one top-level entry written. -/
def insert (s : Submission) (key : String) (value : Json) : Submission :=
  ⟨s.members.insert key value⟩

/-- Whether there is an entry at the destination, of whatever kind. -/
def hasSupplemental (s : Submission) (destination : String) : Bool :=
  s.members.contains destination

/-- The block at a destination; a missing or `null` entry is no block, any other
non-object an error. -/
def supplemental (s : Submission) (destination : String) :
    Except ActionError (Option SupplementalBlock) :=
  match s.get? destination with
  | none | some .null => .ok none
  | some (.object block) => .ok (some block)
  | some v =>
    .error (.invalidSubmission ("'" ++ destination ++ "' must be an object, got " ++ v.kind))

def withSupplemental (s : Submission) (destination : String) (block : SupplementalBlock) :
    Submission :=
  s.insert destination (.object block)

/-- The submission with one entry of its block written; the block is made if there is none. -/
def withSlot (s : Submission) (destination key : String) (value : Json) :
    Except ActionError Submission := do
  let block ← s.supplemental destination
  return s.withSupplemental destination ((block.getD .empty).insert key value)

/-- Submissions are stored as they are. -/
def codec : Codec Submission where
  decode
    | .object members => .ok ⟨members⟩
    | v => .error (.wrongKind v "a map")
  encode := toJson

theorem lawful_codec : codec.Lawful := fun _ => rfl

@[simp] theorem get?_withSupplemental_self (s : Submission) (destination : String)
    (block : SupplementalBlock) :
    (s.withSupplemental destination block).get? destination = some (.object block) := by
  simp [withSupplemental, insert, get?]

@[simp] theorem supplemental_withSupplemental (s : Submission) (destination : String)
    (block : SupplementalBlock) :
    (s.withSupplemental destination block).supplemental destination = .ok (some block) := by
  simp [supplemental]

theorem get?_withSupplemental_of_ne {key destination : String} (h : key ≠ destination)
    (s : Submission) (block : SupplementalBlock) :
    (s.withSupplemental destination block).get? key = s.get? key :=
  OrderedMap.get?_insert_of_ne h _ _

end Submission

end SubmissionAnnotation
