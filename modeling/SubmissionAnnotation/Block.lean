import SubmissionAnnotation.Matrix
import SubmissionAnnotation.Status
import SubmissionAnnotation.Submission

/-!
# Evaluating and advancing a block

A submission needs the action if its block is missing, or lacks a slot of the matrix, or has a slot
that a user requested. Advancing a block removes all three causes: missing slots are written as not
requested and requested ones as pending, slot by slot, each step reading what the steps before it
wrote. All other entries stay.
-/
namespace SubmissionAnnotation

/-- Whether some slot is missing or requested, in a block that is there. -/
def evaluateSlots (block : SupplementalBlock) : List FieldServicePair → SubmissionStatus
  | [] => .passes
  | p :: rest =>
    match block.get? p.key with
    | none => .actionNeeded
    | some v =>
      if (FieldStatus.ofValue v).needsAction then .actionNeeded else evaluateSlots block rest

/-- The verdict on a submission. -/
def evaluateBlock (s : Submission) (destination : String) (matrix : FieldServiceMatrix) :
    Except ActionError SubmissionStatus := do
  match ← s.supplemental destination with
  | none => return .actionNeeded
  | some block => return evaluateSlots block matrix.pairs

/-- An advanced block, with the slots that were written, in the order of the matrix. -/
structure BlockChange where
  block : SupplementalBlock
  /-- The slots that were missing and are now not requested. -/
  initialized : List FieldServicePair
  /-- The slots that were requested by a user and are now pending. -/
  requested : List FieldServicePair

namespace BlockChange

/-- Nothing has changed yet. -/
def start (block : SupplementalBlock) : BlockChange := ⟨block, [], []⟩

def isNoop (c : BlockChange) : Bool :=
  c.initialized.isEmpty && c.requested.isEmpty

/-- Advances one slot. -/
def visit (c : BlockChange) (p : FieldServicePair) : BlockChange :=
  match (c.block.get? p.key).map FieldStatus.ofValue with
  | none =>
    { c with
      block := c.block.insert p.key FieldStatus.notRequested.toValue
      initialized := c.initialized ++ [p] }
  | some .requestedByUser =>
    { c with
      block := c.block.insert p.key FieldStatus.pending.toValue
      requested := c.requested ++ [p] }
  | some _ => c

end BlockChange

def advanceBlock (block : Option SupplementalBlock) (matrix : FieldServiceMatrix) : BlockChange :=
  matrix.pairs.foldl BlockChange.visit (.start (block.getD .empty))

end SubmissionAnnotation
