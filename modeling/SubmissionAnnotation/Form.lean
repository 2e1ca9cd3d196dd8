import SubmissionAnnotation.Codec.Record

/-!
# Form definitions

A form is a list of rows; actions look in it for the fields that they can work on. A row keeps
whatever it says besides its type and its names.
-/
namespace SubmissionAnnotation

/-- The row types that hold recordings. -/
def mediaRowTypes : List String := ["audio", "video"]

structure FormRow where
  type : String
  /-- The name that the author gave. -/
  name : Option String
  /-- The name that was made up because the author gave none. -/
  autoname : Option String
  extra : OrderedMap Json

namespace FormRow

def blank : FormRow := ⟨"", none, none, .empty⟩

def named (type name : String) : FormRow :=
  { blank with type := type, name := some name }

/-- The name of the field: the author's unless it is missing or empty, else the
one that was made up. -/
def fieldName (row : FormRow) : Option String :=
  match row.name with
  | some name => if name.isEmpty then row.autoname else some name
  | none => row.autoname

def isMedia (row : FormRow) : Bool :=
  row.type ∈ mediaRowTypes

def record : Record FormRow where
  name := "FormRow"
  blank := blank
  fields := [
    .defaulted "type" .string type fun s row => { row with type := s },
    .optional "name" .string name fun s row => { row with name := s },
    .optional "$autoname" .string autoname fun s row => { row with autoname := s }]
  others := .kept (fun key v row => { row with extra := row.extra.insert key v })
    fun row => row.extra.entries

end FormRow

structure FormDefinition where
  survey : List FormRow

namespace FormDefinition

def record : Record FormDefinition where
  name := "FormDefinition"
  blank := ⟨[]⟩
  fields := [
    .defaulted "survey" (.list FormRow.record.codec) survey
      fun rows form => { form with survey := rows }]

/-- The field names of the rows of the given types, in the order of the form; rows without
a name are left out. -/
def namesOfType (form : FormDefinition) (types : List String) : List String :=
  (form.survey.filter fun row => row.type ∈ types).filterMap FormRow.fieldName

end FormDefinition

end SubmissionAnnotation
