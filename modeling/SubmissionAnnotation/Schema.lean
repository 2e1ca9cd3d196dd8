import SubmissionAnnotation.ActionError
import SubmissionAnnotation.Json

/-!
# Schema documents

An action adds shared definitions to the JSON schema of a form, and to each of its fields a property
that refers to them. Every write goes to a key of its own, so writing twice is writing once. The
sections on the way to a key are made as they are needed; an edit walks down before it knows whether
it can succeed, and hands back the document together with its outcome.
-/
namespace SubmissionAnnotation

/-- A write into an object, with its outcome and what the object is afterwards. -/
abbrev SchemaEdit := OrderedMap Json → Except ActionError Unit × OrderedMap Json

namespace SchemaEdit

def put (key : String) (value : Json) : SchemaEdit :=
  fun members => (.ok (), members.insert key value)

/-- An edit of the object at a key, which is made from `fresh` if there is nothing. -/
def within (key : String) (fresh : OrderedMap Json) (refuse : Json → ActionError)
    (edit : SchemaEdit) : SchemaEdit := fun members =>
  match (members.get? key).getD (.object fresh) with
  | .object child =>
    let (outcome, child') := edit child
    (outcome, members.insert key (.object child'))
  | v => (.error (refuse v), members)

/-- An edit of a section, an object that starts out empty. -/
def inSection (key : String) (edit : SchemaEdit) : SchemaEdit :=
  within key .empty
    (fun v => .invalidSchema ("'" ++ key ++ "' must be an object, got " ++ v.kind)) edit

end SchemaEdit

structure SchemaDocument where
  root : OrderedMap Json

namespace SchemaDocument

def definitionsKey : String := "definitions"

def propertiesKey : String := "properties"

/-- A reference to a shared definition. -/
def definitionRef (name : String) : Json :=
  .ofEntries [("$ref", .string ("#/definitions/" ++ name))]

/-- The members of the definition that a field gets if the schema does not describe it. -/
def emptyFieldMembers : OrderedMap Json :=
  ⟨[("type", .string "object"), (propertiesKey, .object .empty),
    ("additionalProperties", .bool false)]⟩

def emptyFieldDefinition : Json :=
  .object emptyFieldMembers

/-- Only objects are schemas. -/
def ofJson : Json → Except ActionError SchemaDocument
  | .object root => .ok ⟨root⟩
  | v => .error (.invalidSchema ("expected an object, got " ++ v.kind))

def toJson (d : SchemaDocument) : Json :=
  .object d.root

def definition? (d : SchemaDocument) (name : String) : Option Json :=
  (d.root.get? definitionsKey).bind fun v => v.member? name

def property? (d : SchemaDocument) (field : String) : Option Json :=
  (d.root.get? propertiesKey).bind fun v => v.member? field

/-- Writes a shared definition. -/
def setDefinitionEdit (name : String) (definition : Json) : SchemaEdit :=
  .inSection definitionsKey (.put name definition)

/-- Writes a property of a field, under its own `properties`. -/
def attachEdit (field subKey : String) (property : Json) : SchemaEdit :=
  .inSection propertiesKey <|
    .within field emptyFieldMembers
      (fun _ => .invalidSchema ("property '" ++ field ++ "' must be an object")) <|
      .inSection propertiesKey (.put subKey property)

/-- The outcome of an edit and the document after it, whether it succeeded or not. -/
def edit (e : SchemaEdit) (d : SchemaDocument) : Except ActionError Unit × SchemaDocument :=
  let (outcome, root) := e d.root
  (outcome, ⟨root⟩)

/-- The document after an edit that succeeds. -/
def edited (e : SchemaEdit) (d : SchemaDocument) : Except ActionError SchemaDocument :=
  let (outcome, after) := d.edit e
  outcome.map fun _ => after

def setDefinition (d : SchemaDocument) (name : String) (definition : Json) :
    Except ActionError SchemaDocument :=
  d.edited (setDefinitionEdit name definition)

def attachFieldProperty (d : SchemaDocument) (field subKey : String) (property : Json) :
    Except ActionError SchemaDocument :=
  d.edited (attachEdit field subKey property)

end SchemaDocument

end SubmissionAnnotation
