import SubmissionAnnotation.Codec

/-!
# Records

A record type is described once, by its fields in order, and the description gives its reader and
its writer. A record is written as an object. It is read from an object, whose members are taken in
the order in which they stand and whose missing fields are noticed afterwards, or from an array that
lists the fields in their order.
-/
namespace SubmissionAnnotation

/-- One field of a record type `ρ`: reading a value gives a change of the record, and
writing may leave it out. -/
structure Field (ρ : Type) where
  name : String
  required : Bool
  read : Json → Except DecodeError (ρ → ρ)
  write : ρ → Option Json

namespace Field

variable {ρ α : Type}

/-- A field that has to be there. -/
def needed (name : String) (c : Codec α) (get : ρ → α) (set : α → ρ → ρ) : Field ρ where
  name := name
  required := true
  read v := (c.decode v).map set
  write x := some (c.encode (get x))

/-- A field that keeps the value of the blank record if it is missing. -/
def defaulted (name : String) (c : Codec α) (get : ρ → α) (set : α → ρ → ρ) : Field ρ where
  name := name
  required := false
  read v := (c.decode v).map set
  write x := some (c.encode (get x))

/-- A field that may have no value: missing and `null` mean none, and none is not written. -/
def optional (name : String) (c : Codec α) (get : ρ → Option α) (set : Option α → ρ → ρ) :
    Field ρ where
  name := name
  required := false
  read
    | .null => .ok (set none)
    | v => (c.decode v).map fun x => set (some x)
  write x := (get x).map c.encode

end Field

/-- What becomes of members that are no field of the record. -/
inductive OtherMembers (ρ : Type) where
  | ignored
  | refused
  /-- They are added to the record one by one and written behind the fields. -/
  | kept (add : String → Json → ρ → ρ) (entries : ρ → List (String × Json))

/-- What becomes of the items of an array behind the last field. -/
inductive SurplusItems where
  | ignored
  | refused
  deriving DecidableEq

structure Record (ρ : Type) where
  name : String
  blank : ρ
  fields : List (Field ρ)
  others : OtherMembers ρ := .ignored
  surplus : SurplusItems := .refused

namespace Record

variable {ρ : Type}

def fieldNames (r : Record ρ) : List String :=
  r.fields.map Field.name

def field? (r : Record ρ) (name : String) : Option (Field ρ) :=
  r.fields.find? fun f => f.name = name

/-- The change that one member of an object makes to the record. -/
def readMember (r : Record ρ) (entry : String × Json) : Except DecodeError (ρ → ρ) :=
  match r.field? entry.1 with
  | some f => f.read entry.2
  | none =>
    match r.others with
    | .ignored => .ok id
    | .refused => .error (.unknownField entry.1 r.fieldNames)
    | .kept add _ => .ok (add entry.1 entry.2)

/-- The first required field that an object lacks. -/
def missing? (r : Record ρ) (members : OrderedMap Json) : Option (Field ρ) :=
  r.fields.find? fun f => f.required && !members.contains f.name

def readObject (r : Record ρ) (members : OrderedMap Json) : Except DecodeError ρ := do
  let changes ← members.entries.mapM r.readMember
  match r.missing? members with
  | some f => throw (.missingField f.name)
  | none => return changes.foldl (fun x change => change x) r.blank

/-- Reads fields from items, both in order; `position` counts the fields before these. -/
def readItems (r : Record ρ) (count : Nat) :
    (position : Nat) → List (Field ρ) → List Json → ρ → Except DecodeError ρ
  | position, f :: fields, v :: items, x => do
    let change ← f.read v
    r.readItems count (position + 1) fields items (change x)
  | position, f :: fields, [], x =>
    if f.required then .error (.tooFewItems position r.name r.fields.length)
    else r.readItems count (position + 1) fields [] x
  | _, [], [], x => .ok x
  | _, [], _ :: _, x =>
    match r.surplus with
    | .ignored => .ok x
    | .refused => .error (.tooManyItems count)

def decode (r : Record ρ) : Json → Except DecodeError ρ
  | .object members => r.readObject members
  | .array items =>
    match r.others with
    | .kept _ _ => .error (.wrongKind (.array items) ("struct " ++ r.name))
    | _ => r.readItems items.length 0 r.fields items r.blank
  | v => .error (.wrongKind v ("struct " ++ r.name))

/-- The members that a record is written with: its fields in order, then what it
keeps besides them. -/
def members (r : Record ρ) (x : ρ) : List (String × Json) :=
  r.fields.filterMap (fun f => (f.write x).map fun v => (f.name, v)) ++
    match r.others with
    | .kept _ entries => entries x
    | _ => []

def encode (r : Record ρ) (x : ρ) : Json :=
  .object ⟨r.members x⟩

def codec (r : Record ρ) : Codec ρ where
  decode := r.decode
  encode := r.encode

end Record

end SubmissionAnnotation
