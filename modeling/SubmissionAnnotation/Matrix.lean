import SubmissionAnnotation.OrderedSet
import SubmissionAnnotation.Json

/-!
# The matrix of fields and services

Each field of a form has one slot for an entry by hand and one for every service. The matrix lists
the slots, field by field, the one by hand first; evaluation and change walk the same list. The key
of a slot joins field, joiner and service without escaping, so two slots may share a key, and
`duplicateKey?` finds the first that is shared.
-/
namespace SubmissionAnnotation

/-- The service that every field has: an entry made by hand. -/
def manualService : String := "manual"

/-- The block key of a field and a service. -/
def pairKey (field service joiner : String) : String :=
  field ++ "_" ++ joiner ++ "_" ++ service

/-- One slot of a supplementary block. -/
structure FieldServicePair where
  field : String
  service : String
  key : String
  deriving DecidableEq, Repr

namespace FieldServicePair

def ofNames (field service joiner : String) : FieldServicePair :=
  ⟨field, service, pairKey field service joiner⟩

def isManual (p : FieldServicePair) : Bool :=
  p.service = manualService

def toJson (p : FieldServicePair) : Json :=
  .ofEntries [("field", .string p.field), ("service", .string p.service), ("key", .string p.key)]

end FieldServicePair

/-- The slots that an action tracks, in the order in which they are walked. -/
structure FieldServiceMatrix where
  pairs : List FieldServicePair
  deriving DecidableEq, Repr

namespace FieldServiceMatrix

def empty : FieldServiceMatrix := ⟨[]⟩

/-- The services of one field: by hand first, then the configured ones without it. -/
def servicesOf (services : OrderedSet) : List String :=
  manualService :: services.items.filter (· ≠ manualService)

/-- The slots of one field. -/
def row (services : OrderedSet) (joiner field : String) : List FieldServicePair :=
  (servicesOf services).map fun service => .ofNames field service joiner

def generate (fields services : OrderedSet) (joiner : String) : FieldServiceMatrix :=
  ⟨fields.items.flatMap (row services joiner)⟩

def keys (m : FieldServiceMatrix) : List String :=
  m.pairs.map FieldServicePair.key

def find? (m : FieldServiceMatrix) (field service : String) : Option FieldServicePair :=
  m.pairs.find? fun p => p.field = field && p.service = service

/-- The first key in the order of the slots that an earlier slot has too. -/
def duplicateKey? (m : FieldServiceMatrix) : Option String :=
  firstRepeat? m.keys

def size (m : FieldServiceMatrix) : Nat :=
  m.pairs.length

def isEmpty (m : FieldServiceMatrix) : Bool :=
  m.pairs.isEmpty

end FieldServiceMatrix

end SubmissionAnnotation
