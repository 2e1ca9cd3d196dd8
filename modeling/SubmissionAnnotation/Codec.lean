import SubmissionAnnotation.Codec.Error

/-!
# Reading and writing stored types

A codec is a reader and a writer of one type. The codecs here are those of text, truth values,
lists, maps and arbitrary JSON; the codec of a record is built from its fields in `Codec.Record`. A
codec is `Lawful` if it reads back everything that it writes, and `Stable` if it reads back what it
writes of anything it has read.
-/
namespace SubmissionAnnotation

structure Codec (α : Type) where
  decode : Json → Except DecodeError α
  encode : α → Json

namespace Codec

variable {α : Type}

/-- A value that is read again as it was written. -/
def ReadsBack (c : Codec α) (x : α) : Prop :=
  c.decode (c.encode x) = .ok x

def Lawful (c : Codec α) : Prop :=
  ∀ x, c.decode (c.encode x) = .ok x

def Stable (c : Codec α) : Prop :=
  ∀ v x, c.decode v = .ok x → c.decode (c.encode x) = .ok x

theorem Lawful.stable {c : Codec α} (h : c.Lawful) : c.Stable :=
  fun _ x _ => h x

/-- Any JSON value, as it is. -/
def json : Codec Json where
  decode v := .ok v
  encode v := v

def string : Codec String where
  decode
    | .string s => .ok s
    | v => .error (.wrongKind v "a string")
  encode := .string

def bool : Codec Bool where
  decode
    | .bool b => .ok b
    | v => .error (.wrongKind v "a boolean")
  encode := .bool

def list (c : Codec α) : Codec (List α) where
  decode
    | .array items => items.mapM c.decode
    | v => .error (.wrongKind v "a sequence")
  encode xs := .array (xs.map c.encode)

/-- The entries of an object, read in their order. -/
def map (c : Codec α) : Codec (OrderedMap α) where
  decode
    | .object members =>
      (members.entries.mapM fun entry => (c.decode entry.2).map fun x => (entry.1, x)).map
        OrderedMap.ofList
    | v => .error (.wrongKind v "a map")
  encode m := .object (m.map c.encode)

theorem lawful_json : json.Lawful := fun _ => rfl

theorem lawful_string : string.Lawful := fun _ => rfl

theorem lawful_bool : bool.Lawful := fun _ => rfl

@[simp] theorem readsBack_string (s : String) : string.ReadsBack s := lawful_string s

@[simp] theorem readsBack_bool (b : Bool) : bool.ReadsBack b := lawful_bool b

end Codec

end SubmissionAnnotation
