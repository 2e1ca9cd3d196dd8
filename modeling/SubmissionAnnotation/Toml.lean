import SubmissionAnnotation.Json

/-!
# TOML values and tables

A document says in pieces what its tables hold, and a table remembers how it came about, because
that decides which later pieces may still add to it: a table with a header is never reopened, a
table inside braces is complete, and a table that only lies on the way to another may still get a
header of its own.
-/
namespace SubmissionAnnotation

namespace Toml

/-- How a table came about. -/
inductive Origin where
  /-- It has a header, or is the document itself. -/
  | header
  /-- It lies on the way to a table with a header. -/
  | implied
  /-- It lies on the way of a dotted key. -/
  | dotted
  /-- It was written inside braces. -/
  | braces
  deriving DecidableEq, Repr

/-- Whether a path whose new tables have the origin `made` may lead through a table. -/
def Origin.admits : (origin made : Origin) → Bool
  | .braces, _ => false
  | .header, .dotted => false
  | _, _ => true

/-- A dotted key: the tables on its way and its last part. -/
structure Key where
  parents : List String
  name : String
  deriving DecidableEq, Repr

end Toml

inductive Toml where
  | string (s : String)
  | integer (n : Int)
  | float (x : Binary64)
  | bool (b : Bool)
  /-- A date, a time of day or both, as it is written. -/
  | dateTime (text : String)
  | array (items : List Toml)
  | table (origin : Toml.Origin) (entries : OrderedMap Toml)
  /-- The tables of one repeated header; only the last may still grow. -/
  | tables (earlier : List (OrderedMap Toml)) (last : OrderedMap Toml)
  deriving Inhabited

namespace Toml

/-- A change of the entries of a table with this origin, unless they do not allow it. -/
abbrev Change := Origin → OrderedMap Toml → Option (OrderedMap Toml)

/-- Changes the table at the end of a path, making those tables on the way that are missing. -/
def within (made : Origin) (change : Change) : (path : List String) → Change
  | [], origin, entries => change origin entries
  | key :: path, _, entries =>
    match entries.get? key with
    | none =>
      (within made change path made .empty).map fun inner =>
        entries.insert key (.table made inner)
    | some (.table origin inner) => do
      guard (origin.admits made)
      return entries.insert key (.table origin (← within made change path origin inner))
    | some (.tables earlier last) => do
      return entries.insert key (.tables earlier (← within made change path .header last))
    | some _ => none

/-- Adds an entry under a new key. A dotted key adds to a table that dotted keys have
made, and to no other. -/
def addPair (key : Key) (value : Toml) : Change :=
  within .dotted (fun origin entries => do
    guard (key.parents.isEmpty || origin = .dotted)
    guard !entries.contains key.name
    return entries.insert key.name value) key.parents

/-- Adds entries one after the other. -/
def addPairs (pairs : List (Key × Toml)) (origin : Origin) (entries : OrderedMap Toml) :
    Option (OrderedMap Toml) :=
  pairs.foldlM (fun entries pair => addPair pair.1 pair.2 origin entries) entries

/-- A header, with the entries below it. -/
structure Section where
  key : Key
  /-- Whether the header starts one more table of a list. -/
  repeated : Bool
  pairs : List (Key × Toml)

namespace Section

/-- The table of a header that stands once, which may so far have been on the way
to other tables only. -/
def addTable (sect : Section) : Change := fun _ entries => do
  let start ← match entries.get? sect.key.name with
    | none => some .empty
    | some (.table .implied inner) => some inner
    | some _ => none
  return entries.insert sect.key.name (.table .header (← addPairs sect.pairs .header start))

/-- One more table of a header that may stand several times. -/
def addRepeated (sect : Section) : Change := fun _ entries => do
  let earlier ← match entries.get? sect.key.name with
    | none => some []
    | some (.tables earlier last) => some (earlier ++ [last])
    | some _ => none
  return entries.insert sect.key.name (.tables earlier (← addPairs sect.pairs .header .empty))

def add (sect : Section) : Change :=
  within .implied (if sect.repeated then sect.addRepeated else sect.addTable) sect.key.parents

end Section

/-- The document with the given entries before its first header, and the given sections. -/
def ofSections (pairs : List (Key × Toml)) (sections : List Section) :
    Option (OrderedMap Toml) := do
  sections.foldlM (fun entries sect => sect.add .header entries) (← addPairs pairs .header .empty)

mutual

/-- The value as records are read from it; a date is an object of one member that no record has. -/
def toJson : Toml → Json
  | .string s => .string s
  | .integer n => .number (.integer n)
  | .float x => .number (.double x)
  | .bool b => .bool b
  | .dateTime text => .ofEntries [("$datetime", .string text)]
  | .array items => .array (itemsToJson items)
  | .table _ ⟨entries⟩ => .ofEntries (entriesToJson entries)
  | .tables earlier ⟨last⟩ => .array (tablesToJson earlier ++ [.ofEntries (entriesToJson last)])

def itemsToJson : List Toml → List Json
  | [] => []
  | item :: rest => toJson item :: itemsToJson rest

def entriesToJson : List (String × Toml) → List (String × Json)
  | [] => []
  | (key, value) :: rest => (key, toJson value) :: entriesToJson rest

def tablesToJson : List (OrderedMap Toml) → List Json
  | [] => []
  | ⟨entries⟩ :: rest => .ofEntries (entriesToJson entries) :: tablesToJson rest

end

end Toml

end SubmissionAnnotation
