import SubmissionAnnotation.Codec.Record

/-!
# Capability listings

What an action tells exports and user interfaces about itself: the engines that can fulfil its
requests, and the columns that it adds.
-/
namespace SubmissionAnnotation

structure EngineDescriptor where
  details : Option String
  description : Option String
  deriving DecidableEq, Repr

def EngineDescriptor.record : Record EngineDescriptor where
  name := "EngineDescriptor"
  blank := ⟨none, none⟩
  fields := [
    .optional "details" .string EngineDescriptor.details fun s d => { d with details := s },
    .optional "description" .string EngineDescriptor.description
      fun s d => { d with description := s }]

structure Engine where
  name : String
  descriptor : EngineDescriptor
  deriving DecidableEq, Repr

namespace Engine

def withDetails (name details : String) : Engine :=
  ⟨name, some details, none⟩

def withDescription (name description : String) : Engine :=
  ⟨name, none, some description⟩

def record : Record Engine where
  name := "Engine"
  blank := ⟨"", none, none⟩
  fields := [
    .needed "name" .string name fun s e => { e with name := s },
    .needed "descriptor" EngineDescriptor.record.codec descriptor
      fun d e => { e with descriptor := d }]

end Engine

/-- How an added column is filled. -/
structure AdditionalFieldSettings where
  mode : String
  engine : String
  deriving DecidableEq, Repr

def AdditionalFieldSettings.record : Record AdditionalFieldSettings where
  name := "AdditionalFieldSettings"
  blank := ⟨"", ""⟩
  fields := [
    .needed "mode" .string AdditionalFieldSettings.mode fun s x => { x with mode := s },
    .needed "engine" .string AdditionalFieldSettings.engine fun s x => { x with engine := s }]

/-- A column that an action adds to exports. -/
structure AdditionalField where
  type : String
  name : String
  label : String
  path : List String
  source : String
  settings : AdditionalFieldSettings
  deriving DecidableEq, Repr

namespace AdditionalField

def record : Record AdditionalField where
  name := "AdditionalField"
  blank := ⟨"", "", "", [], "", "", ""⟩
  fields := [
    .needed "type" .string type fun s x => { x with type := s },
    .needed "name" .string name fun s x => { x with name := s },
    .needed "label" .string label fun s x => { x with label := s },
    .needed "path" (.list .string) path fun s x => { x with path := s },
    .needed "source" .string source fun s x => { x with source := s },
    .needed "settings" AdditionalFieldSettings.record.codec settings
      fun s x => { x with settings := s }]

end AdditionalField

end SubmissionAnnotation
