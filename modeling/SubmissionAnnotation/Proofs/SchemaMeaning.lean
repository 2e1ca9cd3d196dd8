import SubmissionAnnotation.Transcript
import SubmissionAnnotation.Transcript.Definitions

/-!
# What a schema says of a value

The meaning of the keywords that the definitions of transcripts are written with, as a
relation between a schema and the values that conform to it. A keyword is a condition on
values of one kind and says nothing of others; `format` and `$comment` are notes and say
nothing at all. A reference is looked up in the document that holds the schema. For each
schema of the definitions one lemma says which values it admits, and nothing else has to
look at keywords.
-/
namespace SubmissionAnnotation

/-- An entry of a schema, as a condition on values. -/
inductive SchemaKeyword where
  | type (name : String)
  | properties (declared : OrderedMap Json)
  | additionalProperties (schema : Json)
  | required (names : List Json)
  | minLength (n : Int)
  | maxLength (n : Int)
  | items (schema : Json)
  | reference (pointer : String)
  | note

namespace SchemaKeyword

/-- An entry of any other form is a note. -/
def ofEntry : String × Json → SchemaKeyword
  | ("type", .string name) => type name
  | ("properties", .object declared) => properties declared
  | ("additionalProperties", schema) => additionalProperties schema
  | ("required", .array names) => required names
  | ("minLength", .number (.integer n)) => minLength n
  | ("maxLength", .number (.integer n)) => maxLength n
  | ("items", schema) => items schema
  | ("$ref", .string pointer) => reference pointer
  | _ => note

end SchemaKeyword

namespace SchemaDocument

def declared (keywords : OrderedMap Json) : OrderedMap Json :=
  match keywords.get? propertiesKey with
  | some (.object properties) => properties
  | _ => .empty

mutual

/-- A value conforms to a schema of the document `d`. Nothing conforms to the schema `false`. -/
inductive Conforms (d : SchemaDocument) : (schema value : Json) → Prop
  | anything (value : Json) : Conforms d (.bool true) value
  | keywords {keywords : OrderedMap Json} {value : Json}
    (all : ∀ entry ∈ keywords.entries, Meets d (declared keywords) (.ofEntry entry) value) :
    Conforms d (.object keywords) value

/-- A value meets one keyword of a schema of `d` that declares these properties. -/
inductive Meets (d : SchemaDocument) :
    (declared : OrderedMap Json) → SchemaKeyword → (value : Json) → Prop
  | type {declared : OrderedMap Json} (value : Json) : Meets d declared (.type value.kind) value
  | properties {declared own : OrderedMap Json} {value : Json}
    (each : ∀ members, value = .object members → ∀ entry ∈ members.entries, ∀ schema,
      own.get? entry.1 = some schema → Conforms d schema entry.2) :
    Meets d declared (.properties own) value
  | additionalProperties {declared : OrderedMap Json} {schema value : Json}
    (each : ∀ members, value = .object members → ∀ entry ∈ members.entries,
      declared.get? entry.1 = none → Conforms d schema entry.2) :
    Meets d declared (.additionalProperties schema) value
  | required {declared : OrderedMap Json} {names : List Json} {value : Json}
    (each : ∀ members, value = .object members → ∀ name, .string name ∈ names →
      name ∈ members.keys) :
    Meets d declared (.required names) value
  | minLength {declared : OrderedMap Json} {n : Int} {value : Json}
    (bound : ∀ text, value = .string text → n ≤ text.length) :
    Meets d declared (.minLength n) value
  | maxLength {declared : OrderedMap Json} {n : Int} {value : Json}
    (bound : ∀ text, value = .string text → text.length ≤ n) :
    Meets d declared (.maxLength n) value
  | items {declared : OrderedMap Json} {schema value : Json}
    (each : ∀ values, value = .array values → ∀ item ∈ values, Conforms d schema item) :
    Meets d declared (.items schema) value
  | reference {declared : OrderedMap Json} {name : String} {definition value : Json}
    (found : d.definition? name = some definition) (conforms : Conforms d definition value)
    {pointer : String} (leads : pointer = "#/definitions/" ++ name) :
    Meets d declared (.reference pointer) value
  | note {declared : OrderedMap Json} (value : Json) : Meets d declared .note value

end

section Keywords

variable {d : SchemaDocument} {properties own : OrderedMap Json} {value schema : Json}

theorem conforms_object_iff {keywords : OrderedMap Json} :
    d.Conforms (.object keywords) value ↔
      ∀ entry ∈ keywords.entries, d.Meets (declared keywords) (.ofEntry entry) value :=
  ⟨fun | .keywords all => all, .keywords⟩

@[simp] theorem not_conforms_false : ¬ d.Conforms (.bool false) value := nofun

@[simp] theorem meets_type_iff {name : String} :
    d.Meets properties (.type name) value ↔ value.kind = name :=
  ⟨fun | .type _ => rfl, fun h => h ▸ .type value⟩

@[simp] theorem meets_properties_iff :
    d.Meets properties (.properties own) value ↔
      ∀ members, value = .object members → ∀ entry ∈ members.entries, ∀ schema,
        own.get? entry.1 = some schema → d.Conforms schema entry.2 :=
  ⟨fun | .properties each => each, .properties⟩

@[simp] theorem meets_additionalProperties_iff :
    d.Meets properties (.additionalProperties schema) value ↔
      ∀ members, value = .object members → ∀ entry ∈ members.entries,
        properties.get? entry.1 = none → d.Conforms schema entry.2 :=
  ⟨fun | .additionalProperties each => each, .additionalProperties⟩

@[simp] theorem meets_required_iff {names : List Json} :
    d.Meets properties (.required names) value ↔
      ∀ members, value = .object members → ∀ name, .string name ∈ names → name ∈ members.keys :=
  ⟨fun | .required each => each, .required⟩

@[simp] theorem meets_minLength_iff {n : Int} :
    d.Meets properties (.minLength n) value ↔ ∀ text, value = .string text → n ≤ text.length :=
  ⟨fun | .minLength bound => bound, .minLength⟩

@[simp] theorem meets_maxLength_iff {n : Int} :
    d.Meets properties (.maxLength n) value ↔ ∀ text, value = .string text → text.length ≤ n :=
  ⟨fun | .maxLength bound => bound, .maxLength⟩

@[simp] theorem meets_items_iff :
    d.Meets properties (.items schema) value ↔
      ∀ values, value = .array values → ∀ item ∈ values, d.Conforms schema item :=
  ⟨fun | .items each => each, .items⟩

@[simp] theorem meets_reference_iff {name : String} :
    d.Meets properties (.reference ("#/definitions/" ++ name)) value ↔
      ∃ definition, d.definition? name = some definition ∧ d.Conforms definition value := by
  constructor
  · rintro (_ | _ | _ | _ | _ | _ | _ | ⟨found, conforms, leads⟩ | _)
    rw [String.append_right_inj] at leads
    exact ⟨_, leads ▸ found, conforms⟩
  · rintro ⟨definition, found, conforms⟩
    exact .reference found conforms rfl

@[simp] theorem meets_note : d.Meets properties .note value :=
  .note value

end Keywords

end SchemaDocument

namespace TranscriptDefinitions

open SchemaDocument

variable {d : SchemaDocument} {value : Json}

theorem kind_eq_string_iff : value.kind = "string" ↔ ∃ text, value = .string text := by
  cases value <;> simp [Json.kind]

theorem kind_eq_array_iff : value.kind = "array" ↔ ∃ items, value = .array items := by
  cases value <;> simp [Json.kind]

theorem kind_eq_object_iff : value.kind = "object" ↔ ∃ members, value = .object members := by
  cases value <;> simp [Json.kind]

theorem conforms_definitionRef_iff {name : String} :
    d.Conforms (definitionRef name) value ↔
      ∃ definition, d.definition? name = some definition ∧ d.Conforms definition value := by
  simp [definitionRef, Json.ofEntries, conforms_object_iff, SchemaKeyword.ofEntry]

theorem conforms_textProperty_iff :
    d.Conforms textProperty value ↔ ∃ text, value = .string text := by
  simp [textProperty, Json.ofEntries, conforms_object_iff, SchemaKeyword.ofEntry,
    kind_eq_string_iff]

/-- The format of a date is not checked. -/
theorem conforms_dateTimeProperty_iff :
    d.Conforms dateTimeProperty value ↔ ∃ text, value = .string text := by
  simp [dateTimeProperty, Json.ofEntries, conforms_object_iff, SchemaKeyword.ofEntry,
    kind_eq_string_iff]

theorem conforms_hashProperty_iff :
    d.Conforms hashProperty value ↔
      ∃ text : String, value = .string text ∧ text.length = hashLength := by
  simp only [hashProperty, Json.ofEntries, conforms_object_iff, List.forall_mem_cons,
    SchemaKeyword.ofEntry, Json.ofNat, meets_type_iff, meets_minLength_iff, meets_maxLength_iff,
    kind_eq_string_iff]
  constructor
  · rintro ⟨⟨text, rfl⟩, hmin, hmax, -⟩
    have hmin := hmin text rfl
    have hmax := hmax text rfl
    exact ⟨text, rfl, by simp only [hashLength]; omega⟩
  · rintro ⟨text, rfl, hlength⟩
    simp [hlength, hashLength]

theorem conforms_revisions_iff :
    d.Conforms
        (.ofEntries [("type", .string "array"), ("items", definitionRef revisionName)]) value ↔
      ∃ items, value = .array items ∧
        ∀ item ∈ items, d.Conforms (definitionRef revisionName) item := by
  simp only [Json.ofEntries, conforms_object_iff, List.forall_mem_cons, SchemaKeyword.ofEntry,
    meets_type_iff, meets_items_iff, kind_eq_array_iff]
  constructor
  · rintro ⟨⟨items, rfl⟩, each, -⟩
    exact ⟨items, rfl, each items rfl⟩
  · rintro ⟨items, rfl, each⟩
    simpa using each

theorem conforms_closedObject_iff {properties : List (String × Json)} :
    d.Conforms (closedObject properties) value ↔
      ∃ members, value = .object members ∧ "value" ∈ members.keys ∧
        ∀ entry ∈ members.entries, ∃ schema,
          OrderedMap.find entry.1 properties = some schema ∧ d.Conforms schema entry.2 := by
  have hdeclared : declared ⟨[("type", .string "object"), ("properties", .ofEntries properties),
      ("additionalProperties", .bool false), ("required", .ofStrings ["value"])]⟩ =
      ⟨properties⟩ := rfl
  simp only [closedObject, Json.ofEntries, conforms_object_iff, List.forall_mem_cons,
    SchemaKeyword.ofEntry, Json.ofStrings] at hdeclared ⊢
  rw [hdeclared]
  simp only [meets_type_iff, meets_properties_iff, meets_additionalProperties_iff,
    meets_required_iff, kind_eq_object_iff, OrderedMap.get?]
  constructor
  · rintro ⟨⟨members, rfl⟩, known, others, required, -⟩
    refine ⟨members, rfl, required members rfl "value" (by simp), fun entry he => ?_⟩
    cases hs : OrderedMap.find entry.1 properties with
    | none => exact absurd (others members rfl entry he hs) not_conforms_false
    | some schema => exact ⟨schema, rfl, known members rfl entry he schema hs⟩
  · rintro ⟨members, rfl, hvalue, each⟩
    refine ⟨⟨members, rfl⟩, ?_, ?_, ?_, nofun⟩
    · rintro _ ⟨⟩ entry he schema hs
      obtain ⟨found, hf, conforms⟩ := each entry he
      obtain rfl : found = schema := Option.some.inj (hf.symm.trans hs)
      exact conforms
    · rintro _ ⟨⟩ entry he hn
      obtain ⟨found, hf, -⟩ := each entry he
      cases hf.symm.trans hn
    · rintro _ ⟨⟩ name hname
      obtain rfl : name = "value" := by simpa using hname
      exact hvalue

end TranscriptDefinitions

end SubmissionAnnotation
