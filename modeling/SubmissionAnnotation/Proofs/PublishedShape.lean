import SubmissionAnnotation.Proofs.Publication

/-!
# What publishing asks of a schema and what it changes

An action can be published in a schema exactly if every object on the way to what it writes
is there or missing; everything else in the place of such an object is refused as a schema
that is not valid. What it writes are two definitions, and for each of its fields a property
under the `properties` of the field. On each of these levels nothing but the keys that are
written changes, and the keys that were there keep their places.
-/
namespace SubmissionAnnotation

open TranscriptDefinitions

namespace SchemaEdit

variable {edit : SchemaEdit} {key : String} {fresh : OrderedMap Json} {refuse : Json → ActionError}

def FailsOnShape (edit : SchemaEdit) : Prop :=
  ∀ members e, (edit members).1 = .error e → ∃ reason, e = .invalidSchema reason

theorem failsOnShape_put (key : String) (value : Json) : FailsOnShape (put key value) :=
  nofun

theorem FailsOnShape.within (h : FailsOnShape edit)
    (refused : ∀ v, ∃ reason, refuse v = .invalidSchema reason) :
    FailsOnShape (within key fresh refuse edit) := by
  intro members e he
  by_cases hs : SchemaDocument.IsSection (members.get? key)
  · rw [within_of_isSection hs] at he
    exact h _ e he
  · obtain ⟨v, hv⟩ := within_of_not_isSection hs
    rw [hv] at he
    cases he
    exact refused v

theorem FailsOnShape.inSection (h : FailsOnShape edit) (key : String) :
    FailsOnShape (inSection key edit) :=
  h.within fun _ => ⟨_, rfl⟩

end SchemaEdit

namespace SchemaDocument

variable {d : SchemaDocument} {edit : SchemaEdit} {e : ActionError} {v : Json}
  {name field subKey : String} {definition property : Json} {entry : Option Json}
  {keys fields : List String} {root before properties : OrderedMap Json}

theorem invalidSchema_of_edited (h : edit.FailsOnShape) (failed : d.edited edit = .error e) :
    ∃ reason, e = .invalidSchema reason := by
  rw [edited_eq, map_eq_error_iff] at failed
  exact h _ _ failed

theorem invalidSchema_of_setDefinition (h : d.setDefinition name definition = .error e) :
    ∃ reason, e = .invalidSchema reason :=
  invalidSchema_of_edited ((SchemaEdit.failsOnShape_put name definition).inSection definitionsKey) h

theorem invalidSchema_of_attachFieldProperty
    (h : d.attachFieldProperty field subKey property = .error e) :
    ∃ reason, e = .invalidSchema reason := by
  have own := (SchemaEdit.failsOnShape_put subKey property).inSection propertiesKey
  exact invalidSchema_of_edited ((own.within fun _ => ⟨_, rfl⟩).inSection propertiesKey) h

theorem invalidSchema_of_ofJson (h : ofJson v = .error e) :
    ∃ reason, e = .invalidSchema reason := by
  cases v <;> cases h <;> exact ⟨_, rfl⟩

theorem extendable_iff :
    Extendable entry ↔ IsSection entry ∧
      ∀ own, entry = some (.object own) → IsSection (own.get? propertiesKey) := by
  constructor
  · rintro ⟨hs, ho⟩
    refine ⟨hs, ?_⟩
    rintro own rfl
    exact ho
  · rintro ⟨hs, ho⟩
    refine ⟨hs, ?_⟩
    rcases hs with rfl | ⟨own, rfl⟩
    · exact isSection_object .empty
    · exact ho own rfl

theorem fits_iff :
    Fits fields root ↔ IsSection (root.get? definitionsKey) ∧
      (fields ≠ [] → IsSection (root.get? propertiesKey)) ∧
      ∀ field ∈ fields, IsSection ((propertiesOf root).get? field) ∧
        ∀ own, (propertiesOf root).get? field = some (.object own) →
          IsSection (own.get? propertiesKey) := by
  simp only [← extendable_iff]
  constructor
  · rintro ⟨hd, hs, he⟩
    exact ⟨hd, hs, he⟩
  · rintro ⟨hd, hs, he⟩
    exact ⟨hd, hs, he⟩

/-- What the definition of a field becomes when a property is attached to the field. A field
without a definition gets that of an object with no other property. -/
structure Described (subKey : String) (property : Json) (entry : Option Json)
    (own : OrderedMap Json) : Prop where
  kept : (sectionOr emptyFieldMembers entry).ChangedOnlyAt [propertiesKey] own
  attached : ∃ attached, own.get? propertiesKey = some (.object attached) ∧
    (sectionOr .empty ((sectionOr emptyFieldMembers entry).get? propertiesKey)).ChangedOnlyAt
      [subKey] attached ∧
    attached.get? subKey = some property
  made : entry = none → own = ⟨[("type", .string "object"),
    (propertiesKey, .object ⟨[(subKey, property)]⟩), ("additionalProperties", .bool false)]⟩

theorem described_describedField (subKey : String) (property : Json) (entry : Option Json) :
    Described subKey property entry (describedField subKey property entry) where
  kept := OrderedMap.changedOnlyAt_insert _ _ _
  attached := ⟨_, OrderedMap.get?_insert_self _ _ _, OrderedMap.changedOnlyAt_insert _ _ _,
    OrderedMap.get?_insert_self _ _ _⟩
  made := by
    rintro rfl
    rfl

theorem changedOnlyAt_foldl_describe (h : before.ChangedOnlyAt keys properties)
    (listed : ∀ field ∈ fields, field ∈ keys) :
    before.ChangedOnlyAt keys (fields.foldl (describe subKey property) properties) := by
  induction fields generalizing properties with
  | nil => exact h
  | cons first rest ih =>
    obtain ⟨hfirst, hrest⟩ := List.forall_mem_cons.mp listed
    exact ih (h.insert hfirst _) hrest

/-- What a document becomes when a property is attached to each of some fields and both
definitions of transcripts are written. -/
structure Publication (fields : List String) (subKey : String) (property : Json)
    (before after : OrderedMap Json) : Prop where
  kept : before.ChangedOnlyAt [definitionsKey, propertiesKey] after
  definitions : ∃ definitions, after.get? definitionsKey = some (.object definitions) ∧
    (sectionOr .empty (before.get? definitionsKey)).ChangedOnlyAt [transcriptName, revisionName]
      definitions ∧
    definitions.get? transcriptName = some transcriptDefinition ∧
    definitions.get? revisionName = some revisionDefinition
  undescribed : fields = [] → after.get? propertiesKey = before.get? propertiesKey
  described : fields ≠ [] → ∃ properties, after.get? propertiesKey = some (.object properties) ∧
    (propertiesOf before).ChangedOnlyAt fields properties ∧
    ∀ field ∈ fields, ∃ own, properties.get? field = some (.object own) ∧
      Described subKey property ((propertiesOf before).get? field) own

theorem changedOnlyAt_describeAll (h : before.ChangedOnlyAt keys root)
    (listed : propertiesKey ∈ keys) :
    before.ChangedOnlyAt keys (describeAll subKey property fields root) := by
  cases fields with
  | nil => exact h
  | cons field rest => exact h.insert listed _

theorem publication_published (fields : List String) (root : OrderedMap Json) :
    Publication fields TranscriptionAction.actionId (definitionRef transcriptName) root
      (published fields root) where
  kept := changedOnlyAt_describeAll
    ((OrderedMap.ChangedOnlyAt.refl _ root).insert List.mem_cons_self _) (by decide)
  definitions := by
    refine ⟨_, (get?_definitions_published fields root).trans (OrderedMap.get?_insert_self _ _ _),
      ?_, ?_, OrderedMap.get?_insert_self _ _ _⟩
    · exact ((OrderedMap.ChangedOnlyAt.refl _ _).insert (by decide) _).insert (by decide) _
    · rw [OrderedMap.get?_insert_of_ne (by decide), OrderedMap.get?_insert_self]
  undescribed := by
    rintro rfl
    exact get?_properties_defineTranscripts root
  described := by
    intro hfields
    obtain ⟨first, rest, rfl⟩ := List.exists_cons_of_ne_nil hfields
    refine ⟨_, OrderedMap.get?_insert_self _ _ _, ?_, ?_⟩
    · rw [propertiesOf_defineTranscripts]
      exact changedOnlyAt_foldl_describe (.refl _ _) fun _ hf => hf
    · intro field hf
      rw [propertiesOf_defineTranscripts, get?_foldl_describe, if_pos hf]
      exact ⟨_, rfl, described_describedField _ _ _⟩

end SchemaDocument

open SchemaDocument

namespace TranscriptionAction

variable {a : TranscriptionAction} {schema : Json} {e : ActionError}

theorem invalidSchema_of_modifySchema (h : a.modifySchema schema = .error e) :
    ∃ reason, e = .invalidSchema reason := by
  unfold modifySchema at h
  rcases bind_eq_error_iff.mp h with h | ⟨start, -, h⟩
  · exact invalidSchema_of_ofJson h
  rcases bind_eq_error_iff.mp h with h | ⟨first, -, h⟩
  · exact invalidSchema_of_setDefinition h
  rcases bind_eq_error_iff.mp h with h | ⟨second, -, h⟩
  · exact invalidSchema_of_setDefinition h
  rcases bind_eq_error_iff.mp h with h | ⟨last, -, h⟩
  · exact error_of_foldlM (fun _ _ _ h => invalidSchema_of_attachFieldProperty h) h
  · cases h

/-- A schema takes an action in exactly if it is well shaped: it is an object, its
definitions are an object or missing, and, if the action has fields, so are its properties,
what these hold for each of the fields, and the properties of that. All other schemas are
refused as not valid. What was published stands in the schema, and nothing else has changed:
on every level all other entries are as they were, and the keys keep their order. -/
theorem publication_shape_exact (a : TranscriptionAction) (schema : Json) :
    let fields := a.fields.items
    ((∃ out, a.modifySchema schema = .ok out) ↔
      ∃ root, schema = .object root ∧ IsSection (root.get? "definitions") ∧
        (fields ≠ [] → IsSection (root.get? "properties")) ∧
        ∀ field ∈ fields, IsSection ((propertiesOf root).get? field) ∧
          ∀ own, (propertiesOf root).get? field = some (.object own) →
            IsSection (own.get? "properties")) ∧
    (∀ e, a.modifySchema schema = .error e → ∃ reason, e = .invalidSchema reason) ∧
    ∀ out, a.modifySchema schema = .ok out → ∃ before after,
      schema = .object before ∧ out = .object after ∧
        Publication fields "transcript" (.object ⟨[("$ref", .string "#/definitions/transcript")]⟩)
          before after := by
  intro fields
  refine ⟨?_, fun e h => invalidSchema_of_modifySchema h, ?_⟩
  · constructor
    · rintro ⟨out, hout⟩
      obtain ⟨root, rfl, fits, -⟩ := modifySchema_eq_ok_iff_published.mp hout
      exact ⟨root, rfl, fits_iff.mp fits⟩
    · rintro ⟨root, rfl, wellShaped⟩
      exact ⟨_, modifySchema_eq_ok_iff_published.mpr ⟨root, rfl, fits_iff.mpr wellShaped, rfl⟩⟩
  · intro out hout
    obtain ⟨root, rfl, -, rfl⟩ := modifySchema_eq_ok_iff_published.mp hout
    exact ⟨root, _, rfl, rfl, publication_published fields root⟩

/-- A schema with one of the two fields of an action, and one with a definition in the place
of the definitions. -/
theorem publication_shape_exact_new_field :
    let a : TranscriptionAction := ⟨"details", "en", .ofList ["clip", "talk"], .ofList ["acme"]⟩
    let broken : Json := .object ⟨[("definitions", .string "transcript")]⟩
    let root : OrderedMap Json := ⟨[("properties", .object ⟨[("clip", .object .empty)]⟩)]⟩
    (∃ reason, a.modifySchema broken = .error (.invalidSchema reason)) ∧
    ∃ after properties, a.modifySchema (.object root) = .ok (.object after) ∧
      after.get? "properties" = some (.object properties) ∧ ["clip"] <+: properties.keys ∧
      properties.get? "talk" = some (.object ⟨[("type", .string "object"),
        ("properties", .object ⟨[("transcript",
          .object ⟨[("$ref", .string "#/definitions/transcript")]⟩)]⟩),
        ("additionalProperties", .bool false)]⟩) := by
  intro a broken root
  have fails : ∃ reason, a.modifySchema broken = .error (.invalidSchema reason) := by
    obtain ⟨wellShaped, refused, -⟩ := publication_shape_exact a broken
    cases h : a.modifySchema broken with
    | ok out =>
      obtain ⟨_, hroot, definitions, -⟩ := wellShaped.mp ⟨out, h⟩
      obtain rfl := Json.object.inj hroot
      rcases definitions with missing | ⟨_, present⟩
      · cases missing
      · cases present
    | error e =>
      obtain ⟨reason, rfl⟩ := refused e h
      exact ⟨reason, rfl⟩
  obtain ⟨succeeds, -, shape⟩ := publication_shape_exact a (.object root)
  have clip : (propertiesOf root).get? "clip" = some (.object .empty) := rfl
  have talk : (propertiesOf root).get? "talk" = none := rfl
  have entries : ∀ field ∈ a.fields.items, IsSection ((propertiesOf root).get? field) ∧
      ∀ own, (propertiesOf root).get? field = some (.object own) →
        IsSection (own.get? "properties") := by
    refine List.forall_mem_cons.mpr
      ⟨⟨Or.inr ⟨_, clip⟩, ?_⟩, List.forall_mem_singleton.mpr ⟨Or.inl talk, ?_⟩⟩
    · rintro own hown
      cases clip.symm.trans hown
      exact Or.inl rfl
    · rintro own hown
      cases talk.symm.trans hown
  obtain ⟨out, hout⟩ := succeeds.mpr
    ⟨root, rfl, Or.inl rfl, fun _ => isSection_object _, entries⟩
  obtain ⟨_, after, hroot, rfl, published⟩ := shape out hout
  cases hroot
  obtain ⟨properties, hproperties, changed, described⟩ := published.described (by decide)
  obtain ⟨own, hown, new⟩ := described "talk" (by decide)
  refine ⟨fails, after, properties, hout, hproperties, changed.keys_prefix, ?_⟩
  rw [hown, new.made rfl]
  rfl

end TranscriptionAction

end SubmissionAnnotation
