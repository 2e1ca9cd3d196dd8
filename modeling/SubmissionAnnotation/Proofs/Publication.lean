import SubmissionAnnotation.Json.SameData
import SubmissionAnnotation.Proofs.SchemaEdits

/-!
# Publishing actions in a schema

An edit succeeds if every entry on its way is an object or missing. It leaves objects
there, so it neither helps nor hinders an edit that comes after it. What an action writes
is therefore known in closed form: its definitions, and for each of its fields the entry
that `describedField` makes of what the schema said of it. Describing a field again
changes nothing, and fields are described independently of each other; so publishing an
action twice is publishing it once, and the order in which actions are published shows in
the order of the members only.
-/
namespace SubmissionAnnotation

open TranscriptDefinitions

namespace SchemaDocument

variable {last : SchemaDocument} {root after : OrderedMap Json} {field subKey : String}
  {property : Json} {fields others : List String}

def describedField (subKey : String) (property : Json) (entry : Option Json) : OrderedMap Json :=
  let own := sectionOr emptyFieldMembers entry
  own.insert propertiesKey
    (.object ((sectionOr .empty (own.get? propertiesKey)).insert subKey property))

/-- The entry of a field to which a property can be attached. -/
def Extendable (entry : Option Json) : Prop :=
  IsSection entry ∧ IsSection ((sectionOr emptyFieldMembers entry).get? propertiesKey)

@[simp] theorem describedField_describedField (subKey : String) (property : Json)
    (entry : Option Json) :
    describedField subKey property (some (.object (describedField subKey property entry))) =
      describedField subKey property entry := by
  simp [describedField, OrderedMap.insert_insert_self]

@[simp] theorem extendable_describedField (subKey : String) (property : Json)
    (entry : Option Json) :
    Extendable (some (.object (describedField subKey property entry))) := by
  simp [Extendable, describedField]

def describe (subKey : String) (property : Json) (properties : OrderedMap Json) (field : String) :
    OrderedMap Json :=
  properties.insert field (.object (describedField subKey property (properties.get? field)))

theorem get?_describe (subKey : String) (property : Json) (properties : OrderedMap Json)
    (field other : String) :
    (describe subKey property properties field).get? other =
      if other = field then some (.object (describedField subKey property (properties.get? other)))
      else properties.get? other := by
  rw [describe, OrderedMap.get?_insert]
  split
  next h => rw [h]
  next => rfl

theorem get?_foldl_describe (subKey : String) (property : Json) (fields : List String)
    (properties : OrderedMap Json) (field : String) :
    (fields.foldl (describe subKey property) properties).get? field =
      if field ∈ fields then
        some (.object (describedField subKey property (properties.get? field)))
      else properties.get? field := by
  induction fields generalizing properties with
  | nil => simp
  | cons first rest ih =>
    rw [List.foldl_cons, ih, get?_describe]
    by_cases hf : field = first <;> by_cases hr : field ∈ rest <;> simp [hf, hr]

theorem foldl_describe_of_described (fields : List String) {properties : OrderedMap Json}
    (h : ∀ field ∈ fields, ∃ entry,
      properties.get? field = some (.object (describedField subKey property entry))) :
    fields.foldl (describe subKey property) properties = properties := by
  induction fields with
  | nil => rfl
  | cons first rest ih =>
    obtain ⟨⟨entry, he⟩, hrest⟩ := List.forall_mem_cons.mp h
    have hfirst : describe subKey property properties first = properties := by
      unfold describe
      rw [he, describedField_describedField]
      exact OrderedMap.insert_of_get?_eq he
    rw [List.foldl_cons, hfirst]
    exact ih hrest

def propertiesOf (root : OrderedMap Json) : OrderedMap Json :=
  sectionOr .empty (root.get? propertiesKey)

/-- The document with a property attached to each of some fields. -/
def describeAll (subKey : String) (property : Json) :
    List String → OrderedMap Json → OrderedMap Json
  | [], root => root
  | field :: rest, root => root.insert propertiesKey
      (.object ((field :: rest).foldl (describe subKey property) (propertiesOf root)))

structure Describable (fields : List String) (root : OrderedMap Json) : Prop where
  properties : fields ≠ [] → IsSection (root.get? propertiesKey)
  entries : ∀ field ∈ fields, Extendable ((propertiesOf root).get? field)

theorem describable_append_iff :
    Describable (fields ++ others) root ↔ Describable fields root ∧ Describable others root := by
  constructor
  · intro h
    constructor
    · constructor
      · intro hf
        exact h.properties (List.append_ne_nil_of_left_ne_nil hf others)
      · exact fun field hf => h.entries field (List.mem_append_left others hf)
    · constructor
      · intro ho
        exact h.properties (List.append_ne_nil_of_right_ne_nil fields ho)
      · exact fun field hf => h.entries field (List.mem_append_right fields hf)
  · rintro ⟨hfields, hothers⟩
    constructor
    · intro h
      by_cases hf : fields = []
      · exact hothers.properties (by rwa [hf, List.nil_append] at h)
      · exact hfields.properties hf
    · intro field hf
      rcases List.mem_append.mp hf with hf | hf
      · exact hfields.entries field hf
      · exact hothers.entries field hf

@[simp] theorem propertiesOf_describeAll (subKey : String) (property : Json) (fields : List String)
    (root : OrderedMap Json) :
    propertiesOf (describeAll subKey property fields root) =
      fields.foldl (describe subKey property) (propertiesOf root) := by
  cases fields with
  | nil => rfl
  | cons field rest => rw [describeAll, propertiesOf, OrderedMap.get?_insert_self, sectionOr_object]

theorem describeAll_describeAll (subKey : String) (property : Json) (fields others : List String)
    (root : OrderedMap Json) :
    describeAll subKey property others (describeAll subKey property fields root) =
      describeAll subKey property (fields ++ others) root := by
  cases fields with
  | nil => rfl
  | cons field rest =>
    cases others with
    | nil => rw [List.append_nil, describeAll]
    | cons other more =>
      rw [describeAll, propertiesOf_describeAll, ← List.foldl_append, describeAll,
        OrderedMap.insert_insert_self, List.cons_append, describeAll]

theorem describable_describeAll_iff (h : Describable fields root) :
    Describable others (describeAll subKey property fields root) ↔ Describable others root := by
  have hsection : IsSection ((describeAll subKey property fields root).get? propertiesKey) ↔
      IsSection (root.get? propertiesKey) := by
    cases fields with
    | nil => rfl
    | cons field rest => simp [describeAll, h.properties (List.cons_ne_nil field rest)]
  have hentry (field : String) :
      Extendable ((propertiesOf (describeAll subKey property fields root)).get? field) ↔
        Extendable ((propertiesOf root).get? field) := by
    rw [propertiesOf_describeAll, get?_foldl_describe]
    split
    next hf => simp [h.entries field hf]
    next => rfl
  constructor
  · intro ho
    exact ⟨fun hne => hsection.mp (ho.properties hne),
      fun field hf => (hentry field).mp (ho.entries field hf)⟩
  · intro ho
    exact ⟨fun hne => hsection.mpr (ho.properties hne),
      fun field hf => (hentry field).mpr (ho.entries field hf)⟩

theorem describable_singleton_iff :
    Describable [field] root ↔
      IsSection (root.get? propertiesKey) ∧ Extendable ((propertiesOf root).get? field) := by
  constructor
  · intro h
    exact ⟨h.properties (List.cons_ne_nil field []), h.entries field List.mem_cons_self⟩
  · rintro ⟨hs, he⟩
    exact ⟨fun _ => hs, List.forall_mem_singleton.mpr he⟩

theorem attachFieldProperty_eq_ok_iff :
    attachFieldProperty ⟨root⟩ field subKey property = .ok last ↔
      Describable [field] root ∧ last.root = describeAll subKey property [field] root := by
  unfold attachFieldProperty attachEdit SchemaEdit.inSection
  rw [edited_eq_ok_iff, describable_singleton_iff]
  simp only [SchemaEdit.within_eq_ok_iff, SchemaEdit.put_eq_ok_iff]
  constructor
  · rintro ⟨hs, -, ⟨hf, -, ⟨hp, -, rfl, rfl⟩, rfl⟩, hlast⟩
    exact ⟨⟨hs, hf, hp⟩, hlast⟩
  · rintro ⟨⟨hs, hf, hp⟩, hlast⟩
    exact ⟨hs, _, ⟨hf, _, ⟨hp, _, rfl, rfl⟩, rfl⟩, hlast⟩

/-- A property can be attached to one field after the other if it can be to each on its own. -/
theorem attachAll_eq_ok_iff :
    fields.foldlM (fun d field => attachFieldProperty d field subKey property) ⟨root⟩ = .ok last ↔
      Describable fields root ∧ last.root = describeAll subKey property fields root := by
  induction fields generalizing root with
  | nil =>
    have hnil : Describable [] root := ⟨fun h => absurd rfl h, nofun⟩
    rw [List.foldlM_nil, describeAll]
    constructor
    · intro h
      cases h
      exact ⟨hnil, rfl⟩
    · rintro ⟨-, h⟩
      exact congrArg Except.ok (congrArg mk h.symm)
  | cons field rest ih =>
    rw [List.foldlM_cons, bind_eq_ok_iff, ← List.singleton_append, describable_append_iff]
    -- what the first field needs and leaves is known, and the rest needs of the new
    -- document what it needed of the old one
    constructor
    · rintro ⟨⟨next⟩, hfield, hrest⟩
      obtain ⟨hd, rfl⟩ := attachFieldProperty_eq_ok_iff.mp hfield
      obtain ⟨hr, hlast⟩ := ih.mp hrest
      exact ⟨⟨hd, (describable_describeAll_iff hd).mp hr⟩,
        hlast.trans (describeAll_describeAll subKey property [field] rest root)⟩
    · rintro ⟨⟨hd, hr⟩, hlast⟩
      refine ⟨⟨describeAll subKey property [field] root⟩,
        attachFieldProperty_eq_ok_iff.mpr ⟨hd, rfl⟩, ih.mpr ⟨?_, ?_⟩⟩
      · exact (describable_describeAll_iff hd).mpr hr
      · exact hlast.trans (describeAll_describeAll subKey property [field] rest root).symm

theorem describeAll_append_of_subset (h : ∀ field ∈ others, field ∈ fields) :
    describeAll subKey property (fields ++ others) root =
      describeAll subKey property fields root := by
  have hfold : others.foldl (describe subKey property)
      (fields.foldl (describe subKey property) (propertiesOf root)) =
      fields.foldl (describe subKey property) (propertiesOf root) := by
    apply foldl_describe_of_described
    intro field hf
    exact ⟨_, by rw [get?_foldl_describe, if_pos (h field hf)]⟩
  cases fields with
  | nil =>
    cases others with
    | nil => rfl
    | cons other more => cases h other List.mem_cons_self
  | cons field rest =>
    rw [List.cons_append, describeAll, describeAll, ← List.cons_append, List.foldl_append, hfold]

/-- The order in which fields are described shows in the order of the members only. -/
theorem sameData_describeAll (h : ∀ field, field ∈ fields ↔ field ∈ others) :
    Json.SameData (.object (describeAll subKey property fields root))
      (.object (describeAll subKey property others root)) := by
  cases fields with
  | nil =>
    cases others with
    | nil => exact .refl _
    | cons other more => cases (h other).mpr List.mem_cons_self
  | cons field rest =>
    cases others with
    | nil => cases (h field).mp List.mem_cons_self
    | cons other more =>
      apply Json.SameData.insert
      apply Json.SameData.of_get?_eq
      intro key
      rw [get?_foldl_describe, get?_foldl_describe]
      exact if_congr (h key) rfl rfl

def defineTranscripts (root : OrderedMap Json) : OrderedMap Json :=
  root.insert definitionsKey (.object
    (((sectionOr .empty (root.get? definitionsKey)).insert
      transcriptName transcriptDefinition).insert revisionName revisionDefinition))

theorem setDefinitions_eq_ok_iff :
    (∃ first, setDefinition ⟨root⟩ transcriptName transcriptDefinition = .ok first ∧
      setDefinition first revisionName revisionDefinition = .ok ⟨after⟩) ↔
      IsSection (root.get? definitionsKey) ∧ after = defineTranscripts root := by
  constructor
  · rintro ⟨⟨first⟩, hfirst, hsecond⟩
    obtain ⟨hs, rfl⟩ := setDefinition_eq_ok_iff.mp hfirst
    obtain ⟨-, rfl⟩ := setDefinition_eq_ok_iff.mp hsecond
    refine ⟨hs, ?_⟩
    rw [OrderedMap.get?_insert_self, sectionOr_object, OrderedMap.insert_insert_self,
      defineTranscripts]
  · rintro ⟨hs, rfl⟩
    refine ⟨_, setDefinition_eq_ok_iff.mpr ⟨hs, rfl⟩, setDefinition_eq_ok_iff.mpr ⟨?_, ?_⟩⟩
    · rw [OrderedMap.get?_insert_self]
      exact isSection_object _
    · rw [OrderedMap.get?_insert_self, sectionOr_object, OrderedMap.insert_insert_self,
        defineTranscripts]

/-- An action with these fields can be published in the document. -/
structure Fits (fields : List String) (root : OrderedMap Json) : Prop where
  definitions : IsSection (root.get? definitionsKey)
  describable : Describable fields root

/-- The document after an action with these fields was published. -/
def published (fields : List String) (root : OrderedMap Json) : OrderedMap Json :=
  describeAll TranscriptionAction.actionId (definitionRef transcriptName) fields
    (defineTranscripts root)

theorem get?_definitions_published (fields : List String) (root : OrderedMap Json) :
    (published fields root).get? definitionsKey = (defineTranscripts root).get? definitionsKey := by
  unfold published
  cases fields with
  | nil => rfl
  | cons field rest => exact OrderedMap.get?_insert_of_ne (by decide) _ _

@[simp] theorem get?_properties_defineTranscripts (root : OrderedMap Json) :
    (defineTranscripts root).get? propertiesKey = root.get? propertiesKey :=
  OrderedMap.get?_insert_of_ne (by decide) _ _

@[simp] theorem propertiesOf_defineTranscripts (root : OrderedMap Json) :
    propertiesOf (defineTranscripts root) = propertiesOf root := by
  rw [propertiesOf, get?_properties_defineTranscripts, propertiesOf]

theorem describable_defineTranscripts_iff :
    Describable fields (defineTranscripts root) ↔ Describable fields root := by
  constructor
  · rintro ⟨hs, he⟩
    rw [get?_properties_defineTranscripts] at hs
    rw [propertiesOf_defineTranscripts] at he
    exact ⟨hs, he⟩
  · rintro ⟨hs, he⟩
    rw [← get?_properties_defineTranscripts] at hs
    rw [← propertiesOf_defineTranscripts] at he
    exact ⟨hs, he⟩

/-- What was published before neither helps nor hinders an action. -/
theorem fits_published_iff (h : Fits fields root) :
    Fits others (published fields root) ↔ Fits others root := by
  have hdescribable : Describable others (published fields root) ↔ Describable others root :=
    (describable_describeAll_iff (describable_defineTranscripts_iff.mpr h.describable)).trans
      describable_defineTranscripts_iff
  have hdefinitions : IsSection ((published fields root).get? definitionsKey) := by
    rw [get?_definitions_published, defineTranscripts, OrderedMap.get?_insert_self]
    exact isSection_object _
  constructor
  · intro ho
    exact ⟨h.definitions, hdescribable.mp ho.describable⟩
  · intro ho
    exact ⟨hdefinitions, hdescribable.mpr ho.describable⟩

theorem defineTranscripts_published (fields : List String) (root : OrderedMap Json) :
    defineTranscripts (published fields root) = published fields root := by
  have hdefinitions := get?_definitions_published fields root
  rw [defineTranscripts, OrderedMap.get?_insert_self] at hdefinitions
  -- the second definition went under another key, so the first one is still there
  have htranscript (m : OrderedMap Json) :
      ((m.insert transcriptName transcriptDefinition).insert revisionName revisionDefinition).insert
        transcriptName transcriptDefinition =
      (m.insert transcriptName transcriptDefinition).insert revisionName revisionDefinition := by
    apply OrderedMap.insert_of_get?_eq
    rw [OrderedMap.get?_insert_of_ne (by decide), OrderedMap.get?_insert_self]
  rw [defineTranscripts, hdefinitions, sectionOr_object, htranscript, OrderedMap.insert_insert_self]
  exact OrderedMap.insert_of_get?_eq hdefinitions

/-- Publishing once more is publishing once, with the fields of both. -/
theorem published_published (others fields : List String) (root : OrderedMap Json) :
    published others (published fields root) = published (fields ++ others) root := by
  rw [published, defineTranscripts_published, published, describeAll_describeAll, published]

theorem published_append_of_subset (h : ∀ field ∈ others, field ∈ fields) :
    published (fields ++ others) root = published fields root :=
  describeAll_append_of_subset h

end SchemaDocument

open SchemaDocument

namespace TranscriptionAction

variable {a : TranscriptionAction} {schema out : Json} {fields : List String}
  {root : OrderedMap Json}

theorem modifySchema_eq_ok_iff_published :
    a.modifySchema schema = .ok out ↔
      ∃ root, schema = .object root ∧ Fits a.fields.items root ∧
        out = .object (published a.fields.items root) := by
  rw [modifySchema_eq_ok_iff]
  constructor
  · rintro ⟨⟨root⟩, hroot, first, hfirst, ⟨second⟩, hsecond, last, hlast, rfl⟩
    obtain ⟨hs, rfl⟩ := setDefinitions_eq_ok_iff.mp ⟨first, hfirst, hsecond⟩
    obtain ⟨hd, hlast⟩ := attachAll_eq_ok_iff.mp hlast
    refine ⟨root, ?_, ⟨hs, describable_defineTranscripts_iff.mp hd⟩, ?_⟩
    · cases schema <;> cases hroot
      rfl
    · exact congrArg Json.object hlast
  · rintro ⟨root, rfl, ⟨hs, hd⟩, rfl⟩
    obtain ⟨first, hfirst, hsecond⟩ := setDefinitions_eq_ok_iff.mpr ⟨hs, rfl⟩
    exact ⟨⟨root⟩, rfl, first, hfirst, _, hsecond, ⟨published a.fields.items root⟩,
      attachAll_eq_ok_iff.mpr ⟨describable_defineTranscripts_iff.mpr hd, rfl⟩, rfl⟩

def publishAll (actions : List TranscriptionAction) (schema : Json) : Except ActionError Json :=
  actions.foldlM (fun schema a => a.modifySchema schema) schema

def fieldsOf (actions : List TranscriptionAction) : List String :=
  actions.flatMap fun a => a.fields.items

theorem publishAll_published (h : Fits fields root) (actions : List TranscriptionAction) :
    publishAll actions (.object (published fields root)) = .ok out ↔
      (∀ a ∈ actions, Fits a.fields.items root) ∧
        out = .object (published (fields ++ fieldsOf actions) root) := by
  induction actions generalizing fields with
  | nil =>
    rw [fieldsOf, List.flatMap_nil, List.append_nil]
    constructor
    · intro hout
      cases hout
      exact ⟨nofun, rfl⟩
    · rintro ⟨-, rfl⟩
      rfl
  | cons a rest ih =>
    have hfields : fields ++ fieldsOf (a :: rest) =
        (fields ++ a.fields.items) ++ fieldsOf rest := by
      rw [fieldsOf, List.flatMap_cons, ← List.append_assoc, fieldsOf]
    -- the schema at this point is a publication again, with the fields of both
    have happend (ha : Fits a.fields.items root) : Fits (fields ++ a.fields.items) root :=
      ⟨h.definitions, describable_append_iff.mpr ⟨h.describable, ha.describable⟩⟩
    rw [publishAll, List.foldlM_cons, bind_eq_ok_iff, List.forall_mem_cons, hfields]
    constructor
    · rintro ⟨next, hnext, hrest⟩
      obtain ⟨_, hroot, ha, rfl⟩ := modifySchema_eq_ok_iff_published.mp hnext
      cases hroot
      rw [published_published] at hrest
      have ha := (fits_published_iff h).mp ha
      obtain ⟨hall, rfl⟩ := (ih (happend ha)).mp hrest
      exact ⟨⟨ha, hall⟩, rfl⟩
    · rintro ⟨⟨ha, hall⟩, rfl⟩
      refine ⟨_, modifySchema_eq_ok_iff_published.mpr
        ⟨_, rfl, (fits_published_iff h).mpr ha, rfl⟩, ?_⟩
      rw [published_published]
      exact (ih (happend ha)).mpr ⟨hall, rfl⟩

variable {b : TranscriptionAction}

theorem publishAll_pair_eq_ok_iff :
    publishAll [a, b] schema = .ok out ↔
      ∃ root, schema = .object root ∧ Fits a.fields.items root ∧ Fits b.fields.items root ∧
        out = .object (published (a.fields.items ++ b.fields.items) root) := by
  rw [publishAll, List.foldlM_cons, bind_eq_ok_iff]
  constructor
  · rintro ⟨next, hnext, hrest⟩
    obtain ⟨root, rfl, ha, rfl⟩ := modifySchema_eq_ok_iff_published.mp hnext
    obtain ⟨hb, rfl⟩ := (publishAll_published ha [b]).mp hrest
    refine ⟨root, rfl, ha, hb b List.mem_cons_self, ?_⟩
    rw [fieldsOf, List.flatMap_singleton]
  · rintro ⟨root, rfl, ha, hb, rfl⟩
    refine ⟨_, modifySchema_eq_ok_iff_published.mpr ⟨root, rfl, ha, rfl⟩,
      (publishAll_published ha [b]).mpr ⟨by simpa using hb, ?_⟩⟩
    rw [fieldsOf, List.flatMap_singleton]

theorem exists_publishAll_pair_iff :
    (∃ ab, publishAll [a, b] schema = .ok ab) ↔
      (∃ out, a.modifySchema schema = .ok out) ∧ ∃ out, b.modifySchema schema = .ok out := by
  constructor
  · rintro ⟨ab, hab⟩
    obtain ⟨root, rfl, ha, hb, -⟩ := publishAll_pair_eq_ok_iff.mp hab
    exact ⟨⟨_, modifySchema_eq_ok_iff_published.mpr ⟨root, rfl, ha, rfl⟩⟩,
      _, modifySchema_eq_ok_iff_published.mpr ⟨root, rfl, hb, rfl⟩⟩
  · rintro ⟨⟨_, ha⟩, _, hb⟩
    obtain ⟨root, rfl, ha, -⟩ := modifySchema_eq_ok_iff_published.mp ha
    obtain ⟨_, hroot, hb, -⟩ := modifySchema_eq_ok_iff_published.mp hb
    cases hroot
    exact ⟨_, publishAll_pair_eq_ok_iff.mpr ⟨root, rfl, ha, hb, rfl⟩⟩

/--
An action that was published can be published again any number of times, which changes nothing, not
even the order of members. Two actions can be published one after the other in either order if each
of them can be on its own, and the order shows in the order of members only.
-/
theorem publication_order_irrelevant (a b : TranscriptionAction) (schema : Json) :
    (∀ out, a.modifySchema schema = .ok out → ∀ n, publishAll (List.replicate n a) out = .ok out) ∧
    ((∃ ab, publishAll [a, b] schema = .ok ab) ↔ ∃ ba, publishAll [b, a] schema = .ok ba) ∧
    ((∃ ab, publishAll [a, b] schema = .ok ab) ↔
      (∃ out, a.modifySchema schema = .ok out) ∧ ∃ out, b.modifySchema schema = .ok out) ∧
    ∀ ab ba, publishAll [a, b] schema = .ok ab → publishAll [b, a] schema = .ok ba →
      ab.SameData ba := by
  have either :
      (∃ ab, publishAll [a, b] schema = .ok ab) ↔ ∃ ba, publishAll [b, a] schema = .ok ba :=
    exists_publishAll_pair_iff.trans (and_comm.trans exists_publishAll_pair_iff.symm)
  refine ⟨?_, either, exists_publishAll_pair_iff, ?_⟩
  · intro out hout n
    obtain ⟨root, rfl, ha, rfl⟩ := modifySchema_eq_ok_iff_published.mp hout
    have hsame : ∀ c ∈ List.replicate n a, c = a := fun c hc => List.eq_of_mem_replicate hc
    have hsubset : ∀ field ∈ fieldsOf (List.replicate n a), field ∈ a.fields.items := by
      intro field hf
      obtain ⟨c, hc, hfield⟩ := List.mem_flatMap.mp hf
      rwa [hsame c hc] at hfield
    refine (publishAll_published ha _).mpr ⟨fun c hc => hsame c hc ▸ ha, ?_⟩
    rw [published_append_of_subset hsubset]
  · intro ab ba hab hba
    obtain ⟨root, rfl, -, -, rfl⟩ := publishAll_pair_eq_ok_iff.mp hab
    obtain ⟨_, hroot, -, -, rfl⟩ := publishAll_pair_eq_ok_iff.mp hba
    cases hroot
    apply sameData_describeAll
    intro field
    rw [List.mem_append, List.mem_append, or_comm]

/-- Two actions share a field that the schema knows, and one of them brings a new field. -/
theorem publication_order_irrelevant_shared_field :
    let a : TranscriptionAction := ⟨"details", "en", .ofList ["clip"], .ofList ["acme"]⟩
    let b : TranscriptionAction := ⟨"details", "de", .ofList ["talk", "clip"], .ofList []⟩
    let schema := Json.object ⟨[("properties", .object ⟨[("clip", .object .empty)]⟩)]⟩
    ∃ out ab ba, a.modifySchema schema = .ok out ∧ publishAll (List.replicate 2 a) out = .ok out ∧
      publishAll [a, b] schema = .ok ab ∧ publishAll [b, a] schema = .ok ba ∧ ab.SameData ba := by
  intro a b schema
  obtain ⟨again, either, -, same⟩ := publication_order_irrelevant a b schema
  have one : ∃ out, a.modifySchema schema = .ok out := ⟨_, rfl⟩
  have two : ∃ ab, publishAll [a, b] schema = .ok ab := ⟨_, rfl⟩
  obtain ⟨out, hout⟩ := one
  obtain ⟨ab, hab⟩ := two
  obtain ⟨ba, hba⟩ := either.mp ⟨ab, hab⟩
  exact ⟨out, ab, ba, hout, again out hout 2, hab, hba, same ab ba hab hba⟩

end TranscriptionAction

end SubmissionAnnotation
