import SubmissionAnnotation.Transcription
import SubmissionAnnotation.Proofs.Reading

/-!
# What schema edits leave

An edit of the object at a key reaches that object, which may be new, and nothing beside
it, or it is refused and reaches nothing. So a definition that was written stands until
it is written again, and what is attached to fields leaves the definitions alone. In a
schema that an action published both definitions of transcripts therefore stand as they
were written, whatever the schema held before and however many fields there are.
-/
namespace SubmissionAnnotation

open TranscriptDefinitions

namespace SchemaDocument

/-- An entry that is an object, or in whose place one can be made. -/
def IsSection (entry : Option Json) : Prop :=
  entry = none ∨ ∃ members, entry = some (.object members)

/-- The object that an entry is, or `fresh` in its place. -/
def sectionOr (fresh : OrderedMap Json) : Option Json → OrderedMap Json
  | some (.object members) => members
  | _ => fresh

@[simp] theorem isSection_object (members : OrderedMap Json) :
    IsSection (some (.object members)) :=
  Or.inr ⟨members, rfl⟩

@[simp] theorem sectionOr_object (fresh members : OrderedMap Json) :
    sectionOr fresh (some (.object members)) = members := rfl

theorem bind_member?_of_isSection {entry : Option Json} (h : IsSection entry) (key : String) :
    entry.bind (fun v => v.member? key) = (sectionOr .empty entry).get? key := by
  rcases h with rfl | ⟨members, rfl⟩ <;> rfl

end SchemaDocument

open SchemaDocument

namespace SchemaEdit

variable {key other : String} {fresh members after : OrderedMap Json}
  {refuse : Json → ActionError} {edit : SchemaEdit}

theorem within_of_isSection (h : IsSection (members.get? key)) :
    within key fresh refuse edit members =
      ((edit (sectionOr fresh (members.get? key))).1,
        members.insert key (.object (edit (sectionOr fresh (members.get? key))).2)) := by
  unfold within
  rcases h with h | ⟨child, h⟩ <;> rw [h] <;> rfl

theorem within_of_not_isSection (h : ¬ IsSection (members.get? key)) :
    ∃ v, within key fresh refuse edit members = (.error (refuse v), members) := by
  unfold within
  cases hm : members.get? key with
  | none => exact absurd (Or.inl hm) h
  | some v =>
    cases v with
    | object child => exact absurd (hm ▸ isSection_object child) h
    | _ => exact ⟨_, rfl⟩

theorem get?_within_of_ne (h : other ≠ key) :
    (within key fresh refuse edit members).2.get? other = members.get? other := by
  by_cases hs : IsSection (members.get? key)
  · rw [within_of_isSection hs]
    exact OrderedMap.get?_insert_of_ne h members _
  · obtain ⟨v, hw⟩ := within_of_not_isSection hs
    rw [hw]

/-- An edit below a key succeeds if there is or can be an object and it succeeds there. -/
theorem within_eq_ok_iff :
    within key fresh refuse edit members = (.ok (), after) ↔
      IsSection (members.get? key) ∧ ∃ grown,
        edit (sectionOr fresh (members.get? key)) = (.ok (), grown) ∧
          after = members.insert key (.object grown) := by
  constructor
  · intro h
    by_cases hs : IsSection (members.get? key)
    · rw [within_of_isSection hs, Prod.mk.injEq] at h
      exact ⟨hs, _, Prod.ext h.1 rfl, h.2.symm⟩
    · obtain ⟨v, hw⟩ := within_of_not_isSection hs
      cases hw.symm.trans h
  · rintro ⟨hs, grown, he, rfl⟩
    rw [within_of_isSection hs, he]

theorem put_eq_ok_iff {value : Json} :
    put key value members = (.ok (), after) ↔ after = members.insert key value := by
  simp [put, eq_comm]

end SchemaEdit

namespace SchemaDocument

variable {d after : SchemaDocument} {e : SchemaEdit} {root grown : OrderedMap Json}
  {name field subKey : String} {definition property : Json}

theorem edited_eq (d : SchemaDocument) (e : SchemaEdit) :
    d.edited e = (e d.root).1.map fun _ => ⟨(e d.root).2⟩ := rfl

theorem edited_eq_ok_iff : d.edited e = .ok after ↔ e d.root = (.ok (), after.root) := by
  rw [edited_eq, map_eq_ok_iff, Prod.ext_iff]
  constructor
  · rintro ⟨_, hok, rfl⟩
    exact ⟨hok, rfl⟩
  · rintro ⟨hok, hroot⟩
    exact ⟨_, hok, congrArg mk hroot⟩

theorem setDefinition_eq_ok_iff :
    setDefinition ⟨root⟩ name definition = .ok ⟨grown⟩ ↔
      IsSection (root.get? definitionsKey) ∧ grown = root.insert definitionsKey
        (.object ((sectionOr .empty (root.get? definitionsKey)).insert name definition)) := by
  unfold setDefinition setDefinitionEdit SchemaEdit.inSection
  rw [edited_eq_ok_iff, SchemaEdit.within_eq_ok_iff]
  simp [SchemaEdit.put_eq_ok_iff]

theorem definition?_setDefinition (h : d.setDefinition name definition = .ok after)
    (other : String) :
    after.definition? other =
      if other = name then some definition else d.definition? other := by
  obtain ⟨hs, hroot⟩ := setDefinition_eq_ok_iff.mp h
  rw [definition?, definition?, bind_member?_of_isSection hs, hroot, OrderedMap.get?_insert_self,
    Option.bind_some]
  exact OrderedMap.get?_insert _ name other definition

theorem definition?_attachFieldProperty
    (h : d.attachFieldProperty field subKey property = .ok after) (name : String) :
    after.definition? name = d.definition? name := by
  have hroot : after.root = (attachEdit field subKey property d.root).2 :=
    (congrArg Prod.snd (edited_eq_ok_iff.mp h)).symm
  have hd : (attachEdit field subKey property d.root).2.get? definitionsKey =
      d.root.get? definitionsKey := SchemaEdit.get?_within_of_ne (by decide)
  rw [definition?, hroot, hd]
  rfl

theorem definition?_attachAll {fields : List String}
    (h : fields.foldlM (fun d field => attachFieldProperty d field subKey property) d = .ok after)
    (name : String) : after.definition? name = d.definition? name := by
  induction fields generalizing d with
  | nil =>
    obtain rfl : d = after := Except.ok.inj h
    rfl
  | cons field rest ih =>
    rw [List.foldlM_cons] at h
    obtain ⟨next, hf, hrest⟩ := bind_eq_ok_iff.mp h
    exact (ih hrest).trans (definition?_attachFieldProperty hf name)

structure DefinesTranscripts (d : SchemaDocument) : Prop where
  transcript : d.definition? transcriptName = some transcriptDefinition
  revision : d.definition? revisionName = some revisionDefinition

end SchemaDocument

namespace TranscriptionAction

variable {a : TranscriptionAction} {schema published : Json}

theorem modifySchema_eq_ok_iff :
    a.modifySchema schema = .ok published ↔
      ∃ start, SchemaDocument.ofJson schema = .ok start ∧
        ∃ first, start.setDefinition transcriptName transcriptDefinition = .ok first ∧
          ∃ second, first.setDefinition revisionName revisionDefinition = .ok second ∧
            ∃ last, a.fields.items.foldlM (fun d field =>
                SchemaDocument.attachFieldProperty d field actionId
                  (SchemaDocument.definitionRef transcriptName)) second = .ok last ∧
              last.toJson = published := by
  unfold modifySchema
  simp only [bind_eq_ok_iff, pure, Except.pure, Except.ok.injEq]

theorem definesTranscripts_of_modifySchema (h : a.modifySchema schema = .ok published) :
    ∃ d, SchemaDocument.ofJson published = .ok d ∧ d.DefinesTranscripts := by
  obtain ⟨start, -, first, hfirst, second, hsecond, last, hlast, rfl⟩ :=
    modifySchema_eq_ok_iff.mp h
  have written (name : String) : last.definition? name =
      if name = revisionName then some revisionDefinition
      else if name = transcriptName then some transcriptDefinition
      else start.definition? name := by
    rw [SchemaDocument.definition?_attachAll hlast,
      SchemaDocument.definition?_setDefinition hsecond,
      SchemaDocument.definition?_setDefinition hfirst]
  exact ⟨last, rfl, written transcriptName, written revisionName⟩

end TranscriptionAction

end SubmissionAnnotation
