import SubmissionAnnotation.Proofs.Parameters
import SubmissionAnnotation.Settings

/-!
# Stored values come back

A type can be read from more spellings than it writes: from arrays, with fields missing or
`null`, with members that it does not know. What was read once is nevertheless read again
from what is written of it. For most records that is so of every value. A row of a form
and a configuration keep maps, and these come back if their keys are distinct and, for a
row, are not the names of its fields; every way of reading them makes sure of that.
-/
namespace SubmissionAnnotation

theorem TranscriptInput.lawful_record : TranscriptInput.record.codec.Lawful := fun _ =>
  Record.readsBack_of_fields (by decide) (by simp [record]) (by simp [record]) (by simp [record])

theorem EngineDescriptor.lawful_record : EngineDescriptor.record.codec.Lawful := fun _ =>
  Record.readsBack_of_fields (by decide) (by simp [record]) (by simp [record]) (by simp [record])

theorem Engine.lawful_record : Engine.record.codec.Lawful := by
  intro e
  have descriptor : EngineDescriptor.record.codec.ReadsBack e.descriptor :=
    EngineDescriptor.lawful_record e.descriptor
  exact Record.readsBack_of_fields (by decide) (by simp [record]) (by simp [record, descriptor])
    (by simp [record, descriptor])

theorem AdditionalFieldSettings.lawful_record : AdditionalFieldSettings.record.codec.Lawful :=
  fun _ => Record.readsBack_of_fields (by decide) (by simp [record]) (by simp [record])
    (by simp [record])

theorem AdditionalField.lawful_record : AdditionalField.record.codec.Lawful := by
  intro x
  have settings : AdditionalFieldSettings.record.codec.ReadsBack x.settings :=
    AdditionalFieldSettings.lawful_record x.settings
  exact Record.readsBack_of_fields (by decide) (by simp [record]) (by simp [record, settings])
    (by simp [record, settings])

theorem LoggingSettings.lawful_record (surplus : SurplusItems) :
    (LoggingSettings.record surplus).codec.Lawful := by
  intro l
  have names : (record surplus).fieldNames.Nodup := show ["level", "json"].Nodup by decide
  exact Record.readsBack_of_fields names (by simp [record]) (by simp [record]) (by simp [record])

theorem ActionConfig.stable_record (surplus : SurplusItems) :
    (ActionConfig.record surplus).codec.Stable := by
  refine Record.stable_of_keeps (fun c => (Codec.map (Codec.list .string)).ReadsBack c.services)
    (by simp [record]) rfl ?_ ?_
  · simp only [record, List.forall_mem_cons, List.not_mem_nil, false_imp_iff, implies_true,
      and_true]
    refine ⟨?_, ?_, ?_⟩
    · exact Field.keeps_defaulted fun _ _ _ _ hc => hc
    · exact Field.keeps_defaulted fun _ _ _ _ hc => hc
    · exact Field.keeps_defaulted fun v m hm _ _ =>
        Codec.stable_map (Codec.lawful_list Codec.lawful_string) v m hm
  · intro c hc
    have names : (record surplus).fieldNames.Nodup :=
      show ["destination_field", "label_language", "services"].Nodup by decide
    exact Record.readsBack_of_fields names (by simp [record]) (by simp [record, hc])
      (by simp [record, hc])

theorem Settings.stable_record (surplus : SurplusItems) :
    (Settings.record surplus).codec.Stable := by
  refine Record.stable_of_keeps (fun s => (ActionConfig.record surplus).codec.ReadsBack s.actions)
    (by simp [record]) rfl ?_ ?_
  · simp only [record, List.forall_mem_cons, List.not_mem_nil, false_imp_iff, implies_true,
      and_true]
    refine ⟨?_, ?_⟩
    · exact Field.keeps_defaulted fun v c hc _ _ => ActionConfig.stable_record surplus v c hc
    · exact Field.keeps_defaulted fun _ _ _ _ hs => hs
  · intro s hs
    have names : (record surplus).fieldNames.Nodup := show ["actions", "logging"].Nodup by decide
    have logging : (LoggingSettings.record surplus).codec.ReadsBack s.logging :=
      LoggingSettings.lawful_record surplus s.logging
    exact Record.readsBack_of_fields names (by simp [record]) (by simp [record, hs, logging])
      (by simp [record, hs, logging])

/-- What a row keeps besides its fields has different names, and none is that of a field. -/
structure FormRow.Sound (row : FormRow) : Prop where
  distinct : row.extra.keys.Nodup
  foreign : ∀ name ∈ row.extra.keys, name ∉ FormRow.record.fieldNames

namespace FormRow

theorem sound_blank : blank.Sound :=
  ⟨List.nodup_nil, fun _ h => absurd h List.not_mem_nil⟩

theorem sound_of_decode {v : Json} {row : FormRow} (h : record.decode v = .ok row) : row.Sound := by
  refine Record.good_of_decode sound_blank ?_ ?_ h
  · simp only [record, List.forall_mem_cons, List.not_mem_nil, false_imp_iff, implies_true,
      and_true]
    refine ⟨?_, ?_, ?_⟩
    · exact Field.keeps_defaulted fun _ _ _ _ hrow => ⟨hrow.distinct, hrow.foreign⟩
    · exact Field.keeps_optional fun _ _ hrow => ⟨hrow.distinct, hrow.foreign⟩
    · exact Field.keeps_optional fun _ _ hrow => ⟨hrow.distinct, hrow.foreign⟩
  · intro add entries ho name hname v row hrow
    obtain ⟨rfl, rfl⟩ := OtherMembers.kept.inj ho
    refine ⟨OrderedMap.nodup_keys_insert hrow.distinct name v, fun other hother => ?_⟩
    rcases OrderedMap.mem_keys_insert.mp hother with rfl | hother
    · exact hname
    · exact hrow.foreign other hother

theorem foldl_keep (entries : List (String × Json)) (row : FormRow) :
    entries.foldl (fun row entry => { row with extra := row.extra.insert entry.1 entry.2 }) row =
      { row with extra := entries.foldl (fun m entry => m.insert entry.1 entry.2) row.extra } := by
  induction entries generalizing row with
  | nil => rfl
  | cons entry rest ih => exact ih _

theorem readsBack_of_sound {row : FormRow} (h : row.Sound) : record.codec.ReadsBack row := by
  refine Record.readsBack_of_kept rfl (by decide) ?_ (by simp [record]) ?_
  · exact fun entry he => h.foreign entry.1 (List.mem_map_of_mem he)
  · have hfields : record.fields.foldl (fun y f => f.carry row y) record.blank =
        { row with extra := .empty } := by
      simp [record, blank]
    have hextra : row.extra.entries.foldl (fun m entry => m.insert entry.1 entry.2) .empty =
        row.extra := OrderedMap.ofList_of_nodup h.distinct
    rw [hfields, foldl_keep, hextra]

theorem stable_record : record.codec.Stable := fun _ _ h => readsBack_of_sound (sound_of_decode h)

end FormRow

theorem FormDefinition.stable_record : FormDefinition.record.codec.Stable := by
  refine Record.stable_of_keeps
    (fun form => (Codec.list FormRow.record.codec).ReadsBack form.survey)
    (by simp [record]) rfl ?_ ?_
  · simp only [record, List.forall_mem_cons, List.not_mem_nil, false_imp_iff, implies_true,
      and_true]
    exact Field.keeps_defaulted fun v rows hrows _ _ =>
      Codec.stable_list FormRow.stable_record v rows hrows
  · intro form hform
    exact Record.readsBack_of_fields (by decide) (by simp [record]) (by simp [record, hform])
      (by simp [record, hform])

/-- The types whose values are stored as JSON; those of settings are read from arrays with
surplus items or without. -/
inductive StoredType where
  | transcriptValue
  | transcriptRevision
  | transcriptInput
  | actionParams
  | engine
  | engineDescriptor
  | additionalField
  | additionalFieldSettings
  | formRow
  | formDefinition
  | actionConfig (surplus : SurplusItems)
  | loggingSettings (surplus : SurplusItems)
  | settings (surplus : SurplusItems)
  | submissionStatus
  | submission

namespace StoredType

def Value : StoredType → Type
  | transcriptValue => TranscriptValue
  | transcriptRevision => TranscriptRevision
  | transcriptInput => TranscriptInput
  | actionParams => ActionParams
  | engine => Engine
  | engineDescriptor => EngineDescriptor
  | additionalField => AdditionalField
  | additionalFieldSettings => AdditionalFieldSettings
  | formRow => FormRow
  | formDefinition => FormDefinition
  | actionConfig _ => ActionConfig
  | loggingSettings _ => LoggingSettings
  | settings _ => Settings
  | submissionStatus => SubmissionStatus
  | submission => Submission

def codec : (t : StoredType) → Codec t.Value
  | transcriptValue => TranscriptValue.record.codec
  | transcriptRevision => TranscriptRevision.record.codec
  | transcriptInput => TranscriptInput.record.codec
  | actionParams => ActionParams.record.codec
  | engine => Engine.record.codec
  | engineDescriptor => EngineDescriptor.record.codec
  | additionalField => AdditionalField.record.codec
  | additionalFieldSettings => AdditionalFieldSettings.record.codec
  | formRow => FormRow.record.codec
  | formDefinition => FormDefinition.record.codec
  | actionConfig surplus => (ActionConfig.record surplus).codec
  | loggingSettings surplus => (LoggingSettings.record surplus).codec
  | settings surplus => (Settings.record surplus).codec
  | submissionStatus => SubmissionStatus.codec
  | submission => Submission.codec

theorem stable_codec (t : StoredType) : t.codec.Stable := by
  cases t with
  | transcriptValue => exact TranscriptValue.lawful_record.stable
  | transcriptRevision => exact TranscriptRevision.lawful_record.stable
  | transcriptInput => exact TranscriptInput.lawful_record.stable
  | actionParams => exact ActionParams.lawful_record.stable
  | engine => exact Engine.lawful_record.stable
  | engineDescriptor => exact EngineDescriptor.lawful_record.stable
  | additionalField => exact AdditionalField.lawful_record.stable
  | additionalFieldSettings => exact AdditionalFieldSettings.lawful_record.stable
  | formRow => exact FormRow.stable_record
  | formDefinition => exact FormDefinition.stable_record
  | actionConfig surplus => exact ActionConfig.stable_record surplus
  | loggingSettings surplus => exact (LoggingSettings.lawful_record surplus).stable
  | settings surplus => exact Settings.stable_record surplus
  | submissionStatus => exact SubmissionStatus.lawful_codec.stable
  | submission => exact Submission.lawful_codec.stable

/-- Whatever JSON value a stored value was read from, what is written of it can be read, is
read as the same value, and is then written in the same way. -/
theorem stored_value_comes_back {t : StoredType} {v : Json} {x : t.Value}
    (read : t.codec.decode v = .ok x) :
    ∃ y, t.codec.decode (t.codec.encode x) = .ok y ∧ y = x ∧
      t.codec.encode y = t.codec.encode x :=
  ⟨x, t.stable_codec v x read, rfl, rfl⟩

/-- A form is an array of an array of rows. One row has no type and no name and keeps a
`null`; the other one keeps a member that stands before its fields. -/
theorem stored_value_comes_back_form_of_arrays :
    let rows : List Json := [
      .ofEntries [("hint", .null), ("$autoname", .string "clip"), ("name", .null)],
      .ofEntries [("required", .bool true), ("name", .string "talk"), ("type", .string "audio")]]
    let form : FormDefinition := ⟨[
      ⟨"", none, some "clip", ⟨[("hint", .null)]⟩⟩,
      ⟨"audio", some "talk", none, ⟨[("required", .bool true)]⟩⟩]⟩
    FormDefinition.record.decode (.array [.array rows]) = .ok form ∧
      ∃ again, FormDefinition.record.decode (FormDefinition.record.encode form) = .ok again ∧
        again = form ∧
        FormDefinition.record.encode again = FormDefinition.record.encode form := by
  intro rows form
  have read : StoredType.formDefinition.codec.decode (.array [.array rows]) = .ok form := rfl
  exact ⟨read, stored_value_comes_back read⟩

end StoredType

end SubmissionAnnotation
