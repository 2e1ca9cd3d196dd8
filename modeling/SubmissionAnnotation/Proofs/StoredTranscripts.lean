import SubmissionAnnotation.Proofs.Records
import SubmissionAnnotation.Proofs.SchemaEdits
import SubmissionAnnotation.Proofs.SchemaMeaning
import SubmissionAnnotation.Proofs.SlotMoves

/-!
# The published schema and the store agree

A codec fits a schema if every value that conforms to the schema can be read, and what is
read, or any other good instance, conforms again once it is written. Records fit closed
objects if their fields fit the properties one by one, so transcripts and their revisions
fit the definitions that an action publishes. Being good comes down to the hashes, whose
length the schema fixes and the types do not; a hash that is made has that length, and a
revision takes over the one that was stored.
-/
namespace SubmissionAnnotation

open TranscriptDefinitions

/-- What conforms to the schema can be read and is good, and what is good conforms
once it is written. -/
structure Codec.Fits {α : Type} (c : Codec α) (d : SchemaDocument) (schema : Json)
    (good : α → Prop) : Prop where
  readable : ∀ v, d.Conforms schema v → ∃ a, c.decode v = .ok a ∧ good a
  conforms : ∀ a, good a → d.Conforms schema (c.encode a)

/-- The part of `Codec.Fits` that one field of a record has. -/
structure Field.Fits {ρ : Type} (f : Field ρ) (d : SchemaDocument) (schema : Json)
    (good : ρ → Prop) : Prop where
  readable : ∀ v, d.Conforms schema v → ∃ change, f.read v = .ok change ∧
    ∀ x, good x → good (change x)
  conforms : ∀ x v, good x → f.write x = some v → d.Conforms schema v

section Fields

variable {ρ α : Type} {c : Codec α} {d : SchemaDocument} {schema : Json} {good : ρ → Prop}
  {part : α → Prop} {name : String}

namespace Field

theorem fits_needed {get : ρ → α} {set : α → ρ → ρ} (h : c.Fits d schema part)
    (hset : ∀ a x, part a → good x → good (set a x)) (hget : ∀ x, good x → part (get x)) :
    (needed name c get set).Fits d schema good where
  readable v hv := by
    obtain ⟨a, hd, ha⟩ := h.readable v hv
    exact ⟨set a, map_eq_ok_iff.mpr ⟨a, hd, rfl⟩, fun x hx => hset a x ha hx⟩
  conforms x v hx hw := by
    obtain rfl := Option.some.inj hw
    exact h.conforms (get x) (hget x hx)

theorem fits_defaulted {get : ρ → α} {set : α → ρ → ρ} (h : c.Fits d schema part)
    (hset : ∀ a x, part a → good x → good (set a x)) (hget : ∀ x, good x → part (get x)) :
    (defaulted name c get set).Fits d schema good := by
  have fits : (needed name c get set).Fits d schema good := fits_needed h hset hget
  exact ⟨fits.readable, fits.conforms⟩

/-- A field without a value is not written, and `null` is no value that conforms. -/
theorem fits_optional {get : ρ → Option α} {set : Option α → ρ → ρ} (h : c.Fits d schema part)
    (hnull : ∀ a, c.decode .null ≠ .ok a)
    (hset : ∀ a x, part a → good x → good (set (some a) x))
    (hget : ∀ x a, good x → get x = some a → part a) :
    (optional name c get set).Fits d schema good where
  readable v hv := by
    obtain ⟨a, hd, ha⟩ := h.readable v hv
    have hne : v ≠ .null := by
      rintro rfl
      exact hnull a hd
    have hread : (optional name c get set).read v = (c.decode v).map fun a => set (some a) := by
      cases v with
      | null => exact absurd rfl hne
      | _ => rfl
    exact ⟨set (some a), hread.trans (map_eq_ok_iff.mpr ⟨a, hd, rfl⟩), fun x hx => hset a x ha hx⟩
  conforms x v hx hw := by
    obtain ⟨a, ha, rfl⟩ := Option.map_eq_some_iff.mp hw
    exact h.conforms a (hget x a hx ha)

end Field

end Fields

namespace Record

variable {ρ : Type} {r : Record ρ} {d : SchemaDocument} {good : ρ → Prop}
  {properties : List (String × Json)}

def FieldsFit (d : SchemaDocument) (good : ρ → Prop) :
    List (Field ρ) → List (String × Json) → Prop :=
  List.Forall₂ fun f property => f.name = property.1 ∧ f.Fits d property.2 good

theorem FieldsFit.find {fields : List (Field ρ)} (h : FieldsFit d good fields properties)
    (name : String) :
    (fields.find? (fun f => f.name = name) = none ∧ OrderedMap.find name properties = none) ∨
    ∃ f schema, fields.find? (fun f => f.name = name) = some f ∧
      OrderedMap.find name properties = some schema ∧ f.Fits d schema good := by
  induction h with
  | nil => exact Or.inl ⟨rfl, rfl⟩
  | @cons f property fields properties hf _ ih =>
    obtain ⟨hname, fits⟩ := hf
    by_cases hn : f.name = name
    · exact Or.inr ⟨f, property.2, by simp [hn], by simp [OrderedMap.find, ← hname, hn], fits⟩
    · simpa [OrderedMap.find, ← hname, hn] using ih

/-- A record that refuses other members fits a closed object if its fields fit the
properties, where `value` is the one field that must be there and is always written. -/
theorem fits_closedObject (names : r.fieldNames.Nodup) (closed : r.others = .refused)
    (blank : good r.blank) (fit : FieldsFit d good r.fields properties)
    (required : ∀ f ∈ r.fields, f.required = true → f.name = "value")
    (value : ∃ f ∈ r.fields, f.name = "value" ∧ ∀ x, ∃ v, f.write x = some v) :
    r.codec.Fits d (closedObject properties) good := by
  constructor
  · intro v hv
    obtain ⟨members, rfl, hvalue, each⟩ := conforms_closedObject_iff.mp hv
    refine exists_decode blank (fun entry he => ?_) fun f hf hr => required f hf hr ▸ hvalue
    obtain ⟨schema, hs, conforms⟩ := each entry he
    rcases fit.find entry.1 with ⟨-, hn⟩ | ⟨f, schema', hf, hs', fits⟩
    · cases hn.symm.trans hs
    · obtain rfl : schema' = schema := Option.some.inj (hs'.symm.trans hs)
      obtain ⟨change, hread, keep⟩ := fits.readable entry.2 conforms
      have hfield : r.field? entry.1 = some f := hf
      exact ⟨change, by simp [readMember, hfield, hread], keep⟩
  · intro x hx
    have hmembers : r.members x = written r.fields x := by
      simp [members, closed, written]
    refine conforms_closedObject_iff.mpr ⟨⟨r.members x⟩, rfl, ?_, ?_⟩
    · obtain ⟨f, hf, hname, hwrite⟩ := value
      obtain ⟨v, hv⟩ := hwrite x
      have hkey := mem_written_keys hf hv
      rwa [hname, ← hmembers] at hkey
    · intro entry he
      have he : entry ∈ written r.fields x := hmembers ▸ he
      obtain ⟨f, hf, hw⟩ := List.mem_filterMap.mp he
      obtain ⟨v, hv, rfl⟩ := Option.map_eq_some_iff.mp hw
      rcases fit.find f.name with ⟨hn, -⟩ | ⟨f', schema, hf', hs, fits⟩
      · cases hn.symm.trans (field?_of_mem names hf)
      · obtain rfl : f' = f := Option.some.inj (hf'.symm.trans (field?_of_mem names hf))
        exact ⟨schema, hs, fits.conforms x v hx hv⟩

end Record

namespace Codec

variable {α : Type} {c : Codec α} {d : SchemaDocument} {good : α → Prop}

theorem Fits.definitionRef {name : String} {definition : Json}
    (h : c.Fits d definition good) (hd : d.definition? name = some definition) :
    c.Fits d (SchemaDocument.definitionRef name) good where
  readable v hv := by
    obtain ⟨found, hf, conforms⟩ := conforms_definitionRef_iff.mp hv
    obtain rfl : found = definition := Option.some.inj (hf.symm.trans hd)
    exact h.readable v conforms
  conforms a ha := conforms_definitionRef_iff.mpr ⟨definition, hd, h.conforms a ha⟩

theorem fits_string {schema : Json} {good : String → Prop}
    (h : ∀ v, d.Conforms schema v ↔ ∃ text, v = .string text ∧ good text) :
    string.Fits d schema good where
  readable v hv := by
    obtain ⟨text, rfl, hgood⟩ := (h v).mp hv
    exact ⟨text, rfl, hgood⟩
  conforms text hgood := (h _).mpr ⟨text, rfl, hgood⟩

theorem fits_textProperty : string.Fits d textProperty fun _ => True :=
  fits_string fun _ => by simp [conforms_textProperty_iff]

theorem fits_dateTimeProperty : string.Fits d dateTimeProperty fun _ => True :=
  fits_string fun _ => by simp [conforms_dateTimeProperty_iff]

theorem fits_hashProperty : string.Fits d hashProperty fun text => text.length = hashLength :=
  fits_string fun _ => conforms_hashProperty_iff

theorem decode_string_null (text : String) : string.decode .null ≠ .ok text := nofun

theorem fits_revisions (h : c.Fits d (SchemaDocument.definitionRef revisionName) good) :
    (list c).Fits d
      (.ofEntries [("type", .string "array"), ("items", SchemaDocument.definitionRef revisionName)])
      fun xs => ∀ x ∈ xs, good x where
  readable v hv := by
    obtain ⟨items, rfl, each⟩ := conforms_revisions_iff.mp hv
    exact exists_mapM_eq_ok fun item hi => h.readable item (each item hi)
  conforms xs hxs := by
    refine conforms_revisions_iff.mpr ⟨xs.map c.encode, rfl, fun item hi => ?_⟩
    obtain ⟨x, hx, rfl⟩ := List.mem_map.mp hi
    exact h.conforms x (hxs x hx)

end Codec

theorem Field.fits_note {ρ : Type} {d : SchemaDocument} {schema : Json} {good : ρ → Prop}
    {name : String} {get : ρ → Option String} {set : Option String → ρ → ρ}
    (h : Codec.string.Fits d schema fun _ => True)
    (hset : ∀ text x, good x → good (set (some text) x)) :
    (optional name .string get set).Fits d schema good :=
  fits_optional h Codec.decode_string_null (fun text x _ => hset text x) fun _ _ _ _ => trivial

def TranscriptRevision.WellHashed (r : TranscriptRevision) : Prop :=
  ∀ text, r.hash = some text → text.length = hashLength

namespace TranscriptValue

/-- All that the schema asks of a transcript and the type does not. -/
structure WellHashed (t : TranscriptValue) : Prop where
  hash : ∀ text, t.hash = some text → text.length = hashLength
  revisions : ∀ r ∈ t.revisions, r.WellHashed

variable {t : TranscriptValue}

theorem wellHashed_fresh (input : TranscriptInput) (engine : String) (now : Instant) :
    (fresh input engine now).WellHashed where
  hash := by simp [fresh, length_contentHash]
  revisions := nofun

theorem WellHashed.revise (h : t.WellHashed) (input : TranscriptInput) (engine : String)
    (now : Instant) : (t.revise input engine now).WellHashed where
  hash := (wellHashed_fresh input engine now).hash
  revisions := List.forall_mem_cons.mpr ⟨h.hash, h.revisions⟩

end TranscriptValue

section Definitions

variable {d : SchemaDocument}

theorem TranscriptRevision.fits_revisionDefinition :
    TranscriptRevision.record.codec.Fits d revisionDefinition WellHashed := by
  refine Record.fits_closedObject (by decide) rfl nofun ?_
    (by simp [record, Field.needed, Field.optional]) ⟨_, List.mem_cons_self, rfl, fun _ => ⟨_, rfl⟩⟩
  refine .cons ⟨rfl, ?value⟩ <| .cons ⟨rfl, ?engine⟩ <| .cons ⟨rfl, ?dateModified⟩ <|
    .cons ⟨rfl, ?hash⟩ <| .cons ⟨rfl, ?languageCode⟩ .nil
  case value =>
    exact Field.fits_needed Codec.fits_textProperty (fun _ _ _ h => h) fun _ _ => trivial
  case engine => exact Field.fits_note Codec.fits_textProperty fun _ _ h => h
  case dateModified => exact Field.fits_note Codec.fits_dateTimeProperty fun _ _ h => h
  case hash =>
    exact Field.fits_optional Codec.fits_hashProperty Codec.decode_string_null
      (fun text r hlength _ => by simpa [WellHashed] using hlength) fun _ text h => h text
  case languageCode => exact Field.fits_note Codec.fits_textProperty fun _ _ h => h

theorem TranscriptValue.fits_transcriptDefinition
    (h : d.definition? revisionName = some revisionDefinition) :
    TranscriptValue.record.codec.Fits d transcriptDefinition WellHashed := by
  refine Record.fits_closedObject (by decide) rfl ⟨nofun, nofun⟩ ?_
    (by simp [record, Field.needed, Field.optional, Field.defaulted])
    ⟨_, List.mem_cons_self, rfl, fun _ => ⟨_, rfl⟩⟩
  have revisions := TranscriptRevision.fits_revisionDefinition.definitionRef h
  refine .cons ⟨rfl, ?value⟩ <| .cons ⟨rfl, ?engine⟩ <| .cons ⟨rfl, ?dateCreated⟩ <|
    .cons ⟨rfl, ?dateModified⟩ <| .cons ⟨rfl, ?languageCode⟩ <| .cons ⟨rfl, ?hash⟩ <|
    .cons ⟨rfl, ?revisions⟩ .nil
  case value =>
    exact Field.fits_needed Codec.fits_textProperty (fun _ _ _ h => ⟨h.hash, h.revisions⟩)
      fun _ _ => trivial
  case engine => exact Field.fits_note Codec.fits_textProperty fun _ _ h => ⟨h.hash, h.revisions⟩
  case dateCreated =>
    exact Field.fits_note Codec.fits_dateTimeProperty fun _ _ h => ⟨h.hash, h.revisions⟩
  case dateModified =>
    exact Field.fits_note Codec.fits_dateTimeProperty fun _ _ h => ⟨h.hash, h.revisions⟩
  case languageCode =>
    exact Field.fits_note Codec.fits_textProperty fun _ _ h => ⟨h.hash, h.revisions⟩
  case hash =>
    exact Field.fits_optional Codec.fits_hashProperty Codec.decode_string_null
      (fun text t hlength h => ⟨by simpa using hlength, h.revisions⟩) fun _ text h => h.hash text
  case revisions =>
    exact Field.fits_defaulted (Codec.fits_revisions revisions)
      (fun _ _ hrs h => ⟨h.hash, hrs⟩) fun _ h => h.revisions

end Definitions

namespace SchemaDocument

/-- A value that conforms to what the fields of the schema refer to. -/
def AdmitsTranscript (d : SchemaDocument) (value : Json) : Prop :=
  d.Conforms (definitionRef transcriptName) value

/-- A slot that holds no object, or one that the schema admits. -/
def AdmitsSlot (d : SchemaDocument) (entry : Option Json) : Prop :=
  ∀ result, entry = some (.object result) → d.AdmitsTranscript (.object result)

variable {d : SchemaDocument}

theorem DefinesTranscripts.fits (h : d.DefinesTranscripts) :
    TranscriptValue.record.codec.Fits d (definitionRef transcriptName)
      TranscriptValue.WellHashed :=
  (TranscriptValue.fits_transcriptDefinition h.revision).definitionRef h.transcript

theorem DefinesTranscripts.admitsSlot_encode (h : d.DefinesTranscripts) {t : TranscriptValue}
    (ht : t.WellHashed) : d.AdmitsSlot (some (TranscriptValue.record.encode t)) := by
  intro result hr
  exact Option.some.inj hr ▸ h.fits.conforms t ht

theorem DefinesTranscripts.wellHashed_of_answer (h : d.DefinesTranscripts) {a : TranscriptionAction}
    {s : Submission} {p : FieldServicePair} {input : TranscriptInput} {now : Instant}
    {t : TranscriptValue} (admits : d.AdmitsSlot (s.slot? a.destination p.key))
    (ha : a.answer s p input now = .ok t) : t.WellHashed := by
  rcases TranscriptionAction.nextTranscript_eq_ok ha with ⟨result, old, he, hd, rfl⟩ | ⟨-, -, rfl⟩
  · obtain ⟨read, hread, hgood⟩ := h.fits.readable _ (admits result he)
    obtain rfl : read = old := Except.ok.inj (hread.symm.trans hd)
    exact hgood.revise input _ now
  · exact TranscriptValue.wellHashed_fresh input _ now

end SchemaDocument

namespace Session

open TranscriptionAction (clipAction)

variable {d : SchemaDocument} {σ : Session}

theorem admitsSlot_step (defines : d.DefinesTranscripts) {key : String} (step : Step)
    (h : d.AdmitsSlot (σ.slot? key)) : d.AdmitsSlot ((σ.step step).slot? key) := by
  cases step with
  | load record => rwa [slot?_step_of_eq (submission_step_load σ record)]
  | change =>
    have move := slotMove_change σ key
    generalize σ.slot? key = entry at h move
    generalize (σ.step .change).slot? key = next at move ⊢
    cases move with
    | keep => exact h
    | appear => rintro result ⟨⟩
    | dispatch => rintro result ⟨⟩
  | record field service input now =>
    rcases slot?_step_record σ field service input now key with hs | ⟨p, t, -, rfl, ha, -, hs⟩
    · rwa [hs]
    · rw [hs]
      exact defines.admitsSlot_encode (defines.wellHashed_of_answer h ha)
  | request asked =>
    rcases slot?_step_request σ asked key with hs | hs
    · rwa [hs]
    · rw [hs]
      rintro result ⟨⟩

theorem admitsSlot_run (defines : d.DefinesTranscripts) {key : String} (steps : List Step)
    (h : d.AdmitsSlot (σ.slot? key)) : d.AdmitsSlot ((σ.run steps).slot? key) :=
  run_induction (P := fun τ => d.AdmitsSlot (τ.slot? key))
    (fun _ step _ ht => admitsSlot_step defines step ht)
    (fun _ _ => trivial : ∀ step ∈ steps, True) h

/-- In every schema that an action publishes, a valid transcript is one that can be read,
and written back it is valid again. And whatever a run does after a slot held no object
or a valid one, loads, change runs, texts handed in and wishes of users, the slot goes on
to hold no object or a valid one, and each text that is taken for it leaves a valid one. -/
theorem store_conforms_to_published_schema {a : TranscriptionAction} {schema published : Json}
    (publishes : a.modifySchema schema = .ok published) :
    ∃ d, SchemaDocument.ofJson published = .ok d ∧ d.DefinesTranscripts ∧
      (∀ members, d.AdmitsTranscript (.object members) →
        ∃ t, TranscriptValue.record.decode (.object members) = .ok t ∧
          d.AdmitsTranscript (TranscriptValue.record.encode t)) ∧
      ∀ (σ : Session) (key : String), d.AdmitsSlot (σ.slot? key) → ∀ steps,
        let τ := σ.run steps
        d.AdmitsSlot (τ.slot? key) ∧
        ∀ p ∈ τ.action.matrix.pairs, p.key = key → ∀ input now after,
          τ.action.recordTranscript τ.submission p.field p.service input now = .ok after →
          ∃ value, after.slot? τ.action.destination key = some value ∧
            d.AdmitsTranscript value := by
  obtain ⟨d, hd, defines⟩ := TranscriptionAction.definesTranscripts_of_modifySchema publishes
  refine ⟨d, hd, defines, ?_, ?_⟩
  · intro members hm
    obtain ⟨t, ht, hgood⟩ := defines.fits.readable _ hm
    exact ⟨t, ht, defines.fits.conforms t hgood⟩
  · intro σ key start steps τ
    have hτ : d.AdmitsSlot (τ.slot? key) := admitsSlot_run defines steps start
    refine ⟨hτ, ?_⟩
    rintro p hp rfl input now after hr
    obtain ⟨q, t, hq, -, ha, rfl⟩ := TranscriptionAction.recordTranscript_eq_ok_iff.mp hr
    obtain rfl : p = q :=
      Option.some.inj ((TranscriptionAction.find?_of_mem_matrix hp).symm.trans hq)
    exact ⟨_, TranscriptionAction.slot?_answered τ.action τ.submission p t,
      defines.fits.conforms t (defines.wellHashed_of_answer hτ ha)⟩

/-- A form without any schema, and a slot with a text that never had a hash or a revision. -/
theorem store_conforms_to_published_schema_corrected :
    let key := "clip_transcription_manual"
    let bare : Json := .ofEntries [("value", .string "hallo")]
    let s : Submission := ⟨⟨[("details", .ofEntries [(key, bare)])]⟩⟩
    let σ : Session := ⟨clipAction, s, .empty⟩
    let τ := σ.run [.change, .record "clip" "manual" ⟨"hello", "en"⟩ ⟨0, 0⟩]
    ∃ published d, clipAction.modifySchema (.object .empty) = .ok published ∧
      SchemaDocument.ofJson published = .ok d ∧ d.AdmitsTranscript bare ∧
      (∃ t, TranscriptValue.record.decode bare = .ok t ∧
        d.AdmitsTranscript (TranscriptValue.record.encode t)) ∧
      ∃ after value,
        τ.action.recordTranscript τ.submission "clip" "manual" ⟨"bye", "en"⟩ ⟨1, 0⟩ = .ok after ∧
        after.slot? "details" key = some value ∧ d.AdmitsTranscript value := by
  intro key bare s σ τ
  have publishes : ∃ published, clipAction.modifySchema (.object .empty) = .ok published := ⟨_, rfl⟩
  obtain ⟨published, publishes⟩ := publishes
  obtain ⟨d, hd, defines, readable, runs⟩ := store_conforms_to_published_schema publishes
  have valid : d.AdmitsTranscript bare := by
    refine conforms_definitionRef_iff.mpr ⟨_, defines.transcript, ?_⟩
    refine conforms_closedObject_iff.mpr ⟨_, rfl, List.mem_cons_self, ?_⟩
    rw [List.forall_mem_singleton]
    exact ⟨textProperty, rfl, conforms_textProperty_iff.mpr ⟨"hallo", rfl⟩⟩
  have start : d.AdmitsSlot (σ.slot? key) := by
    rintro result ⟨⟩
    exact valid
  have taken : ∃ after,
      τ.action.recordTranscript τ.submission "clip" "manual" ⟨"bye", "en"⟩ ⟨1, 0⟩ = .ok after :=
    ⟨_, rfl⟩
  obtain ⟨after, taken⟩ := taken
  obtain ⟨-, stored⟩ := runs σ key start [.change, .record "clip" "manual" ⟨"hello", "en"⟩ ⟨0, 0⟩]
  obtain ⟨value, hvalue, conforms⟩ :=
    stored (.ofNames "clip" "manual" TranscriptionAction.keyJoiner) (by decide) rfl _ _ after taken
  exact ⟨published, d, publishes, hd, valid, readable _ valid, after, value, taken, hvalue,
    conforms⟩

end Session

end SubmissionAnnotation
