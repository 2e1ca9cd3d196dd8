import Mathlib.Data.List.Count
import SubmissionAnnotation.Batch
import SubmissionAnnotation.Proofs.SlotKeys

/-!
# Engines and slots

Three walks over the services of an action have to agree: the slots of a field, the list
of engines, and the same engines as members of an object. The slots leave out a service
that is called as the entry by hand; the list of engines does not. It then names the
engine for entries by hand twice, and in the object the second one takes the place of the
first, so that what is said of entries by hand is lost. In all other cases the three walks
give the same services in the same order.
-/
namespace SubmissionAnnotation

namespace FieldServiceMatrix

variable {fields services : OrderedSet} {joiner field : String}

def servicesAt (m : FieldServiceMatrix) (field : String) : List String :=
  (m.pairs.filter fun p => p.field = field).map FieldServicePair.service

theorem filter_row (services : OrderedSet) (joiner field other : String) :
    (row services joiner other).filter (fun p => p.field = field) =
      if other = field then row services joiner field else [] := by
  split
  · next h =>
    subst h
    refine List.filter_eq_self.mpr fun p hp => ?_
    obtain ⟨service, -, rfl⟩ := List.mem_map.mp hp
    exact decide_eq_true rfl
  · next h =>
    refine List.filter_eq_nil_iff.mpr fun p hp => ?_
    obtain ⟨service, -, rfl⟩ := List.mem_map.mp hp
    exact decide_eq_true_iff.not.mpr h

/-- All slots of a field stand together, since no field comes up twice. -/
theorem filter_flatMap_row {names : List String} (distinct : names.Nodup) :
    (names.flatMap (row services joiner)).filter (fun p => p.field = field) =
      if field ∈ names then row services joiner field else [] := by
  induction names with
  | nil => rfl
  | cons first rest ih =>
    obtain ⟨hfirst, hrest⟩ := List.nodup_cons.mp distinct
    rw [List.flatMap_cons, List.filter_append, filter_row, ih hrest]
    by_cases he : first = field
    · subst he
      simp [hfirst]
    · simp [he, Ne.symm he]

theorem servicesAt_generate (h : field ∈ fields.items) :
    (generate fields services joiner).servicesAt field = servicesOf services := by
  have hrow : (generate fields services joiner).pairs.filter (fun p => p.field = field) =
      row services joiner field := (filter_flatMap_row fields.nodup).trans (if_pos h)
  rw [servicesAt, hrow]
  simp [row, FieldServicePair.ofNames, Function.comp_def]

theorem servicesOf_of_mem (h : manualService ∈ services.items) :
    ∃ before after, services.items = before ++ manualService :: after ∧
      servicesOf services = manualService :: (before ++ after) := by
  obtain ⟨before, after, hitems⟩ := List.append_of_mem h
  refine ⟨before, after, hitems, congrArg (manualService :: ·) ?_⟩
  have distinct := services.nodup
  rw [hitems, List.nodup_middle, List.nodup_cons, List.mem_append, not_or] at distinct
  obtain ⟨⟨hbefore, hafter⟩, -⟩ := distinct
  rw [hitems, List.filter_append, filter_of_manualService_not_mem hbefore,
    List.filter_cons_of_neg (by simp), filter_of_manualService_not_mem hafter]

end FieldServiceMatrix

theorem engineName_injective : Function.Injective engineName := by
  intro service service' h
  unfold engineName at h
  have hlist := congrArg String.toList h
  rw [String.toList_append, String.toList_append] at hlist
  exact String.toList_inj.mp (List.append_cancel_left hlist)

namespace TranscriptionAction

variable {a : TranscriptionAction}

def manualEngine : Engine :=
  .withDetails (engineName manualService) "A human provided transcription"

def engineEntry (e : Engine) : String × Json :=
  (e.name, EngineDescriptor.record.encode e.descriptor)

/-- The engine that is listed last for a service: a configured service goes by what it
does, the entry by hand by its details. -/
def engineOf (a : TranscriptionAction) (service : String) : Engine :=
  if service ∈ a.services.items then
    .withDescription (engineName service) ("Transcription by " ++ service)
  else .withDetails (engineName service) "A human provided transcription"

@[simp] theorem name_engineOf (a : TranscriptionAction) (service : String) :
    (a.engineOf service).name = engineName service := by
  unfold engineOf
  split <;> rfl

theorem engines_eq (a : TranscriptionAction) :
    a.engines = manualEngine :: a.services.items.map a.engineOf := by
  refine congrArg (manualEngine :: ·) (List.map_congr_left fun service hs => ?_)
  simp [engineOf, hs]

theorem engines_of_not_mem (h : manualService ∉ a.services.items) :
    a.engines = (manualService :: a.services.items).map a.engineOf := by
  have hmanual : a.engineOf manualService = manualEngine := if_neg h
  rw [engines_eq, List.map_cons, hmanual]

theorem names_engines (a : TranscriptionAction) :
    a.engines.map Engine.name = (manualService :: a.services.items).map engineName := by
  rw [engines_eq]
  simp [manualEngine, Engine.withDetails, Function.comp_def]

theorem nodup_names_engines (h : manualService ∉ a.services.items) :
    (a.engines.map Engine.name).Nodup := by
  rw [names_engines]
  exact (List.nodup_cons.mpr ⟨h, a.services.nodup⟩).map engineName_injective

theorem count_names_engines (h : manualService ∈ a.services.items) :
    (a.engines.map Engine.name).count (engineName manualService) = 2 := by
  rw [names_engines, List.count_map_of_injective _ _ engineName_injective, List.count_cons_self,
    List.count_eq_one_of_mem a.services.nodup h]

theorem engineEntry_engineOf (a : TranscriptionAction) (service : String) :
    engineEntry (a.engineOf service) =
      (engineName service, EngineDescriptor.record.encode (a.engineOf service).descriptor) := by
  rw [engineEntry, name_engineOf]

theorem map_fst_engineEntry (a : TranscriptionAction) (services : List String) :
    (services.map (engineEntry ∘ a.engineOf)).map Prod.fst = services.map engineName := by
  simp [engineEntry, Function.comp_def]

/-- As members of an object the engines are those of the slots of a field, each once. -/
theorem ofList_engines (a : TranscriptionAction) :
    OrderedMap.ofList (a.engines.map engineEntry) =
      ⟨(FieldServiceMatrix.servicesOf a.services).map (engineEntry ∘ a.engineOf)⟩ := by
  have distinct : (((FieldServiceMatrix.servicesOf a.services).map
      (engineEntry ∘ a.engineOf)).map Prod.fst).Nodup := by
    rw [map_fst_engineEntry]
    exact (FieldServiceMatrix.nodup_servicesOf a.services).map engineName_injective
  by_cases h : manualService ∈ a.services.items
  · -- The configured service is written where the entry by hand stands.
    obtain ⟨before, after, hitems, hslots⟩ := FieldServiceMatrix.servicesOf_of_mem h
    rw [hslots, List.map_cons, List.map_append, Function.comp_apply, engineEntry_engineOf]
      at distinct ⊢
    rw [engines_eq, hitems, List.map_cons, List.map_map, List.map_append, List.map_cons,
      Function.comp_apply, engineEntry_engineOf]
    exact OrderedMap.ofList_of_repeat distinct _ _
  · rw [FieldServiceMatrix.servicesOf_of_not_mem h] at distinct ⊢
    rw [engines_of_not_mem h, List.map_map]
    exact OrderedMap.ofList_of_nodup distinct

/-- The engines start with the one for entries by hand, and go on with the configured
services; in the listing by name there is one engine for every slot of a field. Unless a
service is configured under the name for entries by hand, the two agree: no engine is
named twice, and the listing has the engines as they are. If there is such a service, the
engine for entries by hand is named twice, and the listing describes it as that service. -/
theorem engines_match_slots_unless_manual_configured (a : TranscriptionAction) :
    ∃ listing : OrderedMap Json,
      Batch.capabilities a = .ok (.ofEntries [("engines", .object listing),
        ("addl_fields", .array ((Action.additionalFields a).map AdditionalField.record.encode))]) ∧
      a.engines.head? = some manualEngine ∧
      a.engines.map Engine.name = (manualService :: a.services.items).map engineName ∧
      (∀ field ∈ a.fields.items,
        listing.keys = (a.matrix.servicesAt field).map engineName) ∧
      (manualService ∉ a.services.items →
        (a.engines.map Engine.name).Nodup ∧
        (∀ field ∈ a.fields.items,
          a.engines.map Engine.name = (a.matrix.servicesAt field).map engineName) ∧
        listing.entries = a.engines.map engineEntry) ∧
      (manualService ∈ a.services.items →
        (a.engines.map Engine.name).count (engineName manualService) = 2 ∧
        listing.get? (engineName manualService) =
          some (.ofEntries [("description", .string "Transcription by manual")])) := by
  refine ⟨⟨(FieldServiceMatrix.servicesOf a.services).map (engineEntry ∘ a.engineOf)⟩,
    ?_, ?_, names_engines a, ?_, ?_, ?_⟩
  · rw [← ofList_engines]
    rfl
  · rw [engines_eq]
    rfl
  · intro field hfield
    rw [matrix, FieldServiceMatrix.servicesAt_generate hfield]
    exact map_fst_engineEntry a _
  · intro h
    refine ⟨nodup_names_engines h, ?_, ?_⟩
    · intro field hfield
      rw [names_engines, matrix, FieldServiceMatrix.servicesAt_generate hfield,
        FieldServiceMatrix.servicesOf_of_not_mem h]
    · rw [FieldServiceMatrix.servicesOf_of_not_mem h, engines_of_not_mem h, List.map_map]
  · intro h
    refine ⟨count_names_engines h, ?_⟩
    have hmanual : a.engineOf manualService =
        .withDescription (engineName manualService) ("Transcription by " ++ manualService) :=
      if_pos h
    rw [FieldServiceMatrix.servicesOf, List.map_cons, Function.comp_apply, hmanual]
    exact OrderedMap.find_cons_self (engineName manualService) _ _

/-- With the service `acme` the engines are those of the slots. With a service `manual`
before it, the engine for entries by hand is there twice. -/
theorem engines_match_slots_unless_manual_configured_acme :
    let acme : TranscriptionAction :=
      { unloaded .default with fields := .ofList ["clip"], services := .ofList ["acme"] }
    let both : TranscriptionAction :=
      { unloaded .default with fields := .ofList ["clip"], services := .ofList ["manual", "acme"] }
    "clip" ∈ acme.fields.items ∧ manualService ∉ acme.services.items ∧
      (acme.matrix.servicesAt "clip").map engineName = acme.engines.map Engine.name ∧
      manualService ∈ both.services.items ∧
      (both.engines.map Engine.name).count "engines/transcript_manual" = 2 := by
  intro acme both
  have hclip : "clip" ∈ acme.fields.items := by decide
  have hacme : manualService ∉ acme.services.items := by decide
  have hboth : manualService ∈ both.services.items := by decide
  obtain ⟨_, -, -, -, -, agree, -⟩ := engines_match_slots_unless_manual_configured acme
  obtain ⟨_, -, -, -, -, -, twice⟩ := engines_match_slots_unless_manual_configured both
  exact ⟨hclip, hacme, ((agree hacme).2.1 "clip" hclip).symm, hboth, (twice hboth).1⟩

/-- It is not so that the engines of loaded parameters always have different names. -/
theorem not_engines_always_distinct :
    ¬ ∀ (config : ActionConfig) (stored : Json) (a : TranscriptionAction),
      (unloaded config).load stored = .ok a → (a.engines.map Engine.name).Nodup := by
  intro distinct
  let stored : Json := .ofEntries [("values", .array [.string "clip"]),
    ("services", .array [.string "manual"])]
  let a : TranscriptionAction :=
    { unloaded .default with fields := .ofList ["clip"], services := .ofList ["manual"] }
  have hload : (unloaded .default).load stored = .ok a := rfl
  have htwice : a.engines.map Engine.name =
      ["engines/transcript_manual", "engines/transcript_manual"] := rfl
  have hnodup := distinct .default stored a hload
  rw [htwice] at hnodup
  exact absurd hnodup (by decide)

end TranscriptionAction

end SubmissionAnnotation
