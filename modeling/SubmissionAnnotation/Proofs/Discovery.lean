import SubmissionAnnotation.Batch
import SubmissionAnnotation.Proofs.Parameters
import SubmissionAnnotation.Proofs.SlotKeys

/-!
# Loading what discovery wrote

Discovery lists the names of the recording rows of a form as they come, and loading
refuses a list that repeats an entry. With the services that transcription declares
itself no two slots share a key, so this is the only thing that can go wrong: parameters
that were discovered come back unchanged if no two recording rows have one name, and
cannot be loaded otherwise.
-/
namespace SubmissionAnnotation

namespace ActionParams

variable {p : ActionParams} {action name : String}

theorem ofJson_toJson_of_firstRepeat? (h : firstRepeat? p.values = some name) :
    ofJson action p.toJson = .error (.malformedParameters action
      ("'" ++ valuesKey ++ "' lists '" ++ name ++ "' more than once")) :=
  ofJson_of_values_repeat (lawful_record p) h

end ActionParams

namespace TranscriptionAction

variable {a : TranscriptionAction} {config : ActionConfig} {p : ActionParams} {name : String}

theorem load_of_ofJson_error {stored : Json} {e : ActionError}
    (h : ActionParams.ofJson actionId stored = .error e) : a.load stored = .error e := by
  have refused : a.loadParams stored = (.error e, a) := by simp [loadParams, h]
  exact Action.load_eq_error_iff.mpr (congrArg Prod.fst refused)

theorem load_toJson (hv : p.values.Nodup) (hs : p.services.Nodup)
    (plain : ∀ service ∈ p.services, ¬ HoldsJoiner service) :
    ∃ loaded, a.load p.toJson = .ok loaded ∧ loaded.params = p := by
  have hfields := OrderedSet.items_ofList_of_nodup hv
  have hservices := OrderedSet.items_ofList_of_nodup hs
  refine ⟨{ a with fields := .ofList p.values, services := .ofList p.services }, ?_, ?_⟩
  · refine load_eq_ok_iff.mpr ⟨p, ActionParams.ofJson_toJson hv hs, rfl, ?_⟩
    apply FieldServiceMatrix.duplicateKey?_eq_none_iff.mpr
    apply FieldServiceMatrix.nodup_keys_of_services
    rwa [hservices]
  · simp only [params, hfields, hservices]

theorem pairs_matrix (h : manualService ∉ a.params.services) :
    a.matrix.pairs = a.params.values.flatMap fun field =>
      (manualService :: a.params.services).map fun service => .ofNames field service keyJoiner := by
  have hservices : FieldServiceMatrix.servicesOf a.services =
      manualService :: a.params.services := FieldServiceMatrix.servicesOf_of_not_mem h
  change a.fields.items.flatMap (FieldServiceMatrix.row a.services keyJoiner) = _
  unfold FieldServiceMatrix.row
  rw [hservices]
  rfl

theorem buildParams_defaultRegistry (form : FormDefinition) (config : ActionConfig) :
    (Batch.defaultRegistry config).buildParams actionId form = .ok (discover form config) := rfl

theorem load_defaultRegistry (config : ActionConfig) (stored : Json) :
    (Batch.defaultRegistry config).load actionId stored =
      ((unloaded config).load stored).map fun a => ⟨TranscriptionAction, a⟩ := rfl

theorem services_discover (form : FormDefinition) (own : config.servicesFor? actionId = none) :
    (discover form config).services = ownServices := by
  simp [discover, declaredServices, own]

theorem not_holdsJoiner_ownServices : ∀ service ∈ ownServices, ¬ HoldsJoiner service := by
  unfold HoldsJoiner
  decide

/-- Where the services are those that transcription declares itself, the parameters that
were discovered in a form are loaded again unchanged, and give every field its slot by
hand and one for each service, if no name is listed twice. If one is, they are refused,
and the first name that comes up again is reported. -/
theorem discovery_reloads_unless_names_repeat (form : FormDefinition) (config : ActionConfig)
    (own : config.servicesFor? actionId = none) :
    let registry := Batch.defaultRegistry config
    let p := discover form config
    registry.buildParams actionId form = .ok p ∧
    (p.values.Nodup → ∃ a : TranscriptionAction,
      registry.load actionId p.toJson = .ok ⟨TranscriptionAction, a⟩ ∧ a.params = p ∧
      a.matrix.pairs = p.values.flatMap fun field =>
        (manualService :: p.services).map fun service => .ofNames field service keyJoiner) ∧
    (¬ p.values.Nodup → ∃ name, firstRepeat? p.values = some name ∧
      registry.load actionId p.toJson = .error (.malformedParameters actionId
        ("'values' lists '" ++ name ++ "' more than once"))) := by
  intro registry p
  have hservices : p.services = ownServices := services_discover form own
  refine ⟨buildParams_defaultRegistry form config, ?_, ?_⟩
  · intro distinct
    obtain ⟨a, hload, hparams⟩ := load_toJson (a := unloaded config) distinct
      (show p.services.Nodup by rw [hservices]; decide)
      (by rw [hservices]; exact not_holdsJoiner_ownServices)
    refine ⟨a, ?_, hparams, ?_⟩
    · rw [load_defaultRegistry, hload]
      rfl
    · have hmanual : manualService ∉ a.params.services := by
        rw [hparams, hservices]
        decide
      rw [pairs_matrix hmanual, hparams]
  · intro hrepeat
    obtain ⟨name, hname⟩ :=
      Option.ne_none_iff_exists'.mp fun h => hrepeat (firstRepeat?_eq_none_iff.mp h)
    refine ⟨name, hname, ?_⟩
    rw [load_defaultRegistry,
      load_of_ofJson_error (ActionParams.ofJson_toJson_of_firstRepeat? hname)]
    rfl

/-- Two recordings of different names are loaded again. With one name for both they are
not, although they stand in different groups of the form. -/
theorem discovery_reloads_unless_names_repeat_groups :
    let talk : FormDefinition :=
      ⟨[.named "audio" "clip", .named "text" "age", .named "video" "talk"]⟩
    let groups : FormDefinition := ⟨[.named "begin_group" "first", .named "audio" "clip",
      .named "begin_group" "second", .named "audio" "clip"]⟩
    let registry := Batch.defaultRegistry .default
    ActionConfig.default.servicesFor? actionId = none ∧
      (∃ a : TranscriptionAction,
        registry.load actionId (discover talk .default).toJson = .ok ⟨TranscriptionAction, a⟩ ∧
        a.params = ⟨["clip", "talk"], ["acme"]⟩) ∧
      registry.load actionId (discover groups .default).toJson =
        .error (.malformedParameters actionId "'values' lists 'clip' more than once") := by
  intro talk groups registry
  have own : ActionConfig.default.servicesFor? actionId = none := rfl
  obtain ⟨-, reloaded, -⟩ := discovery_reloads_unless_names_repeat talk .default own
  obtain ⟨-, -, refused⟩ := discovery_reloads_unless_names_repeat groups .default own
  obtain ⟨a, hload, hparams, -⟩ := reloaded (by decide)
  obtain ⟨name, hname, herror⟩ := refused (by decide)
  obtain rfl : name = "clip" := Option.some.inj (hname.symm.trans (by decide))
  exact ⟨own, ⟨a, hload, hparams⟩, herror⟩

/-- It is not so that whatever is discovered in a form can be loaded again. -/
theorem not_discovery_always_reloads :
    ¬ ∀ (document : Json) (form : FormDefinition) (config : ActionConfig),
      FormDefinition.record.decode document = .ok form → config.servicesFor? actionId = none →
      ∃ a, (Batch.defaultRegistry config).load actionId (discover form config).toJson = .ok a ∧
        Action.params a = discover form config := by
  intro reloads
  let row (type name : String) : Json :=
    .ofEntries [("type", .string type), ("name", .string name)]
  let document : Json := .ofEntries [("survey", .array [row "begin_group" "first",
    row "audio" "clip", row "begin_group" "second", row "audio" "clip"])]
  let form : FormDefinition := ⟨[.named "begin_group" "first", .named "audio" "clip",
    .named "begin_group" "second", .named "audio" "clip"]⟩
  have read : FormDefinition.record.decode document = .ok form := rfl
  obtain ⟨a, hload, -⟩ := reloads document form .default read rfl
  have hrepeat : firstRepeat? (discover form .default).values = some "clip" := by decide
  rw [load_defaultRegistry,
    load_of_ofJson_error (ActionParams.ofJson_toJson_of_firstRepeat? hrepeat)] at hload
  cases hload

end TranscriptionAction

end SubmissionAnnotation
