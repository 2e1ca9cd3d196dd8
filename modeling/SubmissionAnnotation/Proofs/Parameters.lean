import SubmissionAnnotation.Proofs.Reading
import SubmissionAnnotation.Proofs.Records
import SubmissionAnnotation.Proofs.Session

/-!
# The parameters that an action holds

What an action has loaded is what the record that it accepted last lists, whatever it was
made from, whatever it accepted before and whatever it refused since. The lists of an
accepted record have no repeats, so making sets of them loses nothing, and the parameters
can be written down and loaded again; and no two slots of the matrix share a key.
-/
namespace SubmissionAnnotation

namespace ActionParams

variable {p : ActionParams} {members : OrderedMap Json} {action key : String} {stored : Json}

theorem readMember_of_ne {name : String} {v : Json} (hv : name ≠ valuesKey)
    (hs : name ≠ servicesKey) : record.readMember (name, v) = .ok id := by
  simp [Record.readMember, Record.field?, record, Field.needed, Field.defaulted,
    Ne.symm hv, Ne.symm hs]

theorem readMember_eq_ok {entry : String × Json} {change : ActionParams → ActionParams}
    (h : record.readMember entry = .ok change) :
    (∃ xs, entry = (valuesKey, .ofStrings xs) ∧ change = fun p => { p with values := xs }) ∨
    (∃ xs, entry = (servicesKey, .ofStrings xs) ∧ change = fun p => { p with services := xs }) ∨
    (entry.1 ≠ valuesKey ∧ entry.1 ≠ servicesKey ∧ change = id) := by
  obtain ⟨name, v⟩ := entry
  by_cases hv : name = valuesKey
  · subst hv
    have hread : record.readMember (valuesKey, v) =
        ((Codec.list .string).decode v).map fun xs p => { p with values := xs } := rfl
    rw [hread, map_eq_ok_iff] at h
    obtain ⟨xs, hd, rfl⟩ := h
    rw [Codec.decode_strings_eq_ok_iff.mp hd]
    exact Or.inl ⟨xs, rfl, rfl⟩
  · by_cases hs : name = servicesKey
    · subst hs
      have hread : record.readMember (servicesKey, v) =
          ((Codec.list .string).decode v).map fun xs p => { p with services := xs } := rfl
      rw [hread, map_eq_ok_iff] at h
      obtain ⟨xs, hd, rfl⟩ := h
      rw [Codec.decode_strings_eq_ok_iff.mp hd]
      exact Or.inr (Or.inl ⟨xs, rfl, rfl⟩)
    · exact Or.inr (Or.inr ⟨hv, hs, (Except.ok.inj ((readMember_of_ne hv hs).symm.trans h)).symm⟩)

/-- Entries list these strings under a key, where no entry under it is an empty list. -/
def Lists (entries : List (String × Json)) (key : String) (items : List String) : Prop :=
  (key, .ofStrings items) ∈ entries ∨ key ∉ entries.map Prod.fst ∧ items = []

theorem lists_concat {entries : List (String × Json)} {items : List String} :
    Lists (entries ++ [(key, .ofStrings items)]) key items :=
  Or.inl (by simp)

theorem Lists.concat_of_ne {entries : List (String × Json)} {items : List String}
    (h : Lists entries key items) {entry : String × Json} (hne : entry.1 ≠ key) :
    Lists (entries ++ [entry]) key items := by
  rcases h with h | ⟨hkey, rfl⟩
  · exact Or.inl (List.mem_append_left _ h)
  · exact Or.inr ⟨by simp [hkey, hne.symm], rfl⟩

/-- The fields and services are those that an object lists; only services may be left out. -/
structure ListedIn (p : ActionParams) (members : OrderedMap Json) : Prop where
  values : (valuesKey, .ofStrings p.values) ∈ members.entries
  services : Lists members.entries servicesKey p.services

theorem contains_valuesKey_of_decode (h : record.decode (.object members) = .ok p) :
    members.contains valuesKey = true := by
  obtain ⟨-, -, hm, -⟩ := Record.decode_object_eq_ok_iff.mp h
  exact OrderedMap.mem_keys_iff.mp (Record.missing?_eq_none_iff.mp hm _ List.mem_cons_self rfl)

theorem listedIn_of_decode (h : record.decode (.object members) = .ok p) :
    p.ListedIn members := by
  have hfound : valuesKey ∈ members.keys :=
    OrderedMap.mem_keys_iff.mpr (contains_valuesKey_of_decode h)
  have hlists : Lists members.entries valuesKey p.values ∧
      Lists members.entries servicesKey p.services := by
    refine Record.decode_induction
      (P := fun seen p => Lists seen valuesKey p.values ∧ Lists seen servicesKey p.services)
      ⟨Or.inr ⟨nofun, rfl⟩, Or.inr ⟨nofun, rfl⟩⟩ ?_ h
    intro seen entry change p _ hread ⟨hv, hs⟩
    rcases readMember_eq_ok hread with ⟨xs, rfl, rfl⟩ | ⟨xs, rfl, rfl⟩ | ⟨hne, hne', rfl⟩
    · exact ⟨lists_concat, hs.concat_of_ne (show valuesKey ≠ servicesKey by decide)⟩
    · exact ⟨hv.concat_of_ne (show servicesKey ≠ valuesKey by decide), lists_concat⟩
    · exact ⟨hv.concat_of_ne hne, hs.concat_of_ne hne'⟩
  exact ⟨hlists.1.resolve_right fun hno => hno.1 hfound, hlists.2⟩

theorem checkDistinct_eq_ok_iff {items : List String} :
    checkDistinct action key items = .ok () ↔ items.Nodup := by
  rw [← firstRepeat?_eq_none_iff, checkDistinct]
  cases firstRepeat? items <;> simp

theorem ofJson_of_decode (h : record.decode (.object members) = .ok p) :
    ofJson action (.object members) = do
      checkDistinct action valuesKey p.values
      checkDistinct action servicesKey p.services
      return p := by
  simp [ofJson, contains_valuesKey_of_decode h, h]

theorem checkDistinct_of_firstRepeat? {items : List String} {name : String}
    (h : firstRepeat? items = some name) :
    checkDistinct action key items = .error (.malformedParameters action
      ("'" ++ key ++ "' lists '" ++ name ++ "' more than once")) := by
  simp [checkDistinct, h]

theorem ofJson_of_values_repeat {name : String} (h : record.decode (.object members) = .ok p)
    (hname : firstRepeat? p.values = some name) :
    ofJson action (.object members) = .error (.malformedParameters action
      ("'" ++ valuesKey ++ "' lists '" ++ name ++ "' more than once")) := by
  rw [ofJson_of_decode h, checkDistinct_of_firstRepeat? hname]
  rfl

theorem ofJson_of_services_repeat {name : String} (h : record.decode (.object members) = .ok p)
    (distinct : p.values.Nodup) (hname : firstRepeat? p.services = some name) :
    ofJson action (.object members) = .error (.malformedParameters action
      ("'" ++ servicesKey ++ "' lists '" ++ name ++ "' more than once")) := by
  rw [ofJson_of_decode h, checkDistinct_eq_ok_iff.mpr distinct, checkDistinct_of_firstRepeat? hname]
  rfl

theorem exists_decode_of_ofJson (h : ofJson action stored = .ok p) :
    ∃ members params, stored = .object members ∧ record.decode (.object members) = .ok params := by
  cases stored with
  | object members =>
    cases hd : record.decode (.object members) with
    | ok params => exact ⟨members, params, rfl, hd⟩
    | error e =>
      cases hc : members.contains valuesKey <;>
        simp [ofJson, hc, hd, bind, Except.bind, throw, throwThe, MonadExceptOf.throw] at h
  | _ => cases h

theorem ofJson_eq_ok_iff :
    ofJson action stored = .ok p ↔
      (∃ members, stored = .object members ∧ record.decode (.object members) = .ok p) ∧
        p.values.Nodup ∧ p.services.Nodup := by
  constructor
  · intro h
    obtain ⟨members, params, rfl, hd⟩ := exists_decode_of_ofJson h
    rw [ofJson_of_decode hd] at h
    obtain ⟨_, hv, h⟩ := bind_eq_ok_iff.mp h
    obtain ⟨_, hs, h⟩ := bind_eq_ok_iff.mp h
    obtain rfl : params = p := Except.ok.inj h
    exact ⟨⟨members, rfl, hd⟩, checkDistinct_eq_ok_iff.mp hv, checkDistinct_eq_ok_iff.mp hs⟩
  · rintro ⟨⟨members, rfl, hd⟩, hv, hs⟩
    rw [ofJson_of_decode hd, checkDistinct_eq_ok_iff.mpr hv, checkDistinct_eq_ok_iff.mpr hs]
    rfl

theorem lawful_record : record.codec.Lawful := fun _ =>
  Record.readsBack_of_fields (by decide) (by simp [record]) (by simp [record]) (by simp [record])

theorem ofJson_toJson (hv : p.values.Nodup) (hs : p.services.Nodup) :
    ofJson action p.toJson = .ok p :=
  ofJson_eq_ok_iff.mpr ⟨⟨_, rfl, lawful_record p⟩, hv, hs⟩

end ActionParams

namespace TranscriptionAction

variable {config : ActionConfig} {a b loaded : TranscriptionAction} {stored : Json}

theorem load_congr (hd : a.destination = b.destination) (hl : a.labelLanguage = b.labelLanguage)
    (stored : Json) : a.load stored = b.load stored := by
  obtain ⟨_, _, fields, services⟩ := a
  obtain ⟨_, _, fields', services'⟩ := b
  subst hd hl
  change Except.map _ (loadParams _ stored).1 = Except.map _ (loadParams _ stored).1
  unfold loadParams
  cases ActionParams.ofJson actionId stored with
  | error e => rfl
  | ok params =>
    dsimp only
    split <;> rfl

/-- An action of a configuration with the parameters of the record, or with none. -/
def Made (config : ActionConfig) : Option Json → TranscriptionAction → Prop
  | none, a => a = .unloaded config
  | some stored, a => ActionKind.ofParams stored config = .ok a

namespace Made

variable {last : Option Json}

theorem config_eq (h : Made config last a) :
    a.destination = config.destinationField ∧ a.labelLanguage = config.labelLanguage := by
  cases last with
  | none =>
    obtain rfl := h
    exact ⟨rfl, rfl⟩
  | some stored =>
    obtain ⟨params, -, rfl, -⟩ := load_eq_ok_iff.mp h
    exact ⟨rfl, rfl⟩

theorem load_eq (h : Made config last a) (stored : Json) :
    a.load stored = ActionKind.ofParams stored config :=
  load_congr h.config_eq.1 h.config_eq.2 stored

theorem load (h : Made config last a) (hl : a.load stored = .ok loaded) :
    Made config (some stored) loaded :=
  (h.load_eq stored).symm.trans hl

theorem keys_nodup (h : Made config last a) : a.matrix.keys.Nodup := by
  cases last with
  | none =>
    obtain rfl := h
    exact List.nodup_nil
  | some stored => exact IsLoaded.keys_nodup ⟨_, stored, h⟩

end Made

/-- Lists that repeat nothing become sets without a loss. -/
theorem params_of_load (h : a.load stored = .ok loaded) :
    ActionParams.ofJson actionId stored = .ok loaded.params := by
  obtain ⟨params, hp, rfl, -⟩ := load_eq_ok_iff.mp h
  obtain ⟨-, hv, hs⟩ := ActionParams.ofJson_eq_ok_iff.mp hp
  rw [hp]
  simp [TranscriptionAction.params, OrderedSet.items_ofList_of_nodup, hv, hs]

theorem listedIn_of_load (h : a.load stored = .ok loaded) :
    ∃ members, stored = .object members ∧ loaded.params.ListedIn members := by
  obtain ⟨⟨members, rfl, hd⟩, -, -⟩ := ActionParams.ofJson_eq_ok_iff.mp (params_of_load h)
  exact ⟨members, rfl, ActionParams.listedIn_of_decode hd⟩

theorem load_params (h : a.matrix.keys.Nodup) : a.load a.params.toJson = .ok a := by
  have hsets : a = { a with
      fields := .ofList a.params.values, services := .ofList a.params.services } := by
    have hf : OrderedSet.ofList a.params.values = a.fields :=
      OrderedSet.ext (OrderedSet.items_ofList_of_nodup a.fields.nodup)
    have hs : OrderedSet.ofList a.params.services = a.services :=
      OrderedSet.ext (OrderedSet.items_ofList_of_nodup a.services.nodup)
    rw [hf, hs]
  exact load_eq_ok_iff.mpr ⟨a.params, ActionParams.ofJson_toJson a.fields.nodup a.services.nodup,
    hsets, FieldServiceMatrix.duplicateKey?_eq_none_iff.mpr h⟩

end TranscriptionAction

namespace Session

open TranscriptionAction (Made clipRequested)

variable {σ : Session} {config : ActionConfig} {last : Option Json}

def loaded? (σ : Session) : Step → Option Json
  | .load stored => if (σ.action.load stored).isOk then some stored else none
  | _ => none

def loads : Session → List Step → List Json
  | _, [] => []
  | σ, first :: rest => (σ.loaded? first).toList ++ loads (σ.step first) rest

theorem action_step_load_of_ok {stored : Json} {loaded : TranscriptionAction}
    (h : σ.action.load stored = .ok loaded) : (σ.step (.load stored)).action = loaded :=
  congrArg Prod.snd (Action.load_eq_ok_iff.mp h)

theorem action_step_load_of_error {stored : Json} {e : ActionError}
    (h : σ.action.load stored = .error e) : (σ.step (.load stored)).action = σ.action :=
  TranscriptionAction.loadParams_of_error (Action.load_eq_error_iff.mp h)

theorem made_step (h : Made config last σ.action) (step : Step) :
    Made config ((σ.loaded? step).or last) (σ.step step).action := by
  cases step with
  | load stored =>
    cases hl : σ.action.load stored with
    | error e =>
      rw [action_step_load_of_error hl]
      simpa [loaded?, hl, Except.isOk, Except.toBool] using h
    | ok loaded =>
      rw [action_step_load_of_ok hl]
      simpa [loaded?, hl, Except.isOk, Except.toBool] using h.load hl
  | change => exact h
  | record field service input now => exact h
  | request key =>
    rw [action_step rfl]
    exact h

theorem made_run (h : Made config last σ.action) (steps : List Step) :
    Made config ((σ.loads steps).getLast?.or last) (σ.run steps).action := by
  induction steps generalizing σ last with
  | nil => exact h
  | cons first rest ih =>
    have hlast : ((σ.loads (first :: rest)).getLast?.or last) =
        (((σ.step first).loads rest).getLast?.or ((σ.loaded? first).or last)) := by
      rw [loads, List.getLast?_append, Option.or_assoc]
      cases σ.loaded? first <;> rfl
    rw [hlast, run_cons]
    exact ih (made_step h first)

/-- Along every run of an action that was made new or from a record, its parameters are
the lists of the record that was accepted last, in their order, and empty before any was
accepted; a record that is refused changes nothing. The lists repeat nothing, no two
slots share a key, and the parameters as they are written down would be accepted again
and change nothing. -/
theorem params_exact_run (σ : Session) (config : ActionConfig) (origin : Option Json)
    (made : Made config origin σ.action) (steps : List Step) :
    let τ := σ.run steps
    let last := (σ.loads steps).getLast?.or origin
    (last = none → τ.action.params = ⟨[], []⟩) ∧
    (∀ stored, last = some stored →
      ∃ members, stored = .object members ∧ τ.action.params.ListedIn members) ∧
    (∀ stored e, τ.action.load stored = .error e →
      (τ.step (.load stored)).action = τ.action) ∧
    τ.action.params.values.Nodup ∧ τ.action.params.services.Nodup ∧
    τ.action.matrix.keys.Nodup ∧
    (∀ p ∈ τ.action.matrix.pairs, ∀ q ∈ τ.action.matrix.pairs, p.key = q.key →
      p.field = q.field ∧ p.service = q.service) ∧
    τ.action.load τ.action.params.toJson = .ok τ.action := by
  intro τ last
  have hmade : Made config last τ.action := made_run made steps
  have hkeys : τ.action.matrix.keys.Nodup := hmade.keys_nodup
  refine ⟨?_, ?_, ?_, τ.action.fields.nodup, τ.action.services.nodup, hkeys, ?_,
    TranscriptionAction.load_params hkeys⟩
  · intro hnone
    rw [hnone] at hmade
    have h : τ.action = .unloaded config := hmade
    rw [h]
    rfl
  · intro stored hsome
    rw [hsome] at hmade
    exact TranscriptionAction.listedIn_of_load hmade
  · intro stored e he
    exact action_step_load_of_error he
  · intro p hp q hq hk
    obtain rfl := FieldServiceMatrix.eq_of_key_eq hkeys hp hq hk
    exact ⟨rfl, rfl⟩

/-- Parameters are loaded; then others are refused whose slots would share a key. -/
theorem params_exact_run_colliding :
    let config : ActionConfig := ⟨"details", "en", .empty⟩
    let σ : Session := ⟨.unloaded config, clipRequested, .empty⟩
    let kept : Json := .ofEntries [("values", .ofStrings ["clip", "talk"])]
    let colliding : Json := ActionParams.toJson ⟨["a", "a_transcription"], ["transcription_b", "b"]⟩
    let τ := σ.run [.load kept, .change, .load colliding]
    Made config none σ.action ∧
      (σ.loads [.load kept, .change, .load colliding]).getLast?.or none = some kept ∧
      (∃ members, kept = .object members ∧ τ.action.params.ListedIn members) ∧
      (∃ e, τ.action.load colliding = .error e) ∧
      (τ.step (.load colliding)).action = τ.action ∧
      τ.action.load τ.action.params.toJson = .ok τ.action := by
  intro config σ kept colliding τ
  have made : Made config none σ.action := rfl
  obtain ⟨-, listed, refused, -, -, -, -, again⟩ :=
    params_exact_run σ config none made [.load kept, .change, .load colliding]
  have hlast : (σ.loads [.load kept, .change, .load colliding]).getLast?.or none = some kept := rfl
  have hrefused : ∃ e, τ.action.load colliding = .error e := ⟨_, rfl⟩
  obtain ⟨e, he⟩ := hrefused
  exact ⟨made, hlast, listed kept hlast, ⟨e, he⟩, refused colliding e he, again⟩

end Session

end SubmissionAnnotation
