import SubmissionAnnotation.Proofs.DistinctKeys
import SubmissionAnnotation.Proofs.Parameters
import SubmissionAnnotation.Proofs.SlotKeys

/-!
# Which stored records are accepted

Loading asks five things of a record, one after the other: that it is an object, that it has
fields, that fields and services are lists of texts, that neither repeats an entry, and that
no key comes up twice in the matrix that the two make. Together they come to one condition
on what stands under two keys of the record. Everything else is refused as malformed, in the
name of the action, and nothing else that stands in the record matters.
-/
namespace SubmissionAnnotation

theorem Json.ofStrings_injective : Function.Injective Json.ofStrings := by
  intro xs ys h
  exact List.map_injective_iff.mpr (fun _ _ => Json.string.inj) (Json.array.inj h)

namespace FieldServiceMatrix

variable {fields services : OrderedSet} {joiner : String}

theorem nodup_keys_generate_iff :
    (generate fields services joiner).keys.Nodup ↔
      ∀ field ∈ fields.items, ∀ service ∈ servicesOf services,
        ∀ field' ∈ fields.items, ∀ service' ∈ servicesOf services,
          pairKey field service joiner = pairKey field' service' joiner →
            field = field' ∧ service = service' := by
  constructor
  · intro distinct field hf service hs field' hf' service' hs' hkey
    have hp := mem_generate_iff (p := .ofNames field service joiner).mpr ⟨hf, hs, rfl⟩
    have hq := mem_generate_iff (p := .ofNames field' service' joiner).mpr ⟨hf', hs', rfl⟩
    have h := eq_of_key_eq distinct hp hq hkey
    exact ⟨congrArg FieldServicePair.field h, congrArg FieldServicePair.service h⟩
  · intro injective
    refine List.Nodup.map_on ?_ (nodup_pairs_generate fields services joiner)
    intro p hp q hq hkey
    obtain ⟨hf, hs, hpn⟩ := mem_generate_iff.mp hp
    obtain ⟨hf', hs', hqn⟩ := mem_generate_iff.mp hq
    rw [hpn, hqn] at hkey
    obtain ⟨hfield, hservice⟩ := injective _ hf _ hs _ hf' _ hs' hkey
    rw [hpn, hqn, hfield, hservice]

end FieldServiceMatrix

namespace ActionParams

variable {p q : ActionParams} {members : OrderedMap Json} {action key : String} {stored : Json}
  {e : ActionError}

/-- What stands under the two keys of a record: a list of fields, and a list of
services or nothing. -/
structure StatedIn (p : ActionParams) (members : OrderedMap Json) : Prop where
  values : members.get? valuesKey = some (.ofStrings p.values)
  services : members.get? servicesKey = some (.ofStrings p.services) ∨
    members.get? servicesKey = none ∧ p.services = []

theorem StatedIn.eq (h : p.StatedIn members) (h' : q.StatedIn members) : p = q := by
  have values : p.values = q.values :=
    Json.ofStrings_injective (Option.some.inj (h.values.symm.trans h'.values))
  have services : p.services = q.services := by
    rcases h.services with hs | ⟨hs, hnil⟩ <;> rcases h'.services with hs' | ⟨hs', hnil'⟩
    · exact Json.ofStrings_injective (Option.some.inj (hs.symm.trans hs'))
    · cases hs.symm.trans hs'
    · cases hs.symm.trans hs'
    · rw [hnil, hnil']
  cases p
  cases q
  exact mk.injEq .. ▸ ⟨values, services⟩

theorem ListedIn.statedIn (distinct : members.keys.Nodup) (h : p.ListedIn members) :
    p.StatedIn members where
  values := (OrderedMap.mem_entries_iff distinct).mp h.values
  services := by
    rcases h.services with hs | ⟨hs, hnil⟩
    · exact Or.inl ((OrderedMap.mem_entries_iff distinct).mp hs)
    · exact Or.inr ⟨OrderedMap.get?_eq_none_iff.mpr hs, hnil⟩

theorem readMember_of_statedIn (h : p.StatedIn members) {entry : String × Json}
    (stands : members.get? entry.1 = some entry.2) :
    ∃ change, record.readMember entry = .ok change := by
  obtain ⟨name, v⟩ := entry
  by_cases hv : name = valuesKey
  · subst hv
    obtain rfl : v = .ofStrings p.values := Option.some.inj (stands.symm.trans h.values)
    exact ⟨_, map_eq_ok_iff.mpr ⟨_, Codec.decode_strings_eq_ok_iff.mpr rfl, rfl⟩⟩
  · by_cases hs : name = servicesKey
    · subst hs
      obtain rfl : v = .ofStrings p.services := by
        rcases h.services with hs | ⟨hs, -⟩
        · exact Option.some.inj (stands.symm.trans hs)
        · cases stands.symm.trans hs
      exact ⟨_, map_eq_ok_iff.mpr ⟨_, Codec.decode_strings_eq_ok_iff.mpr rfl, rfl⟩⟩
    · exact ⟨id, readMember_of_ne hv hs⟩

theorem decode_eq_ok_iff (distinct : members.keys.Nodup) :
    record.decode (.object members) = .ok p ↔ p.StatedIn members := by
  constructor
  · intro h
    exact (listedIn_of_decode h).statedIn distinct
  · intro h
    have readable : ∀ entry ∈ members.entries, ∃ change, record.readMember entry = .ok change :=
      fun entry he => readMember_of_statedIn h ((OrderedMap.mem_entries_iff distinct).mp he)
    have complete : ∀ f ∈ record.fields, f.required = true → f.name ∈ members.keys := by
      have hvalues : valuesKey ∈ members.keys := OrderedMap.mem_keys_of_get?_eq h.values
      exact List.forall_mem_cons.mpr ⟨fun _ => hvalues, List.forall_mem_singleton.mpr nofun⟩
    obtain ⟨q, hq⟩ := Record.exists_decode_of_readable readable complete
    rw [hq, h.eq ((listedIn_of_decode hq).statedIn distinct)]

/-- A field and a service that has a slot for the field. -/
def Combines (p : ActionParams) (field service : String) : Prop :=
  field ∈ p.values ∧ (service = manualService ∨ service ∈ p.services)

/-- Fields and services that repeat nothing, and whose slots have different keys. -/
structure Legal (p : ActionParams) : Prop where
  values : p.values.Nodup
  services : p.services.Nodup
  keys : ∀ field service field' service', p.Combines field service →
    p.Combines field' service' →
      pairKey field service TranscriptionAction.keyJoiner =
        pairKey field' service' TranscriptionAction.keyJoiner →
      (field, service) = (field', service')

theorem legal_iff :
    p.Legal ↔ p.values.Nodup ∧ p.services.Nodup ∧
      (FieldServiceMatrix.generate (.ofList p.values) (.ofList p.services)
        TranscriptionAction.keyJoiner).duplicateKey? = none := by
  rw [FieldServiceMatrix.duplicateKey?_eq_none_iff, FieldServiceMatrix.nodup_keys_generate_iff]
  simp only [FieldServiceMatrix.mem_servicesOf, OrderedSet.mem_items_ofList]
  constructor
  · rintro ⟨hv, hs, hkeys⟩
    refine ⟨hv, hs, fun field hf service hs field' hf' service' hs' h => ?_⟩
    exact Prod.mk.inj (hkeys field service field' service' ⟨hf, hs⟩ ⟨hf', hs'⟩ h)
  · rintro ⟨hv, hs, hkeys⟩
    refine ⟨hv, hs, fun field service field' service' h h' hkey => ?_⟩
    obtain ⟨rfl, rfl⟩ := hkeys field h.1 service h.2 field' h'.1 service' h'.2 hkey
    rfl

theorem malformed_of_checkDistinct {items : List String}
    (h : checkDistinct action key items = .error e) :
    ∃ reason, e = .malformedParameters action reason := by
  unfold checkDistinct at h
  split at h
  · cases h
  · exact ⟨_, (Except.error.inj h).symm⟩

theorem malformed_of_ofJson (h : ofJson action stored = .error e) :
    ∃ reason, e = .malformedParameters action reason := by
  cases stored with
  | object members =>
    unfold ofJson at h
    dsimp only at h
    split at h
    · exact ⟨_, (Except.error.inj h).symm⟩
    split at h
    · exact ⟨_, (Except.error.inj h).symm⟩
    rcases bind_eq_error_iff.mp h with h | ⟨_, -, h⟩
    · exact malformed_of_checkDistinct h
    rcases bind_eq_error_iff.mp h with h | ⟨_, -, h⟩
    · exact malformed_of_checkDistinct h
    · cases h
  | _ => exact ⟨_, (Except.error.inj h).symm⟩

end ActionParams

namespace TranscriptionAction

variable {a : TranscriptionAction} {p : ActionParams} {stored : Json} {e : ActionError}

theorem malformed_of_load (h : a.load stored = .error e) :
    ∃ reason, e = .malformedParameters actionId reason := by
  have he : (a.loadParams stored).1 = .error e := Action.load_eq_error_iff.mp h
  rcases a.loadParams_cases stored with
    ⟨_, hp, hl⟩ | ⟨params, loaded, -, -, ⟨key, -, hl⟩ | ⟨-, hl⟩⟩
  · rw [hl] at he
    cases he
    exact ActionParams.malformed_of_ofJson hp
  · rw [hl] at he
    exact ⟨_, (Except.error.inj he).symm⟩
  · rw [hl] at he
    cases he

/-- A record in which no key comes twice is loaded exactly if it is legal: it is an object with a
list of different fields under `values`, and under `services` a list of different services or
nothing, and different combinations of a field with a service or the entry by hand have different
slot keys. Then these are the fields and services of the action; nothing else in the record
matters. All other records are refused as malformed parameters of the action. -/
theorem load_accepts_exactly_legal (a : TranscriptionAction) {stored : Json}
    (distinct : stored.DistinctKeys) :
    (∀ loaded, a.load stored = .ok loaded ↔
      ∃ (members : OrderedMap Json) (p : ActionParams),
        stored = .object members ∧ p.StatedIn members ∧ p.Legal ∧
          loaded = { a with fields := .ofList p.values, services := .ofList p.services }) ∧
    ∀ e, a.load stored = .error e → ∃ reason, e = .malformedParameters "transcript" reason := by
  refine ⟨fun loaded => ?_, fun e => malformed_of_load⟩
  rw [load_eq_ok_iff]
  constructor
  · rintro ⟨p, hp, rfl, hkeys⟩
    obtain ⟨⟨members, rfl, hd⟩, hv, hs⟩ := ActionParams.ofJson_eq_ok_iff.mp hp
    have stated := (ActionParams.decode_eq_ok_iff distinct.keys_nodup).mp hd
    exact ⟨members, p, rfl, stated, ActionParams.legal_iff.mpr ⟨hv, hs, hkeys⟩, rfl⟩
  · rintro ⟨members, p, rfl, stated, legal, rfl⟩
    obtain ⟨hv, hs, hkeys⟩ := ActionParams.legal_iff.mp legal
    have hd := (ActionParams.decode_eq_ok_iff distinct.keys_nodup).mpr stated
    exact ⟨p, ActionParams.ofJson_eq_ok_iff.mpr ⟨⟨members, rfl, hd⟩, hv, hs⟩, rfl, hkeys⟩

/-- A record with another member and the service `manual` is loaded. One with two services
is refused, where the field `a` with one of them and the field `a_transcription` with the
other have one key. -/
theorem load_accepts_exactly_legal_colliding :
    let a : TranscriptionAction := .unloaded .default
    let kept : Json := .ofEntries [("note", .null), ("services", .ofStrings ["manual", "acme"]),
      ("values", .ofStrings ["clip", "talk"])]
    let colliding : Json := .ofEntries [("values", .ofStrings ["a", "a_transcription"]),
      ("services", .ofStrings ["transcription_b", "b"])]
    kept.DistinctKeys ∧ colliding.DistinctKeys ∧
      (∃ loaded, a.load kept = .ok loaded ∧
        loaded.params = ⟨["clip", "talk"], ["manual", "acme"]⟩) ∧
      ∃ reason, a.load colliding = .error (.malformedParameters "transcript" reason) := by
  intro a kept colliding
  have hkept : kept.DistinctKeys := by simp [kept]
  have hcolliding : colliding.DistinctKeys := by simp [colliding]
  obtain ⟨accepted, -⟩ := load_accepts_exactly_legal a hkept
  obtain ⟨refused, malformed⟩ := load_accepts_exactly_legal a hcolliding
  refine ⟨hkept, hcolliding, ?_, ?_⟩
  · have legal : ActionParams.Legal ⟨["clip", "talk"], ["manual", "acme"]⟩ :=
      ActionParams.legal_iff.mpr (by decide)
    exact ⟨_, (accepted _).mpr ⟨_, _, rfl, ⟨rfl, Or.inl rfl⟩, legal, rfl⟩, rfl⟩
  · cases h : a.load colliding with
    | ok loaded =>
      obtain ⟨members, p, hm, stated, legal, -⟩ := (refused loaded).mp h
      obtain rfl := Json.object.inj hm
      obtain rfl := stated.eq (q := ⟨["a", "a_transcription"], ["transcription_b", "b"]⟩)
        ⟨rfl, Or.inl rfl⟩
      have same := legal.keys "a" "transcription_b" "a_transcription" "b"
        ⟨by decide, by decide⟩ ⟨by decide, by decide⟩ (by decide)
      exact absurd same (by decide)
    | error e =>
      obtain ⟨reason, rfl⟩ := malformed e h
      exact ⟨reason, rfl⟩

end TranscriptionAction

end SubmissionAnnotation
