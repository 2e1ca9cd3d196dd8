import Mathlib.Data.List.Nodup
import SubmissionAnnotation.Proofs.Recording

/-!
# What loading makes sure of

Slot keys are joined without escaping, so two slots of a matrix may share one.
Loading looks for a key that comes up again and refuses the parameters if there is
one. In the matrix of a loaded action a key therefore belongs to one slot only, and
what is written under it concerns no other slot.
-/
namespace SubmissionAnnotation

namespace FieldServiceMatrix

variable {m : FieldServiceMatrix} {p q : FieldServicePair}

theorem duplicateKey?_eq_none_iff : m.duplicateKey? = none ↔ m.keys.Nodup :=
  firstRepeat?_eq_none_iff

theorem eq_of_key_eq (distinct : m.keys.Nodup) (hp : p ∈ m.pairs) (hq : q ∈ m.pairs)
    (h : p.key = q.key) : p = q :=
  List.inj_on_of_nodup_map distinct hp hq h

end FieldServiceMatrix

namespace TranscriptionAction

variable {a loaded : TranscriptionAction} {record : Json} {p q : FieldServicePair}

/-- The ways in which loading a record can go: the record cannot be read, two slots would share a
key, or the sets of the fields and services that it lists take the place of the old ones. -/
theorem loadParams_cases (a : TranscriptionAction) (record : Json) :
    (∃ e, ActionParams.ofJson actionId record = .error e ∧ a.loadParams record = (.error e, a)) ∨
    ∃ params loaded, ActionParams.ofJson actionId record = .ok params ∧
      loaded = { a with fields := .ofList params.values, services := .ofList params.services } ∧
      ((∃ key, loaded.matrix.duplicateKey? = some key ∧
        a.loadParams record = (.error (.malformedParameters actionId
          ("fields and services map more than one pair to '" ++ key ++ "'")), a)) ∨
      loaded.matrix.duplicateKey? = none ∧ a.loadParams record = (.ok (), loaded)) := by
  cases hp : ActionParams.ofJson actionId record with
  | error e => exact Or.inl ⟨e, rfl, by simp [loadParams, hp]⟩
  | ok params =>
    refine Or.inr ⟨params, _, rfl, rfl, ?_⟩
    cases hk : (FieldServiceMatrix.generate (.ofList params.values) (.ofList params.services)
        keyJoiner).duplicateKey? with
    | some key => exact Or.inl ⟨key, hk, by simp [loadParams, hp, hk]⟩
    | none => exact Or.inr ⟨hk, by simp [loadParams, hp, hk]⟩

/-- A record that is refused leaves the action as it was. -/
theorem loadParams_of_error {e : ActionError} (h : (a.loadParams record).1 = .error e) :
    (a.loadParams record).2 = a := by
  rcases a.loadParams_cases record with
    ⟨_, -, hl⟩ | ⟨params, loaded, -, -, ⟨key, -, hl⟩ | ⟨-, hl⟩⟩
  · rw [hl]
  · rw [hl]
  · rw [hl] at h
    cases h

theorem load_eq_ok_iff :
    a.load record = .ok loaded ↔ ∃ params, ActionParams.ofJson actionId record = .ok params ∧
      loaded = { a with fields := .ofList params.values, services := .ofList params.services } ∧
      loaded.matrix.duplicateKey? = none := by
  rw [load, Action.load_eq_ok_iff]
  change a.loadParams record = _ ↔ _
  rcases a.loadParams_cases record with
    ⟨e, hp, hl⟩ | ⟨params, next, hp, hn, ⟨key, hk, hl⟩ | ⟨hk, hl⟩⟩
  · simp [hp, hl]
  · rw [hl]
    refine ⟨nofun, ?_⟩
    rintro ⟨params', hp', rfl, hk'⟩
    cases hp.symm.trans hp'
    rw [← hn] at hk'
    cases hk.symm.trans hk'
  · rw [hl]
    constructor
    · intro h
      cases h
      exact ⟨params, hp, hn, hk⟩
    · rintro ⟨params', hp', rfl, -⟩
      cases hp.symm.trans hp'
      rw [hn]

theorem destination_loadParams (a : TranscriptionAction) (record : Json) :
    (a.loadParams record).2.destination = a.destination := by
  rcases a.loadParams_cases record with
    ⟨_, -, hl⟩ | ⟨params, loaded, -, rfl, ⟨key, -, hl⟩ | ⟨-, hl⟩⟩ <;>
  rw [hl]

theorem destination_of_load (h : a.load record = .ok loaded) :
    loaded.destination = a.destination := by
  obtain ⟨params, -, rfl, -⟩ := load_eq_ok_iff.mp h
  rfl

/-- An action that took its parameters from a stored record. -/
def IsLoaded (a : TranscriptionAction) : Prop :=
  ∃ (old : TranscriptionAction) (record : Json), old.load record = .ok a

theorem IsLoaded.keys_nodup (h : a.IsLoaded) : a.matrix.keys.Nodup := by
  obtain ⟨old, record, h⟩ := h
  obtain ⟨params, -, -, hk⟩ := load_eq_ok_iff.mp h
  exact FieldServiceMatrix.duplicateKey?_eq_none_iff.mp hk

theorem IsLoaded.eq_of_key_eq (h : a.IsLoaded) (hp : p ∈ a.matrix.pairs) (hq : q ∈ a.matrix.pairs)
    (hk : p.key = q.key) : p = q :=
  FieldServiceMatrix.eq_of_key_eq h.keys_nodup hp hq hk

end TranscriptionAction

end SubmissionAnnotation
