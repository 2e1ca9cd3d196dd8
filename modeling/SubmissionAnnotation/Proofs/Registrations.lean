import Mathlib.Data.List.Sort
import Mathlib.Data.String.Basic
import SubmissionAnnotation.Action.Bare
import SubmissionAnnotation.Batch

/-!
# What a registry stands for

A registry is filled by calls that register a kind of actions, a descriptor, or once more the
descriptor that stands under an identifier, under another one. Whatever was registered before,
under an identifier stands the descriptor that was registered last under it: a call is noticed
under the identifier that it is for and under no other. The listing of the identifiers,
lookup, loading and discovery all follow from that.
-/
namespace SubmissionAnnotation

inductive Registration where
  | kind (α : Type) [ActionKind α]
  | descriptor (d : ActionDescriptor)
  /-- What stands under `source`, under `id`; nothing is registered if nothing stands there. -/
  | copy (source id : String)

namespace Registration

def target : Registration → String
  | kind α => ActionKind.kindId α
  | descriptor d => d.id
  | copy _ id => id

/-- The descriptor that is registered, where `stands` says what stands under an identifier. -/
def descriptor? (stands : String → Option ActionDescriptor) : Registration → Option ActionDescriptor
  | kind α => some (.ofKind α)
  | descriptor d => some d
  | copy source id => (stands source).map fun d => { d with id }

theorem id_of_descriptor? {stands : String → Option ActionDescriptor} {call : Registration}
    {d : ActionDescriptor} (h : call.descriptor? stands = some d) : d.id = call.target := by
  cases call with
  | kind α => exact congrArg ActionDescriptor.id (Option.some.inj h).symm
  | descriptor own => exact congrArg ActionDescriptor.id (Option.some.inj h).symm
  | copy source id =>
    obtain ⟨copied, -, rfl⟩ := Option.map_eq_some_iff.mp h
    rfl

end Registration

def lastUnder (history : List ActionDescriptor) (id : String) : Option ActionDescriptor :=
  (history.filter fun d => d.id = id).getLast?

def recordCall (history : List ActionDescriptor) (call : Registration) : List ActionDescriptor :=
  history ++ (call.descriptor? (lastUnder history)).toList

def registered (calls : List Registration) : List ActionDescriptor :=
  calls.foldl recordCall []

section History

variable {history : List ActionDescriptor} {id : String} {d : ActionDescriptor}

theorem lastUnder_concat (history : List ActionDescriptor) (d : ActionDescriptor) (id : String) :
    lastUnder (history ++ [d]) id = if id = d.id then some d else lastUnder history id := by
  rw [lastUnder, List.filter_append]
  by_cases h : id = d.id
  · simp [h]
  · simp [h, Ne.symm h, lastUnder]

theorem id_of_lastUnder (h : lastUnder history id = some d) : d.id = id :=
  of_decide_eq_true (List.mem_filter.mp (List.mem_of_getLast? h)).2

theorem lastUnder_eq_none_iff :
    lastUnder history id = none ↔ id ∉ history.map ActionDescriptor.id := by
  simp [lastUnder]

end History

namespace ActionRegistry

variable {r after : ActionRegistry} {config : ActionConfig} {history : List ActionDescriptor}
  {id other : String} {d : ActionDescriptor} {call : Registration}

def perform (r : ActionRegistry) (call : Registration) : ActionRegistry :=
  match call.descriptor? r.get? with
  | some d => r.register d
  | none => r

def run (r : ActionRegistry) (calls : List Registration) : ActionRegistry :=
  calls.foldl perform r

theorem get?_register (r : ActionRegistry) (d : ActionDescriptor) (id : String) :
    (r.register d).get? id = if id = d.id then some d else r.get? id :=
  OrderedMap.get?_insert r.descriptors d.id id d

theorem get?_perform_of_ne (h : other ≠ call.target) (r : ActionRegistry) :
    (r.perform call).get? other = r.get? other := by
  unfold perform
  cases hd : call.descriptor? r.get? with
  | none => rfl
  | some d =>
    rw [← Registration.id_of_descriptor? hd] at h
    rw [get?_register, if_neg h]

theorem config_perform (r : ActionRegistry) (call : Registration) :
    (r.perform call).config = r.config := by
  unfold perform
  cases call.descriptor? r.get? <;> rfl

theorem contains_eq (r : ActionRegistry) (id : String) : r.contains id = (r.get? id).isSome := rfl

theorem mem_ids_iff : id ∈ r.ids ↔ r.contains id = true :=
  (List.mergeSort_perm _ _).mem_iff.trans OrderedMap.mem_keys_iff

theorem length_ids (r : ActionRegistry) : r.ids.length = r.size :=
  (List.mergeSort_perm _ _).length_eq.trans (List.length_map _)

theorem pairwise_ids (distinct : r.descriptors.keys.Nodup) : r.ids.Pairwise (· < ·) := by
  have sorted : r.ids.Pairwise (· ≤ ·) := List.pairwise_mergeSort' (· ≤ ·) r.descriptors.keys
  have nodup : r.ids.Nodup := (List.mergeSort_perm _ _).nodup_iff.mpr distinct
  exact (sorted.and nodup).imp fun ⟨hle, hne⟩ => lt_of_le_of_ne hle hne

theorem load_eq (r : ActionRegistry) (id : String) (params : Json) :
    r.load id params =
      match r.get? id with
      | some d => d.load params r.config
      | none => .error (.unknownAction id) := by
  rw [load, lookup]
  cases r.get? id <;> rfl

theorem buildParams_eq (r : ActionRegistry) (id : String) (form : FormDefinition) :
    r.buildParams id form =
      match r.get? id with
      | some d => .ok (d.discover form r.config)
      | none => .error (.unknownAction id) := by
  rw [buildParams, lookup]
  cases r.get? id <;> rfl

section OfKind

variable (r : ActionRegistry) (α : Type) [ActionKind α]

theorem get?_perform_kind :
    (r.perform (.kind α)).get? (ActionKind.kindId α) = some (.ofKind α) :=
  (get?_register r (.ofKind α) _).trans (if_pos rfl)

theorem load_perform_kind (params : Json) :
    (r.perform (.kind α)).load (ActionKind.kindId α) params =
      (ActionKind.ofParams params r.config : Except ActionError α).map fun a => ⟨α, a⟩ := by
  rw [load_eq, get?_perform_kind, config_perform]
  rfl

theorem buildParams_perform_kind (form : FormDefinition) :
    (r.perform (.kind α)).buildParams (ActionKind.kindId α) form =
      .ok (ActionKind.discover α form r.config) := by
  rw [buildParams_eq, get?_perform_kind, config_perform]
  rfl

end OfKind

/-- Two registries say the same of an identifier, and do the same for it. -/
structure AnswersAlike (r after : ActionRegistry) (id : String) : Prop where
  listed : id ∈ after.ids ↔ id ∈ r.ids
  contains : after.contains id = r.contains id
  get? : after.get? id = r.get? id
  load : ∀ params, after.load id params = r.load id params
  buildParams : ∀ form, after.buildParams id form = r.buildParams id form

theorem answersAlike_of_get? (hc : after.config = r.config) (hg : after.get? id = r.get? id) :
    AnswersAlike r after id where
  listed := by rw [mem_ids_iff, mem_ids_iff, contains_eq, contains_eq, hg]
  contains := by rw [contains_eq, contains_eq, hg]
  get? := hg
  load params := by rw [load_eq, load_eq, hg, hc]
  buildParams form := by rw [buildParams_eq, buildParams_eq, hg, hc]

namespace AnswersAlike

theorem refl (r : ActionRegistry) (id : String) : AnswersAlike r r id :=
  ⟨Iff.rfl, rfl, rfl, fun _ => rfl, fun _ => rfl⟩

theorem trans {last : ActionRegistry} (h : AnswersAlike r after id)
    (h' : AnswersAlike after last id) : AnswersAlike r last id where
  listed := h'.listed.trans h.listed
  contains := h'.contains.trans h.contains
  get? := h'.get?.trans h.get?
  load params := (h'.load params).trans (h.load params)
  buildParams form := (h'.buildParams form).trans (h.buildParams form)

end AnswersAlike

theorem answersAlike_perform (h : other ≠ call.target) (r : ActionRegistry) :
    AnswersAlike r (r.perform call) other :=
  answersAlike_of_get? (config_perform r call) (get?_perform_of_ne h r)

theorem answersAlike_run {calls : List Registration} (h : ∀ call ∈ calls, other ≠ call.target)
    (r : ActionRegistry) : AnswersAlike r (r.run calls) other := by
  induction calls generalizing r with
  | nil => exact .refl r other
  | cons call rest ih =>
    obtain ⟨hcall, hrest⟩ := List.forall_mem_cons.mp h
    exact (answersAlike_perform hcall r).trans (ih hrest (r.perform call))

/-- The registry of a configuration, after these descriptors were registered. -/
structure Holds (r : ActionRegistry) (config : ActionConfig) (history : List ActionDescriptor) :
    Prop where
  config_eq : r.config = config
  keys_nodup : r.descriptors.keys.Nodup
  get?_eq : ∀ id, r.get? id = lastUnder history id

theorem holds_ofConfig (config : ActionConfig) : Holds (ofConfig config) config [] :=
  ⟨rfl, List.nodup_nil, fun _ => rfl⟩

namespace Holds

theorem register (h : r.Holds config history) (d : ActionDescriptor) :
    (r.register d).Holds config (history ++ [d]) where
  config_eq := h.config_eq
  keys_nodup := OrderedMap.nodup_keys_insert h.keys_nodup d.id d
  get?_eq id := by rw [get?_register, lastUnder_concat, h.get?_eq]

theorem perform (h : r.Holds config history) (call : Registration) :
    (r.perform call).Holds config (recordCall history call) := by
  -- A copy is made of what stands in the registry, which is what was registered last.
  have stands : r.get? = lastUnder history := funext h.get?_eq
  rw [ActionRegistry.perform, recordCall, stands]
  cases call.descriptor? (lastUnder history) with
  | none => simpa using h
  | some d => exact h.register d

theorem run (h : r.Holds config history) (calls : List Registration) :
    (r.run calls).Holds config (calls.foldl recordCall history) := by
  induction calls generalizing r history with
  | nil => exact h
  | cons call rest ih => exact ih (h.perform call)

theorem get?_eq_none_iff (h : r.Holds config history) :
    r.get? id = none ↔ id ∉ history.map ActionDescriptor.id := by
  rw [h.get?_eq, lastUnder_eq_none_iff]

theorem mem_ids_iff (h : r.Holds config history) :
    id ∈ r.ids ↔ id ∈ history.map ActionDescriptor.id := by
  rw [ActionRegistry.mem_ids_iff, contains_eq, Option.isSome_iff_ne_none, ne_eq,
    h.get?_eq_none_iff, not_not]

end Holds

/-- After any calls on a new registry, the identifiers are listed in strictly increasing order,
and they are exactly those under which something was registered. Under each stands what was
registered under it last, which has that identifier: loading and discovery run its functions
with the configuration of the registry, and fail for every other identifier, whatever they are
given. Where a kind of actions was registered, these are the functions of the kind. More calls
change nothing for an identifier that none of them is for. -/
theorem last_registration_wins (config : ActionConfig) (calls : List Registration) :
    let r := (ofConfig config).run calls
    let history := registered calls
    r.ids.Pairwise (· < ·) ∧
    (∀ id, id ∈ r.ids ↔ id ∈ history.map ActionDescriptor.id) ∧
    r.size = r.ids.length ∧
    (∀ id, r.contains id = true ↔ id ∈ r.ids) ∧
    (∀ id, r.get? id = lastUnder history id ∧ ∀ d, r.get? id = some d → d.id = id) ∧
    (∀ id d, lastUnder history id = some d →
      (∀ params, r.load id params = d.load params config) ∧
      ∀ form, r.buildParams id form = .ok (d.discover form config)) ∧
    (∀ (α : Type) [ActionKind α],
      let used := r.perform (.kind α)
      (∀ params, used.load (ActionKind.kindId α) params =
        (ActionKind.ofParams params config : Except ActionError α).map fun a => ⟨α, a⟩) ∧
      ∀ form, used.buildParams (ActionKind.kindId α) form =
        .ok (ActionKind.discover α form config)) ∧
    (∀ id, id ∉ r.ids →
      (∀ params, r.load id params = .error (.unknownAction id)) ∧
      ∀ form, r.buildParams id form = .error (.unknownAction id)) ∧
    ∀ more other, (∀ call ∈ more, other ≠ call.target) → AnswersAlike r (r.run more) other := by
  intro r history
  have h : r.Holds config history := (holds_ofConfig config).run calls
  refine ⟨pairwise_ids h.keys_nodup, fun id => h.mem_ids_iff, (length_ids r).symm,
    fun id => mem_ids_iff.symm, ?_, ?_, ?_, ?_, ?_⟩
  · intro id
    refine ⟨h.get?_eq id, fun d hd => ?_⟩
    rw [h.get?_eq] at hd
    exact id_of_lastUnder hd
  · intro id d hd
    rw [← h.get?_eq] at hd
    refine ⟨fun params => ?_, fun form => ?_⟩
    · rw [load_eq, hd, h.config_eq]
    · rw [buildParams_eq, hd, h.config_eq]
  · intro α kind
    rw [← h.config_eq]
    exact ⟨load_perform_kind r α, buildParams_perform_kind r α⟩
  · intro id hid
    rw [h.mem_ids_iff, ← h.get?_eq_none_iff] at hid
    refine ⟨fun params => ?_, fun form => ?_⟩
    · rw [load_eq, hid]
    · rw [buildParams_eq, hid]
  · intro more other hother
    exact answersAlike_run hother r

/-- The bare action is registered, copied under another identifier, and then replaced under
its own one: the copy still makes bare actions, and goes on to do so. Registered again, the
bare action is made under its own identifier, too. -/
theorem last_registration_wins_copied :
    let config : ActionConfig := ⟨"details", "en", .empty⟩
    let bare := ActionDescriptor.ofKind BareAction
    let copy : ActionDescriptor := { bare with id := "audit" }
    let replaced : ActionDescriptor :=
      { ActionDescriptor.ofKind TranscriptionAction with id := "bare" }
    let calls : List Registration := [.kind BareAction, .kind TranscriptionAction,
      .copy "bare" "audit", .copy "other" "none", .descriptor replaced]
    let more : List Registration := [.kind BareAction, .copy "audit" "other"]
    let r := (ofConfig config).run calls
    let stored := ActionParams.toJson ⟨["clip"], []⟩
    lastUnder (registered calls) "audit" = some copy ∧
      lastUnder (registered calls) "bare" = some replaced ∧ "none" ∉ r.ids ∧
      (∀ call ∈ more, "audit" ≠ call.target) ∧
      (∃ a, r.load "audit" stored = .ok a ∧ Action.id a = "bare") ∧
      (∃ a, r.load "bare" stored = .ok a ∧ Action.id a = "transcript") ∧
      (∃ a, (r.perform (.kind BareAction)).load "bare" stored = .ok a ∧ Action.id a = "bare" ∧
        Action.params a = ⟨["clip"], []⟩) ∧
      r.load "none" stored = .error (.unknownAction "none") ∧
      AnswersAlike r (r.run more) "audit" := by
  intro config bare copy replaced calls more r stored
  obtain ⟨-, listed, -, -, -, known, kinds, unknown, others⟩ := last_registration_wins config calls
  have hcopy : lastUnder (registered calls) "audit" = some copy := rfl
  have hreplaced : lastUnder (registered calls) "bare" = some replaced := rfl
  have hnone : "none" ∉ r.ids := (listed "none").not.mpr (by decide)
  have hmore : ∀ call ∈ more, "audit" ≠ call.target :=
    List.forall_mem_cons.mpr ⟨by decide, List.forall_mem_singleton.mpr (by decide)⟩
  refine ⟨hcopy, hreplaced, hnone, hmore, ?_, ?_, ?_, (unknown "none" hnone).1 stored,
    others more "audit" hmore⟩
  · exact ⟨_, (known "audit" copy hcopy).1 stored, rfl⟩
  · exact ⟨_, (known "bare" replaced hreplaced).1 stored, rfl⟩
  · exact ⟨_, (kinds BareAction).1 stored, rfl, rfl⟩

end ActionRegistry

end SubmissionAnnotation
