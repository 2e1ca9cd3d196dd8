import SubmissionAnnotation.Proofs.Interleaving
import SubmissionAnnotation.Proofs.Sharing

/-!
# Only the set of slots counts

The verdict stops at the first slot that is not settled, and the change step writes what is
missing in the order of the matrix. Neither order shows: a submission passes if all its
slots are settled, and what the change step leaves under a key is known from what stood
there. So the order in which a record lists fields and services changes neither the verdict
nor the data of the submission after a change run, a submission that passes does so for
fewer slots too, and what stands in other entries of the block has no part in the verdict.
-/
namespace SubmissionAnnotation

section Matrices

variable {s : Submission} {destination : String} {matrix first second : FieldServiceMatrix}
  {block : SupplementalBlock}

theorem evaluateSlots_eq_passes_iff_keys :
    evaluateSlots block matrix.pairs = .passes ↔ ∀ key ∈ matrix.keys, Settled block key := by
  rw [evaluateSlots_eq_passes_iff, FieldServiceMatrix.keys]
  exact List.forall_mem_map.symm

theorem evaluateSlots_of_subset (h : first.keys ⊆ second.keys)
    (passes : evaluateSlots block second.pairs = .passes) :
    evaluateSlots block first.pairs = .passes := by
  have settled := evaluateSlots_eq_passes_iff_keys.mp passes
  exact evaluateSlots_eq_passes_iff_keys.mpr fun key hk => settled key (h hk)

theorem evaluateBlock_of_subset (h : first.keys ⊆ second.keys)
    (passes : evaluateBlock s destination second = .ok .passes) :
    evaluateBlock s destination first = .ok .passes := by
  obtain ⟨block, hb, settled⟩ := evaluateBlock_eq_passes_iff.mp passes
  rw [evaluateBlock_of_supplemental hb]
  exact congrArg Except.ok
    (evaluateSlots_of_subset h (evaluateSlots_eq_passes_iff.mpr settled))

theorem evaluateSlots_eq_of_keys (same : ∀ key, key ∈ first.keys ↔ key ∈ second.keys) :
    evaluateSlots block first.pairs = evaluateSlots block second.pairs := by
  have forward : first.keys ⊆ second.keys := fun key => (same key).mp
  have backward : second.keys ⊆ first.keys := fun key => (same key).mpr
  -- There are two verdicts, so it is enough that both lists pass together.
  cases hf : evaluateSlots block first.pairs with
  | passes => exact (evaluateSlots_of_subset backward hf).symm
  | actionNeeded =>
    cases hs : evaluateSlots block second.pairs with
    | passes => exact hf.symm.trans (evaluateSlots_of_subset forward hs)
    | actionNeeded => rfl

theorem evaluateBlock_eq_of_keys (same : ∀ key, key ∈ first.keys ↔ key ∈ second.keys) :
    evaluateBlock s destination first = evaluateBlock s destination second := by
  cases hs : s.supplemental destination with
  | error e => rw [evaluateBlock_eq_error_iff.mpr hs, evaluateBlock_eq_error_iff.mpr hs]
  | ok found =>
    cases found with
    | none =>
      rw [evaluateBlock_of_supplemental_none hs, evaluateBlock_of_supplemental_none hs]
    | some block =>
      rw [evaluateBlock_of_supplemental hs, evaluateBlock_of_supplemental hs,
        evaluateSlots_eq_of_keys same]

theorem get?_advanceBlock_eq_of_keys (same : ∀ key, key ∈ first.keys ↔ key ∈ second.keys)
    (found : Option SupplementalBlock) (key : String) :
    (advanceBlock found first).block.get? key = (advanceBlock found second).block.get? key := by
  rw [get?_advanceBlock, get?_advanceBlock]
  simp only [same]

end Matrices

namespace FieldServiceMatrix

variable {fields fields' services services' : OrderedSet} {joiner : String}

theorem keys_generate_subset (hf : fields.items ⊆ fields'.items)
    (hs : servicesOf services ⊆ servicesOf services') :
    (generate fields services joiner).keys ⊆ (generate fields' services' joiner).keys := by
  refine List.map_subset _ fun p hp => ?_
  obtain ⟨hfield, hservice, hp⟩ := mem_generate_iff.mp hp
  exact mem_generate_iff.mpr ⟨hf hfield, hs hservice, hp⟩

theorem servicesOf_subset (h : services.items ⊆ services'.items) :
    servicesOf services ⊆ servicesOf services' := by
  intro service hs
  rw [mem_servicesOf] at hs ⊢
  exact hs.imp id fun hs => h hs

end FieldServiceMatrix

/-- Two runs fail with the same error, or leave submissions with the same data. -/
inductive SameOutcome : Except ActionError Submission → Except ActionError Submission → Prop
  | error (e : ActionError) : SameOutcome (.error e) (.error e)
  | ok {after after' : Submission} (data : after.toJson.SameData after'.toJson) :
      SameOutcome (.ok after) (.ok after')

namespace TranscriptionAction

variable {config : ActionConfig} {a b : TranscriptionAction} {s : Submission}

theorem mem_keys_iff_of_perm (values : a.params.values.Perm b.params.values)
    (services : (a.params.services.filter (· ≠ manualService)).Perm
      (b.params.services.filter (· ≠ manualService))) (key : String) :
    key ∈ a.matrix.keys ↔ key ∈ b.matrix.keys := by
  have rows : (FieldServiceMatrix.servicesOf a.services).Perm
      (FieldServiceMatrix.servicesOf b.services) := services.cons manualService
  constructor
  · exact fun h => FieldServiceMatrix.keys_generate_subset values.subset rows.subset h
  · exact fun h => FieldServiceMatrix.keys_generate_subset values.symm.subset rows.symm.subset h

theorem sameOutcome_runChange (hd : a.destination = b.destination)
    (same : ∀ key, key ∈ a.matrix.keys ↔ key ∈ b.matrix.keys) (s : Submission) :
    SameOutcome (a.runChange s) (b.runChange s) := by
  rcases s.readable_or_error a.destination with readable | ⟨e, he⟩
  · rw [runChange_of_readable readable, runChange_of_readable (hd ▸ readable), ← hd]
    exact .ok (Submission.sameData_withSupplemental s a.destination
      (get?_advanceBlock_eq_of_keys same _))
  · rw [runChange_eq_error_iff.mpr he, runChange_eq_error_iff.mpr (hd ▸ he)]
    exact .error e

/-- Verdict and change come down to the set of slots and what stands in them. Let two
records be loaded under one configuration. If they list the same fields and, apart from
`manual`, the same services, each in any order, both actions give the same verdict or the
same error on every submission, and change runs of both fail alike or leave the same data.
If the fields and the services of one are among those of the other, what passes for the
other passes for the one. And an action gives the same verdict on any two submissions with
blocks that hold the same under every key of its slots. -/
theorem only_slot_set_counts {recordA recordB : Json}
    (ha : ActionKind.ofParams recordA config = .ok a)
    (hb : ActionKind.ofParams recordB config = .ok b) :
    (a.params.values.Perm b.params.values →
      (a.params.services.filter (· ≠ manualService)).Perm
        (b.params.services.filter (· ≠ manualService)) →
        ∀ s, a.check s = b.check s ∧ SameOutcome (a.runChange s) (b.runChange s)) ∧
    (a.params.values ⊆ b.params.values → a.params.services ⊆ b.params.services →
      ∀ s, b.check s = .ok .passes → a.check s = .ok .passes) ∧
    ∀ (s t : Submission) (block other : SupplementalBlock),
      s.supplemental a.destination = .ok (some block) →
      t.supplemental a.destination = .ok (some other) →
        (∀ key ∈ a.matrix.keys, block.get? key = other.get? key) → a.check s = a.check t := by
  have hd : a.destination = b.destination :=
    (destination_of_load ha).trans (destination_of_load hb).symm
  refine ⟨?_, ?_, ?_⟩
  · intro values services s
    have same := mem_keys_iff_of_perm values services
    refine ⟨?_, sameOutcome_runChange hd same s⟩
    rw [check, check, hd, evaluateBlock_eq_of_keys same]
  · intro values services s passes
    rw [check, hd]
    refine evaluateBlock_of_subset ?_ passes
    exact FieldServiceMatrix.keys_generate_subset values
      (FieldServiceMatrix.servicesOf_subset services)
  · intro s t block other hs ht same
    exact evaluateBlock_congr hs ht same

/-- Two fields in either order, and one of them alone. A run over a submission without a block
writes the slots in the order of the record; what it leaves passes for the one field too, as
does a block that has nothing but the slots of that field. -/
theorem only_slot_set_counts_two_orders :
    let config : ActionConfig := ⟨"details", "en", .empty⟩
    let inOrder : Json := ActionParams.toJson ⟨["clip", "talk"], ["acme"]⟩
    let turned : Json := ActionParams.toJson ⟨["talk", "clip"], ["manual", "acme"]⟩
    let alone : Json := .ofEntries [("values", .ofStrings ["clip"])]
    let bare : SupplementalBlock := ⟨[("clip_transcription_manual", .string "NOT_REQUESTED")]⟩
    ∃ a b c : TranscriptionAction, ActionKind.ofParams inOrder config = .ok a ∧
      ActionKind.ofParams turned config = .ok b ∧ ActionKind.ofParams alone config = .ok c ∧
      ∃ after after', a.runChange .empty = .ok after ∧ b.runChange .empty = .ok after' ∧
        (after.blockAt "details").keys ≠ (after'.blockAt "details").keys ∧
        after.toJson.SameData after'.toJson ∧ b.check after = .ok .passes ∧
        c.check after = .ok .passes ∧ c.check ⟨⟨[("details", .object bare)]⟩⟩ = .ok .passes := by
  intro config inOrder turned alone bare
  let a : TranscriptionAction := ⟨"details", "en", .ofList ["clip", "talk"], .ofList ["acme"]⟩
  let b : TranscriptionAction :=
    ⟨"details", "en", .ofList ["talk", "clip"], .ofList ["manual", "acme"]⟩
  let c : TranscriptionAction := ⟨"details", "en", .ofList ["clip"], .ofList []⟩
  have ha : ActionKind.ofParams inOrder config = .ok a := rfl
  have hb : ActionKind.ofParams turned config = .ok b := rfl
  have hc : ActionKind.ofParams alone config = .ok c := rfl
  obtain ⟨after, hafter⟩ : ∃ after, a.runChange .empty = .ok after := ⟨_, rfl⟩
  obtain ⟨after', hafter'⟩ : ∃ after, b.runChange .empty = .ok after := ⟨_, rfl⟩
  obtain ⟨orders, -, -⟩ := only_slot_set_counts ha hb
  obtain ⟨-, fewer, -⟩ := only_slot_set_counts hc hb
  obtain ⟨-, -, entries⟩ := only_slot_set_counts hc hc
  have same := orders (by decide) (by decide)
  have hdata : after.toJson.SameData after'.toJson := by
    have outcome := (same .empty).2
    rw [hafter, hafter'] at outcome
    cases outcome with
    | ok data => exact data
  have hsettled : a.check after = .ok .passes := by
    cases hafter
    rfl
  have hpasses : b.check after = .ok .passes := (same after).1.symm.trans hsettled
  have halone : c.check after = .ok .passes := fewer (by decide) (by decide) after hpasses
  refine ⟨a, b, c, ha, hb, hc, after, after', hafter, hafter', ?_, hdata, hpasses, halone, ?_⟩
  · cases hafter
    cases hafter'
    decide
  · cases hafter
    refine (entries _ _ bare _ rfl rfl fun key hk => ?_).trans halone
    obtain rfl : key = "clip_transcription_manual" := List.mem_singleton.mp hk
    rfl

end TranscriptionAction

end SubmissionAnnotation
