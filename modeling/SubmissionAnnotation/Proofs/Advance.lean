import SubmissionAnnotation.Block
import SubmissionAnnotation.Proofs.Supplement

/-!
# What advancing does to a block

The change step walks the matrix and reads what it wrote itself. Each visit writes
one entry, the one that `advancedEntry` makes of what stands in the slot, and
visiting a slot again changes nothing. A walk is therefore known key by key, also if
the matrix repeats a key: its slots are advanced once, all other entries stay, and
no key moves. The verdict is the other reader of the same slots: it passes a block
exactly if the walk finds every slot settled.
-/
namespace SubmissionAnnotation

namespace FieldStatus

@[simp] theorem ofValue_toValue_notRequested : ofValue notRequested.toValue = notRequested := by
  simp [ofValue, toValue]

@[simp] theorem ofValue_toValue_requestedByUser :
    ofValue requestedByUser.toValue = requestedByUser := by
  simp [ofValue, toValue, notRequestedText, requestedByUserText]

@[simp] theorem ofValue_toValue_pending : ofValue pending.toValue = pending := by
  simp [ofValue, toValue, notRequestedText, requestedByUserText, pendingText]

theorem eq_toValue_of_ofValue {v : Json} {s : FieldStatus} (h : ofValue v = s) : v = s.toValue := by
  rw [← h, toValue_ofValue]

end FieldStatus

def advancedEntry : Option Json → Json
  | none => FieldStatus.notRequested.toValue
  | some v => if (FieldStatus.ofValue v).needsAction then FieldStatus.pending.toValue else v

@[simp] theorem needsAction_advancedEntry (entry : Option Json) :
    (FieldStatus.ofValue (advancedEntry entry)).needsAction = false := by
  cases entry with
  | none => simp [advancedEntry, FieldStatus.needsAction]
  | some v =>
    by_cases h : (FieldStatus.ofValue v).needsAction
    · rw [advancedEntry, if_pos h, FieldStatus.ofValue_toValue_pending]
      rfl
    · simp [advancedEntry, h]

@[simp] theorem advancedEntry_some_advancedEntry (entry : Option Json) :
    advancedEntry (some (advancedEntry entry)) = advancedEntry entry := by
  rw [advancedEntry, needsAction_advancedEntry]
  rfl

theorem advancedEntry_cases (entry : Option Json) :
    (entry = none ∧ advancedEntry entry = FieldStatus.notRequested.toValue) ∨
    (entry = some FieldStatus.requestedByUser.toValue ∧
      advancedEntry entry = FieldStatus.pending.toValue) ∨
    entry = some (advancedEntry entry) := by
  cases entry with
  | none => exact Or.inl ⟨rfl, rfl⟩
  | some v =>
    by_cases h : (FieldStatus.ofValue v).needsAction
    · have hv := FieldStatus.eq_toValue_of_ofValue (FieldStatus.needsAction_iff.mp h)
      exact Or.inr (Or.inl ⟨congrArg some hv, by simp [advancedEntry, h]⟩)
    · exact Or.inr (Or.inr (by simp [advancedEntry, h]))

/-- A slot that is there and that no user has requested: neither the verdict nor the
change step minds it. -/
def Settled (block : SupplementalBlock) (key : String) : Prop :=
  ∃ v, block.get? key = some v ∧ (FieldStatus.ofValue v).needsAction = false

theorem evaluateSlots_eq_passes_iff {block : SupplementalBlock} {pairs : List FieldServicePair} :
    evaluateSlots block pairs = .passes ↔ ∀ p ∈ pairs, Settled block p.key := by
  induction pairs with
  | nil => simp [evaluateSlots]
  | cons p rest ih =>
    rw [evaluateSlots]
    cases hp : block.get? p.key with
    | none => simp [Settled, hp]
    | some v =>
      by_cases hv : (FieldStatus.ofValue v).needsAction
      · simp [Settled, hp, hv]
      · simp [Settled, hp, hv, ih]

namespace BlockChange

variable {c : BlockChange} {p : FieldServicePair} {pairs : List FieldServicePair} {key : String}

theorem block_visit (c : BlockChange) (p : FieldServicePair) :
    (c.visit p).block = c.block.insert p.key (advancedEntry (c.block.get? p.key)) := by
  unfold visit
  cases hp : c.block.get? p.key with
  | none => rfl
  | some v =>
    cases hv : FieldStatus.ofValue v <;>
      simp [hv, advancedEntry, FieldStatus.needsAction, OrderedMap.insert_of_get?_eq hp]

theorem get?_visit (c : BlockChange) (p : FieldServicePair) (key : String) :
    (c.visit p).block.get? key =
      if key = p.key then some (advancedEntry (c.block.get? key)) else c.block.get? key := by
  rw [block_visit, OrderedMap.get?_insert]
  split
  next h => rw [h]
  next => rfl

theorem visit_of_settled (h : Settled c.block p.key) : c.visit p = c := by
  obtain ⟨v, hv, hn⟩ := h
  unfold visit
  cases hs : FieldStatus.ofValue v <;> simp_all [FieldStatus.needsAction]

theorem isNoop_visit_iff : (c.visit p).isNoop = true ↔ c.isNoop = true ∧ Settled c.block p.key := by
  constructor
  · intro h
    unfold visit at h
    cases hp : c.block.get? p.key with
    | none => simp [hp, isNoop] at h
    | some v =>
      cases hv : FieldStatus.ofValue v <;> simp_all [isNoop, Settled, FieldStatus.needsAction]
  · rintro ⟨h, hs⟩
    rwa [visit_of_settled hs]

theorem get?_foldl_visit (pairs : List FieldServicePair) (c : BlockChange) (key : String) :
    (pairs.foldl visit c).block.get? key =
      if key ∈ pairs.map FieldServicePair.key then some (advancedEntry (c.block.get? key))
      else c.block.get? key := by
  induction pairs generalizing c with
  | nil => simp
  | cons p rest ih =>
    rw [List.foldl_cons, ih, get?_visit]
    by_cases hp : key = p.key <;> by_cases hr : key ∈ rest.map FieldServicePair.key <;> simp_all

theorem keys_prefix_foldl_visit (pairs : List FieldServicePair) (c : BlockChange) :
    c.block.keys <+: (pairs.foldl visit c).block.keys := by
  induction pairs generalizing c with
  | nil => exact List.prefix_refl _
  | cons p rest ih =>
    have hp : c.block.keys <+: (c.visit p).block.keys := by
      rw [block_visit]
      exact OrderedMap.keys_prefix_insert _ _ _
    exact hp.trans (ih (c.visit p))

theorem foldl_visit_of_settled (h : ∀ p ∈ pairs, Settled c.block p.key) :
    pairs.foldl visit c = c := by
  induction pairs with
  | nil => rfl
  | cons p rest ih =>
    rw [List.foldl_cons, visit_of_settled (h p List.mem_cons_self)]
    exact ih fun q hq => h q (List.mem_cons_of_mem p hq)

/-- Both directions walk on the block as it was: up to the first slot that is not
settled nothing was written. -/
theorem isNoop_foldl_visit_iff :
    (pairs.foldl visit c).isNoop = true ↔ c.isNoop = true ∧ ∀ p ∈ pairs, Settled c.block p.key := by
  induction pairs generalizing c with
  | nil => simp
  | cons p rest ih =>
    rw [List.foldl_cons, ih, isNoop_visit_iff, List.forall_mem_cons]
    constructor
    · rintro ⟨⟨hc, hp⟩, hr⟩
      rw [visit_of_settled hp] at hr
      exact ⟨hc, hp, hr⟩
    · rintro ⟨hc, hp, hr⟩
      rw [visit_of_settled hp]
      exact ⟨⟨hc, hp⟩, hr⟩

end BlockChange

section Advance

variable {block : Option SupplementalBlock} {matrix : FieldServiceMatrix} {key : String}

theorem get?_advanceBlock (block : Option SupplementalBlock) (matrix : FieldServiceMatrix)
    (key : String) :
    (advanceBlock block matrix).block.get? key =
      if key ∈ matrix.keys then some (advancedEntry ((block.getD .empty).get? key))
      else (block.getD .empty).get? key :=
  BlockChange.get?_foldl_visit _ _ _

theorem keys_prefix_advanceBlock (block : Option SupplementalBlock) (matrix : FieldServiceMatrix) :
    (block.getD .empty).keys <+: (advanceBlock block matrix).block.keys :=
  BlockChange.keys_prefix_foldl_visit matrix.pairs (.start (block.getD .empty))

theorem settled_advanceBlock (block : Option SupplementalBlock) (matrix : FieldServiceMatrix) :
    ∀ p ∈ matrix.pairs, Settled (advanceBlock block matrix).block p.key := by
  intro p hp
  have hk : p.key ∈ matrix.keys := List.mem_map_of_mem hp
  exact ⟨_, by rw [get?_advanceBlock, if_pos hk], needsAction_advancedEntry _⟩

theorem isNoop_advanceBlock_iff :
    (advanceBlock block matrix).isNoop = true ↔
      ∀ p ∈ matrix.pairs, Settled (block.getD .empty) p.key := by
  rw [advanceBlock, BlockChange.isNoop_foldl_visit_iff]
  simp [BlockChange.start, BlockChange.isNoop]

theorem advanceBlock_of_settled (h : ∀ p ∈ matrix.pairs, Settled (block.getD .empty) p.key) :
    advanceBlock block matrix = .start (block.getD .empty) :=
  BlockChange.foldl_visit_of_settled h

/-- A block that advancing does not change had nothing to advance: a slot that was
not settled differs afterwards. -/
theorem block_advanceBlock_eq_iff :
    (advanceBlock block matrix).block = block.getD .empty ↔
      ∀ p ∈ matrix.pairs, Settled (block.getD .empty) p.key := by
  constructor
  · intro h p hp
    rw [← h]
    exact settled_advanceBlock block matrix p hp
  · intro h
    rw [advanceBlock_of_settled h]
    rfl

end Advance

end SubmissionAnnotation
