import SubmissionAnnotation.Proofs.Dispatch

/-!
# Actions that share a block

Several actions may keep their slots in one block. What advancing writes into a slot
depends only on what stands there, and an advanced slot stays as it is. Two walks
therefore leave the same entries in either order, also where both track a slot, and one
after the other they do what a walk of both matrices does. If they have no slot in
common, neither sees what the other wrote, so that its reports and the verdict on its
slots are the same whether the other ran before it or not.
-/
namespace SubmissionAnnotation

theorem evaluateSlots_congr {pairs : List FieldServicePair} {block other : SupplementalBlock}
    (same : ∀ p ∈ pairs, block.get? p.key = other.get? p.key) :
    evaluateSlots block pairs = evaluateSlots other pairs := by
  induction pairs with
  | nil => rfl
  | cons p rest ih =>
    have hp := same p List.mem_cons_self
    have hrest := ih fun q hq => same q (List.mem_cons_of_mem p hq)
    unfold evaluateSlots
    rw [hp, hrest]

theorem evaluateBlock_congr {s t : Submission} {destination : String}
    {matrix : FieldServiceMatrix} {block other : SupplementalBlock}
    (hs : s.supplemental destination = .ok (some block))
    (ht : t.supplemental destination = .ok (some other))
    (same : ∀ key ∈ matrix.keys, block.get? key = other.get? key) :
    evaluateBlock s destination matrix = evaluateBlock t destination matrix := by
  rw [evaluateBlock_of_supplemental hs, evaluateBlock_of_supplemental ht]
  apply congrArg
  apply evaluateSlots_congr
  intro p hp
  exact same p.key (FieldServiceMatrix.key_mem_keys hp)

namespace BlockChange

variable {c other : BlockChange} {p : FieldServicePair} {pairs : List FieldServicePair}
  {keys : List String}

theorem block_foldl_visit_congr (h : c.block = other.block) :
    (pairs.foldl visit c).block = (pairs.foldl visit other).block := by
  induction pairs generalizing c other with
  | nil => exact h
  | cons p rest ih =>
    apply ih
    rw [block_visit, block_visit, h]

/-- Two walks that reported the same so far and find the same in the slots with these keys. -/
structure Agree (keys : List String) (c other : BlockChange) : Prop where
  get?_eq : ∀ key ∈ keys, c.block.get? key = other.block.get? key
  initialized_eq : c.initialized = other.initialized
  requested_eq : c.requested = other.requested

theorem Agree.visit (h : Agree keys c other) (hp : p.key ∈ keys) :
    Agree keys (c.visit p) (other.visit p) := by
  have hentry := h.get?_eq p.key hp
  constructor
  · intro key hk
    rw [get?_visit, get?_visit, h.get?_eq key hk]
  · rw [initialized_visit, initialized_visit, h.initialized_eq]
    simp [List.filter_cons, hentry]
  · rw [requested_visit, requested_visit, h.requested_eq]
    simp [List.filter_cons, hentry]

theorem Agree.foldl_visit (h : Agree keys c other) (tracked : ∀ p ∈ pairs, p.key ∈ keys) :
    Agree keys (pairs.foldl BlockChange.visit c) (pairs.foldl BlockChange.visit other) := by
  induction pairs generalizing c other with
  | nil => exact h
  | cons p rest ih =>
    apply ih
    · exact h.visit (tracked p List.mem_cons_self)
    · intro q hq
      exact tracked q (List.mem_cons_of_mem p hq)

end BlockChange

variable {block other : Option SupplementalBlock} {matrix first second : FieldServiceMatrix}

theorem agree_advanceBlock
    (same : ∀ key ∈ matrix.keys, (block.getD .empty).get? key = (other.getD .empty).get? key) :
    BlockChange.Agree matrix.keys (advanceBlock block matrix) (advanceBlock other matrix) := by
  have start : BlockChange.Agree matrix.keys (.start (block.getD .empty))
      (.start (other.getD .empty)) := ⟨same, rfl, rfl⟩
  exact start.foldl_visit fun p hp => FieldServiceMatrix.key_mem_keys hp

def advanceBoth (block : Option SupplementalBlock) (first second : FieldServiceMatrix) :
    BlockChange :=
  advanceBlock (some (advanceBlock block first).block) second

theorem block_advanceBoth (block : Option SupplementalBlock) (first second : FieldServiceMatrix) :
    (advanceBoth block first second).block =
      (advanceBlock block ⟨first.pairs ++ second.pairs⟩).block := by
  unfold advanceBoth advanceBlock
  rw [List.foldl_append]
  exact BlockChange.block_foldl_visit_congr rfl

theorem get?_advanceBoth (block : Option SupplementalBlock) (first second : FieldServiceMatrix)
    (key : String) :
    (advanceBoth block first second).block.get? key =
      if key ∈ first.keys ∨ key ∈ second.keys then
        some (advancedEntry ((block.getD .empty).get? key))
      else (block.getD .empty).get? key := by
  rw [block_advanceBoth, get?_advanceBlock]
  simp [FieldServiceMatrix.keys]

/-- A walk reports what it would report without another one before it that shares
no slot with it. -/
theorem agree_advanceBoth (block : Option SupplementalBlock)
    (apart : ∀ key ∈ first.keys, key ∉ second.keys) :
    BlockChange.Agree second.keys (advanceBoth block first second) (advanceBlock block second) := by
  apply agree_advanceBlock
  intro key hk
  have hfirst : key ∉ first.keys := fun h => apart key h hk
  rw [Option.getD_some, get?_advanceBlock, if_neg hfirst]

theorem evaluateBlock_withSupplemental_advanceBlock {s : Submission} {destination : String}
    {present : SupplementalBlock} (apart : ∀ key ∈ first.keys, key ∉ second.keys)
    (h : s.supplemental destination = .ok (some present)) :
    evaluateBlock (s.withSupplemental destination (advanceBlock (some present) second).block)
        destination first = evaluateBlock s destination first := by
  refine evaluateBlock_congr (Submission.supplemental_withSupplemental _ _ _) h ?_
  intro key hk
  rw [get?_advanceBlock, if_neg (apart key hk), Option.getD_some]

open TranscriptionAction (clipAction clipBlock clipRequested)

/-- Actions that share a block do not interfere. Advancing it for one matrix and then for
the other leaves the same entries as the other way round, and exactly the block that
one walk of the pairs of both leaves. If no key is in both matrices, each walk also
reports the same slots in either order, and the verdict for one of them on a block that
is there does not change when the block is advanced for the other. -/
theorem shared_block_order_irrelevant (first second : FieldServiceMatrix)
    (block : Option SupplementalBlock) :
    (∀ key, (advanceBoth block first second).block.get? key =
      (advanceBoth block second first).block.get? key) ∧
    (advanceBoth block first second).block =
      (advanceBlock block ⟨first.pairs ++ second.pairs⟩).block ∧
    ((∀ key ∈ first.keys, key ∉ second.keys) →
      (advanceBoth block second first).initialized = (advanceBlock block first).initialized ∧
      (advanceBoth block second first).requested = (advanceBlock block first).requested ∧
      (advanceBoth block first second).initialized = (advanceBlock block second).initialized ∧
      (advanceBoth block first second).requested = (advanceBlock block second).requested ∧
      ∀ (s : Submission) (destination : String) (present : SupplementalBlock),
        s.supplemental destination = .ok (some present) →
          evaluateBlock (s.withSupplemental destination (advanceBlock (some present) second).block)
            destination first = evaluateBlock s destination first) := by
  refine ⟨?_, block_advanceBoth block first second, ?_⟩
  · intro key
    rw [get?_advanceBoth, get?_advanceBoth]
    simp only [or_comm]
  · intro apart
    -- the condition on the keys is symmetric, so each walk may be taken as the second one
    have hfirst := agree_advanceBoth block fun key hs hf => apart key hf hs
    have hsecond := agree_advanceBoth block apart
    refine ⟨hfirst.initialized_eq, hfirst.requested_eq, hsecond.initialized_eq,
      hsecond.requested_eq, ?_⟩
    intro s destination present h
    exact evaluateBlock_withSupplemental_advanceBlock apart h

/-- A translation of the recording is tracked beside its transcripts, in a block in which
a user asked for a transcript. -/
theorem shared_block_order_irrelevant_translation :
    let translation : FieldServiceMatrix := ⟨[.ofNames "clip" "acme" "translation"]⟩
    let advanced := clipRequested.withSupplemental "details"
      (advanceBlock (some clipBlock) translation).block
    (∀ key ∈ clipAction.matrix.keys, key ∉ translation.keys) ∧
    (advanceBoth (some clipBlock) translation clipAction.matrix).requested =
      (advanceBlock (some clipBlock) clipAction.matrix).requested ∧
    evaluateBlock advanced "details" clipAction.matrix = .ok .actionNeeded := by
  intro translation advanced
  have apart : ∀ key ∈ clipAction.matrix.keys, key ∉ translation.keys := by decide
  obtain ⟨-, -, independent⟩ :=
    shared_block_order_irrelevant clipAction.matrix translation (some clipBlock)
  obtain ⟨-, requested, -, -, verdict⟩ := independent apart
  exact ⟨apart, requested, verdict clipRequested "details" clipBlock rfl⟩

end SubmissionAnnotation
